import MouseAide.Base.Machine
import MouseAide.Base.Circular
import MouseAide.Base.Fifo
import MouseAide.Base.Quads
import MouseAide.Base.Sampling
import MouseAide.Base.Backlog
import MouseAide.Base.ReportDescriptor
import MouseAide.Base.Cascade
import MouseAide.Base.Records
import MouseAide.Base.Packets
import MouseAide.Host.AddressPool
import MouseAide.Host.PoolRuns
import MouseAide.Host.Topology
import MouseAide.Host.ConfigParser
import MouseAide.Host.DescriptorWalk
import MouseAide.Host.Endpoints
import MouseAide.Host.Transfer
import MouseAide.Host.TransferRuns
import MouseAide.Host.ControlRead
import MouseAide.Host.Frames
import MouseAide.Host.HidBoot
import MouseAide.Host.HidBootRuns
import MouseAide.Host.Polls
import MouseAide.Host.Enumeration
import MouseAide.Translator.Parser
import MouseAide.Translator.Buttons
import MouseAide.Translator.Motion
import MouseAide.Translator.Range
import MouseAide.Translator.Kick
import MouseAide.Firmware.RingBuffer
import MouseAide.Firmware.RingSession
import MouseAide.Firmware.Device
import MouseAide.Firmware.Main
import MouseAide.Firmware.Steps
import MouseAide.Firmware.Receive
import MouseAide.Firmware.Framing
import MouseAide.Firmware.Overrun
import MouseAide.Firmware.Reports
import MouseAide.Firmware.Relative
import MouseAide.Firmware.Link
import MouseAide.Firmware.Progress
import MouseAide.Firmware.Descriptors
import MouseAide.System.EndToEnd
import MouseAide.System.Conformance
import MouseAide.System.Shield

