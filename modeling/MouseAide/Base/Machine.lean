import Mathlib.Data.List.Infix

/-!
# Input-driven machines and their observable runs

Library `MouseBase`. A machine consumes one input a step and appends the observations
of that step to its trace. A run is a finite input list from the initial state, so a
law of every input list is a law of every run and, with prefixes, of every moment in it.
Nothing here names a program: states, inputs and observations are arbitrary types.
-/

namespace MouseAide.Base

universe u v w

/-- A step of `l ++ [y]` is its last one or a step of `l`. -/
theorem concat_prefix_concat_iff {α : Type u} {pre l : List α} {x y : α} :
    pre ++ [x] <+: l ++ [y] ↔ pre = l ∧ x = y ∨ pre ++ [x] <+: l := by
  rw [List.prefix_concat_iff]
  apply or_congr_left
  constructor
  · intro h
    obtain ⟨hpre, hx⟩ := List.append_inj' h rfl
    exact ⟨hpre, by simpa using hx⟩
  · rintro ⟨rfl, rfl⟩
    rfl

/-- A law of every step of `l ++ [y]` is one of every step of `l` and of the last one. -/
theorem forall_prefix_concat {α : Type u} {P : List α → α → Prop} {l : List α} {y : α} :
    (∀ pre x, pre ++ [x] <+: l ++ [y] → P pre x) ↔
      (∀ pre x, pre ++ [x] <+: l → P pre x) ∧ P l y := by
  constructor
  · intro h
    exact ⟨fun pre x hp ↦ h pre x (hp.trans (List.prefix_append _ _)), h l y (List.prefix_refl _)⟩
  · rintro ⟨h, hy⟩ pre x hp
    rcases concat_prefix_concat_iff.mp hp with ⟨rfl, rfl⟩ | hp
    · exact hy
    · exact h pre x hp

/-- Steps that cannot break the law may be appended. -/
theorem forall_prefix_append {α : Type u} {P : List α → α → Prop} {l l' : List α}
    (h : ∀ x ∈ l', ∀ pre, P pre x) :
    (∀ pre x, pre ++ [x] <+: l ++ l' → P pre x) ↔ ∀ pre x, pre ++ [x] <+: l → P pre x := by
  induction l' using List.reverseRecOn with
  | nil => rw [List.append_nil]
  | append_singleton l' x ih =>
    rw [← List.append_assoc, forall_prefix_concat, ih fun y hy ↦ h y (List.mem_append_left _ hy)]
    exact and_iff_left (h x (by simp) _)

/-- A deterministic machine; one input moves the state and yields its observations. -/
structure Machine (State : Type u) (Input : Type v) (Obs : Type w) where
  init : State
  step : State → Input → State × List Obs

namespace Machine

variable {State : Type u} {Input : Type v} {Obs : Type w} (m : Machine State Input Obs)

/-- Final state and whole trace of the run on an input list. -/
def exec (inputs : List Input) : State × List Obs :=
  inputs.foldl (fun c i ↦ ((m.step c.1 i).1, c.2 ++ (m.step c.1 i).2)) (m.init, [])

/-- State reached by the run. -/
def state (inputs : List Input) : State := (m.exec inputs).1

/-- Observations of the run, oldest first. -/
def trace (inputs : List Input) : List Obs := (m.exec inputs).2

/-- The empty run stays in the initial state. -/
@[simp] theorem state_nil : m.state [] = m.init := rfl

/-- The empty run observes nothing. -/
@[simp] theorem trace_nil : m.trace [] = [] := rfl

/-- The last input acts on the state before it. -/
@[simp] theorem state_concat (inputs : List Input) (i : Input) :
    m.state (inputs ++ [i]) = (m.step (m.state inputs) i).1 := by
  simp [state, exec, List.foldl_append]

/-- The last input appends its own observations. -/
@[simp] theorem trace_concat (inputs : List Input) (i : Input) :
    m.trace (inputs ++ [i]) = m.trace inputs ++ (m.step (m.state inputs) i).2 := by
  simp [trace, state, exec, List.foldl_append]

/-- A longer run extends the trace. -/
theorem trace_mono {pre inputs : List Input} (h : pre <+: inputs) :
    m.trace pre <+: m.trace inputs := by
  obtain ⟨rest, rfl⟩ := h
  induction rest using List.reverseRecOn with
  | nil => simp
  | append_singleton rest i ih =>
    rw [← List.append_assoc, trace_concat]
    exact ih.trans (List.prefix_append _ _)

/-! ### Conditions on runs -/

/-- Every step of the run meets `ok`, asked of the state, trace and input before the step. -/
def Meets (ok : State → List Obs → Input → Prop) (inputs : List Input) : Prop :=
  ∀ pre i, pre ++ [i] <+: inputs → ok (m.state pre) (m.trace pre) i

/-- Every moment of the run satisfies `P`. -/
def Always (P : State → List Obs → Prop) (inputs : List Input) : Prop :=
  ∀ pre, pre <+: inputs → P (m.state pre) (m.trace pre)

variable {m}

/-- A step condition holds of every shorter run. -/
theorem Meets.of_prefix {ok : State → List Obs → Input → Prop} {pre inputs : List Input}
    (h : m.Meets ok inputs) (hp : pre <+: inputs) : m.Meets ok pre :=
  fun p i hi ↦ h p i (hi.trans hp)

/-- A moment condition holds of every shorter run. -/
theorem Always.of_prefix {P : State → List Obs → Prop} {pre inputs : List Input}
    (h : m.Always P inputs) (hp : pre <+: inputs) : m.Always P pre :=
  fun p hi ↦ h p (hi.trans hp)

/-- A moment condition holds at the end of the run. -/
theorem Always.last {P : State → List Obs → Prop} {inputs : List Input}
    (h : m.Always P inputs) : P (m.state inputs) (m.trace inputs) :=
  h inputs (List.prefix_refl _)

/-- The last step of a run that meets `ok` meets it. -/
theorem Meets.last {ok : State → List Obs → Input → Prop} {inputs : List Input} {i : Input}
    (h : m.Meets ok (inputs ++ [i])) : ok (m.state inputs) (m.trace inputs) i :=
  h inputs i (List.prefix_refl _)

/-- A moment condition is in particular a condition before every step. -/
theorem Always.meets {P : State → List Obs → Prop} {inputs : List Input}
    (h : m.Always P inputs) : m.Meets (fun s o _ ↦ P s o) inputs :=
  fun pre i hi ↦ h pre ((List.prefix_append pre [i]).trans hi)

/-- A fact of every reachable state is a condition every step meets. -/
theorem meets_reach {J : State → List Obs → Prop}
    (reach : ∀ inputs, J (m.state inputs) (m.trace inputs))
    (inputs : List Input) : m.Meets (fun s o _ ↦ J s o) inputs :=
  fun pre _ _ ↦ reach pre

/-- Two step conditions hold together. -/
theorem Meets.and {ok ok' : State → List Obs → Input → Prop} {inputs : List Input}
    (h : m.Meets ok inputs) (h' : m.Meets ok' inputs) :
    m.Meets (fun s o i ↦ ok s o i ∧ ok' s o i) inputs :=
  fun pre i hi ↦ ⟨h pre i hi, h' pre i hi⟩

/-- A step condition is checked at every input of the list. -/
theorem meets_iff_take {ok : State → List Obs → Input → Prop} {inputs : List Input} :
    m.Meets ok inputs ↔ ∀ k, (hk : k < inputs.length) →
      ok (m.state (inputs.take k)) (m.trace (inputs.take k)) inputs[k] := by
  constructor
  · intro h k hk
    apply h
    rw [List.take_append_getElem hk]
    exact List.take_prefix _ _
  · rintro h pre i ⟨rest, rfl⟩
    have hk := h pre.length (by simp)
    simpa using hk

/-- A moment condition is checked after every number of inputs. -/
theorem always_iff_take {P : State → List Obs → Prop} {inputs : List Input} :
    m.Always P inputs ↔ ∀ k, k < inputs.length + 1 →
      P (m.state (inputs.take k)) (m.trace (inputs.take k)) := by
  constructor
  · intro h k _
    exact h _ (List.take_prefix _ _)
  · rintro h pre ⟨rest, rfl⟩
    have hk := h pre.length (by rw [List.length_append]; omega)
    simpa using hk

instance {ok : State → List Obs → Input → Prop} [∀ s o i, Decidable (ok s o i)]
    (inputs : List Input) : Decidable (m.Meets ok inputs) :=
  decidable_of_iff _ meets_iff_take.symm

instance {P : State → List Obs → Prop} [∀ s o, Decidable (P s o)] (inputs : List Input) :
    Decidable (m.Always P inputs) :=
  decidable_of_iff _ always_iff_take.symm

/-! ### The invariant rule -/

/-- A property that holds initially and survives every admitted step holds after every run. -/
theorem invariant {ok : State → List Obs → Input → Prop} {Inv : State → List Obs → Prop}
    (base : Inv m.init [])
    (step : ∀ s o i, Inv s o → ok s o i → Inv (m.step s i).1 (o ++ (m.step s i).2))
    {inputs : List Input} (h : m.Meets ok inputs) : Inv (m.state inputs) (m.trace inputs) := by
  induction inputs using List.reverseRecOn with
  | nil => exact base
  | append_singleton inputs i ih =>
    rw [state_concat, trace_concat]
    exact step _ _ _ (ih (h.of_prefix (List.prefix_append _ _))) h.last

/-- The unconditional form: an inductive property holds after every run. -/
theorem invariant_all {Inv : State → List Obs → Prop} (base : Inv m.init [])
    (step : ∀ s o i, Inv s o → Inv (m.step s i).1 (o ++ (m.step s i).2))
    (inputs : List Input) : Inv (m.state inputs) (m.trace inputs) := by
  have hall : m.Meets (fun _ _ _ ↦ True) inputs := fun _ _ _ ↦ trivial
  exact invariant base (fun s o i h _ ↦ step s o i h) hall

/-- A run extended by one input meets `ok` when the run does and the input does. -/
theorem meets_concat {ok : State → List Obs → Input → Prop} {inputs : List Input} {i : Input} :
    m.Meets ok (inputs ++ [i]) ↔ m.Meets ok inputs ∧ ok (m.state inputs) (m.trace inputs) i :=
  forall_prefix_concat

/-- A moment condition holds throughout a longer run when it does before and at its end. -/
theorem always_concat {P : State → List Obs → Prop} {inputs : List Input} {i : Input} :
    m.Always P (inputs ++ [i]) ↔
      m.Always P inputs ∧ P (m.state (inputs ++ [i])) (m.trace (inputs ++ [i])) := by
  constructor
  · intro h
    exact ⟨h.of_prefix (List.prefix_append _ _), h.last⟩
  · rintro ⟨h, hi⟩ pre hp
    rcases List.prefix_concat_iff.mp hp with rfl | hp
    · exact hi
    · exact h pre hp

/-- The exact rule: a property that each step keeps precisely when the step meets `ok` holds
precisely of the runs whose steps all do. `J` is any fact about reachable states. -/
theorem invariant_iff {J Inv : State → List Obs → Prop} {ok : State → List Obs → Input → Prop}
    (reach : ∀ inputs, J (m.state inputs) (m.trace inputs)) (base : Inv m.init [])
    (step : ∀ s o i, J s o → (Inv (m.step s i).1 (o ++ (m.step s i).2) ↔ Inv s o ∧ ok s o i))
    (inputs : List Input) :
    Inv (m.state inputs) (m.trace inputs) ↔ m.Meets ok inputs := by
  induction inputs using List.reverseRecOn with
  | nil =>
    refine ⟨fun _ pre i hp ↦ ?_, fun _ ↦ base⟩
    simpa using hp.length_le
  | append_singleton inputs i ih =>
    rw [state_concat, trace_concat, step _ _ _ (reach inputs), ih, meets_concat]

/-- The simulation rule: machines whose steps agree from related states, as far as the first
one meets `ok`, stay related and leave the same trace. -/
theorem simulation {State' : Type u} {m' : Machine State' Input Obs} {R : State → State' → Prop}
    {ok : State → List Obs → Input → Prop} (base : R m.init m'.init)
    (step : ∀ s s' o i, R s s' → ok s o i →
      R (m.step s i).1 (m'.step s' i).1 ∧ (m.step s i).2 = (m'.step s' i).2)
    {inputs : List Input} (h : m.Meets ok inputs) :
    R (m.state inputs) (m'.state inputs) ∧ m.trace inputs = m'.trace inputs := by
  induction inputs using List.reverseRecOn with
  | nil => exact ⟨base, rfl⟩
  | append_singleton inputs i ih =>
    obtain ⟨hR, htrace⟩ := ih (h.of_prefix (List.prefix_append _ _))
    obtain ⟨hnext, hobs⟩ := step _ _ _ _ hR h.last
    rw [state_concat, state_concat, trace_concat, trace_concat, htrace, hobs]
    exact ⟨hnext, rfl⟩

/-! ### The progress rule -/

/-- An input that keeps `J` and lowers a rank until the goal is met: enough of it meets the
goal. -/
theorem exists_replicate {J goal : List Input → Prop} {i : Input} (rank : List Input → Nat)
    (step : ∀ inputs, J inputs → ¬ goal inputs →
      J (inputs ++ [i]) ∧ rank (inputs ++ [i]) < rank inputs)
    {inputs : List Input} (h : J inputs) :
    ∃ n, J (inputs ++ List.replicate n i) ∧ goal (inputs ++ List.replicate n i) := by
  induction hr : rank inputs using Nat.strongRecOn generalizing inputs with
  | ind r ih =>
    by_cases hgoal : goal inputs
    · exact ⟨0, by simpa using h, by simpa using hgoal⟩
    · obtain ⟨hJ, hlt⟩ := step inputs h hgoal
      obtain ⟨n, hn⟩ := ih _ (hr ▸ hlt) hJ rfl
      rw [List.append_assoc] at hn
      exact ⟨n + 1, hn⟩

/-! ### Machines in series -/

variable {State' Input' : Type*}

/-- The machine in state `s`. -/
def startAt (m : Machine State Input Obs) (s : State) : Machine State Input Obs :=
  { m with init := s }

/-- A run in two parts. -/
theorem exec_append (inputs rest : List Input) :
    m.exec (inputs ++ rest) = ((m.startAt (m.state inputs)).state rest,
      m.trace inputs ++ (m.startAt (m.state inputs)).trace rest) := by
  induction rest using List.reverseRecOn with
  | nil =>
    rw [List.append_nil, trace_nil, List.append_nil]
    rfl
  | append_singleton rest i ih =>
    rw [← List.append_assoc]
    ext1
    · change m.state (inputs ++ rest ++ [i]) = (m.startAt (m.state inputs)).state (rest ++ [i])
      rw [state_concat, state_concat, state, ih]
      rfl
    · change m.trace (inputs ++ rest ++ [i]) =
        m.trace inputs ++ (m.startAt (m.state inputs)).trace (rest ++ [i])
      rw [trace_concat, trace_concat, trace, state, ih, List.append_assoc]
      rfl

/-- The machine `m` runs on what `d` observes. -/
def andThen (d : Machine State' Input' Input) (m : Machine State Input Obs) :
    Machine (State' × State) Input' Obs where
  init := (d.init, m.init)
  step s i :=
    let r := d.step s.1 i
    let c := (m.startAt s.2).exec r.2
    ((r.1, c.1), c.2)

/-- A run in series is a run of the first machine, and one of the second on what it observes. -/
theorem exec_andThen (d : Machine State' Input' Input) (inputs : List Input') :
    (d.andThen m).exec inputs =
      ((d.state inputs, m.state (d.trace inputs)), m.trace (d.trace inputs)) := by
  induction inputs using List.reverseRecOn with
  | nil => rfl
  | append_singleton inputs i ih =>
    have hexec := m.exec_append (d.trace inputs) (d.step (d.state inputs) i).2
    rw [← trace_concat] at hexec
    ext1
    · change (d.andThen m).state (inputs ++ [i]) = _
      rw [state_concat, state, ih, state_concat]
      exact congrArg (Prod.mk _) (congrArg Prod.fst hexec).symm
    · change (d.andThen m).trace (inputs ++ [i]) = _
      rw [trace_concat, trace, state, ih]
      exact (congrArg Prod.snd hexec).symm

@[simp] theorem state_andThen (d : Machine State' Input' Input) (inputs : List Input') :
    (d.andThen m).state inputs = (d.state inputs, m.state (d.trace inputs)) := by
  rw [state, exec_andThen]

@[simp] theorem trace_andThen (d : Machine State' Input' Input) (inputs : List Input') :
    (d.andThen m).trace inputs = m.trace (d.trace inputs) := by
  rw [trace, exec_andThen]

end Machine

end MouseAide.Base
