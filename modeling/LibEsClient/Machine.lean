import Mathlib

/-! Deterministic machines that answer each input, their runs as lists of
transitions, and the induction rules that carry a step fact to a whole run. -/

namespace Machines

structure Machine (state input output : Type) where
  step : state → input → state × output

structure Transition (state input output : Type) where
  before : state
  input : input
  output : output
  after : state

variable {state input output : Type}

namespace Machine

variable (machine : Machine state input output)

def transition (before : state) (given : input) : Transition state input output where
  before := before
  input := given
  output := (machine.step before given).2
  after := (machine.step before given).1

def run : state → List input → List (Transition state input output)
  | _, [] => []
  | before, given :: rest =>
      machine.transition before given :: run (machine.step before given).1 rest

def final : state → List input → state
  | before, [] => before
  | before, given :: rest => final (machine.step before given).1 rest

theorem run_append (start : state) (first second : List input) :
    machine.run start (first ++ second) =
      machine.run start first ++ machine.run (machine.final start first) second := by
  induction first generalizing start with
  | nil => rfl
  | cons given rest ih => simp only [List.cons_append, run, final, ih]

theorem final_append (start : state) (first second : List input) :
    machine.final start (first ++ second) =
      machine.final (machine.final start first) second := by
  induction first generalizing start with
  | nil => rfl
  | cons given rest ih => simp only [List.cons_append, final, ih]

@[simp] theorem run_concat (start : state) (inputs : List input) (given : input) :
    machine.run start (inputs ++ [given]) =
      machine.run start inputs ++ [machine.transition (machine.final start inputs) given] := by
  rw [run_append]
  rfl

@[simp] theorem final_concat (start : state) (inputs : List input) (given : input) :
    machine.final start (inputs ++ [given]) =
      (machine.step (machine.final start inputs) given).1 := by
  rw [final_append]
  rfl

theorem run_split (start : state) (inputs : List input)
    {earlier later : List (Transition state input output)} {found : Transition state input output}
    (split : machine.run start inputs = earlier ++ found :: later) :
    ∃ first given second, inputs = first ++ given :: second ∧ machine.run start first = earlier ∧
      found = machine.transition (machine.final start first) given ∧
      machine.run found.after second = later := by
  induction earlier generalizing start inputs with
  | nil =>
      cases inputs with
      | nil => simp [run] at split
      | cons given rest =>
          simp only [run, List.nil_append, List.cons.injEq] at split
          obtain ⟨same, tail⟩ := split
          refine ⟨[], given, rest, rfl, rfl, same.symm, ?_⟩
          rw [← same]
          exact tail
  | cons head earlier ih =>
      cases inputs with
      | nil => simp [run] at split
      | cons given rest =>
          simp only [run, List.cons_append, List.cons.injEq] at split
          obtain ⟨same, tail⟩ := split
          obtain ⟨first, next, second, rfl, prior, here, after⟩ := ih _ _ tail
          exact ⟨given :: first, next, second, rfl, by rw [run, same, prior], here, after⟩

theorem mem_run_iff (start : state) (inputs : List input)
    (found : Transition state input output) :
    found ∈ machine.run start inputs ↔
      ∃ earlier given later, inputs = earlier ++ given :: later ∧
        found = machine.transition (machine.final start earlier) given := by
  constructor
  · intro member
    obtain ⟨before, after, split⟩ := List.append_of_mem member
    obtain ⟨earlier, given, later, same, _, here, _⟩ := machine.run_split _ _ split
    exact ⟨earlier, given, later, same, here⟩
  · rintro ⟨earlier, given, later, rfl, rfl⟩
    rw [run_append]
    simp [run]

theorem mem_run_input {start : state} {inputs : List input}
    {found : Transition state input output} (member : found ∈ machine.run start inputs) :
    found.input ∈ inputs := by
  obtain ⟨earlier, given, later, rfl, rfl⟩ := (machine.mem_run_iff _ _ _).mp member
  simp [transition]

theorem run_congr (other : Machine state input output) (start : state) (inputs : List input)
    (same : ∀ found ∈ machine.run start inputs,
      other.step found.before found.input = machine.step found.before found.input) :
    other.run start inputs = machine.run start inputs ∧
      other.final start inputs = machine.final start inputs := by
  induction inputs generalizing start with
  | nil => exact ⟨rfl, rfl⟩
  | cons given rest ih =>
      have first : other.step start given = machine.step start given :=
        same (machine.transition start given) (by simp [run])
      have later := ih (machine.step start given).1 fun found member =>
        same found (List.mem_cons_of_mem _ member)
      simp only [run, final, transition, first, later, and_self]

/-- Run rule for two machines in step: where each step is one of the other machine seen
through the views, so is the run. -/
theorem run_simulates {otherState otherInput otherOutput : Type}
    (other : Machine otherState otherInput otherOutput) (view : state → otherState)
    (ask : input → otherInput) (say : Transition state input output → otherOutput)
    (start : state) (inputs : List input)
    (same : ∀ found ∈ machine.run start inputs,
      other.step (view found.before) (ask found.input) = (view found.after, say found)) :
    (other.run (view start) (inputs.map ask)).map Transition.output =
        (machine.run start inputs).map say ∧
      other.final (view start) (inputs.map ask) = view (machine.final start inputs) := by
  induction inputs generalizing start with
  | nil => exact ⟨rfl, rfl⟩
  | cons given rest ih =>
      have first : other.step (view start) (ask given) =
          (view (machine.step start given).1, say (machine.transition start given)) :=
        same (machine.transition start given) (by simp [run])
      have later := ih (machine.step start given).1 fun found member =>
        same found (List.mem_cons_of_mem _ member)
      simp only [List.map_cons, run, final, transition, first, later]
      exact ⟨trivial, trivial⟩

/-- Run rule for a property of a history and the state it ends in. A guard may
be assumed of every transition of the run. -/
theorem history_induction (start : state)
    (Guard : Transition state input output → Prop)
    (Holds : List (Transition state input output) → state → Prop)
    (initial : Holds [] start)
    (preserved : ∀ history before given, Holds history before →
      Guard (machine.transition before given) →
        Holds (history ++ [machine.transition before given]) (machine.step before given).1) :
    ∀ inputs, (∀ found ∈ machine.run start inputs, Guard found) →
      Holds (machine.run start inputs) (machine.final start inputs) := by
  intro inputs
  induction inputs using List.reverseRecOn with
  | nil => exact fun _ => initial
  | append_singleton earlier given ih =>
      intro guarded
      rw [run_concat, final_concat]
      rw [run_concat] at guarded
      apply preserved
      · exact ih fun found member => guarded found (List.mem_append_left _ member)
      · exact guarded _ (by simp)

/-- Run rule for an invariant: what each guarded step keeps and gives, every
guarded run keeps and gives at all its transitions. -/
theorem invariant_induction (start : state)
    (Guard Gives : Transition state input output → Prop) (Invariant : state → Prop)
    (initial : Invariant start)
    (preserved : ∀ before given, Invariant before →
      Guard (machine.transition before given) →
        Gives (machine.transition before given) ∧ Invariant (machine.step before given).1) :
    ∀ inputs, (∀ found ∈ machine.run start inputs, Guard found) →
      (∀ found ∈ machine.run start inputs, Gives found) ∧
        Invariant (machine.final start inputs) := by
  apply machine.history_induction start Guard
    (fun history final => (∀ found ∈ history, Gives found) ∧ Invariant final)
  · exact ⟨by simp, initial⟩
  · rintro history before given ⟨gives, invariant⟩ guard
    obtain ⟨last, next⟩ := preserved before given invariant guard
    refine ⟨?_, next⟩
    intro found member
    rcases List.mem_append.mp member with earlier | same
    · exact gives found earlier
    · rw [List.mem_singleton.mp same]
      exact last

end Machine

end Machines
