import Mathlib

/-! Half-open spans laid end to end: where they lie, that they keep apart, and
how long they are together. -/

namespace Spans

variable {point : Type}

/-- Each span starts where the one before it ends, the first at `start`, up to `stop`. -/
def Adjoins : point → List (point × point) → point → Prop
  | start, [], stop => start = stop
  | start, span :: rest, stop => span.1 = start ∧ Adjoins span.2 rest stop

theorem adjoins_concat {start stop : point} {spans : List (point × point)}
    {span : point × point} :
    Adjoins start (spans ++ [span]) stop ↔ Adjoins start spans span.1 ∧ span.2 = stop := by
  induction spans generalizing start with
  | nil => simp [Adjoins, eq_comm]
  | cons head rest ih =>
      simp only [List.cons_append, Adjoins, ih]
      exact and_assoc.symm

theorem Adjoins.sum_lengths [AddCommGroup point] {start stop : point}
    {spans : List (point × point)} (adjoins : Adjoins start spans stop) :
    (spans.map fun span => span.2 - span.1).sum = stop - start := by
  induction spans generalizing start with
  | nil =>
      obtain rfl : start = stop := adjoins
      simp
  | cons head rest ih =>
      obtain ⟨rfl, later⟩ := adjoins
      rw [List.map_cons, List.sum_cons, ih later]
      abel

section Ordered

variable [LinearOrder point] {start stop : point} {spans : List (point × point)}
  (adjoins : Adjoins start spans stop) (ordered : ∀ span ∈ spans, span.1 ≤ span.2)

include adjoins ordered

theorem Adjoins.le : start ≤ stop := by
  induction spans generalizing start with
  | nil => exact le_of_eq adjoins
  | cons head rest ih =>
      obtain ⟨rfl, later⟩ := adjoins
      have restLe := ih later fun span member => ordered span (List.mem_cons_of_mem _ member)
      exact (ordered head (by simp)).trans restLe

theorem Adjoins.inside : ∀ span ∈ spans, start ≤ span.1 ∧ span.2 ≤ stop := by
  induction spans generalizing start with
  | nil => simp
  | cons head rest ih =>
      obtain ⟨rfl, later⟩ := adjoins
      have restOrdered : ∀ span ∈ rest, span.1 ≤ span.2 := fun span member =>
        ordered span (List.mem_cons_of_mem _ member)
      have headOrdered := ordered head (by simp)
      intro span member
      rcases List.mem_cons.mp member with rfl | inRest
      · exact ⟨le_rfl, later.le restOrdered⟩
      · obtain ⟨lower, upper⟩ := ih later restOrdered span inRest
        exact ⟨headOrdered.trans lower, upper⟩

theorem Adjoins.pairwise_disjoint :
    spans.Pairwise fun first second =>
      Disjoint (Set.Ico first.1 first.2) (Set.Ico second.1 second.2) := by
  induction spans generalizing start with
  | nil => exact List.Pairwise.nil
  | cons head rest ih =>
      obtain ⟨rfl, later⟩ := adjoins
      have restOrdered : ∀ span ∈ rest, span.1 ≤ span.2 := fun span member =>
        ordered span (List.mem_cons_of_mem _ member)
      refine List.pairwise_cons.mpr ⟨?_, ih later restOrdered⟩
      intro span member
      have lower := (later.inside restOrdered span member).1
      exact Set.Ico_disjoint_Ico.mpr ((min_le_left _ _).trans (lower.trans (le_max_right _ _)))

end Ordered

end Spans
