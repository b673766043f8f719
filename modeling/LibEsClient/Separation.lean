import Mathlib

/-! Heaps of blocks, programs that allocate, read, write and free them, and a
separation logic for what such programs do. A triple speaks of the blocks a program
owns, and says that it ends without a fault and leaves every other block alone. -/

namespace Heaps

abbrev Heap (address block : Type) := Finmap fun _ : address => block

inductive Fault
  | access
  | free
  | abort
  deriving DecidableEq, Repr

abbrev Program (address block : Type) := StateT (Heap address block) (Except Fault)

/-- Where the next block goes: anywhere that is not in use. -/
structure Allocator (address block : Type) where
  fresh : Heap address block → address
  unused : ∀ heap, fresh heap ∉ heap

/-- The first address above all that are in use. -/
def Allocator.next (block : Type) : Allocator Nat block where
  fresh heap := heap.keys.sup id + 1
  unused heap used := by
    have above : heap.keys.sup id + 1 ≤ heap.keys.sup id :=
      Finset.le_sup (f := id) (Finmap.mem_keys.mpr used)
    omega

section Programs

variable {address block : Type} [DecidableEq address]

def malloc (allocator : Allocator address block) (content : block) :
    Program address block (Option address) :=
  fun heap => .ok (some (allocator.fresh heap), heap.insert (allocator.fresh heap) content)

def load : Option address → Program address block block
  | none => fun _ => .error .access
  | some target => fun heap => (heap.lookup target).elim (.error .access) fun found =>
      .ok (found, heap)

def store : Option address → block → Program address block Unit
  | none, _ => fun _ => .error .access
  | some target, content => fun heap =>
      if target ∈ heap then .ok ((), heap.insert target content) else .error .access

def free : Option address → Program address block Unit
  | none => fun heap => .ok ((), heap)
  | some target => fun heap =>
      if target ∈ heap then .ok ((), heap.erase target) else .error .free

def fail {result : Type} (fault : Fault) : Program address block result := fun _ => .error fault

def loadAs {cell : Type} (select : block → Option cell) (pointer : Option address) :
    Program address block cell := do
  let found ← load pointer
  (select found).elim (fail .access) pure

end Programs

/-! Assertions about the owned part of a heap, a commutative monoid: the product owns
what both factors own, apart from each other. -/

def Assertion (address block : Type) := Heap address block → Prop

namespace Assertion

section Blocks

variable {address block : Type}

def emp : Assertion address block := fun heap => heap = ∅

def fact (holds : Prop) : Assertion address block := fun heap => holds ∧ heap = ∅

def any {index : Type} (family : index → Assertion address block) : Assertion address block :=
  fun heap => ∃ chosen, family chosen heap

def pointsTo (pointer : Option address) (content : block) : Assertion address block := fun heap =>
  ∃ target, pointer = some target ∧ heap = Finmap.singleton target content

/-- So many blocks, whatever they hold. -/
def blocks (count : Nat) : Assertion address block := fun heap => heap.keys.card = count

def Owns (held : Assertion address block) (count : Nat) : Prop :=
  ∀ heap, held heap → heap.keys.card = count

theorem Owns.of_eq {held : Assertion address block} {count other : Nat} (owned : held.Owns count)
    (same : count = other) : held.Owns other :=
  same ▸ owned

theorem owns_fact (holds : Prop) : (fact holds : Assertion address block).Owns 0 := by
  rintro heap ⟨_, rfl⟩
  simp

theorem owns_pointsTo (pointer : Option address) (content : block) :
    (pointsTo pointer content).Owns 1 := by
  rintro heap ⟨target, _, rfl⟩
  simp

theorem Owns.any {index : Type} {family : index → Assertion address block} {count : Nat}
    (each : ∀ chosen, (family chosen).Owns count) : (any family).Owns count := by
  rintro heap ⟨chosen, inHeap⟩
  exact each chosen heap inHeap

end Blocks

section Products

variable {address block : Type} [DecidableEq address]

def sep (first second : Assertion address block) : Assertion address block := fun heap =>
  ∃ left right, left.Disjoint right ∧ heap = left ∪ right ∧ first left ∧ second right

theorem sep_comm (first second : Assertion address block) :
    sep first second = sep second first := by
  have swap (first second : Assertion address block) (heap : Heap address block)
      (both : sep first second heap) : sep second first heap := by
    obtain ⟨left, right, apart, rfl, inLeft, inRight⟩ := both
    exact ⟨right, left, apart.symm, Finmap.union_comm_of_disjoint apart, inRight, inLeft⟩
  funext heap
  exact propext ⟨swap first second heap, swap second first heap⟩

theorem sep_assoc (first second third : Assertion address block) :
    sep (sep first second) third = sep first (sep second third) := by
  funext heap
  refine propext ⟨?_, ?_⟩
  · rintro ⟨_, right, apart, rfl, ⟨left, middle, inner, rfl, inLeft, inMiddle⟩, inRight⟩
    obtain ⟨outerLeft, outerMiddle⟩ := (Finmap.disjoint_union_left _ _ _).mp apart
    exact ⟨left, middle ∪ right, (Finmap.disjoint_union_right _ _ _).mpr ⟨inner, outerLeft⟩,
      Finmap.union_assoc, inLeft, middle, right, outerMiddle, rfl, inMiddle, inRight⟩
  · rintro ⟨left, _, apart, rfl, inLeft, middle, right, inner, rfl, inMiddle, inRight⟩
    obtain ⟨outerMiddle, outerRight⟩ := (Finmap.disjoint_union_right _ _ _).mp apart
    exact ⟨left ∪ middle, right, (Finmap.disjoint_union_left _ _ _).mpr ⟨outerRight, inner⟩,
      Finmap.union_assoc.symm, ⟨left, middle, outerMiddle, rfl, inLeft, inMiddle⟩, inRight⟩

theorem emp_sep (held : Assertion address block) : sep emp held = held := by
  funext heap
  refine propext ⟨?_, ?_⟩
  · rintro ⟨_, right, _, rfl, rfl, inRight⟩
    rwa [Finmap.empty_union]
  · intro holds
    exact ⟨∅, heap, Finmap.disjoint_empty heap, Finmap.empty_union.symm, rfl, holds⟩

instance : CommMonoid (Assertion address block) where
  mul := sep
  one := emp
  mul_assoc := sep_assoc
  mul_comm := sep_comm
  one_mul := emp_sep
  mul_one held := (sep_comm held emp).trans (emp_sep held)

theorem not_pointsTo_null (content : block) (held : Assertion address block)
    (heap : Heap address block) :
    ¬(pointsTo none content * held : Assertion address block) heap := by
  rintro ⟨_, _, _, _, ⟨_, null, _⟩, _⟩
  cases null

theorem fact_mul_apply (holds : Prop) (held : Assertion address block)
    (heap : Heap address block) :
    (fact holds * held : Assertion address block) heap ↔ holds ∧ held heap := by
  constructor
  · rintro ⟨_, right, _, rfl, ⟨truth, rfl⟩, inRight⟩
    rw [Finmap.empty_union]
    exact ⟨truth, inRight⟩
  · rintro ⟨truth, inHeap⟩
    exact ⟨∅, heap, Finmap.disjoint_empty heap, Finmap.empty_union.symm, ⟨truth, rfl⟩, inHeap⟩

theorem fact_of_true {holds : Prop} (truth : holds) :
    (fact holds : Assertion address block) = 1 := by
  funext heap
  exact propext ⟨fun both => both.2, fun empty => ⟨truth, empty⟩⟩

theorem mul_mono {first second weaker other : Assertion address block}
    (left : ∀ heap, first heap → weaker heap) (right : ∀ heap, second heap → other heap)
    (heap : Heap address block) (holds : (first * second : Assertion address block) heap) :
    (weaker * other : Assertion address block) heap := by
  obtain ⟨leftPart, rightPart, apart, rfl, inLeft, inRight⟩ := holds
  exact ⟨leftPart, rightPart, apart, rfl, left leftPart inLeft, right rightPart inRight⟩

theorem any_mul {index : Type} (family : index → Assertion address block)
    (held : Assertion address block) :
    any family * held = any fun chosen => family chosen * held := by
  funext heap
  refine propext ⟨?_, ?_⟩
  · rintro ⟨left, right, apart, split, ⟨chosen, inLeft⟩, inRight⟩
    exact ⟨chosen, left, right, apart, split, inLeft, inRight⟩
  · rintro ⟨chosen, left, right, apart, split, inLeft, inRight⟩
    exact ⟨left, right, apart, split, ⟨chosen, inLeft⟩, inRight⟩

theorem owns_one : (1 : Assertion address block).Owns 0 := by
  rintro heap rfl
  simp

theorem Owns.mul {first second : Assertion address block} {count more : Nat}
    (inFirst : first.Owns count) (inSecond : second.Owns more) :
    (first * second).Owns (count + more) := by
  rintro heap ⟨left, right, apart, rfl, inLeft, inRight⟩
  rw [Finmap.keys_union, Finset.card_union_of_disjoint, inFirst left inLeft, inSecond right inRight]
  refine Finset.disjoint_left.mpr fun target here there => ?_
  exact apart target (Finmap.mem_keys.mp here) (Finmap.mem_keys.mp there)

theorem blocks_zero : (blocks 0 : Assertion address block) = 1 := by
  funext heap
  refine propext ⟨fun none => ?_, fun empty => owns_one heap empty⟩
  have noKeys : heap.keys = ∅ := Finset.card_eq_zero.mp none
  apply Finmap.ext_lookup
  intro target
  rw [Finmap.lookup_empty, Finmap.lookup_eq_none, ← Finmap.mem_keys, noKeys]
  exact Finset.notMem_empty target

/-! Two lists of one length, with what each pair owns. -/

section Pairs

variable {first second : Type} (pair : first → second → Assertion address block)

def each (lefts : List first) (rights : List second) : Assertion address block :=
  fact (lefts.length = rights.length) * (List.zipWith pair lefts rights).prod

@[simp] theorem each_nil : each pair [] [] = 1 := by
  simp [each, fact_of_true]

@[simp] theorem each_cons (left : first) (lefts : List first) (right : second)
    (rights : List second) :
    each pair (left :: lefts) (right :: rights) = pair left right * each pair lefts rights := by
  simp only [each, List.length_cons, Nat.add_right_cancel_iff, List.zipWith_cons_cons,
    List.prod_cons]
  exact mul_left_comm _ _ _

theorem each_length {lefts : List first} {rights : List second} {heap : Heap address block}
    (holds : each pair lefts rights heap) : lefts.length = rights.length :=
  ((fact_mul_apply _ _ _).mp holds).1

theorem each_forall {related : first → second → Prop}
    (pairs : ∀ left right heap, pair left right heap → related left right)
    {lefts : List first} {rights : List second} {heap : Heap address block}
    (holds : each pair lefts rights heap) : List.Forall₂ related lefts rights := by
  have same := each_length pair holds
  induction lefts generalizing rights heap with
  | nil =>
      obtain rfl := List.length_eq_zero_iff.mp same.symm
      exact .nil
  | cons left rest ih =>
      cases rights with
      | nil => simp at same
      | cons right later =>
          rw [each_cons] at holds
          obtain ⟨here, there, _, _, inHere, inThere⟩ := holds
          exact .cons (pairs left right here inHere) (ih inThere (Nat.succ.inj same))

theorem each_append {lefts : List first} {rights : List second}
    (same : lefts.length = rights.length) (moreLefts : List first) (moreRights : List second) :
    each pair (lefts ++ moreLefts) (rights ++ moreRights) =
      each pair lefts rights * each pair moreLefts moreRights := by
  induction lefts generalizing rights with
  | nil =>
      obtain rfl := List.length_eq_zero_iff.mp same.symm
      rw [each_nil, one_mul]
      rfl
  | cons left rest ih =>
      cases rights with
      | nil => simp at same
      | cons right later =>
          rw [List.cons_append, List.cons_append, each_cons, each_cons,
            ih (Nat.succ.inj same), mul_assoc]

theorem each_concat (lefts : List first) (left : first) (rights : List second) (right : second) :
    each pair (lefts ++ [left]) (rights ++ [right]) = each pair lefts rights * pair left right := by
  by_cases same : lefts.length = rights.length
  · rw [each_append pair same, each_cons, each_nil, mul_one]
  · have unequal : (fact (lefts.length = rights.length) : Assertion address block) = fact False :=
      congrArg fact (propext ⟨same, False.elim⟩)
    have longer : ¬(lefts ++ [left]).length = (rights ++ [right]).length := by simpa using same
    rw [each, each, unequal, mul_assoc]
    funext heap
    refine propext ⟨fun holds => absurd ((fact_mul_apply _ _ _).mp holds).1 longer, fun holds => ?_⟩
    exact ((fact_mul_apply _ _ _).mp holds).1.elim

theorem each_eq_fact_mul (lefts : List first) (rights : List second) :
    each pair lefts rights =
      fact (lefts.length = rights.length) * each pair lefts rights := by
  funext heap
  refine propext ⟨fun holds => (fact_mul_apply _ _ _).mpr ⟨each_length pair holds, holds⟩, ?_⟩
  exact fun holds => ((fact_mul_apply _ _ _).mp holds).2

/-- One pair of the two lists apart from all others, which stay when it is replaced. -/
theorem each_focus {lefts : List first} {rights : List second}
    (same : lefts.length = rights.length) {index : Nat} {left : first} {right : second}
    (inLefts : lefts[index]? = some left) (inRights : rights[index]? = some right) :
    ∃ others, each pair lefts rights = pair left right * others ∧
      ∀ newLeft newRight, each pair (lefts.set index newLeft) (rights.set index newRight) =
        pair newLeft newRight * others := by
  induction index generalizing lefts rights with
  | zero =>
      cases lefts with
      | nil => simp at inLefts
      | cons head rest =>
          cases rights with
          | nil => simp at same
          | cons other later =>
              obtain rfl : head = left := by simpa using inLefts
              obtain rfl : other = right := by simpa using inRights
              exact ⟨each pair rest later, each_cons .., fun _ _ => each_cons ..⟩
  | succ index ih =>
      cases lefts with
      | nil => simp at inLefts
      | cons head rest =>
          cases rights with
          | nil => simp at same
          | cons other later =>
              obtain ⟨others, apart, replaced⟩ := ih (Nat.succ.inj same) inLefts inRights
              refine ⟨pair head other * others, ?_, fun newLeft newRight => ?_⟩
              · rw [each_cons, apart, mul_left_comm]
              · rw [List.set_cons_succ, List.set_cons_succ, each_cons, replaced, mul_left_comm]

theorem owns_each {pair : first → second → Assertion address block} {count : second → Nat}
    (lefts : List first) {rights : List second}
    (pairs : ∀ left, ∀ right ∈ rights, (pair left right).Owns (count right)) :
    (each pair lefts rights).Owns (rights.map count).sum := by
  induction lefts generalizing rights with
  | nil =>
      cases rights with
      | nil =>
          rw [each_nil]
          exact owns_one
      | cons right later =>
          intro heap holds
          simpa using each_length pair holds
  | cons left rest ih =>
      cases rights with
      | nil =>
          intro heap holds
          simpa using each_length pair holds
      | cons right later =>
          rw [each_cons, List.map_cons, List.sum_cons]
          exact (pairs left right (by simp)).mul
            (ih fun left next member => pairs left next (List.mem_cons_of_mem _ member))

theorem each_entails {held : second → Assertion address block}
    (pairs : ∀ left right heap, pair left right heap → held right heap) {lefts : List first}
    {rights : List second} {heap : Heap address block} (holds : each pair lefts rights heap) :
    (rights.map held).prod heap := by
  induction lefts generalizing rights heap with
  | nil =>
      obtain rfl := List.length_eq_zero_iff.mp (each_length pair holds).symm
      rwa [each_nil] at holds
  | cons left rest ih =>
      cases rights with
      | nil => simpa using each_length pair holds
      | cons right later =>
          rw [each_cons] at holds
          rw [List.map_cons, List.prod_cons]
          exact mul_mono (pairs left right) (fun _ inThere => ih inThere) heap holds

end Pairs

end Products

end Assertion

/-! Triples. -/

section Triples

variable {address block : Type} [DecidableEq address]

/-- From the owned blocks, beside any others, the program ends without a fault, with the
others as they were. -/
def Triple {result : Type} (before : Assertion address block)
    (program : Program address block result) (after : result → Assertion address block) : Prop :=
  ∀ owned others : Heap address block, before owned → owned.Disjoint others →
    ∃ found left, program (owned ∪ others) = .ok (found, left ∪ others) ∧ left.Disjoint others ∧
      after found left

/-- From the owned blocks, beside any others, the program ends with this fault. -/
def Faults {result : Type} (before : Assertion address block)
    (program : Program address block result) (fault : Fault) : Prop :=
  ∀ owned others : Heap address block, before owned → owned.Disjoint others →
    program (owned ∪ others) = .error fault

variable {result next : Type} {before held : Assertion address block}
  {program : Program address block result} {after : result → Assertion address block}

namespace Triple

theorem pure {found : result} (reached : ∀ heap, before heap → after found heap) :
    Triple before (Pure.pure found) after :=
  fun owned _ holds apart => ⟨found, owned, rfl, apart, reached owned holds⟩

theorem bind {continuation : result → Program address block next}
    {final : next → Assertion address block} (first : Triple before program after)
    (rest : ∀ found, Triple (after found) (continuation found) final) :
    Triple before (program >>= continuation) final := by
  intro owned others holds apart
  obtain ⟨found, middle, ran, stillApart, reached⟩ := first owned others holds apart
  obtain ⟨last, left, ended, endApart, done⟩ := rest found middle others reached stillApart
  refine ⟨last, left, ?_, endApart, done⟩
  change Except.bind (program (owned ∪ others)) _ = _
  rw [ran]
  exact ended

theorem weaken {weaker : result → Assertion address block} (triple : Triple before program after)
    (weakening : ∀ found heap, after found heap → weaker found heap) :
    Triple before program weaker := by
  intro owned others holds apart
  obtain ⟨found, left, ran, leftApart, reached⟩ := triple owned others holds apart
  exact ⟨found, left, ran, leftApart, weakening found left reached⟩

theorem frame (triple : Triple before program after) :
    Triple (before * held) program fun found => after found * held := by
  rintro _ others ⟨owned, kept, apart, rfl, holds, keeps⟩ outside
  obtain ⟨ownedOutside, keptOutside⟩ := (Finmap.disjoint_union_left _ _ _).mp outside
  have aside : owned.Disjoint (kept ∪ others) :=
    (Finmap.disjoint_union_right _ _ _).mpr ⟨apart, ownedOutside⟩
  obtain ⟨found, left, ran, leftAside, reached⟩ := triple owned (kept ∪ others) holds aside
  obtain ⟨leftApart, leftOutside⟩ := (Finmap.disjoint_union_right _ _ _).mp leftAside
  refine ⟨found, left ∪ kept, ?_, ?_, left, kept, leftApart, rfl, reached, keeps⟩
  · rw [Finmap.union_assoc, ran, Finmap.union_assoc]
  · exact (Finmap.disjoint_union_left _ _ _).mpr ⟨leftOutside, keptOutside⟩

theorem strengthen {stronger : Assertion address block}
    (entails : ∀ heap, stronger heap → before heap) (triple : Triple before program after) :
    Triple stronger program after :=
  fun owned others holds apart => triple owned others (entails owned holds) apart

theorem reorder {same : Assertion address block} (order : before = same)
    (triple : Triple same program after) : Triple before program after :=
  order ▸ triple

theorem bind_frame {continuation : result → Program address block next}
    {final : next → Assertion address block} (first : Triple before program after)
    (rest : ∀ found, Triple (after found * held) (continuation found) final) :
    Triple (before * held) (program >>= continuation) final :=
  bind (frame first) rest

theorem of_fact {holds : Prop} (triple : holds → Triple before program after) :
    Triple (Assertion.fact holds * before) program after := by
  intro owned others both apart
  obtain ⟨truth, rest⟩ := (Assertion.fact_mul_apply holds before owned).mp both
  exact triple truth owned others rest apart

theorem of_any {index : Type} {family : index → Assertion address block}
    (triple : ∀ chosen, Triple (family chosen) program after) :
    Triple (Assertion.any family) program after := by
  rintro owned others ⟨chosen, holds⟩ apart
  exact triple chosen owned others holds apart

end Triple

namespace Faults

theorem fail (fault : Fault) :
    Faults before (Heaps.fail fault : Program address block result) fault :=
  fun _ _ _ _ => rfl

theorem bind {continuation : result → Program address block next} {fault : Fault}
    (first : Faults before program fault) : Faults before (program >>= continuation) fault := by
  intro owned others holds apart
  change Except.bind (program (owned ∪ others)) _ = _
  rw [first owned others holds apart]
  rfl

theorem after_bind {continuation : result → Program address block next} {fault : Fault}
    (first : Triple before program after)
    (rest : ∀ found, Faults (after found) (continuation found) fault) :
    Faults before (program >>= continuation) fault := by
  intro owned others holds apart
  obtain ⟨found, middle, ran, stillApart, reached⟩ := first owned others holds apart
  change Except.bind (program (owned ∪ others)) _ = _
  rw [ran]
  exact rest found middle others reached stillApart

theorem frame {fault : Fault} (faults : Faults before program fault) :
    Faults (before * held) program fault := by
  rintro _ others ⟨owned, kept, apart, rfl, holds, _⟩ outside
  obtain ⟨ownedOutside, _⟩ := (Finmap.disjoint_union_left _ _ _).mp outside
  have aside : owned.Disjoint (kept ∪ others) :=
    (Finmap.disjoint_union_right _ _ _).mpr ⟨apart, ownedOutside⟩
  rw [Finmap.union_assoc]
  exact faults owned (kept ∪ others) holds aside

end Faults

/-! From triples to runs. -/

theorem Triple.run (triple : Triple before program after) {heap : Heap address block}
    (holds : (before * held : Assertion address block) heap) :
    ∃ found left, program heap = .ok (found, left) ∧
      (after found * held : Assertion address block) left := by
  obtain ⟨owned, others, apart, rfl, inOwned, inOthers⟩ := holds
  obtain ⟨found, left, ran, leftApart, reached⟩ := triple owned others inOwned apart
  exact ⟨found, left ∪ others, ran, left, others, leftApart, rfl, reached, inOthers⟩

theorem Faults.run {fault : Fault} (faults : Faults before program fault)
    {heap : Heap address block} (holds : (before * held : Assertion address block) heap) :
    program heap = .error fault := by
  obtain ⟨owned, others, apart, rfl, inOwned, _⟩ := holds
  exact faults owned others inOwned apart

/-! The four operations. -/

open Assertion

theorem triple_malloc (allocator : Allocator address block) (content : block) :
    Triple 1 (malloc allocator content) fun pointer => pointsTo pointer content := by
  rintro _ others rfl _
  rw [Finmap.empty_union]
  have single : others.insert (allocator.fresh others) content =
      Finmap.singleton (allocator.fresh others) content ∪ others := by
    rw [← @Finmap.insert_singleton_eq _ _ _ _ _ content, ← Finmap.insert_union]
    apply Finmap.ext_lookup
    intro target
    by_cases same : target = allocator.fresh others
    · subst same
      simp
    · rw [Finmap.lookup_insert_of_ne _ same, Finmap.lookup_insert_of_ne _ same,
        Finmap.lookup_union_right (by simpa using same)]
  refine ⟨_, Finmap.singleton (allocator.fresh others) content, ?_, ?_, _, rfl, rfl⟩
  · rw [malloc, single]
  · intro target here there
    rw [Finmap.mem_singleton] at here
    subst here
    exact allocator.unused others there

theorem triple_load (pointer : Option address) (content : block) :
    Triple (pointsTo pointer content) (load pointer) fun found =>
      fact (found = content) * pointsTo pointer content := by
  rintro _ others ⟨target, rfl, rfl⟩ apart
  have there : (Finmap.singleton target content ∪ others).lookup target = some content := by
    rw [Finmap.lookup_union_left (by simp), Finmap.lookup_singleton_eq]
  refine ⟨content, Finmap.singleton target content, by simp [load, there], apart, ?_⟩
  exact (fact_mul_apply _ _ _).mpr ⟨rfl, target, rfl, rfl⟩

theorem triple_loadAs {cell : Type} {select : block → Option cell} {content : block} {found : cell}
    (selected : select content = some found) (pointer : Option address) :
    Triple (pointsTo pointer content) (loadAs select pointer) fun result =>
      fact (result = found) * pointsTo pointer content := by
  refine Triple.bind (triple_load pointer content) fun read => ?_
  refine Triple.of_fact fun same => ?_
  subst same
  rw [selected, Option.elim_some]
  exact Triple.pure fun heap holds => (fact_mul_apply _ _ _).mpr ⟨rfl, holds⟩

theorem triple_store (pointer : Option address) (content written : block) :
    Triple (pointsTo pointer content) (store pointer written) fun _ =>
      pointsTo pointer written := by
  rintro _ others ⟨target, rfl, rfl⟩ apart
  have there : target ∈ Finmap.singleton target content ∪ others := by simp
  refine ⟨(), Finmap.singleton target written, ?_, ?_, target, rfl, rfl⟩
  · simp only [store, if_pos there, Finmap.insert_union, Finmap.insert_singleton_eq]
  · intro cell here
    exact apart cell (by simpa using here)

theorem triple_free (pointer : Option address) (content : block) :
    Triple (pointsTo pointer content) (free pointer) fun _ => 1 := by
  rintro _ others ⟨target, rfl, rfl⟩ apart
  have there : target ∈ Finmap.singleton target content ∪ others := by simp
  have outside : target ∉ others := apart target (by simp)
  refine ⟨(), ∅, ?_, Finmap.disjoint_empty others, rfl⟩
  simp only [free, if_pos there, Finmap.empty_union]
  congr 2
  apply Finmap.ext_lookup
  intro cell
  by_cases same : cell = target
  · subst same
    rw [Finmap.lookup_erase, Finmap.lookup_eq_none.mpr outside]
  · rw [Finmap.lookup_erase_ne same, Finmap.lookup_union_right (by simpa using same)]

theorem triple_free_null : Triple (1 : Assertion address block) (free none) fun _ => 1 :=
  fun owned _ holds apart => ⟨(), owned, rfl, apart, holds⟩

theorem faults_loadAs_null {cell : Type} (select : block → Option cell) :
    Faults before (loadAs select none) .access :=
  fun _ _ _ _ => rfl

/-! A program one operation at a time, with the block it is about in front. -/

section Steps

variable {final : result → Assertion address block} {pointer : Option address} {content : block}

theorem Triple.malloc_bind {continuation : Option address → Program address block result}
    {allocator : Allocator address block}
    (rest : ∀ pointer, Triple (pointsTo pointer content * held) (continuation pointer) final) :
    Triple held (malloc allocator content >>= continuation) final := by
  rw [← one_mul held]
  exact bind_frame (triple_malloc allocator content) rest

theorem Triple.loadAs_bind {cell : Type} {select : block → Option cell} {found : cell}
    {continuation : cell → Program address block result} (selected : select content = some found)
    (rest : Triple (pointsTo pointer content * held) (continuation found) final) :
    Triple (pointsTo pointer content * held) (loadAs select pointer >>= continuation) final := by
  refine bind_frame (triple_loadAs selected pointer) fun read => ?_
  rw [mul_assoc]
  refine of_fact fun same => ?_
  rw [same]
  exact rest

theorem Triple.store_bind {continuation : Unit → Program address block result} {written : block}
    (rest : Triple (pointsTo pointer written * held) (continuation ()) final) :
    Triple (pointsTo pointer content * held) (store pointer written >>= continuation) final :=
  bind_frame (triple_store pointer content written) fun _ => rest

theorem Triple.free_bind {continuation : Unit → Program address block result}
    (rest : Triple held (continuation ()) final) :
    Triple (pointsTo pointer content * held) (free pointer >>= continuation) final := by
  refine bind_frame (triple_free pointer content) fun _ => ?_
  rw [one_mul]
  exact rest

theorem Triple.of_null : Triple (pointsTo none content * held) program final :=
  fun owned _ holds _ => absurd holds (not_pointsTo_null content held owned)

theorem Faults.reorder {same : Assertion address block} {fault : Fault} (order : before = same)
    (faults : Faults same program fault) : Faults before program fault :=
  order ▸ faults

theorem Faults.store_bind {continuation : Unit → Program address block result} {written : block}
    {fault : Fault} (rest : Faults (pointsTo pointer written * held) (continuation ()) fault) :
    Faults (pointsTo pointer content * held) (store pointer written >>= continuation) fault :=
  after_bind (Triple.frame (triple_store pointer content written)) fun _ => rest

theorem Faults.malloc_bind {continuation : Option address → Program address block result}
    {allocator : Allocator address block} {fault : Fault}
    (rest : ∀ pointer, Faults (pointsTo pointer content * held) (continuation pointer) fault) :
    Faults held (malloc allocator content >>= continuation) fault := by
  rw [← one_mul held]
  exact after_bind (Triple.frame (triple_malloc allocator content)) rest

end Steps

/-! Doing the same for every element of a list. -/

theorem Triple.mapM {source : Type} {program : source → Program address block result}
    {pair : result → source → Assertion address block} {sources : List source}
    (one : ∀ given ∈ sources, Triple 1 (program given) fun found => pair found given) :
    Triple 1 (sources.mapM program) fun found => each pair found sources := by
  induction sources with
  | nil =>
      rw [List.mapM_nil]
      exact Triple.pure fun heap empty => by rwa [each_nil]
  | cons given rest ih =>
      rw [List.mapM_cons, ← one_mul (1 : Assertion address block)]
      refine bind_frame (one given (by simp)) fun found => ?_
      rw [mul_comm]
      refine bind_frame (ih fun later member => one later (List.mem_cons_of_mem _ member))
        fun others => ?_
      refine Triple.pure fun heap holds => ?_
      rwa [each_cons, mul_comm]

theorem Triple.forM {source : Type} {program : result → Program address block Unit}
    {pair : result → source → Assertion address block}
    (one : ∀ given found, Triple (pair found given) (program found) fun _ => 1)
    (found : List result) (sources : List source) :
    Triple (each pair found sources) (found.forM program) fun _ => 1 := by
  refine of_fact fun same => ?_
  induction found generalizing sources with
  | nil =>
      obtain rfl := List.length_eq_zero_iff.mp same.symm
      exact Triple.pure fun heap empty => empty
  | cons first rest ih =>
      cases sources with
      | nil => simp at same
      | cons given later =>
          rw [List.zipWith_cons_cons, List.prod_cons]
          change Triple _ (program first >>= fun _ => rest.forM program) _
          refine bind_frame (one given first) fun _ => ?_
          rw [one_mul]
          exact ih later (Nat.succ.inj same)

/-! Programs that do in the heap what is computed by value. -/

section Implementations

variable {value other : Type} {outcome : Except Fault value}
  {standsFor : value → result → Assertion address block}

/-- The program ends with the fault of the outcome, or owning what stands for its value. -/
def Implements (before : Assertion address block) (program : Program address block result)
    (outcome : Except Fault value) (standsFor : value → result → Assertion address block) : Prop :=
  match outcome with
  | .ok given => Triple before program (standsFor given)
  | .error fault => Faults before program fault

namespace Implements

theorem frame (implements : Implements before program outcome standsFor) :
    Implements (before * held) program outcome fun given found => standsFor given found * held := by
  cases outcome with
  | ok given => exact Triple.frame implements
  | error fault => exact Faults.frame implements

theorem bind {continuation : result → Program address block next}
    {later : value → Except Fault other} {final : other → next → Assertion address block}
    (first : Implements before program outcome standsFor)
    (rest : ∀ given found, Implements (standsFor given found) (continuation found) (later given)
      final) :
    Implements before (program >>= continuation) (outcome >>= later) final := by
  cases outcome with
  | error fault => exact Faults.bind first
  | ok given =>
      change Implements before (program >>= continuation) (later given) final
      have last := rest given
      cases ended : later given with
      | ok ending =>
          rw [ended] at last
          exact Triple.bind first last
      | error fault =>
          rw [ended] at last
          exact Faults.after_bind first last

theorem with_outcome (implements : Implements before program outcome standsFor) :
    Implements before program outcome fun given found =>
      fact (outcome = .ok given) * standsFor given found := by
  cases outcome with
  | ok given =>
      exact Triple.weaken implements fun found heap holds =>
        (fact_mul_apply _ _ _).mpr ⟨rfl, holds⟩
  | error fault => exact implements

theorem foldlM {concrete abstract call : Type}
    {step : concrete → call → Program address block concrete}
    {specified : abstract → call → Except Fault abstract}
    {relation : abstract → concrete → Assertion address block}
    (one : ∀ state held call,
      Implements (relation state held) (step held call) (specified state call) relation)
    (calls : List call) (state : abstract) (held : concrete) :
    Implements (relation state held) (calls.foldlM step held) (calls.foldlM specified state)
      relation := by
  induction calls generalizing state held with
  | nil => exact Triple.pure fun heap holds => holds
  | cons first rest ih =>
      rw [List.foldlM_cons, List.foldlM_cons]
      exact bind (one state held first) ih

theorem of_fact {holds : Prop}
    (implements : holds → Implements before program outcome standsFor) :
    Implements (fact holds * before) program outcome standsFor := by
  cases outcome with
  | ok given => exact Triple.of_fact implements
  | error fault =>
      intro owned others both apart
      obtain ⟨truth, rest⟩ := (fact_mul_apply holds before owned).mp both
      exact implements truth owned others rest apart

theorem run (implements : Implements before program outcome standsFor)
    {heap : Heap address block} (holds : (before * held : Assertion address block) heap) :
    (∃ fault, program heap = .error fault ∧ outcome = .error fault) ∨
      ∃ found left given, program heap = .ok (found, left) ∧ outcome = .ok given ∧
        (standsFor given found * held : Assertion address block) left := by
  cases outcome with
  | error fault => exact .inl ⟨fault, Faults.run implements holds, rfl⟩
  | ok given =>
      obtain ⟨found, left, ran, reached⟩ := Triple.run implements holds
      exact .inr ⟨found, left, given, ran, rfl, reached⟩

end Implements

theorem ok_of_bind {later : value → Except Fault other} {ending : other}
    (ran : outcome >>= later = .ok ending) :
    ∃ given, outcome = .ok given ∧ later given = .ok ending := by
  cases outcome with
  | error fault => cases ran
  | ok given => exact ⟨given, rfl, ran⟩

/-! Faults that never come about. -/

theorem ne_error_bind {fault : Fault} {later : value → Except Fault other}
    (first : outcome ≠ .error fault) (rest : ∀ given, later given ≠ .error fault) :
    outcome >>= later ≠ .error fault := by
  cases outcome with
  | ok given => exact rest given
  | error raised => exact fun same => first (congrArg Except.error (Except.error.inj same))

theorem ne_error_foldlM {state call : Type} {fault : Fault}
    {step : state → call → Except Fault state}
    (one : ∀ before given, step before given ≠ .error fault) (calls : List call) (start : state) :
    calls.foldlM step start ≠ .error fault := by
  induction calls generalizing start with
  | nil => exact nofun
  | cons first rest ih =>
      rw [List.foldlM_cons]
      exact ne_error_bind (one start first) ih

end Implementations

end Triples

end Heaps
