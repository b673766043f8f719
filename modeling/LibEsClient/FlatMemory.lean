import Mathlib

/-! A flat memory: one cell at every integer address, read and written in blocks.
Nothing is ever out of range here; which addresses a program may touch is for
the program's own invariants to say. -/

namespace FlatMemory

abbrev Memory (cell : Type) := Int → cell

namespace Memory

variable {cell : Type}

def read (memory : Memory cell) (address : Int) (length : Nat) : List cell :=
  (List.range length).map fun offset : Nat => memory (address + offset)

def write (memory : Memory cell) (address : Int) (cells : List cell) : Memory cell :=
  fun target =>
    if address ≤ target then cells[(target - address).toNat]?.getD (memory target)
    else memory target

def copy (memory : Memory cell) (destination source : Int) (length : Nat) : Memory cell :=
  memory.write destination (memory.read source length)

@[simp] theorem length_read (memory : Memory cell) (address : Int) (length : Nat) :
    (memory.read address length).length = length := by
  simp [read]

@[simp] theorem read_zero (memory : Memory cell) (address : Int) :
    memory.read address 0 = [] := rfl

theorem getElem_read (memory : Memory cell) (address : Int) (length index : Nat)
    (bound : index < (memory.read address length).length) :
    (memory.read address length)[index] = memory (address + index) := by
  simp [read]

theorem read_add (memory : Memory cell) (address : Int) (first second : Nat) :
    memory.read address (first + second) =
      memory.read address first ++ memory.read (address + first) second := by
  simp only [read, List.range_add, List.map_append, List.map_map]
  congr 1
  apply List.map_congr_left
  intro offset _
  simp [Int.add_assoc]

theorem read_congr {memory other : Memory cell} {address : Int} {length : Nat}
    (same : ∀ target, address ≤ target → target < address + length →
      memory target = other target) :
    memory.read address length = other.read address length := by
  apply List.map_congr_left
  intro offset member
  have bound := List.mem_range.mp member
  exact same _ (by omega) (by omega)

@[simp] theorem read_one (memory : Memory cell) (address : Int) :
    memory.read address 1 = [memory address] := by
  simp [read]

theorem read_succ (memory : Memory cell) (address : Int) (length : Nat) :
    memory.read address (length + 1) = memory address :: memory.read (address + 1) length := by
  rw [Nat.add_comm, read_add, read_one]
  rfl

theorem read_four (memory : Memory cell) (address : Int) :
    memory.read address 4 =
      [memory address, memory (address + 1), memory (address + 2), memory (address + 3)] := by
  simp [read, List.range_succ]

@[simp] theorem write_nil (memory : Memory cell) (address : Int) :
    memory.write address [] = memory := by
  funext target
  simp [write]

theorem write_outside (memory : Memory cell) (address target : Int) (cells : List cell)
    (outside : target < address ∨ address + cells.length ≤ target) :
    memory.write address cells target = memory target := by
  unfold write
  split
  · rename_i lower
    rw [List.getElem?_eq_none (by omega)]
    rfl
  · rfl

theorem write_inside (memory : Memory cell) (address : Int) (cells : List cell) (index : Nat)
    (bound : index < cells.length) :
    memory.write address cells (address + index) = cells[index] := by
  have lower : address ≤ address + index := by omega
  simp [write, lower, bound]

@[simp] theorem write_head (memory : Memory cell) (address : Int) (head : cell)
    (rest : List cell) : memory.write address (head :: rest) address = head := by
  simp [write]

theorem read_write_same (memory : Memory cell) (address : Int) (cells : List cell) :
    (memory.write address cells).read address cells.length = cells := by
  apply List.ext_getElem
  · simp
  · intro index first second
    rw [getElem_read, write_inside]

theorem read_write_disjoint (memory : Memory cell) (address target : Int) (length : Nat)
    (cells : List cell)
    (disjoint : target + length ≤ address ∨ address + cells.length ≤ target) :
    (memory.write address cells).read target length = memory.read target length := by
  apply read_congr
  intro touched lower upper
  exact write_outside _ _ _ _ (by omega)

theorem read_copy_same (memory : Memory cell) (destination source : Int) (length : Nat) :
    (memory.copy destination source length).read destination length =
      memory.read source length := by
  have same := read_write_same memory destination (memory.read source length)
  rwa [length_read] at same

theorem read_eq_iff {memory other : Memory cell} {address : Int} {length : Nat} :
    memory.read address length = other.read address length ↔
      ∀ target, address ≤ target → target < address + length →
        memory target = other target := by
  constructor
  · intro same target lower upper
    have bound : (target - address).toNat < length := by omega
    have cells := List.getElem_of_eq same
      (i := (target - address).toNat) (by simpa using bound)
    rw [getElem_read, getElem_read] at cells
    have address_eq : address + ((target - address).toNat : Int) = target := by omega
    rwa [address_eq] at cells
  · exact read_congr

end Memory

/-- A copy routine in the sense of the C library's block copy: it is only held
to its result where source and destination do not overlap. -/
def CopiesDisjoint {cell : Type} (memcpy : Memory cell → Int → Int → Nat → Memory cell) : Prop :=
  ∀ (memory : Memory cell) (destination source : Int) (length : Nat),
    destination + length ≤ source ∨ source + length ≤ destination →
      memcpy memory destination source length = memory.copy destination source length

theorem copy_copiesDisjoint {cell : Type} :
    CopiesDisjoint (Memory.copy : Memory cell → Int → Int → Nat → Memory cell) :=
  fun _ _ _ _ _ => rfl

/-- Copies cell by cell from the last one down, as optimized routines may. -/
def Memory.copyDown {cell : Type} (memory : Memory cell) (destination source : Int) :
    Nat → Memory cell
  | 0 => memory
  | count + 1 =>
      copyDown (memory.write (destination + count) [memory (source + count)]) destination source
        count

theorem copyDown_copiesDisjoint {cell : Type} :
    CopiesDisjoint (Memory.copyDown : Memory cell → Int → Int → Nat → Memory cell) := by
  intro memory destination source length apart
  induction length generalizing memory with
  | zero => simp [Memory.copyDown, Memory.copy]
  | succ count ih =>
      have last : (memory.write (destination + count) [memory (source + count)]).read source count =
          memory.read source count :=
        Memory.read_write_disjoint _ _ _ _ _ (by simp; omega)
      rw [Memory.copyDown, ih _ (by omega)]
      funext target
      unfold Memory.copy
      rw [last]
      by_cases inside : destination ≤ target ∧ target < destination + count
      · obtain ⟨index, rfl⟩ : ∃ index : Nat, target = destination + index :=
          ⟨(target - destination).toNat, by omega⟩
        rw [Memory.write_inside _ _ _ _ (by simp; omega),
          Memory.write_inside _ _ _ _ (by simp; omega), Memory.getElem_read, Memory.getElem_read]
      · rw [Memory.write_outside _ _ _ _ (by simp; omega)]
        by_cases top : target = destination + count
        · rw [top, Memory.write_inside _ _ _ count (by simp), Memory.getElem_read]
          simp [Memory.write]
        · rw [Memory.write_outside _ _ _ _ (by simp; omega),
            Memory.write_outside _ _ _ _ (by simp; omega)]

/-- Copies what it is held to, and spoils the first cell of an overlapping copy. -/
def Memory.copySpoiling {cell : Type} (spoil : cell → cell) (memory : Memory cell)
    (destination source : Int) (length : Nat) : Memory cell :=
  if destination + length ≤ source ∨ source + length ≤ destination then
    memory.copy destination source length
  else (memory.copy destination source length).write destination [spoil (memory source)]

theorem copySpoiling_copiesDisjoint {cell : Type} (spoil : cell → cell) :
    CopiesDisjoint (Memory.copySpoiling spoil) := by
  intro memory destination source length apart
  rw [Memory.copySpoiling, if_pos apart]

theorem copySpoiling_ne {cell : Type} {spoil : cell → cell} (spoils : ∀ value, spoil value ≠ value)
    (memory : Memory cell) {destination source : Int} {length : Nat}
    (overlap : ¬(destination + length ≤ source ∨ source + length ≤ destination)) :
    (memory.copySpoiling spoil destination source length).read destination length ≠
      memory.read source length := by
  have spoilt : memory.copySpoiling spoil destination source length destination =
      spoil (memory source) := by
    simp [Memory.copySpoiling, overlap, Memory.write]
  have copied : memory.copy destination source length destination = memory source := by
    have inside := Memory.write_inside memory destination (memory.read source length) 0
      (by simp; omega)
    rw [Memory.getElem_read] at inside
    simpa [Memory.copy] using inside
  intro same
  rw [← Memory.read_copy_same memory destination source length, Memory.read_eq_iff] at same
  have cell := same destination (by omega) (by omega)
  rw [spoilt, copied] at cell
  exact spoils _ cell

end FlatMemory
