import LibEsClient.ByteOrder
import LibEsClient.FlatMemory

/-! The byte order of correlation ids in `wtf_uuid.c`. -/

namespace LibEsClient

open ByteOrder FlatMemory

abbrev Uuid := Fin 16 → UInt8

def netOrder : Fin 16 → Fin 16 := ![3, 2, 1, 0, 5, 4, 7, 6, 8, 9, 10, 11, 12, 13, 14, 15]

def getUuidFromWtf (memory : Memory UInt8) (wtfData : Int) : Uuid :=
  fun i => memory (wtfData + (netOrder i : Nat))

def writeUuidToWtf (uuid : Uuid) (memory : Memory UInt8) (wtfData : Int) : Memory UInt8 :=
  (List.finRange 16).foldl
    (fun memory i => memory.write (wtfData + (netOrder i : Nat)) [uuid i]) memory

@[simp] theorem netOrder_netOrder (i : Fin 16) : netOrder (netOrder i) = i := by
  revert i
  decide

theorem write_slots (uuid : Uuid) (wtfData : Int) (slots : List (Fin 16)) (memory : Memory UInt8)
    (position : Fin 16) :
    slots.foldl (fun memory i => memory.write (wtfData + (netOrder i : Nat)) [uuid i]) memory
        (wtfData + (position : Nat)) =
      if netOrder position ∈ slots then uuid (netOrder position)
      else memory (wtfData + (position : Nat)) := by
  induction slots generalizing memory with
  | nil => simp
  | cons slot rest ih =>
      rw [List.foldl_cons, ih]
      by_cases later : netOrder position ∈ rest
      · simp [later]
      · by_cases here : netOrder position = slot
        · subst here
          simp [later, Memory.write]
        · have apart : netOrder slot ≠ position := by
            rintro rfl
            simp at here
          have elsewhere : (netOrder slot : Nat) ≠ (position : Nat) := fun same =>
            apart (Fin.ext same)
          rw [if_neg later, if_neg (by simp [later, here]),
            Memory.write_outside _ _ _ _ (by simp; omega)]

theorem writeUuidToWtf_inside (uuid : Uuid) (memory : Memory UInt8) (wtfData : Int)
    (position : Fin 16) :
    writeUuidToWtf uuid memory wtfData (wtfData + (position : Nat)) =
      uuid (netOrder position) := by
  rw [writeUuidToWtf, write_slots, if_pos (List.mem_finRange _)]

theorem writeUuidToWtf_outside (uuid : Uuid) (memory : Memory UInt8) (wtfData target : Int)
    (outside : target < wtfData ∨ wtfData + 16 ≤ target) :
    writeUuidToWtf uuid memory wtfData target = memory target := by
  unfold writeUuidToWtf
  induction List.finRange 16 generalizing memory with
  | nil => rfl
  | cons slot rest ih =>
      have bound := (netOrder slot).isLt
      rw [List.foldl_cons, ih, Memory.write_outside _ _ _ _ (by simp; omega)]

theorem getUuidFromWtf_writeUuidToWtf (uuid : Uuid) (memory : Memory UInt8) (wtfData : Int) :
    getUuidFromWtf (writeUuidToWtf uuid memory wtfData) wtfData = uuid := by
  funext i
  rw [getUuidFromWtf, writeUuidToWtf_inside, netOrder_netOrder]

theorem getUuidFromWtf_congr {memory other : Memory UInt8} {wtfData otherData : Int}
    (same : other.read otherData 16 = memory.read wtfData 16) :
    getUuidFromWtf other otherData = getUuidFromWtf memory wtfData := by
  funext i
  have cells := List.getElem_of_eq same (i := netOrder i) (by simp)
  rwa [Memory.getElem_read, Memory.getElem_read] at cells

/-- The order of the bytes in `net_order` is that of the two layouts of a GUID. -/
theorem getUuidFromWtf_guid (memory : Memory UInt8) (wtfData : Int) :
    List.ofFn (getUuidFromWtf memory wtfData) =
      (Guid.ofNet fun offset => memory (wtfData + offset)).toRfc4122 := by
  rw [Guid.toRfc4122_ofNet]
  rfl

end LibEsClient
