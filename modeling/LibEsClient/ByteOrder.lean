import Mathlib

/-! Numbers stored as bytes, and GUIDs: numbers of 32, 16 and 16 bits with eight bytes
after them. .NET stores the numbers least significant byte first, RFC 4122 has the
most significant byte first. -/

namespace ByteOrder

def ofLittleEndian (bytes : List UInt8) : Nat :=
  Nat.ofDigits 256 (bytes.map UInt8.toNat)

def bigEndian : Nat → Nat → List UInt8
  | 0, _ => []
  | width + 1, value => UInt8.ofNat (value / 256 ^ width) :: bigEndian width value

theorem ofLittleEndian_lt (bytes : List UInt8) : ofLittleEndian bytes < 256 ^ bytes.length := by
  have digits := Nat.ofDigits_lt_base_pow_length' (b := 254) (l := bytes.map UInt8.toNat) (by
    intro digit member
    obtain ⟨byte, _, rfl⟩ := List.mem_map.mp member
    exact byte.toNat_lt)
  simpa [ofLittleEndian] using digits

theorem ofLittleEndian_concat (bytes : List UInt8) (last : UInt8) :
    ofLittleEndian (bytes ++ [last]) = ofLittleEndian bytes + 256 ^ bytes.length * last.toNat := by
  simp [ofLittleEndian, Nat.ofDigits_append]

theorem bigEndian_add_mul (width value high : Nat) :
    bigEndian width (value + 256 ^ width * high) = bigEndian width value := by
  induction width generalizing high with
  | zero => rfl
  | succ width ih =>
      have split : 256 ^ (width + 1) * high = 256 ^ width * (256 * high) := by
        rw [Nat.pow_succ, Nat.mul_assoc]
      have top : UInt8.ofNat ((value + 256 ^ width * (256 * high)) / 256 ^ width) =
          UInt8.ofNat (value / 256 ^ width) := by
        rw [Nat.add_mul_div_left _ _ (Nat.pow_pos (by decide))]
        apply UInt8.toNat_inj.mp
        simp only [UInt8.toNat_ofNat']
        omega
      rw [bigEndian, bigEndian, split, top, ih]

theorem bigEndian_ofLittleEndian (bytes : List UInt8) :
    bigEndian bytes.length (ofLittleEndian bytes) = bytes.reverse := by
  induction bytes using List.reverseRecOn with
  | nil => rfl
  | append_singleton bytes last ih =>
      have positive : 0 < 256 ^ bytes.length := Nat.pow_pos (by decide)
      have top : (ofLittleEndian bytes + 256 ^ bytes.length * last.toNat) / 256 ^ bytes.length =
          last.toNat := by
        rw [Nat.add_mul_div_left _ _ positive, Nat.div_eq_of_lt (ofLittleEndian_lt bytes),
          Nat.zero_add]
      rw [List.length_append, List.length_singleton, bigEndian, ofLittleEndian_concat, top,
        UInt8.ofNat_toNat, bigEndian_add_mul, ih, List.reverse_append, List.reverse_singleton]
      rfl

structure Guid where
  a : UInt32
  b : UInt16
  c : UInt16
  d : Fin 8 → UInt8

namespace Guid

/-- The GUID that .NET has stored as these bytes, by offset. -/
def ofNet (bytes : Nat → UInt8) : Guid where
  a := UInt32.ofNat (ofLittleEndian [bytes 0, bytes 1, bytes 2, bytes 3])
  b := UInt16.ofNat (ofLittleEndian [bytes 4, bytes 5])
  c := UInt16.ofNat (ofLittleEndian [bytes 6, bytes 7])
  d i := bytes (8 + i)

def toRfc4122 (guid : Guid) : List UInt8 :=
  bigEndian 4 guid.a.toNat ++ bigEndian 2 guid.b.toNat ++ bigEndian 2 guid.c.toNat ++
    List.ofFn guid.d

theorem toRfc4122_ofNet (bytes : Nat → UInt8) :
    (ofNet bytes).toRfc4122 =
      [bytes 3, bytes 2, bytes 1, bytes 0, bytes 5, bytes 4, bytes 7, bytes 6, bytes 8, bytes 9,
        bytes 10, bytes 11, bytes 12, bytes 13, bytes 14, bytes 15] := by
  have aBound := ofLittleEndian_lt [bytes 0, bytes 1, bytes 2, bytes 3]
  have bBound := ofLittleEndian_lt [bytes 4, bytes 5]
  have cBound := ofLittleEndian_lt [bytes 6, bytes 7]
  have a : (ofNet bytes).a.toNat = ofLittleEndian [bytes 0, bytes 1, bytes 2, bytes 3] :=
    UInt32.toNat_ofNat_of_lt' (by simpa using aBound)
  have b : (ofNet bytes).b.toNat = ofLittleEndian [bytes 4, bytes 5] :=
    UInt16.toNat_ofNat_of_lt' (by simpa using bBound)
  have c : (ofNet bytes).c.toNat = ofLittleEndian [bytes 6, bytes 7] :=
    UInt16.toNat_ofNat_of_lt' (by simpa using cBound)
  have first := bigEndian_ofLittleEndian [bytes 0, bytes 1, bytes 2, bytes 3]
  have second := bigEndian_ofLittleEndian [bytes 4, bytes 5]
  have third := bigEndian_ofLittleEndian [bytes 6, bytes 7]
  rw [toRfc4122, a, b, c]
  simp only [List.length_cons, List.length_nil] at first second third
  rw [first, second, third]
  rfl

end Guid

end ByteOrder
