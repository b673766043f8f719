import LibEsClient.MsgParserCore

/-! What `read_next` makes of a length prefix. The bytes are promoted as signed
chars before they are shifted and joined, so a byte from 0x80 on sets every bit
of the word above it, which after the byte swap are the bytes before it. -/

namespace LibEsClient

def signByte (byte : UInt8) : BitVec 8 :=
  if byte.toNat < 128 then 0#8 else BitVec.allOnes 8

theorem msb_toBitVec (byte : UInt8) : byte.toBitVec.msb = decide (128 ≤ byte.toNat) := by
  rw [BitVec.msb_eq_decide]
  simp

theorem getElem_signByte (byte : UInt8) (index : Nat) (bound : index < 8) :
    (signByte byte)[index] = byte.toBitVec.msb := by
  have ones : (BitVec.allOnes 8)[index] = true := BitVec.getElem_allOnes index bound
  rw [msb_toBitVec]
  unfold signByte
  split
  · rename_i small
    simpa using small
  · rename_i large
    rw [ones]
    simpa using large

theorem or_signByte (word : BitVec 8) (byte : UInt8) :
    word ||| signByte byte = if byte.toNat < 128 then word else BitVec.allOnes 8 := by
  unfold signByte
  split
  · exact BitVec.or_zero
  · exact BitVec.or_allOnes

theorem getElem_promoteChar (byte : UInt8) (index : Nat) (bound : index < 32) :
    (promoteChar byte)[index] =
      if below : index < 8 then byte.toBitVec[index] else byte.toBitVec.msb := by
  simp only [promoteChar, BitVec.getElem_signExtend]

def prefixWord (b0 b1 b2 b3 : UInt8) : BitVec 32 :=
  promoteChar b0 <<< 24 ||| promoteChar b1 <<< 16 ||| promoteChar b2 <<< 8 ||| promoteChar b3

theorem prefixWord_byte0 (b0 b1 b2 b3 : UInt8) :
    (prefixWord b0 b1 b2 b3).extractLsb' 0 8 = b3.toBitVec := by
  ext index bound
  have first : index < 24 := by omega
  have second : index < 16 := by omega
  simp only [prefixWord, BitVec.getElem_extractLsb', Nat.zero_add, BitVec.getLsbD_or,
    BitVec.getLsbD_shiftLeft, first, second, bound, decide_true, Bool.not_true, Bool.and_false,
    Bool.false_and, Bool.false_or]
  rw [BitVec.getLsbD_eq_getElem (by omega), getElem_promoteChar]
  simp [bound]

theorem prefixWord_byte1 (b0 b1 b2 b3 : UInt8) :
    (prefixWord b0 b1 b2 b3).extractLsb' 8 8 = b2.toBitVec ||| signByte b3 := by
  ext index bound
  have first : 8 + index < 24 := by omega
  have second : 8 + index < 16 := by omega
  have inside : 8 + index < 32 := by omega
  simp [prefixWord, bound, getElem_promoteChar, getElem_signByte, first, second, inside]

theorem prefixWord_byte2 (b0 b1 b2 b3 : UInt8) :
    (prefixWord b0 b1 b2 b3).extractLsb' 16 8 =
      b1.toBitVec ||| signByte b2 ||| signByte b3 := by
  ext index bound
  have first : 16 + index < 24 := by omega
  have second : 16 + index - 8 = 8 + index := by omega
  have last : ¬16 + index < 8 := by omega
  have inside : 16 + index < 32 := by omega
  simp [prefixWord, bound, getElem_promoteChar, getElem_signByte, first, second, last, inside]

theorem prefixWord_byte3 (b0 b1 b2 b3 : UInt8) :
    (prefixWord b0 b1 b2 b3).extractLsb' 24 8 =
      b0.toBitVec ||| signByte b1 ||| signByte b2 ||| signByte b3 := by
  ext index bound
  have second : 24 + index - 8 = 16 + index := by omega
  have third : 24 + index - 16 = 8 + index := by omega
  have notThird : ¬16 + index < 8 := by omega
  have notSecond : ¬24 + index < 16 := by omega
  have last : ¬24 + index < 8 := by omega
  have inside : 24 + index < 32 := by omega
  simp [prefixWord, bound, getElem_promoteChar, getElem_signByte, second, third, notThird,
    notSecond, last, inside]

theorem toNat_append_byte {width : Nat} (high : BitVec width) (low : BitVec 8) :
    (high ++ low).toNat = high.toNat * 256 + low.toNat := by
  rw [BitVec.toNat_append, Nat.shiftLeft_eq, Nat.mul_comm,
    ← Nat.two_pow_add_eq_or_of_lt low.isLt, Nat.mul_comm]

theorem toNat_ntohl (word : BitVec 32) :
    (ntohl word).toNat =
      (word.extractLsb' 0 8).toNat * 2 ^ 24 + (word.extractLsb' 8 8).toNat * 2 ^ 16 +
        (word.extractLsb' 16 8).toNat * 2 ^ 8 + (word.extractLsb' 24 8).toNat := by
  simp only [ntohl, toNat_append_byte]
  omega

/-- The computed length: the bytes before the last one from 0x80 on all count as 0xFF. -/
theorem frameLength_eq (b0 b1 b2 b3 : UInt8) :
    frameLength b0 b1 b2 b3 =
      if 128 ≤ b3.toNat then (b3.toNat * 2 ^ 24 + 0xFFFFFF - 2 ^ 32 : Int)
      else if 128 ≤ b2.toNat then (b3.toNat * 2 ^ 24 + b2.toNat * 2 ^ 16 + 0xFFFF : Int)
      else if 128 ≤ b1.toNat then
        (b3.toNat * 2 ^ 24 + b2.toNat * 2 ^ 16 + b1.toNat * 2 ^ 8 + 0xFF : Int)
      else (b3.toNat * 2 ^ 24 + b2.toNat * 2 ^ 16 + b1.toNat * 2 ^ 8 + b0.toNat : Int) := by
  have value := toNat_ntohl (prefixWord b0 b1 b2 b3)
  rw [prefixWord_byte0, prefixWord_byte1, prefixWord_byte2, prefixWord_byte3] at value
  simp only [or_signByte] at value
  have byte0 := b0.toNat_lt
  have byte1 := b1.toNat_lt
  have byte2 := b2.toNat_lt
  have byte3 := b3.toNat_lt
  change (ntohl (prefixWord b0 b1 b2 b3)).toInt = _
  rw [BitVec.toInt_eq_toNat_cond, value]
  by_cases large3 : 128 ≤ b3.toNat
  · have not3 : ¬b3.toNat < 128 := by omega
    simp only [large3, not3, if_true, if_false, BitVec.toNat_allOnes, UInt8.toNat_toBitVec]
    rw [if_neg (by omega)]
    omega
  · have small3 : b3.toNat < 128 := by omega
    by_cases large2 : 128 ≤ b2.toNat
    · have not2 : ¬b2.toNat < 128 := by omega
      simp only [large3, small3, large2, not2, if_true, if_false, BitVec.toNat_allOnes,
        UInt8.toNat_toBitVec]
      rw [if_pos (by omega)]
      omega
    · have small2 : b2.toNat < 128 := by omega
      by_cases large1 : 128 ≤ b1.toNat
      · have not1 : ¬b1.toNat < 128 := by omega
        simp only [large3, small3, large2, small2, large1, not1, if_true, if_false,
          BitVec.toNat_allOnes, UInt8.toNat_toBitVec]
        rw [if_pos (by omega)]
        omega
      · have small1 : b1.toNat < 128 := by omega
        simp only [large3, small3, large2, small2, large1, small1, if_true, if_false,
          UInt8.toNat_toBitVec]
        rw [if_pos (by omega)]
        omega

theorem frameLength_lower (b0 b1 b2 b3 : UInt8) : -(2 ^ 31) ≤ frameLength b0 b1 b2 b3 :=
  BitVec.le_toInt _

theorem frameLength_upper (b0 b1 b2 b3 : UInt8) : frameLength b0 b1 b2 b3 < 2 ^ 31 :=
  BitVec.toInt_lt

theorem frameLength_negative_iff (b0 b1 b2 b3 : UInt8) :
    frameLength b0 b1 b2 b3 < 0 ↔ 128 ≤ b3.toNat := by
  have byte3 := b3.toNat_lt
  rw [frameLength_eq]
  split
  · omega
  · repeat' split
    all_goals omega

/-- In terms of the prefix bytes, when the length is non-negative and leaves room for the 4. -/
def SoundPrefix (b2 b3 : UInt8) : Prop := b3 < 0x80 ∧ ¬(b3 = 0x7F ∧ b2 = 0xFF)

instance (b2 b3 : UInt8) : Decidable (SoundPrefix b2 b3) :=
  inferInstanceAs (Decidable (_ ∧ _))

theorem frameLength_within_iff (b0 b1 b2 b3 : UInt8) :
    (0 ≤ frameLength b0 b1 b2 b3 ∧ frameLength b0 b1 b2 b3 ≤ 2 ^ 31 - 5) ↔
      SoundPrefix b2 b3 := by
  have byte0 := b0.toNat_lt
  have byte1 := b1.toNat_lt
  have byte2 := b2.toNat_lt
  have byte3 := b3.toNat_lt
  have top : b3 < 0x80 ↔ b3.toNat < 128 := by rw [UInt8.lt_iff_toNat_lt]; rfl
  have last : b3 = 0x7F ↔ b3.toNat = 127 := by rw [← UInt8.toNat_inj]; rfl
  have third : b2 = 0xFF ↔ b2.toNat = 255 := by rw [← UInt8.toNat_inj]; rfl
  rw [frameLength_eq, SoundPrefix, top, last, third]
  repeat' split
  all_goals omega

/-! The prefix a sender writes, and the length read back from it. -/

def lengthPrefix (length : Nat) : List UInt8 :=
  [UInt8.ofNat length, UInt8.ofNat (length / 2 ^ 8), UInt8.ofNat (length / 2 ^ 16),
    UInt8.ofNat (length / 2 ^ 24)]

@[simp] theorem length_lengthPrefix (length : Nat) : (lengthPrefix length).length = 4 := rfl

/-- The length read back: below the highest of bits 15 and 23 that is set, the
bytes before it read as 0xFF. -/
def lengthReadBack (length : Nat) : Nat :=
  if 128 ≤ length / 2 ^ 16 % 256 then length / 2 ^ 16 * 2 ^ 16 + 0xFFFF
  else if 128 ≤ length / 2 ^ 8 % 256 then length / 2 ^ 8 * 2 ^ 8 + 0xFF
  else length

theorem frameLength_lengthPrefix {length : Nat} (fits : length < 2 ^ 31) :
    frameLength (UInt8.ofNat length) (UInt8.ofNat (length / 2 ^ 8))
      (UInt8.ofNat (length / 2 ^ 16)) (UInt8.ofNat (length / 2 ^ 24)) =
        lengthReadBack length := by
  rw [frameLength_eq, lengthReadBack]
  simp only [UInt8.toNat_ofNat']
  have top : length / 2 ^ 24 % 2 ^ 8 < 128 := by omega
  rw [if_neg (by omega)]
  by_cases third : 128 ≤ length / 2 ^ 16 % 256
  · rw [if_pos (by omega), if_pos third]
    omega
  · rw [if_neg (by omega), if_neg third]
    by_cases second : 128 ≤ length / 2 ^ 8 % 256
    · rw [if_pos (by omega), if_pos second]
      omega
    · rw [if_neg (by omega), if_neg second]
      omega

example : lengthReadBack 10 = 10 ∧ lengthReadBack 32767 = 32767 ∧ lengthReadBack 32768 = 33023 := by
  decide

end LibEsClient
