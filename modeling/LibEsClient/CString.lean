import Mathlib

/-! NUL-terminated strings by value: the bytes before the NUL, none of which is NUL. -/

namespace LibEsClient

structure CString where
  bytes : List UInt8
  noNul : 0 ∉ bytes
  deriving DecidableEq, Repr

def CString.replicate (count : Nat) (byte : UInt8) (nonZero : byte ≠ 0) : CString where
  bytes := List.replicate count byte
  noNul := fun member => nonZero (List.eq_of_mem_replicate member).symm

@[simp] theorem CString.length_replicate (count : Nat) (byte : UInt8) (nonZero : byte ≠ 0) :
    (replicate count byte nonZero).bytes.length = count :=
  List.length_replicate

/-- The string that starts a block of bytes followed by a NUL. -/
def CString.ofBytes (bytes : List UInt8) : CString where
  bytes := bytes.takeWhile (· ≠ 0)
  noNul := fun member => by simpa using List.mem_takeWhile_imp member

@[simp] theorem CString.ofBytes_bytes (text : CString) : ofBytes text.bytes = text := by
  have kept : text.bytes.takeWhile (· ≠ 0) = text.bytes := by
    apply List.takeWhile_eq_self_iff.mpr
    intro byte member
    have nonZero : byte ≠ 0 := fun zero => text.noNul (zero ▸ member)
    simpa using nonZero
  cases text
  simp only [ofBytes, kept]

end LibEsClient
