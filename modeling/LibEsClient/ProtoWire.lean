import Mathlib

/-! The wire level of proto2: varints, and messages as sequences of numbered fields. -/

namespace Proto2

/-! Base-128 varints, lowest group first, of at most ten bytes. -/

def encodeGroups : Nat → Nat → List UInt8
  | 0, _ => []
  | groups + 1, value =>
      if value < 128 then [UInt8.ofNat value]
      else UInt8.ofNat (value % 128 + 128) :: encodeGroups groups (value / 128)

def decodeGroups : Nat → List UInt8 → Option (Nat × List UInt8)
  | 0, _ => none
  | _ + 1, [] => none
  | groups + 1, byte :: rest =>
      if byte.toNat < 128 then some (byte.toNat, rest)
      else (decodeGroups groups rest).map fun high => (byte.toNat - 128 + 128 * high.1, high.2)

def encodeVarint (value : Nat) : List UInt8 := encodeGroups 10 value

def decodeVarint (bytes : List UInt8) : Option (Nat × List UInt8) := decodeGroups 10 bytes

theorem toNat_ofNat_small {value : Nat} (small : value < 256) :
    (UInt8.ofNat value).toNat = value := by
  rw [UInt8.toNat_ofNat']
  omega

theorem decodeGroups_encodeGroups (groups value : Nat) (bound : value < 128 ^ (groups + 1))
    (rest : List UInt8) :
    decodeGroups (groups + 1) (encodeGroups (groups + 1) value ++ rest) = some (value, rest) := by
  induction groups generalizing value with
  | zero =>
      have small : value < 128 := by simpa using bound
      have byte : (UInt8.ofNat value).toNat = value := toNat_ofNat_small (by omega)
      simp only [encodeGroups, small, if_true, List.cons_append, List.nil_append, decodeGroups,
        byte]
  | succ groups ih =>
      by_cases small : value < 128
      · have byte : (UInt8.ofNat value).toNat = value := toNat_ofNat_small (by omega)
        rw [encodeGroups, if_pos small, List.cons_append, List.nil_append, decodeGroups, byte,
          if_pos small]
      · have byte : (UInt8.ofNat (value % 128 + 128)).toNat = value % 128 + 128 :=
          toNat_ofNat_small (by omega)
        have high : value / 128 < 128 ^ (groups + 1) := by
          apply Nat.div_lt_of_lt_mul
          rwa [← Nat.pow_succ']
        rw [encodeGroups, if_neg small, List.cons_append, decodeGroups, byte, if_neg (by omega),
          ih _ high]
        simp only [Option.map_some]
        congr 2
        omega

theorem decodeVarint_encodeVarint (value : Nat) (bound : value < 2 ^ 64) (rest : List UInt8) :
    decodeVarint (encodeVarint value ++ rest) = some (value, rest) :=
  decodeGroups_encodeGroups 9 value (by omega) rest

theorem encodeVarint_ne_nil (value : Nat) : encodeVarint value ≠ [] := by
  simp only [encodeVarint, encodeGroups]
  split <;> simp

theorem length_encodeVarint_small {value : Nat} (small : value < 128) :
    (encodeVarint value).length = 1 := by
  simp [encodeVarint, encodeGroups, small]

theorem length_encodeGroups_le (groups value : Nat) :
    (encodeGroups groups value).length ≤ groups := by
  induction groups generalizing value with
  | zero => simp [encodeGroups]
  | succ groups ih =>
      rw [encodeGroups]
      split
      · simp
      · simpa using ih (value / 128)

theorem length_encodeVarint_le (value : Nat) : (encodeVarint value).length ≤ 10 :=
  length_encodeGroups_le 10 value

/-! Fields. -/

/-- What a field carries, by wire type; groups are not supported. -/
inductive Payload
  | varint (value : UInt64)
  | fixed64 (bytes : Vector UInt8 8)
  | lengthDelimited (bytes : List UInt8)
  | fixed32 (bytes : Vector UInt8 4)
  deriving DecidableEq, Repr

namespace Payload

def wireType : Payload → Nat
  | varint _ => 0
  | fixed64 _ => 1
  | lengthDelimited _ => 2
  | fixed32 _ => 5

def encode : Payload → List UInt8
  | varint value => encodeVarint value.toNat
  | fixed64 bytes => bytes.toList
  | lengthDelimited bytes => encodeVarint bytes.length ++ bytes
  | fixed32 bytes => bytes.toList

def Fits : Payload → Prop
  | lengthDelimited bytes => bytes.length < 2 ^ 64
  | _ => True

def decode : Nat → List UInt8 → Option (Payload × List UInt8)
  | 0, bytes => (decodeVarint bytes).map fun read => (varint (UInt64.ofNat read.1), read.2)
  | 1, bytes =>
      if enough : 8 ≤ bytes.length then
        some (fixed64 ⟨(bytes.take 8).toArray, by simp [enough]⟩, bytes.drop 8)
      else none
  | 2, bytes =>
      (decodeVarint bytes).bind fun read =>
        if read.1 ≤ read.2.length then
          some (lengthDelimited (read.2.take read.1), read.2.drop read.1)
        else none
  | 5, bytes =>
      if enough : 4 ≤ bytes.length then
        some (fixed32 ⟨(bytes.take 4).toArray, by simp [enough]⟩, bytes.drop 4)
      else none
  | _, _ => none

theorem decode_encode (payload : Payload) (fits : payload.Fits) (rest : List UInt8) :
    decode payload.wireType (payload.encode ++ rest) = some (payload, rest) := by
  cases payload with
  | varint value =>
      simp only [wireType, encode, decode]
      rw [decodeVarint_encodeVarint _ value.toNat_lt]
      simp
  | fixed64 bytes =>
      simp only [wireType, encode, decode]
      rw [dif_pos (by simp)]
      simp only [Vector.length_toList, List.take_left', List.drop_left']
      rfl
  | lengthDelimited bytes =>
      simp only [wireType, encode, decode, List.append_assoc]
      rw [decodeVarint_encodeVarint _ fits]
      simp
  | fixed32 bytes =>
      simp only [wireType, encode, decode]
      rw [dif_pos (by simp)]
      simp only [Vector.length_toList, List.take_left', List.drop_left']
      rfl

theorem wireType_lt (payload : Payload) : payload.wireType < 8 := by
  cases payload <;> simp [wireType]

end Payload

structure Field where
  id : Nat
  payload : Payload
  deriving DecidableEq, Repr

def encodeField (field : Field) : List UInt8 :=
  encodeVarint (8 * field.id + field.payload.wireType) ++ field.payload.encode

def decodeField (bytes : List UInt8) : Option (Field × List UInt8) :=
  (decodeVarint bytes).bind fun key =>
    (Payload.decode (key.1 % 8) key.2).map fun read =>
      ({ id := key.1 / 8, payload := read.1 }, read.2)

theorem decodeField_encodeField (field : Field) (idBound : field.id < 2 ^ 29)
    (fits : field.payload.Fits) (rest : List UInt8) :
    decodeField (encodeField field ++ rest) = some (field, rest) := by
  have wireType := field.payload.wireType_lt
  have number : (8 * field.id + field.payload.wireType) / 8 = field.id := by omega
  have kind : (8 * field.id + field.payload.wireType) % 8 = field.payload.wireType := by omega
  simp only [decodeField, encodeField, List.append_assoc]
  rw [decodeVarint_encodeVarint _ (by omega), Option.bind_some, number, kind,
    Payload.decode_encode _ fits, Option.map_some]

def parseUpTo : Nat → List UInt8 → Option (List Field)
  | _, [] => some []
  | 0, _ :: _ => none
  | count + 1, bytes =>
      (decodeField bytes).bind fun read => (parseUpTo count read.2).map (read.1 :: ·)

/-- Every field takes a byte, so the length bounds their number. -/
def parseFields (bytes : List UInt8) : Option (List Field) := parseUpTo bytes.length bytes

theorem encodeField_ne_nil (field : Field) : encodeField field ≠ [] := by
  simp [encodeField, encodeVarint_ne_nil]

theorem parseUpTo_encodeFields {fields : List Field}
    (sound : ∀ field ∈ fields, field.id < 2 ^ 29 ∧ field.payload.Fits) {count : Nat}
    (enough : fields.length ≤ count) :
    parseUpTo count (fields.flatMap encodeField) = some fields := by
  induction fields generalizing count with
  | nil => cases count <;> rfl
  | cons field rest ih =>
      obtain ⟨idBound, fits⟩ := sound field (by simp)
      rw [List.length_cons] at enough
      cases count with
      | zero => omega
      | succ count =>
          have tail := ih (fun later member => sound later (List.mem_cons_of_mem _ member))
            (by omega : rest.length ≤ count)
          obtain ⟨first, others, split⟩ := List.exists_cons_of_ne_nil (encodeField_ne_nil field)
          rw [List.flatMap_cons, split, List.cons_append, parseUpTo, ← List.cons_append, ← split,
            decodeField_encodeField field idBound fits, Option.bind_some, tail]
          · rfl
          · simp

theorem length_encodeFields_le (fields : List Field)
    (varints : ∀ field ∈ fields, field.payload.wireType = 0) :
    (fields.flatMap encodeField).length ≤ 20 * fields.length := by
  induction fields with
  | nil => simp
  | cons field rest ih =>
      have key := length_encodeVarint_le (8 * field.id + field.payload.wireType)
      have value : field.payload.encode.length ≤ 10 := by
        have varint := varints field (by simp)
        cases payload : field.payload with
        | varint value => exact length_encodeVarint_le value.toNat
        | _ => simp [payload, Payload.wireType] at varint
      have later := ih fun other member => varints other (List.mem_cons_of_mem _ member)
      rw [List.flatMap_cons, List.length_append, encodeField, List.length_append, List.length_cons]
      omega

theorem length_le_length_encodeFields (fields : List Field) :
    fields.length ≤ (fields.flatMap encodeField).length := by
  induction fields with
  | nil => simp
  | cons field rest ih =>
      have nonempty := List.length_pos_of_ne_nil (encodeField_ne_nil field)
      rw [List.flatMap_cons, List.length_append, List.length_cons]
      omega

theorem parseFields_encodeFields {fields : List Field}
    (sound : ∀ field ∈ fields, field.id < 2 ^ 29 ∧ field.payload.Fits) :
    parseFields (fields.flatMap encodeField) = some fields :=
  parseUpTo_encodeFields sound (length_le_length_encodeFields fields)

/-! What reading takes of its input. -/

/-- The bytes a payload carries beside those that tell its kind and its length. -/
def Payload.size : Payload → Nat
  | lengthDelimited bytes => bytes.length
  | _ => 0

/-- The least a field takes: its key and the bytes it carries. -/
def Field.cost (field : Field) : Nat := 1 + field.payload.size

theorem decodeGroups_rest {groups value : Nat} {bytes rest : List UInt8}
    (read : decodeGroups groups bytes = some (value, rest)) : rest.length < bytes.length := by
  induction groups generalizing bytes value with
  | zero => simp [decodeGroups] at read
  | succ groups ih =>
      cases bytes with
      | nil => simp [decodeGroups] at read
      | cons byte later =>
          rw [decodeGroups] at read
          split at read
          · obtain ⟨_, rfl⟩ := Prod.mk.inj (Option.some.inj read)
            simp
          · obtain ⟨high, found, same⟩ := Option.map_eq_some_iff.mp read
            obtain ⟨_, rfl⟩ := Prod.mk.inj same
            have shorter := ih found
            rw [List.length_cons]
            omega

theorem decodeVarint_rest {value : Nat} {bytes rest : List UInt8}
    (read : decodeVarint bytes = some (value, rest)) : rest.length < bytes.length :=
  decodeGroups_rest read

theorem Payload.decode_rest {kind : Nat} {payload : Payload} {bytes rest : List UInt8}
    (read : decode kind bytes = some (payload, rest)) :
    payload.size + rest.length ≤ bytes.length := by
  unfold decode at read
  split at read
  · obtain ⟨value, found, same⟩ := Option.map_eq_some_iff.mp read
    obtain ⟨rfl, rfl⟩ := Prod.mk.inj same
    have shorter := decodeVarint_rest found
    simp only [size]
    omega
  · split at read
    · obtain ⟨rfl, rfl⟩ := Prod.mk.inj (Option.some.inj read)
      simp [size]
    · simp at read
  · obtain ⟨⟨count, later⟩, found, cut⟩ := Option.bind_eq_some_iff.mp read
    have shorter := decodeVarint_rest found
    split at cut
    · rename_i enough
      obtain ⟨rfl, rfl⟩ := Prod.mk.inj (Option.some.inj cut)
      simp only [size, List.length_take, List.length_drop] at enough ⊢
      omega
    · simp at cut
  · split at read
    · obtain ⟨rfl, rfl⟩ := Prod.mk.inj (Option.some.inj read)
      simp [size]
    · simp at read
  · simp at read

theorem decodeField_rest {field : Field} {bytes rest : List UInt8}
    (read : decodeField bytes = some (field, rest)) :
    field.cost + rest.length ≤ bytes.length := by
  obtain ⟨⟨key, later⟩, keyRead, payloadRead⟩ := Option.bind_eq_some_iff.mp read
  obtain ⟨⟨payload, left⟩, found, same⟩ := Option.map_eq_some_iff.mp payloadRead
  obtain ⟨rfl, rfl⟩ := Prod.mk.inj same
  have afterKey := decodeVarint_rest keyRead
  have afterPayload := Payload.decode_rest found
  simp only [Field.cost] at afterKey afterPayload ⊢
  omega

theorem parseUpTo_cost {count : Nat} {bytes : List UInt8} {parsed : List Field}
    (parse : parseUpTo count bytes = some parsed) :
    (parsed.map Field.cost).sum ≤ bytes.length := by
  induction count generalizing bytes parsed with
  | zero =>
      cases bytes with
      | nil =>
          obtain rfl := Option.some.inj parse
          simp
      | cons byte later => simp [parseUpTo] at parse
  | succ count ih =>
      cases bytes with
      | nil =>
          obtain rfl := Option.some.inj parse
          simp
      | cons byte later =>
          obtain ⟨⟨field, rest⟩, read, more⟩ := Option.bind_eq_some_iff.mp parse
          obtain ⟨others, found, rfl⟩ := Option.map_eq_some_iff.mp more
          have first := decodeField_rest read
          have tail : (others.map Field.cost).sum ≤ rest.length := ih found
          simp only [List.map_cons, List.sum_cons]
          omega

theorem parseFields_cost {bytes : List UInt8} {parsed : List Field}
    (parse : parseFields bytes = some parsed) : (parsed.map Field.cost).sum ≤ bytes.length :=
  parseUpTo_cost parse

end Proto2
