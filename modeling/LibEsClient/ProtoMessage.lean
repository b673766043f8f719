import LibEsClient.ProtoWire

/-! The message level of proto2: a descriptor lists the fields of a message type
with their numbers and the way their values travel; encoding and decoding follow
the descriptor, and decoding an encoded message gives it back field by field. -/

namespace Proto2

/-- How values of one type travel. `seen` is what arrives for what was sent. -/
structure ValueCodec (value : Type) where
  wire : value → Payload
  read : Payload → Option value
  seen : value → value
  read_wire : ∀ sent, (wire sent).Fits → read (wire sent) = some (seen sent)

def int64Codec : ValueCodec Int64 where
  wire value := .varint value.toUInt64
  read
    | .varint value => some value.toInt64
    | _ => none
  seen value := value
  read_wire _ _ := by simp

/-- Sign-extended to 64 bits, so ten bytes where it is negative; read by its low 32 bits. -/
def int32Codec : ValueCodec Int32 where
  wire value := .varint value.toInt64.toUInt64
  read
    | .varint value => some value.toInt64.toInt32
    | _ => none
  seen value := value
  read_wire _ _ := by simp

def enumCodec : ValueCodec UInt32 where
  wire value := .varint value.toInt32.toInt64.toUInt64
  read
    | .varint value => some value.toInt64.toInt32.toUInt32
    | _ => none
  seen value := value
  read_wire _ _ := by simp

def boolCodec : ValueCodec Bool where
  wire value := .varint (if value then 1 else 0)
  read
    | .varint value => some (value != 0)
    | _ => none
  seen value := value
  read_wire value _ := by cases value <;> rfl

def bytesCodec : ValueCodec (List UInt8) where
  wire value := .lengthDelimited value
  read
    | .lengthDelimited bytes => some bytes
    | _ => none
  seen value := value
  read_wire _ _ := rfl

/-! A field of a message type: what it stores when the message is packed, and what
loading a payload does to a message under construction. -/

structure FieldDescriptor (message : Type) where
  id : Nat
  idBound : 0 < id ∧ id < 2 ^ 29
  isRequired : Bool
  store : message → List Payload
  load : Payload → message → Option message
  copy : message → message → message
  load_store : ∀ source target, (∀ payload ∈ store source, payload.Fits) →
    (store source).foldlM (fun current payload => load payload current) target =
      some (copy source target)
  required_store : isRequired = true → ∀ source, store source ≠ []

namespace FieldDescriptor

variable {message value : Type}

theorem load_values (codec : ValueCodec value) (put : value → message → message)
    (values : List value) (target : message)
    (fits : ∀ payload ∈ values.map codec.wire, payload.Fits) :
    (values.map codec.wire).foldlM
        (fun current payload => (codec.read payload).map fun found => put found current) target =
      some (values.foldl (fun current sent => put (codec.seen sent) current) target) := by
  induction values generalizing target with
  | nil => rfl
  | cons sent rest ih =>
      rw [List.map_cons, List.foldlM_cons, codec.read_wire sent (fits _ (by simp)), Option.map_some]
      exact ih _ fun payload member => fits payload (List.mem_cons_of_mem _ member)

def ofValues (id : Nat) (idBound : 0 < id ∧ id < 2 ^ 29) (isRequired : Bool)
    (codec : ValueCodec value) (values : message → List value)
    (put : value → message → message)
    (present : isRequired = true → ∀ source, values source ≠ []) : FieldDescriptor message where
  id := id
  idBound := idBound
  isRequired := isRequired
  store source := (values source).map codec.wire
  load payload current := (codec.read payload).map fun found => put found current
  copy source target :=
    (values source).foldl (fun current sent => put (codec.seen sent) current) target
  load_store source target fits := load_values codec put (values source) target fits
  required_store required source := by simpa using present required source

section Labels

variable (id : Nat) (codec : ValueCodec value)

def required (get : message → value) (put : value → message → message)
    (idBound : 0 < id ∧ id < 2 ^ 29 := by decide) : FieldDescriptor message :=
  ofValues id idBound true codec (fun source => [get source]) put (by simp)

def optional (has : message → Bool) (get : message → value) (put : value → message → message)
    (idBound : 0 < id ∧ id < 2 ^ 29 := by decide) : FieldDescriptor message :=
  ofValues id idBound false codec (fun source => if has source then [get source] else []) put
    (by simp)

def pointer (get : message → Option value) (put : value → message → message)
    (idBound : 0 < id ∧ id < 2 ^ 29 := by decide) : FieldDescriptor message :=
  ofValues id idBound false codec (fun source => (get source).toList) put (by simp)

def repeated (get : message → List value) (add : value → message → message)
    (idBound : 0 < id ∧ id < 2 ^ 29 := by decide) : FieldDescriptor message :=
  ofValues id idBound false codec get add (by simp)

end Labels

end FieldDescriptor

structure MessageDescriptor (message : Type) where
  init : message
  fields : List (FieldDescriptor message)
  nodup : (fields.map FieldDescriptor.id).Nodup := by decide

namespace MessageDescriptor

variable {message : Type} (descriptor : MessageDescriptor message)

def toFields (source : message) : List Field :=
  descriptor.fields.flatMap fun field =>
    (field.store source).map fun payload => { id := field.id, payload := payload }

def encode (source : message) : List UInt8 := (descriptor.toFields source).flatMap encodeField

def loadField (current : message) (parsed : Field) : Option message :=
  match descriptor.fields.find? (·.id = parsed.id) with
  | none => some current
  | some field => field.load parsed.payload current

def assemble (parsed : List Field) : Option message :=
  parsed.foldlM descriptor.loadField descriptor.init

def Complete (parsed : List Field) : Prop :=
  ∀ field ∈ descriptor.fields, field.isRequired = true → ∃ found ∈ parsed, found.id = field.id

instance (parsed : List Field) : Decidable (descriptor.Complete parsed) :=
  inferInstanceAs (Decidable (∀ field ∈ descriptor.fields, _ → ∃ found ∈ parsed, _))

def decode (bytes : List UInt8) : Option message :=
  (parseFields bytes).bind fun parsed =>
    if descriptor.Complete parsed then descriptor.assemble parsed else none

def seen (source : message) : message :=
  descriptor.fields.foldl (fun target field => field.copy source target) descriptor.init

theorem loadField_of_mem {field : FieldDescriptor message} (member : field ∈ descriptor.fields)
    (current : message) (payload : Payload) :
    descriptor.loadField current { id := field.id, payload := payload } =
      field.load payload current := by
  have found : descriptor.fields.find? (·.id = field.id) = some field := by
    have nodup := descriptor.nodup
    generalize descriptor.fields = fields at member nodup
    induction fields with
    | nil => simp at member
    | cons head rest ih =>
        rw [List.map_cons, List.nodup_cons] at nodup
        rcases List.mem_cons.mp member with rfl | later
        · simp
        · have other : head.id ≠ field.id := fun same =>
            nodup.1 (List.mem_map.mpr ⟨field, later, same.symm⟩)
          rw [List.find?_cons_of_neg (by simpa using other)]
          exact ih later nodup.2
  simp only [loadField, found]

theorem complete_toFields (source : message) :
    descriptor.Complete (descriptor.toFields source) := by
  intro field member required
  obtain ⟨payload, rest, stored⟩ :=
    List.exists_cons_of_ne_nil (field.required_store required source)
  refine ⟨{ id := field.id, payload := payload }, ?_, rfl⟩
  exact List.mem_flatMap.mpr ⟨field, member, List.mem_map.mpr ⟨payload, by simp [stored], rfl⟩⟩

theorem foldlM_toFields (source : message) (fields : List (FieldDescriptor message))
    (members : ∀ field ∈ fields, field ∈ descriptor.fields)
    (fits : ∀ field ∈ fields, ∀ payload ∈ field.store source, payload.Fits) (target : message) :
    (fields.flatMap fun field =>
        (field.store source).map fun payload =>
          ({ id := field.id, payload := payload } : Field)).foldlM descriptor.loadField target =
      some (fields.foldl (fun target field => field.copy source target) target) := by
  induction fields generalizing target with
  | nil => rfl
  | cons field rest ih =>
      have first : ((field.store source).map fun payload =>
          ({ id := field.id, payload := payload } : Field)).foldlM descriptor.loadField target =
            some (field.copy source target) := by
        rw [List.foldlM_map]
        simp only [descriptor.loadField_of_mem (members field (by simp))]
        exact field.load_store source target (fits field (by simp))
      rw [List.flatMap_cons, List.foldlM_append, first]
      exact ih (fun later member => members later (List.mem_cons_of_mem _ member))
        (fun later member => fits later (List.mem_cons_of_mem _ member)) _

theorem payload_length_le (source : message) {field : FieldDescriptor message}
    (member : field ∈ descriptor.fields) {payload : Payload}
    (stored : payload ∈ field.store source) :
    payload.encode.length ≤ (descriptor.encode source).length := by
  have isField : ({ id := field.id, payload := payload } : Field) ∈ descriptor.toFields source :=
    List.mem_flatMap.mpr ⟨field, member, List.mem_map.mpr ⟨payload, stored, rfl⟩⟩
  have part :=
    (List.sublist_flatten_of_mem (List.mem_map_of_mem (f := encodeField) isField)).length_le
  rw [← List.flatMap_def, encodeField, List.length_append] at part
  exact Nat.le_trans (Nat.le_add_left _ _) part

theorem decode_encode (source : message) (fits : (descriptor.encode source).length < 2 ^ 64) :
    descriptor.decode (descriptor.encode source) = some (descriptor.seen source) := by
  have payloadFits : ∀ field ∈ descriptor.fields, ∀ payload ∈ field.store source,
      payload.Fits := by
    intro field member payload stored
    have bound := descriptor.payload_length_le source member stored
    cases payload with
    | lengthDelimited bytes =>
        simp only [Payload.encode, List.length_append] at bound
        exact Nat.lt_of_le_of_lt (by omega : bytes.length ≤ _) fits
    | _ => trivial
  have sound : ∀ field ∈ descriptor.toFields source,
      field.id < 2 ^ 29 ∧ field.payload.Fits := by
    intro field member
    obtain ⟨described, isDescribed, isStored⟩ := List.mem_flatMap.mp member
    obtain ⟨payload, stored, rfl⟩ := List.mem_map.mp isStored
    exact ⟨described.idBound.2, payloadFits described isDescribed payload stored⟩
  rw [decode, encode, parseFields_encodeFields sound, Option.bind_some,
    if_pos (descriptor.complete_toFields source)]
  exact descriptor.foldlM_toFields source descriptor.fields (fun _ member => member) payloadFits _

def codec : ValueCodec message where
  wire source := .lengthDelimited (descriptor.encode source)
  read
    | .lengthDelimited bytes => descriptor.decode bytes
    | _ => none
  seen source := descriptor.seen source
  read_wire source fits := descriptor.decode_encode source fits

theorem assemble_induction (Holds : message → Prop) (initial : Holds descriptor.init)
    (loaded : ∀ field ∈ descriptor.fields, ∀ payload current next,
      field.load payload current = some next → Holds current → Holds next)
    {parsed : List Field} {result : message}
    (assembled : descriptor.assemble parsed = some result) :
    Holds result := by
  rw [assemble] at assembled
  generalize descriptor.init = start at initial assembled
  induction parsed generalizing start with
  | nil =>
      simp only [List.foldlM_nil, Option.pure_def, Option.some.injEq] at assembled
      exact assembled ▸ initial
  | cons first rest ih =>
      rw [List.foldlM_cons] at assembled
      obtain ⟨next, step, later⟩ := Option.bind_eq_some_iff.mp assembled
      refine ih next ?_ later
      simp only [loadField] at step
      split at step
      · exact (Option.some.inj step) ▸ initial
      · rename_i field found
        exact loaded field (List.mem_of_find?_eq_some found) _ _ _ step initial

theorem decode_assembled {bytes : List UInt8} {result : message}
    (decoded : descriptor.decode bytes = some result) :
    ∃ parsed, parseFields bytes = some parsed ∧ descriptor.assemble parsed = some result := by
  obtain ⟨parsed, parse, complete⟩ := Option.bind_eq_some_iff.mp decoded
  split at complete
  · exact ⟨parsed, parse, complete⟩
  · simp at complete

section Measure

variable (measure : message → Nat)
  (loaded : ∀ field ∈ descriptor.fields, ∀ payload current next,
    field.load payload current = some next → measure next ≤ measure current + (1 + payload.size))

include loaded

theorem assemble_measure {parsed : List Field} {result : message}
    (assembled : descriptor.assemble parsed = some result) :
    measure result ≤ measure descriptor.init + (parsed.map Field.cost).sum := by
  rw [assemble] at assembled
  generalize descriptor.init = start at assembled
  induction parsed generalizing start with
  | nil =>
      obtain rfl : start = result := Option.some.inj assembled
      simp
  | cons first rest ih =>
      rw [List.foldlM_cons] at assembled
      obtain ⟨next, step, later⟩ := Option.bind_eq_some_iff.mp assembled
      have grown : measure next ≤ measure start + first.cost := by
        simp only [loadField] at step
        split at step
        · obtain rfl := Option.some.inj step
          omega
        · rename_i field found
          exact loaded field (List.mem_of_find?_eq_some found) _ _ _ step
      have more := ih next later
      rw [List.map_cons, List.sum_cons]
      omega

theorem decode_measure {bytes : List UInt8} {result : message}
    (decoded : descriptor.decode bytes = some result) :
    measure result ≤ measure descriptor.init + bytes.length := by
  obtain ⟨parsed, parse, assembled⟩ := descriptor.decode_assembled decoded
  have bound := descriptor.assemble_measure measure loaded assembled
  have cost := parseFields_cost parse
  omega

end Measure

end MessageDescriptor

/-! A runtime library for messages, as its callers see it. -/

/-- Packing gives the bytes written at the caller's pointer; `none` is a NULL result. -/
structure Runtime where
  getPackedSize : {message : Type} → MessageDescriptor message → message → UInt64
  pack : {message : Type} → MessageDescriptor message → message → List UInt8
  unpack : {message : Type} → MessageDescriptor message → List UInt8 → Option message

/-- The runtime implements the wire format: exact sizes, the encoding itself, the
decoding of what was encoded, and results built up from a message's initial value. -/
structure Runtime.Conforms (runtime : Runtime) : Prop where
  size : ∀ {message : Type} (descriptor : MessageDescriptor message) (source : message),
    runtime.getPackedSize descriptor source = UInt64.ofNat (descriptor.encode source).length
  packed : ∀ {message : Type} (descriptor : MessageDescriptor message) (source : message),
    runtime.pack descriptor source = descriptor.encode source
  unpacked : ∀ {message : Type} (descriptor : MessageDescriptor message) (source : message),
    (descriptor.encode source).length < 2 ^ 31 →
      runtime.unpack descriptor (descriptor.encode source) =
        descriptor.decode (descriptor.encode source)
  assembled : ∀ {message : Type} (descriptor : MessageDescriptor message) (bytes : List UInt8)
    (result : message), runtime.unpack descriptor bytes = some result →
      ∃ parsed, descriptor.assemble parsed = some result

def referenceRuntime : Runtime where
  getPackedSize descriptor source := UInt64.ofNat (descriptor.encode source).length
  pack descriptor source := descriptor.encode source
  unpack descriptor bytes := descriptor.decode bytes

theorem referenceRuntime_conforms : referenceRuntime.Conforms where
  size _ _ := rfl
  packed _ _ := rfl
  unpacked _ _ _ := rfl
  assembled descriptor bytes result decoded := by
    obtain ⟨parsed, _, assembled⟩ := descriptor.decode_assembled decoded
    exact ⟨parsed, assembled⟩

structure Runtime.ReadsFields (runtime : Runtime) : Prop where
  found : ∀ {message : Type} (descriptor : MessageDescriptor message) (bytes : List UInt8)
    (result : message), runtime.unpack descriptor bytes = some result →
      ∃ parsed, (parsed.map Field.cost).sum ≤ bytes.length ∧
        descriptor.assemble parsed = some result

theorem referenceRuntime_readsFields : referenceRuntime.ReadsFields where
  found descriptor _ _ decoded := by
    obtain ⟨parsed, parse, assembled⟩ := descriptor.decode_assembled decoded
    exact ⟨parsed, parseFields_cost parse, assembled⟩

theorem Runtime.Conforms.unpack_encode {runtime : Runtime} (conforms : runtime.Conforms)
    {message : Type} (descriptor : MessageDescriptor message) (source : message)
    (small : (descriptor.encode source).length < 2 ^ 31) :
    runtime.unpack descriptor (descriptor.encode source) = some (descriptor.seen source) := by
  rw [conforms.unpacked descriptor source small, descriptor.decode_encode source (by omega)]

end Proto2
