import LibEsClient.EsProtoEvents

/-! Encoding again what was decoded: a message that `es_unpack_write_events` accepted,
given to `es_pack_write_events`. What lies in the bytes of an event fits in an `int`,
and an empty payload, which is unpacked as a NULL pointer, is where the assertions of
the packing loop stop. -/

namespace LibEsClient

open FlatMemory Proto2

/-! How much there can be in a message. -/

def Messages.NewEvent.held (ev : Messages.NewEvent) : Nat := ev.data.length + ev.metadata.length

def Messages.WriteEvents.held (msg : Messages.WriteEvents) : Nat :=
  (msg.events.map fun ev => 1 + ev.held).sum

theorem bytesCodec_read_size {payload : Payload} {value : List UInt8}
    (read : bytesCodec.read payload = some value) : value.length = payload.size := by
  cases payload with
  | lengthDelimited bytes => exact congrArg List.length (Option.some.inj read).symm
  | _ => simp [bytesCodec] at read

theorem newEvent_load_held :
    ∀ field ∈ Messages.newEventDescriptor.fields, ∀ payload current next,
      field.load payload current = some next → next.held ≤ current.held + (1 + payload.size) := by
  intro field member payload current next loaded
  simp only [Messages.newEventDescriptor, List.mem_cons, List.not_mem_nil, or_false] at member
  rcases member with rfl | rfl | rfl | rfl | rfl | rfl
  all_goals obtain ⟨value, read, rfl⟩ := Option.map_eq_some_iff.mp loaded
  · exact Nat.le_add_right _ _
  · exact Nat.le_add_right _ _
  · exact Nat.le_add_right _ _
  · exact Nat.le_add_right _ _
  · have size := bytesCodec_read_size read
    simp only [Messages.NewEvent.held]
    omega
  · have size := bytesCodec_read_size read
    simp only [Messages.NewEvent.held]
    omega

theorem writeEvents_load_held :
    ∀ field ∈ Messages.writeEventsDescriptor.fields, ∀ payload current next,
      field.load payload current = some next → next.held ≤ current.held + (1 + payload.size) := by
  intro field member payload current next loaded
  simp only [Messages.writeEventsDescriptor, List.mem_cons, List.not_mem_nil, or_false] at member
  rcases member with rfl | rfl | rfl | rfl
  all_goals obtain ⟨value, read, rfl⟩ := Option.map_eq_some_iff.mp loaded
  · exact Nat.le_add_right _ _
  · exact Nat.le_add_right _ _
  · cases payload with
    | lengthDelimited bytes =>
        have held : value.held ≤ 0 + bytes.length :=
          Messages.newEventDescriptor.decode_measure Messages.NewEvent.held newEvent_load_held read
        simp only [Messages.WriteEvents.held, List.map_append, List.map_singleton, List.sum_append,
          List.sum_singleton, Payload.size]
        omega
    | _ => simp [MessageDescriptor.codec] at read
  · exact Nat.le_add_right _ _

theorem held_le_of_unpacked {runtime : Runtime} (fields : runtime.ReadsFields)
    {bytes : List UInt8} {msg : Messages.WriteEvents}
    (arrived : runtime.unpack Messages.writeEventsDescriptor bytes = some msg) :
    msg.held ≤ bytes.length := by
  obtain ⟨parsed, cost, assembled⟩ := fields.found _ _ _ arrived
  have bound : msg.held ≤ 0 + (parsed.map Field.cost).sum :=
    Messages.writeEventsDescriptor.assemble_measure Messages.WriteEvents.held
      writeEvents_load_held assembled
  omega

theorem Messages.WriteEvents.length_events_le (msg : Messages.WriteEvents) :
    msg.events.length ≤ msg.held := by
  simp [held, List.sum_map_add]

theorem Messages.WriteEvents.held_event_le (msg : Messages.WriteEvents) :
    ∀ ev ∈ msg.events, ev.held ≤ msg.held := by
  intro ev member
  have part := List.single_le_sum (by simp) (1 + ev.held)
    (List.mem_map_of_mem (f := fun ev : Messages.NewEvent => 1 + ev.held) member)
  rw [held]
  omega

/-! What the decoder makes of a message. -/

def unpackedWrite (heap : Nat → Uuid) (msg : Messages.WriteEvents) : WriteEvents where
  eventStreamId := msg.eventStreamId
  expectedVersion := msg.expectedVersion
  requireMaster := msg.requireMaster
  numEvents := Int32.ofNat (msg.events.mapIdx fun i ev => unpackedEvent (heap i) ev).length
  events := msg.events.mapIdx fun i ev => unpackedEvent (heap i) ev
  holds := toNat_toInt_ofNat_le _

/-- Nothing that the decoder copies with `strdup` is NULL. -/
structure Texts (msg : Messages.WriteEvents) : Prop where
  named : msg.eventStreamId ≠ none
  typed : ∀ ev ∈ msg.events, ev.eventType ≠ none

theorem typed_of_unpackEvents {heap : Nat → Uuid} {events : List Messages.NewEvent} {i : Nat}
    {got : List NewEvent} (unpacked : unpackEvents heap i events = .ok got) :
    ∀ ev ∈ events, ev.eventType ≠ none := by
  induction events generalizing i got with
  | nil => simp
  | cons ev rest ih =>
      rw [unpackEvents] at unpacked
      cases typed : ev.eventType with
      | none =>
          simp only [unpackEvent, typed, strdup] at unpacked
          cases unpacked
      | some text =>
          rw [unpackEvent_ok (by simp [typed])] at unpacked
          cases later : unpackEvents heap (i + 1) rest with
          | error fault =>
              rw [later] at unpacked
              cases unpacked
          | ok others =>
              exact List.forall_mem_cons.mpr ⟨by simp [typed], ih later⟩

theorem unpackEvents_untyped {heap : Nat → Uuid} {events : List Messages.NewEvent}
    (untyped : ∃ ev ∈ events, ev.eventType = none) (i : Nat) :
    unpackEvents heap i events = .error .nullText := by
  induction events generalizing i with
  | nil => simp at untyped
  | cons ev rest ih =>
      rw [unpackEvents]
      cases typed : ev.eventType with
      | none =>
          simp only [unpackEvent, typed, strdup]
          rfl
      | some text =>
          have later : ∃ ev ∈ rest, ev.eventType = none := by simpa [typed] using untyped
          rw [unpackEvent_ok (by simp [typed]), ih later]
          rfl

section Decoded

variable {runtime : Runtime} {heap : Nat → Uuid} {memory : Memory UInt8} {buffer : Buffer}
  {msg : Messages.WriteEvents}
  (arrived : runtime.unpack Messages.writeEventsDescriptor
    (memory.read buffer.location (sizeT buffer.length)) = some msg)

include arrived

theorem esUnpackWriteEvents_ok (texts : Texts msg) :
    esUnpackWriteEvents runtime heap memory buffer = .ok (some (unpackedWrite heap msg)) := by
  obtain ⟨text, named⟩ := Option.ne_none_iff_exists'.mp texts.named
  have events := unpackEvents_ok heap texts.typed 0
  simp only [Nat.zero_add] at events
  simp only [esUnpackWriteEvents, unpackFrom, arrived, named, strdup, events, unpackedWrite]
  rfl

theorem texts_of_accepted {first : WriteEvents}
    (accepted : esUnpackWriteEvents runtime heap memory buffer = .ok (some first)) :
    Texts msg := by
  simp only [esUnpackWriteEvents, unpackFrom, arrived] at accepted
  cases named : msg.eventStreamId with
  | none =>
      simp only [named, strdup] at accepted
      cases accepted
  | some text =>
      cases unpacked : unpackEvents heap 0 msg.events with
      | error fault =>
          simp only [named, strdup, unpacked] at accepted
          cases accepted
      | ok got => exact ⟨by simp [named], typed_of_unpackEvents unpacked⟩

theorem esUnpackWriteEvents_untexted (untexted : ¬Texts msg) :
    esUnpackWriteEvents runtime heap memory buffer = .error .nullText := by
  simp only [esUnpackWriteEvents, unpackFrom, arrived]
  cases named : msg.eventStreamId with
  | none => rfl
  | some text =>
      have untyped : ∃ ev ∈ msg.events, ev.eventType = none := by
        by_contra typed
        exact untexted ⟨by simp [named], fun ev member missing => typed ⟨ev, member, missing⟩⟩
      simp only [unpackEvents_untyped untyped, strdup]
      rfl

end Decoded

/-! Encoding it again. -/

theorem toInt_ofNat_small {count : Nat} (small : count < 2 ^ 31) :
    (Int32.ofNat count).toInt = count := by
  rw [Int32.toInt_ofNat', Int.bmod_def, Int32.size]
  omega

theorem unpackedRegion_bytes {bytes : List UInt8} (small : bytes.length < 2 ^ 31) :
    (unpackedRegion bytes).bytes = bytes := by
  by_cases empty : bytes = []
  · simp [unpackedRegion, empty, Region.bytes, Location.bytes]
  · simp [unpackedRegion, empty, Region.bytes, Location.bytes, toInt_ofNat_small small]

theorem unpackedRegion_positive {bytes : List UInt8} (small : bytes.length < 2 ^ 31) :
    (unpackedRegion bytes).length > 0 ↔ bytes ≠ [] := by
  rw [gt_iff_lt, Int32.lt_iff_toInt_lt]
  change 0 < (Int32.ofNat bytes.length).toInt ↔ _
  rw [toInt_ofNat_small small, ← List.length_pos_iff]
  omega

theorem unpackedEvent_admitted_iff {eventId : Uuid} {ev : Messages.NewEvent}
    (small : ev.data.length < 2 ^ 31) :
    (unpackedEvent eventId ev).Admitted ↔ ev.data ≠ [] := by
  constructor
  · intro admitted
    exact (unpackedRegion_positive small).mp admitted.nonempty
  · intro nonempty
    refine ⟨?_, (unpackedRegion_positive small).mpr nonempty⟩
    simp [unpackedEvent, unpackedRegion, nonempty]

theorem mapM_packEvent_error {events : List NewEvent} (refused : ∃ cur ∈ events, ¬cur.Admitted) :
    events.mapM packEvent = .error .assertion := by
  induction events with
  | nil => simp at refused
  | cons cur rest ih =>
      rw [List.mapM_cons]
      by_cases admitted : cur.Admitted
      · have later : ∃ cur ∈ rest, ¬cur.Admitted := by
          obtain ⟨found, member, bad⟩ := refused
          rcases List.mem_cons.mp member with rfl | inRest
          · exact absurd admitted bad
          · exact ⟨found, inRest, bad⟩
        rw [packEvent, assert_ok admitted.located, assert_ok admitted.nonempty, ih later]
        rfl
      · have stopped : packEvent cur = .error .assertion := by
          by_cases located : cur.data.location ≠ .null
          · have empty : ¬cur.data.length > 0 := fun nonempty => admitted ⟨located, nonempty⟩
            rw [packEvent, assert_ok located]
            simp only [assert, if_neg empty]
            rfl
          · rw [packEvent]
            simp only [assert, if_neg located]
            rfl
        rw [stopped]
        rfl

structure NewEvent.SameContent (first second : NewEvent) : Prop where
  eventType : second.eventType = first.eventType
  dataContentType : second.dataContentType = first.dataContentType
  metadataContentType : second.metadataContentType = first.metadataContentType
  data : second.data.bytes = first.data.bytes
  metadata : second.metadata.bytes = first.metadata.bytes

structure WriteEvents.SameContent (first second : WriteEvents) : Prop where
  eventStreamId : second.eventStreamId = first.eventStreamId
  expectedVersion : second.expectedVersion = first.expectedVersion
  requireMaster : second.requireMaster = first.requireMaster
  numEvents : second.numEvents = first.numEvents
  events : List.Forall₂ NewEvent.SameContent first.counted second.counted

/-- Packed into a buffer, the value comes back from the packed bytes with the same content. -/
def WriteEvents.Reencodes (runtime : Runtime) (heap : Nat → Uuid) (memory : Memory UInt8)
    (buffer : Buffer) (first : WriteEvents) : Prop :=
  ∃ after second,
    esPackWriteEvents runtime first memory buffer =
      .ok (after, ((Outgoing.encoding (.writeEvents first)).length : Int)) ∧
    esUnpackWriteEvents runtime heap after
      ⟨(Outgoing.encoding (.writeEvents first)).length, buffer.location⟩ = .ok (some second) ∧
    first.SameContent second

theorem length_bytes_lt (region : Region) : region.bytes.length < 2 ^ 31 := by
  have upper := region.length.toInt_lt
  rw [Region.bytes, List.length_take]
  omega

theorem receivedEvent_sameContent (eventId : Uuid) {cur : NewEvent} (typed : cur.eventType ≠ none) :
    cur.SameContent (receivedEvent eventId cur) := by
  obtain ⟨text, named⟩ := Option.ne_none_iff_exists'.mp typed
  refine ⟨by simp [receivedEvent, named], rfl, rfl, unpackedRegion_bytes (length_bytes_lt _), ?_⟩
  by_cases described : cur.metadata.length > 0
  · simp only [receivedEvent, described, if_true]
    exact unpackedRegion_bytes (length_bytes_lt _)
  · have nothing : cur.metadata.length.toInt.toNat = 0 := by
      rw [gt_iff_lt, Int32.lt_iff_toInt_lt] at described
      change ¬0 < _ at described
      omega
    simp [receivedEvent, described, emptyRegion, Region.bytes, nothing]

theorem length_counted (write : WriteEvents) :
    write.counted.length = write.numEvents.toInt.toNat := by
  rw [WriteEvents.counted, List.length_take, Nat.min_eq_left write.holds]

theorem receivedWrite_sameContent (heap : Nat → Uuid) {write : WriteEvents}
    (named : write.eventStreamId ≠ none) (counted : write.numEvents ≥ 0)
    (typed : ∀ cur ∈ write.counted, cur.eventType ≠ none) :
    write.SameContent (receivedWrite heap write) := by
  obtain ⟨text, found⟩ := Option.ne_none_iff_exists'.mp named
  have lower : 0 ≤ write.numEvents.toInt := Int32.le_iff_toInt_le.mp counted
  have upper := write.numEvents.toInt_lt
  have number : (receivedWrite heap write).numEvents = write.numEvents := by
    apply Int32.toInt.inj
    simp only [receivedWrite, List.length_mapIdx, length_counted]
    rw [toInt_ofNat_small (by omega)]
    omega
  have all : (receivedWrite heap write).counted =
      write.counted.mapIdx fun i cur => receivedEvent (heap i) cur := by
    rw [WriteEvents.counted, number, List.take_of_length_le]
    · rfl
    · simp [receivedWrite, length_counted]
  refine ⟨by simp [receivedWrite, found], rfl, rfl, number, ?_⟩
  rw [all]
  refine List.forall₂_iff_get.mpr ⟨by simp, ?_⟩
  intro i first second
  simp only [List.get_eq_getElem, List.getElem_mapIdx]
  exact receivedEvent_sameContent _ (typed _ (List.getElem_mem first))

section Unpacked

variable {msg : Messages.WriteEvents} (held : msg.held < 2 ^ 31) (heap : Nat → Uuid)

include held

theorem unpackedWrite_number :
    (unpackedWrite heap msg).numEvents.toInt = msg.events.length := by
  have few := msg.length_events_le
  simp only [unpackedWrite, List.length_mapIdx]
  exact toInt_ofNat_small (by omega)

theorem unpackedWrite_nonNegative : (unpackedWrite heap msg).numEvents ≥ 0 := by
  rw [ge_iff_le, Int32.le_iff_toInt_le, unpackedWrite_number held heap]
  exact Int.natCast_nonneg _

theorem unpackedWrite_counted :
    (unpackedWrite heap msg).counted = (unpackedWrite heap msg).events := by
  rw [WriteEvents.counted, unpackedWrite_number held heap, List.take_of_length_le]
  simp [unpackedWrite]

theorem mem_unpackedWrite_counted {cur : NewEvent} :
    cur ∈ (unpackedWrite heap msg).counted ↔
      ∃ i ev, msg.events[i]? = some ev ∧ cur = unpackedEvent (heap i) ev := by
  rw [unpackedWrite_counted held heap]
  constructor
  · intro member
    obtain ⟨i, bound, same⟩ := List.mem_mapIdx.mp member
    exact ⟨i, msg.events[i], List.getElem?_eq_getElem bound, same.symm⟩
  · rintro ⟨i, ev, found, rfl⟩
    obtain ⟨bound, same⟩ := List.getElem?_eq_some_iff.mp found
    exact List.mem_mapIdx.mpr ⟨i, bound, by rw [same]⟩

theorem unpackedWrite_admitted_iff {i : Nat} {ev : Messages.NewEvent}
    (found : msg.events[i]? = some ev) :
    (unpackedEvent (heap i) ev).Admitted ↔ ev.data ≠ [] := by
  have part := msg.held_event_le ev (List.mem_of_getElem? found)
  apply unpackedEvent_admitted_iff
  rw [Messages.NewEvent.held] at part
  omega

theorem unpackedWrite_refused {runtime : Runtime} (memory : Memory UInt8) (buffer : Buffer)
    (empty : ∃ ev ∈ msg.events, ev.data = []) :
    esPackWriteEvents runtime (unpackedWrite heap msg) memory buffer = .error .assertion := by
  obtain ⟨ev, member, nothing⟩ := empty
  obtain ⟨i, found⟩ := List.mem_iff_getElem?.mp member
  rw [esPackWriteEvents, assert_ok (unpackedWrite_nonNegative held heap), mapM_packEvent_error]
  · rfl
  · refine ⟨_, (mem_unpackedWrite_counted held heap).mpr ⟨i, ev, found, rfl⟩, ?_⟩
    rw [unpackedWrite_admitted_iff held heap found]
    simpa using nothing

theorem unpackedWrite_reencodes {runtime : Runtime} (conforms : runtime.Conforms)
    (texts : Texts msg) (nonempty : ∀ ev ∈ msg.events, ev.data ≠ []) (again : Nat → Uuid)
    (memory : Memory UInt8) {buffer : Buffer}
    (room : (Outgoing.encoding (.writeEvents (unpackedWrite heap msg))).length ≤ buffer.length)
    (upper : buffer.length < 2 ^ 31) :
    (unpackedWrite heap msg).Reencodes runtime again memory buffer := by
  have admitted : Outgoing.Admitted (.writeEvents (unpackedWrite heap msg)) := by
    refine ⟨unpackedWrite_nonNegative held heap, ?_⟩
    intro cur member
    obtain ⟨i, ev, found, rfl⟩ := (mem_unpackedWrite_counted held heap).mp member
    exact (unpackedWrite_admitted_iff held heap found).mpr (nonempty ev (List.mem_of_getElem? found))
  have typed : ∀ cur ∈ (unpackedWrite heap msg).counted, cur.eventType ≠ none := by
    intro cur member
    obtain ⟨i, ev, found, rfl⟩ := (mem_unpackedWrite_counted held heap).mp member
    exact texts.typed ev (List.mem_of_getElem? found)
  obtain ⟨after, packed, unpacked⟩ := writeEvents_received conforms again admitted memory buffer
    room upper
  exact ⟨after, _, packed, unpacked,
    receivedWrite_sameContent again texts.named (unpackedWrite_nonNegative held heap) typed⟩

end Unpacked

/-- What was decoded is encoded again, and comes back with the same content, exactly
when no event's data is empty; otherwise the packing loop fails an assertion. -/
theorem writeEvents_reencodes_iff {runtime : Runtime} (conforms : runtime.Conforms)
    (fields : runtime.ReadsFields) (heap : Nat → Uuid) (memory : Memory UInt8) (buffer : Buffer)
    (lower : 0 ≤ buffer.length) (upper : buffer.length < 2 ^ 31) (msg : Messages.WriteEvents)
    (arrived : runtime.unpack Messages.writeEventsDescriptor
      (memory.read buffer.location buffer.length.toNat) = some msg)
    (first : WriteEvents)
    (accepted : esUnpackWriteEvents runtime heap memory buffer = .ok (some first))
    (again : Nat → Uuid) (output : Memory UInt8) (outputBuffer : Buffer)
    (room : (Outgoing.encoding (.writeEvents first)).length ≤ outputBuffer.length)
    (outputUpper : outputBuffer.length < 2 ^ 31) :
    (first.Reencodes runtime again output outputBuffer ↔ ∀ ev ∈ msg.events, ev.data ≠ []) ∧
      ((∃ ev ∈ msg.events, ev.data = []) →
        esPackWriteEvents runtime first output outputBuffer = .error .assertion) := by
  have held : msg.held < 2 ^ 31 := by
    have bound := held_le_of_unpacked fields arrived
    rw [Memory.length_read] at bound
    omega
  rw [← sizeT_of_range lower upper] at arrived
  have texts := texts_of_accepted arrived accepted
  rw [esUnpackWriteEvents_ok arrived texts] at accepted
  obtain rfl := Option.some.inj (Except.ok.inj accepted)
  refine ⟨⟨?_, ?_⟩, unpackedWrite_refused held heap output outputBuffer⟩
  · rintro ⟨after, second, packed, _, _⟩ ev member empty
    rw [unpackedWrite_refused held heap output outputBuffer ⟨ev, member, empty⟩] at packed
    cases packed
  · intro nonempty
    exact unpackedWrite_reencodes held heap conforms texts nonempty again output room outputUpper

/-- A write of one event with these data and with metadata that are there and empty. -/
def described (data : List UInt8) : Messages.WriteEvents where
  eventStreamId := some ⟨[0x73], by decide⟩
  events := [{
    eventType := some ⟨[0x74], by decide⟩
    dataContentType := 1
    data := data
    hasMetadata := true }]
  requireMaster := true

theorem described_texts (data : List UInt8) : Texts (described data) := by
  refine ⟨by simp [described], ?_⟩
  intro ev member
  rw [List.mem_singleton.mp member]
  simp

def wireMemory (bytes : List UInt8) : Memory UInt8 := Memory.write (fun _ => 0) 0 bytes

theorem writeEvents_reencodes_described :
    ((unpackedWrite (fun _ _ => 0) (described [7, 8])).Reencodes referenceRuntime (fun _ _ => 1)
        (fun _ => 0) ⟨64, 100⟩ ↔ ∀ ev ∈ (described [7, 8]).events, ev.data ≠ []) ∧
      ((∃ ev ∈ (described [7, 8]).events, ev.data = []) →
        esPackWriteEvents referenceRuntime (unpackedWrite (fun _ _ => 0) (described [7, 8]))
          (fun _ => 0) ⟨64, 100⟩ = .error .assertion) :=
  have arrived : referenceRuntime.unpack Messages.writeEventsDescriptor
      ((wireMemory [0x0A, 1, 0x73, 0x10, 0, 0x1A, 15, 0x0A, 0, 0x12, 1, 0x74, 0x18, 1, 0x20, 0,
        0x2A, 2, 7, 8, 0x32, 0, 0x20, 1]).read 0 24) = some (described [7, 8]) := by decide
  writeEvents_reencodes_iff referenceRuntime_conforms referenceRuntime_readsFields (fun _ _ => 0)
    (wireMemory [0x0A, 1, 0x73, 0x10, 0, 0x1A, 15, 0x0A, 0, 0x12, 1, 0x74, 0x18, 1, 0x20, 0,
      0x2A, 2, 7, 8, 0x32, 0, 0x20, 1]) ⟨24, 0⟩ (by decide) (by decide) (described [7, 8]) arrived
    (unpackedWrite (fun _ _ => 0) (described [7, 8]))
    (esUnpackWriteEvents_ok arrived (described_texts [7, 8])) (fun _ _ => 1) (fun _ => 0) ⟨64, 100⟩
    (by decide) (by decide)

/-- An event with an empty data field is decoded, and cannot be encoded again. -/
theorem writeEvents_reencodes_empty_data :
    esUnpackWriteEvents referenceRuntime (fun _ _ => 0)
        (wireMemory [0x0A, 1, 0x73, 0x10, 0, 0x1A, 13, 0x0A, 0, 0x12, 1, 0x74, 0x18, 1, 0x20, 0,
          0x2A, 0, 0x32, 0, 0x20, 1]) ⟨22, 0⟩ =
      .ok (some (unpackedWrite (fun _ _ => 0) (described []))) ∧
    (Outgoing.encoding (.writeEvents (unpackedWrite (fun _ _ => 0) (described [])))).length ≤ 64 ∧
    ¬(unpackedWrite (fun _ _ => 0) (described [])).Reencodes referenceRuntime (fun _ _ => 1)
      (fun _ => 0) ⟨64, 100⟩ := by
  have arrived : referenceRuntime.unpack Messages.writeEventsDescriptor
      ((wireMemory [0x0A, 1, 0x73, 0x10, 0, 0x1A, 13, 0x0A, 0, 0x12, 1, 0x74, 0x18, 1, 0x20, 0,
        0x2A, 0, 0x32, 0, 0x20, 1]).read 0 22) = some (described []) := by decide
  refine ⟨esUnpackWriteEvents_ok arrived (described_texts []), by decide, ?_⟩
  rintro ⟨after, second, packed, _, _⟩
  rw [unpackedWrite_refused (by decide) (fun _ _ => 0) (fun _ => 0) ⟨64, 100⟩
    ⟨_, List.mem_singleton.mpr rfl, rfl⟩] at packed
  cases packed

end LibEsClient
