import LibEsClient.EsProtoRoundTrip

/-! Written events: what `es_unpack_write_events` makes of what `es_pack_write_events`
packed. The ids of the events are on neither side of the wire, and the payloads
are left in the message that is freed. -/

namespace LibEsClient

open FlatMemory Proto2

/-! The message on the wire. -/

theorem newEvent_seen (cur : NewEvent) :
    Messages.newEventDescriptor.seen (newEventMessage cur) =
      { newEventMessage cur with
        eventType := some (cur.eventType.getD (CString.ofBytes [])) } := by
  by_cases described : cur.metadata.length > 0 <;>
    simp [MessageDescriptor.seen, Messages.newEventDescriptor, FieldDescriptor.required,
      FieldDescriptor.optional, FieldDescriptor.ofValues, newEventMessage, described, bytesCodec,
      int32Codec, requiredTextCodec]

theorem addEvents (events : List Messages.NewEvent) (msg : Messages.WriteEvents) :
    events.foldl (fun current sent => { current with
        events := current.events ++ [Messages.newEventDescriptor.seen sent] }) msg =
      { msg with events := msg.events ++ events.map Messages.newEventDescriptor.seen } := by
  induction events generalizing msg with
  | nil => simp
  | cons first rest ih => simp [ih]

theorem writeEvents_seen (write : WriteEvents) (events : List Messages.NewEvent) :
    Messages.writeEventsDescriptor.seen (writeEventsMessage write events) =
      { writeEventsMessage write (events.map Messages.newEventDescriptor.seen) with
        eventStreamId := some (write.eventStreamId.getD (CString.ofBytes [])) } := by
  let start : Messages.WriteEvents :=
    { eventStreamId := some (write.eventStreamId.getD (CString.ofBytes []))
      expectedVersion := write.expectedVersion }
  have added := congrArg
    (fun msg : Messages.WriteEvents => { msg with requireMaster := write.requireMaster })
    (addEvents events start)
  exact added

/-! What the loop of `es_unpack_write_events` makes of the events of a message. -/

def unpackedEvent (eventId : Uuid) (ev : Messages.NewEvent) : NewEvent where
  eventId := eventId
  eventType := ev.eventType
  dataContentType := ev.dataContentType
  metadataContentType := ev.metadataContentType
  data := unpackedRegion ev.data
  metadata := if ev.hasMetadata then unpackedRegion ev.metadata else emptyRegion

theorem unpackEvent_ok {eventId : Uuid} {ev : Messages.NewEvent} (typed : ev.eventType ≠ none) :
    unpackEvent eventId ev = .ok (unpackedEvent eventId ev) := by
  obtain ⟨text, found⟩ := Option.ne_none_iff_exists'.mp typed
  simp only [unpackEvent, unpackedEvent, found]
  rfl

theorem unpackEvents_ok (heap : Nat → Uuid) {events : List Messages.NewEvent}
    (typed : ∀ ev ∈ events, ev.eventType ≠ none) (i : Nat) :
    unpackEvents heap i events =
      .ok (events.mapIdx fun offset ev => unpackedEvent (heap (i + offset)) ev) := by
  induction events generalizing i with
  | nil => rfl
  | cons ev rest ih =>
      rw [unpackEvents, unpackEvent_ok (typed ev (by simp)),
        ih (fun later member => typed later (List.mem_cons_of_mem _ member)) (i + 1),
        List.mapIdx_cons]
      simp only [Nat.add_right_comm, Nat.add_assoc]
      rfl

/-! The events as they come back. -/

/-- An event that was sent, as the loop of `es_unpack_write_events` leaves it. -/
def receivedEvent (eventId : Uuid) (cur : NewEvent) : NewEvent where
  eventId := eventId
  eventType := some (cur.eventType.getD (CString.ofBytes []))
  dataContentType := cur.dataContentType
  metadataContentType := cur.metadataContentType
  data := unpackedRegion cur.data.bytes
  metadata := if cur.metadata.length > 0 then unpackedRegion cur.metadata.bytes else emptyRegion

theorem unpackedEvent_seen (eventId : Uuid) (cur : NewEvent) :
    unpackedEvent eventId (Messages.newEventDescriptor.seen (newEventMessage cur)) =
      receivedEvent eventId cur := by
  rw [newEvent_seen]
  by_cases described : cur.metadata.length > 0
  · simp [unpackedEvent, newEventMessage, receivedEvent, described]
  · simp [unpackedEvent, newEventMessage, receivedEvent, described]

theorem unpackEvents_seen (heap : Nat → Uuid) (events : List NewEvent) (i : Nat) :
    unpackEvents heap i
        ((events.map newEventMessage).map Messages.newEventDescriptor.seen) =
      .ok (events.mapIdx fun offset cur => receivedEvent (heap (i + offset)) cur) := by
  rw [List.map_map, unpackEvents_ok]
  · congr 1
    apply List.ext_getElem
    · simp
    · intro offset _ _
      simp [unpackedEvent_seen]
  · intro ev member
    obtain ⟨cur, _, rfl⟩ := List.mem_map.mp member
    simp [newEvent_seen]

def receivedWrite (heap : Nat → Uuid) (write : WriteEvents) : WriteEvents where
  eventStreamId := some (write.eventStreamId.getD (CString.ofBytes []))
  expectedVersion := write.expectedVersion
  numEvents := Int32.ofNat (write.counted.mapIdx fun i cur => receivedEvent (heap i) cur).length
  requireMaster := write.requireMaster
  events := write.counted.mapIdx fun i cur => receivedEvent (heap i) cur
  holds := toNat_toInt_ofNat_le _

theorem writeEvents_received {runtime : Runtime} (conforms : runtime.Conforms)
    (heap : Nat → Uuid) {write : WriteEvents} (admitted : Outgoing.Admitted (.writeEvents write)) :
    RoundTrips (esPackWriteEvents runtime write) (esUnpackWriteEvents runtime heap)
      (Outgoing.encoding (.writeEvents write)).length (receivedWrite heap write) := by
  refine roundTrips_of_seen conforms (.writeEvents write) admitted rfl ?_
  rw [writeEvents_seen]
  simp only [writeEventsMessage, strdup, unpackEvents_seen, Nat.zero_add]
  rfl

/-! What the sender is entitled to. -/

/-- The events are located and none is empty, as the packing loop asserts, and
nothing that is sent is NULL. -/
structure WriteEvents.Sendable (write : WriteEvents) : Prop where
  named : write.eventStreamId ≠ none
  counted : write.numEvents ≥ 0
  typed : ∀ cur ∈ write.counted, cur.eventType ≠ none
  admitted : ∀ cur ∈ write.counted, cur.Admitted
  described : ∀ cur ∈ write.counted, cur.metadata.length ≥ 0

structure NewEvent.ReturnedAs (sent got : NewEvent) : Prop where
  eventId : got.eventId = sent.eventId
  eventType : got.eventType = sent.eventType
  dataContentType : got.dataContentType = sent.dataContentType
  metadataContentType : got.metadataContentType = sent.metadataContentType
  data : got.data.readable = some sent.data.bytes
  metadata : got.metadata.readable = some sent.metadata.bytes

structure WriteEvents.ReturnedAs (sent got : WriteEvents) : Prop where
  eventStreamId : got.eventStreamId = sent.eventStreamId
  expectedVersion : got.expectedVersion = sent.expectedVersion
  requireMaster : got.requireMaster = sent.requireMaster
  numEvents : got.numEvents = sent.numEvents
  events : ∀ (i : Nat) (cur : NewEvent), sent.counted[i]? = some cur →
    ∃ received, got.counted[i]? = some received ∧ cur.ReturnedAs received

def WriteEvents.Returns (runtime : Runtime) (heap : Nat → Uuid) (write : WriteEvents) : Prop :=
  ∀ (memory : Memory UInt8) (buffer : Buffer),
    (Outgoing.encoding (.writeEvents write)).length ≤ buffer.length → buffer.length < 2 ^ 31 →
      ∃ after got,
        esPackWriteEvents runtime write memory buffer =
          .ok (after, ((Outgoing.encoding (.writeEvents write)).length : Int)) ∧
        esUnpackWriteEvents runtime heap after
          ⟨(Outgoing.encoding (.writeEvents write)).length, buffer.location⟩ = .ok (some got) ∧
        write.ReturnedAs got

theorem receivedEvent_dangles (eventId : Uuid) {cur : NewEvent} (admitted : cur.Admitted) :
    (receivedEvent eventId cur).data.readable = none := by
  have positive : 0 < cur.data.length.toInt := Int32.lt_iff_toInt_lt.mp admitted.nonempty
  have holds := cur.data.holds
  have nonempty : cur.data.bytes ≠ [] := by
    apply List.ne_nil_of_length_pos
    rw [Region.bytes, List.length_take]
    omega
  simp [receivedEvent, unpackedRegion, nonempty, Region.readable]

theorem WriteEvents.Sendable.not_returnedAs {write : WriteEvents} (sendable : write.Sendable)
    (someEvents : write.numEvents ≠ 0) (heap : Nat → Uuid) :
    ¬write.ReturnedAs (receivedWrite heap write) := by
  intro returned
  have bound := write.holds
  have positive : 0 < write.numEvents.toInt := by
    have lower : 0 ≤ write.numEvents.toInt := Int32.le_iff_toInt_le.mp sendable.counted
    have nonzero : write.numEvents.toInt ≠ 0 := fun zero => someEvents (Int32.toInt.inj zero)
    omega
  have nonempty : write.counted ≠ [] := by
    apply List.ne_nil_of_length_pos
    rw [WriteEvents.counted, List.length_take]
    omega
  obtain ⟨cur, rest, split⟩ := List.exists_cons_of_ne_nil nonempty
  obtain ⟨received, found, same⟩ := returned.events 0 cur (by simp [split])
  have first : (receivedWrite heap write).events[0]? = some (receivedEvent (heap 0) cur) := by
    simp [receivedWrite, split]
  have here : received = receivedEvent (heap 0) cur := by
    rw [WriteEvents.counted, List.getElem?_take] at found
    split at found
    · exact Option.some.inj (found.symm.trans first)
    · simp at found
  have dangles := receivedEvent_dangles (heap 0) (sendable.admitted cur (by simp [split]))
  rw [← here, same.data] at dangles
  cases dangles

theorem WriteEvents.Sendable.returnedAs {write : WriteEvents} (sendable : write.Sendable)
    (noEvents : write.numEvents = 0) (heap : Nat → Uuid) :
    write.ReturnedAs (receivedWrite heap write) := by
  have empty : write.counted = [] := by simp [WriteEvents.counted, noEvents]
  obtain ⟨text, named⟩ := Option.ne_none_iff_exists'.mp sendable.named
  constructor
  · simp [receivedWrite, named]
  · rfl
  · rfl
  · simp [receivedWrite, empty, noEvents]
  · simp [empty]

theorem WriteEvents.returns_iff_returnedAs {runtime : Runtime} (conforms : runtime.Conforms)
    (heap : Nat → Uuid) {write : WriteEvents} (admitted : Outgoing.Admitted (.writeEvents write))
    (small : (Outgoing.encoding (.writeEvents write)).length < 2 ^ 31) :
    write.Returns runtime heap ↔ write.ReturnedAs (receivedWrite heap write) := by
  have trips := writeEvents_received conforms heap admitted
  constructor
  · intro returns
    let buffer : Buffer := ⟨(Outgoing.encoding (.writeEvents write)).length, 0⟩
    have room : (Outgoing.encoding (.writeEvents write)).length ≤ buffer.length := Int.le_refl _
    have upper : buffer.length < 2 ^ 31 := Int.ofNat_lt.mpr small
    obtain ⟨after, got, packed, unpacked, returned⟩ := returns (fun _ => 0) buffer room upper
    obtain ⟨again, packedAgain, unpackedAgain⟩ := trips (fun _ => 0) buffer room upper
    rw [packed] at packedAgain
    obtain rfl : after = again := (Prod.mk.inj (Except.ok.inj packedAgain)).1
    rw [unpacked] at unpackedAgain
    obtain rfl : got = receivedWrite heap write := Option.some.inj (Except.ok.inj unpackedAgain)
    exact returned
  · intro returned memory buffer room upper
    obtain ⟨after, packed, unpacked⟩ := trips memory buffer room upper
    exact ⟨after, receivedWrite heap write, packed, unpacked, returned⟩

/-- What is written comes back only if it holds no event. -/
theorem writeEvents_returns_iff {runtime : Runtime} (conforms : runtime.Conforms)
    (heap : Nat → Uuid) (write : WriteEvents) (sendable : write.Sendable)
    (small : (Outgoing.encoding (.writeEvents write)).length < 2 ^ 31) :
    write.Returns runtime heap ↔ write.numEvents = 0 := by
  rw [WriteEvents.returns_iff_returnedAs conforms heap
    ⟨sendable.counted, sendable.admitted⟩ small]
  constructor
  · intro returned
    by_contra someEvents
    exact sendable.not_returnedAs someEvents heap returned
  · intro noEvents
    exact sendable.returnedAs noEvents heap

def emptyWrite : WriteEvents where
  eventStreamId := some (CString.ofBytes [115])
  expectedVersion := -2
  numEvents := 0
  requireMaster := true
  events := []
  holds := by decide

theorem writeEvents_returns_no_events : emptyWrite.Returns referenceRuntime fun _ _ => 0 :=
  (writeEvents_returns_iff referenceRuntime_conforms (fun _ _ => 0) emptyWrite
    ⟨by decide, by decide, by simp [emptyWrite, WriteEvents.counted],
      by simp [emptyWrite, WriteEvents.counted], by simp [emptyWrite, WriteEvents.counted]⟩
    (by decide)).mpr rfl

def oneEvent : WriteEvents where
  eventStreamId := some (CString.ofBytes [115])
  expectedVersion := -2
  numEvents := 1
  requireMaster := true
  events := [{
    eventId := fun _ => 1
    eventType := some (CString.ofBytes [116])
    dataContentType := 1
    metadataContentType := 0
    data := ⟨3, .live [1, 2, 3], by decide⟩
    metadata := emptyRegion }]
  holds := by decide

/-- Already the id is not what was sent. -/
theorem writeEvents_returns_one_event : ¬oneEvent.Returns referenceRuntime fun _ _ => 0 := by
  intro returns
  have admitted : Outgoing.Admitted (.writeEvents oneEvent) := by
    refine ⟨by decide, fun cur member => ?_⟩
    rw [List.mem_singleton.mp member]
    exact ⟨by decide, by decide⟩
  have returned := (WriteEvents.returns_iff_returnedAs referenceRuntime_conforms _ admitted
    (by decide)).mp returns
  obtain ⟨received, found, same⟩ := returned.events 0 _ rfl
  obtain rfl : receivedEvent (fun _ => 0) _ = received := Option.some.inj found
  exact absurd (congrFun same.eventId 0) (by decide)

end LibEsClient
