import LibEsClient.EsProtoRoundTrip

/-! The three responses whose text is optional. Their `es_unpack_` functions pass it
to `strdup` whether it is there or not. -/

namespace LibEsClient

open FlatMemory Proto2

/-! What a response says, with the text and the positions that are absent. -/

def Messages.DeleteStreamCompleted.said (msg : Messages.DeleteStreamCompleted) :
    LibEsClient.DeleteStreamCompleted where
  result := msg.result
  message := msg.message
  preparePosition := if msg.hasPreparePosition then msg.preparePosition else 0
  commitPosition := if msg.hasCommitPosition then msg.commitPosition else 0

def Messages.WriteEventsCompleted.said (msg : Messages.WriteEventsCompleted) :
    LibEsClient.WriteEventsCompleted where
  result := msg.result
  message := msg.message
  firstEventNumber := msg.firstEventNumber.toUInt32
  lastEventNumber := msg.lastEventNumber.toUInt32
  preparePosition := if msg.hasPreparePosition then msg.preparePosition else 0
  commitPosition := if msg.hasCommitPosition then msg.commitPosition else 0

def Messages.ScavengeDatabaseCompleted.said (msg : Messages.ScavengeDatabaseCompleted) :
    LibEsClient.ScavengeDatabaseCompleted where
  result := msg.result
  error := msg.error
  totalTimeMs := msg.totalTimeMs
  totalSpaceSaved := msg.totalSpaceSaved

/-! An absent position keeps its initial value through the whole of decoding. -/

theorem deleteStreamCompleted_positions {parsed : List Field}
    {msg : Messages.DeleteStreamCompleted}
    (assembled : Messages.deleteStreamCompletedDescriptor.assemble parsed = some msg) :
    msg.said.preparePosition = msg.preparePosition ∧
      msg.said.commitPosition = msg.commitPosition := by
  refine MessageDescriptor.assemble_induction _
    (fun msg => msg.said.preparePosition = msg.preparePosition ∧
      msg.said.commitPosition = msg.commitPosition) ⟨rfl, rfl⟩ ?_ assembled
  intro field member payload current next loaded settled
  simp only [Messages.deleteStreamCompletedDescriptor, List.mem_cons, List.not_mem_nil, or_false]
    at member
  rcases member with rfl | rfl | rfl | rfl <;>
    obtain ⟨found, _, rfl⟩ := Option.map_eq_some_iff.mp loaded
  · exact settled
  · exact settled
  · exact ⟨rfl, settled.2⟩
  · exact ⟨settled.1, rfl⟩

theorem writeEventsCompleted_positions {parsed : List Field} {msg : Messages.WriteEventsCompleted}
    (assembled : Messages.writeEventsCompletedDescriptor.assemble parsed = some msg) :
    msg.said.preparePosition = msg.preparePosition ∧
      msg.said.commitPosition = msg.commitPosition := by
  refine MessageDescriptor.assemble_induction _
    (fun msg => msg.said.preparePosition = msg.preparePosition ∧
      msg.said.commitPosition = msg.commitPosition) ⟨rfl, rfl⟩ ?_ assembled
  intro field member payload current next loaded settled
  simp only [Messages.writeEventsCompletedDescriptor, List.mem_cons, List.not_mem_nil, or_false]
    at member
  rcases member with rfl | rfl | rfl | rfl | rfl | rfl <;>
    obtain ⟨found, _, rfl⟩ := Option.map_eq_some_iff.mp loaded
  · exact settled
  · exact settled
  · exact settled
  · exact settled
  · exact ⟨rfl, settled.2⟩
  · exact ⟨settled.1, rfl⟩

/-- A conversion that needs a text gives what the message says exactly if it is there. -/
theorem unpackFrom_iff {runtime : Runtime} {message struct : Type}
    {descriptor : MessageDescriptor message} {memory : Memory UInt8} {buffer : Buffer}
    {msg : message} (arrived : runtime.unpack descriptor
      (memory.read buffer.location (sizeT buffer.length)) = some msg)
    {convert : message → Except Fault struct} {said : struct} {text : Option CString}
    (missing : text = none → convert msg = .error .nullText)
    (present : ∀ given, text = some given → convert msg = .ok said) :
    unpackFrom runtime descriptor memory buffer convert = .ok (some said) ↔ text ≠ none := by
  simp only [unpackFrom, arrived]
  cases text with
  | none =>
      rw [missing rfl]
      exact iff_of_false (fun returned => by cases returned) (fun there => there rfl)
  | some given =>
      rw [present given rfl]
      exact iff_of_true rfl (Option.some_ne_none given)

theorem not_roundTrips_of_seen {runtime : Runtime} (conforms : runtime.Conforms)
    {item : Outgoing} (admitted : item.Admitted) {message struct : Type}
    {descriptor : MessageDescriptor message} {msg : message}
    (encoded : item.encoding = descriptor.encode msg) (small : item.encoding.length < 2 ^ 31)
    {convert : message → Except Fault struct} {fault : Fault}
    (converted : convert (descriptor.seen msg) = .error fault) (value : struct) :
    ¬RoundTrips (item.esPack runtime)
      (fun memory buffer => unpackFrom runtime descriptor memory buffer convert)
      item.encoding.length value := by
  intro trips
  let buffer : Buffer := ⟨item.encoding.length, 0⟩
  have room : item.encoding.length ≤ buffer.length := Int.le_refl _
  have upper : buffer.length < 2 ^ 31 := Int.ofNat_lt.mpr small
  obtain ⟨after, packed, returned⟩ := trips (fun _ => 0) buffer room upper
  obtain ⟨again, packedAgain, unpacked⟩ :=
    esPack_unpack conforms admitted encoded (fun _ => 0) room upper
  obtain rfl : after = again := by
    rw [packed] at packedAgain
    exact (Prod.mk.inj (Except.ok.inj packedAgain)).1
  simp only [unpackFrom, unpacked, converted] at returned
  cases returned

/-- With a conversion that needs a text, a message comes back exactly if it has one. -/
theorem roundTrips_iff_text {runtime : Runtime} (conforms : runtime.Conforms) (item : Outgoing)
    (admitted : item.Admitted) {message struct : Type} {descriptor : MessageDescriptor message}
    {msg : message} (encoded : item.encoding = descriptor.encode msg)
    {convert : message → Except Fault struct} {value : struct} {text : Option CString}
    (missing : text = none →
      convert (descriptor.seen msg) = .error .nullText ∧ item.encoding.length < 2 ^ 31)
    (present : ∀ given, text = some given → convert (descriptor.seen msg) = .ok value) :
    RoundTrips (item.esPack runtime)
      (fun memory buffer => unpackFrom runtime descriptor memory buffer convert)
      item.encoding.length value ↔ text ≠ none := by
  cases text with
  | none =>
      obtain ⟨faults, small⟩ := missing rfl
      exact iff_of_false (not_roundTrips_of_seen conforms admitted encoded small faults value)
        (fun there => there rfl)
  | some given =>
      exact iff_of_true (roundTrips_of_seen conforms item admitted encoded (present given rfl))
        (Option.some_ne_none given)

section Responses

variable {runtime : Runtime}

theorem esUnpackScavengeDatabaseCompleted_iff (memory : Memory UInt8) (buffer : Buffer)
    (msg : Messages.ScavengeDatabaseCompleted)
    (arrived : runtime.unpack Messages.scavengeDatabaseCompletedDescriptor
      (memory.read buffer.location (sizeT buffer.length)) = some msg) :
    esUnpackScavengeDatabaseCompleted runtime memory buffer = .ok (some msg.said) ↔
      msg.error ≠ none := by
  refine unpackFrom_iff arrived ?_ ?_
  · intro missing
    simp only [missing]
    rfl
  · intro text given
    simp only [Messages.ScavengeDatabaseCompleted.said, given]
    rfl

variable (conforms : runtime.Conforms)

include conforms

theorem esUnpackDeleteStreamCompleted_iff (memory : Memory UInt8) (buffer : Buffer)
    (msg : Messages.DeleteStreamCompleted)
    (arrived : runtime.unpack Messages.deleteStreamCompletedDescriptor
      (memory.read buffer.location (sizeT buffer.length)) = some msg) :
    esUnpackDeleteStreamCompleted runtime memory buffer = .ok (some msg.said) ↔
      msg.message ≠ none := by
  obtain ⟨parsed, assembled⟩ := conforms.assembled _ _ _ arrived
  obtain ⟨prepare, commit⟩ := deleteStreamCompleted_positions assembled
  refine unpackFrom_iff arrived ?_ ?_
  · intro missing
    simp only [missing]
    rfl
  · intro text given
    have said : msg.said = ⟨msg.result, some text, msg.preparePosition, msg.commitPosition⟩ := by
      rw [← prepare, ← commit, ← given]
      rfl
    simp only [said, given]
    rfl

theorem esUnpackWriteEventsCompleted_iff (memory : Memory UInt8) (buffer : Buffer)
    (msg : Messages.WriteEventsCompleted)
    (arrived : runtime.unpack Messages.writeEventsCompletedDescriptor
      (memory.read buffer.location (sizeT buffer.length)) = some msg) :
    esUnpackWriteEventsCompleted runtime memory buffer = .ok (some msg.said) ↔
      msg.message ≠ none := by
  obtain ⟨parsed, assembled⟩ := conforms.assembled _ _ _ arrived
  obtain ⟨prepare, commit⟩ := writeEventsCompleted_positions assembled
  refine unpackFrom_iff arrived ?_ ?_
  · intro missing
    simp only [missing]
    rfl
  · intro text given
    have said : msg.said = ⟨msg.result, some text, msg.firstEventNumber.toUInt32,
        msg.lastEventNumber.toUInt32, msg.preparePosition, msg.commitPosition⟩ := by
      rw [← prepare, ← commit, ← given]
      rfl
    simp only [said, given]
    rfl

/-! Sent and received: a text that is not there is not written, and cannot be read. -/

theorem deleteStreamCompleted_roundTrip_iff (value : DeleteStreamCompleted) :
    RoundTrips (esPackDeleteStreamCompleted runtime value) (esUnpackDeleteStreamCompleted runtime)
      (Outgoing.encoding (.deleteStreamCompleted value)).length value ↔ value.message ≠ none := by
  obtain ⟨result, message, preparePosition, commitPosition⟩ := value
  refine roundTrips_iff_text conforms (.deleteStreamCompleted _) trivial rfl ?_ ?_
  · rintro rfl
    have short : (Outgoing.encoding (.deleteStreamCompleted
        ⟨result, none, preparePosition, commitPosition⟩)).length ≤ 20 * 3 :=
      length_encodeFields_le [⟨1, .varint _⟩, ⟨3, .varint _⟩, ⟨4, .varint _⟩]
        (by simp [Payload.wireType])
    exact ⟨rfl, by omega⟩
  · rintro text rfl
    rfl

theorem writeEventsCompleted_roundTrip_iff (value : WriteEventsCompleted) :
    RoundTrips (esPackWriteEventsCompleted runtime value) (esUnpackWriteEventsCompleted runtime)
      (Outgoing.encoding (.writeEventsCompleted value)).length value ↔ value.message ≠ none := by
  obtain ⟨result, message, firstEventNumber, lastEventNumber, preparePosition, commitPosition⟩ :=
    value
  refine roundTrips_iff_text conforms (.writeEventsCompleted _) trivial rfl ?_ ?_
  · rintro rfl
    have short : (Outgoing.encoding (.writeEventsCompleted ⟨result, none, firstEventNumber,
        lastEventNumber, preparePosition, commitPosition⟩)).length ≤ 20 * 5 :=
      length_encodeFields_le [⟨1, .varint _⟩, ⟨3, .varint _⟩, ⟨4, .varint _⟩, ⟨5, .varint _⟩,
        ⟨6, .varint _⟩] (by simp [Payload.wireType])
    exact ⟨rfl, by omega⟩
  · rintro text rfl
    rfl

theorem scavengeDatabaseCompleted_roundTrip_iff (value : ScavengeDatabaseCompleted) :
    RoundTrips (esPackScavengeDatabaseCompleted runtime value)
      (esUnpackScavengeDatabaseCompleted runtime)
      (Outgoing.encoding (.scavengeDatabaseCompleted value)).length value ↔ value.error ≠ none := by
  obtain ⟨result, error, totalTimeMs, totalSpaceSaved⟩ := value
  refine roundTrips_iff_text conforms (.scavengeDatabaseCompleted _) trivial rfl ?_ ?_
  · rintro rfl
    have short : (Outgoing.encoding (.scavengeDatabaseCompleted
        ⟨result, none, totalTimeMs, totalSpaceSaved⟩)).length ≤ 20 * 3 :=
      length_encodeFields_le [⟨1, .varint _⟩, ⟨3, .varint _⟩, ⟨4, .varint _⟩]
        (by simp [Payload.wireType])
    exact ⟨rfl, by omega⟩
  · rintro text rfl
    rfl

/-- A response is received, and a sent one received again, exactly with a text in it. -/
theorem responses_received_iff :
    (∀ memory buffer msg,
      runtime.unpack Messages.deleteStreamCompletedDescriptor
        (memory.read buffer.location (sizeT buffer.length)) = some msg →
      (esUnpackDeleteStreamCompleted runtime memory buffer = .ok (some msg.said) ↔
        msg.message ≠ none)) ∧
    (∀ memory buffer msg,
      runtime.unpack Messages.writeEventsCompletedDescriptor
        (memory.read buffer.location (sizeT buffer.length)) = some msg →
      (esUnpackWriteEventsCompleted runtime memory buffer = .ok (some msg.said) ↔
        msg.message ≠ none)) ∧
    (∀ memory buffer msg,
      runtime.unpack Messages.scavengeDatabaseCompletedDescriptor
        (memory.read buffer.location (sizeT buffer.length)) = some msg →
      (esUnpackScavengeDatabaseCompleted runtime memory buffer = .ok (some msg.said) ↔
        msg.error ≠ none)) ∧
    (∀ value : DeleteStreamCompleted,
      RoundTrips (esPackDeleteStreamCompleted runtime value)
        (esUnpackDeleteStreamCompleted runtime)
        (Outgoing.encoding (.deleteStreamCompleted value)).length value ↔ value.message ≠ none) ∧
    (∀ value : WriteEventsCompleted,
      RoundTrips (esPackWriteEventsCompleted runtime value) (esUnpackWriteEventsCompleted runtime)
        (Outgoing.encoding (.writeEventsCompleted value)).length value ↔ value.message ≠ none) ∧
    (∀ value : ScavengeDatabaseCompleted,
      RoundTrips (esPackScavengeDatabaseCompleted runtime value)
        (esUnpackScavengeDatabaseCompleted runtime)
        (Outgoing.encoding (.scavengeDatabaseCompleted value)).length value ↔
          value.error ≠ none) :=
  ⟨esUnpackDeleteStreamCompleted_iff conforms, esUnpackWriteEventsCompleted_iff conforms,
    esUnpackScavengeDatabaseCompleted_iff, deleteStreamCompleted_roundTrip_iff conforms,
    writeEventsCompleted_roundTrip_iff conforms, scavengeDatabaseCompleted_roundTrip_iff conforms⟩

end Responses

theorem responses_received_text :
    esUnpackDeleteStreamCompleted referenceRuntime
      (Memory.write (fun _ => 0) 0 [8, 0, 18, 1, 97]) ⟨5, 0⟩ =
        .ok (some ⟨0, some (CString.ofBytes [97]), 0, 0⟩) :=
  ((responses_received_iff referenceRuntime_conforms).1
    (Memory.write (fun _ => 0) 0 [8, 0, 18, 1, 97]) ⟨5, 0⟩
    { result := 0, message := some (CString.ofBytes [97]) } (by decide)).mpr (by decide)

/-- A success as a server reports it, with the result and nothing else. -/
theorem responses_received_no_text :
    referenceRuntime.unpack Messages.deleteStreamCompletedDescriptor
      (Memory.read (Memory.write (fun _ => 0) 0 [8, 0]) 0 2) = some {} ∧
    esUnpackDeleteStreamCompleted referenceRuntime (Memory.write (fun _ => 0) 0 [8, 0]) ⟨2, 0⟩ =
      .error .nullText := by
  decide

end LibEsClient
