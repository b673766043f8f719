import LibEsClient.EsProtoResponses

/-! The `es_unpack_` functions as one, and forwarding: what one of them has accepted
can be packed again, and comes back as it was. -/

namespace LibEsClient

open FlatMemory Proto2

inductive MessageKind
  | deleteStream
  | deleteStreamCompleted
  | subscribeToStream
  | subscriptionConfirmation
  | subscriptionDropped
  | scavengeDatabaseCompleted
  | scavengeDatabase
  | writeEvents
  | writeEventsCompleted
  | readStreamEvents
  | readEvent
  | readAllEvents
  | deletePersistentSubscription
  | transactionCommit
  deriving DecidableEq

def messageKind : Outgoing → MessageKind
  | .deleteStream _ => .deleteStream
  | .deleteStreamCompleted _ => .deleteStreamCompleted
  | .subscribeToStream _ => .subscribeToStream
  | .subscriptionConfirmation _ => .subscriptionConfirmation
  | .subscriptionDropped _ => .subscriptionDropped
  | .scavengeDatabaseCompleted _ => .scavengeDatabaseCompleted
  | .scavengeDatabase _ => .scavengeDatabase
  | .writeEvents _ => .writeEvents
  | .writeEventsCompleted _ => .writeEventsCompleted
  | .readStreamEvents _ => .readStreamEvents
  | .readEvent _ => .readEvent
  | .readAllEvents _ => .readAllEvents
  | .deletePersistentSubscription _ => .deletePersistentSubscription
  | .transactionCommit _ => .transactionCommit

/-- `es_unpack_` of each kind. `leftover` is what `malloc` left in the ids of events. -/
def unpackValue (runtime : Runtime) (leftover : Nat → Uuid) (kind : MessageKind)
    (memory : Memory UInt8) (buffer : Buffer) : Except Fault (Option Outgoing) :=
  match kind with
  | .deleteStream => (esUnpackDeleteStream runtime memory buffer).map (Option.map .deleteStream)
  | .deleteStreamCompleted =>
      (esUnpackDeleteStreamCompleted runtime memory buffer).map
        (Option.map .deleteStreamCompleted)
  | .subscribeToStream =>
      (esUnpackSubscribeToStream runtime memory buffer).map (Option.map .subscribeToStream)
  | .subscriptionConfirmation =>
      (esUnpackSubscriptionConfirmation runtime memory buffer).map
        (Option.map .subscriptionConfirmation)
  | .subscriptionDropped =>
      (esUnpackSubscriptionDropped runtime memory buffer).map (Option.map .subscriptionDropped)
  | .scavengeDatabaseCompleted =>
      (esUnpackScavengeDatabaseCompleted runtime memory buffer).map
        (Option.map .scavengeDatabaseCompleted)
  | .scavengeDatabase =>
      (esUnpackScavengeDatabase runtime memory buffer).map (Option.map .scavengeDatabase)
  | .writeEvents =>
      (esUnpackWriteEvents runtime leftover memory buffer).map (Option.map .writeEvents)
  | .writeEventsCompleted =>
      (esUnpackWriteEventsCompleted runtime memory buffer).map
        (Option.map .writeEventsCompleted)
  | .readStreamEvents =>
      (esUnpackReadStreamEvents runtime memory buffer).map (Option.map .readStreamEvents)
  | .readEvent => (esUnpackReadEvent runtime memory buffer).map (Option.map .readEvent)
  | .readAllEvents =>
      (esUnpackReadAllEvents runtime memory buffer).map (Option.map .readAllEvents)
  | .deletePersistentSubscription =>
      (esUnpackDeletePersistentSubscription runtime memory buffer).map
        (Option.map .deletePersistentSubscription)
  | .transactionCommit =>
      (esUnpackTransactionCommit runtime memory buffer).map (Option.map .transactionCommit)

/-! What comes back. -/

/-- Every text is there; the payloads of events are not in the struct that comes back. -/
def Outgoing.Whole : Outgoing → Prop
  | deleteStream value => value.eventStreamId ≠ none
  | deleteStreamCompleted value => value.message ≠ none
  | subscribeToStream value => value.eventStreamId ≠ none
  | subscriptionConfirmation _ => True
  | subscriptionDropped _ => True
  | scavengeDatabaseCompleted value => value.error ≠ none
  | scavengeDatabase _ => True
  | writeEvents _ => False
  | writeEventsCompleted value => value.message ≠ none
  | readStreamEvents value => value.eventStreamId ≠ none
  | readEvent value => value.eventStreamId ≠ none
  | readAllEvents _ => True
  | deletePersistentSubscription value =>
      value.subscriptionGroupName ≠ none ∧ value.eventStreamId ≠ none
  | transactionCommit _ => True

theorem RoundTrips.wrapped {struct : Type}
    {pack : Memory UInt8 → Buffer → Except Fault (Memory UInt8 × Int)}
    {unpack : Memory UInt8 → Buffer → Except Fault (Option struct)} {size : Nat} {value : struct}
    (trips : RoundTrips pack unpack size value) (wrap : struct → Outgoing) :
    RoundTrips pack (fun memory buffer => (unpack memory buffer).map (Option.map wrap)) size
      (wrap value) := by
  intro memory buffer room upper
  obtain ⟨after, packed, unpacked⟩ := trips memory buffer room upper
  exact ⟨after, packed, by simp only [unpacked]; rfl⟩

theorem Outgoing.Whole.roundTrips {runtime : Runtime} (conforms : runtime.Conforms)
    (leftover : Nat → Uuid) {item : Outgoing} (whole : item.Whole) :
    RoundTrips (item.esPack runtime) (unpackValue runtime leftover (messageKind item))
      item.encoding.length item := by
  cases item with
  | deleteStream value => exact (deleteStream_roundTrip conforms value whole).wrapped _
  | deleteStreamCompleted value =>
      exact ((deleteStreamCompleted_roundTrip_iff conforms value).mpr whole).wrapped _
  | subscribeToStream value => exact (subscribeToStream_roundTrip conforms value whole).wrapped _
  | subscriptionConfirmation value =>
      exact (subscriptionConfirmation_roundTrip conforms value).wrapped _
  | subscriptionDropped value => exact (subscriptionDropped_roundTrip conforms value).wrapped _
  | scavengeDatabaseCompleted value =>
      exact ((scavengeDatabaseCompleted_roundTrip_iff conforms value).mpr whole).wrapped _
  | scavengeDatabase value => exact (scavengeDatabase_roundTrip conforms value).wrapped _
  | writeEvents value => exact whole.elim
  | writeEventsCompleted value =>
      exact ((writeEventsCompleted_roundTrip_iff conforms value).mpr whole).wrapped _
  | readStreamEvents value => exact (readStreamEvents_roundTrip conforms value whole).wrapped _
  | readEvent value => exact (readEvent_roundTrip conforms value whole).wrapped _
  | readAllEvents value => exact (readAllEvents_roundTrip conforms value).wrapped _
  | deletePersistentSubscription value =>
      exact (deletePersistentSubscription_roundTrip conforms value whole.1 whole.2).wrapped _
  | transactionCommit value => exact (transactionCommit_roundTrip conforms value).wrapped _

/-! What is accepted. -/

section Accepted

variable {runtime : Runtime} {memory : Memory UInt8} {buffer : Buffer} {item : Outgoing}

theorem unwrapped {struct : Type} {outcome : Except Fault (Option struct)}
    {wrap : struct → Outgoing}
    (mapped : outcome.map (Option.map wrap) = .ok (some item)) :
    ∃ value, outcome = .ok (some value) ∧ item = wrap value := by
  cases outcome with
  | error fault => cases mapped
  | ok found =>
      obtain ⟨value, rfl, same⟩ := Option.map_eq_some_iff.mp (Except.ok.inj mapped)
      exact ⟨value, rfl, same.symm⟩

theorem kind_of_accepted {leftover : Nat → Uuid} {kind : MessageKind}
    (accepted : unpackValue runtime leftover kind memory buffer = .ok (some item)) :
    messageKind item = kind := by
  cases kind
  all_goals
    obtain ⟨value, _, rfl⟩ := unwrapped accepted
    rfl

section Converted

variable {message struct : Type} {descriptor : MessageDescriptor message}
  {wrap : struct → Outgoing}

theorem converted_of_accepted {convert : message → Except Fault struct}
    (accepted : (unpackFrom runtime descriptor memory buffer convert).map (Option.map wrap) =
      .ok (some item)) :
    ∃ msg value, convert msg = .ok value ∧ item = wrap value := by
  obtain ⟨value, unpacked, rfl⟩ := unwrapped accepted
  unfold unpackFrom at unpacked
  cases arrived : runtime.unpack descriptor
      (memory.read buffer.location (sizeT buffer.length)) with
  | none =>
      simp only [arrived] at unpacked
      cases unpacked
  | some msg =>
      simp only [arrived] at unpacked
      cases converted : convert msg with
      | error fault =>
          rw [converted] at unpacked
          cases unpacked
      | ok found =>
          rw [converted] at unpacked
          obtain rfl := Option.some.inj (Except.ok.inj unpacked)
          exact ⟨msg, found, converted, rfl⟩

theorem text_of_accepted {text : message → Option CString} {build : message → CString → struct}
    (accepted : (unpackFrom runtime descriptor memory buffer fun msg => do
      return build msg (← strdup (text msg))).map (Option.map wrap) = .ok (some item)) :
    ∃ msg found, item = wrap (build msg found) := by
  obtain ⟨msg, value, converted, rfl⟩ := converted_of_accepted accepted
  cases there : text msg with
  | none =>
      rw [there] at converted
      cases converted
  | some found =>
      rw [there] at converted
      exact ⟨msg, found, congrArg wrap (Except.ok.inj converted).symm⟩

theorem plain_of_accepted {build : message → struct}
    (accepted : (unpackFrom runtime descriptor memory buffer fun msg => .ok (build msg)).map
      (Option.map wrap) = .ok (some item)) :
    ∃ msg, item = wrap (build msg) := by
  obtain ⟨msg, value, converted, rfl⟩ := converted_of_accepted accepted
  exact ⟨msg, congrArg wrap (Except.ok.inj converted).symm⟩

end Converted

theorem whole_of_accepted {leftover : Nat → Uuid} {kind : MessageKind}
    (accepted : unpackValue runtime leftover kind memory buffer = .ok (some item))
    (other : kind ≠ .writeEvents) : item.Whole := by
  cases kind with
  | writeEvents => exact absurd rfl other
  | deletePersistentSubscription =>
      obtain ⟨msg, value, converted, rfl⟩ := converted_of_accepted accepted
      cases named : msg.eventStreamId with
      | none =>
          rw [named] at converted
          cases converted
      | some stream =>
          cases grouped : msg.subscriptionGroupName with
          | none =>
              rw [named, grouped] at converted
              cases converted
          | some group =>
              rw [named, grouped] at converted
              obtain rfl := Except.ok.inj converted
              exact ⟨Option.some_ne_none group, Option.some_ne_none stream⟩
  | deleteStream | deleteStreamCompleted | subscribeToStream | scavengeDatabaseCompleted
  | writeEventsCompleted | readStreamEvents | readEvent =>
      obtain ⟨msg, found, rfl⟩ := text_of_accepted accepted
      exact Option.some_ne_none found
  | subscriptionConfirmation | subscriptionDropped | scavengeDatabase | readAllEvents
  | transactionCommit =>
      obtain ⟨msg, rfl⟩ := plain_of_accepted accepted
      trivial

/-- Bytes of any form that an `es_unpack_` function accepts make a struct that is packed
and unpacked again without a change. -/
theorem accepted_forwards (conforms : runtime.Conforms) (leftover : Nat → Uuid)
    {kind : MessageKind} (other : kind ≠ .writeEvents)
    (accepted : unpackValue runtime leftover kind memory buffer = .ok (some item)) :
    RoundTrips (item.esPack runtime) (unpackValue runtime leftover kind) item.encoding.length
      item := by
  obtain rfl := kind_of_accepted accepted
  exact (whole_of_accepted accepted other).roundTrips conforms leftover

end Accepted

theorem accepted_forwards_disordered :
    RoundTrips
      (Outgoing.esPack referenceRuntime (.deleteStreamCompleted ⟨1, some ⟨[97], by decide⟩, 0, 0⟩))
      (unpackValue referenceRuntime (fun _ _ => 0) .deleteStreamCompleted)
      (Outgoing.encoding (.deleteStreamCompleted ⟨1, some ⟨[97], by decide⟩, 0, 0⟩)).length
      (.deleteStreamCompleted ⟨1, some ⟨[97], by decide⟩, 0, 0⟩) := by
  have arrived : esUnpackDeleteStreamCompleted referenceRuntime
      (Memory.write (fun _ => 0) 0 [18, 1, 97, 8, 5, 8, 1]) ⟨7, 0⟩ =
        .ok (some ⟨1, some ⟨[97], by decide⟩, 0, 0⟩) := by decide
  have accepted : unpackValue referenceRuntime (fun _ _ => 0) .deleteStreamCompleted
      (Memory.write (fun _ => 0) 0 [18, 1, 97, 8, 5, 8, 1]) ⟨7, 0⟩ =
        .ok (some (.deleteStreamCompleted ⟨1, some ⟨[97], by decide⟩, 0, 0⟩)) := by
    simp only [unpackValue, arrived]
    rfl
  exact accepted_forwards referenceRuntime_conforms (fun _ _ => 0) (by decide) accepted

end LibEsClient
