import LibEsClient.EsProtoPack

/-! Packing and unpacking as one: what a conforming runtime brings back of a packed
struct, and the ten pairs of functions that bring back all of it. -/

namespace LibEsClient

open FlatMemory Proto2

/-- Packed into any buffer with room for it, the value comes back from the packed bytes. -/
def RoundTrips {struct : Type} (pack : Memory UInt8 → Buffer → Except Fault (Memory UInt8 × Int))
    (unpack : Memory UInt8 → Buffer → Except Fault (Option struct)) (size : Nat)
    (value : struct) : Prop :=
  ∀ (memory : Memory UInt8) (buffer : Buffer), size ≤ buffer.length → buffer.length < 2 ^ 31 →
    ∃ after, pack memory buffer = .ok (after, size) ∧
      unpack after ⟨size, buffer.location⟩ = .ok (some value)

theorem esPack_unpack {runtime : Runtime} (conforms : runtime.Conforms) {item : Outgoing}
    (admitted : item.Admitted) {message : Type} {descriptor : MessageDescriptor message}
    {msg : message} (encoded : item.encoding = descriptor.encode msg) (memory : Memory UInt8)
    {buffer : Buffer} (room : item.encoding.length ≤ buffer.length)
    (upper : buffer.length < 2 ^ 31) :
    ∃ after, item.esPack runtime memory buffer = .ok (after, (item.encoding.length : Int)) ∧
      runtime.unpack descriptor
        (after.read buffer.location (sizeT (item.encoding.length : Int))) =
          some (descriptor.seen msg) := by
  have packed := Outgoing.esPack_eq conforms admitted memory (by omega) upper
  have whole : item.encoding.length % 2 ^ 32 = item.encoding.length := by omega
  rw [whole, if_neg (by omega)] at packed
  refine ⟨_, packed, ?_⟩
  rw [sizeT_of_range (by omega) (by omega), Int.toNat_natCast, Memory.read_write_same, encoded]
  apply conforms.unpack_encode
  rw [← encoded]
  omega

theorem roundTrips_of_seen {runtime : Runtime} (conforms : runtime.Conforms) (item : Outgoing)
    (admitted : item.Admitted) {message struct : Type} {descriptor : MessageDescriptor message}
    {msg : message} (encoded : item.encoding = descriptor.encode msg)
    {convert : message → Except Fault struct} {value : struct}
    (converted : convert (descriptor.seen msg) = .ok value) :
    RoundTrips (item.esPack runtime)
      (fun memory buffer => unpackFrom runtime descriptor memory buffer convert)
      item.encoding.length value := by
  intro memory buffer room upper
  obtain ⟨after, packed, unpacked⟩ := esPack_unpack conforms admitted encoded memory room upper
  refine ⟨after, packed, ?_⟩
  simp only [unpackFrom, unpacked, converted]
  rfl

section Pairs

variable {runtime : Runtime} (conforms : runtime.Conforms)

include conforms

theorem deleteStream_roundTrip (value : DeleteStream) (named : value.eventStreamId ≠ none) :
    RoundTrips (esPackDeleteStream runtime value) (esUnpackDeleteStream runtime)
      (Outgoing.encoding (.deleteStream value)).length value := by
  obtain ⟨eventStreamId, expectedVersion, requireMaster, hardDelete⟩ := value
  obtain ⟨text, rfl⟩ := Option.ne_none_iff_exists'.mp named
  exact roundTrips_of_seen conforms (.deleteStream _) trivial rfl rfl

theorem subscribeToStream_roundTrip (value : SubscribeToStream)
    (named : value.eventStreamId ≠ none) :
    RoundTrips (esPackSubscribeToStream runtime value) (esUnpackSubscribeToStream runtime)
      (Outgoing.encoding (.subscribeToStream value)).length value := by
  obtain ⟨eventStreamId, resolveLinkTos⟩ := value
  obtain ⟨text, rfl⟩ := Option.ne_none_iff_exists'.mp named
  exact roundTrips_of_seen conforms (.subscribeToStream _) trivial rfl rfl

theorem subscriptionConfirmation_roundTrip (value : SubscriptionConfirmation) :
    RoundTrips (esPackSubscriptionConfirmation runtime value)
      (esUnpackSubscriptionConfirmation runtime)
      (Outgoing.encoding (.subscriptionConfirmation value)).length value :=
  roundTrips_of_seen conforms (.subscriptionConfirmation _) trivial rfl rfl

theorem subscriptionDropped_roundTrip (value : SubscriptionDropped) :
    RoundTrips (esPackSubscriptionDropped runtime value) (esUnpackSubscriptionDropped runtime)
      (Outgoing.encoding (.subscriptionDropped value)).length value :=
  roundTrips_of_seen conforms (.subscriptionDropped _) trivial rfl rfl

theorem readStreamEvents_roundTrip (value : ReadStreamEvents)
    (named : value.eventStreamId ≠ none) :
    RoundTrips (esPackReadStreamEvents runtime value) (esUnpackReadStreamEvents runtime)
      (Outgoing.encoding (.readStreamEvents value)).length value := by
  obtain ⟨eventStreamId, fromEventNumber, maxCount, resolveLinkTos, requireMaster⟩ := value
  obtain ⟨text, rfl⟩ := Option.ne_none_iff_exists'.mp named
  exact roundTrips_of_seen conforms (.readStreamEvents _) named rfl rfl

theorem readEvent_roundTrip (value : ReadEvent) (named : value.eventStreamId ≠ none) :
    RoundTrips (esPackReadEvent runtime value) (esUnpackReadEvent runtime)
      (Outgoing.encoding (.readEvent value)).length value := by
  obtain ⟨eventStreamId, eventNumber, resolveLinkTos, requireMaster⟩ := value
  obtain ⟨text, rfl⟩ := Option.ne_none_iff_exists'.mp named
  exact roundTrips_of_seen conforms (.readEvent _) named rfl rfl

theorem readAllEvents_roundTrip (value : ReadAllEvents) :
    RoundTrips (esPackReadAllEvents runtime value) (esUnpackReadAllEvents runtime)
      (Outgoing.encoding (.readAllEvents value)).length value :=
  roundTrips_of_seen conforms (.readAllEvents _) trivial rfl rfl

theorem deletePersistentSubscription_roundTrip (value : DeletePersistentSubscription)
    (grouped : value.subscriptionGroupName ≠ none) (named : value.eventStreamId ≠ none) :
    RoundTrips (esPackDeletePersistentSubscription runtime value)
      (esUnpackDeletePersistentSubscription runtime)
      (Outgoing.encoding (.deletePersistentSubscription value)).length value := by
  obtain ⟨subscriptionGroupName, eventStreamId⟩ := value
  obtain ⟨group, rfl⟩ := Option.ne_none_iff_exists'.mp grouped
  obtain ⟨text, rfl⟩ := Option.ne_none_iff_exists'.mp named
  exact roundTrips_of_seen conforms (.deletePersistentSubscription _) trivial rfl rfl

theorem transactionCommit_roundTrip (value : TransactionCommit) :
    RoundTrips (esPackTransactionCommit runtime value) (esUnpackTransactionCommit runtime)
      (Outgoing.encoding (.transactionCommit value)).length value :=
  roundTrips_of_seen conforms (.transactionCommit _) trivial rfl rfl

theorem scavengeDatabase_roundTrip (value : ScavengeDatabase) :
    RoundTrips (esPackScavengeDatabase runtime value) (esUnpackScavengeDatabase runtime)
      (Outgoing.encoding (.scavengeDatabase value)).length value :=
  roundTrips_of_seen conforms (.scavengeDatabase _) trivial rfl rfl

/-- Every message without optional text comes back as it was sent. -/
theorem esPack_roundTrip :
    (∀ value : DeleteStream, value.eventStreamId ≠ none →
      RoundTrips (esPackDeleteStream runtime value) (esUnpackDeleteStream runtime)
        (Outgoing.encoding (.deleteStream value)).length value) ∧
    (∀ value : SubscribeToStream, value.eventStreamId ≠ none →
      RoundTrips (esPackSubscribeToStream runtime value) (esUnpackSubscribeToStream runtime)
        (Outgoing.encoding (.subscribeToStream value)).length value) ∧
    (∀ value : SubscriptionConfirmation,
      RoundTrips (esPackSubscriptionConfirmation runtime value)
        (esUnpackSubscriptionConfirmation runtime)
        (Outgoing.encoding (.subscriptionConfirmation value)).length value) ∧
    (∀ value : SubscriptionDropped,
      RoundTrips (esPackSubscriptionDropped runtime value) (esUnpackSubscriptionDropped runtime)
        (Outgoing.encoding (.subscriptionDropped value)).length value) ∧
    (∀ value : ReadStreamEvents, value.eventStreamId ≠ none →
      RoundTrips (esPackReadStreamEvents runtime value) (esUnpackReadStreamEvents runtime)
        (Outgoing.encoding (.readStreamEvents value)).length value) ∧
    (∀ value : ReadEvent, value.eventStreamId ≠ none →
      RoundTrips (esPackReadEvent runtime value) (esUnpackReadEvent runtime)
        (Outgoing.encoding (.readEvent value)).length value) ∧
    (∀ value : ReadAllEvents,
      RoundTrips (esPackReadAllEvents runtime value) (esUnpackReadAllEvents runtime)
        (Outgoing.encoding (.readAllEvents value)).length value) ∧
    (∀ value : DeletePersistentSubscription,
      value.subscriptionGroupName ≠ none → value.eventStreamId ≠ none →
      RoundTrips (esPackDeletePersistentSubscription runtime value)
        (esUnpackDeletePersistentSubscription runtime)
        (Outgoing.encoding (.deletePersistentSubscription value)).length value) ∧
    (∀ value : TransactionCommit,
      RoundTrips (esPackTransactionCommit runtime value) (esUnpackTransactionCommit runtime)
        (Outgoing.encoding (.transactionCommit value)).length value) ∧
    (∀ value : ScavengeDatabase,
      RoundTrips (esPackScavengeDatabase runtime value) (esUnpackScavengeDatabase runtime)
        (Outgoing.encoding (.scavengeDatabase value)).length value) :=
  ⟨deleteStream_roundTrip conforms, subscribeToStream_roundTrip conforms,
    subscriptionConfirmation_roundTrip conforms, subscriptionDropped_roundTrip conforms,
    readStreamEvents_roundTrip conforms, readEvent_roundTrip conforms,
    readAllEvents_roundTrip conforms, deletePersistentSubscription_roundTrip conforms,
    transactionCommit_roundTrip conforms, scavengeDatabase_roundTrip conforms⟩

end Pairs

theorem esPack_roundTrip_extremes :
    RoundTrips
      (esPackDeleteStream referenceRuntime ⟨some (CString.ofBytes [97]), -1, true, true⟩)
      (esUnpackDeleteStream referenceRuntime) 18
      ⟨some (CString.ofBytes [97]), -1, true, true⟩ ∧
    RoundTrips
      (esPackReadEvent referenceRuntime ⟨some (CString.ofBytes []), 4294967295, true, false⟩)
      (esUnpackReadEvent referenceRuntime) 17
      ⟨some (CString.ofBytes []), 4294967295, true, false⟩ ∧
    RoundTrips
      (esPackReadAllEvents referenceRuntime ⟨2 ^ 63, 2 ^ 64 - 1, 2 ^ 31, false, true⟩)
      (esUnpackReadAllEvents referenceRuntime) 37 ⟨2 ^ 63, 2 ^ 64 - 1, 2 ^ 31, false, true⟩ := by
  have deleted := (esPack_roundTrip referenceRuntime_conforms).1
    ⟨some (CString.ofBytes [97]), -1, true, true⟩ (by decide)
  have read := (esPack_roundTrip referenceRuntime_conforms).2.2.2.2.2.1
    ⟨some (CString.ofBytes []), 4294967295, true, false⟩ (by decide)
  have readAll := (esPack_roundTrip referenceRuntime_conforms).2.2.2.2.2.2.1
    ⟨2 ^ 63, 2 ^ 64 - 1, 2 ^ 31, false, true⟩
  have deletedSize : (Outgoing.encoding
    (.deleteStream ⟨some (CString.ofBytes [97]), -1, true, true⟩)).length = 18 := by decide +kernel
  have readSize : (Outgoing.encoding
    (.readEvent ⟨some (CString.ofBytes []), 4294967295, true, false⟩)).length = 17 := by
      decide +kernel
  have readAllSize : (Outgoing.encoding
    (.readAllEvents ⟨2 ^ 63, 2 ^ 64 - 1, 2 ^ 31, false, true⟩)).length = 37 := by decide +kernel
  rw [deletedSize] at deleted
  rw [readSize] at read
  rw [readAllSize] at readAll
  exact ⟨deleted, read, readAll⟩

end LibEsClient
