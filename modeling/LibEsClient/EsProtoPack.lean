import LibEsClient.EsProtoHelper
import LibEsClient.MsgParserBounds

/-! Packing against the caller's buffer. The size of a message passes through a
64-bit `size_t`, a 32-bit `unsigned` and an `int` before anything is written. -/

namespace LibEsClient

open FlatMemory Proto2

theorem toNat_unsigned {length : Int} (lower : 0 ≤ length) (upper : length < 2 ^ 31) :
    (UInt32.ofInt length).toNat = length.toNat := by
  rw [UInt32.ofInt, UInt32.toNat_ofNat', Int.emod_eq_of_lt lower (by omega)]
  omega

theorem packInto_eq {message : Type} {runtime : Runtime} (conforms : runtime.Conforms)
    (descriptor : MessageDescriptor message) (msg : message) (memory : Memory UInt8)
    {buffer : Buffer} (lower : 0 ≤ buffer.length) (upper : buffer.length < 2 ^ 31) :
    packInto runtime descriptor msg memory buffer =
      if buffer.length < ((descriptor.encode msg).length % 2 ^ 32 : Nat) then (memory, 0)
      else (memory.write buffer.location (descriptor.encode msg),
        (((descriptor.encode msg).length % 2 ^ 32 : Nat) : Int)) := by
  have limit := toNat_unsigned lower upper
  have size : (UInt64.ofNat (descriptor.encode msg).length).toUInt32.toNat =
      (descriptor.encode msg).length % 2 ^ 32 := by simp
  simp only [packInto, conforms.size, conforms.packed, gt_iff_lt, UInt32.lt_iff_toNat_lt, limit,
    size]
  by_cases large : buffer.length < ((descriptor.encode msg).length % 2 ^ 32 : Nat)
  · rw [if_pos large, if_pos (by omega)]
  · rw [if_neg large, if_neg (by omega), wrapInt_of_range (by omega) (by omega)]

/-! The messages that can be sent, their encodings and what the assertions let through. -/

inductive Outgoing
  | deleteStream (value : DeleteStream)
  | deleteStreamCompleted (value : DeleteStreamCompleted)
  | subscribeToStream (value : SubscribeToStream)
  | subscriptionConfirmation (value : SubscriptionConfirmation)
  | subscriptionDropped (value : SubscriptionDropped)
  | scavengeDatabaseCompleted (value : ScavengeDatabaseCompleted)
  | scavengeDatabase (value : ScavengeDatabase)
  | writeEvents (value : WriteEvents)
  | writeEventsCompleted (value : WriteEventsCompleted)
  | readStreamEvents (value : ReadStreamEvents)
  | readEvent (value : ReadEvent)
  | readAllEvents (value : ReadAllEvents)
  | deletePersistentSubscription (value : DeletePersistentSubscription)
  | transactionCommit (value : TransactionCommit)

structure NewEvent.Admitted (cur : NewEvent) : Prop where
  located : cur.data.location ≠ .null
  nonempty : cur.data.length > 0

namespace Outgoing

def esPack (runtime : Runtime) :
    Outgoing → Memory UInt8 → Buffer → Except Fault (Memory UInt8 × Int)
  | deleteStream value => esPackDeleteStream runtime value
  | deleteStreamCompleted value => esPackDeleteStreamCompleted runtime value
  | subscribeToStream value => esPackSubscribeToStream runtime value
  | subscriptionConfirmation value => esPackSubscriptionConfirmation runtime value
  | subscriptionDropped value => esPackSubscriptionDropped runtime value
  | scavengeDatabaseCompleted value => esPackScavengeDatabaseCompleted runtime value
  | scavengeDatabase value => esPackScavengeDatabase runtime value
  | writeEvents value => esPackWriteEvents runtime value
  | writeEventsCompleted value => esPackWriteEventsCompleted runtime value
  | readStreamEvents value => esPackReadStreamEvents runtime value
  | readEvent value => esPackReadEvent runtime value
  | readAllEvents value => esPackReadAllEvents runtime value
  | deletePersistentSubscription value => esPackDeletePersistentSubscription runtime value
  | transactionCommit value => esPackTransactionCommit runtime value

def Admitted : Outgoing → Prop
  | writeEvents value => value.numEvents ≥ 0 ∧ ∀ cur ∈ value.counted, cur.Admitted
  | readStreamEvents value => value.eventStreamId ≠ none
  | readEvent value => value.eventStreamId ≠ none
  | _ => True

def encoding : Outgoing → List UInt8
  | deleteStream value => Messages.deleteStreamDescriptor.encode (deleteStreamMessage value)
  | deleteStreamCompleted value =>
      Messages.deleteStreamCompletedDescriptor.encode (deleteStreamCompletedMessage value)
  | subscribeToStream value =>
      Messages.subscribeToStreamDescriptor.encode (subscribeToStreamMessage value)
  | subscriptionConfirmation value =>
      Messages.subscriptionConfirmationDescriptor.encode (subscriptionConfirmationMessage value)
  | subscriptionDropped value =>
      Messages.subscriptionDroppedDescriptor.encode (subscriptionDroppedMessage value)
  | scavengeDatabaseCompleted value =>
      Messages.scavengeDatabaseCompletedDescriptor.encode (scavengeDatabaseCompletedMessage value)
  | scavengeDatabase value =>
      Messages.scavengeDatabaseDescriptor.encode (scavengeDatabaseMessage value)
  | writeEvents value =>
      Messages.writeEventsDescriptor.encode
        (writeEventsMessage value (value.counted.map newEventMessage))
  | writeEventsCompleted value =>
      Messages.writeEventsCompletedDescriptor.encode (writeEventsCompletedMessage value)
  | readStreamEvents value =>
      Messages.readStreamEventsDescriptor.encode (readStreamEventsMessage value)
  | readEvent value => Messages.readEventDescriptor.encode (readEventMessage value)
  | readAllEvents value => Messages.readAllEventsDescriptor.encode (readAllEventsMessage value)
  | deletePersistentSubscription value =>
      Messages.deletePersistentSubscriptionDescriptor.encode
        (deletePersistentSubscriptionMessage value)
  | transactionCommit value =>
      Messages.transactionCommitDescriptor.encode (transactionCommitMessage value)

end Outgoing

@[simp] theorem assert_ok {condition : Prop} [Decidable condition] (holds : condition) :
    assert condition = .ok () := by
  simp [assert, holds]

theorem mapM_packEvent {events : List NewEvent} (admitted : ∀ cur ∈ events, cur.Admitted) :
    events.mapM packEvent = .ok (events.map newEventMessage) := by
  induction events with
  | nil => rfl
  | cons cur rest ih =>
      obtain ⟨located, nonempty⟩ := admitted cur (by simp)
      have first : packEvent cur = .ok (newEventMessage cur) := by
        rw [packEvent, assert_ok located, assert_ok nonempty]
        rfl
      rw [List.mapM_cons, first,
        ih fun later member => admitted later (List.mem_cons_of_mem _ member)]
      rfl

theorem Outgoing.esPack_eq {runtime : Runtime} (conforms : runtime.Conforms) {item : Outgoing}
    (admitted : item.Admitted) (memory : Memory UInt8) {buffer : Buffer}
    (lower : 0 ≤ buffer.length) (upper : buffer.length < 2 ^ 31) :
    item.esPack runtime memory buffer =
      .ok (if buffer.length < (item.encoding.length % 2 ^ 32 : Nat) then (memory, 0)
        else (memory.write buffer.location item.encoding,
          ((item.encoding.length % 2 ^ 32 : Nat) : Int))) := by
  cases item with
  | writeEvents value =>
      simp only [esPack, esPackWriteEvents, encoding]
      rw [assert_ok admitted.1, mapM_packEvent admitted.2]
      exact congrArg Except.ok (packInto_eq conforms _ _ _ lower upper)
  | readStreamEvents value =>
      simp only [esPack, esPackReadStreamEvents, encoding]
      rw [assert_ok (Option.isSome_iff_ne_none.mpr admitted)]
      exact congrArg Except.ok (packInto_eq conforms _ _ _ lower upper)
  | readEvent value =>
      simp only [esPack, esPackReadEvent, encoding]
      rw [assert_ok (Option.isSome_iff_ne_none.mpr admitted)]
      exact congrArg Except.ok (packInto_eq conforms _ _ _ lower upper)
  | _ => exact congrArg Except.ok (packInto_eq conforms _ _ _ lower upper)

/-- The encoding at the start of the buffer and nothing else if it fits, and 0 and
nothing at all if it does not. -/
def Outgoing.PacksWithin (runtime : Runtime) (item : Outgoing) (buffer : Buffer) : Prop :=
  ∀ memory, ∃ after count, item.esPack runtime memory buffer = .ok (after, count) ∧
    (item.encoding.length ≤ buffer.length →
      count = item.encoding.length ∧
        after.read buffer.location item.encoding.length = item.encoding ∧
        ∀ target, target < buffer.location ∨ buffer.location + item.encoding.length ≤ target →
          after target = memory target) ∧
    (buffer.length < item.encoding.length → count = 0 ∧ after = memory)

theorem Outgoing.not_packsWithin {runtime : Runtime} (conforms : runtime.Conforms)
    {item : Outgoing} (admitted : item.Admitted) {buffer : Buffer} (lower : 0 ≤ buffer.length)
    (upper : buffer.length < 2 ^ 31) (large : 2 ^ 32 ≤ item.encoding.length)
    (seemsToFit : (item.encoding.length % 2 ^ 32 : Nat) ≤ buffer.length) :
    ¬item.PacksWithin runtime buffer := by
  intro within
  obtain ⟨first, rest, split⟩ : ∃ first rest, item.encoding = first :: rest := by
    apply List.exists_cons_of_ne_nil
    intro empty
    simp [empty] at large
  -- over a memory that holds something else at the start of the buffer
  obtain ⟨after, count, packed, _, unchanged⟩ := within fun _ => first + 1
  rw [Outgoing.esPack_eq conforms admitted _ lower upper, if_neg (by omega)] at packed
  have same := (unchanged (by omega)).2
  obtain ⟨written, _⟩ := Prod.mk.inj (Except.ok.inj packed)
  rw [same] at written
  have cell := congrFun written buffer.location
  rw [split, Memory.write_head] at cell
  simp at cell

/-- Packing stays within the buffer unless the size, cut to 32 bits, seems to fit. -/
theorem esPack_within_iff {runtime : Runtime} (conforms : runtime.Conforms) (item : Outgoing)
    (admitted : item.Admitted) (buffer : Buffer) (lower : 0 ≤ buffer.length)
    (upper : buffer.length < 2 ^ 31) :
    item.PacksWithin runtime buffer ↔
      item.encoding.length < 2 ^ 32 ∨ buffer.length < (item.encoding.length % 2 ^ 32 : Nat) := by
  constructor
  · intro within
    by_contra escapes
    exact Outgoing.not_packsWithin conforms admitted lower upper (by omega) (by omega) within
  · intro fits memory
    have packed := Outgoing.esPack_eq conforms admitted memory lower upper
    by_cases room : item.encoding.length ≤ buffer.length
    · have whole : item.encoding.length % 2 ^ 32 = item.encoding.length := by omega
      rw [whole, if_neg (by omega)] at packed
      refine ⟨_, _, packed, ?_, by omega⟩
      intro _
      exact ⟨rfl, Memory.read_write_same _ _ _, fun target => Memory.write_outside _ _ target _⟩
    · rw [if_pos (by omega)] at packed
      exact ⟨_, _, packed, by omega, fun _ => ⟨rfl, rfl⟩⟩

theorem esPack_within_transaction_commit :
    Outgoing.PacksWithin referenceRuntime (.transactionCommit ⟨7, true⟩) ⟨4, 0⟩ :=
  (esPack_within_iff referenceRuntime_conforms (.transactionCommit ⟨7, true⟩) trivial ⟨4, 0⟩
    (by decide) (by decide)).mpr (Or.inl (by decide))

theorem length_encode_deleteStream (text : CString) :
    (Outgoing.encoding (.deleteStream ⟨some text, 0, false, false⟩)).length =
      (encodeVarint text.bytes.length).length + text.bytes.length + 7 := by
  have zero : (encodeVarint (Int64.toUInt64 0).toNat).length = 1 :=
    length_encodeVarint_small (by decide)
  have encoded : (Outgoing.encoding (.deleteStream ⟨some text, 0, false, false⟩)).length =
      1 + ((encodeVarint text.bytes.length).length + (text.bytes.length + 6)) := by
    simp [Outgoing.encoding, deleteStreamMessage, MessageDescriptor.encode,
      MessageDescriptor.toFields, Messages.deleteStreamDescriptor, FieldDescriptor.required,
      FieldDescriptor.optional, FieldDescriptor.ofValues, encodeField, Payload.encode,
      Payload.wireType, requiredTextCodec, int32Codec, boolCodec, length_encodeVarint_small, zero]
  omega

/-- A stream id of 2^32 - 1 bytes makes a message of 2^32 + 11, for which 11 bytes seem enough. -/
theorem esPack_within_long_id :
    ¬Outgoing.PacksWithin referenceRuntime
      (.deleteStream ⟨some (.replicate 4294967295 97 (by decide)), 0, false, false⟩) ⟨16, 0⟩ := by
  have size := length_encode_deleteStream (.replicate 4294967295 97 (by decide))
  have digits : (encodeVarint 4294967295).length = 5 := by decide
  rw [CString.length_replicate, digits] at size
  have admitted : Outgoing.Admitted
      (.deleteStream ⟨some (.replicate 4294967295 97 (by decide)), 0, false, false⟩) := trivial
  exact Outgoing.not_packsWithin referenceRuntime_conforms admitted (by decide) (by decide)
    (by omega) (by dsimp only; omega)

end LibEsClient
