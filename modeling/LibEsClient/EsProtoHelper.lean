import LibEsClient.EsProto
import LibEsClient.MsgParserCore
import LibEsClient.WtfUuid

/-! The hand-written structs and the `es_pack_` and `es_unpack_` functions of
`es_proto_helper.c`, over a runtime for the generated messages. Pointers to
strings are held by value, `none` is NULL. Conversions between the structs'
unsigned fields and the messages' signed ones keep the bits. -/

namespace LibEsClient

open FlatMemory Proto2

inductive Fault
  | assertion
  | nullText
  deriving DecidableEq, Repr

def strdup : Option CString → Except Fault CString
  | none => .error .nullText
  | some text => .ok text

def assert (condition : Prop) [Decidable condition] : Except Fault Unit :=
  if condition then .ok () else .error .assertion

/-! Both halves of every function pair. -/

/-- The end of each `es_pack_` function. The size is a `size_t` that is kept in an
`unsigned`; to be compared with it, `buffer.length` is converted to `unsigned`. -/
def packInto {message : Type} (runtime : Runtime) (descriptor : MessageDescriptor message)
    (msg : message) (memory : Memory UInt8) (buffer : Buffer) : Memory UInt8 × Int :=
  let len : UInt32 := (runtime.getPackedSize descriptor msg).toUInt32
  if len > UInt32.ofInt buffer.length then (memory, 0)
  else (memory.write buffer.location (runtime.pack descriptor msg), wrapInt len.toNat)

def unpackFrom {message struct : Type} (runtime : Runtime) (descriptor : MessageDescriptor message)
    (memory : Memory UInt8) (buffer : Buffer) (convert : message → Except Fault struct) :
    Except Fault (Option struct) :=
  match runtime.unpack descriptor (memory.read buffer.location (sizeT buffer.length)) with
  | none => .ok none
  | some msg => (convert msg).map some

/-! The enumerations, open as in C: any value of the underlying type. -/

abbrev OperationResult := UInt32
abbrev SubscriptionDropReason := UInt32
abbrev ScavengeResult := UInt32

section Functions

variable (runtime : Runtime)

structure DeleteStream where
  eventStreamId : Option CString
  expectedVersion : Int32
  requireMaster : Bool
  hardDelete : Bool
  deriving DecidableEq

def deleteStreamMessage (delete : DeleteStream) : Messages.DeleteStream where
  eventStreamId := delete.eventStreamId
  expectedVersion := delete.expectedVersion
  requireMaster := delete.requireMaster
  hasHardDelete := true
  hardDelete := delete.hardDelete

def esPackDeleteStream (delete : DeleteStream) (memory : Memory UInt8) (buffer : Buffer) :
    Except Fault (Memory UInt8 × Int) :=
  .ok (packInto runtime Messages.deleteStreamDescriptor (deleteStreamMessage delete) memory buffer)

def esUnpackDeleteStream (memory : Memory UInt8) (buffer : Buffer) :
    Except Fault (Option DeleteStream) :=
  unpackFrom runtime Messages.deleteStreamDescriptor memory buffer fun msg => do
    return {
      eventStreamId := some (← strdup msg.eventStreamId)
      expectedVersion := msg.expectedVersion
      requireMaster := msg.requireMaster
      hardDelete := if msg.hasHardDelete then msg.hardDelete else false }

structure DeleteStreamCompleted where
  result : OperationResult
  message : Option CString
  preparePosition : Int64
  commitPosition : Int64
  deriving DecidableEq

def deleteStreamCompletedMessage (delete : DeleteStreamCompleted) :
    Messages.DeleteStreamCompleted where
  result := delete.result
  message := delete.message
  hasPreparePosition := true
  hasCommitPosition := true
  preparePosition := delete.preparePosition
  commitPosition := delete.commitPosition

def esPackDeleteStreamCompleted (delete : DeleteStreamCompleted) (memory : Memory UInt8)
    (buffer : Buffer) : Except Fault (Memory UInt8 × Int) :=
  .ok (packInto runtime Messages.deleteStreamCompletedDescriptor
    (deleteStreamCompletedMessage delete) memory buffer)

def esUnpackDeleteStreamCompleted (memory : Memory UInt8) (buffer : Buffer) :
    Except Fault (Option DeleteStreamCompleted) :=
  unpackFrom runtime Messages.deleteStreamCompletedDescriptor memory buffer fun msg => do
    return {
      message := some (← strdup msg.message)
      preparePosition := msg.preparePosition
      commitPosition := msg.commitPosition
      result := msg.result }

structure SubscribeToStream where
  eventStreamId : Option CString
  resolveLinkTos : Bool
  deriving DecidableEq

def subscribeToStreamMessage (subscribe : SubscribeToStream) : Messages.SubscribeToStream where
  eventStreamId := subscribe.eventStreamId
  resolveLinkTos := subscribe.resolveLinkTos

def esPackSubscribeToStream (subscribe : SubscribeToStream) (memory : Memory UInt8)
    (buffer : Buffer) : Except Fault (Memory UInt8 × Int) :=
  .ok (packInto runtime Messages.subscribeToStreamDescriptor
    (subscribeToStreamMessage subscribe) memory buffer)

def esUnpackSubscribeToStream (memory : Memory UInt8) (buffer : Buffer) :
    Except Fault (Option SubscribeToStream) :=
  unpackFrom runtime Messages.subscribeToStreamDescriptor memory buffer fun msg => do
    return {
      eventStreamId := some (← strdup msg.eventStreamId)
      resolveLinkTos := msg.resolveLinkTos }

structure SubscriptionConfirmation where
  lastCommitPosition : Int64
  lastEventNumber : Int32
  deriving DecidableEq

def subscriptionConfirmationMessage (subscribe : SubscriptionConfirmation) :
    Messages.SubscriptionConfirmation where
  lastCommitPosition := subscribe.lastCommitPosition
  hasLastEventNumber := true
  lastEventNumber := subscribe.lastEventNumber

def esPackSubscriptionConfirmation (subscribe : SubscriptionConfirmation) (memory : Memory UInt8)
    (buffer : Buffer) : Except Fault (Memory UInt8 × Int) :=
  .ok (packInto runtime Messages.subscriptionConfirmationDescriptor
    (subscriptionConfirmationMessage subscribe) memory buffer)

def esUnpackSubscriptionConfirmation (memory : Memory UInt8) (buffer : Buffer) :
    Except Fault (Option SubscriptionConfirmation) :=
  unpackFrom runtime Messages.subscriptionConfirmationDescriptor memory buffer fun msg =>
    .ok {
      lastCommitPosition := msg.lastCommitPosition
      lastEventNumber := msg.lastEventNumber }

structure SubscriptionDropped where
  reason : SubscriptionDropReason
  deriving DecidableEq

def subscriptionDroppedMessage (drop : SubscriptionDropped) : Messages.SubscriptionDropped where
  hasReason := true
  reason := drop.reason

def esPackSubscriptionDropped (drop : SubscriptionDropped) (memory : Memory UInt8)
    (buffer : Buffer) : Except Fault (Memory UInt8 × Int) :=
  .ok (packInto runtime Messages.subscriptionDroppedDescriptor
    (subscriptionDroppedMessage drop) memory buffer)

def esUnpackSubscriptionDropped (memory : Memory UInt8) (buffer : Buffer) :
    Except Fault (Option SubscriptionDropped) :=
  unpackFrom runtime Messages.subscriptionDroppedDescriptor memory buffer fun msg =>
    .ok { reason := msg.reason }

structure ScavengeDatabaseCompleted where
  result : ScavengeResult
  error : Option CString
  totalTimeMs : Int32
  totalSpaceSaved : Int64
  deriving DecidableEq

def scavengeDatabaseCompletedMessage (drop : ScavengeDatabaseCompleted) :
    Messages.ScavengeDatabaseCompleted where
  result := drop.result
  error := drop.error
  totalSpaceSaved := drop.totalSpaceSaved
  totalTimeMs := drop.totalTimeMs

def esPackScavengeDatabaseCompleted (drop : ScavengeDatabaseCompleted) (memory : Memory UInt8)
    (buffer : Buffer) : Except Fault (Memory UInt8 × Int) :=
  .ok (packInto runtime Messages.scavengeDatabaseCompletedDescriptor
    (scavengeDatabaseCompletedMessage drop) memory buffer)

def esUnpackScavengeDatabaseCompleted (memory : Memory UInt8) (buffer : Buffer) :
    Except Fault (Option ScavengeDatabaseCompleted) :=
  unpackFrom runtime Messages.scavengeDatabaseCompletedDescriptor memory buffer fun msg => do
    return {
      result := msg.result
      error := some (← strdup msg.error)
      totalTimeMs := msg.totalTimeMs
      totalSpaceSaved := msg.totalSpaceSaved }

structure ScavengeDatabase where
  deriving DecidableEq

def scavengeDatabaseMessage (_ : ScavengeDatabase) : Messages.ScavengeDatabase := {}

def esPackScavengeDatabase (drop : ScavengeDatabase) (memory : Memory UInt8) (buffer : Buffer) :
    Except Fault (Memory UInt8 × Int) :=
  .ok (packInto runtime Messages.scavengeDatabaseDescriptor
    (scavengeDatabaseMessage drop) memory buffer)

def esUnpackScavengeDatabase (memory : Memory UInt8) (buffer : Buffer) :
    Except Fault (Option ScavengeDatabase) :=
  unpackFrom runtime Messages.scavengeDatabaseDescriptor memory buffer fun _ =>
    .ok {}

/-! Events, whose payloads are behind pointers. -/

/-- Where a payload is. What lay at a freed address is kept for the record; it is
not there to be read. -/
inductive Location
  | null
  | live (bytes : List UInt8)
  | freed (bytes : List UInt8)
  deriving DecidableEq

def Location.bytes : Location → List UInt8
  | null => []
  | live bytes => bytes
  | freed bytes => bytes

/-- A `struct Buffer` inside an event: as many bytes as a positive length promises. -/
structure Region where
  length : Int32
  location : Location
  holds : length.toInt.toNat ≤ location.bytes.length
  deriving DecidableEq

def Region.bytes (region : Region) : List UInt8 :=
  region.location.bytes.take region.length.toInt.toNat

def Region.readable (region : Region) : Option (List UInt8) :=
  match region.location with
  | .freed _ => none
  | _ => some region.bytes

structure NewEvent where
  eventId : Uuid
  eventType : Option CString
  dataContentType : Int32
  metadataContentType : Int32
  data : Region
  metadata : Region

/-- `events` points at an array of at least `numEvents` events. -/
structure WriteEvents where
  eventStreamId : Option CString
  expectedVersion : Int32
  numEvents : Int32
  requireMaster : Bool
  events : List NewEvent
  holds : numEvents.toInt.toNat ≤ events.length

/-- `ev` as the loop of `es_pack_write_events` fills it in; `event_id` stays as the
INIT macro set it. -/
def newEventMessage (cur : NewEvent) : Messages.NewEvent where
  dataContentType := cur.dataContentType
  eventType := cur.eventType
  metadataContentType := cur.metadataContentType
  data := cur.data.bytes
  hasMetadata := cur.metadata.length > 0
  metadata := if cur.metadata.length > 0 then cur.metadata.bytes else []

def packEvent (cur : NewEvent) : Except Fault Messages.NewEvent := do
  assert (cur.data.location ≠ .null)
  assert (cur.data.length > 0)
  return newEventMessage cur

def WriteEvents.counted (write : WriteEvents) : List NewEvent :=
  write.events.take write.numEvents.toInt.toNat

def writeEventsMessage (write : WriteEvents) (events : List Messages.NewEvent) :
    Messages.WriteEvents where
  eventStreamId := write.eventStreamId
  expectedVersion := write.expectedVersion
  requireMaster := write.requireMaster
  events := events

def esPackWriteEvents (write : WriteEvents) (memory : Memory UInt8) (buffer : Buffer) :
    Except Fault (Memory UInt8 × Int) := do
  assert (write.numEvents ≥ 0)
  let events ← write.counted.mapM packEvent
  return packInto runtime Messages.writeEventsDescriptor (writeEventsMessage write events) memory
    buffer

theorem toNat_toInt_ofNat_le (count : Nat) : (Int32.ofNat count).toInt.toNat ≤ count := by
  rw [Int32.toInt_ofNat', Int.bmod_def, Int32.size]
  omega

/-- What `cur->data` is left with: an empty field is unpacked as a NULL pointer, any
other one lies in the message, which is freed before the function returns. -/
def unpackedRegion (bytes : List UInt8) : Region where
  length := Int32.ofNat bytes.length
  location := if bytes = [] then .null else .freed bytes
  holds := by
    by_cases empty : bytes = []
    · subst empty
      decide
    · simpa [empty, Location.bytes] using toNat_toInt_ofNat_le bytes.length

def emptyRegion : Region where
  length := 0
  location := .null
  holds := by decide

def unpackEvent (eventId : Uuid) (ev : Messages.NewEvent) : Except Fault NewEvent := do
  return {
    eventId := eventId
    eventType := some (← strdup ev.eventType)
    dataContentType := ev.dataContentType
    metadataContentType := ev.metadataContentType
    data := unpackedRegion ev.data
    metadata := if ev.hasMetadata then unpackedRegion ev.metadata else emptyRegion }

def unpackEvents (heap : Nat → Uuid) : Nat → List Messages.NewEvent → Except Fault (List NewEvent)
  | _, [] => .ok []
  | i, ev :: rest => do
      let cur ← unpackEvent (heap i) ev
      let later ← unpackEvents heap (i + 1) rest
      return cur :: later

/-- `heap i` is what `malloc` left in the id of event `i`, which nothing sets. -/
def esUnpackWriteEvents (heap : Nat → Uuid) (memory : Memory UInt8) (buffer : Buffer) :
    Except Fault (Option WriteEvents) :=
  unpackFrom runtime Messages.writeEventsDescriptor memory buffer fun msg => do
    let eventStreamId ← strdup msg.eventStreamId
    let events ← unpackEvents heap 0 msg.events
    return {
      eventStreamId := some eventStreamId
      expectedVersion := msg.expectedVersion
      requireMaster := msg.requireMaster
      numEvents := Int32.ofNat events.length
      events := events
      holds := toNat_toInt_ofNat_le events.length }

structure WriteEventsCompleted where
  result : OperationResult
  message : Option CString
  firstEventNumber : UInt32
  lastEventNumber : UInt32
  preparePosition : Int64
  commitPosition : Int64
  deriving DecidableEq

def writeEventsCompletedMessage (write : WriteEventsCompleted) : Messages.WriteEventsCompleted where
  result := write.result
  message := write.message
  firstEventNumber := write.firstEventNumber.toInt32
  lastEventNumber := write.lastEventNumber.toInt32
  hasPreparePosition := true
  preparePosition := write.preparePosition
  hasCommitPosition := true
  commitPosition := write.commitPosition

def esPackWriteEventsCompleted (write : WriteEventsCompleted) (memory : Memory UInt8)
    (buffer : Buffer) : Except Fault (Memory UInt8 × Int) :=
  .ok (packInto runtime Messages.writeEventsCompletedDescriptor
    (writeEventsCompletedMessage write) memory buffer)

def esUnpackWriteEventsCompleted (memory : Memory UInt8) (buffer : Buffer) :
    Except Fault (Option WriteEventsCompleted) :=
  unpackFrom runtime Messages.writeEventsCompletedDescriptor memory buffer fun msg => do
    return {
      message := some (← strdup msg.message)
      firstEventNumber := msg.firstEventNumber.toUInt32
      lastEventNumber := msg.lastEventNumber.toUInt32
      preparePosition := msg.preparePosition
      commitPosition := msg.commitPosition
      result := msg.result }

structure ReadStreamEvents where
  eventStreamId : Option CString
  fromEventNumber : UInt32
  maxCount : UInt32
  resolveLinkTos : Bool
  requireMaster : Bool
  deriving DecidableEq

def readStreamEventsMessage (read : ReadStreamEvents) : Messages.ReadStreamEvents where
  eventStreamId := read.eventStreamId
  fromEventNumber := read.fromEventNumber.toInt32
  maxCount := read.maxCount.toInt32
  resolveLinkTos := read.resolveLinkTos
  requireMaster := read.requireMaster

def esPackReadStreamEvents (read : ReadStreamEvents) (memory : Memory UInt8) (buffer : Buffer) :
    Except Fault (Memory UInt8 × Int) := do
  assert (read.eventStreamId.isSome)
  return packInto runtime Messages.readStreamEventsDescriptor (readStreamEventsMessage read) memory
    buffer

def esUnpackReadStreamEvents (memory : Memory UInt8) (buffer : Buffer) :
    Except Fault (Option ReadStreamEvents) :=
  unpackFrom runtime Messages.readStreamEventsDescriptor memory buffer fun msg => do
    return {
      eventStreamId := some (← strdup msg.eventStreamId)
      fromEventNumber := msg.fromEventNumber.toUInt32
      requireMaster := msg.requireMaster
      resolveLinkTos := msg.resolveLinkTos
      maxCount := msg.maxCount.toUInt32 }

structure ReadEvent where
  eventStreamId : Option CString
  eventNumber : UInt32
  resolveLinkTos : Bool
  requireMaster : Bool
  deriving DecidableEq

def readEventMessage (read : ReadEvent) : Messages.ReadEvent where
  eventStreamId := read.eventStreamId
  eventNumber := read.eventNumber.toInt32
  resolveLinkTos := read.resolveLinkTos
  requireMaster := read.requireMaster

def esPackReadEvent (read : ReadEvent) (memory : Memory UInt8) (buffer : Buffer) :
    Except Fault (Memory UInt8 × Int) := do
  assert (read.eventStreamId.isSome)
  return packInto runtime Messages.readEventDescriptor (readEventMessage read) memory buffer

def esUnpackReadEvent (memory : Memory UInt8) (buffer : Buffer) :
    Except Fault (Option ReadEvent) :=
  unpackFrom runtime Messages.readEventDescriptor memory buffer fun msg => do
    return {
      eventStreamId := some (← strdup msg.eventStreamId)
      eventNumber := msg.eventNumber.toUInt32
      requireMaster := msg.requireMaster
      resolveLinkTos := msg.resolveLinkTos }

structure ReadAllEvents where
  commitPosition : UInt64
  preparePosition : UInt64
  maxCount : UInt32
  resolveLinkTos : Bool
  requireMaster : Bool
  deriving DecidableEq

def readAllEventsMessage (read : ReadAllEvents) : Messages.ReadAllEvents where
  preparePosition := read.preparePosition.toInt64
  commitPosition := read.commitPosition.toInt64
  maxCount := read.maxCount.toInt32
  resolveLinkTos := read.resolveLinkTos
  requireMaster := read.requireMaster

def esPackReadAllEvents (read : ReadAllEvents) (memory : Memory UInt8) (buffer : Buffer) :
    Except Fault (Memory UInt8 × Int) :=
  .ok (packInto runtime Messages.readAllEventsDescriptor (readAllEventsMessage read) memory buffer)

def esUnpackReadAllEvents (memory : Memory UInt8) (buffer : Buffer) :
    Except Fault (Option ReadAllEvents) :=
  unpackFrom runtime Messages.readAllEventsDescriptor memory buffer fun msg =>
    .ok {
      commitPosition := msg.commitPosition.toUInt64
      preparePosition := msg.preparePosition.toUInt64
      requireMaster := msg.requireMaster
      resolveLinkTos := msg.resolveLinkTos
      maxCount := msg.maxCount.toUInt32 }

structure DeletePersistentSubscription where
  subscriptionGroupName : Option CString
  eventStreamId : Option CString
  deriving DecidableEq

def deletePersistentSubscriptionMessage (read : DeletePersistentSubscription) :
    Messages.DeletePersistentSubscription where
  eventStreamId := read.eventStreamId
  subscriptionGroupName := read.subscriptionGroupName

def esPackDeletePersistentSubscription (read : DeletePersistentSubscription) (memory : Memory UInt8)
    (buffer : Buffer) : Except Fault (Memory UInt8 × Int) :=
  .ok (packInto runtime Messages.deletePersistentSubscriptionDescriptor
    (deletePersistentSubscriptionMessage read) memory buffer)

def esUnpackDeletePersistentSubscription (memory : Memory UInt8) (buffer : Buffer) :
    Except Fault (Option DeletePersistentSubscription) :=
  unpackFrom runtime Messages.deletePersistentSubscriptionDescriptor memory buffer fun msg => do
    return {
      eventStreamId := some (← strdup msg.eventStreamId)
      subscriptionGroupName := some (← strdup msg.subscriptionGroupName) }

structure TransactionCommit where
  transactionId : UInt64
  requireMaster : Bool
  deriving DecidableEq

def transactionCommitMessage (tran : TransactionCommit) : Messages.TransactionCommit where
  transactionId := tran.transactionId.toInt64
  requireMaster := tran.requireMaster

def esPackTransactionCommit (tran : TransactionCommit) (memory : Memory UInt8) (buffer : Buffer) :
    Except Fault (Memory UInt8 × Int) :=
  .ok (packInto runtime Messages.transactionCommitDescriptor
    (transactionCommitMessage tran) memory buffer)

def esUnpackTransactionCommit (memory : Memory UInt8) (buffer : Buffer) :
    Except Fault (Option TransactionCommit) :=
  unpackFrom runtime Messages.transactionCommitDescriptor memory buffer fun msg =>
    .ok {
      transactionId := msg.transactionId.toUInt64
      requireMaster := msg.requireMaster }

end Functions

end LibEsClient
