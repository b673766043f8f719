import LibEsClient.EsProtoHelper
import LibEsClient.HeaderWire
import LibEsClient.Separation

/-! The objects of the client as they lie in the heap: the structs with pointers where
the other modules hold values, and the functions that allocate and free them in
`es_proto_helper.c` and `es_msg_parser.c`. `malloc` always finds room; `leftover i` is what
it left in the id of event `i`, which nothing sets. -/

namespace LibEsClient

open FlatMemory Proto2 Heaps

abbrev Pointer := Option Nat

namespace InHeap

structure DeleteStream where
  eventStreamId : Pointer
  expectedVersion : Int32
  requireMaster : Bool
  hardDelete : Bool

structure DeleteStreamCompleted where
  result : OperationResult
  message : Pointer
  preparePosition : Int64
  commitPosition : Int64

structure SubscribeToStream where
  eventStreamId : Pointer
  resolveLinkTos : Bool

structure ScavengeDatabaseCompleted where
  result : ScavengeResult
  error : Pointer
  totalTimeMs : Int32
  totalSpaceSaved : Int64

/-- The payloads lie outside this heap, in a message or with the caller. -/
structure NewEvent where
  eventId : Uuid
  eventType : Pointer
  dataContentType : Int32
  metadataContentType : Int32
  data : Region
  metadata : Region

structure WriteEvents where
  eventStreamId : Pointer
  expectedVersion : Int32
  numEvents : Int32
  requireMaster : Bool
  events : Pointer

structure WriteEventsCompleted where
  result : OperationResult
  message : Pointer
  firstEventNumber : UInt32
  lastEventNumber : UInt32
  preparePosition : Int64
  commitPosition : Int64

structure ReadStreamEvents where
  eventStreamId : Pointer
  fromEventNumber : UInt32
  maxCount : UInt32
  resolveLinkTos : Bool
  requireMaster : Bool

structure ReadEvent where
  eventStreamId : Pointer
  eventNumber : UInt32
  resolveLinkTos : Bool
  requireMaster : Bool

structure DeletePersistentSubscription where
  subscriptionGroupName : Pointer
  eventStreamId : Pointer

structure Header where
  command : UInt8
  flags : UInt8
  correlationId : Pointer
  username : Pointer
  password : Pointer

/-- The other three pointers, by their distance from `bufferStart`. -/
structure ParserState where
  bufferStart : Pointer
  parserRead : Int
  bufferEnd : Int
  bufferWrite : Int

/-- What a block holds. `message` is a message of the runtime with everything that
hangs from it, `pointers` the entries written so far of an array of pointers. -/
inductive Block
  | raw
  | text (value : CString)
  | uuid (value : Uuid)
  | bytes (size : Int)
  | pointers (entries : List Pointer)
  | message
  | newEventMessage (value : Messages.NewEvent)
  | deleteStream (self : DeleteStream)
  | deleteStreamCompleted (self : DeleteStreamCompleted)
  | subscribeToStream (self : SubscribeToStream)
  | subscriptionConfirmation (self : SubscriptionConfirmation)
  | subscriptionDropped (self : SubscriptionDropped)
  | scavengeDatabaseCompleted (self : ScavengeDatabaseCompleted)
  | scavengeDatabase (self : ScavengeDatabase)
  | newEvent (self : NewEvent)
  | writeEvents (self : WriteEvents)
  | writeEventsCompleted (self : WriteEventsCompleted)
  | readStreamEvents (self : ReadStreamEvents)
  | readEvent (self : ReadEvent)
  | readAllEvents (self : ReadAllEvents)
  | deletePersistentSubscription (self : DeletePersistentSubscription)
  | transactionCommit (self : TransactionCommit)
  | header (self : Header)
  | parserState (self : ParserState)
  | buffer (self : Buffer)

abbrev Run := Program Nat Block

/-! Freeing. What a `destroy_` function returns here is what it leaves in `*item`. -/

/-- The strings are freed one by one, then the struct. `free` has nothing to do for
NULL, so the tests for it are left out. -/
def destroyOwner (owned : Block → Option (List Pointer)) (item : Pointer) : Run Pointer := do
  let texts ← loadAs owned item
  texts.forM free
  free item
  return none

def destroyPlain (item : Pointer) : Run Pointer := do
  free item
  return none

def destroyDeleteStream : Pointer → Run Pointer :=
  destroyOwner fun
    | .deleteStream self => some [self.eventStreamId]
    | _ => none

def destroyDeleteStreamCompleted : Pointer → Run Pointer :=
  destroyOwner fun
    | .deleteStreamCompleted self => some [self.message]
    | _ => none

def destroySubscribeToStream : Pointer → Run Pointer :=
  destroyOwner fun
    | .subscribeToStream self => some [self.eventStreamId]
    | _ => none

def destroySubscriptionConfirmation : Pointer → Run Pointer := destroyPlain

def destroySubscriptionDropped : Pointer → Run Pointer := destroyPlain

-- Unlike the others with a string it does not look at it.
def destroyScavengeDatabaseCompleted : Pointer → Run Pointer := destroyPlain

def destroyScavengeDatabase : Pointer → Run Pointer := destroyPlain

def destroyWriteEventsCompleted : Pointer → Run Pointer :=
  destroyOwner fun
    | .writeEventsCompleted self => some [self.message]
    | _ => none

def destroyReadStreamEvents : Pointer → Run Pointer :=
  destroyOwner fun
    | .readStreamEvents self => some [self.eventStreamId]
    | _ => none

def destroyReadEvent : Pointer → Run Pointer :=
  destroyOwner fun
    | .readEvent self => some [self.eventStreamId]
    | _ => none

def destroyReadAllEvents : Pointer → Run Pointer := destroyPlain

def destroyDeletePersistentSubscription : Pointer → Run Pointer :=
  destroyOwner fun
    | .deletePersistentSubscription self => some [self.eventStreamId, self.subscriptionGroupName]
    | _ => none

def destroyTransactionCommit : Pointer → Run Pointer := destroyPlain

def Block.pointers? : Block → Option (List Pointer)
  | pointers entries => some entries
  | _ => none

def Block.newEvent? : Block → Option NewEvent
  | newEvent self => some self
  | _ => none

def Block.writeEvents? : Block → Option WriteEvents
  | writeEvents self => some self
  | _ => none

def entryAt (events : Pointer) (i : Nat) : Run Pointer := do
  let entries ← loadAs Block.pointers? events
  (entries[i]?).elim (fail .access) pure

def destroyEvents (events : Pointer) : Nat → Nat → Run Unit
  | _, 0 => pure ()
  | i, turns + 1 => do
      let cur ← entryAt events i
      let self ← loadAs Block.newEvent? cur
      free self.eventType
      free cur
      destroyEvents events (i + 1) turns

def destroyWriteEvents (item : Pointer) : Run Pointer := do
  let self ← loadAs Block.writeEvents? item
  free self.eventStreamId
  destroyEvents self.events 0 self.numEvents.toInt.toNat
  free self.events
  free item
  return none

def Block.header? : Block → Option Header
  | header self => some self
  | _ => none

def destroyHeader : Pointer → Run Pointer
  | none => return none
  | some header => do
      let self ← loadAs Block.header? (some header)
      free self.username
      free self.password
      -- The correlation id, a block of its own, is not freed.
      free (some header)
      return none

def Block.parserState? : Block → Option ParserState
  | parserState self => some self
  | _ => none

def destroyParserState : Pointer → Run Pointer
  | none => return none
  | some state => do
      let self ← loadAs Block.parserState? (some state)
      free self.bufferStart
      free (some state)
      return none

section Allocating

variable (allocator : Allocator Nat Block)

/-- Reading what NULL points at is how `strdup` of NULL ends. -/
def strdup : Option CString → Run Pointer
  | none => fail .access
  | some text => malloc allocator (.text text)

def strdupUnlessNull : Option CString → Run Pointer
  | none => return none
  | some text => malloc allocator (.text text)

def createHeader (command flags : UInt8) (correlationId : Uuid)
    (username password : Option CString) : Run Pointer := do
  let ret ← malloc allocator .raw
  let id ← malloc allocator (.uuid correlationId)
  let name ← strdupUnlessNull allocator username
  let secret ← strdupUnlessNull allocator password
  store ret (.header {
    command := command
    flags := flags
    correlationId := id
    username := name
    password := secret })
  return ret

def readHeader (memory : Memory UInt8) (buffer : Buffer) (header : Pointer) :
    Run (Int × Pointer) :=
  if buffer.length < mandatorySize then return (0, header)
  else do
    let found ← createHeader allocator (memory (buffer.location + commandOffset))
      (memory (buffer.location + flagsOffset))
      (getUuidFromWtf memory (buffer.location + correlationOffset)) none none
    return (1, found)

def createParserState (bufferSize : Int) : Run Pointer := do
  let ret ← malloc allocator .raw
  let bufferStart ← malloc allocator (.bytes bufferSize)
  store ret (.parserState {
    bufferStart := bufferStart
    bufferEnd := bufferSize
    parserRead := 0
    bufferWrite := 0 })
  return ret

variable (runtime : Runtime)

/-- Each `es_unpack_` function but one, with the strings it copies, in order, and the
struct it makes of the message and the copies; NULL where nothing was unpacked. -/
def unpackRecord {message : Type} (descriptor : MessageDescriptor message)
    (texts : message → List (Option CString)) (fill : message → (Nat → Pointer) → Block)
    (memory : Memory UInt8) (buffer : Buffer) : Run Pointer :=
  match runtime.unpack descriptor (memory.read buffer.location (sizeT buffer.length)) with
  | none => return none
  | some msg => do
      let unpacked ← malloc allocator .message
      let ret ← malloc allocator .raw
      let copies ← (texts msg).mapM (strdup allocator)
      store ret (fill msg fun i => copies.getD i none)
      free unpacked
      return ret

def esUnpackDeleteStream : Memory UInt8 → Buffer → Run Pointer :=
  unpackRecord allocator runtime Messages.deleteStreamDescriptor (fun msg => [msg.eventStreamId])
    fun msg copy => .deleteStream {
      eventStreamId := copy 0
      expectedVersion := msg.expectedVersion
      requireMaster := msg.requireMaster
      hardDelete := if msg.hasHardDelete then msg.hardDelete else false }

def esUnpackDeleteStreamCompleted : Memory UInt8 → Buffer → Run Pointer :=
  unpackRecord allocator runtime Messages.deleteStreamCompletedDescriptor
    (fun msg => [msg.message])
    fun msg copy => .deleteStreamCompleted {
      message := copy 0
      preparePosition := msg.preparePosition
      commitPosition := msg.commitPosition
      result := msg.result }

def esUnpackSubscribeToStream : Memory UInt8 → Buffer → Run Pointer :=
  unpackRecord allocator runtime Messages.subscribeToStreamDescriptor
    (fun msg => [msg.eventStreamId])
    fun msg copy => .subscribeToStream {
      eventStreamId := copy 0
      resolveLinkTos := msg.resolveLinkTos }

def esUnpackSubscriptionConfirmation : Memory UInt8 → Buffer → Run Pointer :=
  unpackRecord allocator runtime Messages.subscriptionConfirmationDescriptor (fun _ => [])
    fun msg _ => .subscriptionConfirmation {
      lastCommitPosition := msg.lastCommitPosition
      lastEventNumber := msg.lastEventNumber }

def esUnpackSubscriptionDropped : Memory UInt8 → Buffer → Run Pointer :=
  unpackRecord allocator runtime Messages.subscriptionDroppedDescriptor (fun _ => [])
    fun msg _ => .subscriptionDropped { reason := msg.reason }

def esUnpackScavengeDatabaseCompleted : Memory UInt8 → Buffer → Run Pointer :=
  unpackRecord allocator runtime Messages.scavengeDatabaseCompletedDescriptor
    (fun msg => [msg.error])
    fun msg copy => .scavengeDatabaseCompleted {
      result := msg.result
      error := copy 0
      totalTimeMs := msg.totalTimeMs
      totalSpaceSaved := msg.totalSpaceSaved }

def esUnpackScavengeDatabase : Memory UInt8 → Buffer → Run Pointer :=
  unpackRecord allocator runtime Messages.scavengeDatabaseDescriptor (fun _ => [])
    fun _ _ => .scavengeDatabase {}

def esUnpackWriteEventsCompleted : Memory UInt8 → Buffer → Run Pointer :=
  unpackRecord allocator runtime Messages.writeEventsCompletedDescriptor (fun msg => [msg.message])
    fun msg copy => .writeEventsCompleted {
      message := copy 0
      firstEventNumber := msg.firstEventNumber.toUInt32
      lastEventNumber := msg.lastEventNumber.toUInt32
      preparePosition := msg.preparePosition
      commitPosition := msg.commitPosition
      result := msg.result }

def esUnpackReadStreamEvents : Memory UInt8 → Buffer → Run Pointer :=
  unpackRecord allocator runtime Messages.readStreamEventsDescriptor
    (fun msg => [msg.eventStreamId])
    fun msg copy => .readStreamEvents {
      eventStreamId := copy 0
      fromEventNumber := msg.fromEventNumber.toUInt32
      requireMaster := msg.requireMaster
      resolveLinkTos := msg.resolveLinkTos
      maxCount := msg.maxCount.toUInt32 }

def esUnpackReadEvent : Memory UInt8 → Buffer → Run Pointer :=
  unpackRecord allocator runtime Messages.readEventDescriptor (fun msg => [msg.eventStreamId])
    fun msg copy => .readEvent {
      eventStreamId := copy 0
      eventNumber := msg.eventNumber.toUInt32
      requireMaster := msg.requireMaster
      resolveLinkTos := msg.resolveLinkTos }

def esUnpackReadAllEvents : Memory UInt8 → Buffer → Run Pointer :=
  unpackRecord allocator runtime Messages.readAllEventsDescriptor (fun _ => [])
    fun msg _ => .readAllEvents {
      commitPosition := msg.commitPosition.toUInt64
      preparePosition := msg.preparePosition.toUInt64
      requireMaster := msg.requireMaster
      resolveLinkTos := msg.resolveLinkTos
      maxCount := msg.maxCount.toUInt32 }

def esUnpackDeletePersistentSubscription : Memory UInt8 → Buffer → Run Pointer :=
  unpackRecord allocator runtime Messages.deletePersistentSubscriptionDescriptor
    (fun msg => [msg.eventStreamId, msg.subscriptionGroupName])
    fun _ copy => .deletePersistentSubscription {
      eventStreamId := copy 0
      subscriptionGroupName := copy 1 }

def esUnpackTransactionCommit : Memory UInt8 → Buffer → Run Pointer :=
  unpackRecord allocator runtime Messages.transactionCommitDescriptor (fun _ => [])
    fun msg _ => .transactionCommit {
      transactionId := msg.transactionId.toUInt64
      requireMaster := msg.requireMaster }

def unpackEvents (leftover : Nat → Uuid) (events : Pointer) :
    Nat → List Pointer → List Messages.NewEvent → Run Unit
  | _, _, [] => return ()
  | i, entries, ev :: rest => do
      let cur ← malloc allocator .raw
      let eventType ← strdup allocator ev.eventType
      store cur (.newEvent {
        eventId := leftover i
        eventType := eventType
        dataContentType := ev.dataContentType
        metadataContentType := ev.metadataContentType
        data := unpackedRegion ev.data
        metadata := if ev.hasMetadata then unpackedRegion ev.metadata else emptyRegion })
      store events (.pointers (entries ++ [cur]))
      unpackEvents leftover events (i + 1) (entries ++ [cur]) rest

def esUnpackWriteEvents (leftover : Nat → Uuid) (memory : Memory UInt8) (buffer : Buffer) :
    Run Pointer :=
  match runtime.unpack Messages.writeEventsDescriptor
    (memory.read buffer.location (sizeT buffer.length)) with
  | none => return none
  | some msg => do
      let unpacked ← malloc allocator .message
      let ret ← malloc allocator .raw
      let eventStreamId ← strdup allocator msg.eventStreamId
      let events ← malloc allocator (.pointers [])
      unpackEvents allocator leftover events 0 [] msg.events
      store ret (.writeEvents {
        eventStreamId := eventStreamId
        expectedVersion := msg.expectedVersion
        requireMaster := msg.requireMaster
        events := events
        numEvents := Int32.ofNat msg.events.length })
      free unpacked
      return ret

def packEvents (events : Pointer) : List Pointer → List LibEsClient.NewEvent → Run (List Pointer)
  | entries, [] => return entries
  | entries, cur :: rest =>
      if cur.data.location = .null then fail .abort
      else if ¬cur.data.length > 0 then fail .abort
      else do
        let t ← malloc allocator (.newEventMessage (newEventMessage cur))
        store events (.pointers (entries ++ [t]))
        packEvents events (entries ++ [t]) rest

def esPackWriteEvents (write : LibEsClient.WriteEvents) (memory : Memory UInt8)
    (buffer : Buffer) : Run (Memory UInt8 × Int) :=
  if write.numEvents < 0 then fail .abort
  else do
    let events ← malloc allocator (.pointers [])
    let entries ← packEvents allocator events [] write.counted
    let msg := writeEventsMessage write (write.counted.map newEventMessage)
    let len : UInt32 := (runtime.getPackedSize Messages.writeEventsDescriptor msg).toUInt32
    if len > UInt32.ofInt buffer.length then return (memory, 0)
    else
      entries.forM free
      free events
      return (memory.write buffer.location (runtime.pack Messages.writeEventsDescriptor msg),
        wrapInt len.toNat)

end Allocating

end InHeap

end LibEsClient
