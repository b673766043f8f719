import LibEsClient.ProtoMessage
import LibEsClient.CString

/-! The generated message types of `es_proto.h` with their descriptors and initial
values. Strings and byte fields are held by value, `none` is NULL, and an
enumeration is the 32 bits of its C type, which may hold any of them. -/

namespace LibEsClient

open Proto2

def textCodec : ValueCodec CString where
  wire text := .lengthDelimited text.bytes
  read
    | .lengthDelimited bytes => some (CString.ofBytes bytes)
    | _ => none
  seen text := text
  read_wire text _ := by simp

/-- A required string is always written, a NULL one like an empty one. -/
def requiredTextCodec : ValueCodec (Option CString) where
  wire text := .lengthDelimited (text.elim [] CString.bytes)
  read
    | .lengthDelimited bytes => some (some (CString.ofBytes bytes))
    | _ => none
  seen text := some (text.getD (CString.ofBytes []))
  read_wire text _ := by cases text <;> simp

namespace Messages

structure NewEvent where
  eventId : List UInt8 := []
  eventType : Option CString := none
  dataContentType : Int32 := 0
  metadataContentType : Int32 := 0
  data : List UInt8 := []
  hasMetadata : Bool := false
  metadata : List UInt8 := []
  deriving DecidableEq

def newEventDescriptor : MessageDescriptor NewEvent where
  init := {}
  fields := [
    .required 1 bytesCodec (·.eventId) (fun value msg => { msg with eventId := value }),
    .required 2 requiredTextCodec (·.eventType)
      (fun value msg => { msg with eventType := value }),
    .required 3 int32Codec (·.dataContentType)
      (fun value msg => { msg with dataContentType := value }),
    .required 4 int32Codec (·.metadataContentType)
      (fun value msg => { msg with metadataContentType := value }),
    .required 5 bytesCodec (·.data) (fun value msg => { msg with data := value }),
    .optional 6 bytesCodec (·.hasMetadata) (·.metadata)
      (fun value msg => { msg with hasMetadata := true, metadata := value })]

structure WriteEvents where
  eventStreamId : Option CString := none
  expectedVersion : Int32 := 0
  events : List NewEvent := []
  requireMaster : Bool := false
  deriving DecidableEq

def writeEventsDescriptor : MessageDescriptor WriteEvents where
  init := {}
  fields := [
    .required 1 requiredTextCodec (·.eventStreamId)
      (fun value msg => { msg with eventStreamId := value }),
    .required 2 int32Codec (·.expectedVersion)
      (fun value msg => { msg with expectedVersion := value }),
    .repeated 3 newEventDescriptor.codec (·.events)
      (fun value msg => { msg with events := msg.events ++ [value] }),
    .required 4 boolCodec (·.requireMaster)
      (fun value msg => { msg with requireMaster := value })]

structure WriteEventsCompleted where
  result : UInt32 := 0
  message : Option CString := none
  firstEventNumber : Int32 := 0
  lastEventNumber : Int32 := 0
  hasPreparePosition : Bool := false
  preparePosition : Int64 := 0
  hasCommitPosition : Bool := false
  commitPosition : Int64 := 0
  deriving DecidableEq

def writeEventsCompletedDescriptor : MessageDescriptor WriteEventsCompleted where
  init := {}
  fields := [
    .required 1 enumCodec (·.result) (fun value msg => { msg with result := value }),
    .pointer 2 textCodec (·.message) (fun value msg => { msg with message := some value }),
    .required 3 int32Codec (·.firstEventNumber)
      (fun value msg => { msg with firstEventNumber := value }),
    .required 4 int32Codec (·.lastEventNumber)
      (fun value msg => { msg with lastEventNumber := value }),
    .optional 5 int64Codec (·.hasPreparePosition) (·.preparePosition)
      (fun value msg => { msg with hasPreparePosition := true, preparePosition := value }),
    .optional 6 int64Codec (·.hasCommitPosition) (·.commitPosition)
      (fun value msg => { msg with hasCommitPosition := true, commitPosition := value })]

structure DeleteStream where
  eventStreamId : Option CString := none
  expectedVersion : Int32 := 0
  requireMaster : Bool := false
  hasHardDelete : Bool := false
  hardDelete : Bool := false
  deriving DecidableEq

def deleteStreamDescriptor : MessageDescriptor DeleteStream where
  init := {}
  fields := [
    .required 1 requiredTextCodec (·.eventStreamId)
      (fun value msg => { msg with eventStreamId := value }),
    .required 2 int32Codec (·.expectedVersion)
      (fun value msg => { msg with expectedVersion := value }),
    .required 3 boolCodec (·.requireMaster)
      (fun value msg => { msg with requireMaster := value }),
    .optional 4 boolCodec (·.hasHardDelete) (·.hardDelete)
      (fun value msg => { msg with hasHardDelete := true, hardDelete := value })]

structure DeleteStreamCompleted where
  result : UInt32 := 0
  message : Option CString := none
  hasPreparePosition : Bool := false
  preparePosition : Int64 := 0
  hasCommitPosition : Bool := false
  commitPosition : Int64 := 0
  deriving DecidableEq

def deleteStreamCompletedDescriptor : MessageDescriptor DeleteStreamCompleted where
  init := {}
  fields := [
    .required 1 enumCodec (·.result) (fun value msg => { msg with result := value }),
    .pointer 2 textCodec (·.message) (fun value msg => { msg with message := some value }),
    .optional 3 int64Codec (·.hasPreparePosition) (·.preparePosition)
      (fun value msg => { msg with hasPreparePosition := true, preparePosition := value }),
    .optional 4 int64Codec (·.hasCommitPosition) (·.commitPosition)
      (fun value msg => { msg with hasCommitPosition := true, commitPosition := value })]

structure TransactionCommit where
  transactionId : Int64 := 0
  requireMaster : Bool := false
  deriving DecidableEq

def transactionCommitDescriptor : MessageDescriptor TransactionCommit where
  init := {}
  fields := [
    .required 1 int64Codec (·.transactionId)
      (fun value msg => { msg with transactionId := value }),
    .required 2 boolCodec (·.requireMaster)
      (fun value msg => { msg with requireMaster := value })]

structure ReadEvent where
  eventStreamId : Option CString := none
  eventNumber : Int32 := 0
  resolveLinkTos : Bool := false
  requireMaster : Bool := false
  deriving DecidableEq

def readEventDescriptor : MessageDescriptor ReadEvent where
  init := {}
  fields := [
    .required 1 requiredTextCodec (·.eventStreamId)
      (fun value msg => { msg with eventStreamId := value }),
    .required 2 int32Codec (·.eventNumber) (fun value msg => { msg with eventNumber := value }),
    .required 3 boolCodec (·.resolveLinkTos)
      (fun value msg => { msg with resolveLinkTos := value }),
    .required 4 boolCodec (·.requireMaster)
      (fun value msg => { msg with requireMaster := value })]

structure ReadStreamEvents where
  eventStreamId : Option CString := none
  fromEventNumber : Int32 := 0
  maxCount : Int32 := 0
  resolveLinkTos : Bool := false
  requireMaster : Bool := false
  deriving DecidableEq

def readStreamEventsDescriptor : MessageDescriptor ReadStreamEvents where
  init := {}
  fields := [
    .required 1 requiredTextCodec (·.eventStreamId)
      (fun value msg => { msg with eventStreamId := value }),
    .required 2 int32Codec (·.fromEventNumber)
      (fun value msg => { msg with fromEventNumber := value }),
    .required 3 int32Codec (·.maxCount) (fun value msg => { msg with maxCount := value }),
    .required 4 boolCodec (·.resolveLinkTos)
      (fun value msg => { msg with resolveLinkTos := value }),
    .required 5 boolCodec (·.requireMaster)
      (fun value msg => { msg with requireMaster := value })]

structure ReadAllEvents where
  commitPosition : Int64 := 0
  preparePosition : Int64 := 0
  maxCount : Int32 := 0
  resolveLinkTos : Bool := false
  requireMaster : Bool := false
  deriving DecidableEq

def readAllEventsDescriptor : MessageDescriptor ReadAllEvents where
  init := {}
  fields := [
    .required 1 int64Codec (·.commitPosition)
      (fun value msg => { msg with commitPosition := value }),
    .required 2 int64Codec (·.preparePosition)
      (fun value msg => { msg with preparePosition := value }),
    .required 3 int32Codec (·.maxCount) (fun value msg => { msg with maxCount := value }),
    .required 4 boolCodec (·.resolveLinkTos)
      (fun value msg => { msg with resolveLinkTos := value }),
    .required 5 boolCodec (·.requireMaster)
      (fun value msg => { msg with requireMaster := value })]

structure DeletePersistentSubscription where
  subscriptionGroupName : Option CString := none
  eventStreamId : Option CString := none
  deriving DecidableEq

def deletePersistentSubscriptionDescriptor : MessageDescriptor DeletePersistentSubscription where
  init := {}
  fields := [
    .required 1 requiredTextCodec (·.subscriptionGroupName)
      (fun value msg => { msg with subscriptionGroupName := value }),
    .required 2 requiredTextCodec (·.eventStreamId)
      (fun value msg => { msg with eventStreamId := value })]

structure SubscribeToStream where
  eventStreamId : Option CString := none
  resolveLinkTos : Bool := false
  deriving DecidableEq

def subscribeToStreamDescriptor : MessageDescriptor SubscribeToStream where
  init := {}
  fields := [
    .required 1 requiredTextCodec (·.eventStreamId)
      (fun value msg => { msg with eventStreamId := value }),
    .required 2 boolCodec (·.resolveLinkTos)
      (fun value msg => { msg with resolveLinkTos := value })]

structure SubscriptionConfirmation where
  lastCommitPosition : Int64 := 0
  hasLastEventNumber : Bool := false
  lastEventNumber : Int32 := 0
  deriving DecidableEq

def subscriptionConfirmationDescriptor : MessageDescriptor SubscriptionConfirmation where
  init := {}
  fields := [
    .required 1 int64Codec (·.lastCommitPosition)
      (fun value msg => { msg with lastCommitPosition := value }),
    .optional 2 int32Codec (·.hasLastEventNumber) (·.lastEventNumber)
      (fun value msg => { msg with hasLastEventNumber := true, lastEventNumber := value })]

structure SubscriptionDropped where
  hasReason : Bool := false
  reason : UInt32 := 0
  deriving DecidableEq

def subscriptionDroppedDescriptor : MessageDescriptor SubscriptionDropped where
  init := {}
  fields := [
    .optional 1 enumCodec (·.hasReason) (·.reason)
      (fun value msg => { msg with hasReason := true, reason := value })]

structure ScavengeDatabase where
  deriving DecidableEq

def scavengeDatabaseDescriptor : MessageDescriptor ScavengeDatabase where
  init := {}
  fields := []

structure ScavengeDatabaseCompleted where
  result : UInt32 := 0
  error : Option CString := none
  totalTimeMs : Int32 := 0
  totalSpaceSaved : Int64 := 0
  deriving DecidableEq

def scavengeDatabaseCompletedDescriptor : MessageDescriptor ScavengeDatabaseCompleted where
  init := {}
  fields := [
    .required 1 enumCodec (·.result) (fun value msg => { msg with result := value }),
    .pointer 2 textCodec (·.error) (fun value msg => { msg with error := some value }),
    .required 3 int32Codec (·.totalTimeMs) (fun value msg => { msg with totalTimeMs := value }),
    .required 4 int64Codec (·.totalSpaceSaved)
      (fun value msg => { msg with totalSpaceSaved := value })]

end Messages

end LibEsClient
