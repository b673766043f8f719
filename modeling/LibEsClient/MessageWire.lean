import LibEsClient.HeaderWire
import LibEsClient.EsProtoForward
import LibEsClient.EsProtoReencode

/-! Messages over the whole wire path: a header with a packed message behind it, framed,
cut into chunks, parsed, and read by `read_header` and `es_unpack_`. -/

namespace LibEsClient

open FlatMemory Proto2

/-- What the `es_pack_` functions assert, and texts where `es_unpack_` needs them. -/
def Outgoing.Sendable : Outgoing → Prop
  | writeEvents write => write.eventStreamId ≠ none ∧ write.numEvents ≥ 0 ∧
      ∀ cur ∈ write.counted, cur.eventType ≠ none ∧ cur.Admitted
  | item => item.Whole

inductive Outgoing.SameContent : Outgoing → Outgoing → Prop
  | refl (item : Outgoing) : SameContent item item
  | writeEvents {sent got : WriteEvents} (same : sent.SameContent got) :
      SameContent (.writeEvents sent) (.writeEvents got)

theorem Outgoing.Sendable.admitted {item : Outgoing} (sendable : item.Sendable) :
    item.Admitted := by
  cases item with
  | writeEvents write => exact ⟨sendable.2.1, fun cur member => (sendable.2.2 cur member).2⟩
  | readStreamEvents value => exact sendable
  | readEvent value => exact sendable
  | _ => trivial

theorem Outgoing.Sendable.roundTrips {runtime : Runtime} (conforms : runtime.Conforms)
    (leftover : Nat → Uuid) {item : Outgoing} (sendable : item.Sendable) :
    ∃ got, item.SameContent got ∧
      RoundTrips (item.esPack runtime) (unpackValue runtime leftover (messageKind item))
        item.encoding.length got := by
  cases item with
  | writeEvents write =>
      obtain ⟨named, counted, events⟩ := sendable
      have same := receivedWrite_sameContent leftover named counted
        fun cur member => (events cur member).1
      exact ⟨_, .writeEvents same, (writeEvents_received conforms leftover
        ⟨counted, fun cur member => (events cur member).2⟩).wrapped _⟩
  | _ => exact ⟨_, .refl _, Outgoing.Whole.roundTrips conforms leftover sendable⟩

def messageBytes (header : Header) (item : Outgoing) : List UInt8 :=
  headerBytes header ++ item.encoding

@[simp] theorem length_messageBytes (header : Header) (item : Outgoing) :
    (messageBytes header item).length = 18 + item.encoding.length := by
  simp [messageBytes]

/-- A message without credentials, whose length reads back from the prefix. -/
structure Message where
  header : Header
  item : Outgoing
  plain : header.username = none ∧ header.password = none
  sendable : item.Sendable
  readsBack : ReadsBack (messageBytes header item)
  small : 22 + item.encoding.length < 2 ^ 31

def Message.bytes (message : Message) : List UInt8 := messageBytes message.header message.item

theorem Message.sound (message : Message) : SoundFrame (payloadFrame message.bytes) := by
  have small := message.small
  refine message.readsBack.soundFrame ?_
  rw [length_messageBytes]
  omega

def commit : Outgoing := .transactionCommit ⟨7, true⟩

end LibEsClient
