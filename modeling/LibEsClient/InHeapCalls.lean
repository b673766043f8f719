import LibEsClient.EsProtoForward
import LibEsClient.InHeapObjects

/-! Every kind of object of the client: what it owns in the heap, what the functions that
make and destroy it do by value and in the heap, and what is lost on the way. -/

namespace LibEsClient

namespace InHeap

open FlatMemory Proto2 Heaps Assertion

/-! How the process ends, by value and in the heap. -/

def Fault.inHeap : LibEsClient.Fault → Heaps.Fault
  | .assertion => .abort
  | .nullText => .access

def reported {value : Type} (outcome : Except LibEsClient.Fault value) : Except Heaps.Fault value :=
  outcome.mapError Fault.inHeap

theorem reported_ok {value : Type} {outcome : Except LibEsClient.Fault value} {found : value}
    (ok : reported outcome = .ok found) : outcome = .ok found := by
  cases outcome with
  | error fault => cases ok
  | ok given => exact congrArg Except.ok (Except.ok.inj ok)

theorem reported_ne_free {value : Type} (outcome : Except LibEsClient.Fault value) :
    reported outcome ≠ .error .free := by
  intro freed
  cases outcome with
  | ok found => cases freed
  | error fault => cases fault <;> cases freed

/-! The kinds of objects, and the objects by value. -/

inductive Kind
  | message (kind : MessageKind)
  | header
  | parserState
  deriving DecidableEq

inductive Object
  | message (item : Outgoing)
  | header (self : LibEsClient.Header)
  | parserState (bufferSize : Int)

def Object.kind : Object → Kind
  | message item => .message (messageKind item)
  | header _ => .header
  | parserState _ => .parserState

/-- A pointer variable by value: NULL, or the object it points at, which says its kind. -/
inductive Variable
  | null (kind : Kind)
  | holds (object : Object)

def Variable.kind : Variable → Kind
  | null kind => kind
  | holds object => object.kind

def Variable.ofItem (kind : MessageKind) : Option Outgoing → Variable
  | none => null (.message kind)
  | some item => holds (.message item)

def Variable.ofHeader : Option LibEsClient.Header → Variable
  | none => null .header
  | some self => holds (.header self)

section Unpacking

variable (allocator : Allocator Nat Block) (runtime : Runtime) (leftover : Nat → Uuid)

def unpack (kind : MessageKind) : Memory UInt8 → Buffer → Run Pointer :=
  match kind with
  | .deleteStream => esUnpackDeleteStream allocator runtime
  | .deleteStreamCompleted => esUnpackDeleteStreamCompleted allocator runtime
  | .subscribeToStream => esUnpackSubscribeToStream allocator runtime
  | .subscriptionConfirmation => esUnpackSubscriptionConfirmation allocator runtime
  | .subscriptionDropped => esUnpackSubscriptionDropped allocator runtime
  | .scavengeDatabaseCompleted => esUnpackScavengeDatabaseCompleted allocator runtime
  | .scavengeDatabase => esUnpackScavengeDatabase allocator runtime
  | .writeEvents => esUnpackWriteEvents allocator runtime leftover
  | .writeEventsCompleted => esUnpackWriteEventsCompleted allocator runtime
  | .readStreamEvents => esUnpackReadStreamEvents allocator runtime
  | .readEvent => esUnpackReadEvent allocator runtime
  | .readAllEvents => esUnpackReadAllEvents allocator runtime
  | .deletePersistentSubscription => esUnpackDeletePersistentSubscription allocator runtime
  | .transactionCommit => esUnpackTransactionCommit allocator runtime

end Unpacking

def destroy : Kind → Pointer → Run Pointer
  | .message .deleteStream => destroyDeleteStream
  | .message .deleteStreamCompleted => destroyDeleteStreamCompleted
  | .message .subscribeToStream => destroySubscribeToStream
  | .message .subscriptionConfirmation => destroySubscriptionConfirmation
  | .message .subscriptionDropped => destroySubscriptionDropped
  | .message .scavengeDatabaseCompleted => destroyScavengeDatabaseCompleted
  | .message .scavengeDatabase => destroyScavengeDatabase
  | .message .writeEvents => destroyWriteEvents
  | .message .writeEventsCompleted => destroyWriteEventsCompleted
  | .message .readStreamEvents => destroyReadStreamEvents
  | .message .readEvent => destroyReadEvent
  | .message .readAllEvents => destroyReadAllEvents
  | .message .deletePersistentSubscription => destroyDeletePersistentSubscription
  | .message .transactionCommit => destroyTransactionCommit
  | .header => destroyHeader
  | .parserState => destroyParserState

/-- The kinds whose `destroy_` function may be given a pointer to NULL. -/
def Kind.toleratesNull : Kind → Bool
  | message .subscriptionConfirmation => true
  | message .subscriptionDropped => true
  | message .scavengeDatabaseCompleted => true
  | message .scavengeDatabase => true
  | message .readAllEvents => true
  | message .transactionCommit => true
  | message _ => false
  | header => true
  | parserState => true

/-! What an object owns. -/

def itemAt : Outgoing → Pointer → Assertion Nat Block
  | .deleteStream item => recordAt [item.eventStreamId] fun copy => .deleteStream {
      eventStreamId := copy 0
      expectedVersion := item.expectedVersion
      requireMaster := item.requireMaster
      hardDelete := item.hardDelete }
  | .deleteStreamCompleted item => recordAt [item.message] fun copy => .deleteStreamCompleted {
      message := copy 0
      preparePosition := item.preparePosition
      commitPosition := item.commitPosition
      result := item.result }
  | .subscribeToStream item => recordAt [item.eventStreamId] fun copy => .subscribeToStream {
      eventStreamId := copy 0
      resolveLinkTos := item.resolveLinkTos }
  | .subscriptionConfirmation item => recordAt [] fun _ => .subscriptionConfirmation item
  | .subscriptionDropped item => recordAt [] fun _ => .subscriptionDropped item
  | .scavengeDatabaseCompleted item => recordAt [item.error] fun copy =>
      .scavengeDatabaseCompleted {
        result := item.result
        error := copy 0
        totalTimeMs := item.totalTimeMs
        totalSpaceSaved := item.totalSpaceSaved }
  | .scavengeDatabase item => recordAt [] fun _ => .scavengeDatabase item
  | .writeEvents item => writeEventsAt item
  | .writeEventsCompleted item => recordAt [item.message] fun copy => .writeEventsCompleted {
      message := copy 0
      firstEventNumber := item.firstEventNumber
      lastEventNumber := item.lastEventNumber
      preparePosition := item.preparePosition
      commitPosition := item.commitPosition
      result := item.result }
  | .readStreamEvents item => recordAt [item.eventStreamId] fun copy => .readStreamEvents {
      eventStreamId := copy 0
      fromEventNumber := item.fromEventNumber
      requireMaster := item.requireMaster
      resolveLinkTos := item.resolveLinkTos
      maxCount := item.maxCount }
  | .readEvent item => recordAt [item.eventStreamId] fun copy => .readEvent {
      eventStreamId := copy 0
      eventNumber := item.eventNumber
      requireMaster := item.requireMaster
      resolveLinkTos := item.resolveLinkTos }
  | .readAllEvents item => recordAt [] fun _ => .readAllEvents item
  | .deletePersistentSubscription item =>
      recordAt [item.eventStreamId, item.subscriptionGroupName] fun copy =>
        .deletePersistentSubscription {
          eventStreamId := copy 0
          subscriptionGroupName := copy 1 }
  | .transactionCommit item => recordAt [] fun _ => .transactionCommit item

def headerAt (self : LibEsClient.Header) (item : Pointer) : Assertion Nat Block :=
  any fun place : Pointer × Pointer × Pointer =>
    pointsTo item (.header {
      command := self.command
      flags := self.flags
      correlationId := place.1
      username := place.2.1
      password := place.2.2 }) *
    (textAt place.2.1 self.username *
      (textAt place.2.2 self.password * pointsTo place.1 (.uuid self.correlationId)))

def parserStateAt (bufferSize : Int) (item : Pointer) : Assertion Nat Block :=
  any fun bufferStart : Pointer =>
    pointsTo item (.parserState {
      bufferStart := bufferStart
      bufferEnd := bufferSize
      parserRead := 0
      bufferWrite := 0 }) *
    pointsTo bufferStart (.bytes bufferSize)

def objectAt : Object → Pointer → Assertion Nat Block
  | .message item => itemAt item
  | .header self => headerAt self
  | .parserState bufferSize => parserStateAt bufferSize

def heldAt : Variable → Pointer → Assertion Nat Block
  | .null _, pointer => fact (pointer = none)
  | .holds object, pointer => objectAt object pointer

theorem not_recordAt_null (texts : List (Option CString)) (stored : (Nat → Pointer) → Block)
    (heap : Heap Nat Block) : ¬recordAt texts stored none heap := by
  rintro ⟨copies, holds⟩
  exact not_pointsTo_null _ _ heap holds

theorem not_objectAt_null (object : Object) (heap : Heap Nat Block) :
    ¬objectAt object none heap := by
  cases object with
  | message item =>
      cases item with
      | writeEvents write =>
          rintro ⟨place, holds⟩
          exact not_pointsTo_null _ _ heap holds
      | _ =>
          simp only [objectAt, itemAt]
          exact not_recordAt_null _ _ heap
  | header self =>
      rintro ⟨place, holds⟩
      exact not_pointsTo_null _ _ heap holds
  | parserState bufferSize =>
      rintro ⟨bufferStart, holds⟩
      exact not_pointsTo_null _ _ heap holds

/-! Making objects. -/

section Making

variable (allocator : Allocator Nat Block) {runtime : Runtime} {leftover : Nat → Uuid}
  {memory : Memory UInt8} {buffer : Buffer}

section Records

variable {kind : MessageKind} {message : Type} {descriptor : MessageDescriptor message}
  {texts : message → List (Option CString)} {fill : message → (Nat → Pointer) → Block}

theorem unpackRecord_implements {struct : Type}
    {convert : message → Except LibEsClient.Fault struct} {wrap : struct → Outgoing}
    (accepts : ∀ msg, (∀ text ∈ texts msg, text ≠ none) →
      ∃ item, convert msg = .ok item ∧ itemAt (wrap item) = recordAt (texts msg) (fill msg))
    (refuses : ∀ msg, none ∈ texts msg → convert msg = .error .nullText) :
    Implements 1 (unpackRecord allocator runtime descriptor texts fill memory buffer)
      (reported ((unpackFrom runtime descriptor memory buffer convert).map (Option.map wrap)))
      fun item => heldAt (.ofItem kind item) := by
  cases arrived : runtime.unpack descriptor (memory.read buffer.location (sizeT buffer.length)) with
  | none =>
      simp only [unpackFrom, arrived]
      exact triple_unpackRecord_null allocator runtime fill arrived
  | some msg =>
      simp only [unpackFrom, arrived]
      by_cases present : ∀ text ∈ texts msg, text ≠ none
      · obtain ⟨item, converted, same⟩ := accepts msg present
        rw [converted]
        have triple := triple_unpackRecord allocator runtime fill arrived present
        rw [← same] at triple
        exact triple
      · have absent : none ∈ texts msg := by simpa using present
        rw [refuses msg absent]
        exact faults_unpackRecord allocator runtime fill arrived absent

theorem unpackText_implements {struct : Type} {text : message → Option CString}
    {convert : message → CString → struct} {wrap : struct → Outgoing}
    (same : ∀ msg found, text msg = some found →
      itemAt (wrap (convert msg found)) = recordAt [text msg] (fill msg)) :
    Implements 1
      (unpackRecord allocator runtime descriptor (fun msg => [text msg]) fill memory buffer)
      (reported ((unpackFrom runtime descriptor memory buffer fun msg => do
        return convert msg (← LibEsClient.strdup (text msg))).map (Option.map wrap)))
      fun item => heldAt (.ofItem kind item) := by
  refine unpackRecord_implements allocator (fun msg present => ?_) fun msg absent => ?_
  · obtain ⟨found, there⟩ := Option.ne_none_iff_exists'.mp (present (text msg) (by simp))
    exact ⟨convert msg found, by rw [there]; rfl, same msg found there⟩
  · have missing : text msg = none := (List.mem_singleton.mp absent).symm
    rw [missing]
    rfl

theorem unpackPlain_implements {struct : Type} {convert : message → struct}
    {wrap : struct → Outgoing}
    (same : ∀ msg, itemAt (wrap (convert msg)) = recordAt [] (fill msg)) :
    Implements 1 (unpackRecord allocator runtime descriptor (fun _ => []) fill memory buffer)
      (reported ((unpackFrom runtime descriptor memory buffer fun msg => .ok (convert msg)).map
        (Option.map wrap))) fun item => heldAt (.ofItem kind item) :=
  unpackRecord_implements allocator (fun msg _ => ⟨convert msg, rfl, same msg⟩) nofun

end Records

theorem esUnpackWriteEvents_implements :
    Implements 1 (esUnpackWriteEvents allocator runtime leftover memory buffer)
      (reported ((LibEsClient.esUnpackWriteEvents runtime leftover memory buffer).map
        (Option.map .writeEvents))) fun item => heldAt (.ofItem .writeEvents item) := by
  cases arrived : runtime.unpack Messages.writeEventsDescriptor
    (memory.read buffer.location (sizeT buffer.length)) with
  | none =>
      simp only [LibEsClient.esUnpackWriteEvents, unpackFrom, arrived]
      exact triple_esUnpackWriteEvents_null allocator arrived
  | some msg =>
      by_cases texts : Texts msg
      · rw [esUnpackWriteEvents_ok arrived texts]
        exact triple_esUnpackWriteEvents allocator arrived texts
      · rw [esUnpackWriteEvents_untexted arrived texts]
        exact faults_esUnpackWriteEvents allocator arrived texts

theorem unpack_implements (kind : MessageKind) :
    Implements 1 (unpack allocator runtime leftover kind memory buffer)
      (reported (unpackValue runtime leftover kind memory buffer))
      fun item => heldAt (.ofItem kind item) := by
  cases kind with
  | deleteStream =>
      simp only [unpack, esUnpackDeleteStream, unpackValue, LibEsClient.esUnpackDeleteStream]
      refine unpackText_implements allocator fun msg found there => ?_
      rw [there]
      rfl
  | deleteStreamCompleted =>
      simp only [unpack, esUnpackDeleteStreamCompleted, unpackValue,
        LibEsClient.esUnpackDeleteStreamCompleted]
      refine unpackText_implements allocator fun msg found there => ?_
      rw [there]
      rfl
  | subscribeToStream =>
      simp only [unpack, esUnpackSubscribeToStream, unpackValue,
        LibEsClient.esUnpackSubscribeToStream]
      refine unpackText_implements allocator fun msg found there => ?_
      rw [there]
      rfl
  | subscriptionConfirmation =>
      simp only [unpack, esUnpackSubscriptionConfirmation, unpackValue,
        LibEsClient.esUnpackSubscriptionConfirmation]
      exact unpackPlain_implements allocator fun _ => rfl
  | subscriptionDropped =>
      simp only [unpack, esUnpackSubscriptionDropped, unpackValue,
        LibEsClient.esUnpackSubscriptionDropped]
      exact unpackPlain_implements allocator fun _ => rfl
  | scavengeDatabaseCompleted =>
      simp only [unpack, esUnpackScavengeDatabaseCompleted, unpackValue,
        LibEsClient.esUnpackScavengeDatabaseCompleted]
      refine unpackText_implements allocator fun msg found there => ?_
      rw [there]
      rfl
  | scavengeDatabase =>
      simp only [unpack, esUnpackScavengeDatabase, unpackValue,
        LibEsClient.esUnpackScavengeDatabase]
      exact unpackPlain_implements allocator fun _ => rfl
  | writeEvents =>
      exact esUnpackWriteEvents_implements allocator
  | writeEventsCompleted =>
      simp only [unpack, esUnpackWriteEventsCompleted, unpackValue,
        LibEsClient.esUnpackWriteEventsCompleted]
      refine unpackText_implements allocator fun msg found there => ?_
      rw [there]
      rfl
  | readStreamEvents =>
      simp only [unpack, esUnpackReadStreamEvents, unpackValue,
        LibEsClient.esUnpackReadStreamEvents]
      refine unpackText_implements allocator fun msg found there => ?_
      rw [there]
      rfl
  | readEvent =>
      simp only [unpack, esUnpackReadEvent, unpackValue, LibEsClient.esUnpackReadEvent]
      refine unpackText_implements allocator fun msg found there => ?_
      rw [there]
      rfl
  | readAllEvents =>
      simp only [unpack, esUnpackReadAllEvents, unpackValue, LibEsClient.esUnpackReadAllEvents]
      exact unpackPlain_implements allocator fun _ => rfl
  | deletePersistentSubscription =>
      simp only [unpack, esUnpackDeletePersistentSubscription, unpackValue,
        LibEsClient.esUnpackDeletePersistentSubscription]
      refine unpackRecord_implements allocator (fun msg present => ?_) fun msg absent => ?_
      · obtain ⟨stream, named⟩ :=
          Option.ne_none_iff_exists'.mp (present msg.eventStreamId (by simp))
        obtain ⟨group, grouped⟩ :=
          Option.ne_none_iff_exists'.mp (present msg.subscriptionGroupName (by simp))
        rw [named, grouped]
        exact ⟨_, rfl, rfl⟩
      · cases named : msg.eventStreamId with
        | none => rfl
        | some stream =>
            have missing : none = msg.subscriptionGroupName := by simpa [named] using absent
            rw [← missing]
            rfl
  | transactionCommit =>
      simp only [unpack, esUnpackTransactionCommit, unpackValue,
        LibEsClient.esUnpackTransactionCommit]
      exact unpackPlain_implements allocator fun _ => rfl

theorem triple_createHeader (command flags : UInt8) (correlationId : Uuid)
    (username password : Option CString) :
    Triple 1 (createHeader allocator command flags correlationId username password)
      (headerAt (LibEsClient.createHeader command flags correlationId username password)) := by
  refine Triple.malloc_bind fun ret => Triple.malloc_bind fun id => ?_
  rw [← one_mul (_ * _)]
  refine Triple.bind_frame (triple_strdupUnlessNull allocator username) fun name => ?_
  rw [← one_mul (_ * _)]
  refine Triple.bind_frame (triple_strdupUnlessNull allocator password) fun secret => ?_
  rw [mul_one, mul_comm (pointsTo id _), mul_left_comm (textAt name _), mul_left_comm]
  refine Triple.store_bind ?_
  rw [mul_left_comm (textAt secret _)]
  exact Triple.pure fun heap holds => ⟨(id, name, secret), holds⟩

theorem triple_readHeader :
    Triple 1 (readHeader allocator memory buffer none) fun found =>
      fact (found.1 = (LibEsClient.readHeader memory buffer none).1) *
        heldAt (.ofHeader (LibEsClient.readHeader memory buffer none).2) found.2 := by
  rw [readHeader, LibEsClient.readHeader]
  by_cases short : buffer.length < mandatorySize
  · rw [if_pos short, if_pos short]
    exact Triple.pure fun heap empty => (fact_mul_apply _ _ _).mpr ⟨rfl, rfl, empty⟩
  · rw [if_neg short, if_neg short]
    refine Triple.bind (triple_createHeader allocator _ _ _ _ _) fun found => ?_
    exact Triple.pure fun heap holds => (fact_mul_apply _ _ _).mpr ⟨rfl, holds⟩

theorem triple_createParserState (bufferSize : Int) :
    Triple 1 (createParserState allocator bufferSize) (parserStateAt bufferSize) := by
  refine Triple.malloc_bind fun ret => Triple.malloc_bind fun bufferStart => ?_
  rw [mul_left_comm]
  refine Triple.store_bind ?_
  exact Triple.pure fun heap holds => ⟨bufferStart, by rwa [mul_one] at holds⟩

end Making

/-! What nothing points at any more: an id, a text, an event with its type, or the array
and the messages that the events of a write were copied into. -/

inductive Lost
  | uuid (value : Uuid)
  | text (value : CString)
  | event (cur : LibEsClient.NewEvent)
  | messages (copied : List Messages.NewEvent)

def lostAt : Lost → Assertion Nat Block
  | .uuid value => any fun place : Pointer => pointsTo place (.uuid value)
  | .text value => any fun place : Pointer => pointsTo place (.text value)
  | .event cur => any fun entry : Pointer => eventAt entry cur
  | .messages copied => any fun place : Pointer × List Pointer =>
      pointsTo place.1 (.pointers place.2) * each messageAt place.2 copied

def allLost (lost : Multiset Lost) : Assertion Nat Block := (lost.map lostAt).prod

@[simp] theorem allLost_zero : allLost 0 = 1 := by
  rw [allLost, Multiset.map_zero, Multiset.prod_zero]

@[simp] theorem allLost_add (lost more : Multiset Lost) :
    allLost (lost + more) = allLost lost * allLost more := by
  rw [allLost, Multiset.map_add, Multiset.prod_add]
  rfl

@[simp] theorem allLost_singleton (lost : Lost) : allLost {lost} = lostAt lost := by
  rw [allLost, Multiset.map_singleton, Multiset.prod_singleton]

def textLost : Option CString → Multiset Lost
  | none => 0
  | some text => {.text text}

theorem allLost_texts {texts : List (Option CString)} {heap : Heap Nat Block}
    (left : textsLost texts heap) : allLost (texts.map textLost).sum heap := by
  obtain ⟨copies, inCopies⟩ := left
  have held : ∀ pointer text heap, textAt pointer text heap → allLost (textLost text) heap := by
    intro pointer text heap holds
    cases text with
    | none =>
        rw [textLost, allLost_zero]
        exact holds.2
    | some text =>
        rw [textLost, allLost_singleton]
        exact ⟨pointer, holds⟩
  have each := each_entails textAt held inCopies
  clear inCopies
  induction texts generalizing heap with
  | nil => rwa [List.map_nil, List.sum_nil, allLost_zero]
  | cons text rest ih =>
      rw [List.map_cons, List.prod_cons] at each
      rw [List.map_cons, List.sum_cons, allLost_add]
      exact mul_mono (fun _ => id) (fun _ => ih) heap each

theorem allLost_events {write : LibEsClient.WriteEvents} {heap : Heap Nat Block}
    (left : eventsLost write heap) :
    allLost ((write.events.drop write.numEvents.toInt.toNat).map Lost.event : List Lost) heap := by
  obtain ⟨entries, inEntries⟩ := left
  rw [allLost, Multiset.map_coe, Multiset.prod_coe, List.map_map]
  exact each_entails eventAt (fun entry cur heap holds => ⟨entry, holds⟩) inEntries

/-! Packing a write, whose messages are not freed when they do not fit. -/

def unfreed (runtime : Runtime) (write : LibEsClient.WriteEvents) (buffer : Buffer) :
    Multiset Lost :=
  if (runtime.getPackedSize Messages.writeEventsDescriptor
      (writeEventsMessage write (write.counted.map newEventMessage))).toUInt32 >
        UInt32.ofInt buffer.length then {.messages (write.counted.map newEventMessage)}
  else 0

theorem esPackWriteEvents_implements (allocator : Allocator Nat Block) (runtime : Runtime)
    (write : LibEsClient.WriteEvents) (memory : Memory UInt8) (buffer : Buffer) :
    Implements 1 (esPackWriteEvents allocator runtime write memory buffer)
      (reported (LibEsClient.esPackWriteEvents runtime write memory buffer)) fun result found =>
        fact (found = result) * allLost (unfreed runtime write buffer) := by
  rw [esPackWriteEvents, LibEsClient.esPackWriteEvents]
  by_cases negative : write.numEvents < 0
  · rw [if_pos negative]
    have stopped : assert (write.numEvents ≥ 0) = .error .assertion :=
      if_neg (by simpa using negative)
    rw [stopped]
    exact Faults.fail .abort
  · rw [if_neg negative, assert_ok (by simpa using negative)]
    by_cases admitted : ∀ cur ∈ write.counted, cur.Admitted
    · rw [mapM_packEvent admitted]
      change Triple 1 _ _
      refine Triple.malloc_bind fun events => ?_
      have loop := triple_packEvents allocator events admitted [] []
      rw [each_nil] at loop
      refine Triple.bind loop fun entries => ?_
      rw [List.nil_append]
      by_cases large : (runtime.getPackedSize Messages.writeEventsDescriptor
          (writeEventsMessage write (write.counted.map newEventMessage))).toUInt32 >
            UInt32.ofInt buffer.length
      · simp only [if_pos large, unfreed, packInto]
        refine Triple.pure fun heap holds => (fact_mul_apply _ _ _).mpr ⟨rfl, ?_⟩
        rw [allLost_singleton]
        exact ⟨(events, entries), holds⟩
      · simp only [if_neg large, unfreed, packInto]
        rw [mul_comm]
        refine Triple.bind_frame (Triple.forM (fun ev entry => triple_free entry _) entries _)
          fun _ => ?_
        rw [mul_comm]
        refine Triple.free_bind ?_
        exact Triple.pure fun heap empty => (fact_mul_apply _ _ _).mpr
          ⟨rfl, by rwa [allLost_zero]⟩
    · have refused : ∃ cur ∈ write.counted, ¬cur.Admitted := by simpa using admitted
      rw [mapM_packEvent_error refused]
      exact Faults.malloc_bind fun events => Faults.bind (faults_packEvents allocator refused [] _)

/-! What an object loses when it is destroyed, and how many blocks all these are. -/

def textBlocks (text : Option CString) : Nat := if text = none then 0 else 1

def eventBlocks (cur : LibEsClient.NewEvent) : Nat := 1 + textBlocks cur.eventType

def texts : Outgoing → List (Option CString)
  | .deleteStream item => [item.eventStreamId]
  | .deleteStreamCompleted item => [item.message]
  | .subscribeToStream item => [item.eventStreamId]
  | .scavengeDatabaseCompleted item => [item.error]
  | .writeEvents item => [item.eventStreamId]
  | .writeEventsCompleted item => [item.message]
  | .readStreamEvents item => [item.eventStreamId]
  | .readEvent item => [item.eventStreamId]
  | .deletePersistentSubscription item => [item.eventStreamId, item.subscriptionGroupName]
  | _ => []

def Object.blocks : Object → Nat
  | message (.writeEvents item) =>
      2 + textBlocks item.eventStreamId + (item.events.map eventBlocks).sum
  | message item => 1 + ((texts item).map textBlocks).sum
  | header self => 2 + textBlocks self.username + textBlocks self.password
  | parserState _ => 2

def Object.lost : Object → Multiset Lost
  | message (.scavengeDatabaseCompleted item) => textLost item.error
  | message (.writeEvents item) =>
      ((item.events.drop item.numEvents.toInt.toNat).map Lost.event : List Lost)
  | header self => {.uuid self.correlationId}
  | _ => 0

def Lost.blocks : Lost → Nat
  | uuid _ => 1
  | text _ => 1
  | event cur => eventBlocks cur
  | messages copied => 1 + copied.length

theorem owns_textAt (pointer : Pointer) (text : Option CString) :
    (textAt pointer text).Owns (textBlocks text) := by
  cases text with
  | none => exact owns_fact _
  | some text => exact owns_pointsTo _ _

theorem owns_texts (copies : List Pointer) (texts : List (Option CString)) :
    (each textAt copies texts).Owns (texts.map textBlocks).sum :=
  owns_each copies fun copy text _ => owns_textAt copy text

theorem owns_recordAt (texts : List (Option CString)) (stored : (Nat → Pointer) → Block)
    (item : Pointer) : (recordAt texts stored item).Owns (1 + (texts.map textBlocks).sum) :=
  Owns.any fun copies => (owns_pointsTo _ _).mul (owns_texts copies texts)

theorem owns_eventAt (entry : Pointer) (cur : LibEsClient.NewEvent) :
    (eventAt entry cur).Owns (eventBlocks cur) :=
  Owns.any fun _ => (owns_pointsTo _ _).mul (owns_textAt _ _)

theorem owns_events (entries : List Pointer) (events : List LibEsClient.NewEvent) :
    (each eventAt entries events).Owns (events.map eventBlocks).sum :=
  owns_each entries fun entry cur _ => owns_eventAt entry cur

theorem owns_objectAt (object : Object) (item : Pointer) :
    (objectAt object item).Owns object.blocks := by
  cases object with
  | message given =>
      cases given with
      | writeEvents write =>
          refine Owns.of_eq (Owns.any fun place => (owns_pointsTo _ _).mul
            ((owns_textAt _ _).mul ((owns_pointsTo _ _).mul (owns_events _ _)))) ?_
          simp only [Object.blocks]
          omega
      | _ =>
          simp only [objectAt, itemAt, Object.blocks, texts]
          exact owns_recordAt _ _ _
  | header self =>
      refine Owns.of_eq (Owns.any fun place => (owns_pointsTo _ _).mul
        ((owns_textAt _ _).mul ((owns_textAt _ _).mul (owns_pointsTo _ _)))) ?_
      simp only [Object.blocks]
      omega
  | parserState bufferSize =>
      exact Owns.any fun _ => (owns_pointsTo _ _).mul (owns_pointsTo _ _)

theorem owns_messages (entries : List Pointer) (messages : List Messages.NewEvent) :
    (each messageAt entries messages).Owns messages.length := by
  have single : (each messageAt entries messages).Owns (messages.map fun _ => 1).sum :=
    owns_each entries fun entry ev _ => owns_pointsTo entry (Block.newEventMessage ev)
  simpa using single

theorem owns_lostAt (lost : Lost) : (lostAt lost).Owns lost.blocks := by
  cases lost with
  | uuid value => exact Owns.any fun place => owns_pointsTo place _
  | text value => exact Owns.any fun place => owns_pointsTo place _
  | event cur => exact Owns.any fun entry => owns_eventAt entry cur
  | messages copied =>
      exact Owns.any fun place => (owns_pointsTo _ _).mul (owns_messages place.2 copied)

theorem owns_allLost (lost : Multiset Lost) :
    (allLost lost).Owns (lost.map Lost.blocks).sum := by
  induction lost using Multiset.induction with
  | empty =>
      rw [allLost_zero]
      exact owns_one
  | cons first rest ih =>
      rw [← Multiset.singleton_add, allLost_add, allLost_singleton, Multiset.map_add,
        Multiset.sum_add, Multiset.map_singleton, Multiset.sum_singleton]
      exact (owns_lostAt first).mul ih

/-! Destroying objects. -/

section Destroying

variable {texts : List (Option CString)} {stored : (Nat → Pointer) → Block} {item : Pointer}

theorem destroys_owner {owned : Block → Option (List Pointer)} (reads : ∀ copies : List Pointer,
      copies.length = texts.length → owned (stored fun i => copies.getD i none) = some copies) :
    Triple (recordAt texts stored item) (destroyOwner owned item) fun left =>
      fact (left = none) * allLost 0 := by
  refine Triple.weaken (triple_destroyOwner reads item) fun left heap done => ?_
  rwa [allLost_zero, mul_one]

theorem destroys_plain :
    Triple (recordAt texts stored item) (destroyPlain item) fun left =>
      fact (left = none) * allLost (texts.map textLost).sum :=
  Triple.weaken (triple_destroyPlain texts stored item) fun _ =>
    mul_mono (fun _ => id) fun _ => allLost_texts

end Destroying

theorem destroys_item (given : Outgoing) (item : Pointer) :
    Triple (itemAt given item) (destroy (.message (messageKind given)) item) fun left =>
      fact (left = none) * allLost (Object.message given).lost := by
  cases given with
  | deleteStream value =>
      simp only [itemAt, messageKind, destroy, destroyDeleteStream, Object.lost]
      refine destroys_owner fun copies length => ?_
      obtain ⟨copy, rfl⟩ := List.length_eq_one_iff.mp length
      rfl
  | deleteStreamCompleted value =>
      simp only [itemAt, messageKind, destroy, destroyDeleteStreamCompleted, Object.lost]
      refine destroys_owner fun copies length => ?_
      obtain ⟨copy, rfl⟩ := List.length_eq_one_iff.mp length
      rfl
  | subscribeToStream value =>
      simp only [itemAt, messageKind, destroy, destroySubscribeToStream, Object.lost]
      refine destroys_owner fun copies length => ?_
      obtain ⟨copy, rfl⟩ := List.length_eq_one_iff.mp length
      rfl
  | subscriptionConfirmation value =>
      simp only [itemAt, messageKind, destroy, destroySubscriptionConfirmation, Object.lost]
      exact destroys_plain
  | subscriptionDropped value =>
      simp only [itemAt, messageKind, destroy, destroySubscriptionDropped, Object.lost]
      exact destroys_plain
  | scavengeDatabaseCompleted value =>
      simp only [itemAt, messageKind, destroy, destroyScavengeDatabaseCompleted, Object.lost]
      have single : ([value.error].map textLost).sum = textLost value.error := List.sum_singleton
      rw [← single]
      exact destroys_plain
  | scavengeDatabase value =>
      simp only [itemAt, messageKind, destroy, destroyScavengeDatabase, Object.lost]
      exact destroys_plain
  | writeEvents value =>
      simp only [itemAt, messageKind, destroy, Object.lost]
      exact Triple.weaken (triple_destroyWriteEvents value item) fun _ =>
        mul_mono (fun _ => id) fun _ => allLost_events
  | writeEventsCompleted value =>
      simp only [itemAt, messageKind, destroy, destroyWriteEventsCompleted, Object.lost]
      refine destroys_owner fun copies length => ?_
      obtain ⟨copy, rfl⟩ := List.length_eq_one_iff.mp length
      rfl
  | readStreamEvents value =>
      simp only [itemAt, messageKind, destroy, destroyReadStreamEvents, Object.lost]
      refine destroys_owner fun copies length => ?_
      obtain ⟨copy, rfl⟩ := List.length_eq_one_iff.mp length
      rfl
  | readEvent value =>
      simp only [itemAt, messageKind, destroy, destroyReadEvent, Object.lost]
      refine destroys_owner fun copies length => ?_
      obtain ⟨copy, rfl⟩ := List.length_eq_one_iff.mp length
      rfl
  | readAllEvents value =>
      simp only [itemAt, messageKind, destroy, destroyReadAllEvents, Object.lost]
      exact destroys_plain
  | deletePersistentSubscription value =>
      simp only [itemAt, messageKind, destroy, destroyDeletePersistentSubscription, Object.lost]
      refine destroys_owner fun copies length => ?_
      obtain ⟨stream, group, rfl⟩ := List.length_eq_two.mp length
      rfl
  | transactionCommit value =>
      simp only [itemAt, messageKind, destroy, destroyTransactionCommit, Object.lost]
      exact destroys_plain

theorem destroys_header (self : LibEsClient.Header) (item : Pointer) :
    Triple (headerAt self item) (destroyHeader item) fun left =>
      fact (left = none) * allLost {.uuid self.correlationId} := by
  refine Triple.of_any fun ⟨id, name, secret⟩ => ?_
  cases item with
  | none => exact Triple.of_null
  | some header =>
      refine Triple.loadAs_bind rfl ?_
      refine Triple.reorder (mul_left_comm _ _ _) ?_
      refine Triple.bind_frame (triple_freeText name self.username) fun _ => ?_
      rw [one_mul, mul_left_comm]
      refine Triple.bind_frame (triple_freeText secret self.password) fun _ => ?_
      rw [one_mul]
      refine Triple.free_bind ?_
      refine Triple.pure fun heap holds => (fact_mul_apply _ _ _).mpr ⟨rfl, ?_⟩
      rw [allLost_singleton]
      exact ⟨id, holds⟩

theorem destroys_parserState (bufferSize : Int) (item : Pointer) :
    Triple (parserStateAt bufferSize item) (destroyParserState item) fun left =>
      fact (left = none) * allLost 0 := by
  refine Triple.of_any fun bufferStart => ?_
  cases item with
  | none => exact Triple.of_null
  | some state =>
      refine Triple.loadAs_bind rfl ?_
      rw [mul_comm]
      refine Triple.free_bind ?_
      rw [← mul_one (pointsTo _ _)]
      refine Triple.free_bind ?_
      exact Triple.pure fun heap empty => (fact_mul_apply _ _ _).mpr
        ⟨rfl, by rwa [allLost_zero]⟩

/-- What the `destroy_` function of a variable's kind loses. -/
def destroyed : Variable → Except Heaps.Fault (Multiset Lost)
  | .null kind => if kind.toleratesNull then .ok 0 else .error .access
  | .holds object => .ok object.lost

theorem destroys_null (kind : Kind) :
    Implements 1 (destroy kind none) (destroyed (.null kind)) fun lost left =>
      fact (left = none) * allLost lost := by
  have nothing : ∀ heap : Heap Nat Block, (1 : Assertion Nat Block) heap →
      (fact ((none : Pointer) = none) * allLost 0 : Assertion Nat Block) heap :=
    fun heap empty => (fact_mul_apply _ _ _).mpr ⟨rfl, by rwa [allLost_zero]⟩
  cases kind with
  | header => exact Triple.pure nothing
  | parserState => exact Triple.pure nothing
  | message kind =>
      cases kind with
      | writeEvents => exact Faults.bind (faults_loadAs_null _)
      | subscriptionConfirmation | subscriptionDropped | scavengeDatabaseCompleted
      | scavengeDatabase | readAllEvents | transactionCommit => exact Triple.pure nothing
      | _ => exact faults_destroyOwner_null _

theorem destroy_implements (given : Variable) (item : Pointer) :
    Implements (heldAt given item) (destroy given.kind item) (destroyed given) fun lost left =>
      fact (left = none) * allLost lost := by
  cases given with
  | null kind =>
      rw [heldAt, ← mul_one (fact _)]
      refine Implements.of_fact fun null => ?_
      rw [null]
      exact destroys_null kind
  | holds object =>
      cases object with
      | message given => exact destroys_item given item
      | header self => exact destroys_header self item
      | parserState bufferSize => exact destroys_parserState bufferSize item

end InHeap

end LibEsClient
