import LibEsClient.InHeap
import LibEsClient.EsProtoReencode

/-! What each object owns in the heap, and what the functions that allocate and free it
do to that: a struct with its strings, or the array of a write with its events. -/

namespace LibEsClient

namespace InHeap

open FlatMemory Proto2 Heaps Assertion

/-! Strings, and structs with the strings they point at. -/

def textAt (pointer : Pointer) : Option CString → Assertion Nat Block
  | none => fact (pointer = none)
  | some text => pointsTo pointer (.text text)

def recordAt (texts : List (Option CString)) (stored : (Nat → Pointer) → Block)
    (pointer : Pointer) : Assertion Nat Block :=
  any fun copies : List Pointer =>
    pointsTo pointer (stored fun i => copies.getD i none) * each textAt copies texts

theorem triple_freeText (pointer : Pointer) (text : Option CString) :
    Triple (textAt pointer text) (free pointer) fun _ => 1 := by
  cases text with
  | none =>
      rw [textAt, ← mul_one (fact _)]
      refine Triple.of_fact fun null => ?_
      rw [null]
      exact triple_free_null
  | some text => exact triple_free pointer _

section Allocating

variable (allocator : Allocator Nat Block)

theorem triple_strdup {text : Option CString} (present : text ≠ none) :
    Triple 1 (strdup allocator text) fun pointer => textAt pointer text := by
  obtain ⟨found, rfl⟩ := Option.ne_none_iff_exists'.mp present
  exact triple_malloc allocator _

theorem triple_strdupUnlessNull (text : Option CString) :
    Triple 1 (strdupUnlessNull allocator text) fun pointer => textAt pointer text := by
  cases text with
  | none => exact Triple.pure fun heap empty => ⟨rfl, empty⟩
  | some text => exact triple_malloc allocator _

theorem faults_strdups {texts : List (Option CString)} (absent : none ∈ texts)
    (held : Assertion Nat Block) :
    Faults held (texts.mapM (strdup allocator)) .access := by
  induction texts generalizing held with
  | nil => simp at absent
  | cons text rest ih =>
      rw [List.mapM_cons]
      cases text with
      | none => exact Faults.bind (Faults.fail .access)
      | some text =>
          have later : none ∈ rest := by simpa using absent
          exact Faults.malloc_bind fun pointer => Faults.bind (ih later _)

variable (runtime : Runtime) {message : Type} {descriptor : MessageDescriptor message}
  {texts : message → List (Option CString)} (fill : message → (Nat → Pointer) → Block)
  {memory : Memory UInt8} {buffer : Buffer}

theorem triple_unpackRecord_null
    (nothing : runtime.unpack descriptor
      (memory.read buffer.location (sizeT buffer.length)) = none) :
    Triple 1 (unpackRecord allocator runtime descriptor texts fill memory buffer) fun item =>
      fact (item = none) := by
  simp only [unpackRecord, nothing]
  exact Triple.pure fun heap empty => ⟨rfl, empty⟩

section Arrived

variable {msg : message}
  (arrived : runtime.unpack descriptor
    (memory.read buffer.location (sizeT buffer.length)) = some msg)

include arrived

theorem triple_unpackRecord (present : ∀ text ∈ texts msg, text ≠ none) :
    Triple 1 (unpackRecord allocator runtime descriptor texts fill memory buffer)
      (recordAt (texts msg) (fill msg)) := by
  simp only [unpackRecord, arrived]
  refine Triple.malloc_bind fun unpacked => ?_
  refine Triple.malloc_bind fun ret => ?_
  rw [← one_mul (_ * _)]
  refine Triple.bind_frame
    (Triple.mapM fun text member => triple_strdup allocator (present text member)) fun copies => ?_
  refine Triple.reorder (mul_left_comm _ _ _) (Triple.store_bind ?_)
  have order : pointsTo ret (fill msg fun i => copies.getD i none) *
      (each textAt copies (texts msg) * (pointsTo unpacked .message * 1)) =
        pointsTo unpacked .message *
          (pointsTo ret (fill msg fun i => copies.getD i none) *
            each textAt copies (texts msg)) := by
    rw [mul_one]
    ac_rfl
  refine Triple.reorder order (Triple.free_bind ?_)
  exact Triple.pure fun heap holds => ⟨copies, holds⟩

theorem faults_unpackRecord (absent : none ∈ texts msg) :
    Faults 1 (unpackRecord allocator runtime descriptor texts fill memory buffer) .access := by
  simp only [unpackRecord, arrived]
  refine Faults.malloc_bind fun unpacked => Faults.malloc_bind fun ret => ?_
  exact Faults.bind (faults_strdups allocator absent _)

end Arrived

end Allocating

/-- The strings a `destroy_` function frees are all that the struct points at. -/
theorem triple_destroyOwner {texts : List (Option CString)} {stored : (Nat → Pointer) → Block}
    {owned : Block → Option (List Pointer)} (reads : ∀ copies : List Pointer,
      copies.length = texts.length → owned (stored fun i => copies.getD i none) = some copies)
    (item : Pointer) :
    Triple (recordAt texts stored item) (destroyOwner owned item) fun left =>
      fact (left = none) := by
  refine Triple.of_any fun copies => ?_
  rw [each, mul_left_comm]
  refine Triple.of_fact fun same => ?_
  refine Triple.loadAs_bind (reads copies same) ?_
  have order : pointsTo item (stored fun i => copies.getD i none) *
      (List.zipWith textAt copies texts).prod =
        each textAt copies texts * pointsTo item (stored fun i => copies.getD i none) := by
    rw [each, fact_of_true same, one_mul, mul_comm]
  refine Triple.reorder order ?_
  refine Triple.bind_frame (Triple.forM (fun text copy => triple_freeText copy text) copies texts)
    fun _ => ?_
  refine Triple.reorder (mul_comm _ _) (Triple.free_bind ?_)
  exact Triple.pure fun _ empty => ⟨rfl, empty⟩

/-- What is left of a struct that is freed without a look at its strings. -/
def textsLost (texts : List (Option CString)) : Assertion Nat Block :=
  any fun copies : List Pointer => each textAt copies texts

theorem triple_destroyPlain (texts : List (Option CString)) (stored : (Nat → Pointer) → Block)
    (item : Pointer) :
    Triple (recordAt texts stored item) (destroyPlain item) fun left =>
      fact (left = none) * textsLost texts := by
  refine Triple.of_any fun copies => Triple.free_bind ?_
  exact Triple.pure fun heap holds => (fact_mul_apply _ _ _).mpr ⟨rfl, copies, holds⟩

theorem faults_destroyOwner_null (owned : Block → Option (List Pointer)) :
    Faults 1 (destroyOwner owned none) .access :=
  Faults.bind (faults_loadAs_null owned)

/-! Events, and writes with their arrays of events. -/

def storedEvent (cur : LibEsClient.NewEvent) (eventType : Pointer) : Block :=
  .newEvent {
    eventId := cur.eventId
    eventType := eventType
    dataContentType := cur.dataContentType
    metadataContentType := cur.metadataContentType
    data := cur.data
    metadata := cur.metadata }

def eventAt (entry : Pointer) (cur : LibEsClient.NewEvent) : Assertion Nat Block :=
  any fun eventType : Pointer =>
    pointsTo entry (storedEvent cur eventType) * textAt eventType cur.eventType

def writeEventsAt (write : LibEsClient.WriteEvents) (item : Pointer) : Assertion Nat Block :=
  any fun place : Pointer × Pointer × List Pointer =>
    pointsTo item (.writeEvents {
      eventStreamId := place.1
      expectedVersion := write.expectedVersion
      numEvents := write.numEvents
      requireMaster := write.requireMaster
      events := place.2.1 }) *
    (textAt place.1 write.eventStreamId *
      (pointsTo place.2.1 (.pointers place.2.2) * each eventAt place.2.2 write.events))

/-- The events beyond `num_events` are not reached when a write is freed. -/
def eventsLost (write : LibEsClient.WriteEvents) : Assertion Nat Block :=
  any fun entries : List Pointer =>
    each eventAt entries (write.events.drop write.numEvents.toInt.toNat)

theorem triple_entryAt {events : Pointer} {entries : List Pointer} {i : Nat} {entry : Pointer}
    (found : entries[i]? = some entry) :
    Triple (pointsTo events (.pointers entries)) (entryAt events i) fun read =>
      fact (read = entry) * pointsTo events (.pointers entries) := by
  rw [← mul_one (pointsTo _ _)]
  refine Triple.loadAs_bind (rfl : Block.pointers? (.pointers entries) = some entries) ?_
  rw [found, Option.elim_some]
  exact Triple.pure fun heap holds => (fact_mul_apply _ _ _).mpr ⟨rfl, holds⟩

theorem triple_destroyEvents (events : Pointer) (entries freed left : List Pointer)
    (curs others : List LibEsClient.NewEvent)
    (split : entries = freed ++ left) :
    Triple (pointsTo events (.pointers entries) * each eventAt left (curs ++ others))
      (destroyEvents events freed.length curs.length) fun _ =>
        pointsTo events (.pointers entries) *
          any fun rest : List Pointer => each eventAt rest others := by
  induction curs generalizing freed left with
  | nil =>
      refine Triple.pure fun heap holds => ?_
      rw [mul_comm, any_mul]
      refine ⟨left, ?_⟩
      change (each eventAt left others * pointsTo events (.pointers entries) :
        Assertion Nat Block) heap
      rwa [mul_comm]
  | cons cur rest ih =>
      cases left with
      | nil =>
          rw [each, mul_left_comm]
          exact Triple.of_fact fun same => by simp at same
      | cons entry later =>
          have found : entries[freed.length]? = some entry := by simp [split]
          rw [List.cons_append, each_cons]
          refine Triple.bind_frame (triple_entryAt found) fun read => ?_
          rw [mul_assoc]
          refine Triple.of_fact fun same => ?_
          rw [same, eventAt, mul_left_comm, any_mul]
          refine Triple.of_any fun eventType => ?_
          rw [mul_assoc]
          refine Triple.loadAs_bind rfl ?_
          refine Triple.reorder (mul_left_comm _ _ _) ?_
          refine Triple.bind_frame (triple_freeText eventType cur.eventType) fun _ => ?_
          rw [one_mul]
          refine Triple.free_bind ?_
          have next := ih (freed ++ [entry]) later (by simp [split])
          rwa [List.length_append, List.length_singleton] at next

theorem triple_destroyWriteEvents (write : LibEsClient.WriteEvents) (item : Pointer) :
    Triple (writeEventsAt write item) (destroyWriteEvents item) fun left =>
      fact (left = none) * eventsLost write := by
  refine Triple.of_any fun ⟨eventStreamId, events, entries⟩ => ?_
  refine Triple.loadAs_bind rfl ?_
  refine Triple.reorder (mul_left_comm _ _ _) ?_
  refine Triple.bind_frame (triple_freeText eventStreamId write.eventStreamId) fun _ => ?_
  rw [one_mul, mul_comm]
  have loop := triple_destroyEvents events entries [] entries write.counted
    (write.events.drop write.numEvents.toInt.toNat) rfl
  rw [WriteEvents.counted, List.take_append_drop, List.length_take, Nat.min_eq_left write.holds,
    List.length_nil] at loop
  refine Triple.bind_frame loop fun _ => ?_
  rw [mul_assoc]
  refine Triple.free_bind ?_
  rw [mul_comm]
  refine Triple.free_bind ?_
  exact Triple.pure fun heap holds => (fact_mul_apply _ _ _).mpr ⟨rfl, holds⟩

section Writes

variable (allocator : Allocator Nat Block)

theorem triple_unpackEvents (leftover : Nat → Uuid) (events : Pointer)
    {evs : List Messages.NewEvent} (typed : ∀ ev ∈ evs, ev.eventType ≠ none) (i : Nat)
    (entries : List Pointer) (done : List LibEsClient.NewEvent) :
    Triple (pointsTo events (.pointers entries) * each eventAt entries done)
      (unpackEvents allocator leftover events i entries evs) fun _ =>
        any fun all : List Pointer =>
          pointsTo events (.pointers all) *
            each eventAt all
              (done ++ evs.mapIdx fun offset ev => unpackedEvent (leftover (i + offset)) ev) := by
  induction evs generalizing i entries done with
  | nil =>
      refine Triple.pure fun heap holds => ⟨entries, ?_⟩
      simpa using holds
  | cons ev rest ih =>
      refine Triple.malloc_bind fun cur => ?_
      rw [← one_mul (_ * _)]
      refine Triple.bind_frame (triple_strdup allocator (typed ev (by simp))) fun eventType => ?_
      refine Triple.reorder (mul_left_comm _ _ _) (Triple.store_bind ?_)
      have order : pointsTo cur (storedEvent (unpackedEvent (leftover i) ev) eventType) *
          (textAt eventType ev.eventType *
            (pointsTo events (.pointers entries) * each eventAt entries done)) =
          pointsTo events (.pointers entries) * (each eventAt entries done *
            (pointsTo cur (storedEvent (unpackedEvent (leftover i) ev) eventType) *
              textAt eventType ev.eventType)) := by ac_rfl
      refine Triple.reorder order (Triple.store_bind ?_)
      have next := ih (fun later member => typed later (List.mem_cons_of_mem _ member)) (i + 1)
        (entries ++ [cur]) (done ++ [unpackedEvent (leftover i) ev])
      rw [each_concat] at next
      simp only [List.append_assoc, List.singleton_append, Nat.add_right_comm i 1] at next
      rw [List.mapIdx_cons]
      refine Triple.strengthen (mul_mono (fun _ => id) (mul_mono (fun _ => id) ?_)) next
      exact fun heap holds => ⟨eventType, holds⟩

theorem faults_unpackEvents {leftover : Nat → Uuid} {events : Pointer}
    {evs : List Messages.NewEvent} (untyped : ∃ ev ∈ evs, ev.eventType = none) (i : Nat)
    (entries : List Pointer) (held : Assertion Nat Block) :
    Faults (pointsTo events (.pointers entries) * held)
      (unpackEvents allocator leftover events i entries evs) .access := by
  induction evs generalizing i entries held with
  | nil => simp at untyped
  | cons ev rest ih =>
      refine Faults.malloc_bind fun cur => ?_
      by_cases typed : ev.eventType = none
      · rw [typed]
        exact Faults.bind (Faults.fail .access)
      · obtain ⟨text, found⟩ := Option.ne_none_iff_exists'.mp typed
        have later : ∃ ev ∈ rest, ev.eventType = none := by simpa [typed] using untyped
        rw [found]
        refine Faults.malloc_bind fun eventType => ?_
        refine Faults.reorder (mul_left_comm _ _ _) (Faults.store_bind ?_)
        rw [mul_left_comm (pointsTo eventType _), mul_left_comm (pointsTo cur _)]
        refine Faults.store_bind ?_
        exact ih later (i + 1) _ _

section Unpacking

variable {runtime : Runtime} {leftover : Nat → Uuid} {memory : Memory UInt8} {buffer : Buffer}

theorem triple_esUnpackWriteEvents_null
    (nothing : runtime.unpack Messages.writeEventsDescriptor
      (memory.read buffer.location (sizeT buffer.length)) = none) :
    Triple 1 (esUnpackWriteEvents allocator runtime leftover memory buffer) fun item =>
      fact (item = none) := by
  simp only [esUnpackWriteEvents, nothing]
  exact Triple.pure fun _ empty => ⟨rfl, empty⟩

variable {msg : Messages.WriteEvents}
  (arrived : runtime.unpack Messages.writeEventsDescriptor
    (memory.read buffer.location (sizeT buffer.length)) = some msg)

include arrived

theorem triple_esUnpackWriteEvents (texts : Texts msg) :
    Triple 1 (esUnpackWriteEvents allocator runtime leftover memory buffer)
      (writeEventsAt (unpackedWrite leftover msg)) := by
  simp only [esUnpackWriteEvents, arrived]
  refine Triple.malloc_bind fun unpacked => Triple.malloc_bind fun ret => ?_
  rw [← one_mul (_ * _)]
  refine Triple.bind_frame (triple_strdup allocator texts.named) fun eventStreamId => ?_
  refine Triple.malloc_bind fun events => ?_
  have loop := triple_unpackEvents allocator leftover events texts.typed 0 [] []
  simp only [each_nil, mul_one, List.nil_append, Nat.zero_add] at loop
  refine Triple.bind_frame loop fun _ => ?_
  rw [any_mul]
  refine Triple.of_any fun entries => ?_
  rw [mul_left_comm (textAt _ _) (pointsTo ret _), mul_left_comm]
  refine Triple.store_bind ?_
  rw [mul_left_comm (textAt _ _) (pointsTo unpacked _), mul_left_comm (_ * _) (pointsTo unpacked _),
    mul_left_comm]
  refine Triple.free_bind ?_
  rw [mul_one, mul_comm (_ * _) (textAt _ _)]
  refine Triple.pure fun heap holds => ⟨(eventStreamId, events, entries), ?_⟩
  simpa only [unpackedWrite, List.length_mapIdx] using holds

theorem faults_esUnpackWriteEvents (untexted : ¬Texts msg) :
    Faults 1 (esUnpackWriteEvents allocator runtime leftover memory buffer) .access := by
  simp only [esUnpackWriteEvents, arrived]
  refine Faults.malloc_bind fun unpacked => Faults.malloc_bind fun ret => ?_
  by_cases named : msg.eventStreamId = none
  · rw [named]
    exact Faults.bind (Faults.fail .access)
  · obtain ⟨text, found⟩ := Option.ne_none_iff_exists'.mp named
    have untyped : ∃ ev ∈ msg.events, ev.eventType = none := by
      by_contra typed
      exact untexted ⟨named, fun ev member missing => typed ⟨ev, member, missing⟩⟩
    rw [found]
    refine Faults.malloc_bind fun eventStreamId => Faults.malloc_bind fun events => ?_
    exact Faults.bind (faults_unpackEvents allocator untyped 0 [] _)

end Unpacking

/-! The events that `es_pack_write_events` copies. -/

def messageAt (entry : Pointer) (ev : Messages.NewEvent) : Assertion Nat Block :=
  pointsTo entry (.newEventMessage ev)

theorem triple_packEvents (events : Pointer) {curs : List LibEsClient.NewEvent}
    (admitted : ∀ cur ∈ curs, cur.Admitted) (entries : List Pointer)
    (done : List Messages.NewEvent) :
    Triple (pointsTo events (.pointers entries) * each messageAt entries done)
      (packEvents allocator events entries curs) fun all =>
        pointsTo events (.pointers all) *
          each messageAt all (done ++ curs.map newEventMessage) := by
  induction curs generalizing entries done with
  | nil => exact Triple.pure fun heap holds => by simpa using holds
  | cons cur rest ih =>
      obtain ⟨located, nonempty⟩ := admitted cur (by simp)
      rw [packEvents, if_neg located, if_neg (not_not_intro nonempty)]
      refine Triple.malloc_bind fun t => ?_
      refine Triple.reorder (mul_left_comm _ _ _) (Triple.store_bind ?_)
      have next := ih (fun later member => admitted later (List.mem_cons_of_mem _ member))
        (entries ++ [t]) (done ++ [newEventMessage cur])
      rw [each_concat, List.append_assoc] at next
      rwa [mul_comm (pointsTo t _)]

theorem faults_packEvents {events : Pointer} {curs : List LibEsClient.NewEvent}
    (refused : ∃ cur ∈ curs, ¬cur.Admitted) (entries : List Pointer) (held : Assertion Nat Block) :
    Faults (pointsTo events (.pointers entries) * held)
      (packEvents allocator events entries curs) .abort := by
  induction curs generalizing entries held with
  | nil => simp at refused
  | cons cur rest ih =>
      rw [packEvents]
      by_cases located : cur.data.location = .null
      · rw [if_pos located]
        exact Faults.fail .abort
      · rw [if_neg located]
        by_cases nonempty : cur.data.length > 0
        · rw [if_neg (not_not_intro nonempty)]
          have later : ∃ cur ∈ rest, ¬cur.Admitted := by
            obtain ⟨found, member, bad⟩ := refused
            rcases List.mem_cons.mp member with rfl | inRest
            · exact absurd ⟨located, nonempty⟩ bad
            · exact ⟨found, inRest, bad⟩
          refine Faults.malloc_bind fun t => ?_
          exact Faults.reorder (mul_left_comm _ _ _) (Faults.store_bind (ih later _ _))
        · rw [if_pos nonempty]
          exact Faults.fail .abort

end Writes

end InHeap

end LibEsClient
