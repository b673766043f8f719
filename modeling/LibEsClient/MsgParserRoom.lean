import LibEsClient.BoundedQueue
import LibEsClient.MsgParserStream

/-! The parser as a queue in so much room: every call of every run answers as the queue
does, what is refused for want of room included. A frame that is larger than the buffer
is where both stop for good. -/

namespace LibEsClient

open FlatMemory Machines Framing

def operationOf : Call → Operation UInt8
  | .addData data => .push data.bytes
  | .readNext => .pop
  | .compressSpace => .compact

def answerOf (step : ParserStep) : Answer UInt8 :=
  match step.output with
  | .added code => .pushed (code = 0)
  | .read buffer => .popped (buffer.map (frameOf step.after.memory))
  | .compressed => .compacted

def bufferedAt (state : ParserState) : Buffered UInt8 where
  consumed := (state.parserRead - state.bufferStart).toNat
  pending := unread state

section Steps

variable {capacity : Nat} {state : ParserState}

theorem InBounds.bufferedAt_within (bounds : InBounds capacity state) :
    (bufferedAt state).Within capacity := by
  have length := bounds.length_unread
  obtain ⟨startLeRead, readLeWrite, writeLeEnd, size⟩ := bounds
  simp only [Buffered.Within, bufferedAt]
  omega

theorem InBounds.step_bounded (bounds : InBounds capacity state) (fits : capacity < 2 ^ 31)
    {call : Call} (nonNegative : call.NonNegative)
    (within : PrefixWithin ((parser Memory.copy).transition state call)) :
    (boundedQueue frameFormat capacity).step (bufferedAt state) (operationOf call) =
      (bufferedAt ((parser Memory.copy).step state call).1,
        answerOf ((parser Memory.copy).transition state call)) := by
  have length := bounds.length_unread
  cases call with
  | addData data =>
      have count := data.holds
      have positive : 0 ≤ data.length := nonNegative
      simp only [boundedQueue, operationOf, bufferedAt, parser, answerOf, Machine.transition]
      rcases addData_cases state data with ⟨rejected, _, full⟩ | ⟨stored, room⟩
      · have none : ¬(state.parserRead - state.bufferStart).toNat + (unread state).length +
            data.bytes.length ≤ capacity := by
          obtain ⟨startLeRead, readLeWrite, writeLeEnd, size⟩ := bounds
          omega
        rw [if_neg none, rejected]
        rfl
      · have some : (state.parserRead - state.bufferStart).toNat + (unread state).length +
            data.bytes.length ≤ capacity := by
          obtain ⟨startLeRead, readLeWrite, writeLeEnd, size⟩ := bounds
          omega
        have code : (LibEsClient.addData state data).2 = 0 := by rw [stored]
        have appended := unread_addData bounds.readLeWrite nonNegative code
        rw [if_pos some, ← appended, stored]
        rfl
  | readNext =>
      have next := bounds.next_unread within.trusted
      simp only [boundedQueue, operationOf, bufferedAt, parser, answerOf, Machine.transition, next]
      rcases readNext_trusted within.trusted with ⟨same, _⟩ | ⟨found, lower, fits⟩
      · rw [same]
        rfl
      · have size : (frameOf state.memory
            { length := lengthAt state.memory state.parserRead
              location := state.parserRead + 4 }).length =
              4 + (lengthAt state.memory state.parserRead).toNat := by
          rw [frameOf, Memory.length_read]
        have moved : (state.parserRead - state.bufferStart).toNat +
            (4 + (lengthAt state.memory state.parserRead).toNat) =
              (state.parserRead + lengthAt state.memory state.parserRead + 4 -
                state.bufferStart).toNat := by
          obtain ⟨startLeRead, readLeWrite, writeLeEnd, size⟩ := bounds
          omega
        simp only [found, Option.map_some, size, moved]
  | compressSpace =>
      have same := bounds.unread_compressSpace fits
      have compact := compressSpace_compact Memory.copy state
      simp only [boundedQueue, operationOf, bufferedAt, parser, answerOf, Machine.transition, same,
        compact, Int.sub_self, Int.toNat_zero]

end Steps

/-! Whole runs. -/

theorem InBounds.run_bounded {capacity : Nat} {start : ParserState}
    (bounds : InBounds capacity start) (fits : capacity < 2 ^ 31) {calls : List Call}
    (nonNegative : ∀ call ∈ calls, call.NonNegative)
    (within : ∀ step ∈ (parser Memory.copy).run start calls, PrefixWithin step) :
    ((boundedQueue frameFormat capacity).run (bufferedAt start) (calls.map operationOf)).map
        Transition.output = ((parser Memory.copy).run start calls).map answerOf ∧
      (boundedQueue frameFormat capacity).final (bufferedAt start) (calls.map operationOf) =
        bufferedAt ((parser Memory.copy).final start calls) := by
  refine (parser Memory.copy).run_simulates _ bufferedAt operationOf answerOf start calls
    fun found member => ?_
  have looked := within found member
  obtain ⟨earlier, call, later, rfl, rfl⟩ := ((parser Memory.copy).mem_run_iff _ _ _).mp member
  have reached : InBounds capacity ((parser Memory.copy).final start earlier) := by
    refine run_inBounds bounds fits earlier
      (fun call member => nonNegative call (List.mem_append_left _ member)) fun step member => ?_
    apply within
    rw [Machine.run_append]
    exact List.mem_append_left _ member
  exact reached.step_bounded fits (nonNegative call (by simp)) looked

/-- Every call of a run is answered as the queue in so much room answers it, and the
unread bytes and the place taken up before them are the queue's. -/
theorem parser_answers_as_bounded_queue (session : Session) (nonNegative : session.NonNegative)
    (within : ∀ step ∈ session.history Memory.copy, PrefixWithin step) :
    (session.history Memory.copy).map answerOf =
        ((boundedQueue frameFormat session.capacity).run { consumed := 0, pending := [] }
          (session.calls.map operationOf)).map Transition.output ∧
      (boundedQueue frameFormat session.capacity).final { consumed := 0, pending := [] }
          (session.calls.map operationOf) = bufferedAt (session.final Memory.copy) := by
  have fresh : bufferedAt session.start = { consumed := 0, pending := [] } := by
    simp [bufferedAt, Session.start, createParserState, unread]
  have bounded := session.start_inBounds.run_bounded session.fits nonNegative within
  rw [fresh] at bounded
  exact ⟨bounded.1.symm, bounded.2⟩

theorem parser_answers_as_bounded_queue_full :
    (Session.history ⟨fun _ => 0, 0, 8, by decide,
        [.addData (.ofBytes [2, 0, 0, 0, 7, 8]), .readNext, .addData (.ofBytes [1, 2, 3]),
          .compressSpace, .addData (.ofBytes [1, 2, 3])]⟩ Memory.copy).map answerOf =
      [.pushed true, .popped (some [2, 0, 0, 0, 7, 8]), .pushed false, .compacted, .pushed true] :=
  (parser_answers_as_bounded_queue ⟨fun _ => 0, 0, 8, by decide,
    [.addData (.ofBytes [2, 0, 0, 0, 7, 8]), .readNext, .addData (.ofBytes [1, 2, 3]),
      .compressSpace, .addData (.ofBytes [1, 2, 3])]⟩ (by decide) (by decide)).1

/-! A frame that is larger than the buffer. -/

def completed (part : List UInt8) : List UInt8 := frameFormat.completed 0 part

theorem completed_sound {part : List UInt8} (known : 4 ≤ part.length)
    (lower : 0 ≤ prefixLength (part.take 4)) (upper : prefixLength (part.take 4) ≤ 2 ^ 31 - 5) :
    SoundFrame (completed part) := by
  have header : (completed part).take 4 = part.take 4 :=
    Format.take_completed known (@Format.headerLength_le_size _ frameFormat part)
  exact ⟨Format.completed_isFrame known, header ▸ lower, header ▸ upper⟩

theorem returnedBuffer_of_silent {step : ParserStep}
    (silent : ∀ frame, answerOf step ≠ .popped (some frame)) : returnedBuffer step = none := by
  rcases step with ⟨before, input, output, after⟩
  cases output with
  | added code => rfl
  | compressed => rfl
  | read buffer =>
      cases buffer with
      | none => rfl
      | some buffer => exact absurd rfl (silent (frameOf after.memory buffer))

structure Waiting (capacity : Nat) (head : List UInt8) (state : ParserState) : Prop where
  bounds : InBounds capacity state
  enough : 4 ≤ (unread state).length
  front : (unread state).take 4 = head

section Front

variable {capacity : Nat} {head : List UInt8} {state : ParserState}
  (lower : 0 ≤ prefixLength head) (upper : prefixLength head ≤ 2 ^ 31 - 5)

include lower upper

theorem Waiting.step (waiting : Waiting capacity head state) (fits : capacity < 2 ^ 31)
    (large : capacity < 4 + (prefixLength head).toNat) {call : Call}
    (nonNegative : call.NonNegative) :
    returnedBuffer ((parser Memory.copy).transition state call) = none ∧
      Waiting capacity head ((parser Memory.copy).step state call).1 := by
  obtain ⟨bounds, enough, front⟩ := waiting
  have within : PrefixWithin ((parser Memory.copy).transition state call) := by
    rintro ⟨_, looked⟩
    have same := prefixLength_unread state looked
    rw [front] at same
    change 0 ≤ lengthAt state.memory state.parserRead ∧
      lengthAt state.memory state.parserRead ≤ 2 ^ 31 - 5
    omega
  have wedged : Wedged frameFormat capacity (bufferedAt state) := by
    refine ⟨bounds.bufferedAt_within, enough, ?_⟩
    change capacity < 4 + (prefixLength ((unread state).take 4)).toNat
    rwa [front]
  obtain ⟨_, silent, longer⟩ := wedged.step (operationOf call)
  rw [bounds.step_bounded fits nonNegative within] at silent longer
  refine ⟨?_, bounds.step fits nonNegative within, ?_, ?_⟩
  · exact returnedBuffer_of_silent silent
  · exact Nat.le_trans enough longer.length_le
  · obtain ⟨later, same⟩ := longer
    exact (take_four_of_append enough same).symm.trans front

theorem Waiting.run (waiting : Waiting capacity head state) (fits : capacity < 2 ^ 31)
    (large : capacity < 4 + (prefixLength head).toNat) {calls : List Call}
    (nonNegative : ∀ call ∈ calls, call.NonNegative) :
    ∀ step ∈ (parser Memory.copy).run state calls, returnedBuffer step = none := by
  induction calls generalizing state with
  | nil => simp [Machine.run]
  | cons call rest ih =>
      obtain ⟨first, others⟩ := List.forall_mem_cons.mp nonNegative
      obtain ⟨silent, next⟩ := waiting.step lower upper fits large first
      exact List.forall_mem_cons.mpr ⟨silent, ih next others⟩

/-- Compacting and adding what is missing of the first frame brings it out, if it fits. -/
theorem Waiting.released (waiting : Waiting capacity head state) (fits : capacity < 2 ^ 31)
    (small : 4 + (prefixLength head).toNat ≤ capacity) :
    ∃ calls : List Call, (∀ call ∈ calls, call.NonNegative) ∧
      ∃ step ∈ (parser Memory.copy).run state calls, returnedBuffer step ≠ none := by
  obtain ⟨bounds, enough, front⟩ := waiting
  subst front
  let rest := List.replicate (frameFormat.size (unread state) - (unread state).length) (0 : UInt8)
  have compactBounds := bounds.compressSpace fits Memory.copy
  have sameUnread := bounds.unread_compressSpace fits
  have room : (unread (compressSpace Memory.copy state)).length +
      (Chunk.ofBytes rest).bytes.length ≤ capacity := by
    have within := bounds.length_unread_le
    simp only [sameUnread, Chunk.bytes_ofBytes, rest, List.length_replicate]
    change _ + (4 + (prefixLength ((unread state).take 4)).toNat - _) ≤ _
    omega
  have positive : 0 ≤ (Chunk.ofBytes rest).length := Int.natCast_nonneg _
  have stored := compactBounds.addData_accepted (compressSpace_compact _ _) room
  have appended := unread_addData compactBounds.readLeWrite positive stored
  rw [sameUnread, Chunk.bytes_ofBytes] at appended
  have pending := appended.trans (List.take_append_drop (frameFormat.size (unread state)) _).symm
  obtain ⟨buffer, found, _⟩ := (compactBounds.addData positive).readNext_frame
    (completed_sound enough lower upper) pending
  refine ⟨[.compressSpace, .addData (.ofBytes rest), .readNext], ?_, ?_⟩
  · simp [Call.NonNegative, Chunk.ofBytes]
  · refine ⟨(parser Memory.copy).transition
      (LibEsClient.addData (compressSpace Memory.copy state) (.ofBytes rest)).1 .readNext, ?_, ?_⟩
    · simp [Machine.run, parser, Machine.transition]
    · simp [returnedBuffer, Machine.transition, parser, found]

end Front

/-- Where the length of the next frame is known, some further calls bring that frame out
exactly when it fits in the buffer; otherwise the parser gives no frame ever again. -/
theorem parser_released_iff (session : Session) (nonNegative : session.NonNegative)
    (within : ∀ step ∈ session.history Memory.copy, PrefixWithin step)
    (known : 4 ≤ (unread (session.final Memory.copy)).length)
    (lower : 0 ≤ prefixLength ((unread (session.final Memory.copy)).take 4))
    (upper : prefixLength ((unread (session.final Memory.copy)).take 4) ≤ 2 ^ 31 - 5) :
    (∃ calls : List Call, (∀ call ∈ calls, call.NonNegative) ∧
      ∃ step ∈ (parser Memory.copy).run (session.final Memory.copy) calls,
        returnedBuffer step ≠ none) ↔
      4 + (prefixLength ((unread (session.final Memory.copy)).take 4)).toNat ≤
        session.capacity := by
  have waiting : Waiting session.capacity ((unread (session.final Memory.copy)).take 4)
      (session.final Memory.copy) :=
    ⟨run_inBounds session.start_inBounds session.fits session.calls nonNegative within, known, rfl⟩
  constructor
  · rintro ⟨calls, callsNonNegative, step, member, returned⟩
    by_contra large
    exact returned (waiting.run lower upper session.fits (by omega) callsNonNegative step member)
  · exact waiting.released lower upper session.fits

theorem parser_released_iff_large_frame :
    ¬∃ calls : List Call, (∀ call ∈ calls, call.NonNegative) ∧
      ∃ step ∈ (parser Memory.copy).run
          (Session.final ⟨fun _ => 0, 0, 8, by decide, [.addData (.ofBytes [5, 0, 0, 0, 7])]⟩
            Memory.copy) calls,
        returnedBuffer step ≠ none :=
  mt (parser_released_iff ⟨fun _ => 0, 0, 8, by decide, [.addData (.ofBytes [5, 0, 0, 0, 7])]⟩
    (by decide) (by decide) (by decide) (by decide) (by decide)).mp (by decide)

end LibEsClient
