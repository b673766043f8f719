import LibEsClient.MsgParserCompaction

/-! Streams of frames through the parser: what is delivered while the accepted
bytes follow a stream, and for which payloads the length prefix in front of them
brings them back. -/

namespace LibEsClient

open FlatMemory Machines Framing

structure SoundFrame (frame : List UInt8) : Prop where
  isFrame : frameFormat.IsFrame frame
  lower : 0 ≤ prefixLength (frame.take 4)
  upper : prefixLength (frame.take 4) ≤ 2 ^ 31 - 5

/-- What starts here is never delivered: it needs more room than there is. -/
def Blocks (capacity : Nat) (tail : List UInt8) : Prop :=
  4 ≤ tail.length → 0 ≤ prefixLength (tail.take 4) ∧
    (capacity : Int) < wrapInt (prefixLength (tail.take 4) + 4)

theorem blocks_nil (capacity : Nat) : Blocks capacity [] := by
  simp [Blocks]

theorem prefixLength_upper (header : List UInt8) : prefixLength header < 2 ^ 31 := by
  unfold prefixLength
  split
  · exact frameLength_upper _ _ _ _
  · omega

theorem Blocks.upper {capacity : Nat} {tail : List UInt8} (blocked : Blocks capacity tail)
    (enough : 4 ≤ tail.length) :
    prefixLength (tail.take 4) ≤ 2 ^ 31 - 5 ∧
      (capacity : Int) < prefixLength (tail.take 4) + 4 := by
  obtain ⟨lower, beyond⟩ := blocked enough
  have upper := prefixLength_upper (tail.take 4)
  by_cases wraps : prefixLength (tail.take 4) + 4 < 2 ^ 31
  · rw [wrapInt_of_range (by omega) wraps] at beyond
    omega
  · have wrapped : wrapInt (prefixLength (tail.take 4) + 4) < 0 :=
      wrapInt_of_overflow (by omega) (by omega)
    omega

theorem take_four_of_append {first second rest : List UInt8} (enough : 4 ≤ first.length)
    (same : first ++ rest = second) : first.take 4 = second.take 4 := by
  rw [← same, List.take_append_of_le_length enough]

section Stream

variable {capacity : Nat} {sent : List (List UInt8)} {tail : List UInt8}
  (frames : ∀ frame ∈ sent, SoundFrame frame) (blocked : Blocks capacity tail)

include frames blocked

theorem cut_of_stream {delivered : List (List UInt8)} {pending : List UInt8}
    (isFrame : ∀ frame ∈ delivered, frameFormat.IsFrame frame)
    (small : ∀ frame ∈ delivered, frame.length ≤ capacity)
    (same : delivered.flatten ++ pending = sent.flatten ++ tail) :
    ∃ more, sent = delivered ++ more ∧ pending = more.flatten ++ tail := by
  rcases Format.parse_compare isFrame (fun frame member => (frames frame member).isFrame) same with
    ⟨more, split, rest⟩ | ⟨more, split, rest⟩
  · exact ⟨more, split, rest⟩
  · cases more with
    | nil => exact ⟨[], by simpa using split.symm, by simpa using rest.symm⟩
    | cons frame more =>
        have member : frame ∈ delivered := by rw [split]; simp
        have whole := isFrame frame member
        have header : 4 ≤ frame.length := whole.headerLength_le
        have bound := small frame member
        have tailLong : 4 ≤ tail.length := by
          rw [rest]
          simp
          omega
        have sameHeader : frame.take 4 = tail.take 4 :=
          take_four_of_append header (by rw [rest, List.flatten_cons, List.append_assoc])
        have size : frame.length = 4 + (prefixLength (frame.take 4)).toNat := whole
        have beyond := (blocked.upper tailLong).2
        rw [← sameHeader] at beyond
        omega

theorem prefix_within_of_stream {delivered : List (List UInt8)} {pending rest : List UInt8}
    (isFrame : ∀ frame ∈ delivered, frameFormat.IsFrame frame)
    (small : ∀ frame ∈ delivered, frame.length ≤ capacity)
    (same : delivered.flatten ++ pending ++ rest = sent.flatten ++ tail)
    (enough : 4 ≤ pending.length) :
    0 ≤ prefixLength (pending.take 4) ∧ prefixLength (pending.take 4) ≤ 2 ^ 31 - 5 := by
  rw [List.append_assoc] at same
  obtain ⟨more, split, left⟩ := cut_of_stream frames blocked isFrame small same
  cases more with
  | nil =>
      have sameHeader : pending.take 4 = tail.take 4 := take_four_of_append enough left
      have tailLong : 4 ≤ tail.length := by
        have lengths := congrArg List.length left
        simp only [List.length_append, List.flatten_nil, List.nil_append] at lengths
        omega
      rw [sameHeader]
      exact ⟨(blocked tailLong).1, (blocked.upper tailLong).1⟩
  | cons frame more =>
      obtain ⟨whole, lower, upper⟩ := frames frame (by rw [split]; simp)
      have header : 4 ≤ frame.length := whole.headerLength_le
      have sameHeader : pending.take 4 = frame.take 4 := by
        rw [take_four_of_append enough left, List.flatten_cons, List.append_assoc,
          List.take_append_of_le_length header]
      rw [sameHeader]
      exact ⟨lower, upper⟩

end Stream

theorem Session.accepted_earlier (session : Session)
    {memcpy : Memory UInt8 → Int → Int → Nat → Memory UInt8} {earlier later : List Call}
    (split : session.calls = earlier ++ later) :
    accepted ((parser memcpy).run session.start earlier) <+: accepted (session.history memcpy) := by
  rw [Session.history, split, Machine.run_append, accepted_append]
  exact List.prefix_append _ _

section Stream

variable {session : Session} (nonNegative : session.NonNegative) {sent : List (List UInt8)}
  {tail : List UInt8} (frames : ∀ frame ∈ sent, SoundFrame frame)
  (blocked : Blocks session.capacity tail)
  (upTo : accepted (session.history Memory.copy) <+: sent.flatten ++ tail)

include nonNegative frames blocked upTo

theorem Session.within_of_stream : ∀ step ∈ session.history Memory.copy, PrefixWithin step := by
  suffices reached : ∀ earlier later, session.calls = earlier ++ later →
      ∀ step ∈ (parser Memory.copy).run session.start earlier, PrefixWithin step from
    reached session.calls [] (List.append_nil _).symm
  intro earlier
  -- on the calls so far: what was delivered cuts the stream, so the next prefix is one of its
  induction earlier using List.reverseRecOn with
  | nil => simp [Machine.run]
  | append_singleton earlier call ih =>
      intro later split
      have earlierSplit : session.calls = earlier ++ call :: later := by simp [split]
      have within := ih _ earlierSplit
      have refines := session.refinesAt nonNegative earlierSplit within
      obtain ⟨rest, same⟩ := (session.accepted_earlier earlierSplit).trans upTo
      rw [← refines.conserves] at same
      rw [Machine.run_concat]
      intro step member
      rcases List.mem_append.mp member with prior | last
      · exact within step prior
      · rw [List.mem_singleton.mp last]
        intro looks
        have enough := looks.2
        have length := refines.bounds.length_unread
        simp only [Machine.transition] at enough ⊢
        rw [← prefixLength_unread _ enough]
        exact prefix_within_of_stream frames blocked refines.isFrame refines.small same (by omega)

theorem Session.delivered_of_stream :
    ∃ more, sent = deliveredFrames (session.history Memory.copy) ++ more ∧
      unread (session.final Memory.copy) <+: more.flatten ++ tail := by
  have refines := session.refines nonNegative
    (session.within_of_stream nonNegative frames blocked upTo)
  obtain ⟨rest, same⟩ := upTo
  rw [← refines.conserves, List.append_assoc] at same
  obtain ⟨more, split, left⟩ := cut_of_stream frames blocked refines.isFrame refines.small same
  exact ⟨more, split, rest, left⟩

end Stream

theorem Session.delivered_of_drained {session : Session} (nonNegative : session.NonNegative)
    {sent : List (List UInt8)} (frames : ∀ frame ∈ sent, SoundFrame frame)
    (whole : accepted (session.history Memory.copy) = sent.flatten)
    (drained : Drained (session.history Memory.copy)) :
    deliveredFrames (session.history Memory.copy) = sent ∧
      unread (session.final Memory.copy) = [] := by
  have within := session.within_of_stream nonNegative frames (blocks_nil _)
    (by rw [whole, List.append_nil])
  have refines := session.refines nonNegative within
  have stuck := session.stuck_of_drained nonNegative within drained
  have same := refines.conserves
  rw [whole, ← List.append_nil sent.flatten] at same
  exact Format.parse_unique refines.isFrame (fun frame member => (frames frame member).isFrame)
    stuck stuck_nil same

/-! Payloads behind the prefix that tells their length. -/

def payloadFrame (payload : List UInt8) : List UInt8 := lengthPrefix payload.length ++ payload

def payloadStream (payloads : List (List UInt8)) : List UInt8 := payloads.flatMap payloadFrame

@[simp] theorem length_payloadFrame (payload : List UInt8) :
    (payloadFrame payload).length = 4 + payload.length := by
  simp [payloadFrame]

def ReadsBack (payload : List UInt8) : Prop := lengthReadBack payload.length = payload.length

theorem prefixLength_payloadFrame {payload : List UInt8} (rest : List UInt8)
    (fits : payload.length < 2 ^ 31) :
    prefixLength ((payloadFrame payload ++ rest).take 4) = lengthReadBack payload.length := by
  rw [← frameLength_lengthPrefix fits]
  rfl

theorem ReadsBack.soundFrame {payload : List UInt8} (readsBack : ReadsBack payload)
    (fits : payload.length + 4 < 2 ^ 31) : SoundFrame (payloadFrame payload) := by
  have computed := @prefixLength_payloadFrame payload [] (by omega)
  rw [List.append_nil, readsBack] at computed
  refine ⟨?_, by omega, by omega⟩
  change _ = 4 + (prefixLength ((payloadFrame payload).take 4)).toNat
  rw [computed]
  simp [payloadFrame]

theorem payloadOf_eq_drop (memory : Memory UInt8) (buffer : Buffer) :
    payloadOf memory buffer = (frameOf memory buffer).drop 4 := by
  rw [frameOf, Memory.read_add, List.drop_left' (Memory.length_read _ _ _)]
  simp [payloadOf]

theorem deliveredPayloads_eq (history : List ParserStep) :
    deliveredPayloads history = (deliveredFrames history).map (List.drop 4) := by
  simp only [deliveredPayloads, deliveredFrames, List.map_filterMap, Option.map_map]
  congr
  funext step
  congr
  funext buffer
  exact payloadOf_eq_drop _ _

@[simp] theorem drop_payloadFrame (payload : List UInt8) :
    (payloadFrame payload).drop 4 = payload :=
  List.drop_left' (length_lengthPrefix _)

theorem map_drop_payloadFrame (payloads : List (List UInt8)) :
    (payloads.map payloadFrame).map (List.drop 4) = payloads := by
  rw [List.map_map]
  exact List.map_id'' drop_payloadFrame payloads

theorem payloadStream_eq (payloads : List (List UInt8)) :
    payloadStream payloads = (payloads.map payloadFrame).flatten :=
  List.flatMap_def

/-- Every run that follows the stream delivers its payloads in order, and all of
them once the stream is accepted and drained. -/
def FramingRoundTrip (capacity : Nat) (payloads : List (List UInt8)) : Prop :=
  ∀ session : Session, session.capacity = capacity → session.NonNegative →
    accepted (session.history Memory.copy) <+: payloadStream payloads →
      deliveredPayloads (session.history Memory.copy) <+: payloads ∧
        (accepted (session.history Memory.copy) = payloadStream payloads →
          Drained (session.history Memory.copy) →
            deliveredPayloads (session.history Memory.copy) = payloads)

/-- The first payload whose length is misread, if any, neither fits with what
follows it nor is ever cut: the stream cannot be accepted beyond it. -/
def MisreadBlocks (capacity : Nat) (payloads : List (List UInt8)) : Prop :=
  ∀ before payload after, payloads = before ++ payload :: after →
    (∀ earlier ∈ before, ReadsBack earlier) → ¬ReadsBack payload →
      capacity < (payloadStream (payload :: after)).length ∧
        (capacity : Int) < wrapInt (lengthReadBack payload.length + 4)

theorem readsBack_or_first_misread (payloads : List (List UInt8)) :
    (∀ payload ∈ payloads, ReadsBack payload) ∨
      ∃ before payload after, payloads = before ++ payload :: after ∧
        (∀ earlier ∈ before, ReadsBack earlier) ∧ ¬ReadsBack payload := by
  induction payloads with
  | nil => exact Or.inl (by simp)
  | cons head rest ih =>
      by_cases readsBack : ReadsBack head
      · rcases ih with all | ⟨before, payload, after, split, earlier, misread⟩
        · exact Or.inl (List.forall_mem_cons.mpr ⟨readsBack, all⟩)
        · refine Or.inr ⟨head :: before, payload, after, by rw [split]; rfl, ?_, misread⟩
          exact List.forall_mem_cons.mpr ⟨readsBack, earlier⟩
      · exact Or.inr ⟨[], head, rest, rfl, by simp, readsBack⟩

theorem misreadBlocks_of_readsBack {capacity : Nat} {payloads : List (List UInt8)}
    (readsBack : ∀ payload ∈ payloads, ReadsBack payload) : MisreadBlocks capacity payloads := by
  rintro before payload after rfl _ misread
  exact absurd (readsBack payload (by simp)) misread

section RoundTrip

variable {capacity : Nat} (fits : capacity < 2 ^ 31) {payloads : List (List UInt8)}
  (small : ∀ payload ∈ payloads, 4 + payload.length ≤ capacity)

include fits small

theorem payloadFrames_sound (readsBack : ∀ payload ∈ payloads, ReadsBack payload) :
    ∀ frame ∈ payloads.map payloadFrame, SoundFrame frame := by
  intro frame member
  obtain ⟨payload, isPayload, rfl⟩ := List.mem_map.mp member
  have bound := small payload isPayload
  exact (readsBack payload isPayload).soundFrame (by omega)

theorem roundTrip_of_readsBack (readsBack : ∀ payload ∈ payloads, ReadsBack payload) :
    FramingRoundTrip capacity payloads := by
  rintro session rfl nonNegative upTo
  have sound := payloadFrames_sound fits small readsBack
  rw [payloadStream_eq] at upTo ⊢
  rw [deliveredPayloads_eq]
  constructor
  · obtain ⟨more, split, _⟩ := session.delivered_of_stream nonNegative sound (blocks_nil _)
      (by rwa [List.append_nil])
    have payloadSplit := congrArg (List.map (List.drop 4)) split
    rw [map_drop_payloadFrame, List.map_append] at payloadSplit
    exact ⟨_, payloadSplit.symm⟩
  · intro whole drained
    rw [(session.delivered_of_drained nonNegative sound whole drained).1, map_drop_payloadFrame]

theorem roundTrip_of_blocked {before after : List (List UInt8)} {payload : List UInt8}
    (split : payloads = before ++ payload :: after)
    (readsBack : ∀ earlier ∈ before, ReadsBack earlier)
    (longer : capacity < (payloadStream (payload :: after)).length)
    (beyond : (capacity : Int) < wrapInt (lengthReadBack payload.length + 4)) :
    FramingRoundTrip capacity payloads := by
  subst split
  rintro session rfl nonNegative upTo
  have sound := payloadFrames_sound fits
    (fun earlier member => small earlier (List.mem_append_left _ member)) readsBack
  have room := small payload (by simp)
  have blocked : Blocks session.capacity (payloadStream (payload :: after)) := by
    intro _
    rw [payloadStream, List.flatMap_cons, prefixLength_payloadFrame _ (by omega)]
    exact ⟨by omega, beyond⟩
  have streamSplit : payloadStream (before ++ payload :: after) =
      (before.map payloadFrame).flatten ++ payloadStream (payload :: after) := by
    rw [← payloadStream_eq]
    simp [payloadStream]
  rw [streamSplit] at upTo ⊢
  obtain ⟨more, frameSplit, _⟩ := session.delivered_of_stream nonNegative sound blocked upTo
  have payloadSplit := congrArg (List.map (List.drop 4)) frameSplit
  rw [map_drop_payloadFrame, List.map_append, ← deliveredPayloads_eq] at payloadSplit
  constructor
  · rw [payloadSplit, List.append_assoc]
    exact List.prefix_append _ _
  · intro whole _
    -- the tail alone is longer than the buffer, and none of it was delivered
    have refines := session.refines nonNegative
      (session.within_of_stream nonNegative sound blocked upTo)
    have conserved := refines.conserves
    rw [whole, frameSplit, List.flatten_append, List.append_assoc, List.append_cancel_left_eq]
      at conserved
    have held := refines.bounds.length_unread_le
    rw [conserved, List.length_append] at held
    omega

end RoundTrip

/-! A run that meets the misread length: whole payloads are fed one at a time,
then as much of the rest as the buffer holds. -/

def feed (payload : List UInt8) : List Call :=
  [.addData (.ofBytes (payloadFrame payload)), .readNext, .compressSpace]

structure Idle (capacity : Nat) (state : ParserState) : Prop where
  bounds : InBounds capacity state
  compact : state.parserRead = state.bufferStart
  nothing : unread state = []

theorem feed_nonNegative (payloads : List (List UInt8)) :
    ∀ call ∈ payloads.flatMap feed, call.NonNegative := by
  intro call member
  obtain ⟨payload, _, fed⟩ := List.mem_flatMap.mp member
  simp only [feed, List.mem_cons, List.not_mem_nil, or_false] at fed
  rcases fed with rfl | rfl | rfl
  · exact Int.natCast_nonneg _
  · trivial
  · trivial

theorem Session.start_idle (session : Session) : Idle session.capacity session.start := by
  refine ⟨session.start_inBounds, rfl, ?_⟩
  simp [unread, Session.start, createParserState]

theorem Idle.addData {capacity : Nat} {state : ParserState} (idle : Idle capacity state)
    {bytes : List UInt8} (room : bytes.length ≤ capacity) :
    (LibEsClient.addData state (.ofBytes bytes)).2 = 0 ∧
      InBounds capacity (LibEsClient.addData state (.ofBytes bytes)).1 ∧
      unread (LibEsClient.addData state (.ofBytes bytes)).1 = bytes := by
  have nonNegative : 0 ≤ (Chunk.ofBytes bytes).length := Int.natCast_nonneg _
  have stored : (LibEsClient.addData state (.ofBytes bytes)).2 = 0 :=
    idle.bounds.addData_accepted idle.compact (by simpa [idle.nothing] using room)
  have appended := unread_addData idle.bounds.readLeWrite nonNegative stored
  rw [idle.nothing, List.nil_append] at appended
  exact ⟨stored, idle.bounds.addData nonNegative, appended⟩

theorem InBounds.readNext_frame {capacity : Nat} {state : ParserState}
    (bounds : InBounds capacity state) {frame rest : List UInt8} (sound : SoundFrame frame)
    (pending : unread state = frame ++ rest) :
    ∃ buffer, (LibEsClient.readNext state).2 = some buffer ∧
      frameOf (LibEsClient.readNext state).1.memory buffer = frame ∧
      unread (LibEsClient.readNext state).1 = rest ∧
      InBounds capacity (LibEsClient.readNext state).1 := by
  have header : 4 ≤ frame.length := sound.isFrame.headerLength_le
  have within : 4 ≤ state.bufferWrite - state.parserRead →
      0 ≤ lengthAt state.memory state.parserRead ∧
        lengthAt state.memory state.parserRead ≤ 2 ^ 31 - 5 := by
    intro enough
    rw [← prefixLength_unread state enough, pending, List.take_append_of_le_length header]
    exact ⟨sound.lower, sound.upper⟩
  have next := bounds.next_unread within
  rw [pending, sound.isFrame.next_append] at next
  cases found : (LibEsClient.readNext state).2 with
  | none => simp [found] at next
  | some buffer =>
      simp only [found, Option.map_some, Option.some.injEq, Prod.mk.injEq] at next
      exact ⟨buffer, rfl, next.1.symm, next.2.symm, bounds.readNext within⟩

theorem Idle.feed {capacity : Nat} {state : ParserState} (idle : Idle capacity state)
    (fits : capacity < 2 ^ 31) {payload : List UInt8} (small : 4 + payload.length ≤ capacity)
    (readsBack : ReadsBack payload) :
    accepted ((parser Memory.copy).run state (feed payload)) = payloadFrame payload ∧
      deliveredFrames ((parser Memory.copy).run state (feed payload)) = [payloadFrame payload] ∧
      Idle capacity ((parser Memory.copy).final state (feed payload)) := by
  have sound := readsBack.soundFrame (by omega)
  have room : (payloadFrame payload).length ≤ capacity := by rwa [length_payloadFrame]
  obtain ⟨stored, loaded, pending⟩ := idle.addData room
  obtain ⟨buffer, found, sameFrame, emptied, bounds⟩ :=
    loaded.readNext_frame sound (pending.trans (List.append_nil _).symm)
  refine ⟨?_, ?_, bounds.compressSpace fits _, compressSpace_compact _ _, ?_⟩
  · simp [LibEsClient.feed, accepted, acceptedBytes, Machine.run, Machine.transition, parser,
      stored]
  · simp [LibEsClient.feed, deliveredFrames, returnedBuffer, Machine.run, Machine.transition,
      parser, found, sameFrame]
  · exact (bounds.unread_compressSpace fits).trans emptied

theorem Idle.feed_all {capacity : Nat} {state : ParserState} (idle : Idle capacity state)
    (fits : capacity < 2 ^ 31) {payloads : List (List UInt8)}
    (small : ∀ payload ∈ payloads, 4 + payload.length ≤ capacity)
    (readsBack : ∀ payload ∈ payloads, ReadsBack payload) :
    accepted ((parser Memory.copy).run state (payloads.flatMap LibEsClient.feed)) =
        payloadStream payloads ∧
      deliveredPayloads ((parser Memory.copy).run state (payloads.flatMap LibEsClient.feed)) =
        payloads ∧
      Idle capacity ((parser Memory.copy).final state (payloads.flatMap LibEsClient.feed)) := by
  induction payloads generalizing state with
  | nil => exact ⟨rfl, rfl, idle⟩
  | cons payload rest ih =>
      obtain ⟨taken, given, next⟩ := idle.feed fits (small payload (by simp))
        (readsBack payload (by simp))
      obtain ⟨restTaken, restGiven, last⟩ := ih next
        (fun later member => small later (List.mem_cons_of_mem _ member))
        (fun later member => readsBack later (List.mem_cons_of_mem _ member))
      have delivered : deliveredPayloads
          ((parser Memory.copy).run state (LibEsClient.feed payload)) = [payload] := by
        simp [deliveredPayloads_eq, given]
      rw [List.flatMap_cons, Machine.run_append, Machine.final_append, accepted_append,
        deliveredPayloads_append, taken, restTaken, delivered, restGiven]
      exact ⟨rfl, rfl, last⟩

/-- One chunk and one read: NULL if the length it starts with is too large, and
else a payload of that length. -/
theorem Idle.feed_chunk {capacity : Nat} {state : ParserState} (idle : Idle capacity state)
    {chunk : List UInt8} (room : chunk.length ≤ capacity) (long : 4 ≤ chunk.length) :
    accepted ((parser Memory.copy).run state [.addData (.ofBytes chunk), .readNext]) = chunk ∧
      ((chunk.length < wrapInt (prefixLength (chunk.take 4) + 4) ∧
          deliveredPayloads
            ((parser Memory.copy).run state [.addData (.ofBytes chunk), .readNext]) = [] ∧
          Drained ((parser Memory.copy).run state [.addData (.ofBytes chunk), .readNext])) ∨
        ∃ payload, payload.length = (prefixLength (chunk.take 4)).toNat ∧
          deliveredPayloads
            ((parser Memory.copy).run state [.addData (.ofBytes chunk), .readNext]) =
              [payload]) := by
  obtain ⟨stored, bounds, pending⟩ := idle.addData room
  have length := bounds.length_unread
  rw [pending] at length
  have header := prefixLength_unread (LibEsClient.addData state (.ofBytes chunk)).1 (by omega)
  rw [pending] at header
  rw [header, length]
  refine ⟨by simp [accepted, acceptedBytes, Machine.run, Machine.transition, parser, stored], ?_⟩
  rcases readNext_cases (LibEsClient.addData state (.ofBytes chunk)).1 with
    ⟨same, short⟩ | ⟨found, _, _⟩
  · refine Or.inl ⟨by omega, ?_, ?_⟩
    · simp [deliveredPayloads, returnedBuffer, Machine.run, Machine.transition, parser, same]
    · refine ⟨[(parser Memory.copy).transition state (.addData (.ofBytes chunk))], _, [], rfl, rfl,
        ?_, rfl⟩
      simp [returnedBuffer, Machine.transition, parser, same]
  · refine Or.inr ⟨_, ?_, by
      simp [deliveredPayloads, returnedBuffer, Machine.run, Machine.transition, parser, found]
      rfl⟩
    simp [payloadOf]

/-- Whole payloads, then one chunk, from a fresh parser. -/
theorem exists_fed_session {capacity : Nat} (fits : capacity < 2 ^ 31)
    {before : List (List UInt8)} (small : ∀ payload ∈ before, 4 + payload.length ≤ capacity)
    (readsBack : ∀ payload ∈ before, ReadsBack payload) {chunk : List UInt8}
    (room : chunk.length ≤ capacity) (long : 4 ≤ chunk.length) :
    ∃ session : Session, session.capacity = capacity ∧ session.NonNegative ∧
      accepted (session.history Memory.copy) = payloadStream before ++ chunk ∧
      ((chunk.length < wrapInt (prefixLength (chunk.take 4) + 4) ∧
          deliveredPayloads (session.history Memory.copy) = before ∧
          Drained (session.history Memory.copy)) ∨
        ∃ payload, payload.length = (prefixLength (chunk.take 4)).toNat ∧
          deliveredPayloads (session.history Memory.copy) = before ++ [payload]) := by
  have started : Idle capacity (createParserState (fun _ => 0) 0 capacity) :=
    Session.start_idle ⟨fun _ => 0, 0, capacity, fits, []⟩
  obtain ⟨taken, given, idle⟩ := started.feed_all fits small readsBack
  obtain ⟨restTaken, outcome⟩ := idle.feed_chunk room long
  refine ⟨⟨fun _ => 0, 0, capacity, fits,
    before.flatMap feed ++ [Call.addData (.ofBytes chunk), Call.readNext]⟩, rfl, ?_, ?_, ?_⟩
  · intro call member
    rcases List.mem_append.mp member with fed | last
    · exact feed_nonNegative before call fed
    · rcases List.mem_pair.mp last with rfl | rfl
      · exact Int.natCast_nonneg _
      · trivial
  · rw [Session.history, Session.start, Machine.run_append, accepted_append, taken, restTaken]
  · simp only [Session.history, Session.start, Machine.run_append, deliveredPayloads_append, given]
    rcases outcome with ⟨short, nothing, drained⟩ | ⟨payload, length, delivered⟩
    · refine Or.inl ⟨short, by rw [nothing, List.append_nil], ?_⟩
      obtain ⟨earlier, step, later, same, facts⟩ := drained
      exact ⟨_ ++ earlier, step, later, by rw [same, List.append_assoc], facts⟩
    · exact Or.inr ⟨payload, length, by rw [delivered]⟩

theorem not_roundTrip_of_misread {capacity : Nat} (fits : capacity < 2 ^ 31)
    {payloads before after : List (List UInt8)} {payload : List UInt8}
    (small : ∀ payload ∈ payloads, 4 + payload.length ≤ capacity)
    (split : payloads = before ++ payload :: after)
    (readsBack : ∀ earlier ∈ before, ReadsBack earlier) (misread : ¬ReadsBack payload)
    (reached : (payloadStream (payload :: after)).length ≤ capacity ∨
      wrapInt (lengthReadBack payload.length + 4) ≤ capacity) :
    ¬FramingRoundTrip capacity payloads := by
  intro roundTrip
  have room := small payload (by rw [split]; simp)
  have earlierSmall : ∀ earlier ∈ before, 4 + earlier.length ≤ capacity := fun earlier member =>
    small earlier (by rw [split]; exact List.mem_append_left _ member)
  have streamSplit : payloadStream payloads =
      payloadStream before ++ payloadStream (payload :: after) := by
    simp [split, payloadStream]
  -- as much of the rest as the buffer takes, which is at least the misread prefix
  obtain ⟨chunk, isChunk⟩ : ∃ chunk, chunk = (payloadStream (payload :: after)).take capacity :=
    ⟨_, rfl⟩
  have chunkRoom : chunk.length ≤ capacity := by rw [isChunk]; simp
  have chunkLong : 4 ≤ chunk.length := by
    rw [isChunk]
    simp [payloadStream, payloadFrame]
    omega
  have header : prefixLength (chunk.take 4) = lengthReadBack payload.length := by
    rw [isChunk, List.take_take, Nat.min_eq_left (by omega), payloadStream, List.flatMap_cons,
      prefixLength_payloadFrame _ (by omega)]
  obtain ⟨session, sameCapacity, nonNegative, taken, outcome⟩ :=
    exists_fed_session fits earlierSmall readsBack chunkRoom chunkLong
  rw [header] at outcome
  obtain ⟨inOrder, complete⟩ := roundTrip session sameCapacity nonNegative (by
    rw [taken, streamSplit, isChunk]
    exact (List.prefix_append_right_inj _).mpr (List.take_prefix _ _))
  rcases outcome with ⟨short, nothing, drained⟩ | ⟨wrong, wrongLength, delivered⟩
  · have wholeRest : chunk = payloadStream (payload :: after) := by
      rw [isChunk, List.take_of_length_le]
      rw [isChunk, List.length_take] at short
      omega
    have all := complete (by rw [taken, wholeRest, streamSplit]) drained
    simp [nothing, split] at all
  · rw [delivered, split] at inOrder
    have same := (List.prefix_append_right_inj _).mp inOrder
    simp only [List.cons_prefix_cons, List.nil_prefix, and_true] at same
    rw [same] at wrongLength
    exact misread (by simpa [ReadsBack] using wrongLength.symm)

/-- The round trip holds exactly when no payload's length is misread or the first
misread one can neither be accepted with its rest nor be cut. -/
theorem framing_roundTrip_iff (capacity : Nat) (fits : capacity < 2 ^ 31)
    (payloads : List (List UInt8)) (small : ∀ payload ∈ payloads, 4 + payload.length ≤ capacity) :
    FramingRoundTrip capacity payloads ↔ MisreadBlocks capacity payloads := by
  constructor
  · intro roundTrip before payload after split readsBack misread
    by_contra reached
    refine not_roundTrip_of_misread fits small split readsBack misread ?_ roundTrip
    omega
  · intro blocks
    rcases readsBack_or_first_misread payloads with
      all | ⟨before, payload, after, split, readsBack, misread⟩
    · exact roundTrip_of_readsBack fits small all
    · obtain ⟨longer, beyond⟩ := blocks before payload after split readsBack misread
      exact roundTrip_of_blocked fits small split readsBack longer beyond

theorem framing_roundTrip_two_payloads : FramingRoundTrip 8 [[7, 8], [], [1, 2, 3]] :=
  (framing_roundTrip_iff 8 (by decide) [[7, 8], [], [1, 2, 3]] (by decide)).mpr
    (misreadBlocks_of_readsBack (by
      intro payload member
      fin_cases member <;> rfl))

/-- A payload of 0x8000 bytes behind the prefix `00 80 00 00` is read as one of 0x80FF. -/
theorem framing_roundTrip_misread :
    ¬FramingRoundTrip 32772 [List.replicate 32768 0] := by
  have size : (List.replicate 32768 (0 : UInt8)).length = 32768 := List.length_replicate
  refine not_roundTrip_of_misread (by decide) ?_ (List.nil_append _).symm (by simp) ?_ (Or.inl ?_)
  · intro payload member
    rw [List.mem_singleton.mp member, size]
  · rw [ReadsBack, size]
    decide
  · simp only [payloadStream, List.flatMap_cons, List.flatMap_nil, List.append_nil,
      length_payloadFrame, size]
    omega

end LibEsClient
