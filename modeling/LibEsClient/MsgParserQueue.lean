import LibEsClient.MsgParserBounds

/-! The parser against its abstract model, an unbounded queue of bytes that are
cut into frames. The unread bytes are the queue: an accepted chunk is pushed, a
call of `read_next` pops, and compaction is invisible, as long as its `memcpy`
copies what was there. -/

namespace LibEsClient

open FlatMemory Machines Framing

def prefixLength : List UInt8 → Int
  | [b0, b1, b2, b3] => frameLength b0 b1 b2 b3
  | _ => 0

/-- Four prefix bytes, then as many bytes as `read_next` computes from them. -/
def frameFormat : Format UInt8 where
  headerLength := 4
  bodyLength header := (prefixLength header).toNat

theorem stuck_nil : frameFormat.Stuck [] :=
  (Format.next_none_iff []).mpr (Or.inl (Nat.zero_lt_succ 3))

theorem prefixLength_read (memory : Memory UInt8) (i : Int) :
    prefixLength (memory.read i 4) = lengthAt memory i := by
  rw [Memory.read_four]
  rfl

theorem length_unread {state : ParserState} (ordered : state.parserRead ≤ state.bufferWrite) :
    ((unread state).length : Int) = state.bufferWrite - state.parserRead := by
  simp only [unread, Memory.length_read]
  omega

theorem InBounds.length_unread {capacity : Nat} {state : ParserState}
    (bounds : InBounds capacity state) :
    ((unread state).length : Int) = state.bufferWrite - state.parserRead :=
  LibEsClient.length_unread bounds.readLeWrite

theorem InBounds.length_unread_le {capacity : Nat} {state : ParserState}
    (bounds : InBounds capacity state) : (unread state).length ≤ capacity := by
  have length := bounds.length_unread
  obtain ⟨startLeRead, readLeWrite, writeLeEnd, size⟩ := bounds
  omega

theorem take_unread (state : ParserState) {count : Nat}
    (enough : (count : Int) ≤ state.bufferWrite - state.parserRead) :
    (unread state).take count = state.memory.read state.parserRead count := by
  obtain ⟨rest, split⟩ : ∃ rest, (state.bufferWrite - state.parserRead).toNat = count + rest :=
    ⟨(state.bufferWrite - state.parserRead).toNat - count, by omega⟩
  rw [unread, split, Memory.read_add, List.take_left' (Memory.length_read _ _ _)]

theorem prefixLength_unread (state : ParserState)
    (enough : 4 ≤ state.bufferWrite - state.parserRead) :
    prefixLength ((unread state).take 4) = lengthAt state.memory state.parserRead := by
  rw [take_unread state enough, prefixLength_read]

theorem size_unread (state : ParserState)
    (enough : 4 ≤ state.bufferWrite - state.parserRead) :
    frameFormat.size (unread state) =
      4 + (lengthAt state.memory state.parserRead).toNat := by
  change 4 + (prefixLength ((unread state).take 4)).toNat = _
  rw [prefixLength_unread state enough]

/-! The frame of the prefix at an address, and the unread bytes cut behind it. -/

theorem frameOf_read (memory : Memory UInt8) (i : Int) :
    frameOf memory { length := lengthAt memory i, location := i + 4 } =
      memory.read i (4 + (lengthAt memory i).toNat) := by
  have here : i + 4 - 4 = i := by omega
  simp only [frameOf, here]

theorem prefixLength_frameOf (memory : Memory UInt8) (i : Int) :
    prefixLength ((frameOf memory { length := lengthAt memory i, location := i + 4 }).take 4) =
      lengthAt memory i := by
  rw [frameOf_read, Memory.read_add, List.take_left' (Memory.length_read _ _ _),
    prefixLength_read]

theorem frameOf_isFrame (memory : Memory UInt8) (i : Int) :
    frameFormat.IsFrame (frameOf memory { length := lengthAt memory i, location := i + 4 }) := by
  change _ = 4 + (prefixLength (List.take 4 _)).toNat
  rw [prefixLength_frameOf, frameOf_read, Memory.length_read]

theorem unread_cut {state : ParserState}
    (lower : 0 ≤ lengthAt state.memory state.parserRead)
    (fits : lengthAt state.memory state.parserRead + 4 ≤ state.bufferWrite - state.parserRead) :
    unread state =
      frameOf state.memory
          { length := lengthAt state.memory state.parserRead, location := state.parserRead + 4 } ++
        unread
          { state with
            parserRead := state.parserRead + lengthAt state.memory state.parserRead + 4 } := by
  have count : (state.bufferWrite - state.parserRead).toNat =
      4 + (lengthAt state.memory state.parserRead).toNat +
        (state.bufferWrite -
          (state.parserRead + lengthAt state.memory state.parserRead + 4)).toNat := by omega
  have beyond : state.parserRead +
      ((4 + (lengthAt state.memory state.parserRead).toNat : Nat) : Int) =
        state.parserRead + lengthAt state.memory state.parserRead + 4 := by omega
  rw [frameOf_read]
  simp only [unread]
  rw [count, Memory.read_add, beyond]

/-! What each operation does to the queue. -/

theorem InBounds.next_unread {capacity : Nat} {state : ParserState}
    (bounds : InBounds capacity state)
    (within : 4 ≤ state.bufferWrite - state.parserRead →
      0 ≤ lengthAt state.memory state.parserRead ∧
        lengthAt state.memory state.parserRead ≤ 2 ^ 31 - 5) :
    frameFormat.next (unread state) =
      (LibEsClient.readNext state).2.map fun buffer =>
        (frameOf (LibEsClient.readNext state).1.memory buffer,
          unread (LibEsClient.readNext state).1) := by
  have length := bounds.length_unread
  rcases readNext_trusted within with ⟨same, short⟩ | ⟨found, lower, fits⟩
  · rw [same]
    apply (Format.next_none_iff _).mpr
    change (unread state).length < 4 ∨ _
    by_cases enough : 4 ≤ state.bufferWrite - state.parserRead
    · rw [size_unread state enough]
      omega
    · omega
  · rw [found, unread_cut lower fits, (frameOf_isFrame _ _).next_append]
    rfl

theorem unread_addData {state : ParserState} {data : Chunk}
    (ordered : state.parserRead ≤ state.bufferWrite) (nonNegative : 0 ≤ data.length)
    (stored : (addData state data).2 = 0) :
    unread (addData state data).1 = unread state ++ data.bytes := by
  rcases addData_cases state data with ⟨rejected, _, _⟩ | ⟨accepts, _⟩
  · simp [rejected] at stored
  · have count := data.holds
    have split : (state.bufferWrite + data.length - state.parserRead).toNat =
        (state.bufferWrite - state.parserRead).toNat + data.bytes.length := by omega
    have meeting : state.parserRead + ((state.bufferWrite - state.parserRead).toNat : Int) =
        state.bufferWrite := by omega
    rw [accepts]
    simp only [unread]
    rw [split, Memory.read_add, meeting, Memory.read_write_same,
      Memory.read_write_disjoint _ _ _ _ _ (by omega)]

theorem addData_rejected {state : ParserState} {data : Chunk}
    (rejected : (addData state data).2 ≠ 0) : (addData state data).1 = state := by
  rcases addData_cases state data with ⟨same, _, _⟩ | ⟨accepts, _⟩
  · rw [same]
  · simp [accepts] at rejected

theorem InBounds.unread_compressSpace {capacity : Nat} {state : ParserState}
    (bounds : InBounds capacity state) (fits : capacity < 2 ^ 31) :
    unread (LibEsClient.compressSpace Memory.copy state) = unread state := by
  rw [bounds.compressSpace_eq fits]
  split
  · rfl
  · have length : (state.bufferStart + (state.bufferWrite - state.parserRead) -
        state.bufferStart).toNat = (state.bufferWrite - state.parserRead).toNat := by omega
    simp only [unread, length]
    split
    · exact Memory.read_copy_same _ _ _ _
    · have empty : (state.bufferWrite - state.parserRead).toNat = 0 := by omega
      simp [empty]

theorem compressSpace_compact (memcpy : Memory UInt8 → Int → Int → Nat → Memory UInt8)
    (state : ParserState) :
    (compressSpace memcpy state).parserRead = (compressSpace memcpy state).bufferStart := by
  unfold compressSpace
  by_cases compact : state.parserRead = state.bufferStart
  · simp [compact]
  · simp [compact]

theorem InBounds.addData_accepted {capacity : Nat} {state : ParserState}
    (bounds : InBounds capacity state) (compact : state.parserRead = state.bufferStart)
    {data : Chunk} (room : (unread state).length + data.bytes.length ≤ capacity) :
    (LibEsClient.addData state data).2 = 0 := by
  have length := bounds.length_unread
  have size := bounds.size
  have count := data.holds
  rcases addData_cases state data with ⟨_, _, full⟩ | ⟨stored, _⟩
  · omega
  · rw [stored]

/-! The refinement, step by step and then over a run. -/

def requestOf (step : ParserStep) : Option (Request UInt8) :=
  match step.input, step.output with
  | .addData data, .added code => if code = 0 then some (.push data.bytes) else none
  | .readNext, _ => some .pop
  | _, _ => none

def requests (history : List ParserStep) : List (Request UInt8) :=
  history.filterMap requestOf

theorem pushed_requests (history : List ParserStep) :
    (requests history).flatMap Request.pushed = accepted history := by
  induction history with
  | nil => rfl
  | cons step rest ih =>
      simp only [requests, accepted, List.filterMap_cons, List.flatMap_cons] at ih ⊢
      rw [← ih]
      unfold requestOf acceptedBytes
      rcases step with ⟨before, input, output, after⟩
      cases input <;> cases output <;> dsimp only
      case addData.added data code =>
        by_cases stored : code = 0 <;> simp [stored, Request.pushed]
      all_goals simp [Request.pushed]

theorem InBounds.step_refines {capacity : Nat} {state : ParserState}
    (bounds : InBounds capacity state) (fits : capacity < 2 ^ 31) {call : Call}
    (nonNegative : call.NonNegative)
    (within : PrefixWithin ((parser Memory.copy).transition state call)) :
    match requestOf ((parser Memory.copy).transition state call) with
    | none =>
        unread ((parser Memory.copy).step state call).1 = unread state ∧
          returnedBuffer ((parser Memory.copy).transition state call) = none
    | some request =>
        (queue frameFormat).step (unread state) request =
          (unread ((parser Memory.copy).step state call).1,
            (returnedBuffer ((parser Memory.copy).transition state call)).map
              (frameOf ((parser Memory.copy).step state call).1.memory)) := by
  cases call with
  | addData data =>
      by_cases stored : (LibEsClient.addData state data).2 = 0
      · have pushed := unread_addData bounds.readLeWrite nonNegative stored
        simp [requestOf, Machine.transition, parser, stored, queue, pushed, returnedBuffer]
      · have same := addData_rejected stored
        simp [requestOf, Machine.transition, parser, stored, same, returnedBuffer]
  | readNext =>
      have next := bounds.next_unread within.trusted
      simp only [requestOf, Machine.transition, parser, queue, next, returnedBuffer]
      cases found : (LibEsClient.readNext state).2 with
      | none =>
          simp [readNext_null_same found]
      | some buffer => simp
  | compressSpace =>
      have same := bounds.unread_compressSpace fits
      simp [requestOf, Machine.transition, parser, same, returnedBuffer]

/-- A history as the queue sees it: the calls so far are a run of the queue from
empty to the unread bytes that pops the delivered frames. -/
structure Refines (capacity : Nat) (history : List ParserStep) (state : ParserState) : Prop where
  bounds : InBounds capacity state
  pending : (queue frameFormat).final [] (requests history) = unread state
  frames : popped ((queue frameFormat).run [] (requests history)) = deliveredFrames history
  small : ∀ frame ∈ deliveredFrames history, frame.length ≤ capacity

theorem requests_concat (history : List ParserStep) (step : ParserStep) :
    requests (history ++ [step]) = requests history ++ (requestOf step).toList := by
  rw [requests, List.filterMap_append]
  cases made : requestOf step <;> simp [requests, made]

theorem deliveredFrames_concat (history : List ParserStep) (step : ParserStep) :
    deliveredFrames (history ++ [step]) =
      deliveredFrames history ++
        ((returnedBuffer step).map (frameOf step.after.memory)).toList := by
  rw [deliveredFrames, List.filterMap_append]
  cases returned : returnedBuffer step <;> simp [deliveredFrames, returned]

theorem Refines.step {capacity : Nat} {history : List ParserStep} {state : ParserState}
    (refines : Refines capacity history state) (fits : capacity < 2 ^ 31) {call : Call}
    (nonNegative : call.NonNegative)
    (within : PrefixWithin ((parser Memory.copy).transition state call)) :
    Refines capacity (history ++ [(parser Memory.copy).transition state call])
      ((parser Memory.copy).step state call).1 := by
  obtain ⟨bounds, pending, frames, small⟩ := refines
  have next := bounds.step fits nonNegative within
  have refined := bounds.step_refines fits nonNegative within
  cases request : requestOf ((parser Memory.copy).transition state call) with
  | none =>
      simp only [request] at refined
      obtain ⟨sameUnread, nothing⟩ := refined
      constructor
      · exact next
      · rw [requests_concat, request, Option.toList_none, List.append_nil, pending, sameUnread]
      · rw [requests_concat, deliveredFrames_concat, request, nothing]
        simpa using frames
      · rw [deliveredFrames_concat, nothing]
        simpa using small
  | some made =>
      simp only [request] at refined
      constructor
      · exact next
      · rw [requests_concat, request, Option.toList_some, Machine.final_concat, pending, refined]
      · rw [requests_concat, request, Option.toList_some, popped_concat, pending, frames, refined,
          deliveredFrames_concat]
        rfl
      · intro frame member
        rw [deliveredFrames_concat] at member
        rcases List.mem_append.mp member with prior | last
        · exact small frame prior
        · have output := congrArg Prod.snd refined
          have found := output.trans (Option.mem_toList.mp last)
          exact Nat.le_trans (queue_step_popped _ made frame found).2 bounds.length_unread_le

theorem Session.refinesAt (session : Session) (nonNegative : session.NonNegative)
    {earlier later : List Call} (split : session.calls = earlier ++ later)
    (within : ∀ step ∈ (parser Memory.copy).run session.start earlier, PrefixWithin step) :
    Refines session.capacity ((parser Memory.copy).run session.start earlier)
      ((parser Memory.copy).final session.start earlier) := by
  refine session.earlier_induction nonNegative split within (Refines session.capacity) ?_ ?_
  · refine ⟨session.start_inBounds, ?_, rfl, by simp [deliveredFrames]⟩
    simp [requests, Machine.final, unread, Session.start, createParserState]
  · intro history before call _ refines callNonNegative stepWithin
    exact refines.step session.fits callNonNegative stepWithin

theorem Session.refines (session : Session) (nonNegative : session.NonNegative)
    (within : ∀ step ∈ session.history Memory.copy, PrefixWithin step) :
    Refines session.capacity (session.history Memory.copy) (session.final Memory.copy) :=
  session.refinesAt nonNegative (List.append_nil _).symm within

theorem Refines.conserves {capacity : Nat} {history : List ParserStep} {state : ParserState}
    (refines : Refines capacity history state) :
    (deliveredFrames history).flatten ++ unread state = accepted history := by
  have conserved : (popped ((queue frameFormat).run [] (requests history))).flatten ++
      (queue frameFormat).final [] (requests history) =
        [] ++ (requests history).flatMap Request.pushed := queue_conserves [] _
  rwa [refines.frames, refines.pending, pushed_requests, List.nil_append] at conserved

theorem Refines.isFrame {capacity : Nat} {history : List ParserStep} {state : ParserState}
    (refines : Refines capacity history state) :
    ∀ frame ∈ deliveredFrames history, frameFormat.IsFrame frame := by
  rw [← refines.frames]
  exact popped_isFrame [] (requests history)

end LibEsClient
