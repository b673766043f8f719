import LibEsClient.MsgParserStream

/-! The receive loop of `foo_main.c`: each chunk is added, messages are read until
there are none, and the buffer is compacted. After each turn at most a proper
part of one frame is left, at the start of the buffer. -/

namespace LibEsClient

open FlatMemory Machines Framing

/-- `read_next` until it returns NULL. The fuel bounds the number of calls. -/
def readMessages : Nat → ParserState → Option (ParserState × List (List UInt8))
  | 0, _ => none
  | fuel + 1, state =>
      match (readNext state).2 with
      | none => some ((readNext state).1, [])
      | some msg =>
          (readMessages fuel (readNext state).1).map fun result =>
            (result.1, frameOf (readNext state).1.memory msg :: result.2)

/-- The state after the loop, what `add_data` returned in each turn, which the
loop itself never looks at, and the frames read in order. -/
structure Received where
  state : ParserState
  codes : List Int
  frames : List (List UInt8)

def receiveLoop (memcpy : Memory UInt8 → Int → Int → Nat → Memory UInt8) (fuel : Nat) :
    ParserState → List Chunk → Option Received
  | state, [] => some { state := state, codes := [], frames := [] }
  | state, data :: later =>
      match readMessages fuel (addData state data).1 with
      | none => none
      | some (drained, frames) =>
          (receiveLoop memcpy fuel (compressSpace memcpy drained) later).map fun rest =>
            { state := rest.state
              codes := (addData state data).2 :: rest.codes
              frames := frames ++ rest.frames }

theorem InBounds.readNext_null {capacity : Nat} {state : ParserState}
    (bounds : InBounds capacity state) {sent : List (List UInt8)} {rest : List UInt8}
    (frames : ∀ frame ∈ sent, SoundFrame frame) (pending : unread state ++ rest = sent.flatten)
    (stuck : frameFormat.Stuck (unread state)) :
    (LibEsClient.readNext state).2 = none ∧ (LibEsClient.readNext state).1 = state := by
  have length := bounds.length_unread
  have next := bounds.next_unread fun enough => by
    rw [← prefixLength_unread state enough]
    have noneCut : ∀ frame ∈ ([] : List (List UInt8)),
        frameFormat.IsFrame frame ∧ frame.length ≤ capacity := by simp
    exact prefix_within_of_stream frames (blocks_nil capacity)
      (fun frame member => (noneCut frame member).1) (fun frame member => (noneCut frame member).2)
      (by simpa using pending) (by omega)
  rw [stuck] at next
  have null : (LibEsClient.readNext state).2 = none := Option.map_eq_none_iff.mp next.symm
  exact ⟨null, readNext_null_same null⟩

theorem readMessages_delivers {capacity fuel : Nat} {state : ParserState}
    (bounds : InBounds capacity state) {sent : List (List UInt8)} {rest : List UInt8}
    (frames : ∀ frame ∈ sent, SoundFrame frame) (pending : unread state ++ rest = sent.flatten)
    (enough : (unread state).length < fuel) :
    ∃ drained given more, readMessages fuel state = some (drained, given) ∧
      sent = given ++ more ∧ unread drained ++ rest = more.flatten ∧
      InBounds capacity drained ∧
      ∀ frame later, more = frame :: later → (unread drained).length < frame.length := by
  induction fuel generalizing state sent with
  | zero => omega
  | succ fuel ih =>
      rcases Format.whole_or_part (fun frame member => (frames frame member).isFrame) pending with
        ⟨frame, more, left, rfl, split, tail⟩ | ⟨frame, more, rfl, shorter, stuck⟩ | ⟨rfl, empty⟩
      · have sound := frames frame (by simp)
        obtain ⟨msg, found, sameFrame, leaves, nextBounds⟩ := bounds.readNext_frame sound split
        have header : 4 ≤ frame.length := sound.isFrame.headerLength_le
        rw [← leaves] at tail
        obtain ⟨drained, given, remaining, result, cut, facts⟩ := ih nextBounds
          (fun later member => frames later (List.mem_cons_of_mem _ member)) tail (by
            rw [leaves]
            rw [split, List.length_append] at enough
            omega)
        refine ⟨drained, frame :: given, remaining, ?_, by rw [cut]; rfl, facts⟩
        simp [readMessages, found, result, sameFrame]
      · obtain ⟨null, same⟩ := bounds.readNext_null frames pending stuck
        refine ⟨state, [], frame :: more, by simp [readMessages, null, same], rfl, pending, bounds,
          ?_⟩
        rintro _ _ ⟨rfl, rfl⟩
        exact shorter
      · have stuck : frameFormat.Stuck (unread state) := empty ▸ stuck_nil
        obtain ⟨null, same⟩ := bounds.readNext_null frames pending stuck
        exact ⟨state, [], [], by simp [readMessages, null, same], rfl, pending, bounds, by simp⟩

theorem receiveLoop_delivers {capacity frameBound chunkBound fuel : Nat}
    (fits : capacity < 2 ^ 31) (room : frameBound - 1 + chunkBound ≤ capacity)
    (enough : capacity < fuel) {chunks : List (List UInt8)} {state : ParserState}
    (bounds : InBounds capacity state) (compact : state.parserRead = state.bufferStart)
    {sent : List (List UInt8)}
    (frames : ∀ frame ∈ sent, SoundFrame frame ∧ frame.length ≤ frameBound)
    (sizes : ∀ chunk ∈ chunks, chunk.length ≤ chunkBound)
    (pending : unread state ++ chunks.flatten = sent.flatten)
    (part : ∀ frame later, sent = frame :: later → (unread state).length < frame.length) :
    ∃ received, receiveLoop Memory.copy fuel state (chunks.map .ofBytes) = some received ∧
      received.codes = List.replicate chunks.length 0 ∧ received.frames = sent ∧
      Idle capacity received.state := by
  induction chunks generalizing state sent with
  | nil =>
      rw [List.flatten_nil, List.append_nil] at pending
      cases sent with
      | nil => exact ⟨_, rfl, rfl, rfl, bounds, compact, pending⟩
      | cons frame more =>
          have shorter := part frame more rfl
          rw [pending, List.flatten_cons, List.length_append] at shorter
          omega
  | cons chunk later ih =>
      have size := sizes chunk (by simp)
      rw [List.flatten_cons, ← List.append_assoc] at pending
      have fit : (unread state).length + chunk.length ≤ capacity := by
        cases sent with
        | nil =>
            have lengths := congrArg List.length pending
            simp only [List.length_append, List.flatten_nil, List.length_nil] at lengths
            omega
        | cons frame more =>
            have shorter := part frame more rfl
            have bound := (frames frame (by simp)).2
            omega
      have nonNegative : 0 ≤ (Chunk.ofBytes chunk).length := Int.natCast_nonneg _
      have stored : (addData state (.ofBytes chunk)).2 = 0 := bounds.addData_accepted compact fit
      have appended := unread_addData bounds.readLeWrite nonNegative stored
      have addedBounds := bounds.addData nonNegative
      rw [Chunk.bytes_ofBytes] at appended
      rw [← appended] at pending
      obtain ⟨drained, given, more, read, rfl, tail, drainedBounds, drainedPart⟩ :=
        readMessages_delivers addedBounds (fun frame member => (frames frame member).1) pending
          (Nat.lt_of_le_of_lt addedBounds.length_unread_le enough)
      have sameUnread := drainedBounds.unread_compressSpace fits
      rw [← sameUnread] at tail drainedPart
      obtain ⟨rest, done, codes, others, idle⟩ := ih (drainedBounds.compressSpace fits _)
        (compressSpace_compact _ _)
        (fun frame member => frames frame (List.mem_append_right _ member))
        (fun chunk member => sizes chunk (List.mem_cons_of_mem _ member)) tail drainedPart
      refine ⟨{ state := rest.state
                codes := (addData state (.ofBytes chunk)).2 :: rest.codes
                frames := given ++ rest.frames }, ?_, ?_, ?_, idle⟩
      · simp only [List.map_cons, receiveLoop, read, done, Option.map_some]
      · simp only [codes, stored, List.length_cons, List.replicate_succ]
      · simp only [others]

/-- For frames of at most `frameBound` bytes in chunks of at most `chunkBound`, with
room for a chunk beside the largest part of a frame, the loop never meets a
rejected chunk, delivers exactly the stream's frames and leaves the buffer empty. -/
theorem receiveLoop_delivers_all {capacity frameBound chunkBound : Nat} (fits : capacity < 2 ^ 31)
    (header : 4 ≤ frameBound) (room : frameBound - 1 + chunkBound ≤ capacity)
    {sent chunks : List (List UInt8)}
    (frames : ∀ frame ∈ sent, frameFormat.IsFrame frame ∧ 0 ≤ prefixLength (frame.take 4) ∧
      frame.length ≤ frameBound)
    (sizes : ∀ chunk ∈ chunks, chunk.length ≤ chunkBound) (split : chunks.flatten = sent.flatten)
    (memory : Memory UInt8) (address : Int) {fuel : Nat} (enough : capacity < fuel) :
    ∃ received,
      receiveLoop Memory.copy fuel (createParserState memory address capacity)
          (chunks.map .ofBytes) = some received ∧
        received.codes = List.replicate chunks.length 0 ∧ received.frames = sent ∧
        received.state.parserRead = received.state.bufferStart ∧
        received.state.bufferWrite = received.state.bufferStart := by
  have start : Idle capacity (createParserState memory address capacity) :=
    Session.start_idle ⟨memory, address, capacity, fits, []⟩
  have sound : ∀ frame ∈ sent, SoundFrame frame ∧ frame.length ≤ frameBound := by
    intro frame member
    obtain ⟨isFrame, lower, bound⟩ := frames frame member
    have size : frame.length = 4 + (prefixLength (frame.take 4)).toNat := isFrame
    -- a stream that is not empty needs chunks that are not, so one byte more fits
    have chunked : 1 ≤ chunkBound := by
      by_contra noRoom
      have empty : chunks.flatten = [] := by
        apply List.flatten_eq_nil_iff.mpr
        intro chunk member
        have size := sizes chunk member
        exact List.eq_nil_of_length_eq_zero (by omega)
      rw [empty] at split
      have nothing := List.flatten_eq_nil_iff.mp split.symm frame member
      rw [nothing, List.length_nil] at size
      omega
    exact ⟨⟨isFrame, lower, by omega⟩, bound⟩
  obtain ⟨received, done, codes, given, idle⟩ := receiveLoop_delivers fits room enough start.bounds
    start.compact sound sizes (by rw [start.nothing, split]; rfl) (by
      rintro frame later rfl
      have long : 4 ≤ frame.length := (sound frame (by simp)).1.isFrame.headerLength_le
      rw [start.nothing, List.length_nil]
      omega)
  refine ⟨received, done, codes, given, idle.compact, ?_⟩
  have length := idle.bounds.length_unread
  rw [idle.nothing, idle.compact] at length
  simp only [List.length_nil] at length
  omega

theorem receiveLoop_delivers_split_frame :
    ∃ received,
      receiveLoop Memory.copy 9 (createParserState (fun _ => 0) 0 (8 : Nat))
          ([[2, 0, 0], [0, 7, 8], [0, 0, 0], [0]].map .ofBytes) = some received ∧
        received.codes = List.replicate 4 0 ∧
        received.frames = [[2, 0, 0, 0, 7, 8], [0, 0, 0, 0]] ∧
        received.state.parserRead = received.state.bufferStart ∧
        received.state.bufferWrite = received.state.bufferStart :=
  @receiveLoop_delivers_all 8 6 3 (by decide) (by decide) (by decide)
    [[2, 0, 0, 0, 7, 8], [0, 0, 0, 0]] [[2, 0, 0], [0, 7, 8], [0, 0, 0], [0]] (by decide)
    (by decide) (by decide) (fun _ => 0) 0 9 (by decide)

end LibEsClient
