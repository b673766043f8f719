import LibEsClient.MsgParserCompaction
import LibEsClient.Spans

/-! What one call of `add_data` leaves behind: nothing where it does not accept its
chunk, and otherwise the chunk after the unread bytes, with the buffers handed
out since the last compaction untouched. -/

namespace LibEsClient

open FlatMemory Machines Spans

/-! The buffers a caller may still look into. -/

def outstandingAfter (buffers : List Buffer) (step : ParserStep) : List Buffer :=
  match step.input with
  | .compressSpace => []
  | _ => buffers ++ (returnedBuffer step).toList

def outstanding (history : List ParserStep) : List Buffer :=
  history.foldl outstandingAfter []

def Buffer.block (buffer : Buffer) : Int × Int :=
  (buffer.location - 4, buffer.location + buffer.length)

/-- The buffers handed out since the last compaction, with their prefixes, lie end
to end from the start of the parser's buffer up to the read pointer. -/
structure HandedOut (state : ParserState) (buffers : List Buffer) : Prop where
  adjoins : Adjoins state.bufferStart (buffers.map Buffer.block) state.parserRead
  lengths : ∀ buffer ∈ buffers, 0 ≤ buffer.length

theorem HandedOut.step {memcpy : Memory UInt8 → Int → Int → Nat → Memory UInt8}
    {state : ParserState} {buffers : List Buffer} (handedOut : HandedOut state buffers)
    {call : Call} (within : PrefixWithin ((parser memcpy).transition state call)) :
    HandedOut ((parser memcpy).step state call).1
      (outstandingAfter buffers ((parser memcpy).transition state call)) := by
  obtain ⟨adjoins, lengths⟩ := handedOut
  cases call with
  | addData data =>
      simp only [outstandingAfter, Machine.transition, parser, returnedBuffer, Option.toList_none,
        List.append_nil]
      rcases addData_cases state data with ⟨same, _, _⟩ | ⟨stored, _⟩
      · rw [same]
        exact ⟨adjoins, lengths⟩
      · rw [stored]
        exact ⟨adjoins, lengths⟩
  | readNext =>
      simp only [outstandingAfter, Machine.transition, parser, returnedBuffer]
      rcases readNext_trusted within.trusted with ⟨same, _⟩ | ⟨found, lower, _⟩
      · rw [same]
        simpa using (⟨adjoins, lengths⟩ : HandedOut state buffers)
      · rw [found]
        constructor
        · rw [Option.toList_some, List.map_append, List.map_singleton]
          refine adjoins_concat.mpr ⟨?_, ?_⟩
          · simpa [Buffer.block] using adjoins
          · simp only [Buffer.block]
            omega
        · intro buffer member
          rcases List.mem_append.mp member with prior | last
          · exact lengths buffer prior
          · obtain rfl := List.mem_singleton.mp last
            exact lower
  | compressSpace => exact ⟨(compressSpace_compact memcpy state).symm, by simp [outstandingAfter,
      Machine.transition]⟩

theorem Session.outstanding_handedOut
    {memcpy : Memory UInt8 → Int → Int → Nat → Memory UInt8} (session : Session)
    {earlier : List Call}
    (within : ∀ step ∈ (parser memcpy).run session.start earlier, PrefixWithin step) :
    HandedOut ((parser memcpy).final session.start earlier)
      (outstanding ((parser memcpy).run session.start earlier)) := by
  refine (parser memcpy).history_induction session.start PrefixWithin
    (fun history state => HandedOut state (outstanding history)) ?_ ?_ earlier within
  · exact ⟨rfl, by simp [outstanding]⟩
  · intro history before call handedOut guard
    rw [outstanding, List.foldl_concat]
    exact handedOut.step guard

structure BelowRead (state : ParserState) (buffer : Buffer) : Prop where
  lower : state.bufferStart + 4 ≤ buffer.location
  length : 0 ≤ buffer.length
  upper : buffer.location + buffer.length ≤ state.parserRead

theorem blocks_ordered {buffers : List Buffer} (lengths : ∀ buffer ∈ buffers, 0 ≤ buffer.length) :
    ∀ span ∈ buffers.map Buffer.block, span.1 ≤ span.2 := by
  intro span member
  obtain ⟨buffer, isBuffer, rfl⟩ := List.mem_map.mp member
  have length := lengths buffer isBuffer
  simp only [Buffer.block]
  omega

theorem HandedOut.belowRead {state : ParserState} {buffers : List Buffer}
    (handedOut : HandedOut state buffers) : ∀ buffer ∈ buffers, BelowRead state buffer := by
  intro buffer member
  obtain ⟨lower, upper⟩ := handedOut.adjoins.inside (blocks_ordered handedOut.lengths)
    buffer.block (List.mem_map_of_mem member)
  simp only [Buffer.block] at lower upper
  exact ⟨by omega, handedOut.lengths buffer member, upper⟩

structure View where
  parserRead : Int
  bufferEnd : Int
  bufferStart : Int
  bufferWrite : Int
  unread : List UInt8
  deriving DecidableEq

def viewOf (state : ParserState) : View where
  parserRead := state.parserRead
  bufferEnd := state.bufferEnd
  bufferStart := state.bufferStart
  bufferWrite := state.bufferWrite
  unread := unread state

def viewOfStep (step : ParserStep) : Result × Option (List UInt8) × View :=
  (step.output, (returnedBuffer step).map (frameOf step.after.memory), viewOf step.after)

def Removable (memcpy : Memory UInt8 → Int → Int → Nat → Memory UInt8) (state : ParserState)
    (data : Chunk) (later : List Call) : Prop :=
  viewOf (addData state data).1 = viewOf state ∧
    ((parser memcpy).run (addData state data).1 later).map viewOfStep =
      ((parser memcpy).run state later).map viewOfStep

structure Appends (history : List ParserStep) (state : ParserState) (data : Chunk) : Prop where
  code : (addData state data).2 = 0
  appended : unread (addData state data).1 = unread state ++ data.bytes
  sameRead : (addData state data).1.parserRead = state.parserRead
  sameFrames : ∀ buffer ∈ outstanding history,
    frameOf (addData state data).1.memory buffer = frameOf state.memory buffer

def LeavesNoTrace (memcpy : Memory UInt8 → Int → Int → Nat → Memory UInt8)
    (session : Session) : Prop :=
  ∀ earlier data later, session.calls = earlier ++ .addData data :: later →
    (data.length ≤ 0 ∨
        ((parser memcpy).final session.start earlier).bufferEnd -
          ((parser memcpy).final session.start earlier).bufferWrite < data.length →
      Removable memcpy ((parser memcpy).final session.start earlier) data later) ∧
    (0 < data.length →
      data.length ≤ ((parser memcpy).final session.start earlier).bufferEnd -
        ((parser memcpy).final session.start earlier).bufferWrite →
      Appends ((parser memcpy).run session.start earlier)
        ((parser memcpy).final session.start earlier) data)

theorem addData_unaccepted {state : ParserState} {data : Chunk} (nonNegative : 0 ≤ data.length)
    (unaccepted : data.length ≤ 0 ∨ state.bufferEnd - state.bufferWrite < data.length) :
    (addData state data).1 = state := by
  rcases addData_cases state data with ⟨same, _, _⟩ | ⟨stored, room⟩
  · rw [same]
  · have zero : data.length = 0 := by omega
    have empty : data.bytes = [] := by
      apply List.eq_nil_of_length_eq_zero
      rw [data.holds, zero]
      rfl
    rw [stored]
    simp [zero, empty]

theorem InBounds.addData_appends {capacity : Nat} {history : List ParserStep}
    {state : ParserState} (bounds : InBounds capacity state)
    (below : ∀ buffer ∈ outstanding history, BelowRead state buffer) {data : Chunk}
    (positive : 0 < data.length) (room : data.length ≤ state.bufferEnd - state.bufferWrite) :
    Appends history state data := by
  have ordered := bounds.readLeWrite
  rcases addData_cases state data with ⟨_, _, full⟩ | ⟨stored, _⟩
  · omega
  · have code : (LibEsClient.addData state data).2 = 0 := by rw [stored]
    refine ⟨code, unread_addData ordered (by omega) code, by rw [stored], ?_⟩
    intro buffer member
    obtain ⟨lower, length, upper⟩ := below buffer member
    rw [stored]
    exact Memory.read_write_disjoint _ _ _ _ _ (by omega)

/-- A session's calls of `add_data` leave no trace, or the chunk they accepted,
exactly when none of them is given a negative length. -/
theorem parser_leavesNoTrace_iff (session : Session)
    (within : ∀ step ∈ session.history Memory.copy, PrefixWithin step) :
    LeavesNoTrace Memory.copy session ↔ session.NonNegative := by
  constructor
  · intro noTrace call member
    cases call with
    | readNext => trivial
    | compressSpace => trivial
    | addData data =>
        by_contra negative
        simp only [Call.NonNegative] at negative
        obtain ⟨earlier, later, split⟩ := List.append_of_mem member
        have removable := (noTrace earlier data later split).1 (Or.inl (by omega))
        -- the write pointer has moved back
        have moved := congrArg View.bufferWrite removable.1
        rcases addData_cases ((parser Memory.copy).final session.start earlier) data with
          ⟨_, positive, _⟩ | ⟨stored, _⟩
        · omega
        · rw [stored] at moved
          simp only [viewOf] at moved
          omega
  · intro nonNegative earlier data later split
    have dataNonNegative : 0 ≤ data.length := nonNegative (.addData data) (by simp [split])
    have earlierWithin : ∀ step ∈ (parser Memory.copy).run session.start earlier,
        PrefixWithin step := fun step member => within step (session.mem_history split member)
    constructor
    · intro unaccepted
      have same := addData_unaccepted dataNonNegative unaccepted
      rw [Removable, same]
      exact ⟨rfl, rfl⟩
    · intro positive room
      exact (session.refinesAt nonNegative split earlierWithin).bounds.addData_appends
        (session.outstanding_handedOut earlierWithin).belowRead positive room

theorem parser_leavesNoTrace_full_buffer :
    LeavesNoTrace Memory.copy ⟨fun _ => 0, 0, 8, by decide,
      [.addData (.ofBytes [2, 0, 0, 0, 7, 8]), .addData (.ofBytes [1, 1, 1]), .readNext,
        .addData (.ofBytes [])]⟩ :=
  (parser_leavesNoTrace_iff ⟨fun _ => 0, 0, 8, by decide,
    [.addData (.ofBytes [2, 0, 0, 0, 7, 8]), .addData (.ofBytes [1, 1, 1]), .readNext,
      .addData (.ofBytes [])]⟩ (by decide)).mpr (by decide)

/-- The -1 of a `read` with no data, passed on, takes back a byte that was accepted. -/
theorem parser_leavesNoTrace_failed_read :
    ¬LeavesNoTrace Memory.copy ⟨fun _ => 0, 0, 8, by decide,
      [.addData (.ofBytes [2, 0, 0]), .addData (.failed 1)]⟩ := by
  intro noTrace
  have removable := (noTrace [.addData (.ofBytes [2, 0, 0])] (.failed 1) [] rfl).1
    (Or.inl (by decide))
  exact absurd removable.1 (by decide)

end LibEsClient
