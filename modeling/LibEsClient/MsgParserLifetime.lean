import LibEsClient.MsgParserEffects

/-! How long a returned buffer may be looked into. It points into the parser's own
memory, below the read pointer; until the next compaction the parser only writes
from the write pointer on. -/

namespace LibEsClient

open FlatMemory Machines Spans

def Buffer.region (buffer : Buffer) : Set Int :=
  Set.Ico buffer.location (buffer.location + buffer.length)

def unreadRegion (state : ParserState) : Set Int :=
  Set.Ico state.parserRead state.bufferWrite

structure WritesAbove (before after : ParserState) : Prop where
  pointer : before.bufferWrite ≤ after.bufferWrite
  memory : ∀ target, target < before.bufferWrite → after.memory target = before.memory target

theorem WritesAbove.refl (state : ParserState) : WritesAbove state state :=
  ⟨Int.le_refl _, fun _ _ => rfl⟩

theorem WritesAbove.trans {before middle after : ParserState} (first : WritesAbove before middle)
    (second : WritesAbove middle after) : WritesAbove before after := by
  refine ⟨Int.le_trans first.pointer second.pointer, ?_⟩
  intro target below
  rw [second.memory target (Int.lt_of_lt_of_le below first.pointer), first.memory target below]

theorem WritesAbove.payloadOf {before after : ParserState} (above : WritesAbove before after)
    {buffer : Buffer} (below : buffer.location + buffer.length ≤ before.bufferWrite) :
    LibEsClient.payloadOf after.memory buffer = LibEsClient.payloadOf before.memory buffer := by
  apply Memory.read_congr
  intro target lower upper
  exact above.memory target (by omega)

section Runs

variable {memcpy : Memory UInt8 → Int → Int → Nat → Memory UInt8}

theorem step_writesAbove (state : ParserState) {call : Call} (nonNegative : call.NonNegative)
    (noCompaction : call ≠ .compressSpace) :
    WritesAbove state ((parser memcpy).step state call).1 := by
  cases call with
  | addData data =>
      have length : 0 ≤ data.length := nonNegative
      simp only [parser]
      rcases addData_cases state data with ⟨same, _, _⟩ | ⟨stored, _⟩
      · rw [same]
        exact .refl state
      · rw [stored]
        refine ⟨by dsimp only; omega, ?_⟩
        intro target below
        exact Memory.write_outside _ _ _ _ (Or.inl below)
  | readNext =>
      simp only [parser]
      rcases readNext_cases state with ⟨same, _⟩ | ⟨found, _, _⟩
      · rw [same]
        exact .refl state
      · rw [found]
        exact ⟨Int.le_refl _, fun _ _ => rfl⟩
  | compressSpace => exact absurd rfl noCompaction

theorem final_writesAbove (state : ParserState) {calls : List Call}
    (nonNegative : ∀ call ∈ calls, call.NonNegative) (noCompaction : Call.compressSpace ∉ calls) :
    WritesAbove state ((parser memcpy).final state calls) := by
  induction calls generalizing state with
  | nil => exact .refl state
  | cons call rest ih =>
      have first := @step_writesAbove memcpy state call (nonNegative call (by simp))
        (fun same => noCompaction (by simp [same]))
      exact first.trans (ih _ (fun later member => nonNegative later (List.mem_cons_of_mem _ member))
        (fun member => noCompaction (List.mem_cons_of_mem _ member)))

end Runs

/-! The regions of the buffers handed out. -/

theorem mem_outstanding_readNext {memcpy : Memory UInt8 → Int → Int → Nat → Memory UInt8}
    {start : ParserState} {calls : List Call} {buffer : Buffer}
    (found : (readNext ((parser memcpy).final start calls)).2 = some buffer) :
    buffer ∈ outstanding ((parser memcpy).run start (calls ++ [.readNext])) := by
  have returned : returnedBuffer
      ((parser memcpy).transition ((parser memcpy).final start calls) .readNext) = some buffer :=
    found
  rw [Machine.run_concat, outstanding, List.foldl_concat, outstandingAfter]
  simp only [Machine.transition] at returned ⊢
  rw [returned]
  simp

theorem HandedOut.pairwise_disjoint {state : ParserState} {buffers : List Buffer}
    (handedOut : HandedOut state buffers) :
    buffers.Pairwise fun first second => Disjoint first.region second.region := by
  have blocks := handedOut.adjoins.pairwise_disjoint (blocks_ordered handedOut.lengths)
  refine (List.pairwise_map.mp blocks).imp ?_
  intro first second apart
  have payload (buffer : Buffer) :
      buffer.region ⊆ Set.Ico buffer.block.1 buffer.block.2 :=
    Set.Ico_subset_Ico_left (by simp [Buffer.block])
  exact apart.mono (payload first) (payload second)

theorem BelowRead.disjoint_unread {state : ParserState} {buffer : Buffer}
    (below : BelowRead state buffer) : Disjoint buffer.region (unreadRegion state) :=
  Set.Ico_disjoint_Ico.mpr ((min_le_left _ _).trans (below.upper.trans (le_max_right _ _)))

/-- What a caller that keeps returned buffers relies on: their bytes stand until the
next compaction, and they overlap neither one another nor what is unread. -/
structure KeepsBuffers (memcpy : Memory UInt8 → Int → Int → Nat → Memory UInt8)
    (session : Session) : Prop where
  intact : ∀ earlier between later,
    session.calls = earlier ++ .readNext :: (between ++ later) → .compressSpace ∉ between →
      ∀ buffer, (readNext ((parser memcpy).final session.start earlier)).2 = some buffer →
        payloadOf ((parser memcpy).final session.start (earlier ++ .readNext :: between)).memory
            buffer =
          payloadOf (readNext ((parser memcpy).final session.start earlier)).1.memory buffer
  apart : ∀ earlier later, session.calls = earlier ++ later →
    (outstanding ((parser memcpy).run session.start earlier)).Pairwise fun first second =>
      Disjoint first.region second.region
  unreadApart : ∀ earlier later, session.calls = earlier ++ later →
    ∀ buffer ∈ outstanding ((parser memcpy).run session.start earlier),
      Disjoint buffer.region (unreadRegion ((parser memcpy).final session.start earlier))

theorem returned_buffers_kept (memcpy : Memory UInt8 → Int → Int → Nat → Memory UInt8)
    (session : Session) (nonNegative : session.NonNegative)
    (within : ∀ step ∈ session.history memcpy, PrefixWithin step) :
    KeepsBuffers memcpy session := by
  have handedOut {earlier later : List Call} (split : session.calls = earlier ++ later) :=
    session.outstanding_handedOut fun step member => within step (session.mem_history split member)
  constructor
  · intro earlier between later split noCompaction buffer found
    have readSplit : session.calls = (earlier ++ [.readNext]) ++ (between ++ later) := by
      simp [split]
    have bounds := run_inBounds session.start_inBounds session.fits (earlier ++ [.readNext])
      (nonNegative.earlier readSplit) fun step member =>
        within step (session.mem_history readSplit member)
    -- the buffer is the last one handed out, so it lies below the read pointer
    have below := (handedOut readSplit).belowRead buffer (mem_outstanding_readNext found)
    rw [Machine.final_concat] at bounds below
    rw [List.append_cons, Machine.final_append, Machine.final_concat]
    refine (final_writesAbove _ ?_ noCompaction).payloadOf
      (Int.le_trans below.upper bounds.readLeWrite)
    intro call member
    exact nonNegative call (by rw [split]; simp [member])
  · exact fun _ _ split => (handedOut split).pairwise_disjoint
  · exact fun _ _ split buffer member =>
      ((handedOut split).belowRead buffer member).disjoint_unread

theorem returned_buffers_kept_two_frames :
    KeepsBuffers Memory.copy ⟨fun _ => 0, 0, 16, by decide,
      [.addData (.ofBytes [2, 0, 0, 0, 7, 8, 1]), .readNext, .addData (.ofBytes [0, 0, 0, 9, 3]),
        .readNext, .readNext, .addData (.ofBytes [1, 2, 3, 4, 5]), .compressSpace]⟩ :=
  returned_buffers_kept Memory.copy ⟨fun _ => 0, 0, 16, by decide,
    [.addData (.ofBytes [2, 0, 0, 0, 7, 8, 1]), .readNext, .addData (.ofBytes [0, 0, 0, 9, 3]),
      .readNext, .readNext, .addData (.ofBytes [1, 2, 3, 4, 5]), .compressSpace]⟩
    (by decide) (by decide)

end LibEsClient
