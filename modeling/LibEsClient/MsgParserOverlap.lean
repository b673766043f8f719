import LibEsClient.MsgParserLifetime

/-! Where `compress_space` copies from and to. The gap in front of the unread bytes is
what was handed out since the last compaction, and the unread bytes are what was
accepted and not handed out: the copy is between disjoint regions exactly when there
is no more of the second than of the first. -/

namespace LibEsClient

open FlatMemory Machines Spans

def ReachesMemcpy (step : ParserStep) : Prop :=
  step.input = .compressSpace ∧ step.before.parserRead ≠ step.before.bufferStart ∧
    step.before.parserRead < step.before.bufferWrite

instance (step : ParserStep) : Decidable (ReachesMemcpy step) :=
  inferInstanceAs (Decidable (_ ∧ _ ∧ _))

def copyDestination (state : ParserState) : Set Int :=
  Set.Ico state.bufferStart (state.bufferStart + (state.bufferWrite - state.parserRead))

/-- Disjoint regions, which is what `memcpy` is asked for, and so nothing unread is lost. -/
structure CopiesApart (step : ParserStep) : Prop where
  disjoint : Disjoint (unreadRegion step.before) (copyDestination step.before)
  room : step.before.bufferWrite - step.before.parserRead ≤
    step.before.parserRead - step.before.bufferStart
  preserved : ∀ memcpy, CopiesDisjoint memcpy →
    unread (compressSpace memcpy step.before) = unread step.before

def CompactsDisjointly (memcpy : Memory UInt8 → Int → Int → Nat → Memory UInt8)
    (session : Session) : Prop :=
  ∀ step ∈ session.history memcpy, ReachesMemcpy step → CopiesApart step

/-! A history in bytes. -/

def handedOutBytes (history : List ParserStep) : Int :=
  ((outstanding history).map fun buffer => 4 + buffer.length).sum

def pendingBytes (history : List ParserStep) : Int :=
  (accepted history).length - (deliveredFrames history).flatten.length

def CoversPending (history : List ParserStep) : Prop :=
  handedOutBytes history = 0 ∨ pendingBytes history ≤ handedOutBytes history

instance (history : List ParserStep) : Decidable (CoversPending history) :=
  inferInstanceAs (Decidable (_ ∨ _))

theorem HandedOut.gap {state : ParserState} {history : List ParserStep}
    (handedOut : HandedOut state (outstanding history)) :
    state.parserRead - state.bufferStart = handedOutBytes history := by
  rw [← handedOut.adjoins.sum_lengths, handedOutBytes, List.map_map]
  congr 1
  apply List.map_congr_left
  intro buffer _
  simp only [Function.comp_apply, Buffer.block]
  omega

section Pending

variable {memcpy : Memory UInt8 → Int → Int → Nat → Memory UInt8}

theorem pendingBytes_concat (history : List ParserStep) (step : ParserStep) :
    pendingBytes (history ++ [step]) =
      pendingBytes history + (acceptedBytes step).length -
        ((returnedBuffer step).map (frameOf step.after.memory)).toList.flatten.length := by
  have last : accepted [step] = acceptedBytes step := by simp [accepted]
  rw [pendingBytes, pendingBytes, accepted_append, last, deliveredFrames_concat,
    List.flatten_append, List.length_append, List.length_append]
  omega

theorem InBounds.step_pending {capacity : Nat} {state : ParserState}
    (bounds : InBounds capacity state) (fits : capacity < 2 ^ 31) {call : Call}
    (nonNegative : call.NonNegative)
    (within : PrefixWithin ((parser memcpy).transition state call))
    {history : List ParserStep}
    (pending : state.bufferWrite - state.parserRead = pendingBytes history) :
    ((parser memcpy).step state call).1.bufferWrite -
        ((parser memcpy).step state call).1.parserRead =
      pendingBytes (history ++ [(parser memcpy).transition state call]) := by
  rw [pendingBytes_concat, ← pending]
  cases call with
  | addData data =>
      have length : 0 ≤ data.length := nonNegative
      have count := data.holds
      simp only [Machine.transition, parser, returnedBuffer, acceptedBytes, Option.map_none,
        Option.toList_none, List.flatten_nil, List.length_nil]
      rcases addData_cases state data with ⟨same, _, _⟩ | ⟨stored, _⟩
      · simp [same]
      · simp only [stored, if_true]
        omega
  | readNext =>
      simp only [Machine.transition, parser, returnedBuffer, acceptedBytes, List.length_nil]
      rcases readNext_trusted within.trusted with ⟨same, _⟩ | ⟨found, lower, _⟩
      · simp [same]
      · simp only [found, Option.map_some, Option.toList_some, List.flatten_singleton, frameOf,
          Memory.length_read]
        omega
  | compressSpace =>
      simp only [Machine.transition, parser, returnedBuffer, acceptedBytes, Option.map_none,
        Option.toList_none, List.flatten_nil, List.length_nil]
      rw [bounds.compressSpace_eq fits]
      split
      · omega
      · dsimp only
        omega

structure Counts (capacity : Nat) (history : List ParserStep) (state : ParserState) : Prop where
  bounds : InBounds capacity state
  pending : state.bufferWrite - state.parserRead = pendingBytes history
  gap : state.parserRead - state.bufferStart = handedOutBytes history

theorem Session.counts (session : Session) (nonNegative : session.NonNegative)
    {earlier later : List Call} (split : session.calls = earlier ++ later)
    (within : ∀ step ∈ (parser memcpy).run session.start earlier, PrefixWithin step) :
    Counts session.capacity ((parser memcpy).run session.start earlier)
      ((parser memcpy).final session.start earlier) := by
  refine ⟨run_inBounds session.start_inBounds session.fits earlier (nonNegative.earlier split)
    within, ?_, (session.outstanding_handedOut within).gap⟩
  refine session.earlier_induction nonNegative split within
    (fun history state => state.bufferWrite - state.parserRead = pendingBytes history) ?_ ?_
  · simp [Session.start, createParserState, pendingBytes, accepted, deliveredFrames]
  · intro history before call bounds pending callNonNegative stepWithin
    exact bounds.step_pending session.fits callNonNegative stepWithin pending

theorem Counts.covers_iff {capacity : Nat} {history : List ParserStep} {state : ParserState}
    (counts : Counts capacity history state)
    (memcpy : Memory UInt8 → Int → Int → Nat → Memory UInt8) :
    CoversPending history ↔
      (ReachesMemcpy ((parser memcpy).transition state .compressSpace) →
        state.bufferWrite - state.parserRead ≤ state.parserRead - state.bufferStart) := by
  obtain ⟨bounds, pending, gap⟩ := counts
  have startLeRead := bounds.startLeRead
  rw [CoversPending, ← pending, ← gap]
  constructor
  · rintro covers ⟨_, moved, _⟩
    simp only [Machine.transition] at moved
    omega
  · intro room
    by_cases reached : ReachesMemcpy ((parser memcpy).transition state .compressSpace)
    · exact Or.inr (room reached)
    · -- nothing in front of the unread bytes, or nothing unread
      simp only [ReachesMemcpy, Machine.transition, true_and, not_and] at reached
      omega

theorem InBounds.copiesApart {capacity : Nat} {state : ParserState}
    (bounds : InBounds capacity state) (fits : capacity < 2 ^ 31)
    (room : state.bufferWrite - state.parserRead ≤ state.parserRead - state.bufferStart) :
    CopiesApart ((parser memcpy).transition state .compressSpace) := by
  refine ⟨?_, room, ?_⟩
  · refine Set.Ico_disjoint_Ico.mpr ?_
    simp only [Machine.transition]
    omega
  · intro other conforming
    have same : (parser other).step state .compressSpace =
        (parser Memory.copy).step state .compressSpace :=
      bounds.step_congr fits copy_copiesDisjoint conforming fun _ _ _ => room
    have sameState : LibEsClient.compressSpace other state =
        LibEsClient.compressSpace Memory.copy state := congrArg Prod.fst same
    simp only [Machine.transition]
    rw [sameState]
    exact bounds.unread_compressSpace fits

end Pending

theorem forall_split_of_take {calls : List Call} {call : Call} {Holds : List Call → Prop}
    (holds : ∀ index < calls.length, calls[index]? = some call → Holds (calls.take index)) :
    ∀ earlier later, calls = earlier ++ call :: later → Holds earlier := by
  rintro earlier later rfl
  simpa using holds earlier.length (by simp) (by simp)

/-- Every copy of a session's compactions is between disjoint regions exactly when at
each of its calls of `compress_space` what was handed out covers what is pending. -/
theorem compaction_disjoint_iff (memcpy : Memory UInt8 → Int → Int → Nat → Memory UInt8)
    (session : Session) (nonNegative : session.NonNegative)
    (within : ∀ step ∈ session.history memcpy, PrefixWithin step) :
    CompactsDisjointly memcpy session ↔
      ∀ earlier later, session.calls = earlier ++ .compressSpace :: later →
        CoversPending ((parser memcpy).run session.start earlier) := by
  have counts {earlier later : List Call}
      (split : session.calls = earlier ++ .compressSpace :: later) :=
    session.counts nonNegative split fun step member =>
      within step (session.mem_history split member)
  constructor
  · intro disjoint earlier later split
    refine ((counts split).covers_iff memcpy).mpr fun reached => ?_
    have member := ((parser memcpy).mem_run_iff session.start session.calls _).mpr
      ⟨earlier, .compressSpace, later, split, rfl⟩
    exact (disjoint _ member reached).room
  · intro covers step member reached
    obtain ⟨earlier, call, later, split, rfl⟩ := ((parser memcpy).mem_run_iff _ _ _).mp member
    obtain rfl : call = .compressSpace := reached.1
    refine (counts split).bounds.copiesApart session.fits ?_
    exact ((counts split).covers_iff memcpy).mp (covers earlier later split) reached

theorem compaction_disjoint_two_frames :
    CompactsDisjointly Memory.copy ⟨fun _ => 0, 0, 16, by decide,
      [.compressSpace, .addData (.ofBytes [2, 0, 0, 0, 7, 8, 9, 0, 0, 0]), .readNext, .readNext,
        .compressSpace]⟩ :=
  (compaction_disjoint_iff Memory.copy ⟨fun _ => 0, 0, 16, by decide,
    [.compressSpace, .addData (.ofBytes [2, 0, 0, 0, 7, 8, 9, 0, 0, 0]), .readNext, .readNext,
      .compressSpace]⟩ (by decide) (by decide)).mpr (forall_split_of_take (by decide))

/-- One turn of the receive loop: five of the six bytes of a second frame are there
when the four of the first have been read. -/
theorem compaction_overlaps_part_of_frame :
    ¬CompactsDisjointly Memory.copy ⟨fun _ => 0, 0, 9, by decide,
      [.addData (.ofBytes [0, 0, 0, 0, 2, 0, 0, 0, 9]), .readNext, .readNext,
        .compressSpace]⟩ := by
  intro disjoint
  have member := ((parser Memory.copy).mem_run_iff (createParserState (fun _ => 0) 0 (9 : Nat))
    [.addData (.ofBytes [0, 0, 0, 0, 2, 0, 0, 0, 9]), .readNext, .readNext, .compressSpace] _).mpr
    ⟨[.addData (.ofBytes [0, 0, 0, 0, 2, 0, 0, 0, 9]), .readNext, .readNext], .compressSpace, [],
      rfl, rfl⟩
  exact absurd (disjoint _ member (by decide)).room (by decide)

end LibEsClient
