import LibEsClient.MsgParserQueue

/-! The queue as a caller sees it, and what it asks of `compress_space`. The
pending bytes are moved with `memcpy`, whose result is open where source and
destination overlap; any routine that copies disjoint regions may stand there. -/

namespace LibEsClient

open FlatMemory Machines Framing

/-- A compaction that reaches its `memcpy` moves no more than the gap before it. -/
def CompactsApart (step : ParserStep) : Prop :=
  step.input = .compressSpace → step.before.parserRead ≠ step.before.bufferStart →
    step.before.parserRead < step.before.bufferWrite →
      step.before.bufferWrite - step.before.parserRead ≤
        step.before.parserRead - step.before.bufferStart

instance (step : ParserStep) : Decidable (CompactsApart step) :=
  inferInstanceAs (Decidable (_ → _ → _ → _))

instance (step : ParserStep) : Decidable (PrefixWithin step) :=
  inferInstanceAs (Decidable (_ → _))

section Conforming

variable {memcpy other : Memory UInt8 → Int → Int → Nat → Memory UInt8}

theorem InBounds.step_congr {capacity : Nat} {state : ParserState}
    (bounds : InBounds capacity state) (fits : capacity < 2 ^ 31)
    (conforming : CopiesDisjoint memcpy) (otherConforming : CopiesDisjoint other) {call : Call}
    (apart : CompactsApart ((parser memcpy).transition state call)) :
    (parser other).step state call = (parser memcpy).step state call := by
  cases call with
  | addData data => rfl
  | readNext => rfl
  | compressSpace =>
      simp only [parser, bounds.compressSpace_eq fits]
      by_cases moved : state.parserRead = state.bufferStart
      · simp [moved]
      by_cases pending : state.bufferWrite > state.parserRead
      · have gap := apart rfl moved pending
        simp only [Machine.transition] at gap
        have disjoint : state.bufferStart +
            ((state.bufferWrite - state.parserRead).toNat : Int) ≤ state.parserRead := by omega
        rw [conforming _ _ _ _ (Or.inl disjoint), otherConforming _ _ _ _ (Or.inl disjoint)]
      · simp [moved, pending]

theorem run_conforming {capacity : Nat} {start : ParserState} (bounds : InBounds capacity start)
    (fits : capacity < 2 ^ 31) (conforming : CopiesDisjoint memcpy)
    (otherConforming : CopiesDisjoint other) {calls : List Call}
    (nonNegative : ∀ call ∈ calls, call.NonNegative)
    (within : ∀ step ∈ (parser memcpy).run start calls, PrefixWithin step)
    (apart : ∀ step ∈ (parser memcpy).run start calls, CompactsApart step) :
    (parser other).run start calls = (parser memcpy).run start calls ∧
      (parser other).final start calls = (parser memcpy).final start calls := by
  apply Machine.run_congr
  intro found member
  have separate := apart found member
  obtain ⟨earlier, call, later, rfl, rfl⟩ := ((parser memcpy).mem_run_iff _ _ _).mp member
  refine (run_inBounds bounds fits earlier ?_ ?_).step_congr fits conforming otherConforming
    separate
  · exact fun call member => nonNegative call (List.mem_append_left _ member)
  · intro step member
    apply within
    rw [Machine.run_append]
    exact List.mem_append_left _ member

end Conforming

/-! What the queue promises of a run. -/

/-- `read_next` returns NULL, and then changes nothing, exactly when too few bytes are unread. -/
def ReadsQueue (step : ParserStep) : Prop :=
  step.input = .readNext →
    (returnedBuffer step = none ↔
      (unread step.before).length < 4 ∨
        ((unread step.before).length : Int) <
          4 + lengthAt step.before.memory step.before.parserRead) ∧
    (returnedBuffer step = none → step.after = step.before)

structure QueuePoint (history : List ParserStep) (state : ParserState) : Prop where
  conserves : (deliveredFrames history).flatten ++ unread state = accepted history
  whole : ∀ frame ∈ deliveredFrames history, frameFormat.IsFrame frame
  reads : ∀ step ∈ history, ReadsQueue step

def FollowsQueue (memcpy : Memory UInt8 → Int → Int → Nat → Memory UInt8)
    (session : Session) : Prop :=
  ∀ earlier later, session.calls = earlier ++ later →
    (∀ step ∈ (parser memcpy).run session.start earlier, PrefixWithin step) →
      QueuePoint ((parser memcpy).run session.start earlier)
        ((parser memcpy).final session.start earlier)

def Drained (history : List ParserStep) : Prop :=
  ∃ earlier step later, history = earlier ++ step :: later ∧ step.input = .readNext ∧
    returnedBuffer step = none ∧ accepted later = []

def RunsAgree (memcpy : Memory UInt8 → Int → Int → Nat → Memory UInt8)
    (first second : Session) : Prop :=
  accepted (first.history memcpy) = accepted (second.history memcpy) →
    Drained (first.history memcpy) → Drained (second.history memcpy) →
      deliveredFrames (first.history memcpy) = deliveredFrames (second.history memcpy) ∧
        unread (first.final memcpy) = unread (second.final memcpy)

theorem InBounds.readsQueue {memcpy : Memory UInt8 → Int → Int → Nat → Memory UInt8}
    {capacity : Nat} {state : ParserState} (bounds : InBounds capacity state) {call : Call}
    (within : PrefixWithin ((parser memcpy).transition state call)) :
    ReadsQueue ((parser memcpy).transition state call) := by
  intro isRead
  simp only [Machine.transition] at isRead
  subst isRead
  have length := bounds.length_unread
  simp only [Machine.transition, returnedBuffer, parser]
  rcases readNext_trusted within.trusted with ⟨same, short⟩ | ⟨found, lower, fits⟩
  · simp only [same, true_iff, true_implies, and_true]
    omega
  · simp only [found, reduceCtorEq, false_iff, false_implies, and_true]
    omega

theorem Session.followsQueue (session : Session) (nonNegative : session.NonNegative) :
    FollowsQueue Memory.copy session := by
  intro earlier later split within
  have refines := session.refinesAt nonNegative split within
  refine ⟨refines.conserves, refines.isFrame, ?_⟩
  intro step member
  have stepWithin := within step member
  obtain ⟨before, call, after, rfl, rfl⟩ :=
    ((parser Memory.copy).mem_run_iff _ _ _).mp member
  rw [List.append_assoc] at split
  refine (session.refinesAt nonNegative split ?_).bounds.readsQueue stepWithin
  intro step member
  apply within
  rw [Machine.run_append]
  exact List.mem_append_left _ member

theorem returnedBuffer_readNext {memcpy : Memory UInt8 → Int → Int → Nat → Memory UInt8}
    {state : ParserState} {call : Call}
    (isRead : ((parser memcpy).transition state call).input = .readNext) :
    returnedBuffer ((parser memcpy).transition state call) = (readNext state).2 := by
  simp only [Machine.transition] at isRead
  subst isRead
  rfl

theorem drained_of_null {memcpy : Memory UInt8 → Int → Int → Nat → Memory UInt8}
    (start : ParserState) (calls : List Call)
    (null : (readNext ((parser memcpy).final start calls)).2 = none) :
    Drained ((parser memcpy).run start (calls ++ [.readNext])) := by
  rw [Machine.run_concat]
  exact ⟨_, _, [], rfl, rfl, null, rfl⟩

theorem Session.stuck_of_drained (session : Session) (nonNegative : session.NonNegative)
    (within : ∀ step ∈ session.history Memory.copy, PrefixWithin step)
    (drained : Drained (session.history Memory.copy)) :
    frameFormat.Stuck (unread (session.final Memory.copy)) := by
  obtain ⟨earlier, step, later, split, isRead, returned, nothing⟩ := drained
  have refines := session.refines nonNegative within
  have stepWithin := within step (by rw [split]; simp)
  obtain ⟨first, call, second, calls, firstRun, here, _⟩ :=
    (parser Memory.copy).run_split _ _ split
  have early := session.refinesAt nonNegative calls fun step member =>
    within step (session.mem_history calls member)
  have stuck : frameFormat.Stuck (unread ((parser Memory.copy).final session.start first)) := by
    rw [here] at isRead returned stepWithin
    rw [returnedBuffer_readNext isRead] at returned
    have next := early.bounds.next_unread fun enough => stepWithin ⟨isRead, enough⟩
    rwa [returned] at next
  -- what is delivered after that is cut from a queue that holds no whole frame
  have whole := refines.isFrame
  have conserved := refines.conserves
  have before := early.conserves
  have noInput : acceptedBytes step = [] := by simp [acceptedBytes, isRead]
  rw [firstRun] at before
  simp only [split, deliveredFrames, accepted, List.filterMap_append, List.filterMap_cons,
    returned, Option.map_none, List.flatten_append, List.flatMap_append, List.flatMap_cons,
    noInput, List.nil_append] at conserved whole before nothing
  rw [nothing, List.append_nil, ← before, List.append_assoc, List.append_cancel_left_eq]
    at conserved
  rw [← conserved] at stuck
  have empty := Format.stuck_flatten_nil
    (fun frame member => whole frame (List.mem_append_right _ member)) stuck
  rwa [empty] at stuck

theorem runsAgree {first second : Session} (firstNonNegative : first.NonNegative)
    (secondNonNegative : second.NonNegative)
    (firstWithin : ∀ step ∈ first.history Memory.copy, PrefixWithin step)
    (secondWithin : ∀ step ∈ second.history Memory.copy, PrefixWithin step) :
    RunsAgree Memory.copy first second := by
  intro same firstDrained secondDrained
  have firstStuck := first.stuck_of_drained firstNonNegative firstWithin firstDrained
  have secondStuck := second.stuck_of_drained secondNonNegative secondWithin secondDrained
  obtain ⟨_, firstPending, firstFrames, _⟩ := first.refines firstNonNegative firstWithin
  obtain ⟨_, secondPending, secondFrames, _⟩ := second.refines secondNonNegative secondWithin
  rw [← pushed_requests, ← pushed_requests] at same
  rw [← firstPending] at firstStuck
  rw [← secondPending] at secondStuck
  obtain ⟨frames, pending⟩ := queue_independent same firstStuck secondStuck
  rw [← firstFrames, ← secondFrames, ← firstPending, ← secondPending]
  exact ⟨frames, pending⟩

/-! The promises hold for every conforming `memcpy` exactly when all compactions are apart. -/

theorem InBounds.apart_of_unread {capacity : Nat} {state : ParserState}
    (bounds : InBounds capacity state) (fits : capacity < 2 ^ 31)
    (same : unread (LibEsClient.compressSpace (Memory.copySpoiling (· + 1)) state) =
      unread state)
    {memcpy : Memory UInt8 → Int → Int → Nat → Memory UInt8} :
    CompactsApart ((parser memcpy).transition state .compressSpace) := by
  intro _ moved pending
  simp only [Machine.transition] at moved pending ⊢
  by_contra close
  have ordered := bounds.startLeRead
  have length : (state.bufferStart + (state.bufferWrite - state.parserRead) -
      state.bufferStart).toNat = (state.bufferWrite - state.parserRead).toNat := by omega
  rw [bounds.compressSpace_eq fits, if_neg moved, if_pos pending] at same
  simp only [unread, length] at same
  refine copySpoiling_ne ?_ state.memory ?_ same
  · intro value
    simp
  · omega

theorem Session.apart_of_followsQueue (session : Session) (nonNegative : session.NonNegative)
    (within : ∀ step ∈ session.history Memory.copy, PrefixWithin step)
    (follows : FollowsQueue (Memory.copySpoiling (· + 1)) session) :
    ∀ step ∈ session.history Memory.copy, CompactsApart step := by
  suffices upTo : ∀ earlier later, session.calls = earlier ++ later →
      ∀ step ∈ (parser Memory.copy).run session.start earlier, CompactsApart step from
    upTo session.calls [] (List.append_nil _).symm
  intro earlier
  -- on the calls so far: where all compactions were apart the spoiling run is the copying one
  induction earlier using List.reverseRecOn with
  | nil => simp [Machine.run]
  | append_singleton earlier call ih =>
      intro later split
      have earlierSplit : session.calls = earlier ++ call :: later := by simp [split]
      have apart := ih _ earlierSplit
      have earlierWithin : ∀ step ∈ (parser Memory.copy).run session.start earlier,
          PrefixWithin step := fun step member =>
        within step (session.mem_history earlierSplit member)
      have refines := session.refinesAt nonNegative earlierSplit earlierWithin
      obtain ⟨sameRun, sameFinal⟩ := run_conforming session.start_inBounds session.fits
        copy_copiesDisjoint (copySpoiling_copiesDisjoint (· + 1))
        (nonNegative.earlier earlierSplit) earlierWithin apart
      rw [Machine.run_concat]
      intro step member
      rcases List.mem_append.mp member with prior | last
      · exact apart step prior
      · rw [List.mem_singleton.mp last]
        cases call with
        | addData data => exact fun isCompress => by simp [Machine.transition] at isCompress
        | readNext => exact fun isCompress => by simp [Machine.transition] at isCompress
        | compressSpace =>
            apply refines.bounds.apart_of_unread session.fits
            have point := (follows _ _ split (by
              rw [Machine.run_concat, sameRun]
              intro step member
              rcases List.mem_append.mp member with prior | last
              · exact earlierWithin step prior
              · rw [List.mem_singleton.mp last]
                exact fun looks => by simp [LooksAtPrefix, Machine.transition] at looks)).conserves
            rw [Machine.run_concat, Machine.final_concat, sameRun, sameFinal] at point
            have before := refines.conserves
            simp only [deliveredFrames, accepted, List.filterMap_append, List.filterMap_cons,
              List.filterMap_nil, List.flatMap_append, List.flatMap_cons, List.flatMap_nil,
              Machine.transition, parser, returnedBuffer, acceptedBytes, Option.map_none,
              List.append_nil] at point before
            rw [← before] at point
            exact List.append_cancel_left point

section Apart

variable {memcpy : Memory UInt8 → Int → Int → Nat → Memory UInt8} (session : Session)
  (nonNegative : session.NonNegative)
  (within : ∀ step ∈ session.history Memory.copy, PrefixWithin step)
  (apart : ∀ step ∈ session.history Memory.copy, CompactsApart step)
  (conforming : CopiesDisjoint memcpy)

include nonNegative within apart conforming

theorem Session.run_of_apart {earlier later : List Call}
    (split : session.calls = earlier ++ later) :
    (parser memcpy).run session.start earlier = (parser Memory.copy).run session.start earlier ∧
      (parser memcpy).final session.start earlier =
        (parser Memory.copy).final session.start earlier :=
  run_conforming session.start_inBounds session.fits copy_copiesDisjoint conforming
    (nonNegative.earlier split)
    (fun step member => within step (session.mem_history split member))
    (fun step member => apart step (session.mem_history split member))

theorem Session.history_of_apart :
    session.history memcpy = session.history Memory.copy ∧
      session.final memcpy = session.final Memory.copy :=
  session.run_of_apart nonNegative within apart conforming (List.append_nil _).symm

theorem Session.followsQueue_of_apart : FollowsQueue memcpy session := by
  intro earlier later split earlierWithin
  obtain ⟨sameRun, sameFinal⟩ := session.run_of_apart nonNegative within apart conforming split
  rw [sameRun] at earlierWithin
  rw [sameRun, sameFinal]
  exact session.followsQueue nonNegative earlier later split earlierWithin

end Apart

def QueueRuns (memcpy : Memory UInt8 → Int → Int → Nat → Memory UInt8)
    (first second : Session) : Prop :=
  FollowsQueue memcpy first ∧ FollowsQueue memcpy second ∧ RunsAgree memcpy first second

/-- The same whatever the library's `memcpy` does to overlapping regions. -/
def PortableQueueRuns (first second : Session) : Prop :=
  ∀ memcpy, CopiesDisjoint memcpy → QueueRuns memcpy first second

/-- Where `memcpy` copies the bytes as they stood, runs always follow the queue.
Held to disjoint regions only, it makes them do so exactly when no compaction overlaps. -/
theorem parser_queue_iff (first second : Session) (firstNonNegative : first.NonNegative)
    (secondNonNegative : second.NonNegative)
    (firstWithin : ∀ step ∈ first.history Memory.copy, PrefixWithin step)
    (secondWithin : ∀ step ∈ second.history Memory.copy, PrefixWithin step) :
    QueueRuns Memory.copy first second ∧
      (PortableQueueRuns first second ↔
        (∀ step ∈ first.history Memory.copy, CompactsApart step) ∧
          ∀ step ∈ second.history Memory.copy, CompactsApart step) := by
  have agree := runsAgree firstNonNegative secondNonNegative firstWithin secondWithin
  refine ⟨⟨first.followsQueue firstNonNegative, second.followsQueue secondNonNegative, agree⟩, ?_⟩
  constructor
  · intro every
    obtain ⟨firstSpoilt, secondSpoilt, _⟩ := every _ (copySpoiling_copiesDisjoint (· + 1))
    exact ⟨first.apart_of_followsQueue firstNonNegative firstWithin firstSpoilt,
      second.apart_of_followsQueue secondNonNegative secondWithin secondSpoilt⟩
  · rintro ⟨firstApart, secondApart⟩ memcpy conforming
    refine ⟨first.followsQueue_of_apart firstNonNegative firstWithin firstApart conforming,
      second.followsQueue_of_apart secondNonNegative secondWithin secondApart conforming, ?_⟩
    obtain ⟨firstHistory, firstFinal⟩ :=
      first.history_of_apart firstNonNegative firstWithin firstApart conforming
    obtain ⟨secondHistory, secondFinal⟩ :=
      second.history_of_apart secondNonNegative secondWithin secondApart conforming
    rwa [RunsAgree, firstHistory, secondHistory, firstFinal, secondFinal]

theorem parser_queue_two_splits :
    PortableQueueRuns
      ⟨fun _ => 0, 0, 8, by decide,
        [.addData (.ofBytes [2, 0, 0, 0, 7, 8, 1]), .readNext, .compressSpace, .readNext]⟩
      ⟨fun _ => 0, 100, 7, by decide,
        [.addData (.ofBytes [2, 0, 0]), .readNext, .addData (.ofBytes [0, 7, 8, 1]), .readNext,
          .readNext]⟩ :=
  (parser_queue_iff
    ⟨fun _ => 0, 0, 8, by decide,
      [.addData (.ofBytes [2, 0, 0, 0, 7, 8, 1]), .readNext, .compressSpace, .readNext]⟩
    ⟨fun _ => 0, 100, 7, by decide,
      [.addData (.ofBytes [2, 0, 0]), .readNext, .addData (.ofBytes [0, 7, 8, 1]), .readNext,
        .readNext]⟩
    (by decide) (by decide) (by decide) (by decide)).2.mpr ⟨by decide, by decide⟩

/-- Five pending bytes moved down by four: copied from the last one down, the
prefix `01 00 00 00` turns into `09 00 00 00`. -/
theorem parser_queue_overlap :
    ¬PortableQueueRuns
      ⟨fun _ => 0, 0, 9, by decide,
        [.addData (.ofBytes [0, 0, 0, 0, 1, 0, 0, 0, 9]), .readNext, .compressSpace]⟩
      ⟨fun _ => 0, 0, 9, by decide, []⟩ := by
  intro every
  have point := (every Memory.copyDown copyDown_copiesDisjoint).1
    [.addData (.ofBytes [0, 0, 0, 0, 1, 0, 0, 0, 9]), .readNext, .compressSpace] [] rfl (by decide)
  exact absurd point.conserves (by decide)

end LibEsClient
