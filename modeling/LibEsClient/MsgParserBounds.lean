import LibEsClient.LengthPrefix

/-! Pointer bounds of the frame parser: what each operation does to the four
pointers, and exactly which length prefixes a run can meet and stay in bounds. -/

namespace LibEsClient

open FlatMemory Machines

theorem wrapInt_of_range {value : Int} (lower : -(2 ^ 31) ≤ value) (upper : value < 2 ^ 31) :
    wrapInt value = value :=
  Int.bmod_eq_of_le (by omega) (by omega)

theorem wrapInt_of_overflow {value : Int} (lower : 2 ^ 31 ≤ value) (upper : value < 2 ^ 32) :
    wrapInt value < 0 := by
  unfold wrapInt
  rw [Int.bmod_def]
  omega

theorem sizeT_of_range {value : Int} (lower : 0 ≤ value) (upper : value < 2 ^ 31) :
    sizeT value = value.toNat := by
  rw [sizeT, Int.emod_eq_of_lt lower (by omega)]

theorem lengthAt_lower (memory : Memory UInt8) (i : Int) : -(2 ^ 31) ≤ lengthAt memory i :=
  frameLength_lower _ _ _ _

structure InBounds (capacity : Nat) (state : ParserState) : Prop where
  startLeRead : state.bufferStart ≤ state.parserRead
  readLeWrite : state.parserRead ≤ state.bufferWrite
  writeLeEnd : state.bufferWrite ≤ state.bufferEnd
  size : state.bufferEnd - state.bufferStart = capacity

theorem Session.start_inBounds (session : Session) :
    InBounds session.capacity session.start := by
  constructor <;> simp [Session.start, createParserState]

theorem Session.mem_history (session : Session)
    {memcpy : Memory UInt8 → Int → Int → Nat → Memory UInt8} {earlier later : List Call}
    (split : session.calls = earlier ++ later) {step : ParserStep}
    (member : step ∈ (parser memcpy).run session.start earlier) :
    step ∈ session.history memcpy := by
  rw [Session.history, split, Machine.run_append]
  exact List.mem_append_left _ member

theorem Session.NonNegative.earlier {session : Session} (nonNegative : session.NonNegative)
    {earlier later : List Call} (split : session.calls = earlier ++ later) :
    ∀ call ∈ earlier, call.NonNegative := by
  intro call member
  apply nonNegative
  rw [split]
  exact List.mem_append_left _ member

/-! One case lemma for each operation. -/

theorem readNext_cases (state : ParserState) :
    (readNext state = (state, none) ∧
      (state.bufferWrite - state.parserRead < 4 ∨
        state.bufferWrite - state.parserRead <
          wrapInt (lengthAt state.memory state.parserRead + 4))) ∨
    (readNext state =
      ({ state with
          parserRead := state.parserRead + lengthAt state.memory state.parserRead + 4 },
        some
          { length := lengthAt state.memory state.parserRead
            location := state.parserRead + 4 }) ∧
      4 ≤ state.bufferWrite - state.parserRead ∧
      wrapInt (lengthAt state.memory state.parserRead + 4) ≤
        state.bufferWrite - state.parserRead) := by
  unfold readNext
  by_cases short : state.bufferWrite - state.parserRead < 4
  · simp [short]
  · by_cases partial_ : state.bufferWrite - state.parserRead <
      wrapInt (lengthAt state.memory state.parserRead + 4)
    · simp [short, partial_]
    · simp only [short, partial_, if_false, true_and]
      exact Or.inr ⟨by omega, by omega⟩

theorem readNext_null_same {state : ParserState} (null : (readNext state).2 = none) :
    (readNext state).1 = state := by
  rcases readNext_cases state with ⟨same, _⟩ | ⟨found, _, _⟩
  · rw [same]
  · simp [found] at null

/-- Where adding 4 to the length in front does not overflow. -/
theorem readNext_trusted {state : ParserState}
    (within : 4 ≤ state.bufferWrite - state.parserRead →
      0 ≤ lengthAt state.memory state.parserRead ∧
        lengthAt state.memory state.parserRead ≤ 2 ^ 31 - 5) :
    (readNext state = (state, none) ∧
      (state.bufferWrite - state.parserRead < 4 ∨
        state.bufferWrite - state.parserRead < lengthAt state.memory state.parserRead + 4)) ∨
    (readNext state =
      ({ state with
          parserRead := state.parserRead + lengthAt state.memory state.parserRead + 4 },
        some
          { length := lengthAt state.memory state.parserRead
            location := state.parserRead + 4 }) ∧
      0 ≤ lengthAt state.memory state.parserRead ∧
      lengthAt state.memory state.parserRead + 4 ≤ state.bufferWrite - state.parserRead) := by
  rcases readNext_cases state with ⟨same, short⟩ | ⟨found, enough, fits⟩
  · refine Or.inl ⟨same, ?_⟩
    by_cases enough : 4 ≤ state.bufferWrite - state.parserRead
    · obtain ⟨lower, upper⟩ := within enough
      rwa [wrapInt_of_range (by omega) (by omega)] at short
    · omega
  · obtain ⟨lower, upper⟩ := within enough
    rw [wrapInt_of_range (by omega) (by omega)] at fits
    exact Or.inr ⟨found, lower, fits⟩

theorem PrefixWithin.trusted {memcpy : Memory UInt8 → Int → Int → Nat → Memory UInt8}
    {state : ParserState} (within : PrefixWithin ((parser memcpy).transition state .readNext)) :
    4 ≤ state.bufferWrite - state.parserRead →
      0 ≤ lengthAt state.memory state.parserRead ∧
        lengthAt state.memory state.parserRead ≤ 2 ^ 31 - 5 :=
  fun enough => within ⟨rfl, enough⟩

theorem addData_cases (state : ParserState) (data : Chunk) :
    (addData state data = (state, -1) ∧ 0 < data.length ∧
      state.bufferEnd < state.bufferWrite + data.length) ∨
    (addData state data =
      ({ state with
          memory := state.memory.write state.bufferWrite data.bytes
          bufferWrite := state.bufferWrite + data.length }, 0) ∧
      (data.length ≤ 0 ∨ state.bufferWrite + data.length ≤ state.bufferEnd)) := by
  unfold addData
  by_cases positive : data.length > 0
  · by_cases full : state.bufferWrite + data.length > state.bufferEnd
    · simp [positive, full]
    · simp only [positive, full, if_true, if_false, true_and]
      exact Or.inr (Or.inr (by omega))
  · have empty : data.bytes = [] := by
      apply List.eq_nil_of_length_eq_zero
      rw [data.holds]
      omega
    simp only [positive, if_false, empty, Memory.write_nil, true_and]
    exact Or.inr (Or.inl (by omega))

theorem InBounds.compressSpace_eq {capacity : Nat} {state : ParserState}
    (bounds : InBounds capacity state) (fits : capacity < 2 ^ 31)
    (memcpy : Memory UInt8 → Int → Int → Nat → Memory UInt8) :
    compressSpace memcpy state =
      if state.parserRead = state.bufferStart then state
      else
        { state with
          memory :=
            if state.bufferWrite > state.parserRead then
              memcpy state.memory state.bufferStart state.parserRead
                (state.bufferWrite - state.parserRead).toNat
            else state.memory
          bufferWrite := state.bufferStart + (state.bufferWrite - state.parserRead)
          parserRead := state.bufferStart } := by
  obtain ⟨startLeRead, readLeWrite, writeLeEnd, size⟩ := bounds
  have length : wrapInt (state.bufferWrite - state.parserRead) =
      state.bufferWrite - state.parserRead := wrapInt_of_range (by omega) (by omega)
  have count : sizeT (state.bufferWrite - state.parserRead) =
      (state.bufferWrite - state.parserRead).toNat := sizeT_of_range (by omega) (by omega)
  simp only [compressSpace, length, count]

/-! Each operation keeps the bounds; `read_next` needs a length it can trust. -/

theorem InBounds.readNext {capacity : Nat} {state : ParserState}
    (bounds : InBounds capacity state)
    (within : 4 ≤ state.bufferWrite - state.parserRead →
      0 ≤ lengthAt state.memory state.parserRead ∧
        lengthAt state.memory state.parserRead ≤ 2 ^ 31 - 5) :
    InBounds capacity (LibEsClient.readNext state).1 := by
  rcases readNext_trusted within with ⟨same, _⟩ | ⟨found, lower, fits⟩
  · rw [same]
    exact bounds
  · obtain ⟨startLeRead, readLeWrite, writeLeEnd, size⟩ := bounds
    rw [found]
    constructor <;> dsimp only <;> omega

theorem InBounds.addData {capacity : Nat} {state : ParserState}
    (bounds : InBounds capacity state) {data : Chunk} (nonNegative : 0 ≤ data.length) :
    InBounds capacity (LibEsClient.addData state data).1 := by
  obtain ⟨startLeRead, readLeWrite, writeLeEnd, size⟩ := bounds
  rcases addData_cases state data with ⟨same, _, _⟩ | ⟨stored, room⟩
  · rw [same]
    exact ⟨startLeRead, readLeWrite, writeLeEnd, size⟩
  · rw [stored]
    constructor <;> dsimp only <;> omega

theorem InBounds.compressSpace {capacity : Nat} {state : ParserState}
    (bounds : InBounds capacity state) (fits : capacity < 2 ^ 31)
    (memcpy : Memory UInt8 → Int → Int → Nat → Memory UInt8) :
    InBounds capacity (LibEsClient.compressSpace memcpy state) := by
  rw [bounds.compressSpace_eq fits]
  split
  · exact bounds
  · obtain ⟨startLeRead, readLeWrite, writeLeEnd, size⟩ := bounds
    constructor <;> dsimp only <;> omega

section Runs

variable {memcpy : Memory UInt8 → Int → Int → Nat → Memory UInt8}

theorem InBounds.step {capacity : Nat} {state : ParserState} (bounds : InBounds capacity state)
    (fits : capacity < 2 ^ 31) {call : Call} (nonNegative : call.NonNegative)
    (within : PrefixWithin ((parser memcpy).transition state call)) :
    InBounds capacity ((parser memcpy).step state call).1 := by
  cases call with
  | addData data => exact bounds.addData nonNegative
  | readNext => exact bounds.readNext within.trusted
  | compressSpace => exact bounds.compressSpace fits memcpy

theorem run_inBounds {capacity : Nat} {start : ParserState} (bounds : InBounds capacity start)
    (fits : capacity < 2 ^ 31) (calls : List Call)
    (nonNegative : ∀ call ∈ calls, call.NonNegative)
    (within : ∀ step ∈ (parser memcpy).run start calls, PrefixWithin step) :
    InBounds capacity ((parser memcpy).final start calls) := by
  refine ((parser memcpy).invariant_induction start
    (fun step => PrefixWithin step ∧ step.input.NonNegative) (fun _ => True)
    (InBounds capacity) bounds ?_ calls ?_).2
  · intro before call inBounds guard
    exact ⟨trivial, inBounds.step fits guard.2 guard.1⟩
  · intro step member
    exact ⟨within step member, nonNegative _ ((parser memcpy).mem_run_input member)⟩

/-- Run rule for a property of the calls made so far and the state they lead to. -/
theorem Session.earlier_induction (session : Session) (nonNegative : session.NonNegative)
    {earlier later : List Call} (split : session.calls = earlier ++ later)
    (within : ∀ step ∈ (parser memcpy).run session.start earlier, PrefixWithin step)
    (Holds : List ParserStep → ParserState → Prop) (initial : Holds [] session.start)
    (preserved : ∀ history before call, InBounds session.capacity before → Holds history before →
      call.NonNegative → PrefixWithin ((parser memcpy).transition before call) →
        Holds (history ++ [(parser memcpy).transition before call])
          ((parser memcpy).step before call).1) :
    Holds ((parser memcpy).run session.start earlier)
      ((parser memcpy).final session.start earlier) := by
  refine ((parser memcpy).history_induction session.start
    (fun step => PrefixWithin step ∧ step.input.NonNegative)
    (fun history state => InBounds session.capacity state ∧ Holds history state)
    ⟨session.start_inBounds, initial⟩ ?_ earlier ?_).2
  · rintro history before call ⟨bounds, holds⟩ ⟨stepWithin, callNonNegative⟩
    exact ⟨bounds.step session.fits callNonNegative stepWithin,
      preserved history before call bounds holds callNonNegative stepWithin⟩
  · intro step member
    exact ⟨within step member,
      nonNegative.earlier split _ ((parser memcpy).mem_run_input member)⟩

end Runs

/-- What staying in bounds means for one call: pointers in order before and
after, a returned buffer inside what was unread, `length + 4` an `int`. -/
structure StepWithinBounds (capacity : Nat) (step : ParserStep) : Prop where
  before : InBounds capacity step.before
  after : InBounds capacity step.after
  returned : ∀ buffer, returnedBuffer step = some buffer →
    0 ≤ buffer.length ∧ buffer.location = step.before.parserRead + 4 ∧
      buffer.location + buffer.length ≤ step.before.bufferWrite
  noOverflow : LooksAtPrefix step →
    -(2 ^ 31) ≤ lengthAt step.before.memory step.before.parserRead + 4 ∧
      lengthAt step.before.memory step.before.parserRead + 4 < 2 ^ 31

def SoundPrefixAt (step : ParserStep) : Prop :=
  LooksAtPrefix step →
    SoundPrefix (step.before.memory (step.before.parserRead + 2))
      (step.before.memory (step.before.parserRead + 3))

instance (step : ParserStep) : Decidable (LooksAtPrefix step) :=
  inferInstanceAs (Decidable (_ ∧ _))

instance (step : ParserStep) : Decidable (SoundPrefixAt step) :=
  inferInstanceAs (Decidable (_ → _))

theorem soundPrefixAt_iff (step : ParserStep) : SoundPrefixAt step ↔ PrefixWithin step := by
  unfold SoundPrefixAt PrefixWithin lengthAt
  simp only [frameLength_within_iff]

theorem StepWithinBounds.soundPrefixAt {memcpy : Memory UInt8 → Int → Int → Nat → Memory UInt8}
    {capacity : Nat} {state : ParserState} {call : Call}
    (within : StepWithinBounds capacity ((parser memcpy).transition state call)) :
    SoundPrefixAt ((parser memcpy).transition state call) := by
  rw [soundPrefixAt_iff]
  intro looks
  have overflow := (within.noOverflow looks).2
  obtain ⟨isRead, enough⟩ := looks
  simp only [Machine.transition] at isRead enough overflow ⊢
  subst isRead
  refine ⟨?_, by omega⟩
  by_contra negative
  -- a negative length passes both checks, so the call returns it
  have lower := lengthAt_lower state.memory state.parserRead
  have small : wrapInt (lengthAt state.memory state.parserRead + 4) < 4 := by
    rw [wrapInt_of_range (by omega) (by omega)]
    omega
  rcases readNext_cases state with ⟨_, short⟩ | ⟨found, _, _⟩
  · omega
  · have returned := within.returned
      { length := lengthAt state.memory state.parserRead, location := state.parserRead + 4 }
      (by simp [returnedBuffer, Machine.transition, parser, found])
    exact negative returned.1

theorem InBounds.stepWithinBounds {memcpy : Memory UInt8 → Int → Int → Nat → Memory UInt8}
    {capacity : Nat} {state : ParserState} (bounds : InBounds capacity state)
    (fits : capacity < 2 ^ 31) {call : Call} (nonNegative : call.NonNegative)
    (within : PrefixWithin ((parser memcpy).transition state call)) :
    StepWithinBounds capacity ((parser memcpy).transition state call) := by
  refine ⟨bounds, bounds.step fits nonNegative within, ?_, ?_⟩
  · intro buffer returned
    cases call with
    | addData data => simp [returnedBuffer, Machine.transition, parser] at returned
    | compressSpace => simp [returnedBuffer, Machine.transition, parser] at returned
    | readNext =>
        simp only [returnedBuffer, Machine.transition, parser] at returned ⊢
        rcases readNext_trusted within.trusted with ⟨same, _⟩ | ⟨found, lower, upTo⟩
        · simp [same] at returned
        · rw [found] at returned
          obtain rfl := Option.some.inj returned
          exact ⟨lower, rfl, by dsimp only; omega⟩
  · intro looks
    have trusted := within looks
    omega

def Session.StaysWithinBounds (session : Session)
    (memcpy : Memory UInt8 → Int → Int → Nat → Memory UInt8) : Prop :=
  InBounds session.capacity session.start ∧
    ∀ step ∈ session.history memcpy, StepWithinBounds session.capacity step

/-- A session stays in bounds exactly when every length prefix it looks at is sound. -/
theorem parser_bounds_iff (memcpy : Memory UInt8 → Int → Int → Nat → Memory UInt8)
    (session : Session) (nonNegative : session.NonNegative) :
    session.StaysWithinBounds memcpy ↔ ∀ step ∈ session.history memcpy, SoundPrefixAt step := by
  constructor
  · rintro ⟨_, within⟩ step member
    have bounded := within step member
    obtain ⟨earlier, call, later, _, rfl⟩ := ((parser memcpy).mem_run_iff _ _ _).mp member
    exact bounded.soundPrefixAt
  · intro sound
    refine ⟨session.start_inBounds, ?_⟩
    refine ((parser memcpy).invariant_induction session.start
      (fun step => PrefixWithin step ∧ step.input.NonNegative)
      (StepWithinBounds session.capacity) (InBounds session.capacity)
      session.start_inBounds ?_ session.calls ?_).1
    · intro before call bounds guard
      exact ⟨bounds.stepWithinBounds session.fits guard.2 guard.1,
        bounds.step session.fits guard.2 guard.1⟩
    · intro step member
      exact ⟨(soundPrefixAt_iff step).mp (sound step member),
        nonNegative _ ((parser memcpy).mem_run_input member)⟩

theorem parser_bounds_whole_frame :
    Session.StaysWithinBounds ⟨fun _ => 0, 0, 8, by decide,
      [.addData (.ofBytes [2, 0, 0, 0, 7, 8, 1]), .readNext, .compressSpace, .readNext]⟩
        Memory.copy :=
  (parser_bounds_iff Memory.copy ⟨fun _ => 0, 0, 8, by decide,
    [.addData (.ofBytes [2, 0, 0, 0, 7, 8, 1]), .readNext, .compressSpace, .readNext]⟩
    (by decide)).mpr (by decide)

/-- The prefix `00 00 00 80` is read as a negative length. -/
theorem parser_bounds_negative_length :
    ¬Session.StaysWithinBounds ⟨fun _ => 0, 0, 4, by decide,
      [.addData (.ofBytes [0, 0, 0, 0x80]), .readNext]⟩ Memory.copy := by
  intro within
  have bounded := within.2 ((parser Memory.copy).transition
    ((parser Memory.copy).final (createParserState (fun _ => 0) 0 (4 : Nat))
      [.addData (.ofBytes [0, 0, 0, 0x80])]) .readNext)
    (by simp [Session.history, Session.start, Machine.run, Machine.final])
  exact absurd bounded.soundPrefixAt (by decide)

end LibEsClient
