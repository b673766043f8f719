import LibEsClient.MsgParserEffects
import LibEsClient.ReceiveLoop

/-! The inner loop of `foo_main.c`, `read_next` until it returns NULL, on whatever bytes
are unread. A length prefix moves the read pointer backwards, by less than the prefix,
or past the write pointer exactly when it is negative, or so large that adding 4 to it
overflows while its bytes are not there. -/

namespace LibEsClient

open FlatMemory Machines Framing Spans

/-- NULL, or four bytes or more forward and no further than the write pointer. -/
def StepsForward (state : ParserState) : Prop :=
  (readNext state).2 ≠ none →
    state.parserRead + 4 ≤ (readNext state).1.parserRead ∧
      (readNext state).1.parserRead ≤ state.bufferWrite

instance (state : ParserState) : Decidable (StepsForward state) :=
  inferInstanceAs (Decidable (_ → _ ∧ _))

/-- A length prefix in front is non-negative, and leaves room for the 4 in an `int`
unless its bytes are all there. -/
def HeadSound : List UInt8 → Prop
  | b0 :: b1 :: b2 :: b3 :: rest =>
      SoundPrefix b2 b3 ∨ (b3 < 0x80 ∧ frameLength b0 b1 b2 b3 ≤ rest.length)
  | _ => True

theorem headSound_iff (pending : List UInt8) :
    HeadSound pending ↔
      (4 ≤ pending.length →
        0 ≤ prefixLength (pending.take 4) ∧
          (prefixLength (pending.take 4) ≤ 2 ^ 31 - 5 ∨
            prefixLength (pending.take 4) + 4 ≤ pending.length)) := by
  rcases pending with _ | ⟨b0, _ | ⟨b1, _ | ⟨b2, _ | ⟨b3, rest⟩⟩⟩⟩
  · simp [HeadSound]
  · simp [HeadSound]
  · simp [HeadSound]
  · simp [HeadSound]
  · have within := frameLength_within_iff b0 b1 b2 b3
    have negative := frameLength_negative_iff b0 b1 b2 b3
    have top : b3 < 0x80 ↔ b3.toNat < 128 := by rw [UInt8.lt_iff_toNat_lt]; rfl
    have upper := frameLength_upper b0 b1 b2 b3
    have header : prefixLength (List.take 4 (b0 :: b1 :: b2 :: b3 :: rest)) =
        frameLength b0 b1 b2 b3 := rfl
    rw [HeadSound, ← within, top, header]
    simp only [List.length_cons]
    omega

def CutsSoundly (pending : List UInt8) : Prop :=
  ∀ (frames : List (List UInt8)) (rest : List UInt8), pending = frames.flatten ++ rest →
    (∀ frame ∈ frames, frameFormat.IsFrame frame ∧ 0 ≤ prefixLength (frame.take 4)) →
      HeadSound rest

theorem CutsSoundly.head {pending : List UInt8} (sound : CutsSoundly pending) :
    HeadSound pending :=
  sound [] pending rfl (by simp)

theorem CutsSoundly.rest {frame rest : List UInt8} (sound : CutsSoundly (frame ++ rest))
    (isFrame : frameFormat.IsFrame frame) (lower : 0 ≤ prefixLength (frame.take 4)) :
    CutsSoundly rest := by
  rintro frames left rfl allFrames
  refine sound (frame :: frames) left (by simp) ?_
  exact List.forall_mem_cons.mpr ⟨⟨isFrame, lower⟩, allFrames⟩

theorem cutsSoundly_of_stream {sent : List (List UInt8)} {tail : List UInt8}
    (frames : ∀ frame ∈ sent, SoundFrame frame) (part : tail.length < 4) :
    CutsSoundly (sent.flatten ++ tail) := by
  intro cut rest same whole
  rw [headSound_iff]
  intro enough
  rcases Format.parse_compare (fun frame member => (frames frame member).isFrame)
      (fun frame member => (whole frame member).1) same with
    ⟨more, _, short⟩ | ⟨more, split, left⟩
  · rw [short, List.length_append] at part
    omega
  · cases more with
    | nil =>
        rw [List.flatten_nil, List.nil_append] at left
        rw [left] at enough
        omega
    | cons frame more =>
        obtain ⟨isFrame, lower, upper⟩ := frames frame (by rw [split]; simp)
        have header : 4 ≤ frame.length := isFrame.headerLength_le
        have sameHeader : rest.take 4 = frame.take 4 := by
          rw [left, List.flatten_cons, List.append_assoc, List.take_append_of_le_length header]
        rw [sameHeader]
        exact ⟨lower, Or.inl upper⟩

/-! One call. -/

theorem wrapInt_le {value : Int} (lower : 0 ≤ value) : wrapInt value ≤ value := by
  unfold wrapInt
  rw [Int.bmod_def]
  omega

theorem readNext_whole {state : ParserState}
    (lower : 0 ≤ lengthAt state.memory state.parserRead)
    (fits : lengthAt state.memory state.parserRead + 4 ≤ state.bufferWrite - state.parserRead) :
    readNext state =
      ({ state with
          parserRead := state.parserRead + lengthAt state.memory state.parserRead + 4 },
        some
          { length := lengthAt state.memory state.parserRead
            location := state.parserRead + 4 }) := by
  have wrapped : wrapInt (lengthAt state.memory state.parserRead + 4) ≤
      lengthAt state.memory state.parserRead + 4 := wrapInt_le (by omega)
  rcases readNext_cases state with ⟨_, short⟩ | ⟨found, _, _⟩
  · omega
  · exact found

theorem stepsForward_iff {state : ParserState} (ordered : state.parserRead ≤ state.bufferWrite) :
    StepsForward state ↔ HeadSound (unread state) := by
  have length := length_unread ordered
  have lower := lengthAt_lower state.memory state.parserRead
  have upper : lengthAt state.memory state.parserRead < 2 ^ 31 := frameLength_upper _ _ _ _
  rw [headSound_iff]
  constructor
  · intro forward enough
    rw [prefixLength_unread state (by omega)]
    rcases readNext_cases state with ⟨_, short⟩ | ⟨found, _, _⟩
    · -- the bytes are waited for: the sum did not wrap, nor is it below 4
      rcases short with few | partial_
      · omega
      · by_cases wraps : lengthAt state.memory state.parserRead + 4 < 2 ^ 31
        · rw [wrapInt_of_range (by omega) wraps] at partial_
          omega
        · have negative : wrapInt (lengthAt state.memory state.parserRead + 4) < 0 :=
            wrapInt_of_overflow (by omega) (by omega)
          omega
    · have moved := forward (by rw [found]; simp)
      rw [found] at moved
      simp only at moved
      omega
  · intro sound returned
    rcases readNext_cases state with ⟨same, _⟩ | ⟨found, enough, fits⟩
    · exact absurd (congrArg Prod.snd same) returned
    · obtain ⟨nonNegative, whole⟩ := sound (by omega)
      rw [prefixLength_unread state enough] at nonNegative whole
      rw [found]
      simp only
      rcases whole with small | there
      · rw [wrapInt_of_range (by omega) (by omega)] at fits
        omega
      · omega

structure CutsOff (state : ParserState) (buffer : Buffer) : Prop where
  length : 0 ≤ buffer.length
  block : buffer.block = (state.parserRead, (readNext state).1.parserRead)
  upper : (readNext state).1.parserRead ≤ state.bufferWrite
  sameMemory : (readNext state).1.memory = state.memory
  sameWrite : (readNext state).1.bufferWrite = state.bufferWrite
  isFrame : frameFormat.IsFrame (frameOf state.memory buffer)
  lower : 0 ≤ prefixLength ((frameOf state.memory buffer).take 4)
  split : unread state = frameOf state.memory buffer ++ unread (readNext state).1

theorem StepsForward.cutsOff {state : ParserState} (forward : StepsForward state)
    {buffer : Buffer} (returned : (readNext state).2 = some buffer) : CutsOff state buffer := by
  obtain ⟨lower, upper⟩ := forward (by rw [returned]; simp)
  rcases readNext_cases state with ⟨same, _⟩ | ⟨found, enough, _⟩
  · simp [same] at returned
  · rw [found] at returned
    obtain rfl := Option.some.inj returned
    rw [found] at lower upper
    simp only at lower upper
    have nonNegative : 0 ≤ lengthAt state.memory state.parserRead := by omega
    refine ⟨nonNegative, ?_, by rw [found]; exact upper, by rw [found], by rw [found],
      frameOf_isFrame _ _, ?_, ?_⟩
    · rw [found]
      simp only [Buffer.block, Prod.mk.injEq]
      omega
    · rw [prefixLength_frameOf]
      exact nonNegative
    · rw [found]
      exact unread_cut nonNegative (by omega)

/-! The loop. -/

def drain : Nat → ParserState → Option (ParserState × List Buffer)
  | 0, _ => none
  | fuel + 1, state =>
      match (readNext state).2 with
      | none => some ((readNext state).1, [])
      | some msg =>
          (drain fuel (readNext state).1).map fun result => (result.1, msg :: result.2)

def afterReads (calls : Nat) (state : ParserState) : ParserState :=
  (fun state => (readNext state).1)^[calls] state

theorem readNext_memory (state : ParserState) : (readNext state).1.memory = state.memory := by
  rcases readNext_cases state with ⟨same, _⟩ | ⟨found, _, _⟩
  · rw [same]
  · rw [found]

theorem readMessages_eq (fuel : Nat) (state : ParserState) :
    readMessages fuel state =
      (drain fuel state).map fun result =>
        (result.1, result.2.map (frameOf state.memory)) := by
  induction fuel generalizing state with
  | zero => rfl
  | succ fuel ih =>
      rw [readMessages, drain]
      cases (readNext state).2 with
      | none => rfl
      | some msg =>
          simp only [ih, Option.map_map, readNext_memory]
          rfl

structure DrainsTo (state drained : ParserState) (buffers : List Buffer) : Prop where
  loop : ∀ fuel, (state.bufferWrite - state.parserRead).toNat / 4 < fuel →
    drain fuel state = some (drained, buffers) ∧
      readMessages fuel state = some (drained, buffers.map (frameOf state.memory))
  few : buffers.length ≤ (state.bufferWrite - state.parserRead).toNat / 4
  consecutive : Adjoins state.parserRead (buffers.map Buffer.block) drained.parserRead
  upper : drained.parserRead ≤ state.bufferWrite
  apart : buffers.Pairwise fun first second =>
    Disjoint (Set.Ico first.block.1 first.block.2) (Set.Ico second.block.1 second.block.2)
  inside : ∀ buffer ∈ buffers,
    state.parserRead ≤ buffer.block.1 ∧ buffer.block.2 ≤ state.bufferWrite

structure DrainsForward (state : ParserState) : Prop where
  forward : ∀ calls, StepsForward (afterReads calls state)
  ends : ∃ drained buffers, DrainsTo state drained buffers

theorem drain_null {fuel : Nat} {state : ParserState} (null : (readNext state).2 = none)
    (enough : 0 < fuel) : drain fuel state = some (state, []) := by
  obtain ⟨more, rfl⟩ : ∃ more, fuel = more + 1 := ⟨fuel - 1, by omega⟩
  simp only [drain, null, readNext_null_same null]

theorem drain_ends {bound : Nat} {state : ParserState}
    (ordered : state.parserRead ≤ state.bufferWrite) (sound : CutsSoundly (unread state))
    (small : (state.bufferWrite - state.parserRead).toNat / 4 ≤ bound) :
    ∃ drained buffers, (∀ fuel, bound < fuel → drain fuel state = some (drained, buffers)) ∧
      buffers.length ≤ bound ∧
      Adjoins state.parserRead (buffers.map Buffer.block) drained.parserRead ∧
      (∀ buffer ∈ buffers, 0 ≤ buffer.length) ∧ drained.parserRead ≤ state.bufferWrite := by
  have forward := (stepsForward_iff ordered).mpr sound.head
  induction bound generalizing state with
  | zero =>
      cases returned : (readNext state).2 with
      | none =>
          refine ⟨state, [], ?_, Nat.le_refl _, rfl, by simp, ordered⟩
          exact fun fuel enough => drain_null returned enough
      | some buffer =>
          obtain ⟨lower, upper⟩ := forward (by rw [returned]; simp)
          omega
  | succ bound ih =>
      cases returned : (readNext state).2 with
      | none =>
          refine ⟨state, [], ?_, Nat.zero_le _, rfl, by simp, ordered⟩
          exact fun fuel enough => drain_null returned (Nat.lt_of_le_of_lt (Nat.zero_le _) enough)
      | some buffer =>
          obtain ⟨lower, _⟩ := forward (by rw [returned]; simp)
          have cut := forward.cutsOff returned
          rw [cut.split] at sound
          have restSound := sound.rest cut.isFrame cut.lower
          have restOrdered : (readNext state).1.parserRead ≤ (readNext state).1.bufferWrite := by
            rw [cut.sameWrite]
            exact cut.upper
          obtain ⟨drained, buffers, ends, few, adjoins, lengths, upper⟩ := ih restOrdered restSound
            (by rw [cut.sameWrite]; omega) ((stepsForward_iff restOrdered).mpr restSound.head)
          refine ⟨drained, buffer :: buffers, ?_, Nat.succ_le_succ few, ?_, ?_, ?_⟩
          · intro fuel enough
            obtain ⟨more, rfl⟩ : ∃ more, fuel = more + 1 := ⟨fuel - 1, by omega⟩
            simp only [drain, returned, ends more (by omega), Option.map_some]
          · rw [List.map_cons, cut.block]
            exact ⟨rfl, adjoins⟩
          · exact List.forall_mem_cons.mpr ⟨cut.length, lengths⟩
          · rwa [cut.sameWrite] at upper

theorem forward_after {state : ParserState} (ordered : state.parserRead ≤ state.bufferWrite)
    (sound : CutsSoundly (unread state)) (calls : Nat) :
    StepsForward (afterReads calls state) := by
  induction calls generalizing state with
  | zero => exact (stepsForward_iff ordered).mpr sound.head
  | succ calls ih =>
      have forward := (stepsForward_iff ordered).mpr sound.head
      rw [afterReads, Function.iterate_succ_apply]
      cases returned : (readNext state).2 with
      | none =>
          rw [readNext_null_same returned]
          exact ih ordered sound
      | some buffer =>
          have cut := forward.cutsOff returned
          rw [cut.split] at sound
          exact ih (by rw [cut.sameWrite]; exact cut.upper) (sound.rest cut.isFrame cut.lower)

theorem sound_of_forward {state : ParserState} (ordered : state.parserRead ≤ state.bufferWrite)
    (forward : ∀ calls, StepsForward (afterReads calls state)) : CutsSoundly (unread state) := by
  intro frames rest split whole
  induction frames generalizing state with
  | nil =>
      obtain rfl : unread state = rest := split
      exact (stepsForward_iff ordered).mp (forward 0)
  | cons frame frames ih =>
      obtain ⟨⟨isFrame, lower⟩, laterWhole⟩ := List.forall_mem_cons.mp whole
      rw [List.flatten_cons, List.append_assoc] at split
      have size : frame.length = 4 + (prefixLength (frame.take 4)).toNat := isFrame
      have length := length_unread ordered
      have header : (unread state).take 4 = frame.take 4 := by
        rw [split, List.take_append_of_le_length (by omega)]
      rw [split, List.length_append] at length
      have computed := prefixLength_unread state (by omega)
      rw [header] at computed
      rw [computed] at lower size
      have found := readNext_whole lower (by omega)
      have first : StepsForward state := forward 0
      have cut := first.cutsOff (congrArg Prod.snd found)
      have next := isFrame.next_append (frames.flatten ++ rest)
      rw [← split, cut.split, cut.isFrame.next_append] at next
      refine ih ?_ (fun calls => forward (calls + 1)) ?_ laterWhole
      · rw [cut.sameWrite]
        exact cut.upper
      · exact (Prod.mk.inj (Option.some.inj next)).2

/-- Draining goes forward, ends, and cuts the unread bytes into consecutive blocks
exactly when no length it meets is negative, or above `2^31-5` and not there. -/
theorem drain_forward_iff (state : ParserState)
    (ordered : state.parserRead ≤ state.bufferWrite) :
    DrainsForward state ↔ CutsSoundly (unread state) := by
  constructor
  · exact fun drains => sound_of_forward ordered drains.forward
  · intro sound
    refine ⟨forward_after ordered sound, ?_⟩
    obtain ⟨drained, buffers, ends, few, adjoins, lengths, upper⟩ :=
      drain_ends ordered sound (Nat.le_refl _)
    have blocks := blocks_ordered lengths
    refine ⟨drained, buffers, ?_, few, adjoins, upper, ?_, ?_⟩
    · intro fuel enough
      have done := ends fuel enough
      exact ⟨done, by rw [readMessages_eq, done, Option.map_some]⟩
    · have apart := adjoins.pairwise_disjoint blocks
      rwa [List.pairwise_map] at apart
    · intro buffer member
      obtain ⟨lower, below⟩ := adjoins.inside blocks buffer.block (List.mem_map_of_mem member)
      exact ⟨lower, below.trans upper⟩

theorem drain_forward_two_frames :
    DrainsForward (addData (createParserState (fun _ => 0) 0 16)
      (.ofBytes [2, 0, 0, 0, 7, 8, 0, 0, 0, 0, 5])).1 :=
  (drain_forward_iff (addData (createParserState (fun _ => 0) 0 16)
    (.ofBytes [2, 0, 0, 0, 7, 8, 0, 0, 0, 0, 5])).1 (by decide)).mpr
      (@cutsSoundly_of_stream [[2, 0, 0, 0, 7, 8], [0, 0, 0, 0]] [5] (by
        intro frame member
        fin_cases member <;> exact ⟨by decide, by decide, by decide⟩) (by decide))

/-- The prefix `00 00 00 FF` is a length of -1, and the read pointer advances by 3. -/
theorem drain_forward_negative_length :
    ¬DrainsForward (addData (createParserState (fun _ => 0) 0 16)
      (.ofBytes [0, 0, 0, 0xFF])).1 := by
  intro drains
  exact absurd (drains.forward 0) (by decide)

end LibEsClient
