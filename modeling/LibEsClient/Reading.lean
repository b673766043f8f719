import LibEsClient.ReceiveLoop

/-! A reader of a stream between two turns of the receive loop, and how much room the
loop needs: for frames and chunks of bounded size, exactly as much as the largest part
of a frame and a chunk take. -/

namespace LibEsClient

open FlatMemory Machines Framing

/-- Of the frames that are yet to be given, less than one lies in the buffer, and the
rest is on the way. -/
structure Reading (capacity : Nat) (state : ParserState) (waiting : List (List UInt8))
    (inFlight : List UInt8) : Prop where
  bounds : InBounds capacity state
  compact : state.parserRead = state.bufferStart
  pending : unread state ++ inFlight = waiting.flatten
  part : ∀ frame later, waiting = frame :: later → (unread state).length < frame.length

section Reader

variable {capacity fuel : Nat} {state : ParserState} {waiting : List (List UInt8)}
  {inFlight : List UInt8}

theorem Reading.none_waiting (reading : Reading capacity state waiting []) : waiting = [] := by
  cases waiting with
  | nil => rfl
  | cons frame later =>
      have shorter := reading.part frame later rfl
      have whole := congrArg List.length reading.pending
      simp only [List.append_nil, List.flatten_cons, List.length_append] at whole
      omega

theorem Reading.send (reading : Reading capacity state waiting inFlight) {frame : List UInt8}
    (header : 0 < frame.length) :
    Reading capacity state (waiting ++ [frame]) (inFlight ++ frame) := by
  refine ⟨reading.bounds, reading.compact, ?_, ?_⟩
  · rw [← List.append_assoc, reading.pending, List.flatten_append, List.flatten_singleton]
  · rintro first later split
    cases waiting with
    | nil =>
        obtain ⟨rfl, rfl⟩ : frame = first ∧ [] = later := by simpa using split
        have nothing := reading.pending
        rw [List.flatten_nil, List.append_eq_nil_iff] at nothing
        rw [nothing.1]
        exact header
    | cons head rest =>
        obtain ⟨rfl, _⟩ : head = first ∧ rest ++ [frame] = later := by simpa using split
        exact reading.part head rest rfl

theorem Reading.send_all (reading : Reading capacity state waiting inFlight)
    {frames : List (List UInt8)} (headers : ∀ frame ∈ frames, 0 < frame.length) :
    Reading capacity state (waiting ++ frames) (inFlight ++ frames.flatten) := by
  induction frames generalizing waiting inFlight with
  | nil => simpa using reading
  | cons frame rest ih =>
      have next := ih (reading.send (headers frame (by simp)))
        fun later member => headers later (List.mem_cons_of_mem _ member)
      simpa using next

theorem Reading.room {frameBound : Nat} {chunk rest : List UInt8}
    (reading : Reading capacity state waiting (chunk ++ rest))
    (sizes : ∀ frame ∈ waiting, frame.length ≤ frameBound)
    (enough : frameBound - 1 + chunk.length ≤ capacity) :
    (unread state).length + chunk.length ≤ capacity := by
  cases waiting with
  | nil =>
      have lengths := congrArg List.length reading.pending
      simp only [List.length_append, List.flatten_nil, List.length_nil] at lengths
      omega
  | cons frame more =>
      have shorter := reading.part frame more rfl
      have bound := sizes frame (by simp)
      omega

theorem Reading.turn {chunk rest : List UInt8}
    (reading : Reading capacity state waiting (chunk ++ rest)) (fits : capacity < 2 ^ 31)
    (frames : ∀ frame ∈ waiting, SoundFrame frame)
    (room : (unread state).length + chunk.length ≤ capacity) (enough : capacity < fuel) :
    ∃ drained given more, readMessages fuel (addData state (.ofBytes chunk)).1 =
        some (drained, given) ∧ waiting = given ++ more ∧
      Reading capacity (compressSpace Memory.copy drained) more rest := by
  have nonNegative : 0 ≤ (Chunk.ofBytes chunk).length := Int.natCast_nonneg _
  have stored : (addData state (.ofBytes chunk)).2 = 0 :=
    reading.bounds.addData_accepted reading.compact room
  have appended := unread_addData reading.bounds.readLeWrite nonNegative stored
  have addedBounds := reading.bounds.addData nonNegative
  have pending := reading.pending
  rw [Chunk.bytes_ofBytes] at appended
  rw [← List.append_assoc, ← appended] at pending
  obtain ⟨drained, given, more, read, rfl, tail, drainedBounds, drainedPart⟩ :=
    readMessages_delivers addedBounds frames pending
      (Nat.lt_of_le_of_lt addedBounds.length_unread_le enough)
  have sameUnread := drainedBounds.unread_compressSpace fits
  rw [← sameUnread] at tail drainedPart
  exact ⟨drained, given, more, read, rfl, drainedBounds.compressSpace fits _,
    compressSpace_compact _ _, tail, drainedPart⟩

theorem Reading.nothing_given {frame : List UInt8} {given more : List (List UInt8)}
    (reading : Reading capacity state more inFlight) (split : [frame] = given ++ more)
    (unfinished : inFlight ≠ []) : given = [] ∧ more = [frame] := by
  cases given with
  | nil => exact ⟨rfl, split.symm⟩
  | cons head given =>
      -- nothing would be left to read, but the frame is not complete
      have nothing : more = [] := (List.append_eq_nil_iff.mp (List.cons.inj split).2.symm).2
      have empty := reading.pending
      rw [nothing, List.flatten_nil, List.append_eq_nil_iff] at empty
      exact absurd empty.2 unfinished

theorem Reading.loop_part {frame part tail : List UInt8}
    (reading : Reading capacity state [frame] (part ++ tail)) (fits : capacity < 2 ^ 31)
    (sound : SoundFrame frame) (unfinished : tail ≠ [])
    (room : frame.length ≤ capacity + tail.length) (enough : capacity < fuel)
    {later : List Chunk} {received : Received}
    (ran : receiveLoop Memory.copy fuel state (part.map (fun byte => .ofBytes [byte]) ++ later) =
      some received) :
    ∃ reached rest, Reading capacity reached [frame] tail ∧
      receiveLoop Memory.copy fuel reached later = some rest ∧ rest.codes <:+ received.codes := by
  induction part generalizing state received with
  | nil => exact ⟨state, received, reading, ran, List.suffix_refl _⟩
  | cons byte part ih =>
      have whole := congrArg List.length reading.pending
      simp only [List.length_append, List.length_cons, List.flatten_singleton] at whole
      have begun : Reading capacity state [frame] ([byte] ++ (part ++ tail)) := reading
      obtain ⟨drained, given, more, read, split, rested⟩ := begun.turn fits (by simpa using sound)
        (by simp only [List.length_singleton]; omega) enough
      simp only [List.map_cons, List.cons_append, receiveLoop, read, Option.map_eq_some_iff] at ran
      obtain ⟨next, others, rfl⟩ := ran
      obtain ⟨rfl, rfl⟩ := rested.nothing_given split (by simp [unfinished])
      obtain ⟨reached, rest, last, ended, codes⟩ := ih rested others
      exact ⟨reached, rest, last, ended, codes.trans (List.suffix_cons _ _)⟩

theorem Reading.add_refused {chunk : Chunk} (reading : Reading capacity state waiting inFlight)
    (positive : 0 < chunk.length) (full : capacity < (unread state).length + chunk.length) :
    addData state chunk = (state, -1) := by
  have length := reading.bounds.length_unread
  have size := reading.bounds.size
  have compact := reading.compact
  rcases addData_cases state chunk with ⟨refused, _⟩ | ⟨_, empty | room⟩
  · exact refused
  · omega
  · omega

theorem Reading.fresh (memory : Memory UInt8) (address : Int) (fits : capacity < 2 ^ 31)
    {frame : List UInt8} (header : 0 < frame.length) :
    Reading capacity (createParserState memory address capacity) [frame] frame := by
  have idle := Session.start_idle ⟨memory, address, capacity, fits, []⟩
  have begun : Reading capacity (createParserState memory address capacity) [] [] :=
    ⟨idle.bounds, idle.compact, congrArg (· ++ []) idle.nothing, by simp⟩
  exact begun.send header

end Reader

/-! How much room the loop needs. -/

/-- Over every stream of frames in chunks within the bounds, no chunk is refused and
all frames come out. -/
def LoopDelivers (capacity frameBound chunkBound : Nat) : Prop :=
  ∀ (sent chunks : List (List UInt8)) (memory : Memory UInt8) (address : Int),
    (∀ frame ∈ sent, SoundFrame frame ∧ frame.length ≤ frameBound) →
    (∀ chunk ∈ chunks, chunk.length ≤ chunkBound) → chunks.flatten = sent.flatten →
    ∃ received, receiveLoop Memory.copy (capacity + 1)
        (createParserState memory address capacity) (chunks.map .ofBytes) = some received ∧
      received.codes = List.replicate chunks.length 0 ∧ received.frames = sent

theorem loopDelivers_of_room {capacity frameBound chunkBound : Nat} (fits : capacity < 2 ^ 31)
    (room : frameBound - 1 + chunkBound ≤ capacity) :
    LoopDelivers capacity frameBound chunkBound := by
  intro sent chunks memory address frames sizes split
  have start : Idle capacity (createParserState memory address capacity) :=
    Session.start_idle ⟨memory, address, capacity, fits, []⟩
  obtain ⟨received, done, codes, given, _⟩ := receiveLoop_delivers fits room
    (Nat.lt_succ_self capacity) start.bounds start.compact frames sizes
    (by rw [start.nothing, split]; rfl) (by
      rintro frame later rfl
      have long : 4 ≤ frame.length := (frames frame (by simp)).1.isFrame.headerLength_le
      rw [start.nothing, List.length_nil]
      omega)
  exact ⟨received, done, codes, given⟩

theorem flatten_singles (bytes : List UInt8) : (bytes.map fun byte => [byte]).flatten = bytes := by
  rw [← List.flatMap_def, List.flatMap_singleton']

theorem sound_emptyFrame : SoundFrame [0, 0, 0, 0] := ⟨by decide, by decide, by decide⟩

/-- As soon as the bounds go over the capacity, a part of a frame and then a chunk do. -/
theorem room_of_loopDelivers {capacity frameBound chunkBound : Nat} (fits : capacity < 2 ^ 31)
    (nonempty : 0 < chunkBound) {frame : List UInt8} (sound : SoundFrame frame)
    (attained : frame.length = frameBound)
    (delivers : LoopDelivers capacity frameBound chunkBound) :
    frameBound - 1 + chunkBound ≤ capacity := by
  by_contra beyond
  have header : 4 ≤ frame.length := sound.isFrame.headerLength_le
  let taken := capacity + 1 - chunkBound
  let tail := frame.drop taken
  let more := tail ++ (List.replicate chunkBound [0, 0, 0, 0]).flatten
  let chunks := (frame.take taken).map (fun byte => [byte]) ++
    (more.take chunkBound :: (more.drop chunkBound).map fun byte => [byte])
  have tailLength : tail.length = frame.length - taken := List.length_drop
  have fullChunk : (more.take chunkBound).length = chunkBound := by
    simp only [more, List.length_take, List.length_append, List.length_flatten, List.map_replicate,
      List.sum_replicate, List.length_cons, List.length_nil, smul_eq_mul]
    omega
  have frames : ∀ other ∈ frame :: List.replicate chunkBound [0, 0, 0, 0],
      SoundFrame other ∧ other.length ≤ frameBound := by
    intro other member
    rcases List.mem_cons.mp member with rfl | empty
    · exact ⟨sound, attained.le⟩
    · rw [List.eq_of_mem_replicate empty]
      exact ⟨sound_emptyFrame, attained ▸ header⟩
  have sizes : ∀ chunk ∈ chunks, chunk.length ≤ chunkBound := by
    intro chunk member
    simp only [chunks, List.mem_append, List.mem_cons, List.mem_map] at member
    rcases member with ⟨byte, _, rfl⟩ | rfl | ⟨byte, _, rfl⟩
    · exact nonempty
    · exact fullChunk.le
    · exact nonempty
  have split : chunks.flatten = (frame :: List.replicate chunkBound [0, 0, 0, 0]).flatten := by
    simp only [chunks, List.flatten_append, List.flatten_cons, flatten_singles,
      List.take_append_drop, more, tail]
    rw [← List.append_assoc, List.take_append_drop]
  obtain ⟨received, ran, codes, _⟩ := delivers _ chunks (fun _ => 0) 0 frames sizes split
  have begun : Reading capacity (createParserState (fun _ => 0) 0 capacity) [frame]
      (frame.take taken ++ tail) := by
    rw [List.take_append_drop]
    exact Reading.fresh _ _ fits (by omega)
  have unfinished : tail ≠ [] := by
    intro none
    rw [none, List.length_nil] at tailLength
    omega
  rw [List.map_append, List.map_map] at ran
  obtain ⟨reached, rest, reading, ended, kept⟩ :=
    begun.loop_part fits sound unfinished (by omega) (Nat.lt_succ_self capacity) ran
  have whole := congrArg List.length reading.pending
  simp only [List.length_append, List.flatten_singleton] at whole
  have refused : addData reached (.ofBytes (more.take chunkBound)) = (reached, -1) := by
    refine reading.add_refused ?_ ?_
    · simp only [Chunk.ofBytes, fullChunk]
      omega
    · simp only [Chunk.ofBytes, fullChunk]
      omega
  have among : (-1 : Int) ∈ received.codes := by
    refine kept.subset ?_
    simp only [List.map_cons, receiveLoop] at ended
    cases read : readMessages (capacity + 1)
        (addData reached (.ofBytes (more.take chunkBound))).1 with
    | none => simp [read] at ended
    | some result =>
        simp only [read, Option.map_eq_some_iff] at ended
        obtain ⟨last, _, rfl⟩ := ended
        rw [refused]
        exact List.mem_cons_self
  rw [codes] at among
  have zero := List.eq_of_mem_replicate among
  omega

/-- Where a frame can be as large as the bound, the loop takes every stream within the
bounds exactly if the buffer has room for all of that frame but a byte, and a chunk. -/
theorem receiveLoop_room_iff {capacity frameBound chunkBound : Nat} (fits : capacity < 2 ^ 31)
    (nonempty : 0 < chunkBound)
    (attained : ∃ frame, SoundFrame frame ∧ frame.length = frameBound) :
    LoopDelivers capacity frameBound chunkBound ↔ frameBound - 1 + chunkBound ≤ capacity := by
  obtain ⟨frame, sound, size⟩ := attained
  exact ⟨room_of_loopDelivers fits nonempty sound size, loopDelivers_of_room fits⟩

theorem receiveLoop_room_iff_small :
    LoopDelivers 8 6 3 ↔ 6 - 1 + 3 ≤ 8 :=
  receiveLoop_room_iff (by decide) (by decide)
    ⟨[2, 0, 0, 0, 7, 8], ⟨by decide, by decide, by decide⟩, rfl⟩

end LibEsClient
