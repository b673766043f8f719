import LibEsClient.Connection
import LibEsClient.MsgParserRoom

/-! How large a packet the client of `foo_main.c` can take. Up to 3069 bytes it answers
every request, however its reads cut the stream; one byte more can be lost; and after a
packet that is larger than its buffer it answers nothing any more. -/

namespace LibEsClient

open FlatMemory Machines Framing

def Client.turns (sendBuf : Int) (client : Client) (chunks : List (List UInt8)) : Option Client :=
  chunks.foldlM (fun client chunk => client.turn sendBuf (.ofBytes chunk)) client

def IsRead (chunk : List UInt8) : Prop := chunk ≠ [] ∧ chunk.length ≤ receiveSize

instance (chunk : List UInt8) : Decidable (IsRead chunk) := inferInstanceAs (Decidable (_ ∧ _))

def AnswersUpTo (sendBuf : Int) (bound : Nat) : Prop :=
  ∀ (payloads chunks : List (List UInt8)) (memory sender : Memory UInt8) (address : Int),
    (∀ payload ∈ payloads, payload.length ≤ bound) → (∀ chunk ∈ chunks, IsRead chunk) →
    chunks.flatten = payloadStream payloads →
    ∃ client,
      (Connection.start memory sender address).client.turns sendBuf chunks = some client ∧
        client.sent = payloads.flatMap replies

section Turns

variable (sendBuf : Int) {client : Client}

theorem Client.turns_cons {next : Client} {chunk : List UInt8}
    (turned : client.turn sendBuf (.ofBytes chunk) = some next) (later : List (List UInt8)) :
    client.turns sendBuf (chunk :: later) = next.turns sendBuf later := by
  rw [turns, List.foldlM_cons, turned]
  rfl

theorem Client.turns_append {next : Client} {earlier : List (List UInt8)}
    (turned : client.turns sendBuf earlier = some next) (later : List (List UInt8)) :
    client.turns sendBuf (earlier ++ later) = next.turns sendBuf later := by
  rw [turns] at turned
  rw [turns, List.foldlM_append, turned]
  rfl

theorem Client.turn_silent {chunk : List UInt8} (some : chunk ≠ [])
    (null : (readNext (addData client.parser (.ofBytes chunk)).1).2 = none) :
    client.turn sendBuf (.ofBytes chunk) = .some { client with
      parser := compressSpace Memory.copy
        (readNext (addData client.parser (.ofBytes chunk)).1).1 } := by
  have notEmpty : (Chunk.ofBytes chunk).length ≠ 0 := by simpa [Chunk.ofBytes] using some
  simp only [turn, if_neg notEmpty, null]
  rfl

theorem readsBack_small {payload : List UInt8} (small : payload.length < 2 ^ 15) :
    ReadsBack payload := by
  rw [ReadsBack, lengthReadBack, if_neg (by omega), if_neg (by omega)]

theorem Reading.client_turns {payloads chunks : List (List UInt8)}
    (reading : Reading parserSize client.parser (payloads.map payloadFrame) chunks.flatten)
    (small : ∀ payload ∈ payloads, payload.length ≤ 3069)
    (reads : ∀ chunk ∈ chunks, IsRead chunk) :
    ∃ last, client.turns sendBuf chunks = some last ∧
      last.sent = client.sent ++ payloads.flatMap replies := by
  induction chunks generalizing client payloads with
  | nil =>
      have nothing : payloads = [] := List.map_eq_nil_iff.mp reading.none_waiting
      exact ⟨client, rfl, by simp [nothing]⟩
  | cons chunk later ih =>
      obtain ⟨⟨nonempty, size⟩, others⟩ := List.forall_mem_cons.mp reads
      have frames : ∀ frame ∈ payloads.map payloadFrame,
          SoundFrame frame ∧ frame.length ≤ 3073 := by
        intro frame member
        obtain ⟨payload, among, rfl⟩ := List.mem_map.mp member
        have bound := small payload among
        refine ⟨(readsBack_small (by omega)).soundFrame (by omega), ?_⟩
        rw [length_payloadFrame]
        omega
      have room : 3073 - 1 + chunk.length ≤ parserSize := by
        simp only [parserSize, receiveSize] at size ⊢
        omega
      obtain ⟨next, given, left, turned, _, split, _, sent, rested⟩ :=
        reading.client_turn sendBuf (fun frame member => (frames frame member).1)
          (reading.room (fun frame member => (frames frame member).2) room) nonempty
      obtain ⟨answered, waiting, rfl, rfl, rfl⟩ := List.map_eq_append_iff.mp split
      obtain ⟨last, done, sentLater⟩ := ih rested
        (fun payload member => small payload (List.mem_append_right _ member)) others
      refine ⟨last, (Client.turns_cons sendBuf turned later).trans done, ?_⟩
      rw [sentLater, sent, map_drop_payloadFrame, List.flatMap_append, List.append_assoc]

/-! A request that the buffer has room for, but not together with the next read. -/

theorem Reading.client_part {frame part tail : List UInt8}
    (reading : Reading parserSize client.parser [frame] (part ++ tail)) (sound : SoundFrame frame)
    (unfinished : tail ≠ []) (room : frame.length ≤ parserSize + tail.length) :
    ∃ next, client.turns sendBuf (part.map fun byte => [byte]) = some next ∧
      next.sent = client.sent ∧ Reading parserSize next.parser [frame] tail := by
  induction part generalizing client with
  | nil => exact ⟨client, rfl, rfl, reading⟩
  | cons byte part ih =>
      have whole := congrArg List.length reading.pending
      simp only [List.length_append, List.length_cons, List.flatten_singleton] at whole
      have begun : Reading parserSize client.parser [frame] ([byte] ++ (part ++ tail)) := reading
      obtain ⟨next, given, more, turned, _, split, _, sent, rested⟩ := begun.client_turn sendBuf
        (by simpa using sound) (by simp only [List.length_singleton]; omega) (by simp)
      obtain ⟨rfl, rfl⟩ := rested.nothing_given split (by simp [unfinished])
      obtain ⟨last, done, sentLater, reached⟩ := ih rested
      refine ⟨last, (Client.turns_cons sendBuf turned _).trans done, ?_, reached⟩
      rw [sentLater, sent, List.map_nil, List.flatMap_nil, List.append_nil]

theorem Reading.client_refused {frame tail chunk : List UInt8}
    (reading : Reading parserSize client.parser [frame] tail) (sound : SoundFrame frame)
    (some : chunk ≠ []) (full : parserSize < (unread client.parser).length + chunk.length) :
    ∃ next, client.turn sendBuf (.ofBytes chunk) = .some next ∧ next.sent = client.sent := by
  have positive : 0 < (Chunk.ofBytes chunk).length := by
    simpa [Chunk.ofBytes] using List.length_pos_iff.mpr some
  have refused : addData client.parser (.ofBytes chunk) = (client.parser, -1) :=
    reading.add_refused positive (by simp only [Chunk.ofBytes]; omega)
  have pending : unread client.parser ++ tail = frame := by simpa using reading.pending
  have stuck := sound.isFrame.stuck_part pending (reading.part frame [] rfl)
  obtain ⟨null, _⟩ := reading.bounds.readNext_null (by simpa using sound) reading.pending stuck
  exact ⟨_, Client.turn_silent sendBuf some (by rw [refused]; exact null), rfl⟩

theorem Connection.start_reading (memory sender : Memory UInt8) (address : Int)
    (frames : List (List UInt8)) (headers : ∀ frame ∈ frames, 0 < frame.length) :
    Reading parserSize (Connection.start memory sender address).client.parser frames
      frames.flatten :=
  (Connection.start_answers memory sender address).reading.send_all headers

theorem exists_request (length : Nat) (header : 18 ≤ length) :
    ∃ request : List UInt8, request.length = length ∧ replies request ≠ [] := by
  refine ⟨messageHeartbeatRequest :: 0 :: List.replicate (length - 2) 0, ?_, ?_⟩
  · simp only [List.length_cons, List.length_replicate]
    omega
  · have few : ¬(List.replicate (length - 2) (0 : UInt8)).length < 16 := by
      rw [List.length_replicate]
      omega
    rw [replies, requestIn, parseHeader, if_neg few]
    simp [Option.filter, createHeader]

theorem answersUpTo_of_le {bound : Nat} (small : bound ≤ 3069) : AnswersUpTo sendBuf bound := by
  intro payloads chunks memory sender address bounded reads split
  have begun := Connection.start_reading memory sender address (payloads.map payloadFrame)
    (by simp)
  rw [← payloadStream_eq, ← split] at begun
  exact begun.client_turns sendBuf
    (fun payload member => (bounded payload member).trans small) reads

/-- All but the last byte of the request comes in, then a whole read that is refused. -/
theorem le_of_answersUpTo {bound : Nat} (answers : AnswersUpTo sendBuf bound) : bound ≤ 3069 := by
  by_contra large
  obtain ⟨request, length, replied⟩ := exists_request 3070 (by omega)
  obtain ⟨filler, fillerLength⟩ : ∃ filler : List UInt8, filler.length = 1019 :=
    ⟨List.replicate 1019 0, List.length_replicate⟩
  let part := (payloadFrame request).take 3073
  let tail := (payloadFrame request).drop 3073
  let last := tail ++ payloadFrame filler
  have whole : part ++ tail = payloadFrame request := List.take_append_drop _ _
  have partLength : part.length = 3073 := by simp [part, length]
  have tailLength : tail.length = 1 := by simp [tail, length]
  have lastLength : last.length = receiveSize := by
    simp [last, tailLength, fillerLength, receiveSize]
  have unfinished : tail ≠ [] := List.ne_nil_of_length_pos (by omega)
  have nonempty : last ≠ [] := List.append_ne_nil_of_left_ne_nil unfinished _
  have bounded : ∀ payload ∈ [request, filler], payload.length ≤ bound := by
    simp only [List.forall_mem_cons, length, fillerLength]
    exact ⟨by omega, by omega, by simp⟩
  have reads : ∀ chunk ∈ part.map (fun byte => [byte]) ++ [last], IsRead chunk := by
    intro chunk member
    rcases List.mem_append.mp member with single | atLast
    · obtain ⟨byte, _, rfl⟩ := List.mem_map.mp single
      exact ⟨by simp, by simp [receiveSize]⟩
    · obtain rfl := List.mem_singleton.mp atLast
      exact ⟨nonempty, lastLength.le⟩
  have split : (part.map (fun byte => [byte]) ++ [last]).flatten =
      payloadStream [request, filler] := by
    rw [List.flatten_append, flatten_singles, List.flatten_singleton, ← List.append_assoc, whole]
    simp [payloadStream]
  obtain ⟨client, ran, sent⟩ := answers _ _ (fun _ => 0) (fun _ => 0) 0 bounded reads split
  have sound : SoundFrame (payloadFrame request) :=
    (readsBack_small (by omega)).soundFrame (by omega)
  have begun := Connection.start_reading (fun _ => 0) (fun _ => 0) 0
    [payloadFrame request] (by simp)
  rw [List.flatten_singleton, ← whole] at begun
  have frameLength : (part ++ tail).length ≤ parserSize + tail.length := by
    simp only [List.length_append, partLength, parserSize]
    omega
  obtain ⟨near, came, silent, reading⟩ :=
    begun.client_part sendBuf (whole ▸ sound) unfinished frameLength
  have unreadLength := congrArg List.length reading.pending
  simp only [List.length_append, List.flatten_singleton] at unreadLength
  obtain ⟨final, refused, unanswered⟩ := reading.client_refused sendBuf (whole ▸ sound) nonempty
    (by simp only [lastLength, parserSize, receiveSize]; omega)
  rw [Client.turns_append sendBuf came, Client.turns_cons sendBuf refused] at ran
  obtain rfl : final = client := by simpa [Client.turns] using ran
  -- nothing was sent, but there was a request
  rw [unanswered, silent] at sent
  have none : replies request ++ replies filler = [] := by
    simpa [Connection.start] using sent.symm
  exact replied (List.append_eq_nil_iff.mp none).1

/-- However its reads cut the stream, the client answers every request in packets of at
most so many bytes: this holds for 3069 bytes and for no more. -/
theorem answersUpTo_iff (bound : Nat) : AnswersUpTo sendBuf bound ↔ bound ≤ 3069 :=
  ⟨le_of_answersUpTo sendBuf, answersUpTo_of_le sendBuf⟩

end Turns

/-! A packet that is larger than the buffer. -/

/-- The head of the large packet is yet to be read. For as much as the buffer takes of
it, the client reads as if all of it were on its way. -/
structure Client.Nears (client : Client) (waiting : List Packet) (large rest : List UInt8) :
    Prop where
  reading : ∃ onTheWay, Reading parserSize client.parser
    (waiting.map Packet.frame ++ [completed large]) onTheWay
  pending : unread client.parser ++ rest = (waiting.map Packet.frame).flatten ++ large
  unknown : waiting = [] → (unread client.parser).length < 4

structure Client.Meets (client : Client) (answered waiting : List Packet)
    (large rest : List UInt8) : Prop where
  running : client.running = true
  sent : client.sent = answered.flatMap fun packet => replies packet.payload
  reads : client.Nears waiting large rest ∨
    waiting = [] ∧ Waiting parserSize (large.take 4) client.parser

section Large

variable (sendBuf : Int) {client : Client} {answered waiting : List Packet}
  {large chunk rest : List UInt8}

theorem prefix_completed {frames part : List UInt8} (comes : part <+: frames ++ large)
    (inside : part.length ≤ frameFormat.size large) : part <+: frames ++ completed large := by
  have lengths := comes.length_le
  rw [List.length_append] at lengths
  have here : part = (frames ++ large).take part.length := List.prefix_iff_eq_take.mp comes
  have same : (completed large).take (part.length - frames.length) =
      large.take (part.length - frames.length) :=
    Format.take_completed (by omega) (by omega)
  rw [here, List.take_append, ← same, ← List.take_append]
  exact List.take_prefix _ _

theorem Client.Nears.room (nears : client.Nears waiting large rest)
    (size : chunk.length ≤ receiveSize) :
    (unread client.parser).length + chunk.length ≤ parserSize := by
  simp only [parserSize, receiveSize] at size ⊢
  cases waiting with
  | nil =>
      have few := nears.unknown rfl
      omega
  | cons packet later =>
      obtain ⟨onTheWay, reading⟩ := nears.reading
      have shorter := reading.part packet.frame _ rfl
      have bound := packet.sound.2
      simp only [parserSize, receiveSize] at bound
      omega

theorem Reading.last_unfinished {state next : ParserState} {frames given more : List (List UInt8)}
    {last later : List UInt8} {capacity : Nat} (rested : Reading capacity next more later)
    (whole : unread state ++ (chunk ++ later) = (frames ++ [last]).flatten)
    (split : frames ++ [last] = given ++ more)
    (room : (unread state).length + chunk.length ≤ capacity) (tooLarge : capacity < last.length) :
    ∃ left, frames = given ++ left ∧ more = left ++ [last] := by
  rcases List.eq_nil_or_concat more with rfl | ⟨left, final, rfl⟩
  · have lengths := congrArg List.length whole
    have nothing := rested.pending
    rw [List.flatten_nil, List.append_eq_nil_iff] at nothing
    simp only [nothing.2, List.append_nil, List.length_append, List.flatten_append,
      List.flatten_singleton] at lengths
    omega
  · rw [List.concat_eq_append, ← List.append_assoc] at split
    obtain ⟨small, same⟩ := List.append_inj' split rfl
    exact ⟨left, small, by rw [List.concat_eq_append, same]⟩

theorem Client.Nears.turn (nears : client.Nears waiting large (chunk ++ rest))
    (sound : SoundFrame (completed large)) (tooLarge : parserSize < frameFormat.size large)
    (read : IsRead chunk) :
    ∃ next more later, client.turn sendBuf (.ofBytes chunk) = some next ∧
      waiting = more ++ later ∧ next.running = client.running ∧
      next.sent = client.sent ++ (more.flatMap fun packet => replies packet.payload) ∧
      (next.Nears later large rest ∨
        later = [] ∧ Waiting parserSize (large.take 4) next.parser) := by
  have room := nears.room read.2
  obtain ⟨⟨onTheWay, reading⟩, pending, _⟩ := nears
  have whole := reading.pending
  have comes : unread client.parser ++ chunk <+:
      (waiting.map Packet.frame).flatten ++ completed large := by
    refine prefix_completed ⟨rest, by rw [List.append_assoc, pending]⟩ ?_
    rw [List.length_append]
    omega
  rw [← List.flatten_concat, ← whole] at comes
  obtain ⟨missing, rfl⟩ := (List.prefix_append_right_inj _).mp comes
  have frames : ∀ frame ∈ waiting.map Packet.frame ++ [completed large], SoundFrame frame := by
    intro frame member
    rcases List.mem_append.mp member with small | last
    · exact (Packet.frames_sound frame small).1
    · rwa [List.mem_singleton.mp last]
  obtain ⟨next, given, left, turned, _, split, running, sent, rested⟩ :=
    reading.client_turn sendBuf frames room read.1
  obtain ⟨left, small, rfl⟩ := rested.last_unfinished whole split room
    (by simpa [completed] using tooLarge)
  obtain ⟨more, later, rfl, rfl, rfl⟩ := List.map_eq_append_iff.mp small
  have taken : unread client.parser ++ chunk =
      (more.map Packet.frame).flatten ++ unread next.parser := by
    have same : unread client.parser ++ chunk ++ missing =
        (more.map Packet.frame).flatten ++ unread next.parser ++ missing := by
      rw [List.append_assoc, whole, List.append_assoc, rested.pending]
      simp
    exact List.append_cancel_right same
  have comes : unread next.parser ++ rest = (later.map Packet.frame).flatten ++ large := by
    have same : (more.map Packet.frame).flatten ++ (unread next.parser ++ rest) =
        (more.map Packet.frame).flatten ++ ((later.map Packet.frame).flatten ++ large) := by
      rw [← List.append_assoc, ← taken, List.append_assoc, pending]
      simp
    exact List.append_cancel_left same
  refine ⟨next, more, later, turned, rfl, running, by rw [sent, flatMap_replies], ?_⟩
  by_cases known : later = [] ∧ 4 ≤ (unread next.parser).length
  · obtain ⟨rfl, enough⟩ := known
    refine .inr ⟨rfl, rested.bounds, enough, ?_⟩
    rw [List.map_nil, List.flatten_nil, List.nil_append] at comes
    rw [← comes, List.take_append_of_le_length enough]
  · refine .inl ⟨⟨missing, rested⟩, comes, fun none => ?_⟩
    by_contra enough
    exact known ⟨none, by omega⟩

theorem Waiting.client_turn {head : List UInt8} (blocked : Waiting parserSize head client.parser)
    (tooLarge : (parserSize : Int) < prefixLength head + 4) (upper : prefixLength head ≤ 2 ^ 31 - 5)
    (some : chunk ≠ []) :
    ∃ next, client.turn sendBuf (.ofBytes chunk) = .some next ∧ next.running = client.running ∧
      next.sent = client.sent ∧ Waiting parserSize head next.parser := by
  simp only [parserSize] at tooLarge
  have lower : 0 ≤ prefixLength head := by omega
  have large : parserSize < 4 + (prefixLength head).toNat := by
    simp only [parserSize]
    omega
  have step {state : ParserState} (found : Waiting parserSize head state) (call : Call)
      (nonNegative : call.NonNegative) := found.step lower upper (by decide) large nonNegative
  obtain ⟨_, added⟩ := step blocked (.addData (.ofBytes chunk)) (Int.natCast_nonneg _)
  obtain ⟨silent, looked⟩ := step added .readNext trivial
  obtain ⟨_, compressed⟩ := step looked .compressSpace trivial
  rw [returnedBuffer_readNext rfl] at silent
  exact ⟨_, Client.turn_silent sendBuf some silent, rfl, rfl, compressed⟩

theorem Client.Meets.turn (meets : client.Meets answered waiting large (chunk ++ rest))
    (known : 4 ≤ large.length)
    (tooLarge : (parserSize : Int) < prefixLength (large.take 4) + 4)
    (upper : prefixLength (large.take 4) ≤ 2 ^ 31 - 5) (read : IsRead chunk) :
    ∃ next more later, client.turn sendBuf (.ofBytes chunk) = some next ∧
      waiting = more ++ later ∧ next.Meets (answered ++ more) later large rest := by
  obtain ⟨running, sent, nears | ⟨rfl, blocked⟩⟩ := meets
  · have size : parserSize < frameFormat.size large := by
      change parserSize < 4 + (prefixLength (large.take 4)).toNat
      omega
    have lower : 0 ≤ prefixLength (large.take 4) := by
      simp only [parserSize] at tooLarge
      omega
    obtain ⟨next, more, later, turned, rfl, stillRunning, answers, reads⟩ :=
      nears.turn sendBuf (completed_sound known lower upper) size read
    refine ⟨next, more, later, turned, rfl, stillRunning.trans running, ?_, reads⟩
    rw [answers, sent, List.flatMap_append]
  · obtain ⟨next, turned, stillRunning, silent, blocked⟩ :=
      blocked.client_turn sendBuf tooLarge upper read.1
    refine ⟨next, [], [], turned, rfl, stillRunning.trans running, ?_, .inr ⟨rfl, blocked⟩⟩
    rw [silent, sent, List.append_nil]

theorem Client.Meets.turns {chunks : List (List UInt8)}
    (meets : client.Meets answered waiting large (chunks.flatten ++ rest))
    (known : 4 ≤ large.length)
    (tooLarge : (parserSize : Int) < prefixLength (large.take 4) + 4)
    (upper : prefixLength (large.take 4) ≤ 2 ^ 31 - 5) (reads : ∀ chunk ∈ chunks, IsRead chunk) :
    ∃ final more later, client.turns sendBuf chunks = some final ∧ waiting = more ++ later ∧
      final.Meets (answered ++ more) later large rest := by
  induction chunks generalizing client answered waiting with
  | nil => exact ⟨client, [], waiting, rfl, rfl, by simpa using meets⟩
  | cons chunk chunks ih =>
      obtain ⟨read, others⟩ := List.forall_mem_cons.mp reads
      rw [List.flatten_cons, List.append_assoc] at meets
      obtain ⟨next, more, later, turned, rfl, met⟩ := meets.turn sendBuf known tooLarge upper read
      obtain ⟨final, rest, last, ran, rfl, reached⟩ := ih met others
      exact ⟨final, more ++ rest, last, (Client.turns_cons sendBuf turned _).trans ran,
        (List.append_assoc _ _ _).symm, by rwa [List.append_assoc] at reached⟩

theorem Connection.start_meets (memory sender : Memory UInt8) (address : Int)
    (packets : List Packet) (known : 4 ≤ large.length)
    (tooLarge : (parserSize : Int) < prefixLength (large.take 4) + 4)
    (upper : prefixLength (large.take 4) ≤ 2 ^ 31 - 5) :
    (Connection.start memory sender address).client.Meets [] packets large
      ((packets.map Packet.frame).flatten ++ large) := by
  simp only [parserSize] at tooLarge
  have idle := Session.start_idle ⟨memory, address, parserSize, by decide, []⟩
  have fresh : unread (Connection.start memory sender address).client.parser = [] := idle.nothing
  refine ⟨rfl, rfl, .inl ⟨⟨_, Connection.start_reading memory sender address _ ?_⟩, ?_, ?_⟩⟩
  · intro frame member
    rcases List.mem_append.mp member with small | last
    · have header : 4 ≤ frame.length :=
        (Packet.frames_sound frame small).1.isFrame.headerLength_le
      omega
    · have header : 4 ≤ (completed large).length :=
        (completed_sound known (by omega) upper).isFrame.headerLength_le
      rw [List.mem_singleton.mp last]
      omega
  · rw [fresh, List.nil_append]
  · intro _
    rw [fresh, List.length_nil]
    omega

theorem Client.Meets.large_comes (meets : client.Meets answered waiting large rest)
    (here : rest.length ≤ large.length) : waiting = [] := by
  rcases meets.reads with nears | ⟨none, _⟩
  · cases waiting with
    | nil => rfl
    | cons packet later =>
        obtain ⟨onTheWay, reading⟩ := nears.reading
        have shorter := reading.part packet.frame _ rfl
        have lengths := congrArg List.length nears.pending
        simp only [List.length_append, List.map_cons, List.flatten_cons] at lengths
        omega
  · exact none

/-- Whatever comes after the head of a packet that is larger than the buffer, and however
its reads cut the stream, the client runs on and answers the requests before that packet
and no other. -/
theorem large_packet_silences (memory sender : Memory UInt8) (address : Int)
    (packets : List Packet) (large rest : List UInt8) (chunks : List (List UInt8))
    (known : 4 ≤ large.length)
    (tooLarge : (parserSize : Int) < prefixLength (large.take 4) + 4)
    (upper : prefixLength (large.take 4) ≤ 2 ^ 31 - 5) (reads : ∀ chunk ∈ chunks, IsRead chunk)
    (split : chunks.flatten ++ rest = (packets.map Packet.frame).flatten ++ large) :
    ∃ client answered waiting,
      (Connection.start memory sender address).client.turns sendBuf chunks = some client ∧
        packets = answered ++ waiting ∧ client.running = true ∧
        client.sent = (answered.flatMap fun packet => replies packet.payload) ∧
        (rest.length ≤ large.length → waiting = []) := by
  have begun := Connection.start_meets memory sender address packets known tooLarge upper
  rw [← split] at begun
  obtain ⟨client, answered, waiting, ran, rfl, meets⟩ :=
    begun.turns sendBuf known tooLarge upper reads
  exact ⟨client, answered, waiting, ran, rfl, meets.running, meets.sent, meets.large_comes⟩

def emptyRequest : List UInt8 := messageHeartbeatRequest :: List.replicate 17 0

theorem readsBack_emptyRequest : ReadsBack emptyRequest := readsBack_small (by decide)

theorem fits_emptyRequest : 4 + emptyRequest.length ≤ parserSize - receiveSize + 1 := by decide

def requestPacket : Packet where
  payload := emptyRequest
  readsBack := readsBack_emptyRequest
  fits := fits_emptyRequest

theorem large_packet_silences_request :
    ∃ client, (Connection.start (fun _ => 0) (fun _ => 0) 0).client.turns 0
          [requestPacket.frame.take 10, requestPacket.frame.drop 10 ++ [0], [32, 0, 0],
            requestPacket.frame] = some client ∧
        client.running = true ∧
        client.sent = [payloadFrame (messageHeartbeatResponse :: List.replicate 17 0)] := by
  obtain ⟨client, answered, waiting, ran, split, running, sent, front⟩ :=
    large_packet_silences 0 (fun _ => 0) (fun _ => 0) 0 [requestPacket]
      ([0, 32, 0, 0] ++ requestPacket.frame) []
      [requestPacket.frame.take 10, requestPacket.frame.drop 10 ++ [0], [32, 0, 0],
        requestPacket.frame] (by decide) (by decide) (by decide) (by decide) (by decide)
  obtain rfl : waiting = [] := front (by decide)
  rw [List.append_nil] at split
  rw [← split] at sent
  exact ⟨client, ran, running, sent.trans (by decide)⟩

end Large

end LibEsClient
