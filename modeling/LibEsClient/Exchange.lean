import LibEsClient.Connection

/-! The way back of the heartbeats, to a peer that reads the client's packets with the
same parser in the same kind of loop. -/

namespace LibEsClient

open FlatMemory Machines Framing

/-- `collected` counts the bytes of the client's packets that the peer has read, and
`acknowledged` are the headers it has found in them. -/
structure Exchange where
  connection : Connection
  peer : ParserState
  collected : Nat
  acknowledged : List (Option Header)

inductive Move
  | act (action : Action)
  | collect (count : Nat)

def Exchange.start (memory sender peerMemory : Memory UInt8) (address peerAddress : Int) :
    Exchange where
  connection := Connection.start memory sender address
  peer := createParserState peerMemory peerAddress parserSize
  collected := 0
  acknowledged := []

def Exchange.returning (exchange : Exchange) : List UInt8 :=
  exchange.connection.client.sent.flatten.drop exchange.collected

def Exchange.step (sendBuf : Int) (exchange : Exchange) : Move → Option Exchange
  | .act action =>
      (exchange.connection.step sendBuf action).map fun connection =>
        { exchange with connection := connection }
  | .collect count =>
      let chunk := exchange.returning.take (min (count + 1) receiveSize)
      (readMessages (parserSize + 1) (addData exchange.peer (.ofBytes chunk)).1).map fun read =>
        { exchange with
          peer := compressSpace Memory.copy read.1
          collected := exchange.collected + chunk.length
          acknowledged :=
            exchange.acknowledged ++ read.2.map fun frame => parseHeader (frame.drop 4) }

def Exchange.run (sendBuf : Int) (exchange : Exchange) (moves : List Move) : Option Exchange :=
  moves.foldlM (Exchange.step sendBuf) exchange

def requestsIn (packets : List Packet) : List Header :=
  packets.filterMap fun packet => requestIn packet.payload

structure Exchange.Follows (exchange : Exchange) (seen unseen : List Header) : Prop where
  answers : ∃ answered waiting, exchange.connection.Answers answered waiting ∧
    requestsIn answered = seen ++ unseen
  acknowledged : exchange.acknowledged = seen.map fun request => some (heartbeatResponse request)
  within : exchange.collected ≤ exchange.connection.client.sent.flatten.length
  reading : Reading parserSize exchange.peer (unseen.map responseFrame) exchange.returning

theorem replies_eq (packets : List Packet) :
    (packets.flatMap fun packet => replies packet.payload) =
      (requestsIn packets).map responseFrame := by
  induction packets with
  | nil => rfl
  | cons packet rest ih =>
      rw [List.flatMap_cons, ih]
      cases found : requestIn packet.payload with
      | none => simp [replies, found, requestsIn]
      | some request => simp [replies, found, requestsIn]

@[simp] theorem length_responseFrame (request : Header) : (responseFrame request).length = 22 := by
  simp [responseFrame]

theorem sound_responseFrame (request : Header) : SoundFrame (responseFrame request) := by
  refine ReadsBack.soundFrame ?_ (by simp)
  rw [ReadsBack, length_headerBytes]
  rfl

theorem parseHeader_responseFrame (request : Header) :
    parseHeader ((responseFrame request).drop 4) = some (heartbeatResponse request) := by
  rw [responseFrame, drop_payloadFrame, parseHeader_headerBytes]
  rfl

section Steps

variable (sendBuf : Int) {exchange : Exchange} {seen unseen : List Header}

theorem Exchange.Follows.act (follows : exchange.Follows seen unseen) (action : Action) :
    ∃ next more, exchange.step sendBuf (.act action) = some next ∧
      next.Follows seen (unseen ++ more) := by
  obtain ⟨answered, waiting, answers, split⟩ := follows.answers
  obtain ⟨connection, more, later, stepped, _, answering⟩ := answers.step sendBuf action
  have sent : connection.client.sent =
      exchange.connection.client.sent ++ (requestsIn more).map responseFrame := by
    rw [answering.sent, answers.sent, List.flatMap_append, replies_eq more]
  refine ⟨{ exchange with connection := connection }, requestsIn more,
    by rw [Exchange.step, stepped]; rfl, ⟨answered ++ more, later, answering, ?_⟩,
    follows.acknowledged, ?_, ?_⟩
  · rw [requestsIn, List.filterMap_append, ← List.append_assoc, ← split]
    rfl
  · rw [sent, List.flatten_append, List.length_append]
    exact Nat.le_add_right_of_le follows.within
  · have flight : Exchange.returning { exchange with connection := connection } =
        exchange.returning ++ ((requestsIn more).map responseFrame).flatten := by
      rw [Exchange.returning, sent, List.flatten_append,
        List.drop_append_of_le_length follows.within]
      rfl
    rw [flight, List.map_append]
    refine follows.reading.send_all fun frame member => ?_
    obtain ⟨request, _, rfl⟩ := List.mem_map.mp member
    simp

theorem Exchange.Follows.collect (follows : exchange.Follows seen unseen) (count : Nat) :
    ∃ next more later, exchange.step sendBuf (.collect count) = some next ∧
      unseen = more ++ later ∧ next.Follows (seen ++ more) later := by
  have reading := follows.reading
  rw [← List.take_append_drop (min (count + 1) receiveSize) exchange.returning] at reading
  have sound : ∀ frame ∈ unseen.map responseFrame, SoundFrame frame ∧ frame.length ≤ 22 := by
    intro frame member
    obtain ⟨request, _, rfl⟩ := List.mem_map.mp member
    exact ⟨sound_responseFrame request, by simp⟩
  have room : 22 - 1 + (exchange.returning.take (min (count + 1) receiveSize)).length ≤
      parserSize := by
    simp only [List.length_take, parserSize, receiveSize]
    omega
  obtain ⟨drained, given, left, read, split, rested⟩ := reading.turn (by decide)
    (fun frame member => (sound frame member).1)
    (reading.room (fun frame member => (sound frame member).2) room) (Nat.lt_succ_self parserSize)
  obtain ⟨more, later, rfl, rfl, rfl⟩ := List.map_eq_append_iff.mp split
  refine ⟨_, more, later, by rw [Exchange.step, read, Option.map_some], rfl, ?_, ?_, ?_, ?_⟩
  · obtain ⟨answered, waiting, answers, split⟩ := follows.answers
    exact ⟨answered, waiting, answers, by rw [split, List.append_assoc]⟩
  · have found : ((more.map responseFrame).map fun frame => parseHeader (frame.drop 4)) =
        more.map fun request => some (heartbeatResponse request) := by
      rw [List.map_map]
      exact List.map_congr_left fun request _ => parseHeader_responseFrame request
    rw [found, follows.acknowledged, List.map_append]
  · have within := follows.within
    simp only [Exchange.returning, List.length_take, List.length_drop]
    omega
  · have flight : exchange.returning.drop (min (count + 1) receiveSize) =
        exchange.connection.client.sent.flatten.drop (exchange.collected +
          (exchange.returning.take (min (count + 1) receiveSize)).length) := by
      have whole : exchange.returning.length =
          exchange.connection.client.sent.flatten.length - exchange.collected :=
        List.length_drop
      rw [← List.drop_drop, List.length_take]
      change _ = exchange.returning.drop _
      rcases Nat.le_total (min (count + 1) receiveSize) exchange.returning.length with
        small | large
      · rw [Nat.min_eq_left small]
      · rw [Nat.min_eq_right large, List.drop_of_length_le large, List.drop_length]
    rwa [flight] at rested

theorem Exchange.Follows.step (follows : exchange.Follows seen unseen) (move : Move) :
    ∃ next nowSeen nowUnseen, exchange.step sendBuf move = some next ∧
      next.Follows nowSeen nowUnseen := by
  cases move with
  | act action =>
      obtain ⟨next, more, stepped, following⟩ := follows.act sendBuf action
      exact ⟨next, seen, unseen ++ more, stepped, following⟩
  | collect count =>
      obtain ⟨next, more, later, stepped, _, following⟩ := follows.collect sendBuf count
      exact ⟨next, seen ++ more, later, stepped, following⟩

theorem Exchange.Follows.run (follows : exchange.Follows seen unseen) (moves : List Move) :
    ∃ final nowSeen nowUnseen, exchange.run sendBuf moves = some final ∧
      final.Follows nowSeen nowUnseen := by
  induction moves generalizing exchange seen unseen with
  | nil => exact ⟨exchange, seen, unseen, rfl, follows⟩
  | cons move rest ih =>
      obtain ⟨next, nowSeen, nowUnseen, stepped, following⟩ := follows.step sendBuf move
      obtain ⟨final, atLast, left, ran, ended⟩ := ih following
      refine ⟨final, atLast, left, ?_, ended⟩
      rw [Exchange.run, List.foldlM_cons, stepped]
      exact ran

end Steps

theorem Exchange.start_follows (memory sender peerMemory : Memory UInt8)
    (address peerAddress : Int) :
    (Exchange.start memory sender peerMemory address peerAddress).Follows [] [] := by
  have idle := Session.start_idle ⟨peerMemory, peerAddress, parserSize, by decide, []⟩
  refine ⟨⟨[], [], Connection.start_answers memory sender address, rfl⟩, rfl, by
    simp [Exchange.start], ⟨idle.bounds, idle.compact, ?_, by simp⟩⟩
  exact congrArg (· ++ []) idle.nothing

/-- Whatever the order of sending and reading on both sides, the peer has seen the answers
to the first requests, each once and in order, and to all once nothing is in flight. -/
theorem responses_acknowledged (sendBuf : Int) (memory sender peerMemory : Memory UInt8)
    (address peerAddress : Int) (moves : List Move) :
    ∃ final, (Exchange.start memory sender peerMemory address peerAddress).run sendBuf moves =
        some final ∧
      final.acknowledged <+:
        ((requestsIn final.connection.transmitted).map fun request =>
          some (heartbeatResponse request)) ∧
      (final.connection.inFlight = [] → final.returning = [] →
        final.acknowledged =
          (requestsIn final.connection.transmitted).map fun request =>
            some (heartbeatResponse request)) := by
  obtain ⟨final, seen, unseen, ran, follows⟩ :=
    (Exchange.start_follows memory sender peerMemory address peerAddress).run sendBuf moves
  obtain ⟨answered, waiting, answers, split⟩ := follows.answers
  have requests : requestsIn final.connection.transmitted =
      seen ++ (unseen ++ requestsIn waiting) := by
    rw [answers.split, requestsIn, List.filterMap_append, ← List.append_assoc, ← split]
    rfl
  refine ⟨final, ran, ?_, fun flight returned => ?_⟩
  · rw [follows.acknowledged, requests, List.map_append]
    exact List.prefix_append _ _
  · have reading := follows.reading
    rw [returned] at reading
    have nothing : unseen = [] := List.map_eq_nil_iff.mp reading.none_waiting
    have none := answers.nothing_waiting (.inl flight)
    rw [follows.acknowledged, requests, nothing, none]
    simp [requestsIn]

end LibEsClient
