import LibEsClient.Reading
import LibEsClient.HeaderWire

/-! The client of `foo_main.c` on its connection: each turn of its loop reads what there
is, answers every heartbeat request in it and compacts the buffer. Over any order of
what the server sends and the client reads, each request is answered once, in order. -/

namespace LibEsClient

open FlatMemory Machines Framing

def messageHeartbeatRequest : UInt8 := 0x01
def messageHeartbeatResponse : UInt8 := 0x02

def parserSize : Nat := 4096
def receiveSize : Nat := 1024

/-- `sent` are the packets given to `send`, which always takes the whole of one. -/
structure Client where
  parser : ParserState
  sender : Memory UInt8
  sent : List (List UInt8)
  running : Bool

section Client

variable (sendBuf : Int)

def heartbeatResponse (request : Header) : Header :=
  createHeader messageHeartbeatResponse 0 request.correlationId none none

def memoryAfterSend (memory : Memory UInt8) (header : Header) : Memory UInt8 :=
  let written := writeHeader header memory (sendBuf + 4)
  written.1.write sendBuf (lengthPrefix written.2.toNat)

def Client.serve (client : Client) (msg : Buffer) : Client :=
  match readHeader client.parser.memory msg none with
  | (0, _) => client
  | (_, none) => client
  | (_, some header) =>
      if header.command = messageHeartbeatRequest then
        { client with
            sent := client.sent ++ [sendHeader client.sender sendBuf (heartbeatResponse header)]
            sender := memoryAfterSend sendBuf client.sender (heartbeatResponse header) }
      else client

def Client.serveAll : Nat → Client → Option Buffer → Option Client
  | 0, _, _ => none
  | _ + 1, client, none => some client
  | fuel + 1, client, some msg =>
      let served := client.serve sendBuf msg
      Client.serveAll fuel { served with parser := (readNext served.parser).1 }
        (readNext served.parser).2

def Client.turn (client : Client) (data : Chunk) : Option Client :=
  let next := readNext (addData client.parser data).1
  if data.length = 0 then some { client with parser := next.1, running := false }
  else
    (Client.serveAll sendBuf (parserSize + 1) { client with parser := next.1 } next.2).map
      fun served => { served with parser := compressSpace Memory.copy served.parser }

end Client

def Client.Reads (client : Client) (data : Chunk) (frames : List (List UInt8)) : Prop :=
  if data.length = 0 then (readNext (addData client.parser data).1).2 = none ∧ frames = []
  else ∃ drained, readMessages (parserSize + 1) (addData client.parser data).1 =
    some (drained, frames)

/-! What the answers are. -/

def requestIn (payload : List UInt8) : Option Header :=
  (parseHeader payload).filter fun header => header.command = messageHeartbeatRequest

def responseFrame (request : Header) : List UInt8 :=
  payloadFrame (headerBytes (heartbeatResponse request))

def replies (payload : List UInt8) : List (List UInt8) :=
  (requestIn payload).toList.map responseFrame

section Serving

variable (sendBuf : Int)

theorem Client.serve_spec (client : Client) (msg : Buffer) :
    (client.serve sendBuf msg).parser = client.parser ∧
      (client.serve sendBuf msg).running = client.running ∧
      (client.serve sendBuf msg).sent =
        client.sent ++ replies (payloadOf client.parser.memory msg) := by
  rw [serve, readHeader_eq, replies, requestIn]
  cases parseHeader (payloadOf client.parser.memory msg) with
  | none => simp [headerResult]
  | some header =>
      by_cases request : header.command = messageHeartbeatRequest
      · simp [headerResult, request, sendHeader_eq, Option.filter, responseFrame]
      · simp [headerResult, request]

theorem Client.serveAll_spec {fuel : Nat} (client : Client) {state drained : ParserState}
    {frames : List (List UInt8)}
    (read : readMessages fuel state = some (drained, frames))
    (parser : client.parser = (readNext state).1) :
    ∃ served, Client.serveAll sendBuf fuel client (readNext state).2 = some served ∧
      served.parser = drained ∧ served.running = client.running ∧
      served.sent = client.sent ++ (frames.map (List.drop 4)).flatMap replies := by
  induction fuel generalizing client state frames with
  | zero => simp [readMessages] at read
  | succ fuel ih =>
      rw [readMessages] at read
      cases found : (readNext state).2 with
      | none =>
          simp only [found, Option.some.injEq, Prod.mk.injEq] at read
          obtain ⟨rfl, rfl⟩ := read
          exact ⟨client, rfl, parser, rfl, by simp⟩
      | some msg =>
          simp only [found, Option.map_eq_some_iff, Prod.mk.injEq] at read
          obtain ⟨⟨last, others⟩, later, rfl, rfl⟩ := read
          obtain ⟨sameParser, sameRunning, answered⟩ := client.serve_spec sendBuf msg
          obtain ⟨served, done, lastParser, running, sent⟩ := ih
            { client.serve sendBuf msg with parser := (readNext (readNext state).1).1 } later rfl
          refine ⟨served, ?_, lastParser, running.trans sameRunning, ?_⟩
          · rw [Client.serveAll, sameParser, parser]
            exact done
          · rw [sent]
            simp only [answered, parser, List.map_cons, List.flatMap_cons, List.append_assoc,
              payloadOf_eq_drop]

theorem Reading.client_turn {client : Client} {waiting : List (List UInt8)}
    {chunk rest : List UInt8} (reading : Reading parserSize client.parser waiting (chunk ++ rest))
    (frames : ∀ frame ∈ waiting, SoundFrame frame)
    (room : (unread client.parser).length + chunk.length ≤ parserSize) (some : chunk ≠ []) :
    ∃ next given more, client.turn sendBuf (.ofBytes chunk) = .some next ∧
      client.Reads (.ofBytes chunk) given ∧ waiting = given ++ more ∧
      next.running = client.running ∧
      next.sent = client.sent ++ (given.map (List.drop 4)).flatMap replies ∧
      Reading parserSize next.parser more rest := by
  obtain ⟨drained, given, more, read, split, rested⟩ := reading.turn (by decide) frames room
    (Nat.lt_succ_self parserSize)
  obtain ⟨served, done, parser, running, sent⟩ := Client.serveAll_spec sendBuf
    { client with parser := (readNext (addData client.parser (.ofBytes chunk)).1).1 } read rfl
  have notEmpty : (Chunk.ofBytes chunk).length ≠ 0 := by simpa [Chunk.ofBytes] using some
  refine ⟨{ served with parser := compressSpace Memory.copy served.parser }, given, more, ?_, ?_,
    split, running, sent, ?_⟩
  · simp only [Client.turn, if_neg notEmpty, done, Option.map_some]
  · rw [Client.Reads, if_neg notEmpty]
    exact ⟨drained, read⟩
  · change Reading _ (compressSpace _ served.parser) _ _
    rwa [parser]

end Serving

/-! The connection. -/

/-- A message that the parser reads back and that leaves room for a whole `read`. -/
structure Packet where
  payload : List UInt8
  readsBack : ReadsBack payload
  fits : 4 + payload.length ≤ parserSize - receiveSize + 1

def Packet.frame (packet : Packet) : List UInt8 := payloadFrame packet.payload

inductive Action
  | transmit (packet : Packet)
  | hangUp
  | receive (count : Nat)

structure Connection where
  client : Client
  inFlight : List UInt8
  closed : Bool
  transmitted : List Packet

def Connection.start (memory sender : Memory UInt8) (address : Int) : Connection where
  client := {
    parser := createParserState memory address parserSize
    sender := sender
    sent := []
    running := true }
  inFlight := []
  closed := false
  transmitted := []

/-- Where nothing is in flight `poll` waits, unless the server has hung up. -/
def Connection.step (sendBuf : Int) (connection : Connection) : Action → Option Connection
  | .transmit packet =>
      if connection.closed then some connection
      else
        some { connection with
          inFlight := connection.inFlight ++ packet.frame
          transmitted := connection.transmitted ++ [packet] }
  | .hangUp => some { connection with closed := true }
  | .receive count =>
      if connection.client.running then
        if connection.inFlight = [] ∧ connection.closed = false then some connection
        else
          (connection.client.turn sendBuf
            (.ofBytes (connection.inFlight.take (min (count + 1) receiveSize)))).map fun client =>
              { connection with
                client := client
                inFlight := connection.inFlight.drop (min (count + 1) receiveSize) }
      else some connection

def Connection.Reads (connection : Connection) (frames : List (List UInt8)) : Action → Prop
  | .receive count =>
      if connection.client.running then
        if connection.inFlight = [] ∧ connection.closed = false then frames = []
        else
          connection.client.Reads
            (.ofBytes (connection.inFlight.take (min (count + 1) receiveSize))) frames
      else frames = []
  | _ => frames = []

def Connection.run (sendBuf : Int) (connection : Connection) (actions : List Action) :
    Option Connection :=
  actions.foldlM (Connection.step sendBuf) connection

structure Connection.Answers (connection : Connection) (answered waiting : List Packet) :
    Prop where
  split : connection.transmitted = answered ++ waiting
  sent : connection.client.sent = answered.flatMap fun packet => replies packet.payload
  reading : Reading parserSize connection.client.parser (waiting.map Packet.frame)
    connection.inFlight
  stopped : connection.client.running = false → waiting = [] ∧ connection.closed = true

theorem Packet.sound (packet : Packet) :
    SoundFrame packet.frame ∧ packet.frame.length ≤ parserSize - receiveSize + 1 := by
  have fits := packet.fits
  simp only [parserSize, receiveSize] at fits
  refine ⟨packet.readsBack.soundFrame (by omega), ?_⟩
  rw [frame, length_payloadFrame]
  exact packet.fits

theorem Packet.frames_sound {packets : List Packet} :
    ∀ frame ∈ packets.map Packet.frame,
      SoundFrame frame ∧ frame.length ≤ parserSize - receiveSize + 1 := by
  intro frame member
  obtain ⟨packet, _, rfl⟩ := List.mem_map.mp member
  exact packet.sound

theorem flatMap_replies (packets : List Packet) :
    ((packets.map Packet.frame).map (List.drop 4)).flatMap replies =
      packets.flatMap fun packet => replies packet.payload := by
  rw [List.map_map, List.flatMap_map]
  apply List.flatMap_congr
  intro packet _
  simp [Packet.frame]

section Steps

variable (sendBuf : Int) {connection : Connection} {answered waiting : List Packet}

theorem Connection.Answers.turn (answers : connection.Answers answered waiting)
    {chunk rest : List UInt8} (flight : connection.inFlight = chunk ++ rest) (some : chunk ≠ [])
    (size : chunk.length ≤ receiveSize) (running : connection.client.running = true) :
    ∃ client more later, connection.client.turn sendBuf (.ofBytes chunk) = .some client ∧
      connection.client.Reads (.ofBytes chunk) (more.map Packet.frame) ∧
      waiting = more ++ later ∧
      Connection.Answers { connection with client := client, inFlight := rest } (answered ++ more)
        later := by
  have reading := answers.reading
  rw [flight] at reading
  have room : parserSize - receiveSize + 1 - 1 + chunk.length ≤ parserSize := by
    simp only [parserSize, receiveSize] at size ⊢
    omega
  obtain ⟨client, given, left, turned, reads, split, stillRunning, sent, rested⟩ :=
    reading.client_turn sendBuf (fun frame member => (Packet.frames_sound frame member).1)
      (reading.room (fun frame member => (Packet.frames_sound frame member).2) room) some
  obtain ⟨more, later, rfl, rfl, rfl⟩ := List.map_eq_append_iff.mp split
  refine ⟨client, more, later, turned, reads, rfl, ?_, ?_, rested, ?_⟩
  · rw [List.append_assoc]
    exact answers.split
  · change client.sent = _
    rw [sent, flatMap_replies, List.flatMap_append]
    exact congrArg (· ++ _) answers.sent
  · intro stopped
    rw [← stillRunning] at running
    exact absurd (running.symm.trans stopped) (by simp)

theorem Connection.Answers.turn_end (answers : connection.Answers answered waiting)
    (flight : connection.inFlight = []) (closed : connection.closed = true) :
    ∃ client, connection.client.turn sendBuf (.ofBytes []) = some client ∧
      connection.client.Reads (.ofBytes []) [] ∧
      Connection.Answers { connection with client := client } answered waiting := by
  have reading := answers.reading
  rw [flight] at reading
  have nothing : waiting = [] := List.map_eq_nil_iff.mp reading.none_waiting
  subst nothing
  have read : unread connection.client.parser = [] := by simpa using reading.pending
  have same : (addData connection.client.parser (.ofBytes [])).1 = connection.client.parser := by
    simp [addData, Chunk.ofBytes]
  have frames : ∀ frame ∈ ([] : List (List UInt8)), SoundFrame frame := by simp
  obtain ⟨null, kept⟩ := reading.bounds.readNext_null frames reading.pending (read ▸ stuck_nil)
  refine ⟨{ connection.client with running := false }, ?_, ?_, answers.split, answers.sent,
    answers.reading, fun _ => ⟨rfl, closed⟩⟩
  · simp only [Client.turn, same, kept]
    rfl
  · rw [Client.Reads, same]
    exact ⟨null, rfl⟩

theorem Connection.Answers.step (answers : connection.Answers answered waiting)
    (action : Action) :
    ∃ next more later, connection.step sendBuf action = some next ∧
      connection.Reads (more.map Packet.frame) action ∧
      Connection.Answers next (answered ++ more) later := by
  cases action with
  | transmit packet =>
      by_cases closed : connection.closed
      · exact ⟨connection, [], waiting, by simp [Connection.step, closed], rfl,
          by simpa using answers⟩
      · refine ⟨_, [], waiting ++ [packet], if_neg closed, rfl, ?_⟩
        have header : 0 < packet.frame.length := by
          rw [Packet.frame, length_payloadFrame]
          omega
        refine ⟨?_, ?_, ?_, fun stopped => absurd (answers.stopped stopped).2 closed⟩
        · rw [answers.split, List.append_nil, List.append_assoc]
        · rw [List.append_nil]
          exact answers.sent
        · rw [List.map_append]
          exact answers.reading.send header
  | hangUp =>
      refine ⟨_, [], waiting, rfl, rfl, ?_, ?_, answers.reading,
        fun stopped => ⟨(answers.stopped stopped).1, rfl⟩⟩
      · rw [List.append_nil]
        exact answers.split
      · rw [List.append_nil]
        exact answers.sent
  | receive count =>
      rw [Connection.step]
      simp only [Connection.Reads]
      by_cases running : connection.client.running
      · simp only [if_pos running]
        by_cases waits : connection.inFlight = [] ∧ connection.closed = false
        · exact ⟨connection, [], waiting, if_pos waits, by rw [if_pos waits]; rfl,
            by simpa using answers⟩
        · simp only [if_neg waits]
          by_cases flight : connection.inFlight = []
          · have closed : connection.closed = true := by simpa [flight] using waits
            obtain ⟨client, turned, reads, ended⟩ := answers.turn_end sendBuf flight closed
            refine ⟨{ connection with client := client }, [], waiting, ?_, ?_,
              by simpa using ended⟩
            · simp only [flight, List.take_nil, List.drop_nil, turned, Option.map_some]
            · rw [flight, List.take_nil]
              exact reads
          · have nonempty : connection.inFlight.take (min (count + 1) receiveSize) ≠ [] := by
              simp [flight, receiveSize]
            have size : (connection.inFlight.take (min (count + 1) receiveSize)).length ≤
                receiveSize := by
              rw [List.length_take]
              omega
            obtain ⟨client, more, later, turned, reads, rfl, answering⟩ := answers.turn
              sendBuf (List.take_append_drop _ _).symm nonempty size running
            exact ⟨_, more, later, by rw [turned, Option.map_some], reads, answering⟩
      · simp only [if_neg running]
        exact ⟨connection, [], waiting, rfl, rfl, by simpa using answers⟩

theorem Connection.Answers.run (answers : connection.Answers answered waiting)
    (actions : List Action) :
    ∃ final more later, connection.run sendBuf actions = some final ∧
      Connection.Answers final (answered ++ more) later := by
  induction actions generalizing connection answered waiting with
  | nil => exact ⟨connection, [], waiting, rfl, by simpa using answers⟩
  | cons action rest ih =>
      obtain ⟨next, more, later, stepped, _, answering⟩ := answers.step sendBuf action
      obtain ⟨final, others, left, ran, ended⟩ := ih answering
      refine ⟨final, more ++ others, left, ?_, by simpa using ended⟩
      rw [Connection.run, List.foldlM_cons, stepped]
      exact ran

theorem Connection.start_answers (memory sender : Memory UInt8) (address : Int) :
    (Connection.start memory sender address).Answers [] [] := by
  have idle := Session.start_idle ⟨memory, address, parserSize, by decide, []⟩
  refine ⟨rfl, rfl, ⟨idle.bounds, idle.compact, ?_, by simp⟩, by simp [Connection.start]⟩
  exact congrArg (· ++ []) idle.nothing

theorem Connection.Answers.nothing_waiting (answers : connection.Answers answered waiting)
    (quiet : connection.inFlight = [] ∨ connection.client.running = false) : waiting = [] := by
  rcases quiet with flight | stopped
  · have reading := answers.reading
    rw [flight] at reading
    exact List.map_eq_nil_iff.mp reading.none_waiting
  · exact (answers.stopped stopped).1

/-- In any order of sending and reading, the client has answered the heartbeat requests of
the packets it has read, once each and in order, and what it has not read is on its way. -/
theorem heartbeats_answered (sendBuf : Int) (memory sender : Memory UInt8) (address : Int)
    (actions : List Action) :
    ∃ final answered waiting,
      (Connection.start memory sender address).run sendBuf actions = some final ∧
      final.transmitted = answered ++ waiting ∧
      final.client.sent = (answered.flatMap fun packet => replies packet.payload) ∧
      unread final.client.parser ++ final.inFlight = (waiting.map Packet.frame).flatten ∧
      (final.inFlight = [] ∨ final.client.running = false → waiting = []) := by
  obtain ⟨final, answered, waiting, ran, answers⟩ :=
    (Connection.start_answers memory sender address).run sendBuf actions
  exact ⟨final, answered, waiting, ran, answers.split, answers.sent, answers.reading.pending,
    answers.nothing_waiting⟩

/-! Turns of the client alone. -/

theorem Connection.step_receive {next : Connection} {count : Nat}
    (stepped : connection.step sendBuf (.receive count) = some next) :
    next.transmitted = connection.transmitted ∧
      (next.client.running = true → connection.client.running = true ∧
        next.inFlight.length ≤ connection.inFlight.length - 1) := by
  rw [Connection.step] at stepped
  by_cases running : connection.client.running
  · rw [if_pos running] at stepped
    by_cases waits : connection.inFlight = [] ∧ connection.closed = false
    · rw [if_pos waits] at stepped
      obtain rfl := Option.some.inj stepped
      exact ⟨rfl, fun _ => ⟨running, by simp [waits.1]⟩⟩
    · rw [if_neg waits, Option.map_eq_some_iff] at stepped
      obtain ⟨client, _, rfl⟩ := stepped
      refine ⟨rfl, fun _ => ⟨running, ?_⟩⟩
      simp only [List.length_drop, receiveSize]
      omega
  · rw [if_neg running] at stepped
    obtain rfl := Option.some.inj stepped
    exact ⟨rfl, fun runs => absurd runs running⟩

theorem Connection.Answers.run_receive (answers : connection.Answers answered waiting)
    (counts : List Nat)
    (enough : connection.client.running = true →
      connection.inFlight.length ≤ counts.length) :
    ∃ final, connection.run sendBuf (counts.map .receive) = some final ∧
      final.client.sent = connection.transmitted.flatMap fun packet => replies packet.payload := by
  induction counts generalizing connection answered waiting with
  | nil =>
      have quiet : connection.inFlight = [] ∨ connection.client.running = false := by
        by_cases running : connection.client.running = true
        · exact .inl (List.eq_nil_of_length_eq_zero (Nat.le_zero.mp (enough running)))
        · exact .inr (Bool.not_eq_true _ ▸ running)
      have none := answers.nothing_waiting quiet
      refine ⟨connection, rfl, ?_⟩
      rw [answers.sent, answers.split, none, List.append_nil]
  | cons count rest ih =>
      obtain ⟨next, more, later, stepped, _, answering⟩ :=
        answers.step sendBuf (.receive count)
      obtain ⟨same, shorter⟩ := Connection.step_receive sendBuf stepped
      obtain ⟨final, ran, sent⟩ := ih answering fun runs => by
        obtain ⟨ran, drained⟩ := shorter runs
        have bound := enough ran
        rw [List.length_cons] at bound
        omega
      refine ⟨final, ?_, by rw [sent, same]⟩
      rw [Connection.run, List.map_cons, List.foldlM_cons, stepped]
      exact ran

/-- After any run, as many turns as there are bytes in flight leave no request unanswered. -/
theorem heartbeats_answered_at_last (sendBuf : Int) (memory sender : Memory UInt8) (address : Int)
    (actions : List Action) :
    ∃ middle, (Connection.start memory sender address).run sendBuf actions = some middle ∧
      ∀ counts : List Nat, middle.inFlight.length ≤ counts.length →
        ∃ final, (Connection.start memory sender address).run sendBuf
            (actions ++ counts.map .receive) = some final ∧
          final.client.sent =
            middle.transmitted.flatMap fun packet => replies packet.payload := by
  obtain ⟨middle, answered, waiting, ran, answers⟩ :=
    (Connection.start_answers memory sender address).run sendBuf actions
  refine ⟨middle, ran, fun counts enough => ?_⟩
  obtain ⟨final, ended, sent⟩ := answers.run_receive sendBuf counts fun _ => enough
  refine ⟨final, ?_, sent⟩
  rw [Connection.run] at ran ⊢
  rw [List.foldlM_append, ran]
  exact ended

end Steps

end LibEsClient
