import LibEsClient.MsgParserStream
import LibEsClient.WtfUuid
import LibEsClient.CString

/-! Packet headers: `read_header` and `write_header` of `es_msg_parser.c`, the way
`foo_main.c` sends one, and headers over the whole wire path. -/

namespace LibEsClient

open FlatMemory Machines

structure Header where
  command : UInt8
  flags : UInt8
  correlationId : Uuid
  username : Option CString
  password : Option CString
  deriving DecidableEq

def createHeader (command flags : UInt8) (correlationId : Uuid)
    (username password : Option CString) : Header where
  command := command
  flags := flags
  correlationId := correlationId
  username := username
  password := password

def commandOffset : Nat := 0
def flagsOffset : Nat := commandOffset + 1
def correlationOffset : Nat := flagsOffset + 1
def authOffset : Nat := correlationOffset + 16
def mandatorySize : Nat := authOffset

def readHeader (memory : Memory UInt8) (buffer : Buffer) (header : Option Header) :
    Int × Option Header :=
  if buffer.length < mandatorySize then (0, header)
  else
    (1, some (createHeader (memory (buffer.location + commandOffset))
      (memory (buffer.location + flagsOffset))
      (getUuidFromWtf memory (buffer.location + correlationOffset)) none none))

def writeHeader (header : Header) (memory : Memory UInt8) (buffer : Int) : Memory UInt8 × Int :=
  (writeUuidToWtf header.correlationId
    ((memory.write (buffer + commandOffset) [header.command]).write (buffer + flagsOffset)
      [header.flags]) (buffer + correlationOffset),
    authOffset)

/-- The bytes given to `send`: the header behind its length, stored as an `int`. -/
def sendHeader (memory : Memory UInt8) (sendBuf : Int) (header : Header) : List UInt8 :=
  let written := writeHeader header memory (sendBuf + 4)
  (written.1.write sendBuf (lengthPrefix written.2.toNat)).read sendBuf (written.2.toNat + 4)

/-! The same on byte lists. -/

def headerBytes (header : Header) : List UInt8 :=
  header.command :: header.flags ::
    (List.finRange 16).map fun position => header.correlationId (netOrder position)

def parseHeader : List UInt8 → Option Header
  | command :: flags :: rest =>
      if rest.length < 16 then none
      else some (createHeader command flags (fun i => rest.getD (netOrder i) 0) none none)
  | _ => none

def headerResult (header : Option Header) : Option Header → Int × Option Header
  | none => (0, header)
  | some found => (1, some found)

@[simp] theorem length_headerBytes (header : Header) : (headerBytes header).length = 18 := by
  simp [headerBytes]

theorem writeHeader_memory (header : Header) (memory : Memory UInt8) (buffer : Int) :
    (writeHeader header memory buffer).1 =
      writeUuidToWtf header.correlationId
        ((memory.write buffer [header.command]).write (buffer + 1) [header.flags])
        (buffer + 2) := by
  simp [writeHeader, correlationOffset, flagsOffset, commandOffset]

@[simp] theorem writeHeader_length (header : Header) (memory : Memory UInt8) (buffer : Int) :
    (writeHeader header memory buffer).2 = 18 := rfl

theorem read_uuid (memory : Memory UInt8) (wtfData : Int) :
    memory.read wtfData 16 =
      (List.finRange 16).map fun position => getUuidFromWtf memory wtfData (netOrder position) := by
  apply List.ext_getElem
  · simp
  · intro index _ _
    simp [getUuidFromWtf, Memory.getElem_read]

theorem read_header_cells (memory : Memory UInt8) (location : Int) :
    memory.read location 18 =
      memory location :: memory (location + 1) :: memory.read (location + 2) 16 := by
  have next : location + 1 + 1 = location + 2 := by omega
  rw [Memory.read_succ, Memory.read_succ, next]

theorem read_writeHeader (header : Header) (memory : Memory UInt8) (buffer : Int) :
    (writeHeader header memory buffer).1.read buffer 18 = headerBytes header := by
  have command : (writeHeader header memory buffer).1 buffer = header.command := by
    rw [writeHeader_memory, writeUuidToWtf_outside _ _ _ _ (by omega),
      Memory.write_outside _ _ _ _ (by omega), Memory.write_head]
  have flags : (writeHeader header memory buffer).1 (buffer + 1) = header.flags := by
    rw [writeHeader_memory, writeUuidToWtf_outside _ _ _ _ (by omega), Memory.write_head]
  have correlation : (writeHeader header memory buffer).1.read (buffer + 2) 16 =
      (List.finRange 16).map fun position => header.correlationId (netOrder position) := by
    rw [writeHeader_memory, read_uuid, getUuidFromWtf_writeUuidToWtf]
  rw [read_header_cells, command, flags, correlation, headerBytes]

theorem writeHeader_outside (header : Header) (memory : Memory UInt8) (buffer target : Int)
    (outside : target < buffer ∨ buffer + 18 ≤ target) :
    (writeHeader header memory buffer).1 target = memory target := by
  rw [writeHeader_memory, writeUuidToWtf_outside _ _ _ _ (by omega),
    Memory.write_outside _ _ _ _ (by simp; omega), Memory.write_outside _ _ _ _ (by simp; omega)]

theorem sendHeader_eq (memory : Memory UInt8) (sendBuf : Int) (header : Header) :
    sendHeader memory sendBuf header = payloadFrame (headerBytes header) := by
  simp only [sendHeader, writeHeader_length]
  change Memory.read _ _ (4 + 18) = _
  rw [Memory.read_add, payloadFrame, length_headerBytes]
  congr 1
  · exact Memory.read_write_same _ sendBuf (lengthPrefix 18)
  · rw [Memory.read_write_disjoint _ _ _ _ _ (Or.inr (by simp))]
    exact read_writeHeader header memory (sendBuf + 4)

theorem readHeader_short (memory : Memory UInt8) {buffer : Buffer} (header : Option Header)
    (short : ¬18 ≤ buffer.length) : readHeader memory buffer header = (0, header) := by
  have few : buffer.length < mandatorySize := by
    change buffer.length < 18
    omega
  rw [readHeader, if_pos few]

theorem readHeader_enough (memory : Memory UInt8) {buffer : Buffer} (header : Option Header)
    (enough : 18 ≤ buffer.length) :
    readHeader memory buffer header =
      (1, some (createHeader (memory buffer.location) (memory (buffer.location + 1))
        (getUuidFromWtf memory (buffer.location + 2)) none none)) := by
  have notShort : ¬buffer.length < mandatorySize := by
    change ¬buffer.length < 18
    omega
  rw [readHeader, if_neg notShort]
  simp [commandOffset, flagsOffset, correlationOffset]

theorem parseHeader_short {bytes : List UInt8} (few : bytes.length < 18) :
    parseHeader bytes = none := by
  rcases bytes with _ | ⟨_, _ | ⟨_, rest⟩⟩
  · rfl
  · rfl
  · simp only [List.length_cons] at few
    rw [parseHeader, if_pos (by omega)]

theorem parseHeader_read (memory : Memory UInt8) (location : Int) {length : Nat}
    (enough : 18 ≤ length) :
    parseHeader (memory.read location length) =
      some (createHeader (memory location) (memory (location + 1))
        (getUuidFromWtf memory (location + 2)) none none) := by
  obtain ⟨rest, rfl⟩ : ∃ rest, length = rest + 1 + 1 := ⟨length - 2, by omega⟩
  have next : location + 1 + 1 = location + 2 := by omega
  have uuid : ¬(memory.read (location + 2) rest).length < 16 := by
    rw [Memory.length_read]
    omega
  rw [Memory.read_succ, Memory.read_succ, next, parseHeader, if_neg uuid]
  congr
  funext i
  have inside : (netOrder i : Nat) < (memory.read (location + 2) rest).length := by
    have bound := (netOrder i).isLt
    omega
  rw [List.getD_eq_getElem _ _ inside, Memory.getElem_read, getUuidFromWtf]

theorem readHeader_eq (memory : Memory UInt8) (buffer : Buffer) (header : Option Header) :
    readHeader memory buffer header =
      headerResult header (parseHeader (payloadOf memory buffer)) := by
  by_cases enough : 18 ≤ buffer.length
  · rw [readHeader_enough memory header enough, payloadOf, parseHeader_read _ _ (by omega)]
    rfl
  · have few : (payloadOf memory buffer).length < 18 := by
      simp only [payloadOf, Memory.length_read]
      omega
    rw [readHeader_short memory header enough, parseHeader_short few]
    rfl

theorem parseHeader_headerBytes (header : Header) :
    parseHeader (headerBytes header) =
      some { header with username := none, password := none } := by
  have rest : ((List.finRange 16).map fun position =>
      header.correlationId (netOrder position)).length = 16 := by simp
  rw [headerBytes, parseHeader, if_neg (by omega)]
  congr
  funext i
  simp

/-! Headers over the whole wire path. -/

/-- The chunks `add_data` returned 0 for are byte strings and make up the stream. -/
structure AcceptsStream (history : List ParserStep) (stream : List UInt8) : Prop where
  chunks : ∀ step ∈ history, step.output = .added 0 → step.input.NonNegative
  bytes : accepted history = stream

theorem AcceptsStream.nonNegative {session : Session}
    {memcpy : Memory UInt8 → Int → Int → Nat → Memory UInt8} {stream : List UInt8}
    (accepts : AcceptsStream (session.history memcpy) stream) : session.NonNegative := by
  intro call member
  obtain ⟨earlier, later, split⟩ := List.append_of_mem member
  have taken := accepts.chunks _ (((parser memcpy).mem_run_iff _ _ _).mpr
    ⟨earlier, call, later, split, rfl⟩)
  cases call with
  | readNext => trivial
  | compressSpace => trivial
  | addData data =>
      rcases addData_cases ((parser memcpy).final session.start earlier) data with
        ⟨_, positive, _⟩ | ⟨stored, _⟩
      · exact Int.le_of_lt positive
      · exact taken (congrArg Result.added (congrArg Prod.snd stored))

def readHeaders (history : List ParserStep) (header : Option Header) : List (Int × Option Header) :=
  history.filterMap fun step =>
    (returnedBuffer step).map fun buffer => readHeader step.after.memory buffer header

theorem readHeaders_eq (history : List ParserStep) (header : Option Header) :
    readHeaders history header =
      (deliveredPayloads history).map fun payload => headerResult header (parseHeader payload) := by
  simp only [readHeaders, deliveredPayloads, List.map_filterMap, Option.map_map, readHeader_eq]
  rfl

/-- Headers without credentials come back from the whole wire path, in order. -/
theorem header_stream_roundTrip (headers : List Header)
    (noCredentials : ∀ header ∈ headers, header.username = none ∧ header.password = none)
    (sender : Memory UInt8) (sendBuf : Int) (session : Session)
    (whole : AcceptsStream (session.history Memory.copy)
      (headers.flatMap (sendHeader sender sendBuf)))
    (drained : Drained (session.history Memory.copy)) (held : Option Header) :
    readHeaders (session.history Memory.copy) held =
      headers.map fun header => (1, some header) := by
  have readsBack : ∀ payload ∈ headers.map headerBytes, ReadsBack payload := by
    intro payload member
    obtain ⟨header, _, rfl⟩ := List.mem_map.mp member
    rw [ReadsBack, length_headerBytes]
    rfl
  have sound : ∀ frame ∈ (headers.map headerBytes).map payloadFrame, SoundFrame frame := by
    intro frame member
    obtain ⟨payload, isPayload, rfl⟩ := List.mem_map.mp member
    obtain ⟨header, _, rfl⟩ := List.mem_map.mp isPayload
    exact (readsBack _ isPayload).soundFrame (by simp)
  have stream : headers.flatMap (sendHeader sender sendBuf) =
      ((headers.map headerBytes).map payloadFrame).flatten := by
    have sent : sendHeader sender sendBuf = fun header => payloadFrame (headerBytes header) :=
      funext (sendHeader_eq sender sendBuf)
    rw [← payloadStream_eq, payloadStream, List.flatMap_map, sent]
  have delivered := (session.delivered_of_drained whole.nonNegative sound
    (whole.bytes.trans stream) drained).1
  rw [readHeaders_eq, deliveredPayloads_eq, delivered, map_drop_payloadFrame, List.map_map]
  apply List.map_congr_left
  rintro ⟨command, flags, correlationId, username, password⟩ member
  obtain ⟨rfl, rfl⟩ : username = none ∧ password = none := noCredentials _ member
  rw [Function.comp_apply, parseHeader_headerBytes]
  rfl

def twoHeaders : List Header :=
  [createHeader 1 0 (fun i => 0x80 + UInt8.ofNat i) none none,
    createHeader 0x82 3 (fun i => UInt8.ofNat i) none none]

def twoHeadersStream : List UInt8 := twoHeaders.flatMap (sendHeader (fun _ => 0) 0)

/-- The first chunk ends within the length in front of the second header, which has room
only after the first was compacted away. -/
def twoHeaderCalls : List Call :=
  [.addData (.ofBytes (twoHeadersStream.take 24)), .readNext, .readNext, .compressSpace,
    .addData (.ofBytes (twoHeadersStream.drop 24)), .readNext]

theorem header_stream_roundTrip_heartbeat :
    readHeaders
        (Session.history ⟨fun _ => 0, 0, 30, by decide, twoHeaderCalls ++ [.readNext]⟩ Memory.copy)
        none = twoHeaders.map fun header => (1, some header) := by
  apply header_stream_roundTrip twoHeaders (by decide) (fun _ => 0) 0
  · exact ⟨by decide, by decide⟩
  · exact drained_of_null _ twoHeaderCalls (by decide)

end LibEsClient
