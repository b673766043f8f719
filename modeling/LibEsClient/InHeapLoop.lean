import LibEsClient.Connection
import LibEsClient.InHeapCalls

/-! The loop of `foo_main.c` with what it allocates. Of that it frees the line of text
about each header, and nothing else. -/

namespace LibEsClient

namespace InHeap

open FlatMemory Heaps Assertion

section Loop

variable (allocator : Allocator Nat Block) (sendBuf : Int)

def Block.uuid? : Block → Option Uuid
  | uuid value => some value
  | _ => none

/-- What there is behind a pointer to a header without credentials. -/
def headerOf (header : Pointer) : Run LibEsClient.Header := do
  let self ← loadAs Block.header? header
  let id ← loadAs Block.uuid? self.correlationId
  return LibEsClient.createHeader self.command self.flags id none none

def getStringForHeader (header : Pointer) : Run Pointer := do
  let ret ← malloc allocator (.bytes 1024)
  let _ ← headerOf header
  return ret

/-- With the struct that is returned; the parser itself stays by value. -/
def readNext (state : LibEsClient.ParserState) : Run (LibEsClient.ParserState × Option Buffer) :=
  match (LibEsClient.readNext state).2 with
  | none => return LibEsClient.readNext state
  | some msg => do
      let _ ← malloc allocator (.buffer msg)
      return LibEsClient.readNext state

def serve (client : LibEsClient.Client) (msg : Buffer) : Run LibEsClient.Client := do
  let found ← readHeader allocator client.parser.memory msg none
  if found.1 = 0 then return client
  else
    let info ← getStringForHeader allocator found.2
    free info
    let header ← headerOf found.2
    if header.command = messageHeartbeatRequest then
      let resp ← createHeader allocator messageHeartbeatResponse 0 header.correlationId none none
      let _ ← getStringForHeader allocator resp
      let answer ← headerOf resp
      return { client with
        sent := client.sent ++ [sendHeader client.sender sendBuf answer]
        sender := memoryAfterSend sendBuf client.sender answer }
    else return client

def serveAll : Nat → LibEsClient.Client → Run (Option LibEsClient.Client)
  | 0, _ => return none
  | fuel + 1, client => do
      let next ← readNext allocator client.parser
      match next.2 with
      | none => return some { client with parser := next.1 }
      | some msg =>
          let served ← serve allocator sendBuf { client with parser := next.1 } msg
          serveAll fuel served

def turn (client : LibEsClient.Client) (data : Chunk) : Run (Option LibEsClient.Client) :=
  if data.length = 0 then do
    let next ← readNext allocator (addData client.parser data).1
    return some { client with parser := next.1, running := false }
  else do
    let served ← serveAll allocator sendBuf (parserSize + 1)
      { client with parser := (addData client.parser data).1 }
    return served.map fun served =>
      { served with parser := compressSpace Memory.copy served.parser }

end Loop

/-- The blocks that a message leaves: its `struct Buffer`, what `read_header` makes of it,
and for a heartbeat request the answer and the line of text about that. -/
def kept (payload : List UInt8) : Nat :=
  match parseHeader payload with
  | none => 1
  | some header => if header.command = messageHeartbeatRequest then 6 else 3

/-! What one message leaves. -/

section Messages

variable (allocator : Allocator Nat Block) (sendBuf : Int)

end Messages

/-! What the messages of a turn leave, and those of a run. -/

section Turns

variable (allocator : Allocator Nat Block) (sendBuf : Int)

end Turns

end InHeap

end LibEsClient
