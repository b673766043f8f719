import LibEsClient.FlatMemory
import LibEsClient.Framing

/-! Executable model of the frame parser in `es_msg_parser.c`, for a little-endian host with
a signed plain `char`. Out-of-range conversions and, without optimization as in the makefile,
signed overflow of an `int` both wrap. Pointers are integer addresses into one flat memory,
which the parser state carries along. -/

namespace LibEsClient

open FlatMemory Machines

def wrapInt (value : Int) : Int := value.bmod (2 ^ 32)

def sizeT (value : Int) : Nat := (value % 2 ^ 64).toNat

def promoteChar (byte : UInt8) : BitVec 32 := byte.toBitVec.signExtend 32

def ntohl (word : BitVec 32) : BitVec 32 :=
  word.extractLsb' 0 8 ++ word.extractLsb' 8 8 ++ word.extractLsb' 16 8 ++ word.extractLsb' 24 8

def frameLength (b0 b1 b2 b3 : UInt8) : Int :=
  (ntohl (promoteChar b0 <<< 24 ||| promoteChar b1 <<< 16 ||| promoteChar b2 <<< 8 |||
    promoteChar b3)).toInt

structure ParserState where
  parserRead : Int
  bufferEnd : Int
  bufferStart : Int
  bufferWrite : Int
  memory : Memory UInt8

structure Buffer where
  length : Int
  location : Int
  deriving DecidableEq, Repr

/-- The `struct Buffer` given to `add_data`. Its location is the caller's, so it
comes with the bytes found there, as many as a positive length promises. -/
structure Chunk where
  length : Int
  bytes : List UInt8
  holds : bytes.length = length.toNat
  deriving DecidableEq, Repr

def Chunk.ofBytes (bytes : List UInt8) : Chunk where
  length := bytes.length
  bytes := bytes
  holds := by simp

@[simp] theorem Chunk.bytes_ofBytes (bytes : List UInt8) : (ofBytes bytes).bytes = bytes := rfl

def Chunk.failed (count : Nat) : Chunk where
  length := -(count : Int)
  bytes := []
  holds := by simp

def createParserState (memory : Memory UInt8) (address bufferSize : Int) : ParserState where
  bufferStart := address
  bufferEnd := address + bufferSize
  parserRead := address
  bufferWrite := address
  memory := memory

def lengthAt (memory : Memory UInt8) (i : Int) : Int :=
  frameLength (memory i) (memory (i + 1)) (memory (i + 2)) (memory (i + 3))

def readNext (state : ParserState) : ParserState × Option Buffer :=
  if state.bufferWrite - state.parserRead < 4 then (state, none)
  else
    let length := lengthAt state.memory state.parserRead
    if state.bufferWrite - state.parserRead < wrapInt (length + 4) then (state, none)
    else
      ({ state with parserRead := state.parserRead + length + 4 },
        some { length := length, location := state.parserRead + 4 })

def addData (state : ParserState) (data : Chunk) : ParserState × Int :=
  if data.length > 0 then
    if state.bufferWrite + data.length > state.bufferEnd then (state, -1)
    else
      ({ state with
          memory := state.memory.write state.bufferWrite data.bytes
          bufferWrite := state.bufferWrite + data.length }, 0)
  else ({ state with bufferWrite := state.bufferWrite + data.length }, 0)

/-- `memcpy` is a parameter: the C library leaves its result open where source
and destination overlap, and here they can. -/
def compressSpace (memcpy : Memory UInt8 → Int → Int → Nat → Memory UInt8)
    (state : ParserState) : ParserState :=
  if state.parserRead = state.bufferStart then state
  else
    let length := wrapInt (state.bufferWrite - state.parserRead)
    { state with
      memory :=
        if state.bufferWrite > state.parserRead then
          memcpy state.memory state.bufferStart state.parserRead (sizeT length)
        else state.memory
      bufferWrite := state.bufferStart + length
      parserRead := state.bufferStart }

inductive Call
  | addData (data : Chunk)
  | readNext
  | compressSpace
  deriving DecidableEq, Repr

inductive Result
  | added (code : Int)
  | read (buffer : Option Buffer)
  | compressed
  deriving DecidableEq, Repr

def parser (memcpy : Memory UInt8 → Int → Int → Nat → Memory UInt8) :
    Machine ParserState Call Result where
  step state
    | .addData data => ((addData state data).1, .added (addData state data).2)
    | .readNext => ((readNext state).1, .read (readNext state).2)
    | .compressSpace => (compressSpace memcpy state, .compressed)

abbrev ParserStep := Transition ParserState Call Result

/-- A fresh parser and the calls made of it. `memory` and `address` are what
`malloc` happened to give; the capacity is a non-negative `int`. -/
structure Session where
  memory : Memory UInt8
  address : Int
  capacity : Nat
  fits : capacity < 2 ^ 31
  calls : List Call

namespace Session

def start (session : Session) : ParserState :=
  createParserState session.memory session.address session.capacity

def history (session : Session) (memcpy : Memory UInt8 → Int → Int → Nat → Memory UInt8) :
    List ParserStep :=
  (parser memcpy).run session.start session.calls

def final (session : Session) (memcpy : Memory UInt8 → Int → Int → Nat → Memory UInt8) :
    ParserState :=
  (parser memcpy).final session.start session.calls

end Session

/-! What a caller sees of a run: the bytes `add_data` answered with 0, and the
bytes of each returned buffer, taken when it was returned. -/

def Call.NonNegative : Call → Prop
  | .addData data => 0 ≤ data.length
  | .readNext => True
  | .compressSpace => True

instance : DecidablePred Call.NonNegative
  | .addData data => inferInstanceAs (Decidable (0 ≤ data.length))
  | .readNext => inferInstanceAs (Decidable True)
  | .compressSpace => inferInstanceAs (Decidable True)

def acceptedBytes (step : ParserStep) : List UInt8 :=
  match step.input, step.output with
  | .addData data, .added code => if code = 0 then data.bytes else []
  | _, _ => []

def returnedBuffer (step : ParserStep) : Option Buffer :=
  match step.output with
  | .read buffer => buffer
  | _ => none

def payloadOf (memory : Memory UInt8) (buffer : Buffer) : List UInt8 :=
  memory.read buffer.location buffer.length.toNat

def frameOf (memory : Memory UInt8) (buffer : Buffer) : List UInt8 :=
  memory.read (buffer.location - 4) (4 + buffer.length.toNat)

def Session.NonNegative (session : Session) : Prop :=
  ∀ call ∈ session.calls, call.NonNegative

instance (session : Session) : Decidable session.NonNegative :=
  inferInstanceAs (Decidable (∀ call ∈ session.calls, call.NonNegative))

def accepted (history : List ParserStep) : List UInt8 := history.flatMap acceptedBytes

def deliveredFrames (history : List ParserStep) : List (List UInt8) :=
  history.filterMap fun step => (returnedBuffer step).map (frameOf step.after.memory)

def deliveredPayloads (history : List ParserStep) : List (List UInt8) :=
  history.filterMap fun step => (returnedBuffer step).map (payloadOf step.after.memory)

@[simp] theorem accepted_append (earlier later : List ParserStep) :
    accepted (earlier ++ later) = accepted earlier ++ accepted later :=
  List.flatMap_append

@[simp] theorem deliveredPayloads_append (earlier later : List ParserStep) :
    deliveredPayloads (earlier ++ later) = deliveredPayloads earlier ++ deliveredPayloads later :=
  List.filterMap_append

def unread (state : ParserState) : List UInt8 :=
  state.memory.read state.parserRead (state.bufferWrite - state.parserRead).toNat

def LooksAtPrefix (step : ParserStep) : Prop :=
  step.input = .readNext ∧ 4 ≤ step.before.bufferWrite - step.before.parserRead

def PrefixWithin (step : ParserStep) : Prop :=
  LooksAtPrefix step →
    0 ≤ lengthAt step.before.memory step.before.parserRead ∧
      lengthAt step.before.memory step.before.parserRead ≤ 2 ^ 31 - 5

end LibEsClient
