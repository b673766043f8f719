import LibEsClient.HeaderWire

/-! What of a header is on the wire. Its 18 bytes are the command, the flags and the
correlation id as .NET stores a GUID; the credentials that `create_header` takes are
neither written by `write_header` nor read by `read_header`. -/

namespace LibEsClient

open FlatMemory ByteOrder

theorem headerBytes_read (memory : Memory UInt8) (location : Int) :
    headerBytes (createHeader (memory location) (memory (location + 1))
      (getUuidFromWtf memory (location + 2)) none none) = memory.read location 18 := by
  rw [read_header_cells, read_uuid]
  rfl

structure LaidOut (memory : Memory UInt8) (frame : Buffer) (header : Header) : Prop where
  command : header.command = memory frame.location
  flags : header.flags = memory (frame.location + 1)
  correlationId : List.ofFn header.correlationId =
    (Guid.ofNet fun offset => memory (frame.location + 2 + offset)).toRfc4122

structure WritesBack (memory : Memory UInt8) (frame : Buffer) (header : Header) : Prop where
  length : ∀ output address, (writeHeader header output address).2 = 18
  bytes : ∀ output address,
    (writeHeader header output address).1.read address 18 = memory.read frame.location 18
  outside : ∀ output address target, target < address ∨ address + 18 ≤ target →
    (writeHeader header output address).1 target = output target

/-- How `read_header` answers for a frame, with `held` in its out parameter before. -/
structure ReadsLayout (memory : Memory UInt8) (frame : Buffer) (held : Option Header) : Prop where
  accepts : (readHeader memory frame held).1 = 1 ↔ 18 ≤ frame.length
  rejects : ¬18 ≤ frame.length → readHeader memory frame held = (0, held)
  decodes : 18 ≤ frame.length → ∃ header, readHeader memory frame held = (1, some header) ∧
    LaidOut memory frame header ∧ WritesBack memory frame header
  firstBytes : 18 ≤ frame.length →
    ∀ (other : Memory UInt8) (otherFrame : Buffer) (otherHeld : Option Header),
      18 ≤ otherFrame.length →
        other.read otherFrame.location 18 = memory.read frame.location 18 →
          readHeader other otherFrame otherHeld = readHeader memory frame held

theorem readHeader_layout (memory : Memory UInt8) (frame : Buffer) (held : Option Header) :
    ReadsLayout memory frame held := by
  constructor
  · by_cases enough : 18 ≤ frame.length
    · simp [readHeader_enough memory held enough, enough]
    · simp [readHeader_short memory held enough, enough]
  · exact readHeader_short memory held
  · intro enough
    refine ⟨_, readHeader_enough memory held enough, ?_, ?_⟩
    · exact ⟨rfl, rfl, getUuidFromWtf_guid memory (frame.location + 2)⟩
    · refine ⟨fun _ _ => rfl, ?_, writeHeader_outside _⟩
      intro output address
      rw [read_writeHeader, headerBytes_read]
  · intro enough other otherFrame otherHeld otherEnough same
    rw [readHeader_enough other otherHeld otherEnough, readHeader_enough memory held enough]
    rw [read_header_cells, read_header_cells] at same
    simp only [List.cons.injEq] at same
    obtain ⟨command, flags, rest⟩ := same
    rw [command, flags, getUuidFromWtf_congr rest]

/-! What the encoding keeps of a header. -/

def encodedHeader (header : Header) (memory : Memory UInt8) (address : Int) : List UInt8 :=
  (writeHeader header memory address).1.read address (writeHeader header memory address).2.toNat

def HeaderRoundTrips (header : Header) : Prop :=
  ∀ (memory : Memory UInt8) (address : Int) (held : Option Header),
    readHeader (writeHeader header memory address).1
        { length := (writeHeader header memory address).2, location := address } held =
      (1, some header)

def TellsApart (header other : Header) : Prop :=
  header ≠ other → ∀ (memory otherMemory : Memory UInt8) (address otherAddress : Int),
    encodedHeader header memory address ≠ encodedHeader other otherMemory otherAddress

structure DifferInCredentials (header other : Header) : Prop where
  command : header.command = other.command
  flags : header.flags = other.flags
  correlationId : header.correlationId = other.correlationId
  credentials : header.username ≠ other.username ∨ header.password ≠ other.password

theorem readHeader_writeHeader (header : Header) (memory : Memory UInt8) (address : Int)
    (held : Option Header) :
    readHeader (writeHeader header memory address).1
        { length := (writeHeader header memory address).2, location := address } held =
      (1, some { header with username := none, password := none }) := by
  have payload : payloadOf (writeHeader header memory address).1
      { length := (writeHeader header memory address).2, location := address } =
        headerBytes header := read_writeHeader header memory address
  rw [readHeader_eq, payload, parseHeader_headerBytes]
  rfl

theorem headerBytes_eq_iff (header other : Header) :
    headerBytes header = headerBytes other ↔
      header.command = other.command ∧ header.flags = other.flags ∧
        header.correlationId = other.correlationId := by
  constructor
  · intro same
    have parsed := congrArg parseHeader same
    rw [parseHeader_headerBytes, parseHeader_headerBytes] at parsed
    simpa using parsed
  · rintro ⟨command, flags, correlationId⟩
    rw [headerBytes, command, flags, correlationId]
    rfl

theorem headerRoundTrips_iff (header : Header) :
    HeaderRoundTrips header ↔ header.username = none ∧ header.password = none := by
  obtain ⟨command, flags, correlationId, username, password⟩ := header
  simp only [HeaderRoundTrips, readHeader_writeHeader]
  simp [eq_comm]

theorem tellsApart_iff (header other : Header) :
    TellsApart header other ↔ ¬DifferInCredentials header other := by
  have encoded (header : Header) (memory : Memory UInt8) (address : Int) :
      encodedHeader header memory address = headerBytes header :=
    read_writeHeader header memory address
  simp only [TellsApart, encoded, ne_eq, headerBytes_eq_iff]
  constructor
  · rintro apart ⟨command, flags, correlationId, credentials⟩
    refine apart ?_ (fun _ => 0) (fun _ => 0) 0 0 ⟨command, flags, correlationId⟩
    rintro rfl
    simp at credentials
  · rintro unlike different _ _ _ _ ⟨command, flags, correlationId⟩
    refine unlike ⟨command, flags, correlationId, ?_⟩
    by_contra same
    obtain ⟨command', flags', correlationId', username', password'⟩ := other
    simp only [ne_eq, not_or, not_not] at same
    obtain ⟨rfl, rfl⟩ := same
    subst command flags correlationId
    exact different rfl

/-- A header comes back from its encoding exactly when it has no credentials, and two
headers have different encodings exactly when they do not differ in credentials alone. -/
theorem header_encoding_iff (command flags : UInt8) (correlationId : Uuid)
    (username password : Option CString) :
    (HeaderRoundTrips (createHeader command flags correlationId username password) ↔
      username = none ∧ password = none) ∧
    ∀ other, TellsApart (createHeader command flags correlationId username password) other ↔
      ¬DifferInCredentials (createHeader command flags correlationId username password) other :=
  ⟨headerRoundTrips_iff _, tellsApart_iff _⟩

theorem header_encoding_drops_username :
    ¬HeaderRoundTrips (createHeader 0xF2 1 (fun _ => 0) (some ⟨[0x61], by decide⟩) none) := by
  intro roundTrips
  have read := roundTrips (fun _ => 0) 0 none
  rw [readHeader_writeHeader] at read
  simp [createHeader] at read

end LibEsClient
