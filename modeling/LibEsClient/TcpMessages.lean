import LibEsClient.HeaderWire

/-! The names of the messages in `es_tcp_messages.c`, and the line of text that
`get_string_for_header` makes of a header. -/

namespace LibEsClient

def tcpMessages : List (UInt8 × String) :=
  [(0x01, "Heartbeat Request"),
    (0x02, "Heartbeat Response"),
    (0x03, "Ping"),
    (0x04, "Pong"),
    (0x05, "Prepare Acknowledgment"),
    (0x06, "Commit Acknowledgment"),
    (0x07, "Slave Assignment"),
    (0x08, "Clone Assignment"),
    (0x10, "Subscribe Replica"),
    (0x11, "Replica Log Position Acknowledgment"),
    (0x12, "Create Chunk"),
    (0x13, "Raw Chunk Bulk"),
    (0x14, "Data Chunk Bulk"),
    (0x15, "Replica Subscription Retry"),
    (0x16, "Replica Subscriber"),
    (0x82, "Write Events"),
    (0x83, "Write Events Completed"),
    (0x84, "Transaction Start"),
    (0x85, "Transaction Start Completed"),
    (0x86, "Transaction Write"),
    (0x87, "Transaction Write Completed"),
    (0x88, "Transaction Commit"),
    (0x89, "Transaction Commit Completed"),
    (0x8A, "Delete Stream"),
    (0x8B, "Delete Stream Completed"),
    (0xB0, "Read Event"),
    (0xB1, "Read Event Completed"),
    (0xB2, "Read Stream Events Forward"),
    (0xB3, "Read Stream Events Forward Completed"),
    (0xB4, "Read Stream Events Backward"),
    (0xB5, "Read Stream Events Backward Completed"),
    (0xB6, "Read All Events Forward"),
    (0xB7, "Read All Events Forward Completed"),
    (0xB8, "Read All Events Backward"),
    (0xB9, "Read All Events Backward Completed"),
    (0xC0, "Subscribe To Stream"),
    (0xC1, "Subscription Confirmation"),
    (0xC2, "Stream Event Appeared"),
    (0xC3, "Unsubscribe from stream"),
    (0xC4, "Subscription Dropped"),
    (0xC5, "Connect to Persistent Subscription"),
    (0xC6, "Persistent Subscription Confirmation"),
    (0xC7, "Persistent Subscription Stream Event Appeared"),
    (0xC8, "Create Persistent Subscription"),
    (0xC9, "Create Persistent Subscription Completed"),
    (0xCA, "Delete Persistent Subscription"),
    (0xCB, "Delete Persistent Subscription Completed"),
    (0xCC, "Persistent Subscription Ack Events"),
    (0xCD, "Persistent Subscription Nak Events"),
    (0xCE, "Update Persistent Subscription"),
    (0xCF, "Update Persistent Subscription Completed"),
    (0xD0, "Scavenge Database"),
    (0xD1, "Scavenge Database Completed"),
    (0xF0, "Bad Request"),
    (0xF1, "Not Handled"),
    (0xF2, "Authenticate"),
    (0xF3, "Authenticated"),
    (0xF4, "Not Authenticated")]

def getStringForTcpMessage (message : UInt8) : String :=
  (tcpMessages.lookup message).getD "Unknown Message Code"

/-- `%d`. -/
def decimal : Int → List Char
  | .ofNat value => Nat.toDigits 10 value
  | .negSucc value => '-' :: Nat.toDigits 10 (value + 1)

def commandLabel : List Char := "Command: ".toList
def flagsLabel : List Char := ", flags ".toList
def correlationLabel : List Char := ", correlation_id: ".toList

/-- The text before the NUL; a `char` is signed. `uuidUnparse` is what libuuid's
`uuid_unparse` writes before its own NUL. -/
def getStringForHeader (uuidUnparse : Uuid → List Char) (header : Header) : List Char :=
  commandLabel ++ ((getStringForTcpMessage header.command).toList ++ (flagsLabel ++
    (decimal header.flags.toInt8.toInt ++ (correlationLabel ++
      (uuidUnparse header.correlationId ++ ['\n'])))))

/-! What can be told from the line. -/

theorem mem_of_lookup {table : List (UInt8 × String)} {message : UInt8} {name : String}
    (found : table.lookup message = some name) : (message, name) ∈ table := by
  obtain ⟨earlier, later, rfl, _⟩ := List.lookup_eq_some_iff.mp found
  simp

theorem names_distinct : (tcpMessages.map Prod.snd).Nodup := by decide

theorem unknown_no_name : "Unknown Message Code" ∉ tcpMessages.map Prod.snd := by decide

theorem getStringForTcpMessage_eq_iff (first second : UInt8) :
    getStringForTcpMessage first = getStringForTcpMessage second ↔
      first = second ∨ tcpMessages.lookup first = none ∧ tcpMessages.lookup second = none := by
  have named : ∀ {message name}, tcpMessages.lookup message = some name →
      name ≠ "Unknown Message Code" := by
    rintro message name found rfl
    exact unknown_no_name (List.mem_map_of_mem (mem_of_lookup found))
  rw [getStringForTcpMessage, getStringForTcpMessage]
  cases found : tcpMessages.lookup first with
  | none =>
      cases other : tcpMessages.lookup second with
      | none => simp
      | some name =>
          refine iff_of_false (fun same => named other same.symm) ?_
          rintro (rfl | ⟨_, none⟩)
          · simp [found] at other
          · cases none
  | some name =>
      cases other : tcpMessages.lookup second with
      | none =>
          refine iff_of_false (named found) ?_
          rintro (rfl | ⟨none, _⟩)
          · simp [found] at other
          · cases none
      | some otherName =>
          constructor
          · rintro rfl
            have place := List.inj_on_of_nodup_map names_distinct (mem_of_lookup found)
              (mem_of_lookup other) rfl
            exact .inl (congrArg Prod.fst place)
          · rintro (rfl | ⟨none, _⟩)
            · exact Option.some.inj (found.symm.trans other)
            · cases none

theorem decimal_injective : Function.Injective decimal := by
  have noSign : ∀ value, '-' ∉ Nat.toDigits 10 value := fun value member =>
    absurd (Nat.isDigit_of_mem_toDigits (by decide) (by decide) member) (by decide)
  have digits : ∀ {first second}, Nat.toDigits 10 first = Nat.toDigits 10 second →
      first = second := by
    intro first second same
    rw [← @Nat.ofDigitChars_ten_toDigits first, same, Nat.ofDigitChars_ten_toDigits]
  intro first second same
  cases first with
  | ofNat value =>
      cases second with
      | ofNat other => rw [digits same]
      | negSucc other =>
          have sign : '-' ∈ decimal (.ofNat value) := same ▸ List.mem_cons_self
          exact absurd sign (noSign value)
  | negSucc value =>
      cases second with
      | ofNat other =>
          have sign : '-' ∈ decimal (.ofNat other) := same ▸ List.mem_cons_self
          exact absurd sign (noSign other)
      | negSucc other =>
          have next := digits (List.cons.inj same).2
          rw [Nat.succ.inj next]

/-! The line as a whole. -/

theorem length_decimal_le (value : Int8) : (decimal value.toInt).length ≤ 4 := by
  have digits : ∀ size < 10 ^ 3, (Nat.toDigits 10 size).length ≤ 3 := fun size small =>
    (Nat.length_toDigits_le_iff (by decide) (by decide)).mpr small
  have lower := value.le_toInt
  have upper := value.toInt_lt
  cases number : value.toInt with
  | ofNat size =>
      rw [number] at upper
      have few := digits size (by simp at upper; omega)
      simp only [decimal]
      omega
  | negSucc size =>
      rw [number] at lower
      have few := digits (size + 1) (by omega)
      simp only [decimal, List.length_cons]
      omega

theorem name_letters (message : UInt8) :
    ',' ∉ (getStringForTcpMessage message).toList ∧
      (getStringForTcpMessage message).toList.length ≤ 50 := by
  have names : ∀ entry ∈ tcpMessages, ',' ∉ entry.2.toList ∧ entry.2.toList.length ≤ 50 := by
    decide +kernel
  rw [getStringForTcpMessage]
  cases found : tcpMessages.lookup message with
  | none => decide
  | some name => exact names _ (mem_of_lookup found)

theorem takeWhile_letters {name rest : List Char} (letters : ',' ∉ name) :
    (name ++ (flagsLabel ++ rest)).takeWhile (· ≠ ',') = name := by
  rw [List.takeWhile_append_of_pos]
  · change name ++ [] = name
    exact List.append_nil name
  · intro letter member
    have other : letter ≠ ',' := fun comma => letters (comma ▸ member)
    simpa using other

/-! An id as `uuid_unparse` writes it where it writes small letters. -/

def hexByte (byte : UInt8) : List Char :=
  [Nat.digitChar (byte.toNat / 16), Nat.digitChar (byte.toNat % 16)]

def hyphenated (uuid : Uuid) : List Char :=
  (List.finRange 16).flatMap fun position : Fin 16 =>
    (if position.val ∈ [4, 6, 8, 10] then ['-'] else []) ++ hexByte (uuid position)

theorem length_hyphenated (uuid : Uuid) : (hyphenated uuid).length = 36 := by
  have sizes : ∀ position : Fin 16, ((if position.val ∈ [4, 6, 8, 10] then ['-'] else []) ++
      hexByte (uuid position)).length = if position.val ∈ [4, 6, 8, 10] then 3 else 2 := by
    intro position
    split <;> rfl
  simp only [hyphenated, List.length_flatMap, sizes]
  decide

theorem hexByte_injective : Function.Injective hexByte := by
  have digits : ∀ first < 16, ∀ second < 16,
      Nat.digitChar first = Nat.digitChar second → first = second := by decide
  intro first second same
  have high := digits _ (by have := first.toNat_lt; omega) _
    (by have := second.toNat_lt; omega) (List.cons.inj same).1
  have low := digits _ (by omega) _ (by omega) (List.cons.inj (List.cons.inj same).2).1
  apply UInt8.toNat.inj
  omega

theorem flatMap_injective {slot : Type} {first second : slot → List Char} {slots : List slot}
    (sizes : ∀ position, (first position).length = (second position).length)
    (same : slots.flatMap first = slots.flatMap second) :
    ∀ position ∈ slots, first position = second position := by
  induction slots with
  | nil => simp
  | cons head rest ih =>
      obtain ⟨here, later⟩ := List.append_inj same (sizes head)
      exact List.forall_mem_cons.mpr ⟨here, ih later⟩

theorem hyphenated_injective : Function.Injective hyphenated := by
  intro first second same
  have groups := flatMap_injective (fun position => by simp [hexByte]) same
  funext position
  have bytes := groups position (List.mem_finRange position)
  exact hexByte_injective (List.append_cancel_left bytes)

section Lines

variable {uuidUnparse : Uuid → List Char} (length : ∀ uuid, (uuidUnparse uuid).length = 36)
  (injective : Function.Injective uuidUnparse)

include length injective

theorem parts_of_line {first second : Header}
    (same : getStringForHeader uuidUnparse first = getStringForHeader uuidUnparse second) :
    getStringForTcpMessage first.command = getStringForTcpMessage second.command ∧
      first.flags = second.flags ∧ first.correlationId = second.correlationId := by
  have texts := List.append_cancel_left same
  -- no name has a comma in it, so the first one ends the name
  have name : (getStringForTcpMessage first.command).toList =
      (getStringForTcpMessage second.command).toList := by
    rw [← takeWhile_letters (name_letters first.command).1, texts,
      takeWhile_letters (name_letters second.command).1]
  rw [name] at texts
  have numbers := List.append_cancel_left (List.append_cancel_left texts)
  simp only [← List.append_assoc] at numbers
  have numbers := List.append_cancel_right numbers
  obtain ⟨front, id⟩ := List.append_inj' numbers ((length _).trans (length _).symm)
  have flags := Int8.toInt.inj (decimal_injective (List.append_cancel_right front))
  exact ⟨String.toList_inj.mp name, congrArg Int8.toUInt8 flags, injective id⟩

/-- The line with its NUL fits in the 1024 bytes that are allocated for it, and it tells
headers apart by their flags, their ids and the names of their commands. -/
theorem getStringForHeader_eq_iff (first second : Header) :
    (getStringForHeader uuidUnparse first).length + 1 ≤ 1024 ∧
      (getStringForHeader uuidUnparse first = getStringForHeader uuidUnparse second ↔
        (first.command = second.command ∨ tcpMessages.lookup first.command = none ∧
          tcpMessages.lookup second.command = none) ∧
        first.flags = second.flags ∧ first.correlationId = second.correlationId) := by
  constructor
  · have name := (name_letters first.command).2
    have number := length_decimal_le first.flags.toInt8
    have labels : commandLabel.length + flagsLabel.length + correlationLabel.length = 35 := by
      decide
    simp only [getStringForHeader, List.length_append, length, List.length_cons, List.length_nil]
    omega
  · rw [← getStringForTcpMessage_eq_iff]
    constructor
    · exact parts_of_line length injective
    · rintro ⟨name, flags, id⟩
      rw [getStringForHeader, getStringForHeader, name, flags, id]

end Lines

theorem getStringForHeader_eq_iff_hyphenated :
    getStringForHeader hyphenated (createHeader 0x20 1 (fun _ => 7) none none) =
        getStringForHeader hyphenated (createHeader 0x21 1 (fun _ => 7) none none) ∧
      getStringForHeader hyphenated (createHeader 0x20 1 (fun _ => 7) none none) ≠
        getStringForHeader hyphenated (createHeader 0x20 1 (fun _ => 8) none none) := by
  constructor
  · exact (getStringForHeader_eq_iff length_hyphenated hyphenated_injective _ _).2.mpr
      ⟨.inr ⟨by decide, by decide⟩, rfl, rfl⟩
  · intro same
    obtain ⟨_, _, id⟩ :=
      (getStringForHeader_eq_iff length_hyphenated hyphenated_injective _ _).2.mp same
    exact absurd (congrFun id 0) (by decide)

end LibEsClient
