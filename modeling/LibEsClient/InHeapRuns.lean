import LibEsClient.EsProtoEvents
import LibEsClient.InHeapCalls

/-! A client that makes and destroys objects, call by call: with pointer variables and a
heap, and by value with a list of what nothing points at any more. The one does what the
other says, for any run, and what is left in the heap is what was lost. -/

namespace LibEsClient

namespace InHeap

open FlatMemory Proto2 Heaps Assertion

/-! Calls. A function that makes an object leaves it in a new variable. -/

inductive Call
  | unpack (kind : MessageKind) (leftover : Nat → Uuid) (memory : Memory UInt8) (buffer : Buffer)
  | packWriteEvents (write : LibEsClient.WriteEvents) (memory : Memory UInt8) (buffer : Buffer)
  | createHeader (command flags : UInt8) (correlationId : Uuid)
      (username password : Option CString)
  | readHeader (memory : Memory UInt8) (buffer : Buffer)
  | createParserState (bufferSize : Int)
  | destroy (index : Nat)

structure Slot where
  kind : Kind
  pointer : Pointer

section Machines

variable (runtime : Runtime)

/-- The allocator of each call chooses where its blocks go. -/
def step (slots : List Slot) : Allocator Nat Block × Call → Run (List Slot)
  | (allocator, .unpack kind leftover memory buffer) => do
      let pointer ← unpack allocator runtime leftover kind memory buffer
      return slots ++ [{ kind := .message kind, pointer := pointer }]
  | (allocator, .packWriteEvents write memory buffer) => do
      let _ ← esPackWriteEvents allocator runtime write memory buffer
      return slots
  | (allocator, .createHeader command flags correlationId username password) => do
      let pointer ← createHeader allocator command flags correlationId username password
      return slots ++ [{ kind := .header, pointer := pointer }]
  | (allocator, .readHeader memory buffer) => do
      let found ← readHeader allocator memory buffer none
      return slots ++ [{ kind := .header, pointer := found.2 }]
  | (allocator, .createParserState bufferSize) => do
      let pointer ← createParserState allocator bufferSize
      return slots ++ [{ kind := .parserState, pointer := pointer }]
  | (_, .destroy index) =>
      match slots[index]? with
      | none => return slots
      | some slot => do
          let left ← destroy slot.kind slot.pointer
          return slots.set index { slot with pointer := left }

structure Client where
  held : List Variable
  lost : Multiset Lost

def Client.make (client : Client) (made : Variable) : Client :=
  { client with held := client.held ++ [made] }

def Client.step (client : Client) : Call → Except Heaps.Fault Client
  | .unpack kind leftover memory buffer => do
      let item ← reported (unpackValue runtime leftover kind memory buffer)
      return client.make (.ofItem kind item)
  | .packWriteEvents write memory buffer => do
      let _ ← reported (LibEsClient.esPackWriteEvents runtime write memory buffer)
      return { client with lost := client.lost + unfreed runtime write buffer }
  | .createHeader command flags correlationId username password =>
      .ok (client.make
        (.holds (.header (LibEsClient.createHeader command flags correlationId username password))))
  | .readHeader memory buffer =>
      .ok (client.make (.ofHeader (LibEsClient.readHeader memory buffer none).2))
  | .createParserState bufferSize => .ok (client.make (.holds (.parserState bufferSize)))
  | .destroy index =>
      match client.held[index]? with
      | none => .ok client
      | some given => do
          let lost ← destroyed given
          return {
            held := client.held.set index (.null given.kind)
            lost := client.lost + lost }

def run (calls : List (Allocator Nat Block × Call)) : Run (List Slot) :=
  calls.foldlM (step runtime) []

def Client.run (calls : List Call) : Except Heaps.Fault Client :=
  calls.foldlM (Client.step runtime) { held := [], lost := 0 }

end Machines

/-! The heap of a client by value: each variable with what it holds, and what was lost. -/

def slotAt (slot : Slot) (given : Variable) : Assertion Nat Block :=
  fact (slot.kind = given.kind) * heldAt given slot.pointer

def clientAt (client : Client) (slots : List Slot) : Assertion Nat Block :=
  each slotAt slots client.held * allLost client.lost

theorem clientAt_make {client : Client} {slots : List Slot} {given : Variable} {kind : Kind}
    {pointer : Pointer} (same : kind = given.kind) (heap : Heap Nat Block)
    (holds : (heldAt given pointer * clientAt client slots : Assertion Nat Block) heap) :
    clientAt (client.make given) (slots ++ [{ kind := kind, pointer := pointer }]) heap := by
  rw [clientAt, Client.make, each_concat, mul_right_comm, mul_comm, slotAt, fact_of_true same,
    one_mul]
  exact holds

section Steps

variable (runtime : Runtime)

theorem kind_unpackValue {leftover : Nat → Uuid} {kind : MessageKind} {memory : Memory UInt8}
    {buffer : Buffer} {item : Option Outgoing}
    (unpacked : reported (unpackValue runtime leftover kind memory buffer) = .ok item) :
    (Variable.ofItem kind item).kind = .message kind := by
  cases item with
  | none => rfl
  | some given => exact congrArg Kind.message (kind_of_accepted (reported_ok unpacked))

theorem step_destroy (client : Client) (slots : List Slot) (allocator : Allocator Nat Block)
    (index : Nat) :
    Implements (clientAt client slots) (step runtime slots (allocator, .destroy index))
      (client.step runtime (.destroy index)) clientAt := by
  rw [clientAt, each_eq_fact_mul, mul_assoc]
  refine Implements.of_fact fun same => ?_
  cases inSlots : slots[index]? with
  | none =>
      have outside : client.held[index]? = none := by
        rw [List.getElem?_eq_none_iff] at inSlots ⊢
        omega
      simp only [step, Client.step, inSlots, outside]
      exact Triple.pure fun heap holds => holds
  | some slot =>
      have inside : index < client.held.length := by
        rw [List.getElem?_eq_some_iff] at inSlots
        obtain ⟨bound, _⟩ := inSlots
        omega
      have inHeld := List.getElem?_eq_getElem inside
      obtain ⟨others, apart, replaced⟩ := each_focus slotAt same inSlots inHeld
      simp only [step, Client.step, inSlots, inHeld]
      rw [apart, slotAt, mul_assoc, mul_assoc]
      refine Implements.of_fact fun sameKind => ?_
      rw [sameKind]
      refine Implements.bind (Implements.frame (destroy_implements _ slot.pointer))
        fun lost left => ?_
      rw [mul_assoc]
      refine Implements.of_fact fun null => Triple.pure fun heap holds => ?_
      have gone : slotAt { kind := client.held[index].kind, pointer := left }
          (.null client.held[index].kind) = 1 := by
        rw [slotAt, heldAt, fact_of_true null, mul_one]
        exact fact_of_true rfl
      rw [clientAt, replaced, gone, one_mul]
      rwa [mul_left_comm, mul_comm (allLost lost), ← allLost_add] at holds

theorem step_implements (client : Client) (slots : List Slot)
    (call : Allocator Nat Block × Call) :
    Implements (clientAt client slots) (step runtime slots call) (client.step runtime call.2)
      clientAt := by
  obtain ⟨allocator, call⟩ := call
  cases call with
  | destroy index => exact step_destroy runtime client slots allocator index
  | unpack kind leftover memory buffer =>
      rw [step, Client.step, ← one_mul (clientAt client slots)]
      refine Implements.bind (Implements.frame
        (Implements.with_outcome (unpack_implements allocator kind))) fun item pointer => ?_
      rw [mul_assoc]
      refine Implements.of_fact fun unpacked => Triple.pure ?_
      exact clientAt_make (kind_unpackValue runtime unpacked).symm
  | packWriteEvents write memory buffer =>
      rw [step, Client.step, ← one_mul (clientAt client slots)]
      refine Implements.bind (Implements.frame
        (esPackWriteEvents_implements allocator runtime write memory buffer)) fun result found => ?_
      rw [mul_assoc]
      refine Implements.of_fact fun _ => Triple.pure fun heap holds => ?_
      rwa [clientAt, mul_left_comm, mul_comm (allLost _), ← allLost_add] at holds
  | createHeader command flags correlationId username password =>
      rw [step, Client.step, ← one_mul (clientAt client slots)]
      refine Triple.bind_frame (triple_createHeader allocator command flags correlationId username
        password) fun pointer => Triple.pure fun heap holds => clientAt_make ?_ heap ?_
      · rfl
      · exact holds
  | readHeader memory buffer =>
      rw [step, Client.step, ← one_mul (clientAt client slots)]
      refine Triple.bind_frame (triple_readHeader allocator) fun found => ?_
      rw [mul_assoc]
      refine Triple.of_fact fun _ => Triple.pure (clientAt_make ?_)
      cases (LibEsClient.readHeader memory buffer none).2 with
      | none => rfl
      | some self => rfl
  | createParserState bufferSize =>
      rw [step, Client.step, ← one_mul (clientAt client slots)]
      refine Triple.bind_frame (triple_createParserState allocator bufferSize) fun pointer =>
        Triple.pure fun heap holds => clientAt_make ?_ heap ?_
      · rfl
      · exact holds

theorem run_implements (calls : List (Allocator Nat Block × Call)) :
    Implements 1 (run runtime calls) (Client.run runtime (calls.map Prod.snd)) clientAt := by
  have runs := Implements.foldlM (step_implements runtime) calls { held := [], lost := 0 } []
  rw [clientAt, each_nil, allLost_zero, one_mul] at runs
  rw [Client.run, List.foldlM_map]
  exact runs

/-! Whole runs. -/

def Variable.blocks : Variable → Nat
  | null _ => 0
  | holds object => object.blocks

theorem owns_slotAt (slot : Slot) (given : Variable) : (slotAt slot given).Owns given.blocks := by
  have held : (heldAt given slot.pointer).Owns given.blocks := by
    cases given with
    | null kind => exact owns_fact _
    | holds object => exact owns_objectAt object slot.pointer
  exact ((owns_fact _).mul held).of_eq (Nat.zero_add _)

theorem run_outcome (calls : List (Allocator Nat Block × Call)) :
    (∃ fault, run runtime calls ∅ = .error fault ∧
      Client.run runtime (calls.map Prod.snd) = .error fault) ∨
    ∃ slots heap client, run runtime calls ∅ = .ok (slots, heap) ∧
      Client.run runtime (calls.map Prod.snd) = .ok client ∧ clientAt client slots heap := by
  have start : (1 * 1 : Assertion Nat Block) ∅ := by
    rw [one_mul]
    rfl
  rcases Implements.run (run_implements runtime calls) start with
    stopped | ⟨slots, heap, client, ran, same, reached⟩
  · exact .inl stopped
  · rw [mul_one] at reached
    exact .inr ⟨slots, heap, client, ran, same, reached⟩

theorem heap_runs_by_value (calls : List (Allocator Nat Block × Call)) :
    (∃ fault, run runtime calls ∅ = .error fault ∧
      Client.run runtime (calls.map Prod.snd) = .error fault) ∨
    ∃ slots heap client, run runtime calls ∅ = .ok (slots, heap) ∧
      Client.run runtime (calls.map Prod.snd) = .ok client ∧ clientAt client slots heap ∧
      heap.keys.card = (client.held.map Variable.blocks).sum +
        (client.lost.map Lost.blocks).sum := by
  rcases run_outcome runtime calls with stopped | ⟨slots, heap, client, ran, same, reached⟩
  · exact .inl stopped
  · have owned := (owns_each slots fun slot given _ => owns_slotAt slot given).mul
      (owns_allLost client.lost) heap reached
    exact .inr ⟨slots, heap, client, ran, same, reached, owned⟩

theorem step_ne_free (client : Client) (call : Call) :
    client.step runtime call ≠ .error .free := by
  cases call with
  | unpack kind leftover memory buffer => exact ne_error_bind (reported_ne_free _) fun _ => nofun
  | packWriteEvents write memory buffer => exact ne_error_bind (reported_ne_free _) fun _ => nofun
  | createHeader command flags correlationId username password => exact nofun
  | readHeader memory buffer => exact nofun
  | createParserState bufferSize => exact nofun
  | destroy index =>
      rw [Client.step]
      cases client.held[index]? with
      | none => exact nofun
      | some given =>
          refine ne_error_bind ?_ fun _ => nofun
          cases given with
          | holds object => exact nofun
          | null kind =>
              rw [destroyed]
              cases kind.toleratesNull <;> exact nofun

theorem heap_runs_never_free_twice (calls : List (Allocator Nat Block × Call)) :
    run runtime calls ∅ ≠ .error .free := by
  intro freed
  rcases run_outcome runtime calls with ⟨fault, ran, same⟩ | ⟨slots, heap, client, ran, _⟩
  · obtain rfl : fault = .free := Except.error.inj (ran.symm.trans freed)
    exact ne_error_foldlM (step_ne_free runtime) _ _ same
  · rw [ran] at freed
    cases freed

/-! What is left when everything was destroyed. -/

/-- What a call loses, at once or when the object it makes is destroyed. -/
def leak : Call → Multiset Lost
  | .unpack kind leftover memory buffer =>
      match unpackValue runtime leftover kind memory buffer with
      | .ok (some item) => (Object.message item).lost
      | _ => 0
  | .packWriteEvents write _ buffer => unfreed runtime write buffer
  | .createHeader _ _ correlationId _ _ => {.uuid correlationId}
  | .readHeader memory buffer =>
      if buffer.length < mandatorySize then 0
      else {.uuid (getUuidFromWtf memory (buffer.location + correlationOffset))}
  | .createParserState _ => 0
  | .destroy _ => 0

def Variable.pending : Variable → Multiset Lost
  | null _ => 0
  | holds object => object.lost

/-- What was lost and what will be, should everything held be destroyed. -/
def Client.total (client : Client) : Multiset Lost :=
  client.lost + (client.held.map Variable.pending).sum

theorem Client.total_make (client : Client) (given : Variable) :
    (client.make given).total = client.total + given.pending := by
  simp only [total, make, List.map_append, List.map_singleton, List.sum_append, List.sum_singleton,
    add_assoc]

theorem sum_set_null {held : List Variable} {index : Nat} {given : Variable}
    (inHeld : held[index]? = some given) (kind : Kind) :
    ((held.set index (.null kind)).map Variable.pending).sum + given.pending =
      (held.map Variable.pending).sum := by
  induction held generalizing index with
  | nil => simp at inHeld
  | cons first rest ih =>
      cases index with
      | zero =>
          obtain rfl : first = given := by simpa using inHeld
          simp [Variable.pending, add_comm]
      | succ index =>
          have there : rest[index]? = some given := by simpa using inHeld
          have later := ih there
          rw [List.set_cons_succ, List.map_cons, List.map_cons, List.sum_cons, List.sum_cons,
            add_assoc, later]

theorem step_total {client next : Client} {call : Call}
    (stepped : client.step runtime call = .ok next) :
    next.total = client.total + leak runtime call := by
  cases call with
  | unpack kind leftover memory buffer =>
      obtain ⟨item, unpacked, made⟩ := ok_of_bind stepped
      obtain rfl := Except.ok.inj made
      rw [Client.total_make, leak, reported_ok unpacked]
      cases item with
      | none => rfl
      | some given => cases given <;> rfl
  | packWriteEvents write memory buffer =>
      obtain ⟨result, _, made⟩ := ok_of_bind stepped
      obtain rfl := Except.ok.inj made
      simp only [Client.total, leak]
      exact add_right_comm _ _ _
  | createHeader command flags correlationId username password =>
      obtain rfl := Except.ok.inj stepped
      exact Client.total_make ..
  | readHeader memory buffer =>
      obtain rfl := Except.ok.inj stepped
      rw [Client.total_make, leak, LibEsClient.readHeader]
      by_cases short : buffer.length < mandatorySize
      · rw [if_pos short, if_pos short]
        rfl
      · rw [if_neg short, if_neg short]
        rfl
  | createParserState bufferSize =>
      obtain rfl := Except.ok.inj stepped
      exact Client.total_make ..
  | destroy index =>
      rw [Client.step] at stepped
      cases inHeld : client.held[index]? with
      | none =>
          rw [inHeld] at stepped
          obtain rfl := Except.ok.inj stepped
          exact (add_zero _).symm
      | some given =>
          rw [inHeld] at stepped
          obtain ⟨lost, freed, made⟩ := ok_of_bind stepped
          obtain rfl := Except.ok.inj made
          have same : lost = given.pending := by
            cases given with
            | holds object => exact (Except.ok.inj freed).symm
            | null kind =>
                rw [destroyed] at freed
                cases tolerated : kind.toleratesNull with
                | false =>
                    rw [tolerated] at freed
                    cases freed
                | true =>
                    rw [tolerated] at freed
                    exact (Except.ok.inj freed).symm
          have sums := sum_set_null inHeld given.kind
          simp only [Client.total, leak]
          rw [same, ← sums, add_zero, add_assoc, add_comm given.pending]

theorem foldlM_total {client final : Client} {calls : List Call}
    (ran : calls.foldlM (Client.step runtime) client = .ok final) :
    final.total = client.total + (calls.map (leak runtime)).sum := by
  induction calls generalizing client with
  | nil =>
      obtain rfl := Except.ok.inj ran
      exact (add_zero _).symm
  | cons call rest ih =>
      rw [List.foldlM_cons] at ran
      obtain ⟨next, stepped, later⟩ := ok_of_bind ran
      rw [ih later, step_total runtime stepped, List.map_cons, List.sum_cons, add_assoc]

def Variable.isNull : Variable → Prop
  | null _ => True
  | holds _ => False

theorem nulls_iff {client : Client} {slots : List Slot} {heap : Heap Nat Block}
    (reached : clientAt client slots heap) :
    (∀ slot ∈ slots, slot.pointer = none) ↔ ∀ given ∈ client.held, given.isNull := by
  have pairs : List.Forall₂ (fun slot given => slot.pointer = none ↔ given.isNull) slots
      client.held := by
    obtain ⟨here, _, _, _, inHere, _⟩ := reached
    refine each_forall slotAt (fun slot given heap holds => ?_) inHere
    obtain ⟨_, held⟩ := (fact_mul_apply _ _ _).mp holds
    cases given with
    | null kind => exact iff_of_true held.1 trivial
    | holds object =>
        refine iff_of_false (fun null => ?_) not_false
        rw [null] at held
        exact not_objectAt_null object heap held
  clear reached
  generalize client.held = held at pairs
  induction pairs with
  | nil => simp
  | cons here _ ih =>
      rw [List.forall_mem_cons, List.forall_mem_cons]
      exact and_congr here ih

def closing : Nat → List Variable → List Nat
  | _, [] => []
  | index, .null _ :: rest => closing (index + 1) rest
  | index, .holds _ :: rest => index :: closing (index + 1) rest

theorem foldlM_closing (earlier later : List Variable) (lost : Multiset Lost) :
    ∃ after, ((closing earlier.length later).map Call.destroy).foldlM (Client.step runtime)
        { held := earlier ++ later, lost := lost } =
      .ok { held := earlier ++ later.map fun given => .null given.kind, lost := after } := by
  induction later generalizing earlier lost with
  | nil => exact ⟨lost, rfl⟩
  | cons given rest ih =>
      cases given with
      | null kind =>
          have next := ih (earlier ++ [.null kind]) lost
          rwa [List.append_assoc, List.append_assoc, List.length_append, List.length_singleton]
            at next
      | holds object =>
          obtain ⟨after, ran⟩ := ih (earlier ++ [.null object.kind]) (lost + object.lost)
          rw [List.append_assoc, List.append_assoc, List.length_append, List.length_singleton]
            at ran
          have stepped : Client.step runtime
              { held := earlier ++ .holds object :: rest, lost := lost } (.destroy earlier.length) =
                .ok {
                  held := earlier ++ .null object.kind :: rest
                  lost := lost + object.lost } := by
            simp only [Client.step, List.getElem?_append_right (Nat.le_refl _), Nat.sub_self,
              List.set_append_right _ _ (Nat.le_refl _)]
            rfl
          rw [closing, List.map_cons, List.foldlM_cons, stepped]
          exact ⟨after, ran⟩

theorem run_closing {calls : List Call} {client : Client}
    (valued : Client.run runtime calls = .ok client) :
    ∃ after, Client.run runtime (calls ++ (closing 0 client.held).map .destroy) =
      .ok { held := client.held.map fun given => .null given.kind, lost := after } := by
  obtain ⟨after, closed⟩ := foldlM_closing runtime [] client.held client.lost
  refine ⟨after, ?_⟩
  rw [Client.run] at valued
  rw [Client.run, List.foldlM_append, valued]
  exact closed

theorem sum_of_nulls {amount : Type} [AddCommMonoid amount] {held : List Variable}
    (nulls : ∀ given ∈ held, given.isNull) {count : Variable → amount}
    (none : ∀ kind, count (.null kind) = 0) : (held.map count).sum = 0 := by
  induction held with
  | nil => rfl
  | cons first rest ih =>
      obtain ⟨null, others⟩ := List.forall_mem_cons.mp nulls
      rw [List.map_cons, List.sum_cons, ih others, add_zero]
      cases first with
      | null kind => exact none kind
      | holds object => exact null.elim

theorem nulls_lost {client : Client} {slots : List Slot} {heap : Heap Nat Block}
    (nulls : ∀ given ∈ client.held, given.isNull) (reached : clientAt client slots heap) :
    allLost client.lost heap := by
  have none := owns_each slots fun slot given (_ : given ∈ client.held) => owns_slotAt slot given
  rw [sum_of_nulls nulls fun _ => rfl] at none
  have apart : (blocks 0 * allLost client.lost : Assertion Nat Block) heap :=
    mul_mono none (fun _ => id) heap reached
  rwa [blocks_zero, one_mul] at apart

theorem heap_runs_leak {calls : List (Allocator Nat Block × Call)} {slots : List Slot}
    {heap : Heap Nat Block} (ran : run runtime calls ∅ = .ok (slots, heap)) :
    ((∀ slot ∈ slots, slot.pointer = none) →
      allLost (calls.map fun call => leak runtime call.2).sum heap) ∧
    ∃ left : List Nat, ∀ allocator : Allocator Nat Block, ∃ freed rest,
      run runtime (calls ++ left.map fun index => (allocator, .destroy index)) ∅ =
        .ok (freed, rest) ∧ ∀ slot ∈ freed, slot.pointer = none := by
  rcases run_outcome runtime calls with
    ⟨fault, stopped, _⟩ | ⟨slots', heap', client, same, valued, reached⟩
  · rw [ran] at stopped
    cases stopped
  · rw [ran] at same
    obtain ⟨rfl, rfl⟩ := Prod.mk.inj (Except.ok.inj same)
    refine ⟨fun released => ?_, closing 0 client.held, fun allocator => ?_⟩
    · have nulls := (nulls_iff reached).mp released
      have total := foldlM_total runtime valued
      rw [Client.total, sum_of_nulls nulls fun _ => rfl, add_zero, List.map_map] at total
      have lost : client.lost = (calls.map fun call => leak runtime call.2).sum :=
        total.trans (zero_add _)
      rw [← lost]
      exact nulls_lost nulls reached
    · obtain ⟨after, closed⟩ := run_closing runtime valued
      have snds : (calls ++ (closing 0 client.held).map fun index =>
          (allocator, Call.destroy index)).map Prod.snd =
            calls.map Prod.snd ++ (closing 0 client.held).map .destroy := by
        rw [List.map_append, List.map_map]
        rfl
      rw [← snds] at closed
      rcases run_outcome runtime (calls ++ (closing 0 client.held).map fun index =>
          (allocator, Call.destroy index)) with
        ⟨fault, _, stopped⟩ | ⟨freed, rest, final, ended, same, settled⟩
      · rw [closed] at stopped
        cases stopped
      · rw [closed] at same
        obtain rfl := Except.ok.inj same
        exact ⟨freed, rest, ended, (nulls_iff settled).mpr (by simp [Variable.isNull])⟩

end Steps

/-! A header, the result of a scavenge with its error text, and a write of one event that is
packed into a buffer without room. -/

def scavengeText : CString := ⟨[98, 97, 100], by decide⟩

def scavengeBytes : List UInt8 := [8, 2, 18, 3, 98, 97, 100, 24, 5, 32, 9]

theorem unpackValue_scavenge :
    unpackValue referenceRuntime (fun _ _ => 0) .scavengeDatabaseCompleted
        (wireMemory scavengeBytes) ⟨11, 0⟩ =
      .ok (some (.scavengeDatabaseCompleted {
        result := 2
        error := some scavengeText
        totalTimeMs := 5
        totalSpaceSaved := 9 })) := by
  have arrived : referenceRuntime.unpack Messages.scavengeDatabaseCompletedDescriptor
      ((wireMemory scavengeBytes).read 0 (sizeT 11)) = some {
        result := 2
        error := some scavengeText
        totalTimeMs := 5
        totalSpaceSaved := 9 } := by
    decide
  simp only [unpackValue, LibEsClient.esUnpackScavengeDatabaseCompleted, unpackFrom, arrived]
  rfl

def leakingCalls : List (Allocator Nat Block × Call) :=
  [(.next Block, .createHeader 1 0 (fun _ => 7) none none),
    (.next Block, .unpack .scavengeDatabaseCompleted (fun _ _ => 0)
      (wireMemory scavengeBytes) ⟨11, 0⟩),
    (.next Block, .packWriteEvents oneEvent (fun _ => 0) ⟨0, 0⟩),
    (.next Block, .destroy 0),
    (.next Block, .destroy 1)]

theorem heap_runs_leak_unfreed_write : ∃ slots heap,
    run referenceRuntime leakingCalls ∅ = .ok (slots, heap) ∧
      allLost ({.uuid fun _ => 7} + {.text scavengeText} +
        {.messages (oneEvent.counted.map newEventMessage)}) heap := by
  obtain ⟨result, packed⟩ : ∃ result,
      LibEsClient.esPackWriteEvents referenceRuntime oneEvent (fun _ => 0) ⟨0, 0⟩ = .ok result :=
    ⟨_, rfl⟩
  have large : unfreed referenceRuntime oneEvent ⟨0, 0⟩ =
      {.messages (oneEvent.counted.map newEventMessage)} := if_pos (by decide)
  obtain ⟨lost, valued⟩ : ∃ lost,
      Client.run referenceRuntime (leakingCalls.map Prod.snd) = .ok {
        held := [.null .header, .null (.message .scavengeDatabaseCompleted)]
        lost := lost } := by
    simp only [leakingCalls, List.map_cons, List.map_nil, Client.run, List.foldlM_cons, Client.step,
      unpackValue_scavenge, packed]
    exact ⟨_, rfl⟩
  have leaks : (leakingCalls.map fun call => leak referenceRuntime call.2).sum =
      {.uuid fun _ => 7} + {.text scavengeText} +
        {.messages (oneEvent.counted.map newEventMessage)} := by
    simp only [leakingCalls, List.map_cons, List.map_nil, leak, unpackValue_scavenge, large,
      List.sum_cons, List.sum_nil, Object.lost, textLost, add_zero, add_assoc]
  rcases run_outcome referenceRuntime leakingCalls with
    ⟨fault, _, stopped⟩ | ⟨slots, heap, client, ran, same, reached⟩
  · rw [valued] at stopped
    cases stopped
  · rw [valued] at same
    obtain rfl := Except.ok.inj same
    have nulls := (nulls_iff reached).mpr (by simp [Variable.isNull])
    exact ⟨slots, heap, ran, leaks ▸ (heap_runs_leak referenceRuntime ran).1 nulls⟩

end InHeap

end LibEsClient
