import LibEsClient.Machine

/-! Streams of self-delimiting frames: a header of fixed length tells how long
the body after it is. A queue of such frames takes symbols at one end and gives
whole frames at the other; what comes out depends on the symbols alone. -/

namespace Framing

open Machines

structure Format (symbol : Type) where
  headerLength : Nat
  bodyLength : List symbol → Nat

variable {symbol : Type}

namespace Format

variable (format : Format symbol)

def size (pending : List symbol) : Nat :=
  format.headerLength + format.bodyLength (pending.take format.headerLength)

def IsFrame (frame : List symbol) : Prop :=
  frame.length = format.size frame

instance (frame : List symbol) : Decidable (format.IsFrame frame) :=
  inferInstanceAs (Decidable (_ = _))

def next (pending : List symbol) : Option (List symbol × List symbol) :=
  if pending.length < format.headerLength then none
  else if pending.length < format.size pending then none
  else some (pending.take (format.size pending), pending.drop (format.size pending))

def Stuck (pending : List symbol) : Prop := format.next pending = none

variable {format}

theorem headerLength_le_size (pending : List symbol) :
    format.headerLength ≤ format.size pending := Nat.le_add_right _ _

theorem IsFrame.headerLength_le {frame : List symbol} (isFrame : format.IsFrame frame) :
    format.headerLength ≤ frame.length := by
  rw [isFrame]
  exact headerLength_le_size frame

theorem size_append {pending : List symbol} (later : List symbol)
    (enough : format.headerLength ≤ pending.length) :
    format.size (pending ++ later) = format.size pending := by
  simp only [size, List.take_append_of_le_length enough]

theorem next_none_iff (pending : List symbol) :
    format.next pending = none ↔
      pending.length < format.headerLength ∨ pending.length < format.size pending := by
  simp only [next]
  split
  · rename_i short
    simp [short]
  · rename_i long
    simp [long]

theorem next_some {pending frame rest : List symbol}
    (found : format.next pending = some (frame, rest)) :
    format.IsFrame frame ∧ pending = frame ++ rest := by
  simp only [next] at found
  split at found
  · simp at found
  · split at found
    · simp at found
    · rename_i header body
      simp only [Option.some.injEq, Prod.mk.injEq] at found
      obtain ⟨rfl, rfl⟩ := found
      refine ⟨?_, (List.take_append_drop _ _).symm⟩
      have sameHeader : (pending.take (format.size pending)).take format.headerLength =
          pending.take format.headerLength := by
        rw [List.take_take, Nat.min_eq_left (headerLength_le_size pending)]
      have sameSize : format.size (pending.take (format.size pending)) = format.size pending := by
        rw [size, sameHeader, size]
      rw [IsFrame, sameSize, List.length_take]
      omega

theorem IsFrame.next_append {frame : List symbol} (isFrame : format.IsFrame frame)
    (rest : List symbol) : format.next (frame ++ rest) = some (frame, rest) := by
  have header := isFrame.headerLength_le
  have same : format.size (frame ++ rest) = frame.length := by
    rw [size_append rest header, isFrame]
  simp only [next, same, List.length_append]
  rw [if_neg (by omega), if_neg (by omega)]
  simp

theorem IsFrame.not_stuck {frame : List symbol} (isFrame : format.IsFrame frame)
    (rest : List symbol) : ¬format.Stuck (frame ++ rest) := by
  simp [Stuck, isFrame.next_append rest]

/-- Two ways to cut one stream into frames agree as far as both go. -/
theorem parse_compare {first second : List (List symbol)} {left right : List symbol}
    (firstFrames : ∀ frame ∈ first, format.IsFrame frame)
    (secondFrames : ∀ frame ∈ second, format.IsFrame frame)
    (same : first.flatten ++ left = second.flatten ++ right) :
    (∃ more, second = first ++ more ∧ left = more.flatten ++ right) ∨
      ∃ more, first = second ++ more ∧ right = more.flatten ++ left := by
  induction first generalizing second with
  | nil => exact Or.inl ⟨second, rfl, by simpa using same⟩
  | cons frame first ih =>
      cases second with
      | nil => exact Or.inr ⟨frame :: first, rfl, by simpa using same.symm⟩
      | cons other second =>
          have frameHead := firstFrames frame (by simp)
          have otherHead := secondFrames other (by simp)
          simp only [List.flatten_cons, List.append_assoc] at same
          have firstNext := frameHead.next_append (first.flatten ++ left)
          rw [same, otherHead.next_append] at firstNext
          simp only [Option.some.injEq, Prod.mk.injEq] at firstNext
          obtain ⟨rfl, rest⟩ := firstNext
          have tail := ih (fun frame member => firstFrames frame (List.mem_cons_of_mem _ member))
            (fun frame member => secondFrames frame (List.mem_cons_of_mem _ member)) rest.symm
          rcases tail with ⟨more, split, rest⟩ | ⟨more, split, rest⟩
          · exact Or.inl ⟨more, by rw [split]; rfl, rest⟩
          · exact Or.inr ⟨more, by rw [split]; rfl, rest⟩

theorem stuck_flatten_nil {more : List (List symbol)} {rest : List symbol}
    (frames : ∀ frame ∈ more, format.IsFrame frame)
    (stuck : format.Stuck (more.flatten ++ rest)) : more = [] := by
  cases more with
  | nil => rfl
  | cons frame more =>
      simp only [List.flatten_cons, List.append_assoc] at stuck
      exact absurd stuck ((frames frame (by simp)).not_stuck _)

theorem IsFrame.stuck_part {frame part rest : List symbol} (isFrame : format.IsFrame frame)
    (same : part ++ rest = frame) (shorter : part.length < frame.length) :
    format.Stuck part := by
  apply (next_none_iff part).mpr
  by_cases header : format.headerLength ≤ part.length
  · right
    rw [isFrame, ← same, size_append rest header] at shorter
    exact shorter
  · omega

theorem whole_or_part {sent : List (List symbol)} {pending rest : List symbol}
    (frames : ∀ frame ∈ sent, format.IsFrame frame)
    (same : pending ++ rest = sent.flatten) :
    (∃ frame more left, sent = frame :: more ∧ pending = frame ++ left ∧
        left ++ rest = more.flatten) ∨
      (∃ frame more, sent = frame :: more ∧ pending.length < frame.length ∧
        format.Stuck pending) ∨
      (sent = [] ∧ pending = []) := by
  cases sent with
  | nil => exact Or.inr (Or.inr ⟨rfl, (List.append_eq_nil_iff.mp same).1⟩)
  | cons frame more =>
      rw [List.flatten_cons] at same
      rcases List.append_eq_append_iff.mp same with ⟨part, split, _⟩ | ⟨left, split, tail⟩
      · by_cases shorter : pending.length < frame.length
        · exact Or.inr (Or.inl ⟨frame, more, rfl, shorter,
            (frames frame (by simp)).stuck_part split.symm shorter⟩)
        · have nothing : part = [] := by
            apply List.eq_nil_of_length_eq_zero
            rw [split, List.length_append] at shorter
            omega
          subst nothing
          rw [List.append_nil] at split
          subst split
          exact Or.inl ⟨frame, more, [], rfl, (List.append_nil _).symm,
            List.append_cancel_left same⟩
      · exact Or.inl ⟨frame, more, left, rfl, split, tail.symm⟩

theorem parse_unique {first second : List (List symbol)} {left right : List symbol}
    (firstFrames : ∀ frame ∈ first, format.IsFrame frame)
    (secondFrames : ∀ frame ∈ second, format.IsFrame frame)
    (leftStuck : format.Stuck left) (rightStuck : format.Stuck right)
    (same : first.flatten ++ left = second.flatten ++ right) :
    first = second ∧ left = right := by
  rcases parse_compare firstFrames secondFrames same with
    ⟨more, rfl, rfl⟩ | ⟨more, rfl, rfl⟩
  · have empty := stuck_flatten_nil
      (fun frame member => secondFrames frame (List.mem_append_right _ member)) leftStuck
    simp [empty]
  · have empty := stuck_flatten_nil
      (fun frame member => firstFrames frame (List.mem_append_right _ member)) rightStuck
    simp [empty]

end Format

/-! The queue: symbols are pushed at the back, whole frames are popped at the front. -/

inductive Request (symbol : Type)
  | push (symbols : List symbol)
  | pop

def Request.pushed : Request symbol → List symbol
  | .push symbols => symbols
  | .pop => []

def queue (format : Format symbol) :
    Machine (List symbol) (Request symbol) (Option (List symbol)) where
  step pending
    | .push symbols => (pending ++ symbols, none)
    | .pop =>
        match format.next pending with
        | none => (pending, none)
        | some (frame, rest) => (rest, some frame)

def popped (history : List (Transition (List symbol) (Request symbol) (Option (List symbol)))) :
    List (List symbol) :=
  history.filterMap (·.output)

variable {format : Format symbol}

theorem queue_step_popped (pending : List symbol) (request : Request symbol) :
    ∀ frame, ((queue format).step pending request).2 = some frame →
      format.IsFrame frame ∧ frame.length ≤ pending.length := by
  intro frame found
  cases request with
  | push symbols => simp [queue] at found
  | pop =>
      simp only [queue] at found
      cases next : format.next pending with
      | none => simp [next] at found
      | some parts =>
          obtain ⟨isFrame, split⟩ := Format.next_some next
          simp only [next, Option.some.injEq] at found
          subst found
          refine ⟨isFrame, ?_⟩
          rw [split, List.length_append]
          omega

theorem queue_step_conserves (pending : List symbol) (request : Request symbol) :
    ((queue format).step pending request).2.toList.flatten ++
        ((queue format).step pending request).1 = pending ++ request.pushed := by
  cases request with
  | push symbols => simp [queue, Request.pushed]
  | pop =>
      simp only [queue, Request.pushed, List.append_nil]
      cases next : format.next pending with
      | none => simp
      | some parts => simp [(Format.next_some next).2]

theorem popped_isFrame (start : List symbol) (requests : List (Request symbol)) :
    ∀ frame ∈ popped ((queue format).run start requests), format.IsFrame frame := by
  intro frame member
  obtain ⟨found, inRun, output⟩ := List.mem_filterMap.mp member
  obtain ⟨earlier, request, later, split, rfl⟩ := ((queue format).mem_run_iff _ _ _).mp inRun
  exact (queue_step_popped _ request frame output).1

theorem popped_concat (start : List symbol) (requests : List (Request symbol))
    (request : Request symbol) :
    popped ((queue format).run start (requests ++ [request])) =
      popped ((queue format).run start requests) ++
        ((queue format).step ((queue format).final start requests) request).2.toList := by
  rw [Machine.run_concat, popped, List.filterMap_append]
  cases found : ((queue format).step ((queue format).final start requests) request).2 <;>
    simp [popped, Machine.transition, found]

/-- Nothing is lost, repeated or reordered: what was popped and what is left are
what was there and what was pushed. -/
theorem queue_conserves (start : List symbol) (requests : List (Request symbol)) :
    (popped ((queue format).run start requests)).flatten ++
        (queue format).final start requests =
      start ++ requests.flatMap Request.pushed := by
  induction requests using List.reverseRecOn with
  | nil => simp [Machine.run, Machine.final, popped]
  | append_singleton earlier request ih =>
      rw [popped_concat, Machine.final_concat, List.flatten_append, List.append_assoc,
        queue_step_conserves, ← List.append_assoc, ih, List.append_assoc]
      simp

/-- Two runs that push the same symbols and both end with no whole frame left
pop the same frames and keep the same remainder. -/
theorem queue_independent {first second : List (Request symbol)}
    (pushed : first.flatMap Request.pushed = second.flatMap Request.pushed)
    (firstStuck : format.Stuck ((queue format).final [] first))
    (secondStuck : format.Stuck ((queue format).final [] second)) :
    popped ((queue format).run [] first) = popped ((queue format).run [] second) ∧
      (queue format).final [] first = (queue format).final [] second := by
  apply Format.parse_unique (popped_isFrame [] first) (popped_isFrame [] second)
    firstStuck secondStuck
  rw [queue_conserves, queue_conserves, pushed]

end Framing
