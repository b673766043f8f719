import LibEsClient.Framing

/-! A queue of frames in so much room: what was popped keeps its place until the queue is
compacted, and a push that would go over the end is refused. -/

namespace Framing

open Machines

variable {symbol : Type}

structure Buffered (symbol : Type) where
  consumed : Nat
  pending : List symbol

inductive Operation (symbol : Type)
  | push (symbols : List symbol)
  | pop
  | compact

inductive Answer (symbol : Type)
  | pushed (taken : Bool)
  | popped (frame : Option (List symbol))
  | compacted

def boundedQueue (format : Format symbol) (capacity : Nat) :
    Machine (Buffered symbol) (Operation symbol) (Answer symbol) where
  step state
    | .push symbols =>
        if state.consumed + state.pending.length + symbols.length ≤ capacity then
          ({ state with pending := state.pending ++ symbols }, .pushed true)
        else (state, .pushed false)
    | .pop =>
        match format.next state.pending with
        | none => (state, .popped none)
        | some (frame, rest) =>
            ({ consumed := state.consumed + frame.length, pending := rest }, .popped (some frame))
    | .compact => ({ state with consumed := 0 }, .compacted)

def Buffered.Within (capacity : Nat) (state : Buffered symbol) : Prop :=
  state.consumed + state.pending.length ≤ capacity

variable {format : Format symbol} {capacity : Nat}

theorem Buffered.Within.step {state : Buffered symbol} (within : state.Within capacity)
    (operation : Operation symbol) :
    ((boundedQueue format capacity).step state operation).1.Within capacity := by
  cases operation with
  | push symbols =>
      simp only [boundedQueue]
      by_cases room : state.consumed + state.pending.length + symbols.length ≤ capacity
      · rw [if_pos room]
        simpa only [Within, List.length_append, Nat.add_assoc] using room
      · rw [if_neg room]
        exact within
  | pop =>
      simp only [boundedQueue]
      cases next : format.next state.pending with
      | none => exact within
      | some parts =>
          have split := (Format.next_some next).2
          simp only [Within] at within ⊢
          rw [split, List.length_append] at within
          omega
  | compact =>
      simp only [Within, boundedQueue] at within ⊢
      omega

/-! Filling up a frame. -/

/-- The first frame of a stream that begins so, with a filler for what is missing of it. -/
def Format.completed (format : Format symbol) (filler : symbol) (part : List symbol) :
    List symbol :=
  (part ++ List.replicate (format.size part - part.length) filler).take (format.size part)

section Completing

variable {filler : symbol} {part : List symbol}

@[simp] theorem Format.length_completed :
    (format.completed filler part).length = format.size part := by
  simp only [completed, List.length_take, List.length_append, List.length_replicate]
  omega

theorem Format.take_completed {count : Nat} (few : count ≤ part.length)
    (inside : count ≤ format.size part) :
    (format.completed filler part).take count = part.take count := by
  rw [completed, List.take_take, Nat.min_eq_left inside, List.take_append_of_le_length few]

theorem Format.completed_isFrame (header : format.headerLength ≤ part.length) :
    format.IsFrame (format.completed filler part) := by
  rw [IsFrame, length_completed, size, size, take_completed header (headerLength_le_size part)]

end Completing

/-! A frame that is larger than the room stays at the front for good. -/

/-- The size of the first frame is known, and there is no room for it. -/
structure Wedged (format : Format symbol) (capacity : Nat) (state : Buffered symbol) : Prop where
  within : state.Within capacity
  header : format.headerLength ≤ state.pending.length
  large : capacity < format.size state.pending

theorem Wedged.stuck {state : Buffered symbol} (wedged : Wedged format capacity state) :
    format.next state.pending = none := by
  refine (Format.next_none_iff _).mpr (Or.inr (Nat.lt_of_le_of_lt ?_ wedged.large))
  exact Nat.le_trans (Nat.le_add_left _ _) wedged.within

theorem Wedged.step {state : Buffered symbol} (wedged : Wedged format capacity state)
    (operation : Operation symbol) :
    Wedged format capacity ((boundedQueue format capacity).step state operation).1 ∧
      (∀ frame, ((boundedQueue format capacity).step state operation).2 ≠ .popped (some frame)) ∧
      state.pending <+: ((boundedQueue format capacity).step state operation).1.pending := by
  have within : Buffered.Within capacity ((boundedQueue format capacity).step state operation).1 :=
    wedged.within.step operation
  cases operation with
  | push symbols =>
      simp only [boundedQueue] at within ⊢
      by_cases room : state.consumed + state.pending.length + symbols.length ≤ capacity
      · rw [if_pos room] at within ⊢
        refine ⟨⟨within, ?_, ?_⟩, nofun, List.prefix_append _ _⟩
        · rw [List.length_append]
          exact Nat.le_add_right_of_le wedged.header
        · rw [Format.size_append symbols wedged.header]
          exact wedged.large
      · rw [if_neg room]
        exact ⟨wedged, nofun, List.prefix_refl _⟩
  | pop =>
      simp only [boundedQueue, wedged.stuck] at within ⊢
      exact ⟨wedged, nofun, List.prefix_refl _⟩
  | compact => exact ⟨⟨within, wedged.header, wedged.large⟩, nofun, List.prefix_refl _⟩

end Framing
