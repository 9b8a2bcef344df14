import Mathlib.Data.List.Infix

/-!
# The free places of a bounded buffer

A consumer takes from a buffer with a bounded number of places, and others put
into it. A take that finds the buffer empty takes nothing, and a put that finds it
full is refused, so the number of free places is a walk that is stopped at both
ends (`free`).

`relieved_iff` answers, from the list of moves alone, when a buffer that was full
has a place again: from some moment on more was taken than put, and from no later
moment on did the puts exceed the takes by the whole buffer. The first half is the
balance of the moves that count; the second is about a consumer that has emptied
the buffer, whose further takes do not count.
-/

namespace Slack

inductive Move
  | take
  | put
  deriving DecidableEq, Repr

/-- The free places after the moves, of a buffer that had `places` of them. -/
def free (cap : Nat) : Nat → List Move → Nat
  | places, [] => places
  | places, .take :: moves => free cap (min cap (places + 1)) moves
  | places, .put :: moves => free cap (places - 1) moves

theorem free_append (cap places : Nat) (before after : List Move) :
    free cap places (before ++ after) = free cap (free cap places before) after := by
  induction before generalizing places with
  | nil => rfl
  | cons m before ih => cases m <;> exact ih _

/-- From some moment on more is taken than put, and from no later moment on is the
whole buffer put in more than is taken. -/
def Relieved (cap : Nat) (moves : List Move) : Prop :=
  ∃ since ∈ moves.tails, since.count .put < since.count .take ∧
    ∀ later ∈ since.tails, later.count .put < later.count .take + cap

instance (cap : Nat) (moves : List Move) : Decidable (Relieved cap moves) :=
  inferInstanceAs (Decidable (∃ since ∈ moves.tails, _ ∧ _))

/-- Puts that never exceed the takes by the whole buffer. -/
def Bounded (cap : Nat) (moves : List Move) : Prop :=
  ∀ later ∈ moves.tails, later.count .put < later.count .take + cap

variable {cap places : Nat} {moves : List Move}

theorem Bounded.tail {m : Move} (h : Bounded cap (m :: moves)) : Bounded cap moves := fun later hl =>
  h later (by rw [List.tails_cons]; exact List.mem_cons_of_mem _ hl)

theorem Bounded.cons {m : Move} (h : Bounded cap moves)
    (hall : (m :: moves).count .put < (m :: moves).count .take + cap) : Bounded cap (m :: moves) := by
  intro later hl
  rw [List.tails_cons, List.mem_cons] at hl
  rcases hl with rfl | hl
  · exact hall
  · exact h later hl

/-- Enough is taken to make up for the places there were not. -/
theorem free_pos (hgains : moves.count .put < places + moves.count .take)
    (hbounded : Bounded cap moves) : 0 < free cap places moves := by
  induction moves generalizing places with
  | nil =>
    show 0 < places
    simpa using hgains
  | cons m moves ih =>
    have hrest : moves.count .put < moves.count .take + cap := hbounded.tail _ (by simp)
    cases m with
    | take =>
      refine ih ?_ hbounded.tail
      simp only [List.count_cons_self, List.count_cons_of_ne (show Move.take ≠ Move.put by decide)]
        at hgains
      omega
    | put =>
      refine ih ?_ hbounded.tail
      simp only [List.count_cons_self, List.count_cons_of_ne (show Move.put ≠ Move.take by decide)]
        at hgains
      omega

/-- A buffer with a place has had enough taken from the start, or has been
relieved since. -/
theorem relieved_of_free (hplaces : places ≤ cap) (hfree : 0 < free cap places moves) :
    (moves.count .put < places + moves.count .take ∧ Bounded cap moves) ∨ Relieved cap moves := by
  induction moves generalizing places with
  | nil =>
    have hpos : 0 < places := hfree
    refine Or.inl ⟨by simpa using hpos, fun later hl => ?_⟩
    obtain rfl : later = [] := by simpa using hl
    simpa using hpos.trans_le hplaces
  | cons m moves ih =>
    have hlater : Relieved cap moves → Relieved cap (m :: moves) := by
      rintro ⟨since, hsince, hboth⟩
      exact ⟨since, by rw [List.tails_cons]; exact List.mem_cons_of_mem _ hsince, hboth⟩
    cases m with
    | take =>
      rcases ih (min_le_left _ _) hfree with ⟨hgains, hbounded⟩ | hrelieved
      · have hall : (Move.take :: moves).count .put < places + (Move.take :: moves).count .take := by
          simp only [List.count_cons_self,
            List.count_cons_of_ne (show Move.take ≠ Move.put by decide)]
          omega
        exact Or.inl ⟨hall, hbounded.cons (by omega)⟩
      · exact Or.inr (hlater hrelieved)
    | put =>
      rcases ih (by omega) hfree with ⟨hgains, hbounded⟩ | hrelieved
      · by_cases hzero : places = 0
        · -- the put was refused: the buffer was full, and what came after has relieved it
          subst hzero
          exact Or.inr (hlater ⟨moves, by simp, by omega, hbounded⟩)
        · have hall : (Move.put :: moves).count .put < places + (Move.put :: moves).count .take := by
            simp only [List.count_cons_self,
              List.count_cons_of_ne (show Move.put ≠ Move.take by decide)]
            omega
          exact Or.inl ⟨hall, hbounded.cons (by omega)⟩
      · exact Or.inr (hlater hrelieved)

/-- What a buffer gains in the end it has. -/
theorem free_pos_of_relieved (h : Relieved cap moves) (places : Nat) :
    0 < free cap places moves := by
  obtain ⟨since, hsince, hgains, hbounded⟩ := h
  obtain ⟨before, rfl⟩ := (List.mem_tails since moves).mp hsince
  rw [free_append]
  exact free_pos (hgains.trans_le (Nat.le_add_left _ _)) hbounded

/-- **A full buffer has a place again** exactly when it was relieved. -/
theorem relieved_iff : 0 < free cap 0 moves ↔ Relieved cap moves := by
  refine ⟨fun h => ?_, fun h => free_pos_of_relieved h 0⟩
  rcases relieved_of_free (Nat.zero_le cap) h with ⟨hgains, hbounded⟩ | hrelieved
  · exact ⟨moves, by simp, by omega, hbounded⟩
  · exact hrelieved

/-- Without a take there is no relief. -/
theorem not_relieved (h : Move.take ∉ moves) : ¬ Relieved cap moves := by
  rintro ⟨since, hsince, hgains, _⟩
  have hsub := ((List.mem_tails since moves).mp hsince).subset
  have hnone : since.count .take = 0 := List.count_eq_zero.mpr fun hmem => h (hsub hmem)
  omega

end Slack
