/-!
# A bounded channel with a droppable receiver

The multi-producer channel of an asynchronous runtime: a sender never waits
(`trySend` answers at once whether the message was accepted, the buffer was
full, or the receiver is gone), the receiver takes messages in order (`recv`)
and may be dropped with messages still in the buffer (`close`). The capacity
bound is a field, so every channel in a model respects it.
-/

/-- What a non-blocking send reports. -/
inductive SendResult
  | accepted
  | full
  | closed
  deriving DecidableEq, Repr

structure Channel (α : Type) where
  cap : Nat
  items : List α
  closed : Bool
  bounded : items.length ≤ cap

namespace Channel

variable {α : Type}

/-- A fresh channel of the given capacity. -/
def fresh (cap : Nat) : Channel α := ⟨cap, [], false, Nat.zero_le _⟩

/-- Enqueue without waiting. -/
def trySend (c : Channel α) (a : α) : Channel α × SendResult :=
  if c.closed then (c, .closed)
  else if h : c.items.length < c.cap then
    ({ c with items := c.items ++ [a]
              bounded := by
                rw [List.length_append]
                exact h }, .accepted)
  else (c, .full)

/-- The receiver takes the oldest message. -/
def recv (c : Channel α) : Channel α :=
  { c with items := c.items.tail
           bounded := by
            have := c.bounded
            rw [List.length_tail]
            omega }

/-- The receiver is dropped, and what is buffered with it. -/
def close (c : Channel α) : Channel α :=
  { c with items := [], closed := true, bounded := Nat.zero_le _ }

/-- A send would be accepted now. -/
def hasRoom (c : Channel α) : Bool := !c.closed && decide (c.items.length < c.cap)

/-- A send would be refused now. -/
def isFull (c : Channel α) : Bool := !c.closed && !decide (c.items.length < c.cap)

/-- The free places. -/
def places (c : Channel α) : Nat := c.cap - c.items.length

theorem hasRoom_iff (c : Channel α) : c.hasRoom = true ↔ c.closed = false ∧ 0 < c.places := by
  have hsome : 0 < c.places ↔ c.items.length < c.cap := by
    rw [places]
    omega
  rw [hsome]
  simp [hasRoom]

theorem isFull_iff (c : Channel α) : c.isFull = true ↔ c.closed = false ∧ c.places = 0 := by
  have hnone : c.places = 0 ↔ ¬ c.items.length < c.cap := by
    rw [places]
    omega
  rw [hnone]
  simp [isFull]

theorem trySend_accepted_iff (c : Channel α) (a : α) :
    (c.trySend a).2 = .accepted ↔ c.hasRoom = true := by
  unfold trySend hasRoom
  cases c.closed with
  | true => simp
  | false =>
    by_cases h : c.items.length < c.cap
    · simp [h]
    · simp [h]

theorem trySend_full_iff (c : Channel α) (a : α) :
    (c.trySend a).2 = .full ↔ c.isFull = true := by
  unfold trySend isFull
  cases c.closed with
  | true => simp
  | false =>
    by_cases h : c.items.length < c.cap
    · simp [h]
    · simp [h]

/-- An accepted message is the new last one. -/
theorem trySend_items {c : Channel α} {a : α}
    (h : (c.trySend a).2 = .accepted) : (c.trySend a).1.items = c.items ++ [a] := by
  have hroom := (trySend_accepted_iff c a).mp h
  unfold hasRoom at hroom
  simp only [Bool.and_eq_true, Bool.not_eq_true', decide_eq_true_eq] at hroom
  unfold trySend
  rw [if_neg (by rw [hroom.1]; exact Bool.false_ne_true), dif_pos hroom.2]

/-- A message that is not accepted leaves the channel as it was. -/
theorem trySend_unchanged {c : Channel α} {a : α}
    (h : (c.trySend a).2 ≠ .accepted) : (c.trySend a).1 = c := by
  unfold trySend at h ⊢
  split
  next => rfl
  next hc =>
    rw [if_neg hc] at h
    split
    next hlt => rw [dif_pos hlt] at h; exact absurd rfl h
    next => rfl

theorem trySend_noRoom {c : Channel α} (a : α) (h : c.hasRoom = false) :
    (c.trySend a).1 = c := by
  refine trySend_unchanged fun hacc => ?_
  rw [(trySend_accepted_iff c a).mp hacc] at h
  cases h

end Channel
