import Mathlib.Data.List.Basic

/-!
# A key with a lease

One key of a store with expiry, as a lock is kept in: its value is the token
of whoever has set it, and after its deadline it counts as absent. The two
operations are atomic: `setNx` sets it if it is absent, `delIf` deletes it if
it still has the given value. The results say who has the key after each of
them.
-/

namespace Lease

universe u

variable {α : Type u}

/-- The value and its deadline; `none` is a key that was never set or was
deleted. -/
abbrev Key (α : Type u) := Option (α × Nat)

/-- The value at a time. -/
def Key.live (k : Key α) (now : Nat) : Option α :=
  k.bind fun held => if now < held.2 then some held.1 else none

/-- Set the key for `px` time units if it is absent, and tell whether it was
set. A lease of no time is refused. -/
def Key.setNx (k : Key α) (now px : Nat) (v : α) : Key α × Bool :=
  if px = 0 ∨ (k.live now).isSome then (k, false) else (some (v, now + px), true)

/-- Delete the key if it has this value. -/
def Key.delIf [DecidableEq α] (k : Key α) (now : Nat) (v : α) : Key α :=
  if k.live now = some v then none else k

theorem Key.live_eq_some {k : Key α} {now : Nat} {v : α} :
    k.live now = some v ↔ ∃ deadline, k = some (v, deadline) ∧ now < deadline := by
  cases k with
  | none => simp [Key.live]
  | some held =>
    obtain ⟨w, deadline⟩ := held
    simp only [Key.live, Option.bind_some]
    constructor
    · intro h
      split at h
      next hlt =>
        cases h
        exact ⟨deadline, rfl, hlt⟩
      next => cases h
    · rintro ⟨_, heq, hlt⟩
      cases heq
      exact if_pos hlt

/-- Whoever sets the key has it, and nobody had it before. -/
theorem Key.setNx_true {k : Key α} {now px : Nat} {v : α} (h : (k.setNx now px v).2 = true) :
    k.live now = none ∧ (k.setNx now px v).1.live now = some v := by
  unfold Key.setNx at h ⊢
  split at h
  next => cases h
  next hfree =>
    rw [not_or, Option.isSome_iff_ne_none, not_not] at hfree
    rw [if_neg (by rw [not_or, Option.isSome_iff_ne_none, not_not]; exact hfree)]
    exact ⟨hfree.2, Key.live_eq_some.mpr ⟨_, rfl, by omega⟩⟩

theorem Key.setNx_false {k : Key α} {now px : Nat} {v : α} (h : (k.setNx now px v).2 = false) :
    (k.setNx now px v).1 = k := by
  unfold Key.setNx at h ⊢
  split at h
  next hheld => rw [if_pos hheld]
  next => cases h

/-- A deletion for another value leaves the key alone. -/
theorem Key.live_delIf [DecidableEq α] {k : Key α} {now : Nat} {v w : α}
    (h : k.live now = some v) (hne : w ≠ v) : (k.delIf now w).live now = some v := by
  unfold Key.delIf
  rw [if_neg]
  · exact h
  · rw [h, Option.some.injEq]
    exact hne.symm

/-! ## For how long a value has the key -/

/-- The value has the key up to the deadline; after that it may be gone, and then
it is gone for good. -/
def Key.Leased (k : Key α) (now : Nat) (v : α) (deadline : Nat) : Prop :=
  k = some (v, deadline) ∨ (deadline ≤ now ∧ ∀ w d, k = some (w, d) → w ≠ v)

theorem Key.Leased.live_iff {k : Key α} {now deadline : Nat} {v : α}
    (h : k.Leased now v deadline) : k.live now = some v ↔ now < deadline := by
  rw [Key.live_eq_some]
  constructor
  · intro hlive
    obtain ⟨d, hkey, hlt⟩ := hlive
    rcases h with hmine | ⟨_, hgone⟩
    · rw [hmine] at hkey
      cases hkey
      exact hlt
    · exact absurd rfl (hgone v d hkey)
  · intro hlt
    rcases h with hmine | ⟨hover, _⟩
    · exact ⟨deadline, hmine, hlt⟩
    · omega

theorem Key.Leased.wait {k : Key α} {now deadline : Nat} {v : α} (h : k.Leased now v deadline)
    (time : Nat) : k.Leased (now + time) v deadline := by
  rcases h with hmine | ⟨hover, hgone⟩
  · exact Or.inl hmine
  · exact Or.inr ⟨by omega, hgone⟩

/-- Another value gets the key only when the lease is over. -/
theorem Key.Leased.setNx {k : Key α} {now deadline : Nat} {v w : α} (h : k.Leased now v deadline)
    (hne : w ≠ v) (px : Nat) : (k.setNx now px w).1.Leased now v deadline := by
  unfold Key.setNx
  split
  next => exact h
  next hfree =>
    rw [not_or, Option.isSome_iff_ne_none, not_not] at hfree
    have hover : ¬ now < deadline := fun hlt => by
      have hmine := h.live_iff.mpr hlt
      rw [hfree.2] at hmine
      cases hmine
    refine Or.inr ⟨by omega, fun u d hkey => ?_⟩
    cases hkey
    exact hne

theorem Key.Leased.delIf [DecidableEq α] {k : Key α} {now deadline : Nat} {v w : α}
    (h : k.Leased now v deadline) (hne : w ≠ v) : (k.delIf now w).Leased now v deadline := by
  unfold Key.delIf
  split
  next hlive =>
    have hover : ¬ now < deadline := fun hlt => by
      have hmine := h.live_iff.mpr hlt
      rw [hlive] at hmine
      exact hne (Option.some.inj hmine)
    exact Or.inr ⟨by omega, fun u d hkey => by cases hkey⟩
  next => exact h

/-- The deletion of the value ends its lease. -/
theorem Key.Leased.delIf_self [DecidableEq α] {k : Key α} {now deadline : Nat} {v : α}
    (h : k.Leased now v deadline) : ∃ d, d ≤ now ∧ (k.delIf now v).Leased now v d := by
  unfold Key.delIf
  split
  next => exact ⟨0, Nat.zero_le _, Or.inr ⟨Nat.zero_le _, fun u d hkey => by cases hkey⟩⟩
  next hlive =>
    refine ⟨deadline, ?_, h⟩
    rw [h.live_iff] at hlive
    omega

theorem Key.setNx_leased {k : Key α} {now px : Nat} {v : α} (h : (k.setNx now px v).2 = true) :
    (k.setNx now px v).1.Leased now v (now + px) := by
  unfold Key.setNx at h ⊢
  split at h
  next => cases h
  next hfree =>
    rw [if_neg hfree]
    exact Or.inl rfl

end Lease
