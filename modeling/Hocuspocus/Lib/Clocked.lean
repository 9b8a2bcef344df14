import Mathlib.Data.List.Basic
import Mathlib.Data.Set.Basic

/-!
# Tables of clocked entries

A presence table keeps, for each client, the latest state it has announced
and the clock of the announcement; a client that is gone has an entry without
a state. Entries merge by rank: a later clock wins, and of two with the same
clock the one without a state does. `merge` keeps the old entry on a tie.

`Mirrors v t` says that a table `v` kept by someone who is sent updates shows
the same clients as the table `t` they are sent from. It allows `v` to have
missed entries without a state, and survives the three things that happen to
`t`: keys change and their new entries are sent, the whole table is sent, or
entries that show nobody are replaced by others that show nobody.
-/

namespace Clocked

universe u v

structure Entry (σ : Type v) where
  clock : Nat
  state : Option σ
  deriving DecidableEq, Repr

/-- Entries by key; `none` is a key never heard of. -/
abbrev Table (κ : Type u) (σ : Type v) := κ → Option (Entry σ)

variable {κ : Type u} {σ : Type v}

/-- The order in which entries replace one another. -/
def rank : Option (Entry σ) → Nat
  | none => 0
  | some e => 2 * e.clock + (if e.state.isSome then 1 else 2)

/-- The key is shown as present. -/
def present (e : Option (Entry σ)) : Bool := (e.bind Entry.state).isSome

theorem present_iff_rank (e : Option (Entry σ)) : present e = true ↔ rank e % 2 = 1 := by
  cases e with
  | none => simp [present, rank]
  | some e =>
    cases hs : e.state with
    | none =>
      have hrank : rank (some e) = 2 * e.clock + 2 := by simp [rank, hs]
      rw [hrank]
      simp [present, hs]
    | some s =>
      have hrank : rank (some e) = 2 * e.clock + 1 := by simp [rank, hs]
      rw [hrank]
      simp [present, hs]

theorem present_congr {e f : Option (Entry σ)} (h : rank e = rank f) :
    present e = present f := by
  rw [Bool.eq_iff_iff, present_iff_rank, present_iff_rank, h]

theorem rank_eq_zero {e : Option (Entry σ)} : rank e = 0 ↔ e = none := by
  cases e with
  | none => simp [rank]
  | some e =>
    simp only [rank, reduceCtorEq, iff_false]
    split <;> omega

/-- The newer entry, the old one on a tie. -/
def pick (old new : Option (Entry σ)) : Option (Entry σ) := if rank old < rank new then new else old

def Table.merge (t u : Table κ σ) : Table κ σ := fun k => pick (t k) (u k)

theorem rank_pick (old new : Option (Entry σ)) : rank (pick old new) = max (rank old) (rank new) := by
  unfold pick
  split <;> omega

theorem rank_merge (t u : Table κ σ) (k : κ) :
    rank (t.merge u k) = max (rank (t k)) (rank (u k)) := rank_pick _ _

theorem pick_none (e : Option (Entry σ)) : pick e none = e := by
  unfold pick
  rw [if_neg]
  simp [rank]

theorem pick_assoc (a b c : Option (Entry σ)) : pick (pick a b) c = pick a (pick b c) := by
  unfold pick
  by_cases hab : rank a < rank b
  · by_cases hbc : rank b < rank c
    · rw [if_pos hab, if_pos hbc, if_pos (by omega : rank a < rank c)]
    · rw [if_pos hab, if_neg hbc, if_pos hab]
  · by_cases hbc : rank b < rank c
    · rw [if_neg hab, if_pos hbc]
    · rw [if_neg hab, if_neg hbc, if_neg hab, if_neg (by omega)]

theorem Table.merge_of_none {t u : Table κ σ} {k : κ} (h : u k = none) : t.merge u k = t k := by
  unfold Table.merge
  rw [h, pick_none]

/-! ## Tables as sets of versions -/

/-- The versions of each key that the table has reached. -/
def Table.versions (t : Table κ σ) : Set (κ × Nat) := {p | p.2 ≤ rank (t p.1)}

theorem versions_subset {t t' : Table κ σ} :
    t.versions ⊆ t'.versions ↔ ∀ k, rank (t k) ≤ rank (t' k) := by
  constructor
  · intro h k
    exact @h (k, rank (t k)) (Nat.le_refl _)
  · exact fun h p hp => Nat.le_trans hp (h p.1)

theorem versions_merge (t u : Table κ σ) : (t.merge u).versions = t.versions ∪ u.versions := by
  ext p
  show p.2 ≤ rank (t.merge u p.1) ↔ p.2 ≤ rank (t p.1) ∨ p.2 ≤ rank (u p.1)
  rw [rank_merge]
  omega

/-- Tables that have reached the same versions show the same keys. -/
theorem present_of_versions {t t' : Table κ σ} (h : t.versions = t'.versions) (k : κ) :
    present (t k) = present (t' k) :=
  present_congr (Nat.le_antisymm (versions_subset.mp h.subset k)
    (versions_subset.mp h.symm.subset k))

/-! ## Mirrors -/

/-- `v` is behind `t` at most in keys that show nobody. -/
structure Mirrors (v t : Table κ σ) : Prop where
  behind : ∀ k, rank (v k) ≤ rank (t k)
  shown : ∀ k, present (v k) = true ∨ present (t k) = true → rank (v k) = rank (t k)

theorem Mirrors.present_eq {v t : Table κ σ} (h : Mirrors v t) (k : κ) :
    present (v k) = present (t k) := by
  rw [Bool.eq_iff_iff]
  constructor
  · intro hv
    rwa [← present_congr (h.shown k (Or.inl hv))]
  · intro ht
    rwa [present_congr (h.shown k (Or.inr ht))]

theorem Mirrors.refl (t : Table κ σ) : Mirrors t t := ⟨fun _ => Nat.le_refl _, fun _ _ => rfl⟩

/-- Nobody has been heard of on one side, and nobody is shown on the other. -/
theorem mirrors_empty {v t : Table κ σ} (hv : ∀ k, v k = none)
    (ht : ∀ k, present (t k) = false) : Mirrors v t := by
  refine ⟨fun k => ?_, fun k h => ?_⟩
  · rw [hv k]
    exact Nat.zero_le _
  · rcases h with h | h
    · rw [hv k] at h
      cases h
    · rw [ht k] at h
      cases h

/-- The table has advanced at some keys, and their entries are sent. -/
theorem Mirrors.sent {v t t' u : Table κ σ} (h : Mirrors v t)
    (hadvance : ∀ k, rank (t k) ≤ rank (t' k))
    (hsent : ∀ k, u k = t' k ∨ (u k = none ∧ t' k = t k)) : Mirrors (v.merge u) t' := by
  have hrank : ∀ k, (u k = t' k ∧ rank (v.merge u k) = rank (t' k)) ∨
      (t' k = t k ∧ rank (v.merge u k) = rank (v k)) := by
    intro k
    have hbehind := h.behind k
    have := hadvance k
    rcases hsent k with hk | ⟨hk, hsame⟩
    · refine Or.inl ⟨hk, ?_⟩
      rw [rank_merge, hk]
      omega
    · exact Or.inr ⟨hsame, congrArg rank (Table.merge_of_none hk)⟩
  refine ⟨fun k => ?_, fun k hshown => ?_⟩
  · rcases hrank k with ⟨_, hk⟩ | ⟨hsame, hk⟩
    · exact Nat.le_of_eq hk
    · rw [hk, hsame]
      exact h.behind k
  · rcases hrank k with ⟨_, hk⟩ | ⟨hsame, hk⟩
    · exact hk
    · rw [hk, hsame]
      rw [present_congr hk, hsame] at hshown
      exact h.shown k hshown

/-- The whole table is sent, entries that show nobody perhaps left out. -/
theorem Mirrors.snapshot {v t u : Table κ σ} (h : ∀ k, rank (v k) ≤ rank (t k))
    (hu : ∀ k, u k = t k ∨ (u k = none ∧ present (t k) = false))
    (hv : ∀ k, present (v k) = true → rank (v k) = rank (t k)) : Mirrors (v.merge u) t := by
  refine ⟨fun k => ?_, fun k hshown => ?_⟩
  · have := h k
    rw [rank_merge]
    rcases hu k with hk | ⟨hk, _⟩
    · rw [hk]
      omega
    · rw [hk, show rank (none : Option (Entry σ)) = 0 from rfl]
      omega
  · have hbehind := h k
    rcases hu k with hk | ⟨hk, hout⟩
    · rw [rank_merge, hk]
      omega
    · rw [Table.merge_of_none hk] at hshown ⊢
      rcases hshown with hshown | hshown
      · exact hv k hshown
      · rw [hout] at hshown
        cases hshown

/-- Entries that showed nobody have changed, and show nobody still. -/
theorem Mirrors.wiped {v t t' : Table κ σ} (h : Mirrors v t)
    (hadvance : ∀ k, rank (t k) ≤ rank (t' k))
    (hwiped : ∀ k, t' k = t k ∨ (present (t k) = false ∧ present (t' k) = false)) :
    Mirrors v t' := by
  refine ⟨fun k => Nat.le_trans (h.behind k) (hadvance k), fun k hshown => ?_⟩
  rcases hwiped k with hk | ⟨hout, hout'⟩
  · rw [hk] at hshown ⊢
    exact h.shown k hshown
  · rcases hshown with hshown | hshown
    · rw [h.present_eq k, hout] at hshown
      cases hshown
    · rw [hout'] at hshown
      cases hshown

end Clocked
