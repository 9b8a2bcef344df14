import Mathlib.Logic.Relation
import Mathlib.Data.List.Basic

/-!
# Write-behind persistence

A value that only grows, kept in memory and saved behind the writer's back:
a background write takes a snapshot and reports later, a synchronous write
saves in place, and a flag says whether something may be unsaved. Both kinds
of write can fail. The value's order `le` is any preorder; nothing else is
known about it.

`Inv` is the invariant that makes the flag trustworthy: while it is down and
no background write is out, the saved value is the current one
(`Inv.saved_eq`); there is at most one write out (`Inv.one_flight`); and the
values handed to the store never go backwards (`Inv.mono`).
-/

namespace WriteBehind

universe u

structure State (α : Type u) where
  cur : α
  saved : α
  unsaved : Bool
  busy : Bool
  /-- Snapshots whose background write is out, and its reports not yet read. -/
  flight : List α
  reports : List Bool
  /-- Everything handed to the store, in order. -/
  handed : List α

variable {α : Type u} (le : α → α → Prop)

inductive Step : State α → State α → Prop
  | write (s : State α) (c : α) (h : le s.cur c) : Step s { s with cur := c, unsaved := true }
  | begin (s : State α) (hu : s.unsaved = true) (hb : s.busy = false) :
    Step s { s with
      unsaved := false, busy := true
      flight := s.flight ++ [s.cur], handed := s.handed ++ [s.cur] }
  | land (s : State α) (i : Nat) (v : α) (ok : Bool) (h : s.flight[i]? = some v) :
    Step s { s with
      saved := if ok then v else s.saved
      flight := s.flight.eraseIdx i, reports := s.reports ++ [ok] }
  | report (s : State α) (ok : Bool) (rest : List Bool) (h : s.reports = ok :: rest) :
    Step s { s with unsaved := s.unsaved || !ok, busy := false, reports := rest }
  | sync (s : State α) (ok : Bool) (hu : s.unsaved = true) (hb : s.busy = false) :
    Step s { s with
      saved := if ok then s.cur else s.saved
      unsaved := !ok, handed := s.handed ++ [s.cur] }

structure Inv (s : State α) : Prop where
  count : s.flight.length + s.reports.length = s.busy.toNat
  idle : s.unsaved = false → s.busy = false → s.saved = s.cur
  landing : s.unsaved = false → ∀ v ∈ s.flight, v = s.cur
  landed : s.unsaved = false → true ∈ s.reports → s.saved = s.cur
  flying : ∀ v ∈ s.flight, v ∈ s.handed ∧ le s.saved v
  below : ∀ v ∈ s.handed, le v s.cur
  saved_le : le s.saved s.cur
  mono : s.handed.Pairwise le

variable {le}

/-- The flag is down and no write is out: everything is saved. -/
theorem Inv.saved_eq {s : State α} (h : Inv le s) (hu : s.unsaved = false) (hb : s.busy = false) :
    s.saved = s.cur := h.idle hu hb

theorem Inv.one_flight {s : State α} (h : Inv le s) : s.flight.length ≤ 1 := by
  have hc := h.count
  have := s.busy.toNat_le
  omega

/-- No write is out while the store is not busy. -/
theorem Inv.quiet {s : State α} (h : Inv le s) (hb : s.busy = false) :
    s.flight = [] ∧ s.reports = [] := by
  have hc := h.count
  rw [hb, Bool.toNat_false] at hc
  exact ⟨List.length_eq_zero_iff.mp (by omega), List.length_eq_zero_iff.mp (by omega)⟩

/-- A report to be read is the only one, and no write is out with it. -/
theorem Inv.reports_eq {s : State α} (h : Inv le s) {ok : Bool} {rest : List Bool}
    (hr : s.reports = ok :: rest) : s.flight = [] ∧ rest = [] := by
  have hc := h.count
  have := s.busy.toNat_le
  rw [hr, List.length_cons] at hc
  exact ⟨List.length_eq_zero_iff.mp (by omega), List.length_eq_zero_iff.mp (by omega)⟩

/-- A write that is out is the only one. -/
theorem Inv.flight_eq {s : State α} (h : Inv le s) {i : Nat} {v : α} (hi : s.flight[i]? = some v) :
    s.flight = [v] ∧ i = 0 ∧ s.reports = [] ∧ s.busy = true := by
  have hc := h.count
  have hb := s.busy.toNat_le
  obtain ⟨hlt, hv⟩ := List.getElem?_eq_some_iff.mp hi
  have hi0 : i = 0 := by omega
  subst hi0
  have hlen : s.flight.length = 1 := by omega
  obtain ⟨u, hu⟩ := List.length_eq_one_iff.mp hlen
  refine ⟨?_, rfl, List.length_eq_zero_iff.mp (by omega), ?_⟩
  · rw [hu, List.getElem?_cons_zero, Option.some.injEq] at hi
    rw [hu, hi]
  · cases hbusy : s.busy with
    | true => rfl
    | false =>
      rw [hbusy, Bool.toNat_false] at hc
      omega

theorem pairwise_snoc {l : List α} {a : α} (hl : l.Pairwise le) (ha : ∀ v ∈ l, le v a) :
    (l ++ [a]).Pairwise le := by
  rw [List.pairwise_append]
  refine ⟨hl, List.pairwise_singleton _ _, ?_⟩
  intro v hv w hw
  rw [List.mem_singleton] at hw
  exact hw ▸ ha v hv

/-- Every step keeps the invariant. -/
theorem Step.inv (hrefl : ∀ a, le a a) (htrans : ∀ a b c, le a b → le b c → le a c)
    {s t : State α} (hstep : Step le s t) (h : Inv le s) : Inv le t := by
  cases hstep with
  | write c hc =>
    refine ⟨h.count, nofun, nofun, nofun, h.flying, ?_, htrans _ _ _ h.saved_le hc, h.mono⟩
    exact fun v hv => htrans _ _ _ (h.below v hv) hc
  | begin hu hb =>
    obtain ⟨hf, hr⟩ := h.quiet hb
    have hbelow : ∀ v ∈ s.handed ++ [s.cur], le v s.cur := by
      intro v hv
      rcases List.mem_append.mp hv with hv | hv
      · exact h.below v hv
      · exact (List.mem_singleton.mp hv) ▸ hrefl _
    refine ⟨by simp [hf, hr], nofun, ?_, ?_, ?_, hbelow, h.saved_le,
      pairwise_snoc h.mono h.below⟩
    · intro _ v hv
      simpa [hf] using hv
    · intro _ ht
      simp [hr] at ht
    · intro v hv
      have hv' : v = s.cur := by simpa [hf] using hv
      subst hv'
      exact ⟨List.mem_append.mpr (Or.inr (List.mem_singleton.mpr rfl)), h.saved_le⟩
  | land i v ok hi =>
    -- at most one save is in flight, so this is the one
    obtain ⟨hf, rfl, hr, hb⟩ := h.flight_eq hi
    have hv : v ∈ s.flight := by simp [hf]
    refine ⟨by simp [hf, hr, hb], ?_, ?_, ?_, ?_, h.below, ?_, h.mono⟩
    · intro _ hbusy
      rw [show s.busy = false from hbusy] at hb
      cases hb
    · intro _ x hx
      simp [hf] at hx
    · intro hu hmem
      have hok : ok = true := by simpa [hr] using hmem
      rw [hok, if_pos rfl]
      exact h.landing hu v hv
    · intro x hx
      simp [hf] at hx
    · cases ok with
      | true => exact h.below v (h.flying v hv).1
      | false => exact h.saved_le
  | report ok rest hr =>
    -- the report is the only one, and no save is in flight
    obtain ⟨hf, rfl⟩ := h.reports_eq hr
    refine ⟨by simp [hf], ?_, ?_, ?_, ?_, h.below, h.saved_le, h.mono⟩
    · intro hu _
      have hu' : s.unsaved = false ∧ ok = true := by simpa using hu
      exact h.landed hu'.1 (by simp [hr, hu'.2])
    · intro _ v hv
      simp [hf] at hv
    · intro _ ht
      simp at ht
    · intro v hv
      simp [hf] at hv
  | sync ok hu hb =>
    obtain ⟨hf, hr⟩ := h.quiet hb
    refine ⟨by simp [hf, hr, hb], ?_, ?_, ?_, ?_, ?_, ?_, pairwise_snoc h.mono h.below⟩
    · intro hok _
      have hok' : ok = true := by simpa using hok
      exact if_pos hok'
    · intro _ v hv
      simp [hf] at hv
    · intro _ ht
      simp [hr] at ht
    · intro v hv
      simp [hf] at hv
    · intro v hv
      rcases List.mem_append.mp hv with hv | hv
      · exact h.below v hv
      · exact (List.mem_singleton.mp hv) ▸ hrefl _
    · cases ok with
      | true => exact hrefl _
      | false => exact h.saved_le

/-- A value just read back from the store. -/
def State.start (v : α) : State α := ⟨v, v, false, false, [], [], []⟩

theorem inv_start (hrefl : ∀ a, le a a) (v : α) : Inv le (State.start v) :=
  ⟨rfl, fun _ _ => rfl, nofun, nofun, nofun, nofun, hrefl v, List.Pairwise.nil⟩

end WriteBehind
