import Mathlib.Algebra.BigOperators.Group.List.Basic
import Hocuspocus.Lib.Run

/-!
# Runs that come to rest

Some steps of a system finish what others have begun. If each of them uses up
something that is counted (`Spends`), a run of such steps is no longer than the
count, and every state has one that cannot be continued. What is true where no
such step is enabled is true at the end of each of these runs, whatever their
order was.

Where the system has many parts, the count is a sum over them; `sum_set` says
what becomes of it when one part changes.
-/

namespace Lts

universe u v

variable {σ : Type u} {ℓ : Type v}

/-- The steps that meet `C` use up `rank`. -/
def Spends (step : σ → ℓ → Option σ) (C : σ → ℓ → Prop) (rank : σ → Nat) : Prop :=
  ∀ s l t, step s l = some t → C s l → rank t < rank s

/-- No step that meets `C` is enabled. -/
def Rests (step : σ → ℓ → Option σ) (C : σ → ℓ → Prop) (s : σ) : Prop :=
  ∀ l, C s l → step s l = none

variable {step : σ → ℓ → Option σ} {C : σ → ℓ → Prop} {rank : σ → Nat}

/-- A run of such steps is no longer than what they use up. -/
theorem Spends.length_le (h : Spends step C rank) : ∀ {ls : List ℓ} {s t : σ},
    Along step (fun s l _ => C s l) s ls → exec step s ls = some t →
      ls.length + rank t ≤ rank s := by
  intro ls
  induction ls with
  | nil =>
    intro s t _ hs
    rw [exec_nil, Option.some.injEq] at hs
    rw [hs, List.length_nil, Nat.zero_add]
  | cons l ls ih =>
    intro s t hC hs
    obtain ⟨u, hu, hrest⟩ := exec_cons.mp hs
    obtain ⟨hc, hC'⟩ := along_cons hC hu
    have hfirst := h s l u hu hc
    have hothers := ih hC' hrest
    rw [List.length_cons]
    omega

/-- Every state has a run of such steps that cannot be continued. -/
theorem Spends.rests (h : Spends step C rank) (s : σ) :
    ∃ ls t, Along step (fun s l _ => C s l) s ls ∧ exec step s ls = some t ∧ Rests step C t := by
  -- by induction on what is left to be used up
  induction hn : rank s using Nat.strong_induction_on generalizing s with
  | _ n ih =>
    by_cases hrests : Rests step C s
    · exact ⟨[], s, trivial, exec_nil s, hrests⟩
    · obtain ⟨l, hl⟩ := not_forall.mp hrests
      obtain ⟨hc, hstep⟩ := Classical.not_imp.mp hl
      obtain ⟨u, hu⟩ := Option.ne_none_iff_exists'.mp hstep
      obtain ⟨ls, t, hC, hrun, hend⟩ := ih (rank u) (hn ▸ h s l u hu hc) u rfl
      exact ⟨l :: ls, t, along_step hu hc hC, exec_cons.mpr ⟨u, hu, hrun⟩, hend⟩

/-- A sum over the parts when one of them changes. -/
theorem sum_set {α : Type u} (f : α → Nat) {l : List α} {i : Nat} {x : α} (h : l[i]? = some x)
    (y : α) : ((l.set i y).map f).sum + f x = (l.map f).sum + f y := by
  induction l generalizing i with
  | nil => cases h
  | cons z l ih =>
    cases i with
    | zero =>
      cases h
      rw [List.set_cons_zero, List.map_cons, List.map_cons, List.sum_cons, List.sum_cons]
      omega
    | succ i =>
      have hrest := ih (i := i) h
      rw [List.set_cons_succ, List.map_cons, List.map_cons, List.sum_cons, List.sum_cons]
      omega

end Lts
