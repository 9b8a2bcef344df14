import Mathlib.Algebra.Ring.Nat

/-!
# Runs of a partial, labelled step function

A transition system is given by `step : σ → ℓ → Option σ`; a label carries
every choice the system does not make itself, so a run is determined by its
first state and its labels. `exec` executes a list of labels, `Along` says
that a property of single transitions holds at every transition of a run.

The induction over runs is done here once: `exec_invariant` for a property
every step preserves, `exec_invariant_along` for one that is preserved by the
steps that meet a side condition, `along_of_invariant` for a property of
transitions that holds wherever an invariant does.
-/

namespace Lts

universe u v

variable {σ : Type u} {ℓ : Type v} (step : σ → ℓ → Option σ)

/-- Execute the labels in order; `none` as soon as one is not enabled. -/
def exec : σ → List ℓ → Option σ
  | s, [] => some s
  | s, l :: ls => (step s l).bind fun t => exec t ls

/-- Every transition the run takes satisfies `P` (state before, label, state
after). -/
def Along (P : σ → ℓ → σ → Prop) : σ → List ℓ → Prop
  | _, [] => True
  | s, l :: ls => ∀ t, step s l = some t → P s l t ∧ Along P t ls

/-- Where the labels lead, if they are enabled. -/
def reach (s : σ) (ls : List ℓ) : σ := (exec step s ls).getD s

/-- Run the labels, and test every transition by its first state and label. -/
def check (test : σ → ℓ → Bool) : σ → List ℓ → Bool
  | _, [] => true
  | s, l :: ls => test s l && ((step s l).elim true fun t => check test t ls)

/-- What a run writes down; `note` says what is written at a transition. -/
def record {α : Type} (note : σ → ℓ → List α) : σ → List ℓ → List α
  | _, [] => []
  | s, l :: ls => note s l ++ (step s l).elim [] fun t => record note t ls

variable {step}

@[simp] theorem exec_nil (s : σ) : exec step s [] = some s := rfl

theorem exec_cons {s t : σ} {l : ℓ} {ls : List ℓ} :
    exec step s (l :: ls) = some t ↔
      ∃ u, step s l = some u ∧ exec step u ls = some t := by
  rw [exec, Option.bind_eq_some_iff]

theorem exec_append {s t : σ} : ∀ {ls₁ ls₂ : List ℓ},
    exec step s (ls₁ ++ ls₂) = some t ↔
      ∃ u, exec step s ls₁ = some u ∧ exec step u ls₂ = some t := by
  intro ls₁
  induction ls₁ generalizing s with
  | nil => simp
  | cons l ls ih =>
    intro ls₂
    rw [List.cons_append, exec_cons]
    constructor
    · rintro ⟨u, hu, hrest⟩
      obtain ⟨v, hv, hend⟩ := ih.mp hrest
      exact ⟨v, exec_cons.mpr ⟨u, hu, hv⟩, hend⟩
    · rintro ⟨v, hv, hend⟩
      obtain ⟨u, hu, hrest⟩ := exec_cons.mp hv
      exact ⟨u, hu, ih.mpr ⟨v, hrest, hend⟩⟩

theorem exec_snoc {s t : σ} {ls : List ℓ} {l : ℓ} :
    exec step s (ls ++ [l]) = some t ↔
      ∃ u, exec step s ls = some u ∧ step u l = some t := by
  rw [exec_append]
  simp only [exec_cons, exec_nil, Option.some.injEq, exists_eq_right]

theorem exec_reach {s : σ} {ls : List ℓ} (h : (exec step s ls).isSome = true) :
    exec step s ls = some (reach step s ls) := by
  obtain ⟨t, ht⟩ := Option.isSome_iff_exists.mp h
  rw [reach, ht]
  rfl

theorem step_reach {s : σ} {l : ℓ} (h : (exec step s [l]).isSome = true) :
    step s l = some (reach step s [l]) := by
  obtain ⟨t, ht, hend⟩ := exec_cons.mp (exec_reach h)
  rw [exec_nil] at hend
  rw [ht, hend]

/-- A property every step preserves holds at the end of every run that
starts in it. -/
theorem exec_invariant {I : σ → Prop}
    (hstep : ∀ s l t, step s l = some t → I s → I t) :
    ∀ {ls : List ℓ} {s t : σ}, exec step s ls = some t → I s → I t := by
  intro ls
  induction ls with
  | nil =>
    intro s t h hs
    rw [exec_nil, Option.some.injEq] at h
    exact h ▸ hs
  | cons l ls ih =>
    intro s t h hs
    obtain ⟨u, hu, hrest⟩ := exec_cons.mp h
    exact ih hrest (hstep s l u hu hs)

theorem along_cons {P : σ → ℓ → σ → Prop} {s t : σ} {l : ℓ} {ls : List ℓ}
    (h : Along step P s (l :: ls)) (hs : step s l = some t) :
    P s l t ∧ Along step P t ls :=
  h t hs

/-- The transition is the only one its label allows. -/
theorem along_step {P : σ → ℓ → σ → Prop} {s t : σ} {l : ℓ} {ls : List ℓ}
    (hs : step s l = some t) (hp : P s l t) (h : Along step P t ls) : Along step P s (l :: ls) := by
  intro u hu
  obtain rfl : t = u := Option.some.inj (hs.symm.trans hu)
  exact ⟨hp, h⟩

/-- A run in two parts. -/
theorem along_append {P : σ → ℓ → σ → Prop} {ls₁ ls₂ : List ℓ} {s t : σ}
    (hs : exec step s ls₁ = some t) :
    Along step P s (ls₁ ++ ls₂) ↔ Along step P s ls₁ ∧ Along step P t ls₂ := by
  induction ls₁ generalizing s with
  | nil =>
    rw [exec_nil, Option.some.injEq] at hs
    subst hs
    exact ⟨fun h => ⟨trivial, h⟩, fun h => h.2⟩
  | cons l ls ih =>
    obtain ⟨u, hu, hrest⟩ := exec_cons.mp hs
    constructor
    · intro h
      obtain ⟨hp, hall⟩ := along_cons h hu
      obtain ⟨hleft, hright⟩ := (ih hrest).mp hall
      exact ⟨along_step hu hp hleft, hright⟩
    · rintro ⟨hleft, hright⟩
      obtain ⟨hp, hleft'⟩ := along_cons hleft hu
      exact along_step hu hp ((ih hrest).mpr ⟨hleft', hright⟩)

theorem along_and {P Q : σ → ℓ → σ → Prop} : ∀ {ls : List ℓ} {s : σ}, Along step P s ls →
    Along step Q s ls → Along step (fun s l t => P s l t ∧ Q s l t) s ls := by
  intro ls
  induction ls with
  | nil => intro _ _ _; trivial
  | cons l ls ih =>
    intro s hP hQ t ht
    obtain ⟨hp, hP'⟩ := along_cons hP ht
    obtain ⟨hq, hQ'⟩ := along_cons hQ ht
    exact ⟨⟨hp, hq⟩, ih hP' hQ'⟩

theorem along_of_check {test : σ → ℓ → Bool} {P : σ → ℓ → σ → Prop}
    (hP : ∀ s l t, test s l = true → P s l t) :
    ∀ {ls : List ℓ} {s : σ}, check step test s ls = true → Along step P s ls := by
  intro ls
  induction ls with
  | nil => intro _ _; trivial
  | cons l ls ih =>
    intro s h t ht
    rw [check, Bool.and_eq_true, ht] at h
    exact ⟨hP s l t h.1, ih h.2⟩

/-- What holds along a run holds at the step it ends with. -/
theorem along_last {P : σ → ℓ → σ → Prop} {s t u : σ} {ls : List ℓ} {l : ℓ}
    (h : Along step P s (ls ++ [l])) (hs : exec step s ls = some t) (hl : step t l = some u) :
    P t l u := by
  induction ls generalizing s with
  | nil =>
    rw [exec_nil, Option.some.injEq] at hs
    subst hs
    exact (along_cons h hl).1
  | cons k ls ih =>
    obtain ⟨v, hv, hrest⟩ := exec_cons.mp hs
    exact ih (along_cons h hv).2 hrest

/-- Conditional form: the steps that meet `C` preserve `I`, and every step
of the run meets `C`. -/
theorem exec_invariant_along {C : σ → ℓ → σ → Prop} {I : σ → Prop}
    (hstep : ∀ s l t, step s l = some t → C s l t → I s → I t) :
    ∀ {ls : List ℓ} {s t : σ}, Along step C s ls → exec step s ls = some t →
      I s → I t := by
  intro ls
  induction ls with
  | nil =>
    intro s t _ h hs
    rw [exec_nil, Option.some.injEq] at h
    exact h ▸ hs
  | cons l ls ih =>
    intro s t hC h hs
    obtain ⟨u, hu, hrest⟩ := exec_cons.mp h
    obtain ⟨hc, hC'⟩ := along_cons hC hu
    exact ih hC' hrest (hstep s l u hu hc hs)

/-- A property of the state and of what was written down so far. -/
theorem exec_record {α : Type} {note : σ → ℓ → List α} {C : σ → ℓ → σ → Prop}
    {I : σ → List α → Prop}
    (hstep : ∀ s l t w, step s l = some t → C s l t → I s w → I t (w ++ note s l)) :
    ∀ {ls : List ℓ} {s t : σ} {w : List α}, Along step C s ls → exec step s ls = some t →
      I s w → I t (w ++ record step note s ls) := by
  intro ls
  induction ls with
  | nil =>
    intro s t w _ h hs
    rw [exec_nil, Option.some.injEq] at h
    rw [record, List.append_nil]
    exact h ▸ hs
  | cons l ls ih =>
    intro s t w hC h hs
    obtain ⟨u, hu, hrest⟩ := exec_cons.mp h
    obtain ⟨hc, hC'⟩ := along_cons hC hu
    have hend := ih hC' hrest (hstep s l u w hu hc hs)
    rw [List.append_assoc] at hend
    rw [record, hu]
    exact hend

/-- A property of the state and of two things that were written down so far. -/
theorem exec_records {α β : Type} {note : σ → ℓ → List α} {note' : σ → ℓ → List β}
    {I : σ → List α → List β → Prop}
    (hstep : ∀ s l t v w, step s l = some t → I s v w → I t (v ++ note s l) (w ++ note' s l)) :
    ∀ {ls : List ℓ} {s t : σ} {v : List α} {w : List β}, exec step s ls = some t → I s v w →
      I t (v ++ record step note s ls) (w ++ record step note' s ls) := by
  intro ls
  induction ls with
  | nil =>
    intro s t v w h hs
    rw [exec_nil, Option.some.injEq] at h
    rw [record, record, List.append_nil, List.append_nil]
    exact h ▸ hs
  | cons l ls ih =>
    intro s t v w h hs
    obtain ⟨u, hu, hrest⟩ := exec_cons.mp h
    have hend := ih hrest (hstep s l u v w hu hs)
    rw [List.append_assoc, List.append_assoc] at hend
    rw [record, record, hu]
    exact hend

/-- What every step pays for, the run pays for: a debt that a step raises by
no more than its label costs. -/
theorem exec_ledger {debt : σ → Nat} {cost : ℓ → Nat}
    (hstep : ∀ s l t, step s l = some t → debt t ≤ debt s + cost l) :
    ∀ {ls : List ℓ} {s t : σ}, exec step s ls = some t → debt t ≤ debt s + (ls.map cost).sum := by
  intro ls
  induction ls with
  | nil =>
    intro s t h
    rw [exec_nil, Option.some.injEq] at h
    rw [h]
    exact Nat.le_add_right _ _
  | cons l ls ih =>
    intro s t h
    obtain ⟨u, hu, hrest⟩ := exec_cons.mp h
    have hfirst := hstep s l u hu
    have hothers := ih hrest
    rw [List.map_cons, List.sum_cons]
    omega

/-- Where the steps meeting `C` preserve `I`, and every such step from
`I` satisfies `P`, every transition of a run meeting `C` satisfies `P`. -/
theorem along_of_invariant {C P : σ → ℓ → σ → Prop} {I : σ → Prop}
    (hstep : ∀ s l t, step s l = some t → C s l t → I s → I t)
    (hP : ∀ s l t, step s l = some t → C s l t → I s → P s l t) :
    ∀ {ls : List ℓ} {s : σ}, Along step C s ls → I s → Along step P s ls := by
  intro ls
  induction ls with
  | nil => intro _ _ _; trivial
  | cons l ls ih =>
    intro s hC hs t ht
    obtain ⟨hc, hC'⟩ := along_cons hC ht
    exact ⟨hP s l t ht hc hs, ih hC' (hstep s l t ht hc hs)⟩

/-- A run satisfies `P` at every transition as soon as each single step does. -/
theorem along_of_forall {P : σ → ℓ → σ → Prop}
    (hP : ∀ s l t, step s l = some t → P s l t) (ls : List ℓ) (s : σ) :
    Along step P s ls := by
  induction ls generalizing s with
  | nil => trivial
  | cons l ls ih => exact fun t ht => ⟨hP s l t ht, ih t⟩

/-- A property of labels holds along every run of labels that have it. -/
theorem along_of_labels {P : ℓ → Prop} {ls : List ℓ} (h : ∀ l ∈ ls, P l) (s : σ) :
    Along step (fun _ l _ => P l) s ls := by
  induction ls generalizing s with
  | nil => trivial
  | cons l ls ih =>
    exact fun t _ => ⟨h l (List.mem_cons_self ..),
      ih (fun l' hl' => h l' (List.mem_cons_of_mem _ hl')) t⟩

/-- Two transition properties that agree on every step agree along every
run. -/
theorem along_congr {P Q : σ → ℓ → σ → Prop}
    (h : ∀ s l t, step s l = some t → (P s l t ↔ Q s l t)) :
    ∀ (ls : List ℓ) (s : σ), Along step P s ls ↔ Along step Q s ls := by
  intro ls
  induction ls with
  | nil => intro _; exact Iff.rfl
  | cons l ls ih =>
    intro s
    constructor
    · intro hP t ht
      exact ⟨(h s l t ht).mp (hP t ht).1, (ih t).mp (hP t ht).2⟩
    · intro hQ t ht
      exact ⟨(h s l t ht).mpr (hQ t ht).1, (ih t).mpr (hQ t ht).2⟩

/-- Forward simulation: where each step of one system that meets `C` is matched by a
step of another one that meets `D`, so is each run. -/
theorem exec_simulated {τ : Type u} {κ : Type v} {step' : τ → κ → Option τ} {R : σ → τ → Prop}
    {C : σ → ℓ → σ → Prop} {D : τ → κ → τ → Prop}
    (hstep : ∀ s l t p, step s l = some t → C s l t → R s p →
      ∃ k q, step' p k = some q ∧ D p k q ∧ R t q) :
    ∀ {ls : List ℓ} {s t : σ} {p : τ}, Along step C s ls → exec step s ls = some t → R s p →
      ∃ ks q, exec step' p ks = some q ∧ Along step' D p ks ∧ R t q := by
  intro ls
  induction ls with
  | nil =>
    intro s t p _ h hp
    rw [exec_nil, Option.some.injEq] at h
    exact ⟨[], p, rfl, trivial, h ▸ hp⟩
  | cons l ls ih =>
    intro s t p hC h hp
    obtain ⟨u, hu, hrest⟩ := exec_cons.mp h
    obtain ⟨hc, hC'⟩ := along_cons hC hu
    obtain ⟨k, q, hk, hd, hq⟩ := hstep s l u p hu hc hp
    obtain ⟨ks, r, hks, hD, hr⟩ := ih hC' hrest hq
    exact ⟨k :: ks, r, exec_cons.mpr ⟨q, hk, hks⟩, along_step hk hd hD, hr⟩

end Lts
