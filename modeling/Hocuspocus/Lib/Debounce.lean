import Mathlib.Logic.Relation
import Mathlib.Data.List.Basic
import Mathlib.Order.Lattice

/-!
# Debounced saves and their retries

Changes are saved some time after they were made: the timer is set for a while
after the last change (`debounce`), but for no later than a while after the first
(`max`). An attempt runs in the background and reports when it has ended, or it
is made in place. A background attempt that failed marks the changes again.

After a failure the next attempt has to wait for `gap`, the shorter of the two
whiles. `Step` has the conditions under which it does: an attempt begins when the
timer is due or every failure is `gap` ago, one that is made in place does not
fail, and when a failure is reported, the changes made meanwhile are young enough.
`Inv` is the invariant of these steps, and `Inv.spaced` the result.
-/

namespace Debounce

inductive Event
  | begun
  | ended (ok : Bool)
  deriving DecidableEq, Repr

structure Limits where
  debounce : Nat
  max : Nat

def Limits.gap (c : Limits) : Nat := min c.debounce c.max

/-- `marks` are the first and the last change that is not saved; `job` is the
background attempt, with its report when it has ended. -/
structure State where
  now : Nat
  marks : Option (Nat × Nat)
  job : Option (Option Bool)
  log : List (Nat × Event)

/-- From a failure to the next beginning it takes the gap. -/
def Spaced (gap : Nat) (log : List (Nat × Event)) : Prop :=
  log.Pairwise fun e f => e.2 = .ended false → f.2 = .begun → e.1 + gap ≤ f.1

instance (gap : Nat) (log : List (Nat × Event)) : Decidable (Spaced gap log) :=
  inferInstanceAs (Decidable (List.Pairwise _ log))

namespace State

/-- What the timer is set for. -/
def due (c : Limits) (s : State) : Option Nat :=
  s.marks.map fun m => min (m.2 + c.debounce) (m.1 + c.max)

def mark (s : State) : State :=
  { s with marks := some ((s.marks.map Prod.fst).getD s.now, s.now) }

def note (s : State) (e : Event) : State := { s with log := s.log ++ [(s.now, e)] }

/-- Every failure is a gap ago. -/
def Rested (c : Limits) (s : State) : Prop := ∀ t, (t, .ended false) ∈ s.log → t + c.gap ≤ s.now

/-- An attempt may begin. -/
def Ready (c : Limits) (s : State) : Prop := (∃ d, s.due c = some d ∧ d ≤ s.now) ∨ s.Rested c

end State

inductive Step (c : Limits) : State → State → Prop
  | wait (s : State) (time : Nat) : Step c s { s with now := s.now + time }
  | change (s : State) : Step c s s.mark
  | begin (s : State) (hjob : s.job = none) (hready : s.Ready c) :
    Step c s (State.note { s with marks := none, job := some none } .begun)
  | land (s : State) (ok : Bool) (hjob : s.job = some none) :
    Step c s (State.note { s with job := some (some ok) } (.ended ok))
  | report (s : State) (hjob : s.job = some (some true)) : Step c s { s with job := none }
  | rearm (s : State) (hjob : s.job = some (some false))
    (hfirst : ∀ first last t, s.marks = some (first, last) → (t, .ended false) ∈ s.log →
      t + c.gap ≤ first + c.max) : Step c s (State.mark { s with job := none })
  | save (s : State) (hjob : s.job = none) (hready : s.Ready c) :
    Step c s ((State.note { s with marks := none } .begun).note (.ended true))

/-- A failure is a gap ago, or it is still to be reported, or the timer is set for
late enough. -/
inductive Waits (c : Limits) (s : State) (t : Nat) : Prop
  | rested (h : t + c.gap ≤ s.now)
  | reporting (h : s.job = some (some false))
  | armed (first last : Nat) (hjob : s.job = none) (hmarks : s.marks = some (first, last))
    (hfirst : t + c.gap ≤ first + c.max) (hlast : t + c.gap ≤ last + c.debounce)

structure Inv (c : Limits) (s : State) : Prop where
  past : ∀ t e, (t, e) ∈ s.log → t ≤ s.now
  waits : ∀ t, (t, .ended false) ∈ s.log → Waits c s t
  spaced : Spaced c.gap s.log

variable {c : Limits} {s s' : State}

theorem mem_note {e f : Event} {t : Nat} (h : (t, e) ∈ (s.note f).log) :
    (t, e) ∈ s.log ∨ t = s.now ∧ e = f := by
  rcases List.mem_append.mp h with hold | hnew
  · exact Or.inl hold
  · cases List.mem_singleton.mp hnew
    exact Or.inr ⟨rfl, rfl⟩

theorem past_note (h : ∀ t e, (t, e) ∈ s.log → t ≤ s.now) (f : Event) (t : Nat) (e : Event)
    (hmem : (t, e) ∈ (s.note f).log) : t ≤ s.now := by
  rcases mem_note hmem with hold | ⟨rfl, _⟩
  · exact h t e hold
  · exact le_rfl

/-- An end is noted. -/
theorem spaced_ended (h : Spaced c.gap s.log) (ok : Bool) :
    Spaced c.gap (s.note (.ended ok)).log := by
  refine List.pairwise_append.mpr ⟨h, List.pairwise_singleton _ _, fun e _ f hf _ hbegun => ?_⟩
  rw [List.mem_singleton.mp hf] at hbegun
  cases hbegun

/-- A beginning is noted; every failure is a gap ago. -/
theorem spaced_begun (h : Spaced c.gap s.log) (hrested : s.Rested c) :
    Spaced c.gap (s.note .begun).log := by
  refine List.pairwise_append.mpr ⟨h, List.pairwise_singleton _ _, fun e he f hf hfailed _ => ?_⟩
  rw [List.mem_singleton.mp hf]
  refine hrested e.1 ?_
  rw [← hfailed]
  exact he

/-- Where an attempt may begin, every failure is a gap ago. -/
theorem Inv.rested (h : Inv c s) (hjob : s.job = none) (hready : s.Ready c) : s.Rested c := by
  rcases hready with ⟨d, hdue, hd⟩ | hrested
  · intro t hfailed
    cases h.waits t hfailed with
    | rested hrested => exact hrested
    | reporting hreport =>
      rw [hjob] at hreport
      cases hreport
    | armed first last _ hmarks hfirst hlast =>
      rw [State.due, hmarks] at hdue
      cases hdue
      dsimp only at hd
      omega
  · exact hrested

/-- A failure from before this attempt is a gap ago. -/
theorem Waits.rested_of_job {t : Nat} {job : Option Bool} (h : Waits c s t) (hjob : s.job = some job)
    (hne : job ≠ some false) : t + c.gap ≤ s.now := by
  cases h with
  | rested hrested => exact hrested
  | reporting hreport =>
    rw [hjob] at hreport
    exact absurd (Option.some.inj hreport) hne
  | armed first last hnone =>
    rw [hjob] at hnone
    cases hnone

theorem Step.inv (hstep : Step c s s') (h : Inv c s) : Inv c s' := by
  cases hstep with
  | wait time =>
    refine ⟨fun t e hmem => (h.past t e hmem).trans (Nat.le_add_right _ _), fun t hfailed => ?_,
      h.spaced⟩
    cases h.waits t hfailed with
    | rested hrested => exact .rested (hrested.trans (Nat.le_add_right _ _))
    | reporting hreport => exact .reporting hreport
    | armed first last hjob hmarks hfirst hlast => exact .armed first last hjob hmarks hfirst hlast
  | change =>
    refine ⟨h.past, fun t hfailed => ?_, h.spaced⟩
    have hpast := h.past t _ hfailed
    cases h.waits t hfailed with
    | rested hrested => exact .rested hrested
    | reporting hreport => exact .reporting hreport
    | armed first last hjob hmarks hfirst hlast =>
      refine .armed first s.now hjob ?_ hfirst ?_
      · rw [State.mark, hmarks]
        rfl
      · unfold Limits.gap
        omega
  | begin hjob hready =>
    have hrested := h.rested hjob hready
    refine ⟨past_note (s := { s with marks := none, job := some none }) h.past _,
      fun t hfailed => ?_,
      spaced_begun (s := { s with marks := none, job := some none }) h.spaced hrested⟩
    rcases mem_note hfailed with hold | ⟨_, hnew⟩
    · exact .rested (hrested t hold)
    · cases hnew
  | land ok hjob =>
    refine ⟨past_note (s := { s with job := some (some ok) }) h.past _, fun t hfailed => ?_,
      spaced_ended (s := { s with job := some (some ok) }) h.spaced ok⟩
    rcases mem_note hfailed with hold | ⟨_, hnew⟩
    · exact .rested ((h.waits t hold).rested_of_job hjob (by simp))
    · cases hnew
      exact .reporting rfl
  | report hjob =>
    refine ⟨h.past, fun t hfailed => ?_, h.spaced⟩
    exact .rested ((h.waits t hfailed).rested_of_job hjob (by simp))
  | rearm hjob hfirst =>
    refine ⟨h.past, fun t hfailed => ?_, h.spaced⟩
    have hpast := h.past t _ hfailed
    have hlast : t + c.gap ≤ s.now + c.debounce := by
      unfold Limits.gap
      omega
    -- what changed meanwhile sets the timer too
    cases hmarks : s.marks with
    | none =>
      refine .armed s.now s.now rfl rfl ?_ hlast
      unfold Limits.gap
      omega
    | some m =>
      obtain ⟨first, last⟩ := m
      exact .armed first s.now rfl rfl (hfirst first last t hmarks hfailed) hlast
  | save hjob hready =>
    have hrested := h.rested hjob hready
    have hbegun := spaced_begun (s := { s with marks := none }) h.spaced hrested
    have hpast := past_note (s := { s with marks := none }) h.past .begun
    refine ⟨past_note hpast _, fun t hfailed => ?_, spaced_ended hbegun true⟩
    rcases mem_note hfailed with hmid | ⟨_, hnew⟩
    · rcases mem_note hmid with hold | ⟨_, hnew⟩
      · exact .rested (hrested t hold)
      · cases hnew
    · cases hnew

theorem inv_start (now : Nat) : Inv c ⟨now, none, none, []⟩ where
  past t e h := by cases h
  waits t h := by cases h
  spaced := .nil

/-! ## Steps at one instant -/

/-- The steps of one instant: the clock stands still, and what is noted has its
time. -/
structure During (c : Limits) (s s' : State) : Prop where
  steps : Relation.ReflTransGen (Step c) s s'
  now : s'.now = s.now
  log : ∃ k : List Event, s'.log = s.log ++ k.map fun e => (s.now, e)

theorem During.refl (c : Limits) (s : State) : During c s s :=
  ⟨.refl, rfl, [], (List.append_nil _).symm⟩

theorem During.trans {s₁ s₂ s₃ : State} (h : During c s₁ s₂) (h' : During c s₂ s₃) :
    During c s₁ s₃ := by
  obtain ⟨k, hk⟩ := h.log
  obtain ⟨k', hk'⟩ := h'.log
  refine ⟨h.steps.trans h'.steps, h'.now.trans h.now, k ++ k', ?_⟩
  rw [hk', hk, h.now, List.map_append, List.append_assoc]

/-- One step that notes these events. -/
theorem During.single {k : List Event} (hstep : Step c s s') (hnow : s'.now = s.now)
    (hlog : s'.log = s.log ++ k.map fun e => (s.now, e)) : During c s s' :=
  ⟨.single hstep, hnow, k, hlog⟩

theorem Inv.steps (h : Inv c s) (hsteps : Relation.ReflTransGen (Step c) s s') : Inv c s' := by
  induction hsteps with
  | refl => exact h
  | tail _ hstep ih => exact hstep.inv ih

end Debounce
