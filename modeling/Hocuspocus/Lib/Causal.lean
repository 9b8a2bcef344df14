import Mathlib.Order.BooleanAlgebra.Set

/-!
# Causal replicas

A replicated structure seen as two sets: the operations a replica has
received and the deletions it has received. An operation takes effect once
everything it depends on has (`Integrated`, a least fixed point); the ones
that wait are pending and invisible to the others. Replicas exchange deltas.

Two deltas matter. `diff` answers a summary of what the receiver has
integrated, `change` is what one step of the sender brought about.
`contains_apply_diff` says that a diff catches the receiver up, and
`applyAll_changes` that a chain of changes and the one diff over the whole
chain have the same effect.
-/

namespace Causal

universe u

variable {Op : Type u}

/-- The operations of `R` whose dependencies are integrated too. -/
inductive Integrated (deps : Op → Op → Prop) (R : Set Op) : Op → Prop
  | intro (o : Op) (hmem : o ∈ R) (hdeps : ∀ p, deps o p → Integrated deps R p) :
    Integrated deps R o

theorem Integrated.mem {deps : Op → Op → Prop} {R : Set Op} {o : Op}
    (h : Integrated deps R o) : o ∈ R := by
  cases h with
  | intro _ hmem _ => exact hmem

/-- What is integrated among `R` is integrated wherever it was received. -/
theorem Integrated.transfer {deps : Op → Op → Prop} {R R' : Set Op}
    (hsub : ∀ o, Integrated deps R o → o ∈ R') {o : Op} (h : Integrated deps R o) :
    Integrated deps R' o := by
  induction h with
  | intro o hmem hdeps ih => exact .intro o (hsub o (.intro o hmem hdeps)) ih

structure Replica (Op : Type u) where
  recv : Set Op
  dels : Set Op

structure Delta (Op : Type u) where
  ops : Set Op
  dels : Set Op

namespace Replica

def apply (r : Replica Op) (δ : Delta Op) : Replica Op := ⟨r.recv ∪ δ.ops, r.dels ∪ δ.dels⟩

def applyAll : Replica Op → List (Delta Op) → Replica Op := List.foldl apply

theorem recv_apply (r : Replica Op) (δ : Delta Op) : r.recv ⊆ (r.apply δ).recv :=
  Set.subset_union_left

theorem dels_apply (r : Replica Op) (δ : Delta Op) : r.dels ⊆ (r.apply δ).dels :=
  Set.subset_union_left

section

variable (deps : Op → Op → Prop)

/-- The insertions of a replica, and its deletions: those of insertions. -/
def ins (r : Replica Op) : Set Op := {o | Integrated deps r.recv o}

def gone (r : Replica Op) : Set Op := r.dels ∩ r.ins deps

/-- `c` has every insertion and every deletion of `s`. -/
structure Contains (c s : Replica Op) : Prop where
  ins : s.ins deps ⊆ c.ins deps
  gone : s.gone deps ⊆ c.gone deps

/-- Everything the summary does not cover, and all deletions. -/
def diff (s : Replica Op) (covered : Set Op) : Delta Op := ⟨s.ins deps \ covered, s.gone deps⟩

/-- What the step from `s` to `t` brought about. -/
def change (s t : Replica Op) : Delta Op :=
  ⟨t.ins deps \ s.ins deps, t.gone deps \ s.gone deps⟩

/-- The changes along a chain of replicas. -/
def changes : Replica Op → List (Replica Op) → List (Delta Op)
  | _, [] => []
  | s, t :: ts => change deps s t :: changes t ts

end

variable {deps : Op → Op → Prop}

theorem ins_subset_recv (r : Replica Op) : r.ins deps ⊆ r.recv := fun _ h => h.mem

theorem ins_mono (deps : Op → Op → Prop) {r r' : Replica Op} (h : r.recv ⊆ r'.recv) :
    r.ins deps ⊆ r'.ins deps :=
  fun _ ho => Integrated.transfer (fun _ hp => h hp.mem) ho

theorem gone_mono (deps : Op → Op → Prop) {r r' : Replica Op} (h : r.recv ⊆ r'.recv)
    (hdels : r.dels ⊆ r'.dels) :
    r.gone deps ⊆ r'.gone deps :=
  Set.inter_subset_inter hdels (ins_mono deps h)

theorem Contains.refl (r : Replica Op) : Contains deps r r := ⟨subset_rfl, subset_rfl⟩

/-- It is enough to have received what the other has integrated. -/
theorem contains_of_recv {c s : Replica Op} (hins : s.ins deps ⊆ c.recv)
    (hgone : s.gone deps ⊆ c.dels) : Contains deps c s where
  ins := fun _ h => Integrated.transfer hins h
  gone := fun _ h => ⟨hgone h, Integrated.transfer hins h.2⟩

/-- A receiver that has all the summary covers is caught up by the diff. -/
theorem contains_apply_diff (deps : Op → Op → Prop) {c s : Replica Op} {covered : Set Op}
    (h : covered ⊆ c.recv) :
    Contains deps (c.apply (s.diff deps covered)) s := by
  refine contains_of_recv ?_ Set.subset_union_right
  intro o ho
  by_cases hc : o ∈ covered
  · exact Or.inl (h hc)
  · exact Or.inr ⟨ho, hc⟩

/-- A chain of replicas that only grow. -/
def Growing : Replica Op → List (Replica Op) → Prop
  | _, [] => True
  | s, t :: ts => (s.recv ⊆ t.recv ∧ s.dels ⊆ t.dels) ∧ Growing t ts

/-- The last replica of a chain. -/
def last : Replica Op → List (Replica Op) → Replica Op
  | s, [] => s
  | _, t :: ts => last t ts

theorem growing_last {s : Replica Op} {ts : List (Replica Op)} (h : Growing s ts) :
    s.recv ⊆ (last s ts).recv ∧ s.dels ⊆ (last s ts).dels := by
  induction ts generalizing s with
  | nil => exact ⟨subset_rfl, subset_rfl⟩
  | cons t ts ih => exact ⟨h.1.1.trans (ih h.2).1, h.1.2.trans (ih h.2).2⟩

/-- Adding what a longer step brings in one go or in two is the same. -/
theorem union_sdiff_step {r a b c : Set Op} (hab : a ⊆ b) (hbc : b ⊆ c) :
    r ∪ (b \ a) ∪ (c \ b) = r ∪ (c \ a) := by
  ext o
  constructor
  · rintro ((h | h) | h)
    · exact Or.inl h
    · exact Or.inr ⟨hbc h.1, h.2⟩
    · exact Or.inr ⟨h.1, fun ha => h.2 (hab ha)⟩
  · rintro (h | h)
    · exact Or.inl (Or.inl h)
    · by_cases hb : o ∈ b
      · exact Or.inl (Or.inr ⟨hb, h.2⟩)
      · exact Or.inr ⟨h.1, hb⟩

/-- The changes along a chain, one after the other, amount to the change
from its first replica to its last. -/
theorem applyAll_changes_eq {c s : Replica Op} {ts : List (Replica Op)} (h : Growing s ts) :
    c.applyAll (changes deps s ts) = c.apply (change deps s (last s ts)) := by
  induction ts generalizing c s with
  | nil =>
    show c = ⟨c.recv ∪ (s.ins deps \ s.ins deps), c.dels ∪ (s.gone deps \ s.gone deps)⟩
    rw [Set.sdiff_self, Set.sdiff_self, Set.union_empty, Set.union_empty]
  | cons t ts ih =>
    obtain ⟨hst, hrest⟩ := h
    obtain ⟨htl, htl'⟩ := growing_last hrest
    have hstep : c.applyAll (changes deps s (t :: ts))
        = (c.apply (change deps s t)).applyAll (changes deps t ts) := rfl
    rw [hstep, ih hrest]
    have hins := union_sdiff_step (r := c.recv) (ins_mono deps hst.1)
      (ins_mono deps htl)
    have hgone := union_sdiff_step (r := c.dels) (gone_mono deps hst.1 hst.2)
      (gone_mono deps htl htl')
    simp only [apply, change, last, hins, hgone]

/-- **Coalescing**: to a receiver that has the deletions of the chain's first
replica, the one diff from that replica's insertions does what the changes
along the chain do. -/
theorem applyAll_changes {c s : Replica Op} {ts : List (Replica Op)} (h : Growing s ts)
    (hc : s.gone deps ⊆ c.dels) :
    c.applyAll (changes deps s ts) = c.apply ((last s ts).diff deps (s.ins deps)) := by
  have hdels : c.dels ∪ ((last s ts).gone deps \ s.gone deps) = c.dels ∪ (last s ts).gone deps := by
    ext o
    constructor
    · rintro (ho | ho)
      · exact Or.inl ho
      · exact Or.inr ho.1
    · rintro (ho | ho)
      · exact Or.inl ho
      · by_cases hs : o ∈ s.gone deps
        · exact Or.inl (hc hs)
        · exact Or.inr ⟨ho, hs⟩
  rw [applyAll_changes_eq h]
  simp only [apply, change, diff, hdels]

end Replica

/-! ## Insertions and deletions as one set -/

def both (A B : Set Op) : Set (Op ⊕ Op) := {x | x.elim (· ∈ A) (· ∈ B)}

theorem both_subset {A B A' B' : Set Op} : both A B ⊆ both A' B' ↔ A ⊆ A' ∧ B ⊆ B' := by
  constructor
  · intro h
    refine ⟨fun o ho => ?_, fun o ho => ?_⟩
    · exact @h (.inl o) ho
    · exact @h (.inr o) ho
  · rintro ⟨hA, hB⟩ (o | o) ho
    · exact hA ho
    · exact hB ho

theorem both_union (A B A' B' : Set Op) : both A B ∪ both A' B' = both (A ∪ A') (B ∪ B') := by
  ext (o | o)
  · exact Iff.rfl
  · exact Iff.rfl

def Delta.all (δ : Delta Op) : Set (Op ⊕ Op) := both δ.ops δ.dels

namespace Replica

/-- What a replica has received, and what of it has taken effect. -/
def all (r : Replica Op) : Set (Op ⊕ Op) := both r.recv r.dels

def done (deps : Op → Op → Prop) (r : Replica Op) : Set (Op ⊕ Op) := both (r.ins deps) (r.gone deps)

variable {deps : Op → Op → Prop}

theorem all_apply (r : Replica Op) (δ : Delta Op) : (r.apply δ).all = r.all ∪ δ.all :=
  (both_union _ _ _ _).symm

theorem done_subset_all (r : Replica Op) : r.done deps ⊆ r.all :=
  both_subset.mpr ⟨ins_subset_recv r, Set.inter_subset_left⟩

theorem change_subset_done (s t : Replica Op) : (change deps s t).all ⊆ t.done deps :=
  both_subset.mpr ⟨Set.sdiff_subset, Set.sdiff_subset⟩

/-- A step takes in no more than its change. -/
theorem done_subset_change (s t : Replica Op) :
    t.done deps ⊆ s.done deps ∪ (change deps s t).all := by
  have hunion : ∀ A B : Set Op, B ⊆ A ∪ B \ A := by
    intro A B o ho
    by_cases hA : o ∈ A
    · exact Or.inl hA
    · exact Or.inr ⟨ho, hA⟩
  rw [done, done, change, Delta.all, both_union]
  exact both_subset.mpr ⟨hunion _ _, hunion _ _⟩

theorem diff_subset_done (s : Replica Op) (covered : Set Op) :
    (s.diff deps covered).all ⊆ s.done deps :=
  both_subset.mpr ⟨Set.sdiff_subset, subset_rfl⟩

/-- A diff leaves out what is covered, and nothing else. -/
theorem done_subset_diff (s : Replica Op) (covered : Set Op) :
    s.done deps ⊆ both covered ∅ ∪ (s.diff deps covered).all := by
  rw [done, diff, Delta.all, both_union]
  refine both_subset.mpr ⟨fun o ho => ?_, Set.subset_union_right⟩
  by_cases hc : o ∈ covered
  · exact Or.inl hc
  · exact Or.inr ⟨ho, hc⟩

theorem contains_of_all {c s : Replica Op} (h : s.done deps ⊆ c.all) : Contains deps c s :=
  contains_of_recv (both_subset.mp h).1 (both_subset.mp h).2

theorem done_of_contains {c s : Replica Op} (h : Contains deps c s) : s.done deps ⊆ c.done deps :=
  both_subset.mpr ⟨h.ins, h.gone⟩

theorem done_mono {r r' : Replica Op} (h : r.all ⊆ r'.all) : r.done deps ⊆ r'.done deps :=
  done_of_contains (contains_of_all ((done_subset_all r).trans h))

/-- A replica that has received these. -/
def holding (X : Set (Op ⊕ Op)) : Replica Op := ⟨{o | .inl o ∈ X}, {o | .inr o ∈ X}⟩

theorem all_holding (X : Set (Op ⊕ Op)) : (holding X).all = X := by
  ext (o | o)
  · exact Iff.rfl
  · exact Iff.rfl

/-- Between two replicas that have integrated the same, what one of them still
waits for the other does not have. -/
theorem done_holding {r s : Replica Op} (hsame : r.done deps = s.done deps) {X : Set (Op ⊕ Op)}
    (hupper : X ⊆ r.all ∪ s.all) (hlower : r.done deps ⊆ X) :
    (holding X).done deps = r.done deps := by
  have hins : (holding X).ins deps ⊆ r.ins deps := by
    intro o ho
    induction ho with
    | intro o hmem _ ih =>
      rcases hupper hmem with hr | hs
      · exact .intro o hr ih
      · have hdeps : ∀ p, deps o p → p ∈ s.ins deps := fun p hp =>
          (both_subset.mp hsame.subset).1 (ih p hp)
        exact (both_subset.mp hsame.symm.subset).1 (.intro o hs hdeps)
  refine subset_antisymm (both_subset.mpr ⟨hins, ?_⟩) ?_
  · rintro o ⟨hmem, ho⟩
    rcases hupper hmem with hr | hs
    · exact ⟨hr, hins ho⟩
    · have hs' : o ∈ s.gone deps := ⟨hs, (both_subset.mp hsame.subset).1 (hins ho)⟩
      exact (both_subset.mp hsame.symm.subset).2 hs'
  · exact done_of_contains (contains_of_all (hlower.trans (all_holding X).symm.subset))

end Replica

end Causal
