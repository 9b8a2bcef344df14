import Mathlib.Order.Lattice
import Mathlib.Data.List.Basic

/-!
# A list in the order of a rank

A stable sort by descending rank. Elements of one rank stay in the order they were
in (`ofRank_sort`), and that is all the sort takes from its list: two lists are
sorted alike if and only if they agree rank by rank (`sort_eq_iff`).
-/

namespace Ranked

universe u v

variable {α : Type u} {κ : Type v} [LinearOrder κ] {rank : α → κ}

/-- Highest rank first; equal ranks keep their order. -/
def sort (rank : α → κ) (l : List α) : List α :=
  l.mergeSort fun a b => decide (rank b ≤ rank a)

theorem sort_perm (rank : α → κ) (l : List α) : (sort rank l).Perm l := List.mergeSort_perm l _

theorem rank_trans (a b c : α) (hab : decide (rank b ≤ rank a) = true)
    (hbc : decide (rank c ≤ rank b) = true) : decide (rank c ≤ rank a) = true :=
  decide_eq_true (le_trans (of_decide_eq_true hbc) (of_decide_eq_true hab))

theorem rank_total (a b : α) : (decide (rank b ≤ rank a) || decide (rank a ≤ rank b)) = true := by
  rw [Bool.or_eq_true, decide_eq_true_iff, decide_eq_true_iff]
  exact le_total (rank b) (rank a)

/-- No element stands behind one of lower rank. -/
def Sorted (rank : α → κ) (l : List α) : Prop := l.Pairwise fun a b => rank b ≤ rank a

theorem sort_sorted (rank : α → κ) (l : List α) : Sorted rank (sort rank l) :=
  (List.pairwise_mergeSort rank_trans rank_total l).imp of_decide_eq_true

/-- The elements of one rank, in their order. -/
def ofRank (rank : α → κ) (k : κ) (l : List α) : List α := l.filter fun a => rank a = k

theorem mem_ofRank {k : κ} {l : List α} {a : α} : a ∈ ofRank rank k l ↔ a ∈ l ∧ rank a = k := by
  rw [ofRank, List.mem_filter, decide_eq_true_iff]

theorem ofRank_cons_self (a : α) (l : List α) :
    ofRank rank (rank a) (a :: l) = a :: ofRank rank (rank a) l :=
  List.filter_cons_of_pos (decide_eq_true rfl)

theorem ofRank_cons {k : κ} {a : α} (h : rank a ≠ k) (l : List α) :
    ofRank rank k (a :: l) = ofRank rank k l :=
  List.filter_cons_of_neg fun heq => h (of_decide_eq_true heq)

/-- The sort is stable. -/
theorem ofRank_sort (k : κ) (l : List α) : ofRank rank k (sort rank l) = ofRank rank k l := by
  have hequal : (ofRank rank k l).Pairwise fun a b => decide (rank b ≤ rank a) = true := by
    refine List.Pairwise.imp_of_mem ?_ (List.pairwise_of_forall fun _ _ => trivial)
    intro a b ha hb _
    exact decide_eq_true (by rw [(mem_ofRank.mp ha).2, (mem_ofRank.mp hb).2])
  have hsub : (ofRank rank k l).Sublist (sort rank l) :=
    List.sublist_mergeSort rank_trans rank_total hequal List.filter_sublist
  have hfilter : (ofRank rank k l).Sublist (ofRank rank k (sort rank l)) := by
    have hall : (ofRank rank k l).filter (fun a => rank a = k) = ofRank rank k l :=
      List.filter_eq_self.mpr fun a ha => decide_eq_true (mem_ofRank.mp ha).2
    have hboth := hsub.filter fun a => decide (rank a = k)
    rwa [hall] at hboth
  refine (hfilter.eq_of_length ?_).symm
  exact ((sort_perm rank l).filter _).length_eq.symm

/-- Sorted lists that agree rank by rank are equal. -/
theorem Sorted.ext : ∀ {l l' : List α}, Sorted rank l → Sorted rank l' →
    (∀ k, ofRank rank k l = ofRank rank k l') → l = l' := by
  intro l
  induction l with
  | nil =>
    intro l' _ _ h
    cases l' with
    | nil => rfl
    | cons b l' =>
      have hnone := h (rank b)
      rw [ofRank_cons_self] at hnone
      cases hnone
  | cons a l ih =>
    intro l' hl hl' h
    cases l' with
    | nil =>
      have hnone := h (rank a)
      rw [ofRank_cons_self] at hnone
      cases hnone
    | cons b l' =>
      obtain ⟨hfirst, hrest⟩ := List.pairwise_cons.mp hl
      obtain ⟨hfirst', hrest'⟩ := List.pairwise_cons.mp hl'
      -- each of the two heads is in the other list, so it is not of higher rank
      have hb : rank b ≤ rank a := by
        have hmem : b ∈ ofRank rank (rank b) (a :: l) := by
          rw [h, ofRank_cons_self]
          exact List.mem_cons_self ..
        rcases List.mem_cons.mp (mem_ofRank.mp hmem).1 with heq | hmem
        · exact le_of_eq (congrArg rank heq)
        · exact hfirst b hmem
      have ha : rank a ≤ rank b := by
        have hmem : a ∈ ofRank rank (rank a) (b :: l') := by
          rw [← h, ofRank_cons_self]
          exact List.mem_cons_self ..
        rcases List.mem_cons.mp (mem_ofRank.mp hmem).1 with heq | hmem
        · exact le_of_eq (congrArg rank heq)
        · exact hfirst' a hmem
      have hrank : rank b = rank a := le_antisymm hb ha
      have heads := h (rank a)
      rw [ofRank_cons_self, ← hrank, ofRank_cons_self] at heads
      obtain ⟨hsame, _⟩ := List.cons.inj heads
      subst hsame
      refine congrArg (a :: ·) (ih hrest hrest' fun k => ?_)
      have hk := h k
      by_cases heq : rank a = k
      · subst heq
        rw [ofRank_cons_self, ofRank_cons_self] at hk
        exact (List.cons.inj hk).2
      · rwa [ofRank_cons heq, ofRank_cons heq] at hk

theorem sort_eq_iff {l l' : List α} :
    sort rank l = sort rank l' ↔ ∀ k, ofRank rank k l = ofRank rank k l' := by
  constructor
  · intro h k
    rw [← ofRank_sort k l, h, ofRank_sort]
  · intro h
    refine (sort_sorted rank l).ext (sort_sorted rank l') fun k => ?_
    rw [ofRank_sort, ofRank_sort, h]

/-- What is ahead of an element of lower rank: all of higher rank. -/
theorem mem_ahead {l pre post : List α} {a b : α} (hsorted : Sorted rank l)
    (hsplit : l = pre ++ b :: post) (ha : a ∈ l) (hlower : rank b < rank a) : a ∈ pre := by
  subst hsplit
  rcases List.mem_append.mp ha with hpre | hrest
  · exact hpre
  · obtain ⟨hbehind, _⟩ := List.pairwise_cons.mp (List.pairwise_append.mp hsorted).2.1
    rcases List.mem_cons.mp hrest with heq | hpost
    · exact absurd (congrArg rank heq) (ne_of_gt hlower)
    · exact absurd (hbehind a hpost) (not_le_of_gt hlower)

end Ranked
