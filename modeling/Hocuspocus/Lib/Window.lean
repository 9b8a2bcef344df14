import Mathlib.Data.List.Induction

/-!
# A sliding window with a ban

Calls of one client at times that do not go back. A call is `exceeded` if more
calls than the cap are in the window that ends with it; this bans the client, and
while the ban lasts its calls are `barred` and do not count. `history` says this
from the calls alone. A `Slot` is what a program keeps of them: the times that were
in the window of the last call, and the last ban unless a call has found it over.
`Slot.Holds` is the invariant: at any later time the window and the ban are the
same in both.
-/

namespace Window

structure Limits where
  cap : Nat
  width : Nat
  ban : Nat
  deriving DecidableEq, Repr

inductive Verdict
  | barred
  | exceeded
  | allowed
  deriving DecidableEq, Repr

/-- The calls so far, each with its verdict. -/
abbrev History := List (Nat × Verdict)

/-- The times in the window that ends now. -/
def live (width now : Nat) (times : List Nat) : List Nat := times.filter fun t => now - t < width

/-- The verdict on a call now, after a ban and the calls at these times. -/
def verdict (lim : Limits) (banned : Option Nat) (times : List Nat) (now : Nat) : Verdict :=
  if banned.any fun b => now - b < lim.ban then .barred
  else if lim.cap < (live lim.width now (times ++ [now])).length then .exceeded
  else .allowed

namespace History

/-- The time of the last call that was banned for. -/
def lastBan (past : History) : Option Nat :=
  ((past.filter fun j => j.2 = .exceeded).map Prod.fst).getLast?

/-- The times of the calls that count. -/
def recorded (past : History) : List Nat := (past.filter fun j => j.2 ≠ .barred).map Prod.fst

def judge (lim : Limits) (past : History) (now : Nat) : Verdict :=
  verdict lim past.lastBan past.recorded now

end History

/-- The verdicts on the calls at these times. -/
def history (lim : Limits) (times : List Nat) : History :=
  times.foldl (fun past now => past ++ [(now, past.judge lim now)]) []

/-! ## The window -/

section Live

variable {width now later : Nat}

theorem live_append (l m : List Nat) :
    live width now (l ++ m) = live width now l ++ live width now m :=
  List.filter_append _ _

/-- Pruning now changes no later window. -/
theorem live_live (h : now ≤ later) (l : List Nat) :
    live width later (live width now l) = live width later l := by
  unfold live
  rw [List.filter_filter]
  refine List.filter_congr fun t _ => ?_
  rw [← Bool.decide_and, decide_eq_decide]
  omega

end Live

section Verdict

variable {lim : Limits} {banned : Option Nat} {times : List Nat} {now : Nat}

theorem verdict_barred :
    verdict lim banned times now = .barred ↔ ∃ b, banned = some b ∧ now - b < lim.ban := by
  have hany : (banned.any fun b => decide (now - b < lim.ban)) = true ↔
      ∃ b, banned = some b ∧ now - b < lim.ban := by
    simp only [Option.any_eq_true, decide_eq_true_eq]
  rw [← hany]
  unfold verdict
  split
  next h => simp [h]
  next h => split <;> simp [h]

/-- Without a ban the window decides. -/
theorem verdict_of_free (h : ∀ b, banned = some b → ¬ now - b < lim.ban) :
    verdict lim banned times now
      = if lim.cap < (live lim.width now (times ++ [now])).length then .exceeded
        else .allowed := by
  unfold verdict
  rw [if_neg]
  intro hany
  obtain ⟨b, hb, hlt⟩ := (Option.any_eq_true _ _).mp hany
  exact h b hb (of_decide_eq_true hlt)

theorem verdict_exceeded :
    verdict lim banned times now = .exceeded ↔ (¬ ∃ b, banned = some b ∧ now - b < lim.ban) ∧
      lim.cap < (live lim.width now (times ++ [now])).length := by
  have hbarred : verdict lim banned times now = .barred ↔ _ := verdict_barred
  rw [← hbarred]
  unfold verdict
  split
  next => simp
  next =>
    split
    next h => simp [h]
    next h => simp [h]

theorem verdict_allowed (h : verdict lim banned times now = .allowed) :
    (live lim.width now (times ++ [now])).length ≤ lim.cap := by
  unfold verdict at h
  split at h
  next => cases h
  next =>
    split at h
    next => cases h
    next hcap => exact Nat.le_of_not_lt hcap

end Verdict

/-! ## The history -/

variable {lim : Limits} {past : History} {now : Nat}

theorem history_snoc (lim : Limits) (times : List Nat) (now : Nat) :
    history lim (times ++ [now])
      = history lim times ++ [(now, (history lim times).judge lim now)] := by
  unfold history
  rw [List.foldl_append, List.foldl_cons, List.foldl_nil]

theorem lastBan_snoc (past : History) (now : Nat) (v : Verdict) :
    History.lastBan (past ++ [(now, v)]) = if v = .exceeded then some now else past.lastBan := by
  unfold History.lastBan
  rw [List.filter_append, List.map_append]
  by_cases hv : v = .exceeded
  · simp [hv]
  · simp [hv]

theorem recorded_snoc (past : History) (now : Nat) (v : Verdict) :
    History.recorded (past ++ [(now, v)])
      = if v = .barred then past.recorded else past.recorded ++ [now] := by
  unfold History.recorded
  rw [List.filter_append, List.map_append]
  by_cases hv : v = .barred
  · simp [hv]
  · simp [hv]

namespace History

/-- Whether a call of the history was let through in an interval. -/
def within (a b : Nat) (j : Nat × Verdict) : Bool := j.2 = .allowed ∧ a ≤ j.1 ∧ j.1 ≤ b

theorem within_iff {a b : Nat} {j : Nat × Verdict} :
    within a b j = true ↔ j.2 = .allowed ∧ a ≤ j.1 ∧ j.1 ≤ b := by
  unfold within
  rw [decide_eq_true_eq]

/-- What was let through in an interval that is shorter than the window, and ends now
at the latest, is in the window. -/
theorem countP_within {a b : Nat} (hshort : b - a < lim.width) (hnow : now ≤ b) :
    past.countP (within a b) ≤ (live lim.width now past.recorded).length := by
  unfold live recorded
  rw [List.filter_map, List.length_map, List.filter_filter, ← List.countP_eq_length_filter]
  refine List.countP_mono_left fun j _ hj => ?_
  rw [within_iff] at hj
  simp only [Function.comp, Bool.and_eq_true, decide_eq_true_eq]
  refine ⟨by omega, ?_⟩
  rw [hj.1]
  exact Verdict.noConfusion

end History

/-- **The limit**: in an interval shorter than the window no more than `cap` calls are
let through. -/
theorem allowed_within (lim : Limits) {a b : Nat} (hshort : b - a < lim.width)
    (times : List Nat) : (history lim times).countP (History.within a b) ≤ lim.cap := by
  induction times using List.reverseRecOn with
  | nil => exact Nat.zero_le _
  | append_singleton times now ih =>
    rw [history_snoc, List.countP_append, List.countP_singleton]
    split
    next hin =>
      -- it is the last one in the interval, and its window holds the others
      obtain ⟨hallowed, hfrom, hto⟩ := History.within_iff.mp hin
      have hstart : a ≤ now := hfrom
      have hend : now ≤ b := hto
      have hcap := verdict_allowed hallowed
      have hothers : (history lim times).countP (History.within a b) ≤ _ :=
        History.countP_within hshort hend
      have hself : live lim.width now [now] = [now] := by
        have hwidth : 0 < lim.width := by omega
        simp [live, hwidth]
      rw [live_append, hself, List.length_append, List.length_singleton] at hcap
      omega
    next => exact ih

/-! ## What is kept -/

structure Slot where
  kept : List Nat
  banned : Option Nat
  deriving DecidableEq, Repr

namespace Slot

def empty : Slot := ⟨[], none⟩

def judge (lim : Limits) (s : Slot) (now : Nat) : Verdict := verdict lim s.banned s.kept now

def next (lim : Limits) (s : Slot) (now : Nat) : Verdict → Slot
  | .barred => s
  | .exceeded => ⟨live lim.width now (s.kept ++ [now]), some now⟩
  | .allowed => ⟨live lim.width now (s.kept ++ [now]), none⟩

/-- From now on the slot answers as the history does. -/
structure Holds (lim : Limits) (past : History) (now : Nat) (s : Slot) : Prop where
  banned : ∀ b, s.banned = some b → past.lastBan = some b
  expired : ∀ b, past.lastBan = some b → s.banned = some b ∨ lim.ban ≤ now - b
  kept : ∀ later, now ≤ later → live lim.width later s.kept = live lim.width later past.recorded

namespace Holds

theorem start (lim : Limits) (now : Nat) : Holds lim [] now empty where
  banned := fun _ h => by cases h
  expired := fun _ h => by cases h
  kept := fun _ _ => rfl

variable {s : Slot}

theorem mono (h : Holds lim past now s) {later : Nat} (hle : now ≤ later) :
    Holds lim past later s where
  banned := h.banned
  expired := fun b hb => (h.expired b hb).imp id (by omega)
  kept := fun t ht => h.kept t (Nat.le_trans hle ht)

/-- The verdict of the slot is that of the history. -/
theorem judge_eq (h : Holds lim past now s) : s.judge lim now = past.judge lim now := by
  have hbanned : (s.banned.any fun b => decide (now - b < lim.ban))
      = past.lastBan.any fun b => decide (now - b < lim.ban) := by
    rw [Bool.eq_iff_iff, Option.any_eq_true, Option.any_eq_true]
    constructor
    · intro ⟨b, hb, hlt⟩
      exact ⟨b, h.banned b hb, hlt⟩
    · intro ⟨b, hb, hlt⟩
      rcases h.expired b hb with hkept | hexpired
      · exact ⟨b, hkept, hlt⟩
      · rw [decide_eq_true_eq] at hlt
        omega
  unfold judge History.judge verdict
  rw [hbanned, live_append, live_append, h.kept now (Nat.le_refl now)]

/-- The invariant goes from call to call. -/
theorem step (h : Holds lim past now s) :
    Holds lim (past ++ [(now, past.judge lim now)]) now
      (s.next lim now (past.judge lim now)) := by
  have hpruned : ∀ later, now ≤ later →
      live lim.width later (live lim.width now (s.kept ++ [now]))
        = live lim.width later (past.recorded ++ [now]) := by
    intro later hle
    rw [live_live hle, live_append, live_append, h.kept later hle]
  cases hv : past.judge lim now with
  | barred =>
    constructor
    · rw [lastBan_snoc, if_neg (by decide)]
      exact h.banned
    · rw [lastBan_snoc, if_neg (by decide)]
      exact h.expired
    · rw [recorded_snoc, if_pos rfl]
      exact h.kept
  | exceeded =>
    constructor
    · rw [lastBan_snoc, if_pos rfl]
      exact fun _ hb => hb
    · rw [lastBan_snoc, if_pos rfl]
      exact fun _ hb => Or.inl hb
    · rw [recorded_snoc, if_neg (by decide)]
      exact hpruned
  | allowed =>
    -- the ban is removed, which is right as it is over
    have hfree : ∀ b, past.lastBan = some b → lim.ban ≤ now - b := by
      intro b hb
      refine Nat.le_of_not_lt fun hlt => ?_
      have hbarred : past.judge lim now = .barred := verdict_barred.mpr ⟨b, hb, hlt⟩
      rw [hv] at hbarred
      cases hbarred
    constructor
    · exact fun _ hb => by cases hb
    · rw [lastBan_snoc, if_neg (by decide)]
      exact fun b hb => Or.inr (hfree b hb)
    · rw [recorded_snoc, if_neg (by decide)]
      exact hpruned

end Holds

end Slot

end Window
