import Hocuspocus.Lib.Lease
import Hocuspocus.Lib.Run

/-!
# The store lock (`extensions/redis.rs`)

Nodes that share a Redis guard their stores of a document with one key: the
store hooks run in priority order, so `RedisScaling::on_store_document` sets
the key to a token of its own before `Database` persists, and
`after_store_document` deletes it if it still has the token in `locks`. The
key is a lease of `lock_timeout_ms`; nothing renews it, and nothing tells the
store when it is over.

The model is about one document: its key, the clock, each node's entry in
`locks`, and the store attempts of all nodes with the stage each has reached.
The key counts as gone at its deadline; Redis keeps it for that one millisecond.
A command is executed some time after it was sent and some time before its
answer arrives, and either can be lost. The token of an attempt is its place
in the list, which stands for its uuid. `Guarded` is the invariant: whoever
holds the lock has the key. Steps `InTime` keep it (`Guarded.step`), and
`store_exclusive` is mutual exclusion along the runs made of them.
-/

namespace Hocuspocus.StoreLock

open Lease

variable {ι : Type}

/-! ## Attempts -/

/-- How far a run of the store hooks has come. -/
inductive Stage
  /-- `SET NX PX` is on its way, or has been executed and the answer is. -/
  | asked
  | answered (acquired : Bool)
  /-- The token is in `locks`, and `Database` stores. -/
  | storing
  /-- The store hooks are done, and `after_store_document` is next. -/
  | stored
  /-- The script is on its way, with a token from `locks`. -/
  | releasing (token : Nat)
  | done
  deriving DecidableEq, Repr

/-- The lock has been acquired, and the store of `Database` has not ended. -/
def Stage.holds : Stage → Bool
  | .answered acquired => acquired
  | .storing => true
  | _ => false

/-- The store has ended, or there will be none. -/
def Stage.over : Stage → Bool
  | .stored | .releasing _ | .done => true
  | _ => false

structure Attempt (ι : Type) where
  node : ι
  stage : Stage
  deriving DecidableEq, Repr

structure State (ι : Type) where
  now : Nat
  key : Key Nat
  locks : ι → Option Nat
  attempts : List (Attempt ι)

def start (ι : Type) : State ι := ⟨0, none, fun _ => none, []⟩

inductive Label (ι : Type)
  /-- A node runs its store hooks. -/
  | begin (node : ι)
  /-- Redis executes the `SET` of an attempt, and the answer arrives. -/
  | set (token : Nat)
  | reply (token : Nat)
  /-- `Database` has stored, or failed to. -/
  | stored (token : Nat) (ok : Bool)
  /-- `after_store_document` runs, and Redis executes its script. -/
  | afterStore (token : Nat)
  | release (token : Nat)
  /-- The command or the answer an attempt waits for is lost. -/
  | lose (token : Nat)
  | wait (time : Nat)
  deriving DecidableEq, Repr

namespace State

def enter (s : State ι) (token : Nat) (stage : Stage) : State ι :=
  { s with attempts := s.attempts.modify token fun a => { a with stage } }

/-- The entry of a node in `locks`. -/
def setLock [DecidableEq ι] (s : State ι) (node : ι) (token : Option Nat) : State ι :=
  { s with locks := fun i => if i = node then token else s.locks i }

/-- `lockTimeoutMs` is each node's own setting. -/
def step [DecidableEq ι] (lockTimeoutMs : ι → Nat) (s : State ι) : Label ι → Option (State ι)
  | .begin node => some { s with attempts := s.attempts ++ [⟨node, .asked⟩] }
  | .set token =>
    match s.attempts[token]? with
    | some ⟨node, .asked⟩ =>
      let acquired := s.key.setNx s.now (lockTimeoutMs node) token
      some ({ s with key := acquired.1 }.enter token (.answered acquired.2))
    | _ => none
  | .reply token =>
    match s.attempts[token]? with
    | some ⟨node, .answered true⟩ => some ((s.setLock node (some token)).enter token .storing)
    | some ⟨_, .answered false⟩ => some (s.enter token .done)
    | _ => none
  | .stored token ok =>
    match s.attempts[token]? with
    | some ⟨_, .storing⟩ => some (s.enter token (if ok then .stored else .done))
    | _ => none
  | .afterStore token =>
    match s.attempts[token]? with
    | some ⟨node, .stored⟩ =>
      match s.locks node with
      | some held => some ((s.setLock node none).enter token (.releasing held))
      | none => some (s.enter token .done)
    | _ => none
  | .release token =>
    match s.attempts[token]? with
    | some ⟨_, .releasing held⟩ => some ({ s with key := s.key.delIf s.now held }.enter token .done)
    | _ => none
  | .lose token =>
    match s.attempts[token]? with
    | some ⟨_, .asked⟩ | some ⟨_, .answered _⟩ | some ⟨_, .releasing _⟩ =>
      some (s.enter token .done)
    | _ => none
  | .wait time => some { s with now := s.now + time }

def stageOf (s : State ι) (token : Nat) : Option Stage := s.attempts[token]?.map Attempt.stage

/-- The attempt is between the acquisition and the end of its store. -/
def Holds (s : State ι) (token : Nat) : Prop := ∃ stage, s.stageOf token = some stage ∧ stage.holds

/-- No two nodes are between the two. -/
def Exclusive (s : State ι) : Prop :=
  ∀ (t₁ t₂ : Nat) (a₁ a₂ : Attempt ι), s.attempts[t₁]? = some a₁ → s.attempts[t₂]? = some a₂ →
    a₁.stage.holds = true → a₂.stage.holds = true → a₁.node = a₂.node

/-- The lease of an attempt that holds the lock does not run out, and
`after_store_document` of one attempt does not find in `locks` the token of
another one that holds it. -/
def InTime (s : State ι) : Label ι → State ι → Prop
  | .wait time, _ => ∀ token deadline, s.Holds token → s.key = some (token, deadline) →
      s.now + time < deadline
  | .afterStore token, _ => ∀ node held, s.attempts[token]? = some ⟨node, .stored⟩ →
      s.locks node = some held → ¬ s.Holds held
  | _, _ => True

theorem stageOf_of {s : State ι} {token : Nat} {node : ι} {stage : Stage}
    (h : s.attempts[token]? = some ⟨node, stage⟩) : s.stageOf token = some stage := by
  rw [stageOf, h]
  rfl

theorem stageOf_enter {s : State ι} {token : Nat} {old : Stage} (h : s.stageOf token = some old)
    (stage : Stage) (t : Nat) :
    (s.enter token stage).stageOf t = if t = token then some stage else s.stageOf t := by
  show ((s.attempts.modify token fun a => { a with stage })[t]?).map Attempt.stage = _
  split
  next ht =>
    subst ht
    obtain ⟨a, ha, _⟩ := Option.map_eq_some_iff.mp h
    rw [List.getElem?_modify_eq, ha]
    rfl
  next ht =>
    rw [List.getElem?_modify_ne _ _ (Ne.symm ht)]
    rfl

/-! ## The invariant -/

variable {s t : State ι}

/-- Whoever holds the lock has the key; the tokens in `locks` are of attempts
that have acquired it, and those on their way to be released of attempts that
are over. -/
structure Guarded (s : State ι) : Prop where
  held : ∀ token, s.Holds token → s.key.live s.now = some token
  locked : ∀ node token, s.locks node = some token →
    s.stageOf token = some .storing ∨ ∃ stage, s.stageOf token = some stage ∧ stage.over
  releasing : ∀ a token, s.stageOf a = some (.releasing token) →
    ∃ stage, s.stageOf token = some stage ∧ stage.over

theorem guarded_start : Guarded (start ι) where
  held _ h := by
    obtain ⟨_, hstage, _⟩ := h
    cases hstage
  locked _ _ h := by cases h
  releasing _ _ h := by cases h

/-- The lock is exclusive where it is guarded. -/
theorem Guarded.exclusive (h : Guarded s) : s.Exclusive := by
  intro t₁ t₂ a₁ a₂ ha₁ ha₂ hholds₁ hholds₂
  have h₁ := h.held t₁ ⟨a₁.stage, stageOf_of ha₁, hholds₁⟩
  have h₂ := h.held t₂ ⟨a₂.stage, stageOf_of ha₂, hholds₂⟩
  obtain rfl : t₁ = t₂ := Option.some.inj (h₁.symm.trans h₂)
  exact congrArg Attempt.node (Option.some.inj (ha₁.symm.trans ha₂))

/-- Nobody holds the lock after a store is over. -/
theorem not_holds_of_over {token : Nat} {stage : Stage} (h : s.stageOf token = some stage)
    (hover : stage.over = true) : ¬ s.Holds token := by
  rintro ⟨stage', hstage', hholds⟩
  obtain rfl : stage = stage' := Option.some.inj (h.symm.trans hstage')
  cases stage <;> cases hover <;> cases hholds

/-- An attempt enters its next stage. -/
theorem Guarded.enter (h : Guarded s) {token : Nat} {old new : Stage}
    (hold : s.stageOf token = some old)
    (hstages : ∀ x, t.stageOf x = if x = token then some new else s.stageOf x)
    (hheld : ∀ x, t.Holds x → t.key.live t.now = some x)
    (hlocks : ∀ node x, t.locks node = some x → s.locks node = some x ∨ (x = token ∧ new = .storing))
    (hover : old = .storing ∨ old.over = true → new.over = true)
    (hnew : ∀ x, new = .releasing x → ∃ stage, s.stageOf x = some stage ∧ stage.over) :
    Guarded t := by
  have hkept : ∀ x, (∃ stage, s.stageOf x = some stage ∧ stage.over = true) →
      ∃ stage, t.stageOf x = some stage ∧ stage.over = true := by
    rintro x ⟨stage, hstage, hx⟩
    by_cases heq : x = token
    · subst heq
      obtain rfl : old = stage := Option.some.inj (hold.symm.trans hstage)
      exact ⟨new, by rw [hstages, if_pos rfl], hover (Or.inr hx)⟩
    · exact ⟨stage, by rw [hstages, if_neg heq, hstage], hx⟩
  refine ⟨hheld, fun node x hx => ?_, fun a x hx => ?_⟩
  · rcases hlocks node x hx with hbefore | ⟨rfl, rfl⟩
    · rcases h.locked node x hbefore with hstoring | hx
      · by_cases heq : x = token
        · subst heq
          have holdstoring : old = .storing := Option.some.inj (hold.symm.trans hstoring)
          exact Or.inr ⟨new, by rw [hstages, if_pos rfl], hover (Or.inl holdstoring)⟩
        · exact Or.inl (by rw [hstages, if_neg heq, hstoring])
      · exact Or.inr (hkept x hx)
    · exact Or.inl (by rw [hstages, if_pos rfl])
  · rw [hstages] at hx
    split at hx
    next => exact hkept x (hnew x (Option.some.inj hx))
    next => exact hkept x (h.releasing a x hx)

/-- The others hold the lock as before. -/
theorem holds_enter {token : Nat} {new : Stage}
    (hstages : ∀ x, t.stageOf x = if x = token then some new else s.stageOf x) {x : Nat}
    (hx : t.Holds x) : (x = token ∧ new.holds = true) ∨ (x ≠ token ∧ s.Holds x) := by
  obtain ⟨stage, hstage, hholds⟩ := hx
  rw [hstages] at hstage
  split at hstage
  next heq => exact Or.inl ⟨heq, (Option.some.inj hstage) ▸ hholds⟩
  next hne => exact Or.inr ⟨hne, stage, hstage, hholds⟩

/-! ## Steps -/

variable [DecidableEq ι] {lockTimeoutMs : ι → Nat} {l : Label ι}

/-- What a step does: an attempt begins, or enters its next stage, or time
passes. -/
inductive Step (lockTimeoutMs : ι → Nat) (s : State ι) : Label ι → State ι → Prop
  | begin (node : ι) : Step lockTimeoutMs s (.begin node)
      { s with attempts := s.attempts ++ [⟨node, .asked⟩] }
  | set (token px : Nat) (hstage : s.stageOf token = some .asked) :
      Step lockTimeoutMs s (.set token)
        ({ s with key := (s.key.setNx s.now px token).1 }.enter token
          (.answered (s.key.setNx s.now px token).2))
  | acquired (token : Nat) (node : ι) (hstage : s.stageOf token = some (.answered true)) :
      Step lockTimeoutMs s (.reply token) ((s.setLock node (some token)).enter token .storing)
  | refused (token : Nat) (hstage : s.stageOf token = some (.answered false)) :
      Step lockTimeoutMs s (.reply token) (s.enter token .done)
  | stored (token : Nat) (ok : Bool) (hstage : s.stageOf token = some .storing) :
      Step lockTimeoutMs s (.stored token ok) (s.enter token (if ok then .stored else .done))
  | afterStore (token held : Nat) (node : ι) (hattempt : s.attempts[token]? = some ⟨node, .stored⟩)
      (hlock : s.locks node = some held) :
      Step lockTimeoutMs s (.afterStore token) ((s.setLock node none).enter token (.releasing held))
  | nothing (token : Nat) (hstage : s.stageOf token = some .stored) :
      Step lockTimeoutMs s (.afterStore token) (s.enter token .done)
  | release (token held : Nat) (hstage : s.stageOf token = some (.releasing held)) :
      Step lockTimeoutMs s (.release token)
        ({ s with key := s.key.delIf s.now held }.enter token .done)
  | lose (token : Nat) (old : Stage) (hstage : s.stageOf token = some old) :
      Step lockTimeoutMs s (.lose token) (s.enter token .done)
  | wait (time : Nat) : Step lockTimeoutMs s (.wait time) { s with now := s.now + time }

theorem step_cases (h : s.step lockTimeoutMs l = some t) : Step lockTimeoutMs s l t := by
  cases l with
  | begin node =>
    cases h
    exact .begin node
  | set token =>
    unfold step at h
    dsimp only at h
    split at h
    next node hattempt =>
      cases h
      exact .set token (lockTimeoutMs node) (stageOf_of hattempt)
    next => cases h
  | reply token =>
    unfold step at h
    dsimp only at h
    split at h
    next node hattempt =>
      cases h
      exact .acquired token node (stageOf_of hattempt)
    next node hattempt =>
      cases h
      exact .refused token (stageOf_of hattempt)
    next => cases h
  | stored token ok =>
    unfold step at h
    dsimp only at h
    split at h
    next node hattempt =>
      cases h
      exact .stored token ok (stageOf_of hattempt)
    next => cases h
  | afterStore token =>
    unfold step at h
    dsimp only at h
    split at h
    next node hattempt =>
      split at h
      next held hlock =>
        cases h
        exact .afterStore token held node hattempt hlock
      next =>
        cases h
        exact .nothing token (stageOf_of hattempt)
    next => cases h
  | release token =>
    unfold step at h
    dsimp only at h
    split at h
    next node held hattempt =>
      cases h
      exact .release token held (stageOf_of hattempt)
    next => cases h
  | lose token =>
    unfold step at h
    dsimp only at h
    split at h
    next node hattempt =>
      cases h
      exact .lose token _ (stageOf_of hattempt)
    next node acquired hattempt =>
      cases h
      exact .lose token _ (stageOf_of hattempt)
    next node held hattempt =>
      cases h
      exact .lose token _ (stageOf_of hattempt)
    next => cases h
  | wait time =>
    cases h
    exact .wait time

/-- **A step in time keeps the lock guarded.** -/
theorem Guarded.step (h : Guarded s) (hstep : s.step lockTimeoutMs l = some t)
    (htime : s.InTime l t) : Guarded t := by
  -- an attempt that does not come to hold the lock, while nobody touches the key
  have hquiet : ∀ (token : Nat) (old new : Stage) (u : State ι), s.stageOf token = some old →
      (∀ x, u.stageOf x = if x = token then some new else s.stageOf x) →
      (new.holds = true → old.holds = true) → u.key = s.key → u.now = s.now →
      ∀ x, u.Holds x → u.key.live u.now = some x := by
    intro token old new u hold hstages hholds hkey hnow x hx
    rw [hkey, hnow]
    rcases holds_enter hstages hx with ⟨rfl, hnew⟩ | ⟨_, hx⟩
    · exact h.held x ⟨old, hold, hholds hnew⟩
    · exact h.held x hx
  cases step_cases hstep with
  | begin node =>
    have hstages : ∀ x stage, ({ s with attempts := s.attempts ++ [⟨node, .asked⟩] } :
        State ι).stageOf x = some stage → s.stageOf x = some stage ∨ stage = .asked := by
      intro x stage hstage
      obtain ⟨a, ha, rfl⟩ := Option.map_eq_some_iff.mp hstage
      have ha' : (s.attempts ++ [⟨node, .asked⟩])[x]? = some a := ha
      rw [List.getElem?_append] at ha'
      split at ha'
      next => exact Or.inl (by rw [stageOf, ha']; rfl)
      next =>
        have hmem := List.mem_of_getElem? ha'
        exact Or.inr (List.mem_singleton.mp hmem ▸ rfl)
    have hkept : ∀ x stage, s.stageOf x = some stage →
        ({ s with attempts := s.attempts ++ [⟨node, .asked⟩] } : State ι).stageOf x = some stage := by
      intro x stage hstage
      obtain ⟨a, ha, rfl⟩ := Option.map_eq_some_iff.mp hstage
      have hlt := (List.getElem?_eq_some_iff.mp ha).1
      show ((s.attempts ++ [⟨node, .asked⟩])[x]?).map Attempt.stage = _
      rw [List.getElem?_append_left hlt, ha]
      rfl
    refine ⟨fun x hx => ?_, fun node' x hx => ?_, fun a x hx => ?_⟩
    · obtain ⟨stage, hstage, hholds⟩ := hx
      rcases hstages x stage hstage with hstage | rfl
      · exact h.held x ⟨stage, hstage, hholds⟩
      · cases hholds
    · rcases h.locked node' x hx with hstage | ⟨stage, hstage, hover⟩
      · exact Or.inl (hkept x _ hstage)
      · exact Or.inr ⟨stage, hkept x _ hstage, hover⟩
    · rcases hstages a _ hx with hx | hx
      · obtain ⟨stage, hstage, hover⟩ := h.releasing a x hx
        exact ⟨stage, hkept x _ hstage, hover⟩
      · cases hx
  | set token px hstage =>
    have hstages := stageOf_enter (s := { s with key := (s.key.setNx s.now px token).1 }) hstage
      (.answered (s.key.setNx s.now px token).2)
    refine h.enter hstage hstages (fun x hx => ?_) (fun _ _ hx => Or.inl hx) ?_ nofun
    · show ((s.key.setNx s.now px token).1).live s.now = some x
      cases hset : (s.key.setNx s.now px token).2 with
      | false =>
        rw [Key.setNx_false hset]
        rcases holds_enter hstages hx with ⟨_, hnew⟩ | ⟨_, hx⟩
        · rw [hset] at hnew
          cases hnew
        · exact h.held x hx
      | true =>
        -- the key was free, so nobody held the lock
        obtain ⟨hfree, hnow⟩ := Key.setNx_true hset
        rcases holds_enter hstages hx with ⟨rfl, _⟩ | ⟨_, hx⟩
        · exact hnow
        · have hheld := h.held x hx
          rw [hfree] at hheld
          cases hheld
    · rintro (hold | hold) <;> cases hold
  | acquired token node hstage =>
    have hstages := stageOf_enter (s := s.setLock node (some token)) hstage .storing
    refine h.enter hstage hstages (hquiet token _ _ _ hstage hstages (fun _ => rfl) rfl rfl)
      (fun node' x hx => ?_) ?_ nofun
    · have hx' : (if node' = node then some token else s.locks node') = some x := hx
      split at hx'
      next => exact Or.inr ⟨(Option.some.inj hx').symm, rfl⟩
      next => exact Or.inl hx'
    · rintro (hold | hold) <;> cases hold
  | refused token hstage =>
    have hstages := stageOf_enter hstage .done
    exact h.enter hstage hstages (hquiet token _ _ _ hstage hstages nofun rfl rfl)
      (fun _ _ hx => Or.inl hx) (fun _ => rfl) nofun
  | stored token ok hstage =>
    have hstages := stageOf_enter hstage (if ok then .stored else .done)
    refine h.enter hstage hstages (hquiet token _ _ _ hstage hstages (fun _ => rfl) rfl rfl)
      (fun _ _ hx => Or.inl hx) (fun _ => ?_) (fun x hx => ?_)
    · cases ok <;> rfl
    · cases ok <;> cases hx
  | afterStore token held node hattempt hlock =>
    have hstage := stageOf_of hattempt
    have hstages := stageOf_enter (s := s.setLock node none) hstage (.releasing held)
    refine h.enter hstage hstages (hquiet token _ _ _ hstage hstages nofun rfl rfl)
      (fun node' x hx => ?_) (fun _ => rfl) (fun x hx => ?_)
    · have hx' : (if node' = node then none else s.locks node') = some x := hx
      split at hx'
      next => cases hx'
      next => exact Or.inl hx'
    · cases hx
      rcases h.locked node held hlock with hstoring | hover
      · exact absurd ⟨.storing, hstoring, rfl⟩ (htime node held hattempt hlock)
      · exact hover
  | nothing token hstage =>
    have hstages := stageOf_enter hstage .done
    exact h.enter hstage hstages (hquiet token _ _ _ hstage hstages nofun rfl rfl)
      (fun _ _ hx => Or.inl hx) (fun _ => rfl) nofun
  | release token held hstage =>
    have hstages := stageOf_enter (s := { s with key := s.key.delIf s.now held }) hstage .done
    refine h.enter hstage hstages (fun x hx => ?_) (fun _ _ hx => Or.inl hx) (fun _ => rfl) nofun
    rcases holds_enter hstages hx with ⟨_, hnew⟩ | ⟨_, hx⟩
    · cases hnew
    · -- what is released is over, and so not the lock of anyone who holds it
      obtain ⟨stage, hheld, hover⟩ := h.releasing token held hstage
      refine Key.live_delIf (h.held x hx) fun heq => ?_
      subst heq
      exact not_holds_of_over hheld hover hx
  | lose token old hstage =>
    have hstages := stageOf_enter hstage .done
    exact h.enter hstage hstages (hquiet token _ _ _ hstage hstages nofun rfl rfl)
      (fun _ _ hx => Or.inl hx) (fun _ => rfl) nofun
  | wait time =>
    refine ⟨fun x hx => ?_, h.locked, h.releasing⟩
    obtain ⟨deadline, hkey, _⟩ := Key.live_eq_some.mp (h.held x hx)
    exact Key.live_eq_some.mpr ⟨deadline, hkey, htime x deadline hx hkey⟩

/-- **Mutual exclusion**: in every run in which no lease runs out under its
holder, at most one node is between the acquisition of the lock and
the end of its store. -/
theorem store_exclusive {ls : List (Label ι)} (htime : Lts.Along (step lockTimeoutMs) InTime (start ι) ls)
    (hrun : Lts.exec (step lockTimeoutMs) (start ι) ls = some s) : s.Exclusive :=
  (Lts.exec_invariant_along (fun _ _ _ hstep hc h => Guarded.step h hstep hc) htime hrun
    guarded_start).exclusive

/-- A test for `InTime`. -/
def inTime (s : State ι) : Label ι → Bool
  | .wait time => s.key.all fun held => decide (s.now + time < held.2)
  | .afterStore token => (s.attempts[token]?).all fun a => (s.locks a.node).all fun held =>
      !(s.stageOf held).any Stage.holds
  | _ => true

omit [DecidableEq ι] in
theorem inTime_sound (h : s.inTime l = true) : s.InTime l t := by
  cases l with
  | wait time =>
    intro token deadline _ hkey
    unfold inTime at h
    dsimp only at h
    rw [hkey] at h
    exact of_decide_eq_true h
  | afterStore token =>
    rintro node held hattempt hlock ⟨stage, hstage, hholds⟩
    unfold inTime at h
    dsimp only at h
    rw [hattempt, Option.all_some, hlock, Option.all_some, hstage, Option.any_some, hholds] at h
    cases h
  | _ => trivial

/-- A node's store attempt, up to where `Database` stores. -/
def acquire (node : Bool) (token : Nat) : List (Label Bool) :=
  [.begin node, .set token, .reply token]

/-- Half a lease of storing, and the release. -/
def storeAndRelease (token : Nat) : List (Label Bool) :=
  [.wait 500, .stored token true, .afterStore token, .release token]

/-- Two nodes, one after the other. -/
theorem store_exclusive_in_turn :
    (Lts.reach (step fun _ => 1000) (start Bool)
      (acquire true 0 ++ storeAndRelease 0 ++ acquire false 1)).Exclusive :=
  store_exclusive (Lts.along_of_check (fun _ _ _ => inTime_sound) (by decide +kernel))
    (Lts.exec_reach (by decide +kernel))

/-- A store that takes longer than the lease: the second node acquires the lock
while the first still stores. -/
theorem store_not_exclusive : ¬ ∀ (lockTimeoutMs : Bool → Nat) (ls : List (Label Bool)) (s : State Bool),
    Lts.exec (step lockTimeoutMs) (start Bool) ls = some s → s.Exclusive := by
  intro hall
  have hexclusive := hall (fun _ => 1000) (acquire true 0 ++ [.wait 1500] ++ acquire false 1) _
    (Lts.exec_reach (by decide +kernel))
  have hsame := hexclusive 0 1 ⟨true, .storing⟩ ⟨false, .storing⟩ (by decide +kernel)
    (by decide +kernel) rfl rfl
  cases hsame

end State

end Hocuspocus.StoreLock
