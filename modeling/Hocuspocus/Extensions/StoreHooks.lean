import Mathlib.Algebra.Ring.Nat
import Hocuspocus.Lib.Lease
import Hocuspocus.Document.State

/-!
# The store lock among the store hooks

`run_store` and the task of `spawn_store` run the hooks of a store in the same
way: `on_store_document` of one extension after the other up to the first error,
and if there is none, `after_store_document` of all of them. `RedisScaling` is
one of the extensions. It takes the lock of the document in the first loop and
gives it back in the second, so what the extensions behind it answer decides
whether it comes to that (`lock_released`). The answers are what `runStore` and
`finishStore` of the actor go by.

`StoreLock` has the stores of all nodes and one hook behind the lock; here is one
store, with the whole list of extensions, and the other nodes are what goes on
elsewhere while a hook runs. Nobody else has the token of this store, which
stands for its uuid. A second `RedisScaling` with `locks` of its own counts as
one of the others.
-/

namespace Hocuspocus.StoreHooks

open Lease

variable {α : Type}

/-- What goes on elsewhere: time passes, and others use the key. -/
inductive Elsewhere (α : Type)
  | wait (time : Nat)
  | set (token : α) (px : Nat)
  | release (token : α)

/-- Whose token it has. -/
def Elsewhere.token : Elsewhere α → Option α
  | .wait _ => none
  | .set token _ | .release token => some token

def Elsewhere.time : Elsewhere α → Nat
  | .wait time => time
  | .set _ _ | .release _ => 0

/-- A command to Redis and its answer, with what goes on before Redis executes it
and before the answer is there; either can be lost. -/
structure Command (α : Type) where
  sent : List (Elsewhere α)
  executed : Bool
  replied : List (Elsewhere α)
  answered : Bool

def Command.during (c : Command α) : List (Elsewhere α) := c.sent ++ c.replied

/-- An extension, with what its two hooks meet and answer in a store. What
`after_store_document` answers is only logged. -/
inductive Extension (α : Type)
  | redisScaling (token : α) (set release : Command α)
  | other (onStoreDocument : HookResult) (during duringAfter : List (Elsewhere α))

/-- The lock of the document: its key in Redis, and the entry in `locks`. -/
structure Lock (α : Type) where
  now : Nat
  key : Key α
  locks : Option α

namespace Lock

variable [DecidableEq α]

def elsewhere (s : Lock α) : Elsewhere α → Lock α
  | .wait time => { s with now := s.now + time }
  | .set token px => { s with key := (s.key.setNx s.now px token).1 }
  | .release token => { s with key := s.key.delIf s.now token }

def meanwhile (s : Lock α) (acts : List (Elsewhere α)) : Lock α := acts.foldl elsewhere s

end Lock

/-- "another node holds the document lock" -/
def notAcquired : HookError := ⟨"another node holds the document lock", none⟩

namespace Extension

variable [DecidableEq α]

def onStoreDocument (lockTimeoutMs : Nat) (s : Lock α) : Extension α → Lock α × HookResult
  | .redisScaling token set _ =>
    let s := s.meanwhile set.sent
    let acquired := s.key.setNx s.now lockTimeoutMs token
    let s := if set.executed then { s with key := acquired.1 } else s
    let s := s.meanwhile set.replied
    -- an error of the command counts as `None`
    if set.executed && acquired.2 && set.answered then ({ s with locks := some token }, .ok ())
    else (s, .error notAcquired)
  | .other result during _ => (s.meanwhile during, result)

def afterStoreDocument (s : Lock α) : Extension α → Lock α
  | .redisScaling _ _ release =>
    match s.locks with
    | none => s
    | some token =>
      let s := { s with locks := none }.meanwhile release.sent
      let s := if release.executed then { s with key := s.key.delIf s.now token } else s
      s.meanwhile release.replied
  | .other _ _ duringAfter => s.meanwhile duringAfter

end Extension

section

variable [DecidableEq α]

/-- The loop over `on_store_document`: it ends with the first error. -/
def onStoreLoop (lockTimeoutMs : Nat) (s : Lock α) : List (Extension α) → Lock α × List HookResult
  | [] => (s, [])
  | ext :: extensions =>
    match ext.onStoreDocument lockTimeoutMs s with
    | (s, .ok ()) =>
      let rest := onStoreLoop lockTimeoutMs s extensions
      (rest.1, .ok () :: rest.2)
    | (s, .error e) => (s, [.error e])

/-- The hooks of a store, and what they answered. -/
def storeHooks (lockTimeoutMs : Nat) (s : Lock α) (extensions : List (Extension α)) :
    Lock α × List HookResult :=
  let stored := onStoreLoop lockTimeoutMs s extensions
  if (firstError stored.2).isNone then
    (extensions.foldl Extension.afterStoreDocument stored.1, stored.2)
  else stored

end

namespace Extension

def isRedisScaling : Extension α → Bool
  | .redisScaling _ _ _ => true
  | .other _ _ _ => false

/-- Its `on_store_document` returns `Ok`, if it is one of the others. -/
def stores : Extension α → Bool
  | .redisScaling _ _ _ => false
  | .other result _ _ => result.toBool

/-- What goes on while its hooks run. -/
def during : Extension α → List (Elsewhere α)
  | .redisScaling _ set _ => set.during
  | .other _ during _ => during

def duringAfter : Extension α → List (Elsewhere α)
  | .redisScaling _ _ release => release.during
  | .other _ _ duringAfter => duringAfter

end Extension

/-- How much time passes. -/
def elapsed (acts : List (Elsewhere α)) : Nat := (acts.map Elsewhere.time).sum

theorem elapsed_append (acts more : List (Elsewhere α)) :
    elapsed (acts ++ more) = elapsed acts + elapsed more := by
  rw [elapsed, List.map_append, List.sum_append]
  rfl

/-- It has nothing to do with the token. -/
def Elsewhere.Foreign (token : α) (acts : List (Elsewhere α)) : Prop :=
  ∀ act ∈ acts, act.token ≠ some token

variable [DecidableEq α]

/-! ## What goes on elsewhere -/

namespace Lock

@[simp] theorem meanwhile_nil (s : Lock α) : s.meanwhile [] = s := rfl

@[simp] theorem meanwhile_append (s : Lock α) (acts more : List (Elsewhere α)) :
    s.meanwhile (acts ++ more) = (s.meanwhile acts).meanwhile more := List.foldl_append

theorem meanwhile_locks (acts : List (Elsewhere α)) : ∀ s : Lock α,
    (s.meanwhile acts).locks = s.locks := by
  induction acts with
  | nil => exact fun s => rfl
  | cons act acts ih =>
    intro s
    refine (ih (s.elsewhere act)).trans ?_
    cases act <;> rfl

theorem meanwhile_now (acts : List (Elsewhere α)) : ∀ s : Lock α,
    (s.meanwhile acts).now = s.now + elapsed acts := by
  induction acts with
  | nil => exact fun s => rfl
  | cons act acts ih =>
    intro s
    have hfirst : (s.elsewhere act).now = s.now + act.time := by
      cases act <;> rfl
    have hrest := ih (s.elsewhere act)
    rw [hfirst] at hrest
    rw [elapsed, List.map_cons, List.sum_cons, ← Nat.add_assoc]
    exact hrest

/-- The key is in the lease of the token. -/
def Leased (s : Lock α) (token : α) (deadline : Nat) : Prop := s.key.Leased s.now token deadline

theorem Leased.meanwhile {token : α} {deadline : Nat} {acts : List (Elsewhere α)} : ∀ {s : Lock α},
    s.Leased token deadline → Elsewhere.Foreign token acts →
      (s.meanwhile acts).Leased token deadline := by
  induction acts with
  | nil => exact fun h _ => h
  | cons act acts ih =>
    intro s h hforeign
    have hact := hforeign act (List.mem_cons_self ..)
    refine ih (s := s.elsewhere act) ?_ fun other hother =>
      hforeign other (List.mem_cons_of_mem _ hother)
    cases act with
    | wait time => exact Key.Leased.wait h time
    | set other px => exact Key.Leased.setNx h (fun heq => hact (congrArg some heq)) px
    | release other => exact Key.Leased.delIf h fun heq => hact (congrArg some heq)

end Lock

/-! ## The other extensions -/

/-- Hooks that are not the lock's take their time and leave `locks` alone; the
loop gets through them if all return `Ok`. -/
theorem onStoreLoop_others (lockTimeoutMs : Nat) {extensions : List (Extension α)} :
    ∀ s : Lock α, (∀ ext ∈ extensions, ext.isRedisScaling = false) →
      (onStoreLoop lockTimeoutMs s extensions).1.locks = s.locks ∧
      (firstError (onStoreLoop lockTimeoutMs s extensions).2 = none ↔
        ∀ ext ∈ extensions, ext.stores = true) ∧
      (firstError (onStoreLoop lockTimeoutMs s extensions).2 = none →
        (onStoreLoop lockTimeoutMs s extensions).1
          = s.meanwhile (extensions.flatMap Extension.during)) := by
  induction extensions with
  | nil =>
    intro s _
    exact ⟨rfl, ⟨fun _ ext hext => absurd hext List.not_mem_nil, fun _ => rfl⟩, fun _ => rfl⟩
  | cons ext extensions ih =>
    intro s hothers
    have hrest := fun t => ih t fun e he => hothers e (List.mem_cons_of_mem _ he)
    cases ext with
    | redisScaling token set release => cases hothers _ (List.mem_cons_self ..)
    | other result during duringAfter =>
      cases result with
      | error e =>
        refine ⟨Lock.meanwhile_locks during s, ⟨(fun h => by cases h), fun h => ?_⟩,
          fun h => by cases h⟩
        cases h _ (List.mem_cons_self ..)
      | ok u =>
        obtain ⟨hlocks, hiff, hstate⟩ := hrest (s.meanwhile during)
        refine ⟨hlocks.trans (Lock.meanwhile_locks during s), ⟨fun h e he => ?_, fun h => ?_⟩,
          fun h => ?_⟩
        · rcases List.mem_cons.mp he with rfl | he
          · rfl
          · exact hiff.mp h e he
        · exact hiff.mpr fun e he => h e (List.mem_cons_of_mem _ he)
        · have hall := hstate h
          rw [List.flatMap_cons, Lock.meanwhile_append]
          exact hall

theorem onStoreLoop_append {lockTimeoutMs : Nat} {extensions more : List (Extension α)} :
    ∀ {s : Lock α}, firstError (onStoreLoop lockTimeoutMs s extensions).2 = none →
      onStoreLoop lockTimeoutMs s (extensions ++ more)
        = ((onStoreLoop lockTimeoutMs (onStoreLoop lockTimeoutMs s extensions).1 more).1,
          (onStoreLoop lockTimeoutMs s extensions).2 ++
            (onStoreLoop lockTimeoutMs (onStoreLoop lockTimeoutMs s extensions).1 more).2) := by
  induction extensions with
  | nil => exact fun _ => rfl
  | cons ext extensions ih =>
    intro s h
    rw [onStoreLoop] at h ⊢
    rw [List.cons_append, onStoreLoop]
    generalize ext.onStoreDocument lockTimeoutMs s = called at h ⊢
    obtain ⟨t, result⟩ := called
    cases result with
    | error e => cases h
    | ok u =>
      have hrest := ih (s := t) h
      dsimp only
      rw [hrest]
      rfl

theorem firstError_append {results more : List HookResult} (h : firstError results = none) :
    firstError (results ++ more) = firstError more := by
  induction results with
  | nil => rfl
  | cons result results ih =>
    cases result with
    | error e => cases h
    | ok u => exact ih h

theorem afterLoop_others {extensions : List (Extension α)} : ∀ {s : Lock α},
    (∀ ext ∈ extensions, ext.isRedisScaling = false) →
      extensions.foldl Extension.afterStoreDocument s
        = s.meanwhile (extensions.flatMap Extension.duringAfter) := by
  induction extensions with
  | nil => exact fun _ => rfl
  | cons ext extensions ih =>
    intro s hothers
    cases ext with
    | redisScaling token set release => cases hothers _ (List.mem_cons_self ..)
    | other result during duringAfter =>
      rw [List.flatMap_cons, Lock.meanwhile_append]
      exact ih fun e he => hothers e (List.mem_cons_of_mem _ he)

/-! ## The lock's own hooks -/

/-- The lock is acquired: from the execution of the `SET` on the key is leased. -/
theorem onStoreDocument_acquired {lockTimeoutMs : Nat} {s : Lock α} {token : α}
    {set release : Command α} (hforeign : Elsewhere.Foreign token set.replied)
    (h : (Extension.onStoreDocument lockTimeoutMs s (.redisScaling token set release)).2 = .ok ()) :
    ∃ t executedAt, Extension.onStoreDocument lockTimeoutMs s (.redisScaling token set release)
        = (t, .ok ()) ∧ t.locks = some token ∧ t.now = executedAt + elapsed set.replied ∧
      t.Leased token (executedAt + lockTimeoutMs) := by
  unfold Extension.onStoreDocument at h ⊢
  dsimp only at h ⊢
  split at h
  next hboth =>
    rw [if_pos hboth]
    rw [Bool.and_eq_true, Bool.and_eq_true] at hboth
    obtain ⟨⟨hexecuted, hset⟩, _⟩ := hboth
    refine ⟨_, (s.meanwhile set.sent).now, rfl, rfl, ?_, ?_⟩
    · rw [if_pos hexecuted]
      exact Lock.meanwhile_now set.replied _
    · rw [if_pos hexecuted]
      have hleased : ({ s.meanwhile set.sent with
          key := ((s.meanwhile set.sent).key.setNx (s.meanwhile set.sent).now lockTimeoutMs
            token).1 } : Lock α).Leased token ((s.meanwhile set.sent).now + lockTimeoutMs) :=
        Key.setNx_leased hset
      exact hleased.meanwhile hforeign
  next => cases h

/-- The entry of `locks` goes; the key goes if the script gets to Redis. -/
theorem afterStoreDocument_released {s : Lock α} {token : α} (set : Command α)
    {release : Command α} {deadline : Nat} (hlocks : s.locks = some token)
    (hleased : s.Leased token deadline)
    (hforeign : Elsewhere.Foreign token release.during) :
    ∃ t, Extension.afterStoreDocument s (.redisScaling token set release) = t ∧ t.locks = none ∧
      t.now = s.now + elapsed release.during ∧
      (release.executed = true → ∃ d, d ≤ t.now ∧ t.Leased token d) ∧
      (release.executed = false → t.Leased token deadline) := by
  have hsent : Elsewhere.Foreign token release.sent := fun act hact =>
    hforeign act (List.mem_append_left _ hact)
  have hreplied : Elsewhere.Foreign token release.replied := fun act hact =>
    hforeign act (List.mem_append_right _ hact)
  have hremoved : ({ s with locks := none } : Lock α).Leased token deadline := hleased
  have hbefore := hremoved.meanwhile hsent
  refine ⟨_, rfl, ?_⟩
  unfold Extension.afterStoreDocument
  dsimp only
  rw [hlocks]
  dsimp only
  have hlocksnone := Lock.meanwhile_locks release.sent ({ s with locks := none } : Lock α)
  have hnow := Lock.meanwhile_now release.sent ({ s with locks := none } : Lock α)
  generalize ({ s with locks := none } : Lock α).meanwhile release.sent = u at *
  cases hexecuted : release.executed with
  | true =>
    rw [if_pos rfl]
    refine ⟨?_, ?_, fun _ => ?_, fun h => by cases h⟩
    · rw [Lock.meanwhile_locks]
      exact hlocksnone
    · rw [Lock.meanwhile_now, Command.during, elapsed_append]
      dsimp only at hnow ⊢
      omega
    · obtain ⟨d, hd, hover⟩ := Key.Leased.delIf_self hbefore
      have hdeleted : ({ u with key := u.key.delIf u.now token } : Lock α).Leased token d := hover
      refine ⟨d, ?_, hdeleted.meanwhile hreplied⟩
      rw [Lock.meanwhile_now]
      exact Nat.le_trans hd (Nat.le_add_right _ _)
  | false =>
    rw [if_neg Bool.false_ne_true]
    refine ⟨?_, ?_, (fun h => by cases h), fun _ => hbefore.meanwhile hreplied⟩
    · rw [Lock.meanwhile_locks]
      exact hlocksnone
    · rw [Lock.meanwhile_now, Command.during, elapsed_append]
      dsimp only at hnow ⊢
      omega

/-! ## A whole store -/

/-- The store gets to the lock, and acquires it. -/
def Acquires (lockTimeoutMs : Nat) (s : Lock α) (before : List (Extension α))
    (lock : Extension α) : Prop :=
  firstError (onStoreLoop lockTimeoutMs s before).2 = none ∧
    (lock.onStoreDocument lockTimeoutMs (onStoreLoop lockTimeoutMs s before).1).2 = .ok ()

/-- Neither `locks` nor the key has anything of the store. -/
def Lock.Free (s : Lock α) (token : α) : Prop := s.locks = none ∧ s.key.live s.now ≠ some token

section

variable {lockTimeoutMs : Nat} {s : Lock α} {before after : List (Extension α)} {token : α}
  {set release : Command α}

omit [DecidableEq α] in
theorem foreign_flatMap {extensions : List (Extension α)} {f : Extension α → List (Elsewhere α)}
    (h : ∀ ext ∈ extensions, Elsewhere.Foreign token (f ext)) :
    Elsewhere.Foreign token (extensions.flatMap f) := by
  intro act hact
  obtain ⟨ext, hext, hmem⟩ := List.mem_flatMap.mp hact
  exact h ext hext act hmem

/-- The first loop: up to the lock, the lock, and then what is behind it. -/
theorem onStoreLoop_acquired (hforeign : Elsewhere.Foreign token set.replied)
    (hacquires : Acquires lockTimeoutMs s before (.redisScaling token set release))
    (after : List (Extension α)) :
    ∃ t executedAt, t.locks = some token ∧ t.now = executedAt + elapsed set.replied ∧
      t.Leased token (executedAt + lockTimeoutMs) ∧
      (onStoreLoop lockTimeoutMs s (before ++ .redisScaling token set release :: after)).1
        = (onStoreLoop lockTimeoutMs t after).1 ∧
      firstError (onStoreLoop lockTimeoutMs s (before ++ .redisScaling token set release :: after)).2
        = firstError (onStoreLoop lockTimeoutMs t after).2 := by
  obtain ⟨hok, hset⟩ := hacquires
  obtain ⟨t, executedAt, hcall, hlocks, hnow, hleased⟩ := onStoreDocument_acquired hforeign hset
  have hloop : onStoreLoop lockTimeoutMs s (before ++ .redisScaling token set release :: after)
      = ((onStoreLoop lockTimeoutMs t after).1, (onStoreLoop lockTimeoutMs s before).2 ++
          .ok () :: (onStoreLoop lockTimeoutMs t after).2) := by
    rw [onStoreLoop_append hok, onStoreLoop, hcall]
  refine ⟨t, executedAt, hlocks, hnow, hleased, by rw [hloop], ?_⟩
  rw [hloop, firstError_append hok]
  rfl

/-- The second loop: `locks` still has the token when the turn is the lock's. -/
theorem afterLoop_released {deadline : Nat}
    (hothers : ∀ ext ∈ before ++ after, ext.isRedisScaling = false)
    (hforeign : ∀ ext ∈ before ++ .redisScaling token set release :: after,
      Elsewhere.Foreign token ext.duringAfter)
    (hlocks : s.locks = some token) (hleased : s.Leased token deadline) :
    ∃ t, (before ++ .redisScaling token set release :: after).foldl Extension.afterStoreDocument s
        = t ∧ t.locks = none ∧
      t.now = s.now + elapsed (before.flatMap Extension.duringAfter ++ release.during ++
        after.flatMap Extension.duringAfter) ∧
      (release.executed = true → ∃ d, d ≤ t.now ∧ t.Leased token d) ∧
      (release.executed = false → t.Leased token deadline) := by
  have hbefore : Elsewhere.Foreign token (before.flatMap Extension.duringAfter) :=
    foreign_flatMap fun ext hext => hforeign ext (List.mem_append_left _ hext)
  have hafter : Elsewhere.Foreign token (after.flatMap Extension.duringAfter) :=
    foreign_flatMap fun ext hext =>
      hforeign ext (List.mem_append_right _ (List.mem_cons_of_mem _ hext))
  have hrelease : Elsewhere.Foreign token release.during :=
    hforeign (.redisScaling token set release) (List.mem_append_right _ (List.mem_cons_self ..))
  have hheld : (s.meanwhile (before.flatMap Extension.duringAfter)).locks = some token := by
    rw [Lock.meanwhile_locks, hlocks]
  obtain ⟨u, hcalled, hnone, hnow, hexecuted, hlost⟩ :=
    afterStoreDocument_released set hheld (hleased.meanwhile hbefore) hrelease
  have hend := Lock.meanwhile_now (after.flatMap Extension.duringAfter) u
  refine ⟨u.meanwhile (after.flatMap Extension.duringAfter), ?_, ?_, ?_, fun hscript => ?_,
    fun hscript => (hlost hscript).meanwhile hafter⟩
  · rw [List.foldl_append, List.foldl_cons,
      afterLoop_others fun ext hext => hothers ext (List.mem_append_left _ hext), hcalled,
      afterLoop_others fun ext hext => hothers ext (List.mem_append_right _ hext)]
  · rw [Lock.meanwhile_locks, hnone]
  · rw [Lock.meanwhile_now] at hnow
    rw [hend, hnow, elapsed_append, elapsed_append]
    omega
  · obtain ⟨d, hd, hover⟩ := hexecuted hscript
    refine ⟨d, ?_, hover.meanwhile hafter⟩
    omega

/-- What goes on from the execution of the `SET` to the end of a store whose
hooks all return `Ok`. -/
def held (before : List (Extension α)) (set release : Command α) (after : List (Extension α)) :
    List (Elsewhere α) :=
  set.replied ++ after.flatMap Extension.during ++ (before.flatMap Extension.duringAfter ++
    release.during ++ after.flatMap Extension.duringAfter)

/-- **When the lock is released**: after a store that has acquired it, the lock
is free if and only if every extension behind `RedisScaling` has stored, and Redis
has executed the script or the lease has run out by the end. -/
theorem lock_released (hothers : ∀ ext ∈ before ++ after, ext.isRedisScaling = false)
    (hforeign : ∀ ext ∈ before ++ .redisScaling token set release :: after,
      Elsewhere.Foreign token ext.during ∧ Elsewhere.Foreign token ext.duringAfter)
    (hacquires : Acquires lockTimeoutMs s before (.redisScaling token set release)) :
    (storeHooks lockTimeoutMs s (before ++ .redisScaling token set release :: after)).1.Free token ↔
      (∀ ext ∈ after, ext.stores = true) ∧
      (release.executed = true ∨ lockTimeoutMs ≤ elapsed (held before set release after)) := by
  have hset : Elsewhere.Foreign token set.during :=
    (hforeign (.redisScaling token set release)
      (List.mem_append_right _ (List.mem_cons_self ..))).1
  have hafter : Elsewhere.Foreign token (after.flatMap Extension.during) :=
    foreign_flatMap fun ext hext =>
      (hforeign ext (List.mem_append_right _ (List.mem_cons_of_mem _ hext))).1
  obtain ⟨t, executedAt, hlocks, hnow, hleased, hloop, hresult⟩ := onStoreLoop_acquired
    (fun act hact => hset act (List.mem_append_right _ hact)) hacquires after
  obtain ⟨hkeeps, hstores, hmeanwhile⟩ := onStoreLoop_others lockTimeoutMs t
    fun ext hext => hothers ext (List.mem_append_right before hext)
  unfold storeHooks
  dsimp only
  rw [hresult]
  cases hfirst : firstError (onStoreLoop lockTimeoutMs t after).2 with
  | some e =>
    -- `after_store_document` is not called, and `locks` has the token
    rw [Option.isNone_some, if_neg Bool.false_ne_true, hloop]
    constructor
    · intro hfree
      have hnone : (onStoreLoop lockTimeoutMs t after).1.locks = none := hfree.1
      rw [hkeeps, hlocks] at hnone
      cases hnone
    · intro h
      have hnone := hstores.mpr h.1
      rw [hfirst] at hnone
      cases hnone
  | none =>
    rw [Option.isNone_none, if_pos rfl, hloop, hmeanwhile hfirst]
    obtain ⟨u, hsecond, hnone, hunow, hexecuted, hlost⟩ := afterLoop_released hothers
      (fun ext hext => (hforeign ext hext).2)
      ((Lock.meanwhile_locks _ t).trans hlocks) (hleased.meanwhile hafter)
    have htotal : u.now = executedAt + elapsed (held before set release after) := by
      rw [Lock.meanwhile_now, hnow] at hunow
      rw [hunow, held, elapsed_append (set.replied ++ _), elapsed_append set.replied]
      omega
    dsimp only
    rw [hsecond]
    cases hscript : release.executed with
    | true =>
      obtain ⟨d, hd, hover⟩ := hexecuted hscript
      refine ⟨fun _ => ⟨hstores.mp hfirst, Or.inl rfl⟩, fun _ => ⟨hnone, fun hlive => ?_⟩⟩
      have hlt := hover.live_iff.mp hlive
      omega
    | false =>
      have hlive := (hlost hscript).live_iff
      rw [Lock.Free, Ne, hlive, htotal]
      constructor
      · intro hfree
        exact ⟨hstores.mp hfirst, Or.inr (by omega)⟩
      · intro h
        have hlong := h.2.resolve_left Bool.false_ne_true
        exact ⟨hnone, by omega⟩

/-- While the lease of a store that did not give the lock back goes on, the next
store of the node is refused: "another node holds the document lock". -/
theorem retry_refused {deadline : Nat} {next : α} {sets releases : Command α}
    (hleased : s.Leased token deadline) (hforeign : Elsewhere.Foreign token sets.sent)
    (hsoon : s.now + elapsed sets.sent < deadline) :
    (Extension.onStoreDocument lockTimeoutMs s (.redisScaling next sets releases)).2
      = .error notAcquired := by
  have hlive : (s.meanwhile sets.sent).key.live (s.meanwhile sets.sent).now = some token := by
    refine (hleased.meanwhile hforeign).live_iff.mpr ?_
    rw [Lock.meanwhile_now]
    exact hsoon
  have hrefused : ((s.meanwhile sets.sent).key.setNx (s.meanwhile sets.sent).now lockTimeoutMs
      next).2 = false := by
    unfold Key.setNx
    rw [hlive, Option.isSome_some, if_pos (Or.inr rfl)]
  unfold Extension.onStoreDocument
  dsimp only
  rw [hrefused, Bool.and_false, Bool.false_and, if_neg Bool.false_ne_true]

end

/-- A command that takes one way and the other a time unit. -/
def prompt : Command Nat := ⟨[.wait 1], true, [.wait 1], true⟩

/-- `RedisScaling` and then an extension that stores, while another node asks for
the lock: it is free afterwards. -/
theorem lock_released_stored :
    (storeHooks 1000 ⟨0, none, none⟩
      [.redisScaling 0 prompt prompt, .other (.ok ()) [.wait 300, .set 1 1000] []]).1.Free 0 := by
  have hfree : (storeHooks 1000 ⟨0, none, none⟩ ([] ++ .redisScaling 0 prompt prompt ::
      [.other (.ok ()) [.wait 300, .set 1 1000] []])).1.Free 0 := by
    refine (lock_released (by decide) ?_ ⟨rfl, rfl⟩).mpr ⟨by decide, Or.inl rfl⟩
    unfold Elsewhere.Foreign
    decide
  exact hfree

/-- The extension behind `RedisScaling` fails, and the lock is not released; the
node is refused when it tries again. -/
theorem lock_leaked :
    ¬ (∀ (lockTimeoutMs : Nat) (s : Lock Nat) (before after : List (Extension Nat)) (token : Nat)
        (set release : Command Nat),
      (∀ ext ∈ before ++ after, ext.isRedisScaling = false) →
      (∀ ext ∈ before ++ .redisScaling token set release :: after,
        Elsewhere.Foreign token ext.during ∧ Elsewhere.Foreign token ext.duringAfter) →
      Acquires lockTimeoutMs s before (.redisScaling token set release) →
      (storeHooks lockTimeoutMs s (before ++ .redisScaling token set release :: after)).1.Free
        token) ∧
    (storeHooks 1000
      (storeHooks 1000 ⟨0, none, none⟩
        [.redisScaling 0 prompt prompt, .other (.error ⟨"disk full", none⟩) [] []]).1
      [.redisScaling 1 prompt prompt, .other (.ok ()) [] []]).2 = [.error notAcquired] := by
  refine ⟨fun hall => ?_, rfl⟩
  have hfree := hall 1000 ⟨0, none, none⟩ [] [.other (.error ⟨"disk full", none⟩) [] []] 0 prompt
    prompt (by decide) (by unfold Elsewhere.Foreign; decide) ⟨rfl, rfl⟩
  cases hfree.1

end Hocuspocus.StoreHooks
