import Mathlib.Data.Int.Order.Basic
import Hocuspocus.Lib.Ranked
import Hocuspocus.Extensions.StoreHooks

/-!
# The extensions by priority

`ServerBuilder::build` sorts the extensions by descending priority, and all hooks
run in that order. `RedisScaling` says why it wants a high one: "Higher priority so
the store lock is acquired before the database extension persists". So it is,
whatever the order of registration (`stores_locked`): an extension of lower priority
is asked to store only after the lock was acquired for this store, and the key is
this store's until the lease runs out.

The order of registration does matter among extensions of one priority
(`build_eq_iff`), and 100 is the priority of every extension that does not say.
-/

namespace Hocuspocus.StoreHooks

open Lease

variable {α : Type}

/-- An extension with its priority; the one of `RedisScaling` is fixed. -/
structure Registered (α : Type) where
  extension : Extension α
  priority : Int
  scaling : extension.isRedisScaling = true → priority = 1000

def Registered.redisScaling (token : α) (set release : Command α) : Registered α :=
  ⟨.redisScaling token set release, 1000, fun _ => rfl⟩

/-- An extension that keeps the priority of the trait. -/
def Registered.plain (onStoreDocument : HookResult) (during duringAfter : List (Elsewhere α)) :
    Registered α :=
  ⟨.other onStoreDocument during duringAfter, 100, fun h => by cases h⟩

/-- The extensions in the order in which the server has them. -/
def build (registered : List (Registered α)) : List (Registered α) :=
  Ranked.sort Registered.priority registered

/-- Two servers have their extensions in one order if and only if those of each
priority were registered in one order. -/
theorem build_eq_iff {registered others : List (Registered α)} :
    build registered = build others ↔ ∀ priority,
      Ranked.ofRank Registered.priority priority registered
        = Ranked.ofRank Registered.priority priority others :=
  Ranked.sort_eq_iff

namespace Extension

/-- The token it sets the key to. -/
def token : Extension α → Option α
  | .redisScaling token _ _ => some token
  | .other _ _ _ => none

/-- Its `on_store_document` has nothing to do with the token of this store. -/
def Foreign (own : α) (ext : Extension α) : Prop :=
  ext.token ≠ some own ∧ Elsewhere.Foreign own ext.during

variable [DecidableEq α]

theorem onStoreDocument_now (lockTimeoutMs : Nat) (s : Lock α) (ext : Extension α) :
    (ext.onStoreDocument lockTimeoutMs s).1.now = s.now + elapsed ext.during := by
  cases ext with
  | other result during duringAfter => exact Lock.meanwhile_now during s
  | redisScaling token set release =>
    have hend : ∀ key, ((if set.executed = true then { s.meanwhile set.sent with key }
        else s.meanwhile set.sent).meanwhile set.replied).now
          = s.now + (elapsed set.sent + elapsed set.replied) := by
      intro key
      rw [Lock.meanwhile_now, ← Nat.add_assoc, ← Lock.meanwhile_now set.sent s]
      split <;> rfl
    rw [Extension.during, Command.during, elapsed_append]
    unfold Extension.onStoreDocument
    dsimp only
    split
    · exact hend _
    · exact hend _

/-- A foreign hook leaves the lease alone, also if it is another store's lock. -/
theorem onStoreDocument_leased {lockTimeoutMs : Nat} {s : Lock α} {own : α} {deadline : Nat}
    {ext : Extension α} (hleased : s.Leased own deadline) (hforeign : ext.Foreign own) :
    (ext.onStoreDocument lockTimeoutMs s).1.Leased own deadline := by
  obtain ⟨htoken, hduring⟩ := hforeign
  cases ext with
  | other result during duringAfter => exact hleased.meanwhile hduring
  | redisScaling token set release =>
    have hsent : Elsewhere.Foreign own set.sent := fun act hact =>
      hduring act (List.mem_append_left _ hact)
    have hreplied : Elsewhere.Foreign own set.replied := fun act hact =>
      hduring act (List.mem_append_right _ hact)
    have hne : token ≠ own := fun heq => htoken (congrArg some heq)
    have hbefore := hleased.meanwhile hsent
    unfold Extension.onStoreDocument
    dsimp only
    generalize s.meanwhile set.sent = u at hbefore
    have hset : ({ u with key := (u.key.setNx u.now lockTimeoutMs token).1 } : Lock α).Leased own
        deadline := Key.Leased.setNx hbefore hne lockTimeoutMs
    have hexecuted : (if set.executed = true then
        { u with key := (u.key.setNx u.now lockTimeoutMs token).1 } else u).Leased own deadline := by
      split
      · exact hset
      · exact hbefore
    split
    · exact hexecuted.meanwhile hreplied
    · exact hexecuted.meanwhile hreplied

end Extension

variable [DecidableEq α]

theorem onStoreLoop_leased {lockTimeoutMs : Nat} {own : α} {deadline : Nat}
    {extensions : List (Extension α)} : ∀ {s : Lock α}, s.Leased own deadline →
      (∀ ext ∈ extensions, ext.Foreign own) →
      (onStoreLoop lockTimeoutMs s extensions).1.Leased own deadline := by
  induction extensions with
  | nil => exact fun h _ => h
  | cons ext extensions ih =>
    intro s hleased hforeign
    have hcall : (ext.onStoreDocument lockTimeoutMs s).1.Leased own deadline :=
      Extension.onStoreDocument_leased hleased (hforeign ext (List.mem_cons_self ..))
    rw [onStoreLoop]
    generalize ext.onStoreDocument lockTimeoutMs s = called at hcall ⊢
    obtain ⟨t, result⟩ := called
    cases result with
    | error e => exact hcall
    | ok u => exact ih hcall fun e he => hforeign e (List.mem_cons_of_mem _ he)

/-- The loop gets behind some extensions only if it gets through them. -/
theorem onStoreLoop_through {lockTimeoutMs : Nat} {extensions more : List (Extension α)} :
    ∀ {s : Lock α}, firstError (onStoreLoop lockTimeoutMs s (extensions ++ more)).2 = none →
      firstError (onStoreLoop lockTimeoutMs s extensions).2 = none ∧
      firstError (onStoreLoop lockTimeoutMs
        (onStoreLoop lockTimeoutMs s extensions).1 more).2 = none := by
  induction extensions with
  | nil => exact fun h => ⟨rfl, h⟩
  | cons ext extensions ih =>
    intro s h
    rw [List.cons_append, onStoreLoop] at h
    rw [onStoreLoop]
    generalize ext.onStoreDocument lockTimeoutMs s = called at h ⊢
    obtain ⟨t, result⟩ := called
    cases result with
    | error e => cases h
    | ok u => exact ih (s := t) h

/-- Behind the lock: it was acquired, and from the execution of its `SET` on the
key is leased, whoever else has been asked since. -/
theorem onStoreLoop_behind {lockTimeoutMs : Nat} {s : Lock α} {token : α} {set release : Command α}
    {before rest : List (Extension α)} (hset : Elsewhere.Foreign token set.replied)
    (hrest : ∀ ext ∈ rest, ext.Foreign token)
    (hthrough : firstError (onStoreLoop lockTimeoutMs s
      (before ++ .redisScaling token set release :: rest)).2 = none) :
    Acquires lockTimeoutMs s before (.redisScaling token set release) ∧
      (onStoreLoop lockTimeoutMs s (before ++ .redisScaling token set release :: rest)).1.Leased
        token ((onStoreLoop lockTimeoutMs s before).1.now + elapsed set.sent + lockTimeoutMs) := by
  obtain ⟨hbefore, hlock⟩ := onStoreLoop_through hthrough
  have hnow := Extension.onStoreDocument_now lockTimeoutMs
    (onStoreLoop lockTimeoutMs s before).1 (.redisScaling token set release)
  have hok : (Extension.onStoreDocument lockTimeoutMs (onStoreLoop lockTimeoutMs s before).1
      (.redisScaling token set release)).2 = .ok () := by
    rw [onStoreLoop] at hlock
    generalize Extension.onStoreDocument lockTimeoutMs (onStoreLoop lockTimeoutMs s before).1
      (.redisScaling token set release) = called at hlock ⊢
    obtain ⟨t, result⟩ := called
    cases result with
    | error e => cases hlock
    | ok u => rfl
  obtain ⟨t, executedAt, hcall, _, ht, hleased⟩ := onStoreDocument_acquired hset hok
  rw [hcall, Extension.during, Command.during, elapsed_append] at hnow
  have hexecuted : executedAt = (onStoreLoop lockTimeoutMs s before).1.now + elapsed set.sent := by
    dsimp only at hnow
    omega
  refine ⟨⟨hbefore, hok⟩, ?_⟩
  rw [onStoreLoop_append hbefore, onStoreLoop, hcall]
  rw [hexecuted] at hleased
  exact onStoreLoop_leased hleased hrest

section

variable {lockTimeoutMs : Nat} {s : Lock α} {token : α} {set release : Command α}
  {registered others pre post : List (Registered α)} {lock r : Registered α}

/-- **The lock comes before the stores**: in whatever order the extensions were
registered, one of lower priority than `RedisScaling` has its `on_store_document`
called only after `RedisScaling` has acquired the lock in the same store; and at
that moment the key is this store's if and only if `lock_timeout` has not passed
since Redis executed the `SET`. -/
theorem stores_locked (hlock : lock.extension = .redisScaling token set release)
    (hset : Elsewhere.Foreign token set.replied)
    (hregistered : registered.Perm (lock :: others))
    (hforeign : ∀ other ∈ others, other.extension.Foreign token)
    (hbuild : build registered = pre ++ r :: post) (hlower : r.priority < 1000)
    (hcalled : firstError
      (onStoreLoop lockTimeoutMs s (pre.map Registered.extension)).2 = none) :
    ∃ before rest, pre = before ++ lock :: rest ∧
      Acquires lockTimeoutMs s (before.map Registered.extension) lock.extension ∧
      ∀ t, t = (onStoreLoop lockTimeoutMs s (pre.map Registered.extension)).1 →
        (t.key.live t.now = some token ↔
          t.now < (onStoreLoop lockTimeoutMs s (before.map Registered.extension)).1.now +
            elapsed set.sent + lockTimeoutMs) := by
  have hpriority : lock.priority = 1000 := lock.scaling (by rw [hlock]; rfl)
  have hperm : (build registered).Perm (lock :: others) :=
    (Ranked.sort_perm _ registered).trans hregistered
  have hmem : lock ∈ build registered := hperm.mem_iff.mpr (List.mem_cons_self ..)
  have hahead : lock ∈ pre :=
    Ranked.mem_ahead (Ranked.sort_sorted Registered.priority registered) hbuild hmem
      (by rw [hpriority]; exact hlower)
  obtain ⟨before, rest, rfl⟩ := List.append_of_mem hahead
  -- what is between the lock and `r` was registered besides the lock
  have hothers : (before ++ (rest ++ r :: post)).Perm others := by
    rw [hbuild, List.append_assoc, List.cons_append] at hperm
    exact (List.perm_middle.symm.trans hperm).cons_inv
  have hrest : ∀ ext ∈ rest.map Registered.extension, ext.Foreign token := by
    intro ext hext
    obtain ⟨other, hother, rfl⟩ := List.mem_map.mp hext
    exact hforeign other (hothers.mem_iff.mp
      (List.mem_append_right _ (List.mem_append_left _ hother)))
  have hmap : (before ++ lock :: rest).map Registered.extension
      = before.map Registered.extension ++ .redisScaling token set release ::
          rest.map Registered.extension := by
    rw [List.map_append, List.map_cons, hlock]
  rw [hmap] at hcalled
  obtain ⟨hacquires, hleased⟩ := onStoreLoop_behind hset hrest hcalled
  refine ⟨before, rest, rfl, hlock ▸ hacquires, ?_⟩
  rintro t rfl
  rw [hmap]
  exact hleased.live_iff

end

/-- A database that was registered before `RedisScaling` comes behind it, and the
key is this store's when its `on_store_document` is called. -/
theorem stores_locked_database :
    build [Registered.plain (.ok ()) [.wait 300] [], Registered.redisScaling 0 prompt prompt]
      = [Registered.redisScaling 0 prompt prompt, Registered.plain (.ok ()) [.wait 300] []] ∧
    (onStoreLoop 1000 ⟨0, none, none⟩ [.redisScaling 0 prompt prompt]).1.key.live
      (onStoreLoop 1000 ⟨0, none, none⟩ [.redisScaling 0 prompt prompt]).1.now = some 0 := by
  have hbuild : build [Registered.plain (.ok ()) [.wait 300] [],
      Registered.redisScaling 0 prompt prompt]
        = [Registered.redisScaling 0 prompt prompt] ++
          Registered.plain (.ok ()) [.wait 300] [] :: [] := by
    simp [build, Ranked.sort, List.mergeSort, Registered.plain, Registered.redisScaling]
  refine ⟨hbuild, ?_⟩
  obtain ⟨before, rest, hpre, _, hkey⟩ := @stores_locked Nat _ 1000 ⟨0, none, none⟩ 0 prompt prompt
    _ _ _ _ _ _ rfl (by unfold Elsewhere.Foreign; decide) (List.Perm.swap ..)
    (List.forall_mem_singleton.mpr ⟨by decide, by unfold Elsewhere.Foreign; decide⟩) hbuild
    (by decide) rfl
  cases before with
  | nil => exact (hkey _ rfl).mpr (by decide)
  | cons first before =>
    obtain ⟨_, hnone⟩ := List.cons.inj hpre
    exact absurd hnone.symm (by simp)

end Hocuspocus.StoreHooks
