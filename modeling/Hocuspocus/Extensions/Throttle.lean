import Hocuspocus.Lib.Window
import Hocuspocus.Document.State
import Hocuspocus.Server.Request
import Mathlib.Logic.Function.Basic

/-!
# Connection throttling (`extensions/throttle.rs`)

`should_block` keeps two maps by address: the times of the last attempts, pruned
to the window at each attempt that is recorded, and the bans. The entries of one
address are a `Window.Slot`, and an attempt takes one step of the slot of its own
address (`Throttle.shouldBlock_slot`), so the answers are the verdicts on the
attempts from that address (`Throttle.after_holds`).
-/

namespace Hocuspocus

open Window

structure Inner where
  connections : String → Option (List Nat)
  banned : String → Option Nat

def Inner.new : Inner := ⟨fun _ => none, fun _ => none⟩

/-- Rate-limits inbound connections by client IP. -/
structure Throttle where
  throttle : Nat
  considered : Nat
  banTime : Nat
  deriving DecidableEq, Repr

namespace Throttle

/-- Defaults matching the TS extension: 15 attempts / 60s, 5 minute ban. -/
def withDefaults : Throttle := ⟨15, 60, 5 * 60⟩

/-- The end of `should_block`, for an address with no ban. -/
def recordAttempt (t : Throttle) (now : Nat) (inner : Inner) (ip : String) : Bool × Inner :=
  let entry := (((inner.connections ip).getD []) ++ [now]).filter fun s => now - s < t.considered
  let inner := { inner with connections := Function.update inner.connections ip (some entry) }
  if t.throttle < entry.length then
    (true, { inner with banned := Function.update inner.banned ip (some now) })
  else (false, inner)

def shouldBlock (t : Throttle) (now : Nat) (inner : Inner) (ip : String) : Bool × Inner :=
  match inner.banned ip with
  | some bannedAt =>
    if now - bannedAt < t.banTime then (true, inner)
    else t.recordAttempt now { inner with banned := Function.update inner.banned ip none } ip
  | none => t.recordAttempt now inner ip

def limits (t : Throttle) : Limits := ⟨t.throttle, t.considered, t.banTime⟩

end Throttle

/-! ## One attempt -/

/-- The entries of an address. -/
def Inner.slot (inner : Inner) (ip : String) : Slot :=
  ⟨(inner.connections ip).getD [], inner.banned ip⟩

/-- What an attempt does, by its verdict: the answer, and the two maps. -/
inductive Throttle.Attempted (t : Throttle) (now : Nat) (inner : Inner) (ip : String) :
    Verdict → Bool × Inner → Prop
  | barred : Attempted t now inner ip .barred (true, inner)
  | exceeded (entry : List Nat)
      (hentry : entry = live t.considered now ((inner.slot ip).kept ++ [now])) :
      Attempted t now inner ip .exceeded
        (true, ⟨Function.update inner.connections ip (some entry),
          Function.update inner.banned ip (some now)⟩)
  | allowed (entry : List Nat)
      (hentry : entry = live t.considered now ((inner.slot ip).kept ++ [now])) :
      Attempted t now inner ip .allowed
        (false, ⟨Function.update inner.connections ip (some entry),
          Function.update inner.banned ip none⟩)

namespace Throttle

variable {t : Throttle} {now : Nat} {inner : Inner} {ip : String}

theorem recordAttempt_cases (hfree : ∀ b, inner.banned ip = some b → ¬ now - b < t.banTime) :
    t.Attempted now inner ip ((inner.slot ip).judge t.limits now)
      (t.recordAttempt now { inner with banned := Function.update inner.banned ip none } ip) := by
  unfold Slot.judge
  rw [verdict_of_free hfree]
  unfold recordAttempt
  dsimp only
  by_cases hmore : t.throttle < (live t.considered now ((inner.slot ip).kept ++ [now])).length
  · have hverdict : t.limits.cap
        < (live t.limits.width now ((inner.slot ip).kept ++ [now])).length := hmore
    rw [if_pos hverdict]
    unfold live Inner.slot at hmore
    rw [if_pos hmore, Function.update_idem]
    exact .exceeded _ rfl
  · have hverdict : ¬ t.limits.cap
        < (live t.limits.width now ((inner.slot ip).kept ++ [now])).length := hmore
    rw [if_neg hverdict]
    unfold live Inner.slot at hmore
    rw [if_neg hmore]
    exact .allowed _ rfl

/-- **What `should_block` does.** -/
theorem shouldBlock_cases (t : Throttle) (now : Nat) (inner : Inner) (ip : String) :
    t.Attempted now inner ip ((inner.slot ip).judge t.limits now)
      (t.shouldBlock now inner ip) := by
  unfold shouldBlock
  split
  next b hb =>
    split
    next hactive =>
      have hbarred : (inner.slot ip).judge t.limits now = .barred :=
        verdict_barred.mpr ⟨b, hb, hactive⟩
      rw [hbarred]
      exact .barred
    next hover =>
      refine recordAttempt_cases fun b' hb' => ?_
      obtain rfl : b = b' := Option.some.inj (hb.symm.trans hb')
      exact hover
  next hnone =>
    have hsame : { inner with banned := Function.update inner.banned ip none } = inner := by
      rw [← hnone, Function.update_eq_self]
    have hfree : ∀ b, inner.banned ip = some b → ¬ now - b < t.banTime := by
      intro b hb
      rw [hnone] at hb
      cases hb
    have hcases := recordAttempt_cases hfree
    rw [hsame] at hcases
    exact hcases

/-- The attempt is a step of the slot of its address. -/
theorem shouldBlock_slot (t : Throttle) (now : Nat) (inner : Inner) (ip : String) :
    (t.shouldBlock now inner ip).2.slot ip
      = (inner.slot ip).next t.limits now ((inner.slot ip).judge t.limits now) := by
  have hcases := t.shouldBlock_cases now inner ip
  generalize t.shouldBlock now inner ip = answered at hcases ⊢
  generalize (inner.slot ip).judge t.limits now = v at hcases ⊢
  cases hcases with
  | barred => rfl
  | exceeded entry hentry =>
    simp only [Inner.slot, Function.update_self, Option.getD_some]
    rw [hentry]
    rfl
  | allowed entry hentry =>
    simp only [Inner.slot, Function.update_self, Option.getD_some]
    rw [hentry]
    rfl

/-- Other addresses are left alone. -/
theorem shouldBlock_other (t : Throttle) (now : Nat) (inner : Inner) {ip other : String}
    (hne : other ≠ ip) : (t.shouldBlock now inner ip).2.slot other = inner.slot other := by
  have hcases := t.shouldBlock_cases now inner ip
  generalize t.shouldBlock now inner ip = answered at hcases ⊢
  generalize (inner.slot ip).judge t.limits now = v at hcases
  cases hcases with
  | barred => rfl
  | exceeded entry hentry => simp only [Inner.slot, Function.update_of_ne hne]
  | allowed entry hentry => simp only [Inner.slot, Function.update_of_ne hne]

theorem shouldBlock_answer (t : Throttle) (now : Nat) (inner : Inner) (ip : String) :
    (t.shouldBlock now inner ip).1 = true ↔ (inner.slot ip).judge t.limits now ≠ .allowed := by
  have hcases := t.shouldBlock_cases now inner ip
  generalize t.shouldBlock now inner ip = answered at hcases ⊢
  generalize (inner.slot ip).judge t.limits now = v at hcases ⊢
  cases hcases <;> simp

end Throttle

/-! ## Runs -/

structure Attempt where
  ip : String
  time : Nat
  deriving DecidableEq, Repr

namespace Throttle

/-- The maps after these attempts. -/
def after (t : Throttle) (calls : List Attempt) : Inner :=
  calls.foldl (fun inner c => (t.shouldBlock c.time inner c.ip).2) Inner.new

/-- The attempts from an address, with the verdicts on them. -/
def past (t : Throttle) (calls : List Attempt) (ip : String) : History :=
  history t.limits ((calls.filter fun c => c.ip = ip).map Attempt.time)

theorem after_snoc (t : Throttle) (calls : List Attempt) (c : Attempt) :
    t.after (calls ++ [c]) = (t.shouldBlock c.time (t.after calls) c.ip).2 := by
  unfold after
  rw [List.foldl_append, List.foldl_cons, List.foldl_nil]

theorem past_own (t : Throttle) (calls : List Attempt) (c : Attempt) :
    t.past (calls ++ [c]) c.ip
      = t.past calls c.ip ++ [(c.time, (t.past calls c.ip).judge t.limits c.time)] := by
  have hown : [c].filter (fun d => d.ip = c.ip) = [c] := by simp
  unfold past
  rw [List.filter_append, hown, List.map_append, List.map_singleton, history_snoc]

theorem past_other (t : Throttle) (calls : List Attempt) {c : Attempt} {ip : String}
    (hne : c.ip ≠ ip) : t.past (calls ++ [c]) ip = t.past calls ip := by
  have hnone : [c].filter (fun d => d.ip = ip) = [] := by simpa using hne
  unfold past
  rw [List.filter_append, hnone, List.append_nil]

/-- One more attempt takes nothing from the history of an address. -/
theorem past_grows (t : Throttle) (calls : List Attempt) (c : Attempt) (ip : String)
    (p : Nat × Verdict → Bool) :
    (t.past calls ip).countP p ≤ (t.past (calls ++ [c]) ip).countP p := by
  by_cases hip : c.ip = ip
  · subst hip
    rw [past_own, List.countP_append]
    exact Nat.le_add_right _ _
  · rw [past_other t calls hip]

/-- **The slots hold the histories**: what was pruned is in no later window, and a ban
that was removed is over. -/
theorem after_holds (t : Throttle) (ip : String) :
    ∀ {calls : List Attempt}, (calls.map Attempt.time).Pairwise (· ≤ ·) →
      ∀ {now : Nat}, (∀ c ∈ calls, c.time ≤ now) →
        Slot.Holds t.limits (t.past calls ip) now ((t.after calls).slot ip) := by
  intro calls
  induction calls using List.reverseRecOn with
  | nil => exact fun _ now _ => Slot.Holds.start t.limits now
  | append_singleton calls c ih =>
    intro hmono now hnow
    rw [List.map_append, List.pairwise_append] at hmono
    have hbefore : ∀ d ∈ calls, d.time ≤ c.time := by
      intro d hd
      exact hmono.2.2 _ (List.mem_map_of_mem hd) _ (List.mem_singleton_self _)
    have hholds := ih hmono.1 hbefore
    have hlast : c.time ≤ now := hnow c (List.mem_append_right _ (List.mem_singleton_self c))
    refine Slot.Holds.mono ?_ hlast
    rw [after_snoc]
    -- an attempt from another address leaves this slot and this history alone
    by_cases hip : c.ip = ip
    · subst hip
      rw [past_own, shouldBlock_slot, hholds.judge_eq]
      exact hholds.step
    · rw [past_other t calls hip, shouldBlock_other t c.time _ (Ne.symm hip)]
      exact hholds

/-- The slot of an address comes from the attempts made from it. -/
theorem after_own (t : Throttle) (ip : String) (calls : List Attempt) :
    (t.after calls).slot ip = (t.after (calls.filter fun c => c.ip = ip)).slot ip := by
  induction calls using List.reverseRecOn with
  | nil => rfl
  | append_singleton calls c ih =>
    rw [List.filter_append, after_snoc]
    by_cases hip : c.ip = ip
    · subst hip
      have hown : [c].filter (fun d => d.ip = c.ip) = [c] := by simp
      rw [hown, after_snoc, shouldBlock_slot, shouldBlock_slot, ih]
    · have hnone : [c].filter (fun d => d.ip = ip) = [] := by simpa using hip
      rw [hnone, List.append_nil, shouldBlock_other t c.time _ (Ne.symm hip)]
      exact ih

/-! ## The decision -/

/-- A ban of the address is active: the last one was set less than `ban_time` ago. -/
def Banned (t : Throttle) (past : History) (now : Nat) : Prop :=
  ∃ b, past.lastBan = some b ∧ now - b < t.banTime

/-- The attempts in the window that ends now with this one, of those that met no
active ban. -/
def attempts (t : Throttle) (past : History) (now : Nat) : Nat :=
  (live t.considered now (past.recorded ++ [now])).length

/-- How an attempt is answered after others. -/
structure Decides (t : Throttle) (calls : List Attempt) (c : Attempt) : Prop where
  blocked : (t.shouldBlock c.time (t.after calls) c.ip).1 = true ↔
    t.Banned (t.past calls c.ip) c.time ∨
      ¬ t.Banned (t.past calls c.ip) c.time ∧
        t.throttle < t.attempts (t.past calls c.ip) c.time
  active : t.Banned (t.past calls c.ip) c.time →
    (t.shouldBlock c.time (t.after calls) c.ip).2 = t.after calls
  bans : ¬ t.Banned (t.past calls c.ip) c.time →
    t.throttle < t.attempts (t.past calls c.ip) c.time →
      (t.shouldBlock c.time (t.after calls) c.ip).2.banned
        = Function.update (t.after calls).banned c.ip (some c.time)
  clears : ¬ t.Banned (t.past calls c.ip) c.time →
    ¬ t.throttle < t.attempts (t.past calls c.ip) c.time →
      (t.shouldBlock c.time (t.after calls) c.ip).2.banned
        = Function.update (t.after calls).banned c.ip none
  own : ∀ others : List Attempt,
    (others.filter fun d => d.ip = c.ip) = (calls.filter fun d => d.ip = c.ip) →
      (t.shouldBlock c.time (t.after others) c.ip).1
        = (t.shouldBlock c.time (t.after calls) c.ip).1

/-- **`should_block` decides by the window and the ban.** -/
theorem shouldBlock_decides (t : Throttle) (calls : List Attempt)
    (hmono : (calls.map Attempt.time).Pairwise (· ≤ ·)) (k : Nat) (hk : k < calls.length) :
    t.Decides (calls.take k) calls[k] := by
  generalize hc : calls[k] = c
  generalize htake : calls.take k = before
  have hsplit : calls.take (k + 1) = before ++ [c] := by
    rw [List.take_add_one, List.getElem?_eq_getElem hk, hc, htake]
    rfl
  have htimes : ((before ++ [c]).map Attempt.time).Pairwise (· ≤ ·) := by
    rw [← hsplit, List.map_take]
    exact hmono.take
  rw [List.map_append, List.pairwise_append] at htimes
  have hbefore : ∀ d ∈ before, d.time ≤ c.time := by
    intro d hd
    exact htimes.2.2 _ (List.mem_map_of_mem hd) _ (List.mem_singleton_self _)
  have hholds := t.after_holds c.ip htimes.1 hbefore
  have hverdict := hholds.judge_eq
  have hcases := t.shouldBlock_cases c.time (t.after before) c.ip
  rw [hverdict] at hcases
  have hbarred : (t.past before c.ip).judge t.limits c.time = .barred ↔
      t.Banned (t.past before c.ip) c.time := verdict_barred
  have hexceeded : (t.past before c.ip).judge t.limits c.time = .exceeded ↔
      ¬ t.Banned (t.past before c.ip) c.time ∧
        t.throttle < t.attempts (t.past before c.ip) c.time := verdict_exceeded
  -- the slot of an address is made by its own attempts
  have hown : ∀ others : List Attempt,
      (others.filter fun d => d.ip = c.ip) = (before.filter fun d => d.ip = c.ip) →
        (t.after others).slot c.ip = (t.after before).slot c.ip := by
    intro others hsame
    rw [t.after_own c.ip others, t.after_own c.ip before, hsame]
  constructor
  case own =>
    intro others hsame
    rw [Bool.eq_iff_iff, shouldBlock_answer, shouldBlock_answer, hown others hsame]
  all_goals
    -- from here only the verdict and the case it allows matter
    generalize t.shouldBlock c.time (t.after before) c.ip = answered at hcases ⊢
    generalize (t.past before c.ip).judge t.limits c.time = v at hcases hbarred hexceeded
  case blocked =>
    cases hcases with
    | barred => exact ⟨fun _ => Or.inl (hbarred.mp rfl), fun _ => rfl⟩
    | exceeded entry hentry => exact ⟨fun _ => Or.inr (hexceeded.mp rfl), fun _ => rfl⟩
    | allowed entry hentry =>
      refine ⟨fun h => absurd h Bool.false_ne_true, fun h => ?_⟩
      rcases h with hban | hmore
      · exact absurd (hbarred.mpr hban) Verdict.noConfusion
      · exact absurd (hexceeded.mpr hmore) Verdict.noConfusion
  case active =>
    intro hban
    cases hbarred.mpr hban
    cases hcases
    rfl
  case bans =>
    intro hfree hmore
    cases hexceeded.mpr ⟨hfree, hmore⟩
    cases hcases
    rfl
  case clears =>
    intro hfree hfew
    cases hcases with
    | barred => exact absurd (hbarred.mp rfl) hfree
    | exceeded entry hentry => exact absurd (hexceeded.mp rfl).2 hfew
    | allowed entry hentry => rfl

/-- Two addresses. The third attempt exceeds a limit of one, the fourth meets the ban,
and the last one comes when it is over. -/
def twoAddresses : List Attempt :=
  [⟨"192.0.2.1", 0⟩, ⟨"192.0.2.2", 1⟩, ⟨"192.0.2.1", 1⟩, ⟨"192.0.2.1", 4⟩, ⟨"192.0.2.1", 7⟩]

theorem shouldBlock_decides_again :
    past ⟨1, 10, 5⟩ twoAddresses "192.0.2.1"
        = [(0, .allowed), (1, .exceeded), (4, .barred), (7, .exceeded)] ∧
      Decides ⟨1, 10, 5⟩ (twoAddresses.take 4) ⟨"192.0.2.1", 7⟩ :=
  ⟨by decide, shouldBlock_decides ⟨1, 10, 5⟩ twoAddresses (by decide) 4 (by decide)⟩

end Throttle

/-! ## Connections -/

/-- `Throttle::on_connect`. -/
def Throttle.onConnect (t : Throttle) (now : Nat) (inner : Inner) (request : RequestMeta) :
    HookResult × Inner :=
  let ip := request.clientIp.getD ""
  if ip = "" then (.ok (), inner)
  else
    let asked := t.shouldBlock now inner ip
    (if asked.1 then .error .forbidden else .ok (), asked.2)

/-- Who connects: the client in question, or another one. -/
inductive Caller
  | client
  | other (request : RequestMeta)

structure Connect where
  caller : Caller
  time : Nat

/-- The request it comes with, if the client's is this one. -/
def Connect.request (m : RequestMeta) (c : Connect) : RequestMeta :=
  match c.caller with
  | .client => m
  | .other request => request

/-- The client was let in, in this interval. -/
def Connect.admits (a b : Nat) (c : Connect) (answer : HookResult) : Bool :=
  match c.caller, answer with
  | .client, .ok () => a ≤ c.time ∧ c.time ≤ b
  | _, _ => false

theorem Connect.admits_client {a b time : Nat} {answer : HookResult} :
    Connect.admits a b ⟨.client, time⟩ answer = true ↔ answer = .ok () ∧ a ≤ time ∧ time ≤ b := by
  cases answer with
  | error e => simp [admits]
  | ok => simp [admits]

namespace Throttle

/-- The calls of `on_connect`, each with its answer. -/
def onConnects (t : Throttle) (m : RequestMeta) (calls : List Connect) :
    Inner × List (Connect × HookResult) :=
  calls.foldl (fun s c =>
    let answered := t.onConnect c.time s.1 (c.request m)
    (answered.2, s.2 ++ [(c, answered.1)])) (Inner.new, [])

/-- How often the client is let in, in an interval. -/
def admitted (t : Throttle) (m : RequestMeta) (calls : List Connect) (a b : Nat) : Nat :=
  (t.onConnects m calls).2.countP fun r => r.1.admits a b r.2

/-- Whoever else connects, the client is let in at most `throttle` times in any
interval shorter than the window. -/
def Limited (t : Throttle) (m : RequestMeta) : Prop :=
  ∀ calls : List Connect, (calls.map Connect.time).Pairwise (· ≤ ·) →
    ∀ a b, b - a < t.considered → t.admitted m calls a b ≤ t.throttle

/-- The attempts that are counted: those with an address. -/
def asked (m : RequestMeta) (calls : List Connect) : List Attempt :=
  (calls.map fun c => (⟨(c.request m).clientIp.getD "", c.time⟩ : Attempt)).filter
    fun d => d.ip ≠ ""

variable {t : Throttle} {m : RequestMeta}

theorem onConnects_snoc (t : Throttle) (m : RequestMeta) (calls : List Connect) (c : Connect) :
    t.onConnects m (calls ++ [c])
      = ((t.onConnect c.time (t.onConnects m calls).1 (c.request m)).2,
        (t.onConnects m calls).2
          ++ [(c, (t.onConnect c.time (t.onConnects m calls).1 (c.request m)).1)]) := by
  unfold onConnects
  rw [List.foldl_append, List.foldl_cons, List.foldl_nil]

theorem asked_snoc (m : RequestMeta) (calls : List Connect) (c : Connect) :
    asked m (calls ++ [c]) = asked m calls ++
      if (c.request m).clientIp.getD "" = "" then []
      else [⟨(c.request m).clientIp.getD "", c.time⟩] := by
  unfold asked
  rw [List.map_append, List.filter_append, List.map_singleton]
  congr 1
  split
  next h => simp [h]
  next h => simp [h]

theorem onConnects_inner (t : Throttle) (m : RequestMeta) (calls : List Connect) :
    (t.onConnects m calls).1 = t.after (asked m calls) := by
  induction calls using List.reverseRecOn with
  | nil => rfl
  | append_singleton calls c ih =>
    rw [onConnects_snoc, asked_snoc, ih]
    unfold onConnect
    dsimp only
    split
    next => rw [List.append_nil]
    next => rw [after_snoc]

theorem admitted_snoc (t : Throttle) (m : RequestMeta) (calls : List Connect) (c : Connect)
    (a b : Nat) :
    t.admitted m (calls ++ [c]) a b = t.admitted m calls a b +
      if c.admits a b (t.onConnect c.time (t.after (asked m calls)) (c.request m)).1 then 1
      else 0 := by
  unfold admitted
  rw [onConnects_snoc, onConnects_inner, List.countP_append, List.countP_singleton]

theorem onConnect_ok {now : Nat} {inner : Inner} (haddress : m.clientIp.getD "" ≠ "")
    (h : (t.onConnect now inner m).1 = .ok ()) :
    (inner.slot (m.clientIp.getD "")).judge t.limits now = .allowed := by
  unfold onConnect at h
  rw [if_neg haddress] at h
  by_contra hverdict
  have hblocked := (t.shouldBlock_answer now inner (m.clientIp.getD "")).mpr hverdict
  dsimp only at h
  rw [if_pos hblocked] at h
  cases h

/-- Attempts are made when the calls are. -/
theorem asked_times {calls : List Connect} (hmono : (calls.map Connect.time).Pairwise (· ≤ ·)) :
    ((asked m calls).map Attempt.time).Pairwise (· ≤ ·) := by
  refine hmono.sublist ?_
  have hsub : (asked m calls).Sublist (calls.map fun c =>
      (⟨(c.request m).clientIp.getD "", c.time⟩ : Attempt)) := List.filter_sublist
  have hmap := hsub.map Attempt.time
  rw [List.map_map] at hmap
  exact hmap

/-- Whenever a client with an address is let in, its attempt is allowed. -/
theorem admitted_le (haddress : m.clientIp.getD "" ≠ "") (a b : Nat) :
    ∀ {calls : List Connect}, (calls.map Connect.time).Pairwise (· ≤ ·) →
      t.admitted m calls a b
        ≤ (t.past (asked m calls) (m.clientIp.getD "")).countP (History.within a b) := by
  intro calls
  induction calls using List.reverseRecOn with
  | nil => exact fun _ => Nat.le_refl 0
  | append_singleton calls c ih =>
    intro hmono
    have htimes := asked_times (m := m) hmono
    rw [List.map_append, List.pairwise_append] at hmono
    have hcount := ih hmono.1
    rw [admitted_snoc, asked_snoc]
    rw [asked_snoc] at htimes
    obtain ⟨caller, time⟩ := c
    cases caller with
    | client =>
      -- its verdict is the answer it gets
      rw [show Connect.request m ⟨.client, time⟩ = m from rfl] at htimes ⊢
      rw [if_neg haddress] at htimes ⊢
      rw [List.map_append, List.pairwise_append] at htimes
      have hbefore : ∀ d ∈ asked m calls, d.time ≤ time := by
        intro d hd
        exact htimes.2.2 _ (List.mem_map_of_mem hd) _ (List.mem_singleton_self _)
      have hholds := t.after_holds (m.clientIp.getD "") htimes.1 hbefore
      rw [past_own t (asked m calls) ⟨m.clientIp.getD "", time⟩, List.countP_append,
        List.countP_singleton]
      refine Nat.add_le_add hcount ?_
      split
      next hadmits =>
        obtain ⟨hok, hin⟩ := Connect.admits_client.mp hadmits
        have hallowed := onConnect_ok haddress hok
        rw [hholds.judge_eq] at hallowed
        rw [if_pos (History.within_iff.mpr ⟨hallowed, hin⟩)]
      next => exact Nat.zero_le _
    | other request =>
      -- it may share the address, and then it only adds to the history
      have hnone : ∀ answer, Connect.admits a b ⟨.other request, time⟩ answer = false :=
        fun _ => rfl
      rw [hnone, if_neg Bool.false_ne_true, Nat.add_zero]
      refine hcount.trans ?_
      split
      next => rw [List.append_nil]
      next => exact past_grows t (asked m calls) _ _ _

/-- A client with an address is limited. -/
theorem limited_of_address (t : Throttle) (haddress : m.clientIp.getD "" ≠ "") : t.Limited m := by
  intro calls hmono a b hshort
  refine (admitted_le haddress a b hmono).trans ?_
  exact allowed_within t.limits hshort _

/-- One with none is let in every time. -/
theorem admitted_of_blank (t : Throttle) (hblank : m.clientIp.getD "" = "") (n time : Nat) :
    t.admitted m (List.replicate n ⟨.client, time⟩) time time = n := by
  induction n with
  | zero => rfl
  | succ n ih =>
    rw [List.replicate_succ', admitted_snoc, ih]
    unfold onConnect
    rw [show Connect.request m ⟨.client, time⟩ = m from rfl, if_pos hblank]
    simp [Connect.admits]

/-- **Who is limited**: whoever has an address, and everyone if the window is empty. -/
theorem limited_iff (t : Throttle) {m : RequestMeta} {remote : String}
    (hremote : m.remoteIp = some remote) (hne : remote ≠ "") :
    t.Limited m ↔ m.Addressed ∨ t.considered = 0 := by
  rw [← RequestMeta.clientIp_eq_empty hremote hne]
  constructor
  · intro hlimited
    by_contra hnot
    rw [not_or, not_not] at hnot
    have hcount := hlimited (List.replicate (t.throttle + 1) ⟨.client, 0⟩)
      (by simp [List.pairwise_replicate]) 0 0 (by omega)
    rw [admitted_of_blank t hnot.1] at hcount
    omega
  · intro h
    rcases h with haddress | hempty
    · exact t.limited_of_address haddress
    · intro calls _ a b hshort
      omega

/-- A request with an empty `x-real-ip`. -/
def unnamed : RequestMeta where
  headers := fun name => if name = "x-real-ip" then some "" else none
  parameters := fun _ => none
  remoteIp := some "203.0.113.7"

theorem limited_iff_unnamed : ¬ withDefaults.Limited unnamed := by
  have hblank : ¬ unnamed.Addressed := by
    intro h
    obtain ⟨c, hc, _⟩ := h "" (by decide)
    cases hc
  intro hlimited
  rcases (withDefaults.limited_iff (m := unnamed) rfl (by decide)).mp hlimited with haddress | hzero
  · exact hblank haddress
  · cases hzero

theorem not_all_limited :
    ¬ ∀ (t : Throttle) (m : RequestMeta) (remote : String), m.remoteIp = some remote →
      remote ≠ "" → t.Limited m := by
  intro hall
  have hlimited := hall withDefaults unnamed "203.0.113.7" rfl (by decide)
  have hcount := hlimited (List.replicate 16 ⟨.client, 0⟩) (by decide) 0 0 (by decide)
  rw [admitted_of_blank withDefaults (by decide)] at hcount
  exact absurd hcount (by decide)

end Throttle

end Hocuspocus
