import Hocuspocus.Document.Status
import Hocuspocus.Server.Names

/-!
# What `direct_apply` reports

`direct_apply` sends its update to an actor with an `ack` and returns `Ok` once
it has waited, whether the `ack` came or was lost; and the actor sends the `ack`
whether `apply_and_broadcast` has applied the update or not. So `Ok` means that
the update is in only where neither happens: `Heeds` is the condition on a step,
`Tracked` what it keeps of a call, `direct_apply_applied` what follows for runs.
-/

namespace Hocuspocus

variable {Y : Yrs}

/-- The actor has applied the update, and then sent the `ack`. -/
def Actor.Performed (a : Actor Y) (update : Bytes) (ack : Nat) : Prop :=
  ∃ before after doc, a.world.trace = before ++ Event.ack ack :: after ∧
    .applied update .local doc ∈ before

theorem Actor.Performed.mono {a b : Actor Y} {update : Bytes} {ack : Nat}
    (h : a.Performed update ack) (htrace : a.world.trace <+: b.world.trace) :
    b.Performed update ack := by
  obtain ⟨before, after, doc, hold, happlied⟩ := h
  obtain ⟨more, hmore⟩ := htrace
  refine ⟨before, after ++ more, doc, ?_, happlied⟩
  rw [← hmore, hold, List.append_assoc]
  rfl

/-- A `DirectApply` that can be applied is performed. -/
theorem Actor.directApply_performed {cfg : Configuration} {a b : Actor Y} {update : Bytes}
    {ack : Nat} {o : Ambient} (hstep : a.step cfg (.command (.directApply update ack) o) = some b)
    (happlicable : Applicable a.world.doc update) : b.Performed update ack := by
  cases Actor.step_cases hstep with
  | command _ _ n _ =>
    obtain ⟨k, htrace, happlied⟩ :=
      (a.world.withSched o.sched).applyAndBroadcast_applied o update .local
    obtain ⟨doc, hdoc⟩ := happlied.mpr happlicable
    refine ⟨a.world.trace ++ k, [], doc, ?_, List.mem_append_right _ hdoc⟩
    exact congrArg (· ++ [Event.ack ack]) htrace

namespace Server

/-- The step loses no `DirectApply`, and the one it handles can be applied: no
`DirectApply` is in the batch behind a command that unloads the document, none
in a mailbox that is dropped. -/
def Heeds (cfg : Configuration) (s : Server Y) : Label Y → Prop
  | .command j o => ∀ a cmd batch, s.actors[j]? = some a → a.batch = cmd :: batch →
      (∀ update ack, cmd = .directApply update ack → Applicable a.actor.world.doc update) ∧
      ∀ b, a.actor.step cfg (.command cmd o) = some b → b.unloadedBy (.command cmd o) = true →
        ∀ update ack, .directApply update ack ∉ batch
  | .drop j => ∀ a, s.actors[j]? = some a → ∀ update ack, .directApply update ack ∉ a.mailbox
  | _ => True

/-- What has become of the command of a call. -/
inductive Fate (a : Spawned Y) (update : Bytes) (ack : Nat) : Prop
  | pending (h : .directApply update ack ∈ a.pending)
  | performed (hdecodes : ∃ u, Y.decodeUpdate update = some u)
    (hperformed : a.actor.Performed update ack)

/-- A step that heeds leaves the command pending, or performs it. -/
theorem Fate.turn {cfg : Configuration} {s : Server Y} {l : Label Y} (hheeds : s.Heeds cfg l)
    {j : Nat} {a b : Spawned Y} (ha : s.actors[j]? = some a) (hturn : a.Turn cfg j l b)
    {update : Bytes} {ack : Nat} (h : Fate a update ack) : Fate b update ack := by
  cases hturn with
  | told cmds =>
    cases h with
    | pending h =>
      refine .pending ?_
      rcases List.mem_append.mp h with h | h
      · exact List.mem_append_left _ h
      · exact List.mem_append_right _ (List.mem_append_left _ h)
    | performed hdecodes h => exact .performed hdecodes h
  | recv n hbatch =>
    cases h with
    | pending h =>
      refine .pending ?_
      rw [Spawned.pending, hbatch, List.nil_append] at h
      rw [Spawned.pending, List.take_append_drop]
      exact h
    | performed hdecodes h => exact .performed hdecodes h
  | command o cmd batch b hbatch hstep =>
    obtain ⟨happlicable, hrest⟩ := hheeds a cmd batch ha hbatch
    cases h with
    | pending h =>
      rw [Spawned.pending, hbatch] at h
      rcases List.mem_append.mp h with h | h
      · rcases List.mem_cons.mp h with rfl | h
        · obtain ⟨u, hdecode, _⟩ := happlicable update ack rfl
          exact .performed ⟨u, hdecode⟩
            (Actor.directApply_performed hstep (happlicable update ack rfl))
        · refine .pending (List.mem_append_left _ ?_)
          -- an unload empties the batch; the step heeds, so none of it is lost
          cases hexit : b.unloadedBy (.command cmd o) with
          | true => exact absurd h (hrest b hstep hexit update ack)
          | false => exact h
      · exact .pending (List.mem_append_right _ h)
    | performed hdecodes h => exact .performed hdecodes (h.mono (Actor.step_trace hstep))
  | actor l b hplain hstep =>
    cases h with
    | pending h => exact .pending h
    | performed hdecodes h => exact .performed hdecodes (h.mono (Actor.step_trace hstep))
  | drop hstopped =>
    cases h with
    | pending h =>
      rcases List.mem_append.mp h with h | h
      · exact .pending (List.mem_append_left _ h)
      · exact absurd h (hheeds a ha update ack)
    | performed hdecodes h => exact .performed hdecodes h

/-- A call that waits has its command on the way or performed; one that has
returned `Ok` has it performed. -/
structure Tracked (s : Server Y) : Prop where
  fate : ∀ (k : Nat) (e : DirectApply), s.edits[k]? = some e → ∀ j ack, e.stage = .await j ack →
    ∃ a, s.actors[j]? = some a ∧ Fate a e.update ack
  returned : ∀ (k : Nat) (e : DirectApply), s.edits[k]? = some e → e.returned = some true →
    ∃ j ack, e.stage = .await j ack ∧ ∃ a, s.actors[j]? = some a ∧
      (∃ u, Y.decodeUpdate e.update = some u) ∧ a.actor.Performed e.update ack

/-- Whoever waits is answered once the command is performed. -/
theorem Accounted.answered {s : Server Y} (hs : s.Accounted) {j ack : Nat} {acked : Bool}
    (hawaited : s.awaited j ack = some acked) {a : Spawned Y} (ha : s.actors[j]? = some a)
    {update : Bytes} : .directApply update ack ∉ a.pending := by
  intro hpending
  cases acked with
  | true =>
    obtain ⟨a', ha', hack⟩ := awaited_true hawaited
    obtain rfl : a = a' := Option.some.inj (ha.symm.trans ha')
    exact hs.ack_once ha hack _ hpending rfl
  | false => exact (awaited_false hawaited ha).2 _ hpending rfl

theorem Tracked.step {s t : Server Y} (hs : s.Tracked) (haccounted : s.Accounted)
    {cfg : Configuration} {l : Label Y} (h : Server.step cfg s l = some t)
    (hheeds : s.Heeds cfg l) : t.Tracked := by
  have hfate : ∀ {j : Nat} {a : Spawned Y} {update : Bytes} {ack : Nat}, s.actors[j]? = some a →
      Fate a update ack → ∃ b, t.actors[j]? = some b ∧ Fate b update ack := by
    intro j a update ack ha hfate
    obtain ⟨b, hb, hturn⟩ := step_turn h ha
    exact ⟨b, hb, hfate.turn hheeds ha hturn⟩
  have hperformed : ∀ {j : Nat} {a : Spawned Y} {update : Bytes} {ack : Nat},
      s.actors[j]? = some a → a.actor.Performed update ack →
      ∃ b, t.actors[j]? = some b ∧ b.actor.Performed update ack := by
    intro j a update ack ha hdone
    obtain ⟨b, hb, hturn⟩ := step_turn h ha
    exact ⟨b, hb, hdone.mono hturn.grows⟩
  refine ⟨fun k e' he' j ack hstage' => ?_, fun k e' he' hreturned' => ?_⟩
  · rcases step_edit h he' with ⟨e, he, hturn⟩ | ⟨_, name, update, _, rfl⟩
    · cases hturn with
      | idle =>
        obtain ⟨a, ha, hold⟩ := hs.fate k _ he j ack hstage'
        exact hfate ha hold
      | calls | finds => cases hstage'
      | sends doc queues j' hreturned hstage hsent =>
        cases hstage'
        obtain ⟨a, ha, hpending⟩ := hsent
        exact ⟨a, ha, .pending hpending⟩
      | refused doc queues j' hreturned hstage =>
        rw [hstage] at hstage'
        cases hstage'
      | answered doc queues j' ack' acked hreturned hstage hawaited =>
        obtain ⟨a, ha, hold⟩ := hs.fate k e he j ack hstage'
        exact hfate ha hold
    · cases hstage'
  · rcases step_edit h he' with ⟨e, he, hturn⟩ | ⟨_, name, update, _, rfl⟩
    · cases hturn with
      | idle =>
        obtain ⟨j, ack, hstage, a, ha, hdecodes, hdone⟩ := hs.returned k _ he hreturned'
        obtain ⟨b, hb, hdone'⟩ := hperformed ha hdone
        exact ⟨j, ack, hstage, b, hb, hdecodes, hdone'⟩
      | calls doc queues call next hreturned | finds doc queues call j hreturned
      | sends doc queues j hreturned =>
        rw [hreturned] at hreturned'
        cases hreturned'
      | refused => cases hreturned'
      | answered doc queues j ack acked hreturned hstage hawaited =>
        obtain ⟨a, ha, hold⟩ := hs.fate k e he j ack hstage
        -- the caller is answered: a command still pending would be answered twice
        cases hold with
        | pending hpending => exact absurd hpending (haccounted.answered hawaited ha)
        | performed hdecodes hdone =>
          obtain ⟨b, hb, hdone'⟩ := hperformed ha hdone
          exact ⟨j, ack, hstage, b, hb, hdecodes, hdone'⟩
    · cases hreturned'

theorem build_tracked (Y : Yrs) : (build Y).Tracked where
  fate k e he := by cases he
  returned k e he := by cases he

end Server

/-- **What `direct_apply` reports**: as long as no `DirectApply` is lost with a
batch or a mailbox, and those that are handled can be applied, every call that
has returned `Ok` has its update decoded and applied, by an actor of its
document, which sent the `ack` afterwards. -/
theorem direct_apply_applied {cfg : Configuration} {ls : List (Server.Label Y)} {s : Server Y}
    (hrun : Lts.exec (Server.step cfg) (Server.build Y) ls = some s)
    (hheeds : Lts.Along (Server.step cfg) (fun s l _ => s.Heeds cfg l) (Server.build Y) ls)
    (k : Nat) (e : DirectApply) (he : s.edits[k]? = some e) (hreturned : e.returned = some true) :
    (∃ u, Y.decodeUpdate e.update = some u) ∧
      ∃ j ack a, e.stage = .await j ack ∧ s.actors[j]? = some a ∧ a.actor.world.name = e.name ∧
        a.actor.Performed e.update ack := by
  have hinv : s.Accounted ∧ s.Named ∧ s.Tracked := by
    refine Lts.exec_invariant_along (I := fun u : Server Y => u.Accounted ∧ u.Named ∧ u.Tracked)
      (fun s l t hstep hheeds hinv => ?_) hheeds hrun
      ⟨Server.build_accounted Y, Server.build_named Y, Server.build_tracked Y⟩
    obtain ⟨haccounted, hnamed, htracked⟩ := hinv
    exact ⟨haccounted.step hstep, hnamed.step hstep, htracked.step haccounted hstep hheeds⟩
  obtain ⟨_, hnamed, htracked⟩ := hinv
  obtain ⟨j, ack, hstage, a, ha, hdecodes, hdone⟩ := htracked.returned k e he hreturned
  obtain ⟨a', ha', hname⟩ := hnamed.edits k e he j (by rw [hstage]; exact decide_eq_true rfl)
  obtain rfl : a = a' := Option.some.inj (ha.symm.trans ha')
  exact ⟨hdecodes, j, ack, a, hstage, ha, hname, hdone⟩

/-! ## One call on a document that is not resident -/

/-- The steps of a call. -/
def directs (k n : Nat) : List (Server.Label OneWriter.yrs) :=
  List.replicate n (.direct k OneWriter.yrs.newDoc (OneWriter.queues 8))

/-- The call sends its command to a new actor, which handles it. -/
def callMade (update : Bytes) : List (Server.Label OneWriter.yrs) :=
  .apply "doc" update :: directs 0 8 ++ OneWriter.handles 0 ++ directs 0 1

/-- The batch is one `DirectApply` that decodes; on these documents it applies. -/
def handlesOne (s : Server OneWriter.yrs) : Server.Label OneWriter.yrs → Bool
  | .command j _ =>
    match (s.actors[j]?).map Spawned.batch with
    | some [.directApply update _] => (OneWriter.yrs.decodeUpdate update).isSome
    | _ => false
  | .drop _ => false
  | _ => true

theorem handlesOne_heeds {cfg : Configuration} {s : Server OneWriter.yrs}
    {l : Server.Label OneWriter.yrs} (h : handlesOne s l = true) : s.Heeds cfg l := by
  cases l with
  | command j o =>
    intro a cmd batch ha hbatch
    rw [handlesOne, ha, Option.map_some, hbatch] at h
    split at h
    next update ack heq =>
      cases heq
      obtain ⟨u, hu⟩ := Option.isSome_iff_exists.mp h
      refine ⟨fun update' ack' hcmd => ?_, fun b hstep hexit update' ack' => List.not_mem_nil⟩
      cases hcmd
      exact ⟨u, hu, rfl⟩
    next => cases h
  | drop j => cases h
  | _ => trivial

/-- An edit that is applied. -/
theorem direct_apply_applied_edit :
    ∃ e j ack a, (OneWriter.serve {} (callMade (OneWriter.edit 0))).edits[0]? = some e ∧
      e.returned = some true ∧ e.stage = .await j ack ∧
      (OneWriter.serve {} (callMade (OneWriter.edit 0))).actors[j]? = some a ∧
      a.actor.Performed e.update ack := by
  have hrun : Lts.exec (Server.step {}) (Server.build OneWriter.yrs) (callMade (OneWriter.edit 0))
      = some (OneWriter.serve {} (callMade (OneWriter.edit 0))) :=
    Lts.exec_reach (by decide +kernel)
  have hcheck : Lts.check (Server.step {}) handlesOne (Server.build OneWriter.yrs)
      (callMade (OneWriter.edit 0)) = true := by
    decide +kernel
  have hheeds : Lts.Along (Server.step {}) (fun s l _ => s.Heeds {} l)
      (Server.build OneWriter.yrs) (callMade (OneWriter.edit 0)) :=
    Lts.along_of_check (fun _ _ _ => handlesOne_heeds) hcheck
  have hsome : (((OneWriter.serve {} (callMade (OneWriter.edit 0))).edits[0]?).bind
      DirectApply.returned) = some true := by
    decide +kernel
  obtain ⟨e, he, hreturned⟩ := Option.bind_eq_some_iff.mp hsome
  obtain ⟨_, j, ack, a, hstage, ha, _, hdone⟩ := direct_apply_applied hrun hheeds 0 e he hreturned
  exact ⟨e, j, ack, a, he, hreturned, hstage, ha, hdone⟩

/-- A client leaves; a call is made before the actor handles that, and its command
is in the same batch. -/
def callLate : List (Server.Label OneWriter.yrs) :=
  .connect 0 :: OneWriter.enters 0 0 "doc" ++
    [.hangup 0, .leave 0 "doc", .clean 0, .apply "doc" (OneWriter.edit 0)] ++ directs 0 2 ++
    [.recv 0, .command 0 {}] ++ directs 0 1

/-- Some actor has applied something. -/
def anyApplied (s : Server OneWriter.yrs) : Bool :=
  s.actors.any fun a => a.actor.world.trace.any fun
    | .applied _ _ _ => true
    | _ => false

/-- `Ok` for an empty update, which does not decode; and `Ok` for an edit that is
dropped when the actor unloads. -/
theorem direct_apply_unapplied :
    ¬ (∀ (cfg : Configuration) (ls : List (Server.Label OneWriter.yrs)) (s : Server OneWriter.yrs),
        Lts.exec (Server.step cfg) (Server.build OneWriter.yrs) ls = some s →
        ∀ (k : Nat) (e : DirectApply), s.edits[k]? = some e → e.returned = some true →
          ∃ u, OneWriter.yrs.decodeUpdate e.update = some u) ∧
      ¬ ∀ (cfg : Configuration) (ls : List (Server.Label OneWriter.yrs)) (s : Server OneWriter.yrs),
        Lts.exec (Server.step cfg) (Server.build OneWriter.yrs) ls = some s →
        ∀ (k : Nat) (e : DirectApply), s.edits[k]? = some e → e.returned = some true →
          (∃ u, OneWriter.yrs.decodeUpdate e.update = some u) →
          ∃ a ∈ s.actors, ∃ doc, .applied e.update .local doc ∈ a.actor.world.trace := by
  constructor
  · intro hall
    have hrun : Lts.exec (Server.step {}) (Server.build OneWriter.yrs) (callMade [])
        = some (OneWriter.serve {} (callMade [])) :=
      Lts.exec_reach (by decide +kernel)
    have hsome : (((OneWriter.serve {} (callMade [])).edits[0]?).map fun e =>
        (e.returned, e.update)) = some (some true, []) := by
      decide +kernel
    obtain ⟨e, he, hboth⟩ := Option.map_eq_some_iff.mp hsome
    obtain ⟨hreturned, hupdate⟩ := Prod.mk.injEq .. ▸ hboth
    obtain ⟨u, hu⟩ := hall {} _ _ hrun 0 e he hreturned
    have hmalformed : OneWriter.yrs.decodeUpdate [] = none := by
      decide +kernel
    rw [hupdate, hmalformed] at hu
    cases hu
  · intro hall
    have hrun : Lts.exec (Server.step {}) (Server.build OneWriter.yrs) callLate
        = some (OneWriter.serve {} callLate) :=
      Lts.exec_reach (by decide +kernel)
    have hsome : (((OneWriter.serve {} callLate).edits[0]?).map fun e =>
        (e.returned, e.update)) = some (some true, OneWriter.edit 0) := by
      decide +kernel
    obtain ⟨e, he, hboth⟩ := Option.map_eq_some_iff.mp hsome
    obtain ⟨hreturned, hupdate⟩ := Prod.mk.injEq .. ▸ hboth
    have hdecodes : ∃ u, OneWriter.yrs.decodeUpdate e.update = some u := by
      rw [hupdate]
      exact ⟨_, OneWriter.decode_encode _⟩
    obtain ⟨a, ha, doc, hdoc⟩ := hall {} _ _ hrun 0 e he hreturned hdecodes
    have hnone : anyApplied (OneWriter.serve {} callLate) = false := by
      decide +kernel
    have hany : anyApplied (OneWriter.serve {} callLate) = true :=
      List.any_eq_true.mpr ⟨a, ha, List.any_eq_true.mpr ⟨_, hdoc, rfl⟩⟩
    rw [hnone] at hany
    cases hany

end Hocuspocus
