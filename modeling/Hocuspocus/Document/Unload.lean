import Hocuspocus.Document.Store

/-!
# Unloading

`maybe_unload` runs where a connection leaves, where a store result arrives
and after an inline store. With `unload_immediately` it makes a last store
itself, and it leaves the registry whether or not that store succeeded:
`run_store` keeps the document dirty "for a retry" that nobody is left to
make. `KeepsUnsaved` is the condition under which that does not happen, and
`unload_keeps_applied` shows that it is enough: along a run that meets it, no
unload loses an applied update.
-/

namespace Hocuspocus

variable {Y : Yrs}

/-- The call of `maybe_unload` a label makes: what the environment supplies,
and the world it is called in. -/
def Actor.unloadCall (a : Actor Y) : Label → Option (Ambient × World Y)
  | .command (.removeConnection connId) o =>
    some (o, (a.world.withSched o.sched).removeConnection connId)
  | .storeResult o =>
    match a.world.storeResults with
    | ok :: rest => some (o, (a.world.withSched o.sched).takeResult o ok rest)
    | [] => none
  | .deadline o =>
    if a.world.connections.isEmpty then some (o, (a.world.withSched o.sched).runStore o.onStore)
    else none
  | _ => none

/-- The label unloads the document: its call of `maybe_unload` returns true. -/
def Actor.Unloads (cfg : Configuration) (a : Actor Y) (l : Label) : Prop :=
  ∃ o w, a.unloadCall l = some (o, w) ∧ (w.maybeUnload cfg o).2 = true

/-- No call that finds unsaved changes, nobody connected, no store running
and no objection by the hooks has its store refused. -/
def Actor.KeepsUnsaved (cfg : Configuration) (a : Actor Y) (l : Label) : Prop :=
  ∀ o w, a.unloadCall l = some (o, w) → cfg.unloadImmediately = true → w.dirty = true →
    w.connections.isEmpty = true → w.storing = false → firstError o.beforeUnload = none →
    firstError o.onStoreUnload = none

theorem Actor.keepsUnsaved_of_none {cfg : Configuration} {a : Actor Y} {l : Label}
    (h : a.unloadCall l = none) : a.KeepsUnsaved cfg l := by
  intro o w hcall
  rw [h] at hcall
  cases hcall

/-- Every applied update is contained in some accepted state. -/
def World.AppliedKept {L : Type} [SemilatticeSup L] [OrderBot L] (C : Y.Crdt L)
    (w : World Y) : Prop :=
  ∀ update ∈ appliedUpdates w.history, ∃ state ∈ acceptedStates w.history,
    C.bytes update ≤ C.bytes state

/-- A step that unloads has kept what was applied. -/
def Actor.UnloadKeeps {L : Type} [SemilatticeSup L] [OrderBot L] (C : Y.Crdt L)
    (cfg : Configuration) (a : Actor Y) (l : Label) (b : Actor Y) : Prop :=
  a.Unloads cfg l → b.world.AppliedKept C

theorem Actor.unloadCall_world {cfg : Configuration} {a b : Actor Y} {l : Label} {o : Ambient}
    {w : World Y} (hstep : a.step cfg l = some b) (hcall : a.unloadCall l = some (o, w)) :
    b.world = (w.maybeUnload cfg o).1 := by
  cases Actor.step_cases hstep with
  | command cmd o' n hphase =>
    cases cmd with
    | removeConnection connId =>
      cases hcall
      rfl
    | _ => cases hcall
  | storeResult o' ok rest hphase hresults =>
    rw [Actor.unloadCall, hresults] at hcall
    cases hcall
    rfl
  | deadline o' hphase hdirty hstoring =>
    rw [Actor.unloadCall] at hcall
    split at hcall
    next hempty =>
      have htick : (a.world.withSched o'.sched).tick cfg o'
          = ((a.world.withSched o'.sched).runStore o'.onStore).maybeUnload cfg o' :=
        if_pos hempty
      cases hcall
      exact congrArg Prod.fst htick
    next => cases hcall
  | _ => cases hcall

namespace World

theorem runStore_storing (results : List HookResult) (w : World Y) :
    (w.runStore results).storing = w.storing := by
  unfold runStore
  split
  · rfl
  · dsimp only
    split <;> rfl

/-- An accepted inline store leaves nothing unsaved. -/
theorem storeIfDirty_clean {results : List HookResult} {w : World Y}
    (h : w.dirty = true → firstError results = none) :
    (w.storeIfDirty results).dirty = false := by
  unfold storeIfDirty
  split
  next hdirty =>
    unfold runStore
    rw [if_neg (by rw [hdirty]; exact Bool.false_ne_true)]
    dsimp only
    rw [h hdirty]
    rfl
  next hdirty => exact Bool.not_eq_true _ ▸ hdirty

theorem storeIfDirty_storing (results : List HookResult) (w : World Y) :
    (w.storeIfDirty results).storing = w.storing := by
  unfold storeIfDirty
  split
  · exact runStore_storing _ _
  · rfl

/-- An actor that unloads is not storing. -/
theorem maybeUnload_idle {cfg : Configuration} {o : Ambient} {w : World Y}
    (hunload : (w.maybeUnload cfg o).2 = true) : (w.maybeUnload cfg o).1.storing = false := by
  rcases w.maybeUnload_cases cfg o with hstay | ⟨_, hstoring, _, heq⟩
  · rw [hstay] at hunload
    cases hunload
  · rw [heq] at hunload ⊢
    split at hunload
    next => cases hunload
    next hagree =>
      rw [if_neg hagree]
      exact (storeIfDirty_storing _ w).trans hstoring

/-- Where the last store is not refused, an unloaded document is clean. -/
theorem maybeUnload_clean {cfg : Configuration} {o : Ambient} {w : World Y}
    (hkeep : cfg.unloadImmediately = true → w.dirty = true → w.connections.isEmpty = true →
      w.storing = false → firstError o.beforeUnload = none → firstError o.onStoreUnload = none)
    (hunload : (w.maybeUnload cfg o).2 = true) :
    (w.maybeUnload cfg o).1.dirty = false ∧ (w.maybeUnload cfg o).1.storing = false := by
  refine ⟨?_, maybeUnload_idle hunload⟩
  rcases w.maybeUnload_cases cfg o with hstay | ⟨hempty, hstoring, himm, heq⟩
  · rw [hstay] at hunload
    cases hunload
  · rw [heq] at hunload ⊢
    split at hunload
    next => cases hunload
    next hagree =>
      rw [if_neg hagree]
      have hask : firstError o.beforeUnload = none := by simpa using hagree
      refine storeIfDirty_clean fun hdirty => ?_
      exact hkeep (himm hdirty) hdirty hempty hstoring hask

end World

section Unload

variable {L : Type} [SemilatticeSup L] [OrderBot L] (C : Y.Crdt L)

theorem Actor.unloadKeeps_of_settled {cfg : Configuration} {a b : Actor Y} {l : Label}
    (hstep : a.step cfg l = some b) (hkeep : a.KeepsUnsaved cfg l)
    (hsettled : Settled (updateMeasure C) b.world.view) : Actor.UnloadKeeps C cfg a l b := by
  rintro ⟨o, w, hcall, hunload⟩
  have hworld := Actor.unloadCall_world hstep hcall
  obtain ⟨hdirty, hstoring⟩ := World.maybeUnload_clean (hkeep o w hcall) hunload
  exact hsettled.kept (hworld ▸ hdirty) (hworld ▸ hstoring)

/-- **No unload loses an applied update**, in any run of a loaded document
none of whose unloads has its last store refused. -/
theorem Actor.unload_keeps_applied {cfg : Configuration} {name : String} {doc : Y.Doc}
    {queues : Queues} {ls : List Label}
    (hkeep : Lts.Along (Actor.step cfg) (fun a l _ => a.KeepsUnsaved cfg l)
      (Actor.spawn name doc queues) ls) :
    Lts.Along (Actor.step cfg) (Actor.UnloadKeeps C cfg) (Actor.spawn name doc queues) ls := by
  have hsound := updateMeasure_sound C
  have hstep : ∀ (a : Actor Y) (l : Label) (b : Actor Y), a.step cfg l = some b →
      Settled (updateMeasure C) a.world.view → Settled (updateMeasure C) b.world.view := by
    intro a l b
    exact Actor.step_preserve (fun _ _ hmove => Settled.move C.encodeTxn_ne_nil hsound hmove)
      (fun _ => Settled.flush hsound)
  refine Lts.along_of_invariant (I := fun a => Settled (updateMeasure C) a.world.view)
    (fun a l b hl _ ha => hstep a l b hl ha) ?_ hkeep
    (Settled.spawn hsound nofun nofun)
  intro a l b hl hcond ha
  exact Actor.unloadKeeps_of_settled C hl hcond (hstep a l b hl ha)

end Unload

/-- A client joins and edits ... -/
def joinAndEdit : List Label :=
  [.command (.addConnection (OneWriter.conn 1) 0) {},
    .command (.clientFrame 1 (OneWriter.editFrame 0)) { now := 5 }, .flush []]

/-- ... and leaves; the store made then answers `stores`. -/
def leave (stores : List HookResult) : Label :=
  .command (.removeConnection 1) { now := 6, onStoreUnload := stores }

/-- The store at unload is accepted, and the edit kept. -/
theorem Actor.unload_keeps_applied_edit :
    ∃ a b : Actor OneWriter.yrs, a.Unloads {} (leave [.ok ()]) ∧
      appliedUpdates b.world.history = [OneWriter.edit 0] ∧ b.world.AppliedKept OneWriter.crdt := by
  have hkeep : Lts.Along (Actor.step {}) (fun a l _ => a.KeepsUnsaved {} l) (OneWriter.start 8)
      (joinAndEdit ++ [leave [.ok ()]]) :=
    fun _ _ => ⟨Actor.keepsUnsaved_of_none rfl, fun _ _ => ⟨Actor.keepsUnsaved_of_none rfl,
      fun _ _ => ⟨Actor.keepsUnsaved_of_none rfl, fun _ _ => ⟨by
        intro o w hcall _ _ _ _ _
        cases hcall
        rfl, trivial⟩⟩⟩⟩
  have hunloads : (OneWriter.after {} (OneWriter.start 8) joinAndEdit).Unloads {}
      (leave [.ok ()]) := ⟨_, _, rfl, by decide +kernel⟩
  exact ⟨_, _, hunloads, by decide +kernel, Lts.along_last
    (Actor.unload_keeps_applied OneWriter.crdt hkeep) (OneWriter.run_after (by decide +kernel))
    (OneWriter.step_after (by decide +kernel)) hunloads⟩

/-- The store at unload is refused: the actor is gone all the same, and the
edit is in no accepted state. -/
theorem Actor.unload_loses_applied :
    ¬ ∀ (cfg : Configuration) (ls : List Label), Lts.Along (Actor.step cfg)
      (Actor.UnloadKeeps OneWriter.crdt cfg) (OneWriter.start 8) ls := by
  intro hall
  let refused : Label := leave [.error ⟨"database is locked", none⟩]
  have hunloads : (OneWriter.after {} (OneWriter.start 8) joinAndEdit).Unloads {} refused :=
    ⟨_, _, rfl, by decide +kernel⟩
  have hkept := Lts.along_last (hall {} (joinAndEdit ++ [refused]))
    (OneWriter.run_after (by decide +kernel)) (OneWriter.step_after (by decide +kernel)) hunloads
  have happlied : appliedUpdates (OneWriter.after {}
      (OneWriter.after {} (OneWriter.start 8) joinAndEdit) [refused]).world.history
      = [OneWriter.edit 0] := by decide +kernel
  have haccepted : acceptedStates (OneWriter.after {}
      (OneWriter.after {} (OneWriter.start 8) joinAndEdit) [refused]).world.history = [] := by
    decide +kernel
  obtain ⟨state, hstate, _⟩ := hkept (OneWriter.edit 0) (by rw [happlied]; decide)
  rw [haccepted] at hstate
  cases hstate

end Hocuspocus
