import Hocuspocus.Document.Delivery
import Hocuspocus.OneWriter

/-!
# Content the document already has

`apply_and_broadcast` takes an empty encoding of the transaction for a change of
nothing. A v1 update is never empty, so the test never says so: whatever `yrs`
applies is queued, marked and announced, known or not. `reapply_noted` says when
a call changes nothing, `reapply_not_noop` shows one on known content that does.
-/

namespace Hocuspocus

variable {Y : Yrs} {Op : Type}

/-- The document has every insertion and every deletion of the update. -/
structure Yrs.Replicated.Knows (R : Y.Replicated Op) (d : Y.Doc) (u : Y.Update) : Prop where
  ops : (R.delta u).ops ⊆ (R.rep d).ins R.deps
  dels : (R.delta u).dels ⊆ (R.rep d).gone R.deps

namespace World

/-- What a flush would send now. -/
def flushed (w : World Y) (sched : List (List QueueAct)) : List (Event Y) :=
  (w.withSched sched).flushBroadcast.trace.drop w.trace.length

/-- The bookkeeping is as before, no `on_change` hook has run, and the flush
sends what it would have sent. -/
structure NoOp (w w' : World Y) : Prop where
  dirty : w'.dirty = w.dirty
  firstDirtyAt : w'.firstDirtyAt = w.firstDirtyAt
  lastChangeAt : w'.lastChangeAt = w.lastChangeAt
  lastOrigin : w'.lastOrigin = w.lastOrigin
  broadcastBase : w'.broadcastBase = w.broadcastBase
  broadcastPending : w'.broadcastPending = w.broadcastPending
  onChange : ∀ update origin clients,
    Event.onChange update origin clients ∉ w'.trace.drop w.trace.length
  flush : ∀ sched, w'.flushed sched = w.flushed sched

theorem NoOp.refl (w : World Y) : w.NoOp w where
  dirty := rfl
  firstDirtyAt := rfl
  lastChangeAt := rfl
  lastOrigin := rfl
  broadcastBase := rfl
  broadcastPending := rfl
  onChange update origin clients h := by
    rw [List.drop_length] at h
    cases h
  flush _ := rfl

/-- An update that is refused leaves everything as it was. -/
theorem applyAndBroadcast_refused (herr : Y.ErrKeepsDoc) (o : Ambient) {w : World Y}
    {update : Bytes} {u : Y.Update} (origin : Origin) (hdecode : Y.decodeUpdate update = some u)
    (hrefused : (Y.applyUpdate w.doc u).2 = false) : w.applyAndBroadcast o update origin = w := by
  have hdoc := herr w.doc u hrefused
  unfold applyAndBroadcast
  rw [hdecode]
  dsimp only
  rw [hrefused, Bool.not_false, if_pos rfl, hdoc]

/-- One that is applied is announced, whatever it brings. -/
theorem applyAndBroadcast_announced (hne : ∀ d u, Y.encodeTxn d u ≠ []) (o : Ambient) {w : World Y}
    {update : Bytes} {u : Y.Update} (origin : Origin) (hdecode : Y.decodeUpdate update = some u)
    (hok : (Y.applyUpdate w.doc u).2 = true) :
    .onChange (Y.encodeTxn w.doc u) origin w.connections.size ∈
      (w.applyAndBroadcast o update origin).trace.drop w.trace.length := by
  have htrace : (w.applyAndBroadcast o update origin).trace = w.trace ++
      [.applied update origin (Y.applyUpdate w.doc u).1,
        .onChange (Y.encodeTxn w.doc u) origin w.connections.size] := by
    unfold applyAndBroadcast
    rw [hdecode]
    dsimp only
    rw [hok, Bool.not_true, if_neg Bool.false_ne_true, noteChange_cons _ _ _ _ (hne _ _)]
    exact List.append_assoc ..
  rw [htrace, List.drop_left]
  exact List.mem_cons_of_mem _ (List.mem_singleton_self _)

/-- An update changes nothing exactly if `yrs` refuses it. -/
theorem applyAndBroadcast_noOp (hne : ∀ d u, Y.encodeTxn d u ≠ []) (herr : Y.ErrKeepsDoc)
    (o : Ambient) (w : World Y) {update : Bytes} {u : Y.Update} (origin : Origin)
    (hdecode : Y.decodeUpdate update = some u) :
    w.NoOp (w.applyAndBroadcast o update origin) ↔ (Y.applyUpdate w.doc u).2 = false := by
  constructor
  · intro hnoop
    cases hok : (Y.applyUpdate w.doc u).2 with
    | false => rfl
    | true =>
      exact absurd (applyAndBroadcast_announced hne o origin hdecode hok) (hnoop.onChange _ _ _)
  · intro hrefused
    rw [applyAndBroadcast_refused herr o origin hdecode hrefused]
    exact NoOp.refl w

end World

/-- **Known content is applied again like new**: in any state, from any origin,
an update changes nothing exactly if `yrs` refuses it; and applying it twice does
what applying it once does exactly if `yrs` refuses it the second time. -/
theorem World.reapply_noted (hne : ∀ d u, Y.encodeTxn d u ≠ []) (herr : Y.ErrKeepsDoc)
    (w : World Y) (o o' : Ambient) {update : Bytes} {u : Y.Update} (origin origin' : Origin)
    (hdecode : Y.decodeUpdate update = some u) :
    (w.NoOp (w.applyAndBroadcast o update origin) ↔ (Y.applyUpdate w.doc u).2 = false) ∧
      ((w.applyAndBroadcast o update origin).NoOp
          ((w.applyAndBroadcast o update origin).applyAndBroadcast o' update origin') ↔
        (Y.applyUpdate (w.applyAndBroadcast o update origin).doc u).2 = false) :=
  ⟨applyAndBroadcast_noOp hne herr o w origin hdecode,
    applyAndBroadcast_noOp hne herr o' _ origin' hdecode⟩

theorem OneWriter.decode_edit (c : Nat) :
    OneWriter.yrs.decodeUpdate (OneWriter.edit c) = some (⟨[c], []⟩ : OneWriter.Update) :=
  OneWriter.decode_encode _

/-- An edit that is applied twice. -/
theorem World.reapply_noted_twice :
    let once := (OneWriter.start 8).world.applyAndBroadcast {} (OneWriter.edit 0) .redis
    ¬ once.NoOp (once.applyAndBroadcast {} (OneWriter.edit 0) .redis) := by
  intro once hnoop
  have hrefused := (World.reapply_noted (fun _ _ => OneWriter.encodeUpdate_ne_nil _)
    OneWriter.errKeepsDoc (OneWriter.start 8).world {} {} .redis .redis
    (OneWriter.decode_edit 0)).2.mp hnoop
  cases hrefused

theorem OneWriter.knows_edit :
    OneWriter.replicated.Knows (⟨[0], []⟩ : OneWriter.Doc) (⟨[0], []⟩ : OneWriter.Update) where
  ops := by
    show {c | c ∈ [0]} ⊆ (OneWriter.rep ⟨[0], []⟩).ins OneWriter.deps
    rw [OneWriter.ins_rep]
    intro c hc
    obtain rfl : c = 0 := List.mem_singleton.mp hc
    show 0 < OneWriter.frontier ⟨[0], []⟩
    decide
  dels c hc := absurd hc List.not_mem_nil

/-- A client reconnects, and sends the edit the document has. -/
theorem World.reapply_not_noop :
    ¬ ∀ (ls : List Label) (a : Actor OneWriter.yrs) (o : Ambient) (update : Bytes)
        (u : OneWriter.Update) (origin : Origin),
      Actor.Run {} (OneWriter.start 8) ls a →
      OneWriter.yrs.decodeUpdate update = some u → OneWriter.replicated.Knows a.world.doc u →
      a.world.NoOp (a.world.applyAndBroadcast o update origin) := by
  intro hall
  generalize hafter : OneWriter.after {} (OneWriter.start 8)
    [.command (.directApply (OneWriter.edit 0) 0) {}] = a
  have hrun : Actor.Run {} (OneWriter.start 8) [.command (.directApply (OneWriter.edit 0) 0) {}] a := by
    rw [← hafter]
    exact OneWriter.run_after (by decide +kernel)
  have hdoc : a.world.doc = (⟨[0], []⟩ : OneWriter.Doc) := by
    rw [← hafter]
    rfl
  have hknows : OneWriter.replicated.Knows a.world.doc (⟨[0], []⟩ : OneWriter.Update) := by
    rw [hdoc]
    exact OneWriter.knows_edit
  have hnoop := hall _ a {} _ _ (.connection 1) hrun (OneWriter.decode_edit 0) hknows
  have happlies : (OneWriter.yrs.applyUpdate a.world.doc (⟨[0], []⟩ : OneWriter.Update)).2 = true := rfl
  exact hnoop.onChange _ _ _ (applyAndBroadcast_announced
    (fun _ _ => OneWriter.encodeUpdate_ne_nil _) {} (.connection 1) (OneWriter.decode_edit 0) happlies)

end Hocuspocus
