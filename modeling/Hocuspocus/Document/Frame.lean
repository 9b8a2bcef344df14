import Mathlib.Logic.Relation
import Hocuspocus.Document.Run

/-!
# What a step of the actor can do to its content

Most of the actor's code talks to clients: it enqueues frames, evicts lagging
connections, edits the presence table. None of that touches the document or
its store bookkeeping, and `Quiet` says so, one lemma for each method. What
is left is a short list of `Move`s on the `View` of a world (its `Content`
and the `history` of content events), and `step_acts` shows that one step of
`Document::run` is a sequence of them. An invariant about the document, the
timers or the stores is therefore checked against the moves alone and
carried to every run by `run_invariant`.
-/

namespace Hocuspocus

variable {Y : Yrs}

/-- The events that concern the document and its stores. -/
def Event.isContent : Event Y → Bool
  | .applied .. | .beforeHandleMessage .. | .onChange .. | .snapshot .. | .stored ..
  | .beforeUnload | .unloaded => true
  | _ => false

/-- The content of an actor and the content events so far. -/
structure View (Y : Yrs) where
  content : Content Y
  history : List (Event Y)

def World.history (w : World Y) : List (Event Y) := w.trace.filter Event.isContent

def World.view (w : World Y) : View Y := ⟨w.toContent, w.history⟩

/-- `w'` differs from `w` only in what it did towards clients. -/
structure Quiet (w w' : World Y) : Prop where
  view : w'.view = w.view
  name : w'.name = w.name
  trace : w.trace <+: w'.trace

theorem Quiet.refl (w : World Y) : Quiet w w := ⟨rfl, rfl, List.prefix_refl _⟩

/-- Quiet methods compose, so each one below is a chain of those it calls. -/
theorem Quiet.trans {w₁ w₂ w₃ : World Y} (h₁ : Quiet w₁ w₂) (h₂ : Quiet w₂ w₃) : Quiet w₁ w₃ :=
  ⟨h₂.view.trans h₁.view, h₂.name.trans h₁.name, h₁.trace.trans h₂.trace⟩

/-- Queues, schedule, presence and connections may be anything. -/
theorem Quiet.of_eq {w w' : World Y} (hview : w'.view = w.view) (hname : w'.name = w.name)
    (htrace : w'.trace = w.trace) : Quiet w w' :=
  ⟨hview, hname, htrace ▸ List.prefix_refl _⟩

namespace World

/-! ## The quiet methods -/

theorem emit_quiet (w : World Y) {e : Event Y} (he : e.isContent = false) :
    Quiet w (w.emit e) := by
  refine ⟨?_, rfl, List.prefix_append _ _⟩
  show View.mk w.toContent ((w.trace ++ [e]).filter Event.isContent) = w.view
  rw [List.filter_append, List.filter_cons_of_neg (by rw [he]; exact Bool.false_ne_true)]
  simp [view, history]

theorem poll_quiet (w : World Y) : Quiet w w.poll := by
  unfold poll
  split
  · exact Quiet.refl w
  · exact Quiet.of_eq rfl rfl rfl

theorem trySend_quiet (w : World Y) (q : Nat) (m : OutMsg) : Quiet w (w.trySend q m).1 :=
  w.poll_quiet.trans (Quiet.of_eq rfl rfl rfl)

theorem sendFrame_quiet (w : World Y) (conn : ConnHandle) (frame : Bytes) :
    Quiet w (w.sendFrame conn frame).1 :=
  (w.trySend_quiet _ _).trans (emit_quiet _ rfl)

theorem sendClose_quiet (w : World Y) (conn : ConnHandle) (event : CloseEvent) :
    Quiet w (w.sendClose conn event) :=
  (w.trySend_quiet _ _).trans (emit_quiet _ rfl)

theorem detach_quiet (w : World Y) (id : Nat) (conn : ConnHandle) :
    Quiet w (w.detach id conn) := Quiet.of_eq rfl rfl rfl

theorem evict_quiet (w : World Y) (id : Nat) : Quiet w (w.evict id) := by
  unfold evict
  split
  next => exact Quiet.refl w
  next conn _ => exact (w.detach_quiet id conn).trans (sendClose_quiet _ _ _)

theorem evictLagging_quiet : ∀ (ids : List Nat) (w : World Y), Quiet w (w.evictLagging ids)
  | [], w => Quiet.refl w
  | id :: ids, w => (w.evict_quiet id).trans (evictLagging_quiet ids _)

/-- A broadcast sends to one connection after the other ... -/
theorem sendEach_quiet (frameFor : ConnHandle → Bytes) :
    ∀ (conns : List ConnHandle) (w : World Y), Quiet w (sendEach frameFor w conns).1
  | [], w => Quiet.refl w
  | conn :: rest, w =>
    (w.sendFrame_quiet conn _).trans (sendEach_quiet frameFor rest _)

/-- ... and evicts, all of it towards clients. -/
theorem broadcastWith_quiet (w : World Y) (build : String → Bytes) :
    Quiet w (w.broadcastWith build) :=
  (sendEach_quiet _ _ w).trans (evictLagging_quiet _ _)

theorem broadcastAwareness_quiet (w : World Y) (update : Bytes) :
    Quiet w (w.broadcastAwareness update) := w.broadcastWith_quiet _

theorem addConnection_quiet (w : World Y) (order : Reorder ConnHandle) (handle : ConnHandle) :
    Quiet w (w.addConnection order handle) := by
  unfold addConnection
  refine Quiet.trans ?_ (emit_quiet _ rfl)
  split
  · split
    · exact (w.sendFrame_quiet _ _).trans (Quiet.of_eq rfl rfl rfl)
    · exact Quiet.of_eq rfl rfl rfl
  · exact Quiet.of_eq rfl rfl rfl

/-- A connection that leaves takes its presence along, and nothing of the document. -/
theorem removeConnection_quiet (w : World Y) (connId : Nat) :
    Quiet w (w.removeConnection connId) := by
  unfold removeConnection
  split
  next => exact Quiet.refl w
  next handle _ =>
    refine Quiet.trans ?_ (emit_quiet _ rfl)
    have hdetach := w.detach_quiet connId handle
    split
    · exact hdetach
    · split
      · exact hdetach.trans (broadcastAwareness_quiet _ _)
      · exact hdetach

theorem rejectMessage_quiet (w : World Y) (connId : Nat) (e : HookError) :
    Quiet w (w.rejectMessage connId e) := by
  unfold rejectMessage
  split
  · exact w.sendClose_quiet _ _
  · exact Quiet.refl w

theorem sendSyncStatus_quiet (w : World Y) (connId : Nat) (address : String) (saved : Bool) :
    Quiet w (w.sendSyncStatus connId address saved) := by
  unfold sendSyncStatus
  split
  · exact w.sendFrame_quiet _ _
  · exact Quiet.refl w

theorem relayAwareness_quiet (w : World Y) (changed : List Nat) (origin : Origin) :
    Quiet w (w.relayAwareness changed origin) := by
  unfold relayAwareness
  split
  · exact Quiet.refl w
  · exact (w.broadcastAwareness_quiet _).trans (emit_quiet _ rfl)

/-- Presence is not content, whoever it comes from. -/
theorem handleAwareness_quiet (w : World Y) (frame : IncomingFrame) (origin : Origin) :
    Quiet w (w.handleAwareness frame origin) := by
  unfold handleAwareness
  split
  next => exact Quiet.refl w
  next =>
    split
    next => exact Quiet.refl w
    next update _ =>
      dsimp only
      split
      next => exact Quiet.of_eq rfl rfl rfl
      next =>
        -- claiming the client ids only rewrites the connection map
        refine Quiet.trans ?_ (relayAwareness_quiet _ _ _)
        split <;> exact Quiet.of_eq rfl rfl rfl

theorem replyQueryAwareness_quiet (w : World Y) (address : String) (connId : Nat) :
    Quiet w (w.replyQueryAwareness address connId) := by
  unfold replyQueryAwareness
  split
  · exact Quiet.refl w
  · split
    · exact Quiet.refl w
    · exact w.sendFrame_quiet _ _

theorem handleStateless_quiet (w : World Y) (conn : ConnHandle) (frame : IncomingFrame) :
    Quiet w (w.handleStateless conn frame) := by
  unfold handleStateless
  split
  · exact Quiet.refl w
  · exact emit_quiet _ rfl

theorem closeConnection_quiet (w : World Y) (connId : Nat) (event : CloseEvent) :
    Quiet w (w.closeConnection connId event) := by
  unfold closeConnection
  refine Quiet.trans ?_ (removeConnection_quiet _ _)
  split
  · exact w.sendClose_quiet _ _
  · exact Quiet.refl w

theorem withSched_quiet (w : World Y) (sched : List (List QueueAct)) :
    Quiet w (w.withSched sched) := Quiet.of_eq rfl rfl rfl

end World

/-! ## Moves -/

/-- `mark_dirty` on the content. -/
def Content.markDirty (c : Content Y) (now : Nat) (origin : Origin) : Content Y :=
  { c with
    dirty := true
    firstDirtyAt := some (c.firstDirtyAt.getD now)
    lastChangeAt := some now
    lastOrigin := origin }

/-- The bookkeeping of a document without unsaved changes. -/
def Content.clean (c : Content Y) : Content Y :=
  { c with dirty := false, firstDirtyAt := none, lastChangeAt := none }

/-- The state vector a batch's merged frame is computed from: kept if the
batch has one, captured before the change otherwise. -/
def Content.base (c : Content Y) : Y.StateVector :=
  c.broadcastBase.getD (Y.stateVector c.doc)

/-- What can happen to the content of a document actor, one thing at a
time. -/
inductive Move : View Y → View Y → Prop
  /-- The `before_handle_message` loop runs. -/
  | checked (v : View Y) (update : Bytes) (origin : Origin) (clients : Nat) :
    Move v ⟨v.content, v.history ++ [.beforeHandleMessage update origin clients]⟩
  /-- `apply_update` returned an error. -/
  | failed (v : View Y) (u : Y.Update) (herr : (Y.applyUpdate v.content.doc u).2 = false) :
    Move v ⟨{ v.content with doc := (Y.applyUpdate v.content.doc u).1 }, v.history⟩
  /-- An update was applied and its transaction encodes to nothing. -/
  | absorbed (v : View Y) (update : Bytes) (u : Y.Update) (origin : Origin)
    (hdec : Y.decodeUpdate update = some u)
    (hok : (Y.applyUpdate v.content.doc u).2 = true)
    (hempty : Y.encodeTxn v.content.doc u = []) :
    Move v ⟨{ v.content with doc := (Y.applyUpdate v.content.doc u).1 },
      v.history ++ [.applied update origin (Y.applyUpdate v.content.doc u).1]⟩
  /-- An update was applied: queued for broadcast, and the document dirty. -/
  | changed (v : View Y) (update : Bytes) (u : Y.Update) (origin : Origin) (now clients : Nat)
    (hdec : Y.decodeUpdate update = some u)
    (hok : (Y.applyUpdate v.content.doc u).2 = true)
    (hne : Y.encodeTxn v.content.doc u ≠ []) :
    Move v ⟨Content.markDirty
        { v.content with
          doc := (Y.applyUpdate v.content.doc u).1
          broadcastBase := some v.content.base
          broadcastPending := true } now origin,
      v.history ++ [.applied update origin (Y.applyUpdate v.content.doc u).1,
        .onChange (Y.encodeTxn v.content.doc u) origin clients]⟩
  /-- A store task is spawned with a snapshot. -/
  | spawned (v : View Y) (hdirty : v.content.dirty = true) (hstoring : v.content.storing = false) :
    Move v ⟨{ v.content.clean with
        storing := true
        storeTasks := v.content.storeTasks ++ [Y.encodeState v.content.doc] },
      v.history ++ [.snapshot (Y.encodeState v.content.doc)]⟩
  /-- A spawned store task finishes and reports. -/
  | finished (v : View Y) (i : Nat) (state : Bytes) (ok : Bool)
    (htask : v.content.storeTasks[i]? = some state) :
    Move v ⟨{ v.content with
        storeTasks := v.content.storeTasks.eraseIdx i
        storeResults := v.content.storeResults ++ [ok] },
      v.history ++ [.stored state ok]⟩
  /-- The actor takes a result; a failure re-arms the debounce timer. -/
  | reported (v : View Y) (ok : Bool) (rest : List Bool) (now : Nat)
    (hresult : v.content.storeResults = ok :: rest) :
    Move v ⟨if ok then { v.content with storeResults := rest, storing := false }
      else Content.markDirty { v.content with storeResults := rest, storing := false } now
        v.content.lastOrigin, v.history⟩
  /-- An inline store, with no store task running. -/
  | stored (v : View Y) (ok : Bool) (hdirty : v.content.dirty = true)
    (hstoring : v.content.storing = false) :
    Move v ⟨if ok then v.content.clean else v.content,
      v.history ++ [.snapshot (Y.encodeState v.content.doc),
        .stored (Y.encodeState v.content.doc) ok]⟩
  /-- The `before_unload_document` loop runs; the actor leaves the registry. -/
  | unloading (v : View Y) : Move v ⟨v.content, v.history ++ [.beforeUnload]⟩
  | unloaded (v : View Y) : Move v ⟨v.content, v.history ++ [.unloaded]⟩

abbrev Moves : View Y → View Y → Prop := Relation.ReflTransGen Move

/-- `w'` is `w` after some moves. -/
structure Acts (w w' : World Y) : Prop where
  moves : Moves w.view w'.view
  name : w'.name = w.name
  trace : w.trace <+: w'.trace

theorem Quiet.acts {w w' : World Y} (h : Quiet w w') : Acts w w' where
  moves := by rw [h.view]
  name := h.name
  trace := h.trace

theorem Acts.refl (w : World Y) : Acts w w := (Quiet.refl w).acts

theorem Acts.trans {w₁ w₂ w₃ : World Y} (h₁ : Acts w₁ w₂) (h₂ : Acts w₂ w₃) : Acts w₁ w₃ :=
  ⟨h₁.moves.trans h₂.moves, h₂.name.trans h₁.name, h₁.trace.trans h₂.trace⟩

/-- A move whose outcome the world shows, part by part. -/
theorem Acts.of_move {w w' : World Y} {c : Content Y} {h : List (Event Y)}
    (hm : Move w.view ⟨c, h⟩) (hc : w'.toContent = c) (hh : w'.history = h)
    (hname : w'.name = w.name) (htrace : w.trace <+: w'.trace) : Acts w w' where
  moves := by
    have hview : w'.view = ⟨c, h⟩ := by rw [World.view, hc, hh]
    rw [hview]
    exact .single hm
  name := hname
  trace := htrace

/-- The end of a batch: what `flush_broadcast` does to the content. -/
def View.flush (v : View Y) : View Y :=
  ⟨{ v.content with
    broadcastPending := false
    broadcastBase := if v.content.broadcastPending then none else v.content.broadcastBase },
    v.history⟩

/-- `w'` is `w` after a flush. -/
structure Flushes (w w' : World Y) : Prop where
  view : w'.view = w.view.flush
  name : w'.name = w.name
  trace : w.trace <+: w'.trace

theorem Flushes.then_quiet {w₁ w₂ w₃ : World Y} (h₁ : Flushes w₁ w₂) (h₂ : Quiet w₂ w₃) :
    Flushes w₁ w₃ :=
  ⟨h₂.view.trans h₁.view, h₂.name.trans h₁.name, h₁.trace.trans h₂.trace⟩

namespace World

/-- A content event is appended to the history. -/
theorem history_emit (w : World Y) {e : Event Y} (he : e.isContent = true) :
    (w.emit e).history = w.history ++ [e] := by
  show (w.trace ++ [e]).filter Event.isContent = _
  rw [List.filter_append, List.filter_cons_of_pos he]
  rfl

theorem trace_emit (w : World Y) (e : Event Y) : w.trace <+: (w.emit e).trace :=
  List.prefix_append _ _

/-- A change that encodes to nothing is not noted. -/
theorem noteChange_empty (o : Ambient) (w : World Y) (baseBefore : Option Y.StateVector)
    {computed : Bytes} (origin : Origin) (h : computed = []) :
    w.noteChange o baseBefore computed origin = w := by
  rw [h]
  rfl

/-- A change that encodes to something, as one world. -/
theorem noteChange_cons (o : Ambient) (w : World Y) (baseBefore : Option Y.StateVector)
    {computed : Bytes} (origin : Origin) (h : computed ≠ []) :
    w.noteChange o baseBefore computed origin =
      (({ w with
        broadcastBase :=
          match baseBefore with
          | some base => some base
          | none => w.broadcastBase
        broadcastPending := true } : World Y).markDirty o.now origin).emit
          (.onChange computed origin w.connections.size) := by
  unfold noteChange
  exact if_neg (by simpa using h)

/-- The base a change is queued with: the batch's own, or the one captured
before it. -/
theorem base_match (c : Content Y) :
    (match (if c.broadcastBase.isNone then some (Y.stateVector c.doc) else none) with
      | some base => some base
      | none => c.broadcastBase) = some c.base := by
  unfold Content.base
  cases c.broadcastBase <;> rfl

/-- The one place that changes the document: an update that does not decode is no
move, one that changes nothing is absorbed, and any other one is noted. -/
theorem applyAndBroadcast_acts (o : Ambient) (w : World Y) (update : Bytes) (origin : Origin) :
    Acts w (w.applyAndBroadcast o update origin) := by
  unfold applyAndBroadcast
  dsimp only
  split
  next => exact Acts.refl w
  next u hdec =>
    cases hok : (Y.applyUpdate w.doc u).2 with
    | false => exact .of_move (Move.failed w.view u hok) rfl rfl rfl (List.prefix_refl _)
    | true =>
      rw [if_neg (by simp)]
      by_cases hcomp : Y.encodeTxn w.doc u = []
      · rw [noteChange_empty _ _ _ _ hcomp]
        exact .of_move (Move.absorbed w.view update u origin hdec hok hcomp) rfl
          (history_emit _ rfl) rfl (trace_emit _ _)
      · rw [noteChange_cons _ _ _ _ hcomp]
        refine .of_move
          (Move.changed w.view update u origin o.now w.connections.size hdec hok hcomp) ?_ ?_ rfl
          ((trace_emit w _).trans (trace_emit _ _))
        · exact congrArg (fun base => Content.markDirty
            { w.toContent with
              doc := (Y.applyUpdate w.doc u).1
              broadcastBase := base
              broadcastPending := true } o.now origin) (base_match w.toContent)
        · rw [history_emit _ rfl]
          exact (congrArg (· ++ _) (history_emit w rfl)).trans (List.append_assoc _ _ _)

/-- Asking the hooks is a move, since what they are asked about is content. -/
theorem beforeHandleMessage_acts (o : Ambient) (w : World Y) (connId : Nat) (update : Bytes)
    (origin : Origin) : Acts w (w.beforeHandleMessage o connId update origin).1 := by
  have hcheck : Acts w (w.emit (.beforeHandleMessage update origin w.connections.size)) :=
    .of_move (Move.checked w.view update origin w.connections.size) rfl (history_emit _ rfl) rfl
      (trace_emit _ _)
  unfold beforeHandleMessage
  dsimp only
  split
  · exact hcheck
  · exact hcheck.trans (rejectMessage_quiet _ _ _).acts

/-- Requests are quiet; an update of a writable connection is asked about and applied. -/
theorem handleSync_acts (o : Ambient) (w : World Y) (conn : ConnHandle) (address : String)
    (origin : Origin) (frame : IncomingFrame) :
    Acts w (w.handleSync o conn address origin frame) := by
  -- both update messages take the same way
  have hupdate : ∀ update : Bytes, Acts w
      (if conn.readOnly then w.sendSyncStatus conn.connId address false
        else
          let checked := w.beforeHandleMessage o conn.connId update origin
          if checked.2 then
            (checked.1.applyAndBroadcast o update origin).sendSyncStatus conn.connId address true
          else checked.1) := by
    intro update
    split
    · exact (w.sendSyncStatus_quiet _ _ _).acts
    · have hchecked := beforeHandleMessage_acts o w conn.connId update origin
      dsimp only
      split
      · exact (hchecked.trans (applyAndBroadcast_acts o _ update origin)).trans
          (sendSyncStatus_quiet _ _ _ _).acts
      · exact hchecked
  unfold handleSync
  split
  next => exact Acts.refl w
  next => exact ((w.sendFrame_quiet _ _).trans (sendFrame_quiet _ _ _)).acts
  next update _ => exact hupdate update
  next update _ => exact hupdate update

/-- Of all message types only the sync ones move anything. -/
theorem handleClientFrame_acts (o : Ambient) (w : World Y) (connId : Nat) (data : Bytes) :
    Acts w (w.handleClientFrame o connId data) := by
  unfold handleClientFrame
  split
  next => exact Acts.refl w
  next conn _ =>
    split
    next => exact Acts.refl w
    next frame _ =>
      dsimp only
      split
      · exact w.handleSync_acts o conn _ _ frame
      · exact w.handleSync_acts o conn _ _ frame
      · exact (w.handleAwareness_quiet frame _).acts
      · exact (w.replyQueryAwareness_quiet _ _).acts
      · exact (w.handleStateless_quiet conn frame).acts
      · exact (w.closeConnection_quiet connId _).acts
      · exact Acts.refl w
      · exact (w.closeConnection_quiet connId _).acts
      all_goals exact Acts.refl w

/-- A frame of another node is applied without asking. -/
theorem handleExternalFrame_acts (o : Ambient) (w : World Y) (data : Bytes) (reply : Bool) :
    Acts w (w.handleExternalFrame o data reply) := by
  have hsync : ∀ frame : IncomingFrame, Acts w (w.handleExternalSync o frame .redis reply) := by
    intro frame
    unfold handleExternalSync
    split
    · exact Acts.refl w
    · split
      · exact (emit_quiet _ rfl).acts
      · exact Acts.refl w
    · exact w.applyAndBroadcast_acts o _ _
    · exact w.applyAndBroadcast_acts o _ _
  unfold handleExternalFrame
  split
  next => exact Acts.refl w
  next frame _ =>
    dsimp only
    split
    · exact hsync frame
    · exact hsync frame
    · exact (w.handleAwareness_quiet frame _).acts
    · split
      · split
        · exact (emit_quiet _ rfl).acts
        · exact Acts.refl w
      · exact Acts.refl w
    · split
      · exact (w.broadcastWith_quiet _).acts
      · exact Acts.refl w
    · exact Acts.refl w

/-- The flush gives up the batch's base, whether or not it finds something to send. -/
theorem flushBroadcast_flushes (w : World Y) : Flushes w w.flushBroadcast := by
  unfold flushBroadcast
  cases hpending : w.broadcastPending with
  | false =>
    have hview : w.view = w.view.flush := by
      rw [View.flush, if_neg (by rw [view, hpending]; exact Bool.false_ne_true), ← hpending]
      rfl
    exact ⟨hview, rfl, List.prefix_refl _⟩
  | true =>
    have hflush : Flushes w ({ w with broadcastPending := false, broadcastBase := none } : World Y) :=
      ⟨by rw [View.flush, if_pos (show w.view.content.broadcastPending = true from hpending)]; rfl,
        rfl, List.prefix_refl _⟩
    rw [Bool.not_true, if_neg Bool.false_ne_true]
    dsimp only
    split
    · exact hflush
    · split
      · exact hflush
      · exact hflush.then_quiet (broadcastWith_quiet _ _)

/-- An inline store takes the state and waits for the hooks: one move. -/
theorem runStore_acts (results : List HookResult) (w : World Y) (hstoring : w.storing = false) :
    Acts w (w.runStore results) := by
  unfold runStore
  split
  next => exact Acts.refl w
  next hd =>
    have hdirty : w.dirty = true := by simpa using hd
    have hmove := Move.stored w.view (firstError results).isNone hdirty hstoring
    have hhistory : ∀ e₁ e₂ : Event Y, e₁.isContent = true → e₂.isContent = true →
        ((w.emit e₁).emit e₂).history = w.history ++ [e₁, e₂] := by
      intro e₁ e₂ h₁ h₂
      rw [history_emit _ h₂, history_emit _ h₁, List.append_assoc]
      rfl
    dsimp only
    cases hok : (firstError results).isNone with
    | true =>
      rw [hok] at hmove
      exact .of_move hmove rfl (hhistory _ _ rfl rfl) rfl ((trace_emit w _).trans (trace_emit _ _))
    | false =>
      rw [hok] at hmove
      exact .of_move hmove rfl (hhistory _ _ rfl rfl) rfl ((trace_emit w _).trans (trace_emit _ _))

/-- A spawned one is three: it begins, ... -/
theorem spawnStore_acts (w : World Y) : Acts w w.spawnStore := by
  unfold spawnStore
  split
  next => exact Acts.refl w
  next h =>
    simp only [Bool.or_eq_true, Bool.not_eq_true', not_or, Bool.not_eq_false,
      Bool.not_eq_true] at h
    exact .of_move (Move.spawned w.view h.1 h.2) rfl (history_emit _ rfl) rfl (trace_emit _ _)

/-- ... its task is done, ... -/
theorem finishStore_acts (w : World Y) (i : Nat) (results : List HookResult) :
    Acts w (w.finishStore i results) := by
  unfold finishStore
  split
  next => exact Acts.refl w
  next state htask =>
    exact .of_move (Move.finished w.view i state (firstError results).isNone htask) rfl
      (history_emit _ rfl) rfl (trace_emit _ _)

/-- ... and the actor hears of it. -/
theorem takeResult_acts (o : Ambient) (w : World Y) {ok : Bool} {rest : List Bool}
    (h : w.storeResults = ok :: rest) : Acts w (w.takeResult o ok rest) := by
  have hmove := Move.reported w.view ok rest o.now h
  unfold takeResult
  cases ok <;> exact .of_move hmove rfl rfl rfl (List.prefix_refl _)

/-- The store `maybe_unload` makes when it finds unsaved changes. -/
def storeIfDirty (results : List HookResult) (w : World Y) : World Y :=
  if w.dirty then w.runStore results else w

theorem storeIfDirty_acts (results : List HookResult) (w : World Y)
    (hstoring : w.storing = false) : Acts w (w.storeIfDirty results) := by
  unfold storeIfDirty
  split
  · exact w.runStore_acts results hstoring
  · exact Acts.refl w

theorem runStore_connections (results : List HookResult) (w : World Y) :
    (w.runStore results).connections = w.connections := by
  unfold runStore
  split
  · rfl
  · dsimp only
    split <;> rfl

/-- `maybe_unload` stores what is unsaved and asks the hooks, unless something
keeps the document; the actor leaves the registry exactly when they all
agree. -/
theorem maybeUnload_eq (cfg : Configuration) (o : Ambient) (w : World Y) :
    w.maybeUnload cfg o =
      if w.connections.isEmpty = true ∧ w.storing = false ∧
          (w.dirty = true → cfg.unloadImmediately = true) then
        if (firstError o.beforeUnload).isSome then
          ((w.storeIfDirty o.onStoreUnload).emit .beforeUnload, false)
        else (((w.storeIfDirty o.onStoreUnload).emit .beforeUnload).emit .unloaded, true)
      else (w, false) := by
  unfold maybeUnload
  split
  next hc => rw [if_neg fun h => by rw [h.1] at hc; cases hc]
  next hc =>
    split
    next hs => rw [if_neg fun h => by rw [h.2.1] at hs; cases hs]
    next hs =>
      split
      next hu =>
        obtain ⟨himm, hdirty⟩ := Bool.and_eq_true_iff.mp hu
        rw [if_neg fun h => by rw [h.2.2 hdirty] at himm; cases himm]
      next hu =>
        have hconns : w.connections.isEmpty = true := by simpa using hc
        have hstill : (w.storeIfDirty o.onStoreUnload).connections = w.connections := by
          unfold storeIfDirty
          split
          · exact runStore_connections _ w
          · rfl
        have hunload : w.dirty = true → cfg.unloadImmediately = true := by
          intro hd
          rw [hd] at hu
          simpa using hu
        refine Eq.trans ?_ (if_pos ⟨hconns, by simpa using hs, hunload⟩).symm
        show (if !(w.storeIfDirty o.onStoreUnload).connections.isEmpty then _ else _) = _
        rw [hstill, hconns]
        rfl

/-- The same by cases: it stays without asking, or it stores and asks. -/
theorem maybeUnload_cases (cfg : Configuration) (o : Ambient) (w : World Y) :
    w.maybeUnload cfg o = (w, false) ∨
    (w.connections.isEmpty = true ∧ w.storing = false ∧
      (w.dirty = true → cfg.unloadImmediately = true) ∧
      w.maybeUnload cfg o =
        if (firstError o.beforeUnload).isSome then
          ((w.storeIfDirty o.onStoreUnload).emit .beforeUnload, false)
        else (((w.storeIfDirty o.onStoreUnload).emit .beforeUnload).emit .unloaded, true)) := by
  rw [maybeUnload_eq]
  split
  next h => exact Or.inr ⟨h.1, h.2.1, h.2.2, rfl⟩
  next => exact Or.inl rfl

/-- What an unload does to the content, in the order of the source. -/
theorem maybeUnload_acts (cfg : Configuration) (o : Ambient) (w : World Y) :
    Acts w (w.maybeUnload cfg o).1 := by
  rcases w.maybeUnload_cases cfg o with hstay | ⟨_, hstoring, _, heq⟩
  · rw [hstay]
    exact Acts.refl w
  · have hasked : Acts w ((w.storeIfDirty o.onStoreUnload).emit .beforeUnload) :=
      (w.storeIfDirty_acts o.onStoreUnload hstoring).trans
        (.of_move (Move.unloading _) rfl (history_emit _ rfl) rfl (trace_emit _ _))
    rw [heq]
    split
    · exact hasked
    · exact hasked.trans
        (.of_move (Move.unloaded _) rfl (history_emit _ rfl) rfl (trace_emit _ _))

/-- A deadline with nobody connected stores inline and unloads, otherwise it spawns. -/
theorem tick_acts (cfg : Configuration) (o : Ambient) (w : World Y) (hstoring : w.storing = false) :
    Acts w (w.tick cfg o).1 := by
  unfold tick
  split
  · exact (w.runStore_acts o.onStore hstoring).trans (maybeUnload_acts cfg o _)
  · exact w.spawnStore_acts

/-- **A command** is a sequence of moves. -/
theorem handleCommand_acts (cfg : Configuration) (o : Ambient) (w : World Y) (cmd : DocCommand) :
    Acts w (w.handleCommand cfg o cmd).1 := by
  cases cmd with
  | addConnection handle ack =>
    exact ((w.addConnection_quiet _ _).trans (emit_quiet _ rfl)).acts
  | clientFrame connId data => exact w.handleClientFrame_acts o connId data
  | removeConnection connId =>
    exact (w.removeConnection_quiet connId).acts.trans (maybeUnload_acts cfg o _)
  | externalFrame data reply => exact w.handleExternalFrame_acts o data reply
  | directApply update ack =>
    exact (w.applyAndBroadcast_acts o update .local).trans (emit_quiet _ rfl).acts

end World

/-- The deadline is only armed while the document is dirty and not storing. -/
theorem World.storeDeadline_some {cfg : Configuration} {w : World Y} {d : Nat}
    (h : w.storeDeadline cfg = some d) : w.dirty = true ∧ w.storing = false := by
  unfold storeDeadline at h
  split at h
  next => cases h
  next hc =>
    simp only [Bool.or_eq_true, Bool.not_eq_true', not_or, Bool.not_eq_false,
      Bool.not_eq_true] at hc
    exact hc

/-! ## One step, and runs -/

/-- The world and the phase after a label, branch by branch. -/
inductive Actor.StepCases (cfg : Configuration) (a : Actor Y) : Label → Actor Y → Prop
  | command (cmd : DocCommand) (o : Ambient) (n : Nat) (hphase : a.phase.next = some n) :
    StepCases cfg a (.command cmd o)
      ⟨((a.world.withSched o.sched).handleCommand cfg o cmd).1,
        Phase.after ((a.world.withSched o.sched).handleCommand cfg o cmd).2 (.batch n) .exiting⟩
  | flush (sched : List (List QueueAct)) (phase : Phase)
    (hphase : (∃ n, a.phase = .batch n) ∧ phase = .select ∨
      a.phase = .exiting ∧ phase = .stopped) :
    StepCases cfg a (.flush sched) ⟨(a.world.withSched sched).flushBroadcast, phase⟩
  | storeResult (o : Ambient) (ok : Bool) (rest : List Bool) (hphase : a.phase = .select)
    (hresults : a.world.storeResults = ok :: rest) :
    StepCases cfg a (.storeResult o)
      ⟨(((a.world.withSched o.sched).takeResult o ok rest).maybeUnload cfg o).1,
        Phase.after (((a.world.withSched o.sched).takeResult o ok rest).maybeUnload cfg o).2
          .select .stopped⟩
  | deadline (o : Ambient) (hphase : a.phase = .select) (hdirty : a.world.dirty = true)
    (hstoring : a.world.storing = false) :
    StepCases cfg a (.deadline o)
      ⟨((a.world.withSched o.sched).tick cfg o).1,
        Phase.after ((a.world.withSched o.sched).tick cfg o).2 .select .stopped⟩
  | mailboxClosed (hphase : a.phase = .select) :
    StepCases cfg a .mailboxClosed { a with phase := .stopped }
  | storeTask (i : Nat) (results : List HookResult) (hi : i < a.world.storeTasks.length) :
    StepCases cfg a (.storeTask i results) { a with world := a.world.finishStore i results }
  | queues (acts : List QueueAct) :
    StepCases cfg a (.queues acts)
      { a with world := { a.world with queues := runQueueActs a.world.queues acts } }

/-- Inversion of `step`: every proof about a step starts here. -/
theorem Actor.step_cases {cfg : Configuration} {a b : Actor Y} {l : Label}
    (h : a.step cfg l = some b) : Actor.StepCases cfg a l b := by
  cases l with
  | command cmd o =>
    simp only [Actor.step] at h
    split at h
    · cases h
    next n hn =>
      cases h
      exact .command cmd o n hn
  | flush sched =>
    simp only [Actor.step] at h
    split at h
    next n hn =>
      cases h
      exact .flush sched _ (Or.inl ⟨⟨n, hn⟩, rfl⟩)
    next hn =>
      cases h
      exact .flush sched _ (Or.inr ⟨hn, rfl⟩)
    · cases h
  | storeResult o =>
    simp only [Actor.step] at h
    split at h
    next ok rest hphase hres =>
      cases h
      exact .storeResult o ok rest hphase hres
    next => cases h
  | deadline o =>
    simp only [Actor.step] at h
    split at h
    next d hphase hd =>
      split at h
      · cases h
        obtain ⟨hdirty, hstoring⟩ := World.storeDeadline_some hd
        exact .deadline o hphase hdirty hstoring
      · cases h
    next => cases h
  | mailboxClosed =>
    simp only [Actor.step] at h
    split at h
    next hphase =>
      cases h
      exact .mailboxClosed hphase
    · cases h
  | storeTask i results =>
    simp only [Actor.step] at h
    split at h
    next hi =>
      cases h
      exact .storeTask i results hi
    · cases h
  | queues acts =>
    cases h
    exact .queues acts

/-- The label ends a batch. -/
def Label.isFlush : Label → Bool
  | .flush _ => true
  | _ => false

/-- **One step of the loop, seen from the content**: a flush, or a sequence
of moves. -/
theorem Actor.step_acts {cfg : Configuration} {a b : Actor Y} {l : Label}
    (h : a.step cfg l = some b) (hl : l.isFlush = false) : Acts a.world b.world := by
  cases Actor.step_cases h with
  | command cmd o n hphase =>
    exact (a.world.withSched_quiet o.sched).acts.trans (World.handleCommand_acts cfg o _ cmd)
  | flush sched phase hphase => cases hl
  | storeResult o ok rest hphase hresults =>
    exact ((a.world.withSched_quiet o.sched).acts.trans
      (World.takeResult_acts o (a.world.withSched o.sched) hresults)).trans
        (World.maybeUnload_acts cfg o _)
  | deadline o hphase hdirty hstoring =>
    exact (a.world.withSched_quiet o.sched).acts.trans
      (World.tick_acts cfg o (a.world.withSched o.sched) hstoring)
  | mailboxClosed hphase => exact Acts.refl _
  | storeTask i results hi => exact World.finishStore_acts _ i results
  | queues acts => exact ⟨.refl, rfl, List.prefix_refl _⟩

/-- The other labels are moves; this one is the flush. -/
theorem Actor.step_flushes {cfg : Configuration} {a b : Actor Y} {sched : List (List QueueAct)}
    (h : a.step cfg (.flush sched) = some b) : Flushes a.world b.world := by
  cases Actor.step_cases h with
  | flush _ phase hphase =>
    obtain ⟨hview, hname, htrace⟩ := World.flushBroadcast_flushes (a.world.withSched sched)
    exact ⟨hview, hname, htrace⟩

/-- An invariant checked move by move. -/
theorem Moves.preserve {P : View Y → Prop} (hmove : ∀ v v', Move v v' → P v → P v')
    {v v' : View Y} (h : Moves v v') (hv : P v) : P v' := by
  induction h with
  | refl => exact hv
  | tail _ hm ih => exact hmove _ _ hm ih

/-- What moves and flushes preserve, a step preserves. -/
theorem Actor.step_preserve {cfg : Configuration} {P : View Y → Prop}
    (hmove : ∀ v v', Move v v' → P v → P v') (hflush : ∀ v, P v → P v.flush) {a b : Actor Y}
    {l : Label} (hstep : a.step cfg l = some b) (ha : P a.world.view) : P b.world.view := by
  cases hl : l.isFlush with
  | true =>
    cases l with
    | flush sched => exact (Actor.step_flushes hstep).view ▸ hflush _ ha
    | _ => cases hl
  | false => exact Moves.preserve hmove (Actor.step_acts hstep hl).moves ha

/-- ... and so does every run. -/
theorem Actor.run_invariant {cfg : Configuration} {P : View Y → Prop}
    (hmove : ∀ v v', Move v v' → P v → P v') (hflush : ∀ v, P v → P v.flush) {a b : Actor Y}
    {ls : List Label} (hrun : Actor.Run cfg a ls b) (ha : P a.world.view) : P b.world.view :=
  Lts.exec_invariant (I := fun c : Actor Y => P c.world.view)
    (fun _ _ _ hstep hs => Actor.step_preserve hmove hflush hstep hs) hrun ha

/-- The record only grows ... -/
theorem Actor.step_trace {cfg : Configuration} {a b : Actor Y} {l : Label}
    (hstep : a.step cfg l = some b) : a.world.trace <+: b.world.trace := by
  cases hl : l.isFlush with
  | true =>
    cases l with
    | flush sched => exact (Actor.step_flushes hstep).trace
    | _ => cases hl
  | false => exact (Actor.step_acts hstep hl).trace

/-- ... and the name stays. -/
theorem Actor.step_name {cfg : Configuration} {a b : Actor Y} {l : Label}
    (hstep : a.step cfg l = some b) : b.world.name = a.world.name := by
  cases hl : l.isFlush with
  | true =>
    cases l with
    | flush sched => exact (Actor.step_flushes hstep).name
    | _ => cases hl
  | false => exact (Actor.step_acts hstep hl).name

end Hocuspocus
