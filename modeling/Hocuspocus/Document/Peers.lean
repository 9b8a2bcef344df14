import Hocuspocus.Document.Coalesce
import Hocuspocus.Document.Presence

/-!
# What a step tells other nodes

Three kinds of events leave the node: a change of the document, an
announcement of presence, and the answer to a peer's question. A step of the
actor causes at most one of them, and does not touch the document unless it
applies an update. `Deed` names what the step is about in this sense,
`Actor.deed` reads it off the label, and `Actor.step_deed` is the normal form:
mute, the deed, mute.

A part of a step is `Mute` if other nodes hear nothing of it and the document stays
as it is. Most handlers are: whatever goes to the clients of this node is, also a
broadcast and the departures it causes, since presence that is withdrawn is not
announced to the peers; and so are the stores. The deed of a frame is found by its
message type, and that of a sync message by what it says and by whether the
connection may write and the hooks agree (`World.syncDeed`).

The last section says for each deed what becomes of the document and what is said
(`Actor.step_nothing`, `step_change`, `step_present`, `step_answer`). These four are
all that the cluster needs to know of an actor.
-/

namespace Hocuspocus

variable {Y : Yrs}

/-- Other nodes hear of it. -/
def Event.isPublic : Event Y → Bool
  | .onChange .. | .onAwarenessUpdate .. | .reply _ => true
  | _ => false

/-- The public events of a step or a run. -/
def Actor.publics (a b : Actor Y) : List (Event Y) := (a.sent b).filter Event.isPublic

/-- Nothing public is said, and the document stays as it is. -/
structure Mute (w w' : World Y) : Prop where
  trace : ∃ k, w'.trace = w.trace ++ k ∧ ∀ e ∈ k, e.isPublic = false
  doc : w'.doc = w.doc

/-- Nothing is written and the document is the same. -/
theorem Mute.of_eq {w w' : World Y} (htrace : w'.trace = w.trace) (hdoc : w'.doc = w.doc) :
    Mute w w' :=
  ⟨⟨[], by rw [htrace, List.append_nil], fun _ he => absurd he List.not_mem_nil⟩, hdoc⟩

theorem Mute.refl (w : World Y) : Mute w w := Mute.of_eq rfl rfl

/-- Mute parts follow one another. -/
theorem Mute.trans {w₁ w₂ w₃ : World Y} (h₁ : Mute w₁ w₂) (h₂ : Mute w₂ w₃) : Mute w₁ w₃ := by
  obtain ⟨k₁, htrace₁, hk₁⟩ := h₁.trace
  obtain ⟨k₂, htrace₂, hk₂⟩ := h₂.trace
  refine ⟨⟨k₁ ++ k₂, by rw [htrace₂, htrace₁, List.append_assoc], ?_⟩, h₂.doc.trans h₁.doc⟩
  exact fun e he => (List.mem_append.mp he).elim (hk₁ e) (hk₂ e)

namespace World

/-! ## Mute methods -/

/-- Only the public events are heard elsewhere. -/
theorem emit_mute (w : World Y) {e : Event Y} (he : e.isPublic = false) : Mute w (w.emit e) :=
  ⟨⟨[e], rfl, fun _ hmem => List.mem_singleton.mp hmem ▸ he⟩, rfl⟩

/-- What happens to the queues is nothing to another node. -/
theorem poll_mute (w : World Y) : Mute w w.poll := by
  unfold poll
  split
  · exact Mute.refl w
  · exact Mute.of_eq rfl rfl

theorem trySend_mute (w : World Y) (q : Nat) (m : OutMsg) : Mute w (w.trySend q m).1 :=
  w.poll_mute.trans (Mute.of_eq rfl rfl)

/-- Frames and closes go to the clients of this node. -/
theorem sendFrame_mute (w : World Y) (conn : ConnHandle) (frame : Bytes) :
    Mute w (w.sendFrame conn frame).1 := (w.trySend_mute _ _).trans (emit_mute _ rfl)

theorem sendClose_mute (w : World Y) (conn : ConnHandle) (event : CloseEvent) :
    Mute w (w.sendClose conn event) := (w.trySend_mute _ _).trans (emit_mute _ rfl)

/-- So does a broadcast, also where it evicts: the presence of the evicted is
withdrawn from the table, but not announced. -/
theorem broadcastWith_mute (w : World Y) (build : String → Bytes) :
    Mute w (w.broadcastWith build) := by
  obtain ⟨rs, k, _, htrace, hclose, _⟩ := w.broadcastWith_spec build
  refine ⟨⟨_, htrace, fun e he => ?_⟩, ?_⟩
  · rcases List.mem_append.mp he with h | h
    · obtain ⟨r, _, rfl⟩ := List.mem_map.mp h
      rfl
    · cases e with
      | close => rfl
      | _ => cases hclose _ h
  · exact congrArg (fun v : View Y => v.content.doc) (w.broadcastWith_quiet build).view

/-- A join is answered to the joining client alone. -/
theorem addConnection_mute (w : World Y) (order : Reorder ConnHandle) (handle : ConnHandle) :
    Mute w (w.addConnection order handle) := by
  have hadded : ∀ g : World Y, Mute g (({ g with
      connections := g.connections.insert order handle } : World Y).emit (.added handle)) := by
    intro g
    have hset : Mute g { g with connections := g.connections.insert order handle } :=
      Mute.of_eq rfl rfl
    exact hset.trans (emit_mute _ rfl)
  unfold addConnection
  dsimp only
  split
  · split
    · exact (w.sendFrame_mute _ _).trans (hadded _)
    · exact hadded w
  · exact hadded w

/-- Nor does another node hear of a departure: the withdrawal of presence is broadcast
here, and no `on_awareness_update` is called for it. -/
theorem removeConnection_mute (w : World Y) (connId : Nat) : Mute w (w.removeConnection connId) := by
  cases w.removeConnection_cases connId with
  | absent hconn hcall hrun =>
    rw [hrun]
    exact Mute.refl w
  | silent handle hconn hwhy hcall hrun =>
    rw [hrun]
    have hleft : Mute w (w.detach connId handle) := Mute.of_eq rfl rfl
    exact hleft.trans (emit_mute _ rfl)
  | told handle hconn update hupdate hcall hrun =>
    rw [hrun]
    have hleft : Mute w (w.detach connId handle) := Mute.of_eq rfl rfl
    exact (hleft.trans (broadcastWith_mute _ _)).trans (emit_mute _ rfl)

theorem rejectMessage_mute (w : World Y) (connId : Nat) (e : HookError) :
    Mute w (w.rejectMessage connId e) := by
  unfold rejectMessage
  split
  · exact w.sendClose_mute _ _
  · exact Mute.refl w

/-- The hooks that are asked before an update say nothing to other nodes, and a
rejection is between the server and its client. -/
theorem beforeHandleMessage_mute (o : Ambient) (w : World Y) (connId : Nat) (update : Bytes)
    (origin : Origin) : Mute w (w.beforeHandleMessage o connId update origin).1 := by
  unfold beforeHandleMessage
  dsimp only
  split
  · exact emit_mute w rfl
  · exact (emit_mute w rfl).trans (rejectMessage_mute _ _ _)

theorem sendSyncStatus_mute (w : World Y) (connId : Nat) (address : String) (saved : Bool) :
    Mute w (w.sendSyncStatus connId address saved) := by
  unfold sendSyncStatus
  split
  · exact w.sendFrame_mute _ _
  · exact Mute.refl w

theorem replyQueryAwareness_mute (w : World Y) (address : String) (connId : Nat) :
    Mute w (w.replyQueryAwareness address connId) := by
  unfold replyQueryAwareness
  split
  · exact Mute.refl w
  · split
    · exact Mute.refl w
    · exact w.sendFrame_mute _ _

/-- A stateless message is for the hooks. -/
theorem handleStateless_mute (w : World Y) (conn : ConnHandle) (frame : IncomingFrame) :
    Mute w (w.handleStateless conn frame) := by
  unfold handleStateless
  split
  · exact Mute.refl w
  · exact emit_mute w rfl

theorem closeConnection_mute (w : World Y) (connId : Nat) (event : CloseEvent) :
    Mute w (w.closeConnection connId event) := by
  unfold closeConnection
  refine Mute.trans ?_ (removeConnection_mute _ _)
  split
  · exact w.sendClose_mute _ _
  · exact Mute.refl w

/-- The merged update goes to the clients; the peers have been told of each update by
`on_change`. -/
theorem flushBroadcast_mute (w : World Y) : Mute w w.flushBroadcast := by
  have hreset : Mute w { w with broadcastPending := false, broadcastBase := none } :=
    Mute.of_eq rfl rfl
  unfold flushBroadcast
  split
  · exact Mute.refl w
  · dsimp only
    split
    · exact hreset
    · split
      · exact hreset
      · exact hreset.trans (broadcastWith_mute _ _)

/-- Stores leave the document as it is ... -/
theorem runStore_mute (results : List HookResult) (w : World Y) : Mute w (w.runStore results) := by
  unfold runStore
  split
  · exact Mute.refl w
  · have hstored : ∀ state ok, Mute w ((w.emit (.snapshot state)).emit (.stored state ok)) :=
      fun _ _ => (emit_mute w rfl).trans (emit_mute _ rfl)
    dsimp only
    split
    · exact (hstored _ _).trans (Mute.of_eq rfl rfl)
    · exact hstored _ _

/-- ... the ones on a task of their own too ... -/
theorem spawnStore_mute (w : World Y) : Mute w w.spawnStore := by
  unfold spawnStore
  split
  · exact Mute.refl w
  · refine Mute.trans ?_ (emit_mute _ rfl)
    exact Mute.of_eq rfl rfl

/-- ... also when they report ... -/
theorem finishStore_mute (w : World Y) (i : Nat) (results : List HookResult) :
    Mute w (w.finishStore i results) := by
  unfold finishStore
  split
  · exact Mute.refl w
  · exact (emit_mute w rfl).trans (Mute.of_eq rfl rfl)

/-- ... and when the report is taken. -/
theorem takeResult_mute (o : Ambient) (w : World Y) (ok : Bool) (rest : List Bool) :
    Mute w (w.takeResult o ok rest) := by
  unfold takeResult
  cases ok <;> exact Mute.of_eq rfl rfl

/-- An unload is not announced. -/
theorem maybeUnload_mute (cfg : Configuration) (o : Ambient) (w : World Y) :
    Mute w (w.maybeUnload cfg o).1 := by
  rcases w.maybeUnload_cases cfg o with hstay | ⟨_, _, _, heq⟩
  · rw [hstay]
    exact Mute.refl w
  · have hstore : Mute w (w.storeIfDirty o.onStoreUnload) := by
      unfold storeIfDirty
      split
      · exact runStore_mute _ w
      · exact Mute.refl w
    have hasked := hstore.trans (emit_mute _ (e := .beforeUnload) rfl)
    rw [heq]
    split
    · exact hasked
    · exact hasked.trans (emit_mute _ rfl)

/-- A timer only stores. -/
theorem tick_mute (cfg : Configuration) (o : Ambient) (w : World Y) : Mute w (w.tick cfg o).1 := by
  unfold tick
  split
  · exact (w.runStore_mute _).trans (maybeUnload_mute cfg o _)
  · exact w.spawnStore_mute

end World

/-! ## Deeds -/

/-- The one thing a step does that can be public. -/
inductive Deed
  | nothing
  | change (update : Bytes) (origin : Origin)
  | present (frame : IncomingFrame) (origin : Origin)
  | answer (frame : Bytes)

def Deed.run (o : Ambient) (w : World Y) : Deed → World Y
  | .nothing => w
  | .change update origin => w.applyAndBroadcast o update origin
  | .present frame origin => w.handleAwareness frame origin
  | .answer frame => w.emit (.reply frame)

namespace World

/-- A client's `Sync` message: an update is applied unless it may not be. -/
def syncDeed (Y : Yrs) (o : Ambient) (conn : ConnHandle) (frame : IncomingFrame) : Deed :=
  match Y.decodeSync frame.decoder with
  | some (.syncStep2 update) | some (.update update) =>
    if conn.readOnly || (firstError o.beforeHandleMessage).isSome then .nothing
    else .change update (.connection conn.connId)
  | _ => .nothing

def frameDeed (o : Ambient) (w : World Y) (connId : Nat) (data : Bytes) : Deed :=
  match w.connections.get? connId with
  | none => .nothing
  | some conn =>
    match IncomingFrame.parse Y data with
    | none => .nothing
    | some frame =>
      match frame.messageType with
      | .sync | .syncReply => syncDeed Y o conn frame
      | .awareness => .present frame (.connection connId)
      | _ => .nothing

/-- A peer's `Sync` message, which is answered if it is a question. -/
def externalSyncDeed (w : World Y) (frame : IncomingFrame) (reply : Bool) : Deed :=
  match Y.decodeSync frame.decoder with
  | some (.syncStep1 clientSv) =>
    if reply then .answer ((((OutgoingMessage.new Y w.name).syncReply Y).writeSyncPayload
      (Y.encodeSync (.syncStep2 (Y.encodeDiff w.doc clientSv)))).intoBytes)
    else .nothing
  | some (.syncStep2 update) | some (.update update) => .change update .redis
  | none => .nothing

def externalDeed (w : World Y) (data : Bytes) (reply : Bool) : Deed :=
  match IncomingFrame.parse Y data with
  | none => .nothing
  | some frame =>
    match frame.messageType with
    | .sync | .syncReply => w.externalSyncDeed frame reply
    | .awareness => .present frame .redis
    | .queryAwareness =>
      if reply then
        match Y.awarenessUpdate w.awareness with
        | some update => .answer (awarenessFrame Y (Y.encodeAwareness update) w.name)
        | none => .nothing
      else .nothing
    | _ => .nothing

def commandDeed (o : Ambient) (w : World Y) : DocCommand → Deed
  | .clientFrame connId data => w.frameDeed o connId data
  | .externalFrame data reply => w.externalDeed data reply
  | .directApply update _ => .change update .local
  | .addConnection _ _ | .removeConnection _ => .nothing

end World

def Actor.deed (a : Actor Y) : Label → Deed
  | .command cmd o => a.world.commandDeed o cmd
  | _ => .nothing

/-- Mute, the deed, mute. The deed finds the presence table as it was. -/
def Does (deed : Deed) (w w' : World Y) : Prop :=
  ∃ (o : Ambient) (v : World Y), Mute w v ∧ v.awareness = w.awareness ∧ Mute (deed.run o v) w'

/-- A step that is mute throughout. -/
theorem Does.nothing {w w' : World Y} (h : Mute w w') : Does .nothing w w' :=
  ⟨{}, w, Mute.refl w, rfl, h⟩

/-- Something mute may come before, if it leaves the presence table alone. -/
theorem Does.after {deed : Deed} {w₁ w₂ w₃ : World Y} (h₁ : Mute w₁ w₂)
    (hsame : w₂.awareness = w₁.awareness) (h₂ : Does deed w₂ w₃) : Does deed w₁ w₃ := by
  obtain ⟨o, v, hv, hawareness, hrest⟩ := h₂
  exact ⟨o, v, h₁.trans hv, hawareness.trans hsame, hrest⟩

namespace World

/-- A client's sync message: a question is answered to it alone, an update is applied
if the connection may write and no hook rejects it. -/
theorem handleSync_does (o : Ambient) (w : World Y) (conn : ConnHandle) (address : String)
    (frame : IncomingFrame) : Does (syncDeed Y o conn frame) w
      (w.handleSync o conn address (.connection conn.connId) frame) := by
  have hupdate : ∀ update : Bytes, Does
      (if conn.readOnly || (firstError o.beforeHandleMessage).isSome then .nothing
        else .change update (.connection conn.connId)) w
      (if conn.readOnly then w.sendSyncStatus conn.connId address false
        else
          let checked := w.beforeHandleMessage o conn.connId update (.connection conn.connId)
          if checked.2 then
            (checked.1.applyAndBroadcast o update (.connection conn.connId)).sendSyncStatus
              conn.connId address true
          else checked.1) := by
    intro update
    have hmute := w.beforeHandleMessage_mute o conn.connId update (.connection conn.connId)
    have hchecked : (w.beforeHandleMessage o conn.connId update (.connection conn.connId)).2
        = (firstError o.beforeHandleMessage).isNone := by
      unfold beforeHandleMessage
      dsimp only
      cases firstError o.beforeHandleMessage <;> rfl
    cases conn.readOnly with
    | true => exact .nothing (w.sendSyncStatus_mute _ _ _)
    | false =>
      dsimp only
      rw [hchecked]
      cases firstError o.beforeHandleMessage with
      | some e => exact .nothing hmute
      | none => exact ⟨o, _, hmute, (w.beforeHandleMessage_inert o _ update _).awareness,
          sendSyncStatus_mute _ _ _ _⟩
  unfold handleSync syncDeed
  cases Y.decodeSync frame.decoder with
  | none => exact .nothing (Mute.refl w)
  | some msg =>
    cases msg with
    | syncStep1 sv => exact .nothing ((w.sendFrame_mute conn _).trans (sendFrame_mute _ conn _))
    | syncStep2 update => exact hupdate update
    | update update => exact hupdate update

/-- A client's frame, by its type: document, presence, or nothing that is heard
elsewhere. -/
theorem handleClientFrame_does (o : Ambient) (w : World Y) (connId : Nat) (data : Bytes) :
    Does (w.frameDeed o connId data) w (w.handleClientFrame o connId data) := by
  unfold frameDeed handleClientFrame
  cases hconn : w.connections.get? connId with
  | none => exact .nothing (Mute.refl w)
  | some conn =>
    have hid : conn.connId = connId := Keyed.get?_key hconn
    cases IncomingFrame.parse Y data with
    | none => exact .nothing (Mute.refl w)
    | some frame =>
      subst hid
      dsimp only
      cases frame.messageType with
      | sync => exact w.handleSync_does o conn _ frame
      | syncReply => exact w.handleSync_does o conn _ frame
      | awareness => exact ⟨o, w, Mute.refl w, rfl, Mute.refl _⟩
      | queryAwareness => exact .nothing (w.replyQueryAwareness_mute _ _)
      | stateless => exact .nothing (w.handleStateless_mute conn frame)
      | close => exact .nothing (w.closeConnection_mute _ _)
      | broadcastStateless => exact .nothing (w.closeConnection_mute _ _)
      | auth | syncStatus | ping | pong => exact .nothing (Mute.refl w)

/-- A frame from a peer: an update, presence, or a question, which is answered if a
reply was asked for. -/
theorem handleExternalFrame_does (o : Ambient) (w : World Y) (data : Bytes) (reply : Bool) :
    Does (w.externalDeed data reply) w (w.handleExternalFrame o data reply) := by
  have hsync : ∀ frame : IncomingFrame, Does (w.externalSyncDeed frame reply) w
      (w.handleExternalSync o frame .redis reply) := by
    intro frame
    unfold externalSyncDeed handleExternalSync
    cases Y.decodeSync frame.decoder with
    | none => exact .nothing (Mute.refl w)
    | some msg =>
      cases msg with
      | syncStep1 sv =>
        cases reply with
        | true => exact ⟨o, w, Mute.refl w, rfl, Mute.refl _⟩
        | false => exact .nothing (Mute.refl w)
      | syncStep2 update => exact ⟨o, w, Mute.refl w, rfl, Mute.refl _⟩
      | update update => exact ⟨o, w, Mute.refl w, rfl, Mute.refl _⟩
  unfold externalDeed handleExternalFrame
  cases IncomingFrame.parse Y data with
  | none => exact .nothing (Mute.refl w)
  | some frame =>
    dsimp only
    cases frame.messageType with
    | sync => exact hsync frame
    | syncReply => exact hsync frame
    | awareness => exact ⟨o, w, Mute.refl w, rfl, Mute.refl _⟩
    | queryAwareness =>
      cases reply with
      | false => exact .nothing (Mute.refl w)
      | true =>
        dsimp only
        cases Y.awarenessUpdate w.awareness with
        | none => exact .nothing (Mute.refl w)
        | some update => exact ⟨o, w, Mute.refl w, rfl, Mute.refl _⟩
    | broadcastStateless =>
      refine .nothing ?_
      dsimp only
      split
      · exact w.broadcastWith_mute _
      · exact Mute.refl w
    | stateless | close | auth | syncStatus | ping | pong => exact .nothing (Mute.refl w)

/-- A command, by its kind. -/
theorem handleCommand_does (cfg : Configuration) (o : Ambient) (w : World Y) (cmd : DocCommand) :
    Does (w.commandDeed o cmd) w (w.handleCommand cfg o cmd).1 := by
  cases cmd with
  | addConnection handle ack =>
    exact .nothing ((w.addConnection_mute _ _).trans (emit_mute _ rfl))
  | clientFrame connId data => exact w.handleClientFrame_does o connId data
  | removeConnection connId =>
    exact .nothing ((w.removeConnection_mute connId).trans (maybeUnload_mute cfg o _))
  | externalFrame data reply => exact w.handleExternalFrame_does o data reply
  | directApply update ack => exact ⟨o, w, Mute.refl w, rfl, emit_mute _ rfl⟩

end World

/-- **The normal form of a step**: one deed, and nothing else that is public or
touches the document. -/
theorem Actor.step_deed {cfg : Configuration} {a b : Actor Y} {l : Label}
    (hstep : a.step cfg l = some b) : Does (a.deed l) a.world b.world := by
  have hsched : ∀ sched, Mute a.world (a.world.withSched sched) := fun _ => Mute.of_eq rfl rfl
  cases Actor.step_cases hstep with
  | command cmd o n hphase =>
    exact .after (hsched o.sched) rfl (World.handleCommand_does cfg o (a.world.withSched o.sched) cmd)
  | flush sched phase hphase =>
    exact .nothing ((hsched sched).trans (World.flushBroadcast_mute _))
  | storeResult o ok rest hphase hresults =>
    exact .nothing (((hsched o.sched).trans (World.takeResult_mute o _ ok rest)).trans
      (World.maybeUnload_mute cfg o _))
  | deadline o hphase hdirty hstoring =>
    exact .nothing ((hsched o.sched).trans (World.tick_mute cfg o _))
  | mailboxClosed hphase => exact .nothing (Mute.refl _)
  | storeTask i results hi => exact .nothing (World.finishStore_mute _ i results)
  | queues acts => exact .nothing (Mute.of_eq rfl rfl)

/-! ## What is said -/

/-- What the transaction that applies an update announces. -/
def changeEvents (doc : Y.Doc) (update : Bytes) (origin : Origin) (clients : Nat) :
    List (Event Y) :=
  match Y.decodeUpdate update with
  | none => []
  | some u =>
    if (Y.applyUpdate doc u).2 && !(Y.encodeTxn doc u).isEmpty then
      [.onChange (Y.encodeTxn doc u) origin clients]
    else []

/-- The public part of a mute extension is empty. -/
theorem filter_mute {k : List (Event Y)} (h : ∀ e ∈ k, e.isPublic = false) :
    k.filter Event.isPublic = [] :=
  List.filter_eq_nil_iff.mpr fun e he => by
    rw [h e he]
    exact Bool.false_ne_true

/-- What a deed says, and the document after it. -/
theorem Does.says {deed : Deed} {a b : Actor Y} (h : Does deed a.world b.world) :
    ∃ (o : Ambient) (v : World Y) (k : List (Event Y)), v.doc = a.world.doc ∧
      v.awareness = a.world.awareness ∧ (deed.run o v).trace = v.trace ++ k ∧
      a.publics b = k.filter Event.isPublic ∧ b.world.doc = (deed.run o v).doc := by
  obtain ⟨o, v, hbefore, hsame, hafter⟩ := h
  obtain ⟨k₁, htrace₁, hk₁⟩ := hbefore.trace
  obtain ⟨k₂, htrace₂, hk₂⟩ := hafter.trace
  obtain ⟨k, hk⟩ : ∃ k, (deed.run o v).trace = v.trace ++ k := by
    obtain ⟨k, hk⟩ : v.trace <+: (deed.run o v).trace := by
      cases deed with
      | nothing => exact List.prefix_refl _
      | change update origin => exact (v.applyAndBroadcast_acts o update origin).trace
      | present frame origin => exact (v.handleAwareness_quiet frame origin).trace
      | answer frame => exact List.prefix_append _ _
    exact ⟨k, hk.symm⟩
  refine ⟨o, v, k, hbefore.doc, hsame, hk, ?_, hafter.doc⟩
  have hsent : a.sent b = k₁ ++ k ++ k₂ := by
    refine Actor.sent_eq ?_
    rw [htrace₂, hk, htrace₁]
    simp only [List.append_assoc]
  rw [Actor.publics, hsent, List.filter_append, List.filter_append, filter_mute hk₁,
    filter_mute hk₂, List.nil_append, List.append_nil]

section

variable {cfg : Configuration} {a b : Actor Y} {l : Label} (hstep : a.step cfg l = some b)

include hstep

/-- A step that is about nothing says nothing. -/
theorem Actor.step_nothing (hdeed : a.deed l = .nothing) :
    a.publics b = [] ∧ b.world.doc = a.world.doc := by
  have hdoes := Actor.step_deed hstep
  rw [hdeed] at hdoes
  obtain ⟨o, v, k, hbefore, hsame, htrace, hpublics, hdoc⟩ := hdoes.says
  obtain rfl : k = [] := List.append_cancel_left (htrace.symm.trans (List.append_nil _).symm)
  exact ⟨hpublics, hdoc.trans hbefore⟩

/-- An update is applied, and what its transaction brought about is said. -/
theorem Actor.step_change {update : Bytes} {origin : Origin}
    (hdeed : a.deed l = .change update origin) :
    (∃ clients, a.publics b = changeEvents a.world.doc update origin clients) ∧
    b.world.doc = applyBytes a.world.doc update := by
  have hdoes := Actor.step_deed hstep
  rw [hdeed] at hdoes
  obtain ⟨o, v, k, hbefore, hsame, htrace, hpublics, hdoc⟩ := hdoes.says
  rw [hpublics, hdoc, ← hbefore]
  have hrun : (Deed.change update origin).run o v = v.applyAndBroadcast o update origin := rfl
  rw [hrun] at htrace ⊢
  unfold World.applyAndBroadcast at htrace ⊢
  unfold changeEvents applyBytes
  cases hdec : Y.decodeUpdate update with
  | none =>
    rw [hdec] at htrace
    obtain rfl : k = [] := List.append_cancel_left (htrace.symm.trans (List.append_nil _).symm)
    exact ⟨⟨0, rfl⟩, rfl⟩
  | some u =>
    rw [hdec] at htrace
    dsimp only at htrace ⊢
    cases hok : (Y.applyUpdate v.doc u).2 with
    | false =>
      rw [hok] at htrace
      obtain rfl : k = [] := List.append_cancel_left (htrace.symm.trans (List.append_nil _).symm)
      exact ⟨⟨0, rfl⟩, rfl⟩
    | true =>
      rw [hok] at htrace
      by_cases hempty : Y.encodeTxn v.doc u = []
      · rw [World.noteChange_empty _ _ _ _ hempty] at htrace ⊢
        obtain rfl : k = [.applied update origin (Y.applyUpdate v.doc u).1] :=
          (List.append_right_inj v.trace).mp htrace.symm
        refine ⟨⟨0, ?_⟩, rfl⟩
        rw [hempty]
        rfl
      · rw [World.noteChange_cons _ _ _ _ hempty] at htrace ⊢
        obtain rfl : k = [.applied update origin (Y.applyUpdate v.doc u).1,
            .onChange (Y.encodeTxn v.doc u) origin v.connections.size] := by
          refine (List.append_right_inj v.trace).mp (htrace.symm.trans ?_)
          exact List.append_assoc v.trace [_] [_]
        refine ⟨⟨v.connections.size, ?_⟩, rfl⟩
        rw [if_pos]
        · rfl
        · rw [List.isEmpty_eq_false_iff.mpr hempty]
          rfl

/-- An accepted presence update is announced by the current entries of its
clients, and the document left alone. -/
theorem Actor.step_present {frame : IncomingFrame} {origin : Origin}
    (hdeed : a.deed l = .present frame origin) :
    b.world.doc = a.world.doc ∧
    ((a.publics b = [] ∧ ∀ update, presenceIn Y frame = some update →
      (Y.applyAwareness a.world.awareness update).2 = true →
      Y.updateWithClients (Y.applyAwareness a.world.awareness update).1 (Y.clients update) = none) ∨
    ∃ update out, presenceIn Y frame = some update ∧
      (Y.applyAwareness a.world.awareness update).2 = true ∧
      Y.updateWithClients (Y.applyAwareness a.world.awareness update).1 (Y.clients update)
        = some out ∧
      a.publics b = [.onAwarenessUpdate (Y.encodeAwareness out) (Y.clients update) origin]) := by
  have hdoes := Actor.step_deed hstep
  rw [hdeed] at hdoes
  obtain ⟨o, v, k, hbefore, hsame, htrace, hpublics, hdoc⟩ := hdoes.says
  have hrun : (Deed.present frame origin).run o v = v.handleAwareness frame origin := rfl
  rw [hrun] at htrace hdoc
  refine ⟨hdoc.trans ((congrArg (fun x : View Y => x.content.doc)
    (v.handleAwareness_quiet frame origin).view).trans hbefore), ?_⟩
  rw [hpublics, ← hsame]
  rcases v.handleAwareness_cases frame origin with hquiet | ⟨update, w, hsaid⟩
  · -- refused or unreadable: nothing is written to the trace
    rw [hquiet.run] at htrace
    obtain rfl : k = [] := List.append_cancel_left (htrace.symm.trans (List.append_nil _).symm)
    refine Or.inl ⟨rfl, fun update hread hok => ?_⟩
    rw [hquiet.refused update hread] at hok
    cases hok
  · have harrived : w.awareness = (Y.applyAwareness v.awareness update).1 := by
      rw [hsaid.awareness, Act.arrived, hsaid.read]
      rfl
    rw [hsaid.run, World.relayAwareness, harrived] at htrace
    cases hout : Y.updateWithClients (Y.applyAwareness v.awareness update).1 (Y.clients update) with
    | none =>
      rw [hout] at htrace
      obtain rfl : k = [] := List.append_cancel_left
        (htrace.symm.trans (hsaid.trace.trans (List.append_nil _).symm))
      refine Or.inl ⟨rfl, fun update' hread _ => ?_⟩
      obtain rfl : update = update' := Option.some.inj (hsaid.read.symm.trans hread)
      exact hout
    | some out =>
      rw [hout] at htrace
      obtain ⟨k', htrace', hk'⟩ :=
        (w.broadcastWith_mute (World.awarenessFrame Y (Y.encodeAwareness out))).trace
      obtain rfl : k = k' ++
          [.onAwarenessUpdate (Y.encodeAwareness out) (Y.clients update) origin] := by
        refine (List.append_right_inj v.trace).mp (htrace.symm.trans ?_)
        rw [← List.append_assoc, ← hsaid.trace]
        exact congrArg (· ++ _) htrace'
      refine Or.inr ⟨update, out, hsaid.read, hsaid.accepted, hout, ?_⟩
      rw [List.filter_append, filter_mute hk', List.nil_append]
      rfl

/-- A question is answered, and nothing else said. -/
theorem Actor.step_answer {frame : Bytes} (hdeed : a.deed l = .answer frame) :
    a.publics b = [.reply frame] ∧ b.world.doc = a.world.doc := by
  have hdoes := Actor.step_deed hstep
  rw [hdeed] at hdoes
  obtain ⟨o, v, k, hbefore, hsame, htrace, hpublics, hdoc⟩ := hdoes.says
  obtain rfl : k = [.reply frame] := (List.append_right_inj v.trace).mp htrace.symm
  exact ⟨hpublics, hdoc.trans hbefore⟩

end

end Hocuspocus
