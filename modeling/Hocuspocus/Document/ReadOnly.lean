import Mathlib.Data.List.Infix
import Hocuspocus.Document.Evict
import Hocuspocus.Document.Store
import Hocuspocus.Extensions.Redis

/-!
# Read-only connections

No frame of a read-only connection touches the content of the document: every
handler it can reach is quiet (`readOnly_quiet`). Whether the rest of the run
goes as it would have without such frames is another matter, since they reach
the connection map: a `Close` or a `BroadcastStateless` takes the sender out of
it, and a presence update goes to everyone and evicts whose queue is full.

The map decides over the content in two places only. A frame of a writable
connection is handled if its sender is registered, and `maybe_unload` and the
timer look whether there is anyone. So the two runs are compared through their
`gist`, the content with its history and without the numbers of clients the hooks
are told, and `AgreesOn` asks of a step that the two runs find the same in these two
places. A reader may come and go differently on the two sides.

Each handler takes alike worlds to equal gists (the `_alike` lemmas), and a step
that agrees keeps the runs alike (`Actor.Alike.kept`); `Actor.Alike.run` is the
induction over the run.
-/

namespace Hocuspocus

variable {Y : Yrs}

/-! ## Equal gists -/

/-- The event without the number of clients a hook is told. -/
def Event.uncounted : Event Y → Event Y
  | .beforeHandleMessage update origin _ => .beforeHandleMessage update origin 0
  | .onChange update origin _ => .onChange update origin 0
  | e => e

/-- The view without the numbers of clients. -/
def View.gist (v : View Y) : View Y := ⟨v.content, v.history.map Event.uncounted⟩

def World.gist (w : World Y) : View Y := w.view.gist

/-- What is quiet keeps gists equal. -/
theorem Quiet.gist_eq {v v' w w' : World Y} (hq : Quiet v w) (hq' : Quiet v' w')
    (h : v'.gist = v.gist) : w'.gist = w.gist := by
  rw [World.gist, World.gist, hq.view, hq'.view]
  exact h

namespace World

theorem gist_emit (w : World Y) (e : Event Y) :
    (w.emit e).gist
      = ⟨w.gist.content, w.gist.history ++ ([e].filter Event.isContent).map Event.uncounted⟩ := by
  show View.mk w.toContent (((w.trace ++ [e]).filter Event.isContent).map Event.uncounted) = _
  rw [List.filter_append, List.map_append]
  rfl

theorem emit_alike {w w' : World Y} (h : w'.gist = w.gist) (e : Event Y) :
    (w'.emit e).gist = (w.emit e).gist := by
  rw [gist_emit, gist_emit, h]

/-- A hook is told of any number of clients. -/
theorem emit_asked_alike {w w' : World Y} (h : w'.gist = w.gist) (update : Bytes) (origin : Origin)
    (clients clients' : Nat) :
    (w'.emit (.beforeHandleMessage update origin clients')).gist
      = (w.emit (.beforeHandleMessage update origin clients)).gist := by
  rw [gist_emit, gist_emit, h]
  rfl

theorem emit_change_alike {w w' : World Y} (h : w'.gist = w.gist) (update : Bytes)
    (origin : Origin) (clients clients' : Nat) :
    (w'.emit (.onChange update origin clients')).gist
      = (w.emit (.onChange update origin clients)).gist := by
  rw [gist_emit, gist_emit, h]
  rfl

theorem markDirty_alike {w w' : World Y} (h : w'.gist = w.gist) (now : Nat) (origin : Origin) :
    (w'.markDirty now origin).gist = (w.markDirty now origin).gist :=
  congrArg (fun v : View Y => (⟨v.content.markDirty now origin, v.history⟩ : View Y)) h

theorem clean_alike {w w' : World Y} (h : w'.gist = w.gist) : w'.clean.gist = w.clean.gist :=
  congrArg (fun v : View Y => (⟨v.content.clean, v.history⟩ : View Y)) h

theorem noteChange_alike {w w' : World Y} (h : w'.gist = w.gist) (o : Ambient)
    (baseBefore : Option Y.StateVector) (computed : Bytes) (origin : Origin) :
    (w'.noteChange o baseBefore computed origin).gist
      = (w.noteChange o baseBefore computed origin).gist := by
  obtain ⟨⟨c, _, _, _⟩, _, _, _⟩ := w
  obtain ⟨⟨c', _, _, _⟩, _, _, _⟩ := w'
  obtain rfl : c' = c := congrArg View.content h
  unfold noteChange
  dsimp only
  split
  · exact h
  · refine emit_change_alike (markDirty_alike ?_ _ _) _ _ _ _
    exact congrArg (View.mk _) (congrArg View.history h)

theorem applyAndBroadcast_alike {w w' : World Y} (h : w'.gist = w.gist) (o : Ambient)
    (update : Bytes) (origin : Origin) :
    (w'.applyAndBroadcast o update origin).gist = (w.applyAndBroadcast o update origin).gist := by
  have happlied : ∀ doc : Y.Doc,
      ({ w' with doc } : World Y).gist = ({ w with doc } : World Y).gist := fun doc =>
    congrArg (fun v : View Y => (⟨{ v.content with doc }, v.history⟩ : View Y)) h
  -- with one content on both sides the two calls take the same branches
  obtain ⟨⟨c, _, _, _⟩, _, _, _⟩ := w
  obtain ⟨⟨c', _, _, _⟩, _, _, _⟩ := w'
  obtain rfl : c' = c := congrArg View.content h
  unfold applyAndBroadcast
  dsimp only
  split
  next => exact h
  next u _ =>
    have hdone := happlied (Y.applyUpdate c'.doc u).1
    split
    · exact hdone
    · exact noteChange_alike (emit_alike hdone _) _ _ _ _

theorem runStore_alike {w w' : World Y} (h : w'.gist = w.gist) (results : List HookResult) :
    (w'.runStore results).gist = (w.runStore results).gist := by
  have hdoc : w'.doc = w.doc := congrArg (fun v => v.content.doc) h
  have hdirty : w'.dirty = w.dirty := congrArg (fun v => v.content.dirty) h
  unfold runStore
  rw [hdoc, hdirty]
  split
  · exact h
  · have hstored := fun e₁ e₂ : Event Y => emit_alike (emit_alike h e₁) e₂
    dsimp only
    split
    · exact clean_alike (hstored _ _)
    · exact hstored _ _

theorem spawnStore_alike {w w' : World Y} (h : w'.gist = w.gist) :
    w'.spawnStore.gist = w.spawnStore.gist := by
  have hsnapshot : ∀ state : Bytes,
      ({ w'.clean with storing := true, storeTasks := w'.storeTasks ++ [state] } : World Y).gist
        = ({ w.clean with storing := true, storeTasks := w.storeTasks ++ [state] } : World Y).gist :=
    fun state => congrArg (fun v : View Y => (⟨{ v.content.clean with
      storing := true, storeTasks := v.content.storeTasks ++ [state] }, v.history⟩ : View Y)) h
  obtain ⟨⟨c, _, _, _⟩, _, _, _⟩ := w
  obtain ⟨⟨c', _, _, _⟩, _, _, _⟩ := w'
  obtain rfl : c' = c := congrArg View.content h
  unfold spawnStore
  dsimp only
  split
  · exact h
  · exact emit_alike (hsnapshot _) _

theorem finishStore_alike {w w' : World Y} (h : w'.gist = w.gist) (i : Nat)
    (results : List HookResult) :
    (w'.finishStore i results).gist = (w.finishStore i results).gist := by
  have hreported : ∀ {v v' : World Y}, v'.gist = v.gist → ∀ (tasks : List Bytes)
      (rs : List Bool), ({ v' with storeTasks := tasks, storeResults := rs } : World Y).gist
        = ({ v with storeTasks := tasks, storeResults := rs } : World Y).gist :=
    fun hv tasks rs => congrArg (fun v : View Y => (⟨{ v.content with
      storeTasks := tasks, storeResults := rs }, v.history⟩ : View Y)) hv
  obtain ⟨⟨c, _, _, _⟩, _, _, _⟩ := w
  obtain ⟨⟨c', _, _, _⟩, _, _, _⟩ := w'
  obtain rfl : c' = c := congrArg View.content h
  unfold finishStore
  dsimp only
  split
  · exact h
  · exact hreported (emit_alike h _) _ _

theorem takeResult_alike {w w' : World Y} (h : w'.gist = w.gist) (o : Ambient) (ok : Bool)
    (rest : List Bool) :
    (w'.takeResult o ok rest).gist = (w.takeResult o ok rest).gist := by
  have htaken : ({ w' with storeResults := rest, storing := false } : World Y).gist
      = ({ w with storeResults := rest, storing := false } : World Y).gist :=
    congrArg (fun v : View Y => (⟨{ v.content with
      storeResults := rest, storing := false }, v.history⟩ : View Y)) h
  have horigin : w'.lastOrigin = w.lastOrigin := congrArg (fun v => v.content.lastOrigin) h
  unfold takeResult
  cases ok with
  | true => exact htaken
  | false =>
    dsimp only
    rw [horigin]
    exact markDirty_alike htaken _ _

theorem maybeUnload_alike {w w' : World Y} (h : w'.gist = w.gist)
    (hempty : w'.connections.isEmpty = w.connections.isEmpty) (cfg : Configuration)
    (o : Ambient) :
    (w'.maybeUnload cfg o).1.gist = (w.maybeUnload cfg o).1.gist ∧
      (w'.maybeUnload cfg o).2 = (w.maybeUnload cfg o).2 := by
  have hdirty : w'.dirty = w.dirty := congrArg (fun v => v.content.dirty) h
  have hstoring : w'.storing = w.storing := congrArg (fun v => v.content.storing) h
  have hstored : (w'.storeIfDirty o.onStoreUnload).gist = (w.storeIfDirty o.onStoreUnload).gist := by
    unfold storeIfDirty
    rw [hdirty]
    split
    · exact runStore_alike h _
    · exact h
  rw [maybeUnload_eq, maybeUnload_eq, hempty, hstoring, hdirty]
  split
  · split
    · exact ⟨emit_alike hstored _, rfl⟩
    · exact ⟨emit_alike (emit_alike hstored _) _, rfl⟩
  · exact ⟨h, rfl⟩

theorem storeDeadline_alike {w w' : World Y} (h : w'.gist = w.gist) (cfg : Configuration) :
    w'.storeDeadline cfg = w.storeDeadline cfg := by
  obtain ⟨⟨c, _, _, _⟩, _, _, _⟩ := w
  obtain ⟨⟨c', _, _, _⟩, _, _, _⟩ := w'
  obtain rfl : c' = c := congrArg View.content h
  rfl

theorem tick_alike {w w' : World Y} (h : w'.gist = w.gist)
    (hempty : w'.connections.isEmpty = w.connections.isEmpty) (cfg : Configuration)
    (o : Ambient) :
    (w'.tick cfg o).1.gist = (w.tick cfg o).1.gist ∧ (w'.tick cfg o).2 = (w.tick cfg o).2 := by
  unfold tick
  rw [hempty]
  split
  · refine maybeUnload_alike (runStore_alike h _) ?_ cfg o
    rw [runStore_connections, runStore_connections, hempty]
  · exact ⟨spawnStore_alike h, rfl⟩

/-! ## What leaves the pending broadcast alone -/

theorem runStore_pending (results : List HookResult) (w : World Y) :
    (w.runStore results).broadcastPending = w.broadcastPending := by
  unfold runStore
  split
  · rfl
  · dsimp only
    split <;> rfl

theorem maybeUnload_pending (cfg : Configuration) (o : Ambient) (w : World Y) :
    (w.maybeUnload cfg o).1.broadcastPending = w.broadcastPending := by
  have hstored : (w.storeIfDirty o.onStoreUnload).broadcastPending = w.broadcastPending := by
    unfold storeIfDirty
    split
    · exact runStore_pending _ w
    · rfl
  rw [maybeUnload_eq]
  split
  · split <;> exact hstored
  · rfl

theorem takeResult_pending (o : Ambient) (w : World Y) (ok : Bool) (rest : List Bool) :
    (w.takeResult o ok rest).broadcastPending = w.broadcastPending := by
  unfold takeResult
  cases ok <;> rfl

theorem tick_pending (cfg : Configuration) (o : Ambient) (w : World Y) :
    (w.tick cfg o).1.broadcastPending = w.broadcastPending := by
  unfold tick
  split
  · exact (maybeUnload_pending cfg o _).trans (runStore_pending _ w)
  · unfold spawnStore
    split <;> rfl

theorem finishStore_pending (w : World Y) (i : Nat) (results : List HookResult) :
    (w.finishStore i results).broadcastPending = w.broadcastPending := by
  unfold finishStore
  split <;> rfl

/-! ## Frames of read-only connections -/

theorem handleSync_quiet {o : Ambient} {w : World Y} {conn : ConnHandle} {address : String}
    {origin : Origin} {frame : IncomingFrame} (hreadOnly : conn.readOnly = true) :
    Quiet w (w.handleSync o conn address origin frame) := by
  unfold handleSync
  split
  · exact Quiet.refl w
  · exact (w.sendFrame_quiet _ _).trans (sendFrame_quiet _ _ _)
  · rw [if_pos hreadOnly]
    exact w.sendSyncStatus_quiet _ _ _
  · rw [if_pos hreadOnly]
    exact w.sendSyncStatus_quiet _ _ _

/-- No frame of a read-only connection reaches the content. -/
theorem readOnly_quiet {o : Ambient} {w : World Y} {connId : Nat} {data : Bytes}
    (hreadOnly : ∀ conn, w.connections.get? connId = some conn → conn.readOnly = true) :
    (w.handleClientFrame o connId data).view = w.view := by
  unfold handleClientFrame
  cases hconn : w.connections.get? connId with
  | none => rfl
  | some conn =>
    dsimp only
    cases IncomingFrame.parse Y data with
    | none => rfl
    | some frame =>
      dsimp only
      cases frame.messageType with
      | sync | syncReply => exact (handleSync_quiet (hreadOnly conn hconn)).view
      | awareness => exact (w.handleAwareness_quiet _ _).view
      | queryAwareness => exact (w.replyQueryAwareness_quiet _ _).view
      | stateless => exact (w.handleStateless_quiet _ _).view
      | close | broadcastStateless => exact (w.closeConnection_quiet _ _).view
      | auth | syncStatus | ping | pong => rfl

end World

/-! ## Alike worlds -/

theorem readOnly_of_core {conn conn' : ConnHandle} (h : conn'.core = conn.core) :
    conn'.readOnly = conn.readOnly := by
  have hcore : conn'.core.readOnly = conn.core.readOnly := congrArg ConnHandle.readOnly h
  exact hcore

/-- The same content, and what is registered on both sides is the same up to the
client ids it has claimed. -/
structure Alike (w w' : World Y) : Prop where
  gist : w'.gist = w.gist
  handles : ∀ id conn conn', w.connections.get? id = some conn →
    w'.connections.get? id = some conn' → conn'.core = conn.core

namespace Alike

variable {w w' : World Y}

theorem withSched (h : Alike w w') (sched : List (List QueueAct)) :
    Alike (w.withSched sched) (w'.withSched sched) := ⟨h.gist, h.handles⟩

theorem handleSync {conn conn' : ConnHandle} (h : Alike w w') (hcore : conn'.core = conn.core)
    (o : Ambient) (address address' : String) (origin : Origin) (frame : IncomingFrame) :
    (w'.handleSync o conn' address' origin frame).gist
      = (w.handleSync o conn address origin frame).gist := by
  have hreadOnly := readOnly_of_core hcore
  have hstatus : ∀ {v v' : World Y}, v'.gist = v.gist → ∀ (id id' : Nat) (saved : Bool),
      (v'.sendSyncStatus id' address' saved).gist = (v.sendSyncStatus id address saved).gist :=
    fun hv id id' saved =>
      Quiet.gist_eq (World.sendSyncStatus_quiet _ _ _ _) (World.sendSyncStatus_quiet _ _ _ _) hv
  have hupdate : ∀ update : Bytes,
      (if conn'.readOnly then w'.sendSyncStatus conn'.connId address' false
        else
          let checked := w'.beforeHandleMessage o conn'.connId update origin
          if checked.2 then
            (checked.1.applyAndBroadcast o update origin).sendSyncStatus conn'.connId address' true
          else checked.1).gist =
      (if conn.readOnly then w.sendSyncStatus conn.connId address false
        else
          let checked := w.beforeHandleMessage o conn.connId update origin
          if checked.2 then
            (checked.1.applyAndBroadcast o update origin).sendSyncStatus conn.connId address true
          else checked.1).gist := by
    intro update
    have hasked := World.emit_asked_alike h.gist update origin w.connections.size
      w'.connections.size
    rw [hreadOnly]
    split
    · exact hstatus h.gist _ _ _
    · unfold World.beforeHandleMessage
      cases firstError o.beforeHandleMessage with
      | none => exact hstatus (World.applyAndBroadcast_alike hasked o update origin) _ _ _
      | some e =>
        exact Quiet.gist_eq (World.rejectMessage_quiet _ _ _) (World.rejectMessage_quiet _ _ _)
          hasked
  unfold World.handleSync
  cases Y.decodeSync frame.decoder with
  | none => exact h.gist
  | some msg =>
    cases msg with
    | syncStep1 clientSv =>
      exact Quiet.gist_eq ((World.sendFrame_quiet _ _ _).trans (World.sendFrame_quiet _ _ _))
        ((World.sendFrame_quiet _ _ _).trans (World.sendFrame_quiet _ _ _)) h.gist
    | syncStep2 update => exact hupdate update
    | update update => exact hupdate update

theorem handleClientFrame (h : Alike w w') (o : Ambient) (connId : Nat) (data : Bytes)
    (hboth : (w'.connections.get? connId).isSome = (w.connections.get? connId).isSome) :
    (w'.handleClientFrame o connId data).gist = (w.handleClientFrame o connId data).gist := by
  unfold World.handleClientFrame
  cases hconn : w.connections.get? connId with
  | none =>
    rw [hconn] at hboth
    have hnone : w'.connections.get? connId = none :=
      Option.not_isSome_iff_eq_none.mp (by rw [hboth]; exact Bool.false_ne_true)
    rw [hnone]
    exact h.gist
  | some conn =>
    rw [hconn] at hboth
    obtain ⟨conn', hconn'⟩ := Option.isSome_iff_exists.mp hboth
    have hcore := h.handles connId conn conn' hconn hconn'
    rw [hconn']
    dsimp only
    cases IncomingFrame.parse Y data with
    | none => exact h.gist
    | some frame =>
      dsimp only
      cases frame.messageType with
      | sync | syncReply => exact h.handleSync hcore o _ _ _ frame
      | awareness =>
        exact Quiet.gist_eq (w.handleAwareness_quiet _ _) (w'.handleAwareness_quiet _ _) h.gist
      | queryAwareness =>
        exact Quiet.gist_eq (w.replyQueryAwareness_quiet _ _) (w'.replyQueryAwareness_quiet _ _)
          h.gist
      | stateless =>
        exact Quiet.gist_eq (w.handleStateless_quiet _ _) (w'.handleStateless_quiet _ _) h.gist
      | close | broadcastStateless =>
        exact Quiet.gist_eq (w.closeConnection_quiet _ _) (w'.closeConnection_quiet _ _) h.gist
      | auth | syncStatus | ping | pong => exact h.gist

theorem handleExternalFrame (h : Alike w w') (o : Ambient) (data : Bytes) (reply : Bool) :
    (w'.handleExternalFrame o data reply).gist = (w.handleExternalFrame o data reply).gist := by
  have happly := World.applyAndBroadcast_alike h.gist o
  have hsync : ∀ frame : IncomingFrame, (w'.handleExternalSync o frame .redis reply).gist
      = (w.handleExternalSync o frame .redis reply).gist := by
    intro frame
    unfold World.handleExternalSync
    cases Y.decodeSync frame.decoder with
    | none => exact h.gist
    | some msg =>
      cases msg with
      | syncStep1 clientSv =>
        dsimp only
        split
        · exact Quiet.gist_eq (World.emit_quiet _ rfl) (World.emit_quiet _ rfl) h.gist
        · exact h.gist
      | syncStep2 update => exact happly update .redis
      | update update => exact happly update .redis
  unfold World.handleExternalFrame
  cases IncomingFrame.parse Y data with
  | none => exact h.gist
  | some frame =>
    dsimp only
    cases frame.messageType with
    | sync | syncReply => exact hsync frame
    | awareness =>
      exact Quiet.gist_eq (w.handleAwareness_quiet _ _) (w'.handleAwareness_quiet _ _) h.gist
    | queryAwareness =>
      -- the two tables may differ, so one side may answer where the other has nothing to say
      have hreplied : ∀ {v v' : World Y} (f f' : Bytes), v'.gist = v.gist →
          (v'.emit (.reply f')).gist = (v.emit (.reply f)).gist := fun f f' hv =>
        Quiet.gist_eq (World.emit_quiet _ rfl) (World.emit_quiet _ rfl) hv
      dsimp only
      split
      · cases Y.awarenessUpdate w.awareness with
        | none =>
          cases Y.awarenessUpdate w'.awareness with
          | none => exact h.gist
          | some update' => exact Quiet.gist_eq (Quiet.refl w) (World.emit_quiet w' rfl) h.gist
        | some update =>
          cases Y.awarenessUpdate w'.awareness with
          | none => exact Quiet.gist_eq (World.emit_quiet w rfl) (Quiet.refl w') h.gist
          | some update' => exact hreplied _ _ h.gist
      · exact h.gist
    | broadcastStateless =>
      dsimp only
      split
      · exact Quiet.gist_eq (w.broadcastWith_quiet _) (w'.broadcastWith_quiet _) h.gist
      · exact h.gist
    | stateless | close | auth | syncStatus | ping | pong => exact h.gist

end Alike

/-! ## What the two runs find -/

/-- The sender of a frame is registered on both sides or on neither, and a removal
leaves nobody on both sides or on neither. -/
def World.AgreesOn (w w' : World Y) : DocCommand → Prop
  | .clientFrame connId _ =>
    (w'.connections.get? connId).isSome = (w.connections.get? connId).isSome
  | .removeConnection connId =>
    (w'.removeConnection connId).connections.isEmpty
      = (w.removeConnection connId).connections.isEmpty
  | .addConnection .. | .externalFrame .. | .directApply .. => True

/-- ... and the other two steps that look whether there is anyone find the same. -/
def Actor.AgreesOn (a a' : Actor Y) : Label → Prop
  | .command cmd o => (a.world.withSched o.sched).AgreesOn (a'.world.withSched o.sched) cmd
  | .storeResult _ | .deadline _ =>
    a'.world.connections.isEmpty = a.world.connections.isEmpty
  | .flush _ | .mailboxClosed | .storeTask .. | .queues _ => True

/-- A command on which they agree takes alike worlds to equal gists, and leaves the
registry on both sides or on neither. -/
theorem Alike.handleCommand {w w' : World Y} (h : Alike w w') (cfg : Configuration) (o : Ambient)
    {cmd : DocCommand} (hagrees : w.AgreesOn w' cmd) :
    (w'.handleCommand cfg o cmd).1.gist = (w.handleCommand cfg o cmd).1.gist ∧
      (w'.handleCommand cfg o cmd).2 = (w.handleCommand cfg o cmd).2 := by
  cases cmd with
  | addConnection handle ack =>
    refine ⟨Quiet.gist_eq ?_ ?_ h.gist, rfl⟩
    · exact (w.addConnection_quiet _ _).trans (World.emit_quiet _ rfl)
    · exact (w'.addConnection_quiet _ _).trans (World.emit_quiet _ rfl)
  | clientFrame connId data => exact ⟨h.handleClientFrame o connId data hagrees, rfl⟩
  | removeConnection connId =>
    have hremoved := Quiet.gist_eq (w.removeConnection_quiet connId)
      (w'.removeConnection_quiet connId) h.gist
    exact World.maybeUnload_alike hremoved hagrees cfg o
  | externalFrame data reply => exact ⟨h.handleExternalFrame o data reply, rfl⟩
  | directApply update ack =>
    exact ⟨World.emit_alike (World.applyAndBroadcast_alike h.gist o update .local) _, rfl⟩

/-! ## The run without the frames of read-only connections -/

/-- The command is a frame of a connection that `ro` says is read-only. -/
def DocCommand.fromReadOnly (ro : Nat → Bool) : DocCommand → Bool
  | .clientFrame connId _ => ro connId
  | _ => false

/-- The label stays; the flush of a batch stays if a command of the batch
does. -/
def Label.kept (ro : Nat → Bool) (inBatch : Bool) : Label → Bool
  | .command cmd _ => !cmd.fromReadOnly ro
  | .flush _ => inBatch
  | _ => true

/-- A command that stays is in the open batch. -/
def Label.inBatch (ro : Nat → Bool) (inBatch : Bool) : Label → Bool
  | .command cmd _ => inBatch || !cmd.fromReadOnly ro
  | .flush _ => false
  | _ => inBatch

def withoutReadOnly (ro : Nat → Bool) : Bool → List Label → List Label
  | _, [] => []
  | inBatch, l :: ls =>
    let rest := withoutReadOnly ro (l.inBatch ro inBatch) ls
    if l.kept ro inBatch then l :: rest else rest

/-- `ro` is the `read_only` flag of the connection that joins. -/
def Label.marks (ro : Nat → Bool) : Label → Bool
  | .command (.addConnection handle _) _ => handle.readOnly == ro handle.connId
  | _ => true

/-- The phases of a run and of what is left of it; a batch of which nothing is
left has not begun on the other side. -/
inductive PhaseAlike : Phase → Phase → Bool → Prop
  | select : PhaseAlike .select .select false
  | emptied (n : Nat) : PhaseAlike (.batch n) .select false
  | batch {m n : Nat} (h : m ≤ n) : PhaseAlike (.batch n) (.batch m) true
  | exiting : PhaseAlike .exiting .exiting true
  | stopped : PhaseAlike .stopped .stopped false

structure Actor.Alike (ro : Nat → Bool) (inBatch : Bool) (a a' : Actor Y) : Prop where
  world : Hocuspocus.Alike a.world a'.world
  phase : PhaseAlike a.phase a'.phase inBatch
  pending : inBatch = false → a.world.broadcastPending = false
  readOnly : ∀ id conn, a.world.connections.get? id = some conn → conn.readOnly = ro id

theorem Phase.next_batch {k n : Nat} :
    (Phase.batch k).next = some n ↔ k < maxCoalesceBatch ∧ k + 1 = n := by
  show (if k < maxCoalesceBatch then some (k + 1) else none) = some n ↔ _
  split
  next hlt => exact ⟨fun h => ⟨hlt, Option.some.inj h⟩, fun h => congrArg some h.2⟩
  next hge => exact ⟨nofun, fun h => absurd h.1 hge⟩

theorem PhaseAlike.next {p p' : Phase} {inBatch : Bool} {n : Nat} (h : PhaseAlike p p' inBatch)
    (hn : p.next = some n) : ∃ m, p'.next = some m ∧ m ≤ n := by
  cases h with
  | select =>
    cases hn
    exact ⟨1, rfl, Nat.le_refl 1⟩
  | emptied k =>
    obtain ⟨_, hk⟩ := Phase.next_batch.mp hn
    exact ⟨1, rfl, by omega⟩
  | @batch m k hle =>
    obtain ⟨hlt, hk⟩ := Phase.next_batch.mp hn
    exact ⟨m + 1, Phase.next_batch.mpr ⟨by omega, rfl⟩, by omega⟩
  | exiting => cases hn
  | stopped => cases hn

theorem PhaseAlike.dropped {p p' : Phase} {inBatch : Bool} {n : Nat} (h : PhaseAlike p p' inBatch)
    (hn : p.next = some n) : PhaseAlike (.batch n) p' inBatch := by
  cases h with
  | select => exact .emptied n
  | emptied k => exact .emptied n
  | batch hle =>
    obtain ⟨_, hk⟩ := Phase.next_batch.mp hn
    exact .batch (by omega)
  | exiting => cases hn
  | stopped => cases hn

theorem PhaseAlike.of_select {p p' : Phase} {inBatch : Bool} (h : PhaseAlike p p' inBatch)
    (hp : p = .select) : inBatch = false ∧ p' = .select := by
  subst hp
  cases h
  exact ⟨rfl, rfl⟩

/-- Both sides leave, or both wait again. -/
theorem PhaseAlike.after (exit : Bool) :
    PhaseAlike (Phase.after exit .select .stopped) (Phase.after exit .select .stopped) false := by
  cases exit with
  | true => exact .stopped
  | false => exact .select

namespace Actor

section Steps

variable {cfg : Configuration} {ro : Nat → Bool} {inBatch : Bool} {a a' b b' : Actor Y} {l : Label}

theorem step_joined {handle : ConnHandle} {ack : Nat} {o : Ambient}
    (hstep : a.step cfg (.command (.addConnection handle ack) o) = some b) :
    b.world.connections.get? handle.connId = some handle := by
  cases step_cases hstep with
  | command _ _ n hphase =>
    exact (World.addConnection_get? (a.world.withSched o.sched) o.order handle _).trans (if_pos rfl)

/-- Who is registered after a step has the handle of before, or the one it
joined with. -/
theorem step_handle (hstep : a.step cfg l = some b) (hstep' : a'.step cfg l = some b')
    (h : Hocuspocus.Alike a.world a'.world) {id : Nat} {conn conn' : ConnHandle}
    (hconn : b.world.connections.get? id = some conn)
    (hconn' : b'.world.connections.get? id = some conn') : conn'.core = conn.core := by
  have hjoin : ∀ {ack o}, l = .command (.addConnection conn ack) o → id = conn.connId →
      conn' = conn := by
    intro ack o hl hid
    subst hl
    exact Option.some.inj ((hid ▸ hconn').symm.trans (step_joined hstep'))
  have hjoin' : ∀ {ack o}, l = .command (.addConnection conn' ack) o → id = conn'.connId →
      conn = conn' := by
    intro ack o hl hid
    subst hl
    exact Option.some.inj ((hid ▸ hconn).symm.trans (step_joined hstep))
  rcases step_get? hstep hconn with ⟨c, hc, hcore⟩ | ⟨ack, o, hl, hid⟩
  · rcases step_get? hstep' hconn' with ⟨c', hc', hcore'⟩ | ⟨ack, o, hl, hid⟩
    · have hmid := h.handles id c c' hc hc'
      rw [← hcore', hmid, hcore]
    · rw [hjoin' hl hid]
  · rw [hjoin hl hid]

theorem readOnly_step (hstep : a.step cfg l = some b) (hmarks : l.marks ro = true)
    (h : ∀ id conn, a.world.connections.get? id = some conn → conn.readOnly = ro id) :
    ∀ id conn, b.world.connections.get? id = some conn → conn.readOnly = ro id := by
  intro id conn hconn
  rcases step_get? hstep hconn with ⟨c, hc, hcore⟩ | ⟨ack, o, hl, hid⟩
  · rw [← h id c hc, readOnly_of_core hcore]
  · subst hl
    rw [hid]
    exact eq_of_beq hmarks

/-- Who is registered after a step that is left out was so before. -/
theorem handle_dropped (hstep : a.step cfg l = some b) (h : Hocuspocus.Alike a.world a'.world)
    (hjoin : ∀ handle ack o, l ≠ .command (.addConnection handle ack) o) {id : Nat}
    {conn conn' : ConnHandle} (hconn : b.world.connections.get? id = some conn)
    (hconn' : a'.world.connections.get? id = some conn') : conn'.core = conn.core := by
  rcases step_get? hstep hconn with ⟨c, hc, hcore⟩ | ⟨ack, o, hl, _⟩
  · exact (h.handles id c conn' hc hconn').trans hcore
  · exact absurd hl (hjoin conn ack o)

theorem deadline_due {o : Ambient} (hstep : a.step cfg (.deadline o) = some b) :
    ∃ d, a.world.storeDeadline cfg = some d ∧ d ≤ o.now := by
  simp only [step] at hstep
  split at hstep
  next d _ hd =>
    split at hstep
    next hle => exact ⟨d, hd, hle⟩
    next => cases hstep
  next => cases hstep

/-- A label that is left out changes nothing but the connections. -/
theorem Alike.dropped (h : Alike ro inBatch a a') (hstep : a.step cfg l = some b)
    (hmarks : l.marks ro = true) (hdrop : l.kept ro inBatch = false) :
    Alike ro (l.inBatch ro inBatch) b a' := by
  have hro := readOnly_step hstep hmarks h.readOnly
  cases step_cases hstep with
  | command cmd o n hphase =>
    cases cmd with
    | clientFrame connId data =>
      have hfrom : ro connId = true := by simpa [Label.kept, DocCommand.fromReadOnly] using hdrop
      have hquiet : ((a.world.withSched o.sched).handleClientFrame o connId data).view
          = a.world.view :=
        World.readOnly_quiet fun conn hconn => (h.readOnly connId conn hconn).trans hfrom
      have hopen : (Label.command (.clientFrame connId data) o).inBatch ro inBatch = inBatch := by
        simp [Label.inBatch, DocCommand.fromReadOnly, hfrom]
      rw [hopen]
      have hgist : a'.world.gist
          = ((a.world.withSched o.sched).handleClientFrame o connId data).gist := by
        rw [h.world.gist, World.gist, World.gist, hquiet]
      refine ⟨⟨hgist, fun id conn conn' hconn hconn' => ?_⟩, h.phase.dropped hphase, ?_, hro⟩
      · exact handle_dropped hstep h.world (fun _ _ _ heq => by cases heq) hconn hconn'
      · intro hin
        exact (congrArg (fun v => v.content.broadcastPending) hquiet).trans (h.pending hin)
    | _ => cases hdrop
  | flush sched phase hphase =>
    have hin : inBatch = false := hdrop
    subst hin
    have hpending := h.pending rfl
    have hidle : (a.world.withSched sched).flushBroadcast = a.world.withSched sched := by
      refine if_pos ?_
      show (!a.world.broadcastPending) = true
      rw [hpending]
      rfl
    have hselect : PhaseAlike phase a'.phase false := by
      have hp := h.phase
      rcases hphase with ⟨⟨n, hn⟩, rfl⟩ | ⟨hn, rfl⟩
      · rw [hn] at hp
        generalize a'.phase = p' at hp ⊢
        cases hp
        exact .select
      · rw [hn] at hp
        generalize a'.phase = p' at hp
        cases hp
    rw [hidle] at hro ⊢
    exact ⟨⟨h.world.gist, h.world.handles⟩, hselect, fun _ => hpending, hro⟩
  | _ => cases hdrop

/-- What is registered after a label that stays. -/
theorem Alike.stays (h : Alike ro inBatch a a') (hstep : a.step cfg l = some b)
    (hstep' : a'.step cfg l = some b') (hgist : b'.world.gist = b.world.gist) :
    Hocuspocus.Alike b.world b'.world :=
  ⟨hgist, fun _ _ _ hconn hconn' => step_handle hstep hstep' h.world hconn hconn'⟩

/-- **The step lemma.** A label that stays, and on which the sides agree, is enabled
on the other side and keeps the runs alike. -/
theorem Alike.kept (h : Alike ro inBatch a a') (hstep : a.step cfg l = some b)
    (hmarks : l.marks ro = true) (hkeep : l.kept ro inBatch = true) (hagrees : a.AgreesOn a' l) :
    ∃ b', a'.step cfg l = some b' ∧ Alike ro (l.inBatch ro inBatch) b b' := by
  have hro := readOnly_step hstep hmarks h.readOnly
  have hcontent : a'.world.toContent = a.world.toContent := congrArg View.content h.world.gist
  cases step_cases hstep with
  | command cmd o n hphase =>
    obtain ⟨m, hm, hle⟩ := h.phase.next hphase
    have hstep' : a'.step cfg (.command cmd o) = some
        ⟨((a'.world.withSched o.sched).handleCommand cfg o cmd).1,
          Phase.after ((a'.world.withSched o.sched).handleCommand cfg o cmd).2 (.batch m)
            .exiting⟩ := by
      rw [step, hm]
    -- a command that stays opens a batch in the other run too
    have hopen : (Label.command cmd o).inBatch ro inBatch = true := by
      have hstays : (!cmd.fromReadOnly ro) = true := hkeep
      rw [Label.inBatch, hstays, Bool.or_true]
    obtain ⟨hgist, hexit⟩ := (h.world.withSched o.sched).handleCommand cfg o hagrees
    rw [hopen]
    refine ⟨_, hstep', h.stays hstep hstep' hgist, ?_, fun h => Bool.noConfusion h, hro⟩
    rw [hexit]
    cases ((a.world.withSched o.sched).handleCommand cfg o cmd).2 with
    | true => exact .exiting
    | false => exact .batch hle
  | flush sched phase hphase =>
    -- the flush is kept only when the other run has a batch to flush
    have hin : inBatch = true := hkeep
    subst hin
    have hp := h.phase
    have hgist : ((a'.world.withSched sched).flushBroadcast).gist
        = ((a.world.withSched sched).flushBroadcast).gist := by
      rw [World.gist, World.gist, (World.flushBroadcast_flushes _).view,
        (World.flushBroadcast_flushes _).view]
      exact congrArg View.flush h.world.gist
    have hpending : ((a.world.withSched sched).flushBroadcast).broadcastPending = false :=
      congrArg (fun v : View Y => v.content.broadcastPending)
        (World.flushBroadcast_flushes (a.world.withSched sched)).view
    rcases hphase with ⟨⟨n, hn⟩, rfl⟩ | ⟨hn, rfl⟩
    · -- the batch ends
      have hopen : ∃ m, a'.phase = .batch m := by
        rw [hn] at hp
        generalize a'.phase = p' at hp ⊢
        cases hp
        exact ⟨_, rfl⟩
      obtain ⟨m, hm⟩ := hopen
      have hstep' : a'.step cfg (.flush sched) = some
          ⟨(a'.world.withSched sched).flushBroadcast, .select⟩ := by rw [step, hm]
      exact ⟨_, hstep', h.stays hstep hstep' hgist, .select, fun _ => hpending, hro⟩
    · -- the flush of an actor that is on its way out
      have hexiting : a'.phase = .exiting := by
        rw [hn] at hp
        generalize a'.phase = p' at hp ⊢
        cases hp
        rfl
      have hstep' : a'.step cfg (.flush sched) = some
          ⟨(a'.world.withSched sched).flushBroadcast, .stopped⟩ := by rw [step, hexiting]
      exact ⟨_, hstep', h.stays hstep hstep' hgist, .stopped, fun _ => hpending, hro⟩
  | storeResult o ok rest hphase hresults =>
    obtain ⟨hin, hselect⟩ := h.phase.of_select hphase
    have hresults' : a'.world.storeResults = ok :: rest :=
      (congrArg Content.storeResults hcontent).trans hresults
    have hstep' : a'.step cfg (.storeResult o) = some
        ⟨(((a'.world.withSched o.sched).takeResult o ok rest).maybeUnload cfg o).1,
          Phase.after (((a'.world.withSched o.sched).takeResult o ok rest).maybeUnload cfg o).2
            .select .stopped⟩ := by rw [step, hselect, hresults']
    have hempty : ((a'.world.withSched o.sched).takeResult o ok rest).connections.isEmpty
        = ((a.world.withSched o.sched).takeResult o ok rest).connections.isEmpty := by
      rw [(World.takeResult_silent o _ ok rest).connections,
        (World.takeResult_silent o _ ok rest).connections]
      exact hagrees
    obtain ⟨hgist, hexit⟩ := World.maybeUnload_alike
      (World.takeResult_alike (h.world.withSched o.sched).gist o ok rest) hempty cfg o
    subst hin
    refine ⟨_, hstep', h.stays hstep hstep' hgist, ?_, fun _ => ?_, hro⟩
    · rw [hexit]
      exact .after _
    · exact (World.maybeUnload_pending cfg o _).trans
        ((World.takeResult_pending o _ ok rest).trans (h.pending rfl))
  | deadline o hphase hdirty hstoring =>
    obtain ⟨hin, hselect⟩ := h.phase.of_select hphase
    obtain ⟨hgist, hexit⟩ := World.tick_alike (h.world.withSched o.sched).gist hagrees cfg o
    obtain ⟨d, hd, hle⟩ := deadline_due hstep
    have hstep' : a'.step cfg (.deadline o) = some ⟨((a'.world.withSched o.sched).tick cfg o).1,
        Phase.after ((a'.world.withSched o.sched).tick cfg o).2 .select .stopped⟩ := by
      simp only [step, hselect, World.storeDeadline_alike h.world.gist, hd, if_pos hle]
    subst hin
    refine ⟨_, hstep', h.stays hstep hstep' hgist, ?_, fun _ => ?_, hro⟩
    · rw [hexit]
      exact .after _
    · exact (World.tick_pending cfg o _).trans (h.pending rfl)
  | mailboxClosed hphase =>
    obtain ⟨hin, hselect⟩ := h.phase.of_select hphase
    have hstep' : a'.step cfg .mailboxClosed = some { a' with phase := .stopped } := by
      rw [step, hselect]
    subst hin
    exact ⟨_, hstep', h.stays hstep hstep' h.world.gist, .stopped, h.pending, hro⟩
  | storeTask i results hi =>
    have htasks : a'.world.storeTasks = a.world.storeTasks :=
      congrArg Content.storeTasks hcontent
    have hstep' : a'.step cfg (.storeTask i results) = some
        { a' with world := a'.world.finishStore i results } := by
      rw [step, htasks, if_pos hi]
    refine ⟨_, hstep', h.stays hstep hstep' (World.finishStore_alike h.world.gist i results),
      h.phase, fun hin => ?_, hro⟩
    exact (World.finishStore_pending _ i results).trans (h.pending hin)
  | queues acts =>
    exact ⟨_, rfl, ⟨h.world.gist, h.world.handles⟩, h.phase, h.pending, hro⟩

end Steps

/-- The run and what is left of it agree on every label that stays. -/
def AgreesAlong (cfg : Configuration) (ro : Nat → Bool) :
    Bool → Actor Y → Actor Y → List Label → Prop
  | _, _, _, [] => True
  | inBatch, a, a', l :: ls =>
    if l.kept ro inBatch then
      a.AgreesOn a' l ∧ ∀ b b', a.step cfg l = some b → a'.step cfg l = some b' →
        AgreesAlong cfg ro (l.inBatch ro inBatch) b b' ls
    else ∀ b, a.step cfg l = some b → AgreesAlong cfg ro (l.inBatch ro inBatch) b a' ls

/-- **The run lemma.** What is left of a run is a run, and the gists are equal at
the end. -/
theorem Alike.run {cfg : Configuration} {ro : Nat → Bool} {inBatch : Bool} {a a' b : Actor Y}
    {ls : List Label} (h : Alike ro inBatch a a') (hrun : Actor.Run cfg a ls b)
    (hmarks : ∀ l ∈ ls, l.marks ro = true) (hagrees : AgreesAlong cfg ro inBatch a a' ls) :
    ∃ b', Actor.Run cfg a' (withoutReadOnly ro inBatch ls) b' ∧ b'.world.gist = b.world.gist := by
  induction ls generalizing a a' inBatch with
  | nil =>
    rw [Actor.Run, Lts.exec_nil, Option.some.injEq] at hrun
    subst hrun
    exact ⟨a', rfl, h.world.gist⟩
  | cons l ls ih =>
    obtain ⟨u, hstep, hrest⟩ := Lts.exec_cons.mp hrun
    have hl := hmarks l (List.mem_cons_self ..)
    have hls := fun k hk => hmarks k (List.mem_cons_of_mem l hk)
    cases hkeep : l.kept ro inBatch with
    | false =>
      rw [AgreesAlong, hkeep] at hagrees
      obtain ⟨b', hb', hgist⟩ := ih (h.dropped hstep hl hkeep) hrest hls (hagrees u hstep)
      refine ⟨b', ?_, hgist⟩
      rw [withoutReadOnly, hkeep]
      exact hb'
    | true =>
      rw [AgreesAlong, hkeep] at hagrees
      obtain ⟨u', hstep', halike⟩ := h.kept hstep hl hkeep hagrees.1
      obtain ⟨b', hb', hgist⟩ := ih halike hrest hls (hagrees.2 u u' hstep hstep')
      refine ⟨b', ?_, hgist⟩
      rw [withoutReadOnly, hkeep]
      exact Lts.exec_cons.mpr ⟨u', hstep', hb'⟩

theorem alike_spawn (ro : Nat → Bool) (name : String) (doc : Y.Doc) (queues : Queues) :
    Alike ro false (Actor.spawn name doc queues) (Actor.spawn name doc queues) :=
  ⟨⟨rfl, fun _ _ _ hconn => by cases hconn⟩, .select, fun _ => rfl, nofun⟩

end Actor

/-! ## What the gist still shows -/

/-- The states the document has gone through. -/
def documentStates (h : List (Event Y)) : List Y.Doc :=
  h.filterMap fun | .applied _ _ doc => some doc | _ => none

/-- What reads no number of clients is read off the gist. -/
theorem filterMap_uncounted {α : Type} {f : Event Y → Option α} (hf : ∀ e, f e.uncounted = f e)
    (h : List (Event Y)) : (h.map Event.uncounted).filterMap f = h.filterMap f := by
  rw [List.filterMap_map]
  exact List.filterMap_congr fun e _ => hf e

theorem filterMap_gist {α : Type} {f : Event Y → Option α} (hf : ∀ e, f e.uncounted = f e)
    {w w' : World Y} (h : w'.gist = w.gist) :
    w'.history.filterMap f = w.history.filterMap f := by
  have hhistory : w'.history.map Event.uncounted = w.history.map Event.uncounted :=
    congrArg View.history h
  rw [← filterMap_uncounted hf, hhistory, filterMap_uncounted hf]

/-- **Read-only connections cannot write**: their frames leave the content and
its history as they are, and a run without them goes through the same document
states, stores and published updates, as long as the frames of the writers find
their sender registered, and the checks whether there is anyone find someone, in
both runs or in neither. -/
theorem Actor.readOnly_cannot_write :
    (∀ (w : World Y) (o : Ambient) (connId : Nat) (data : Bytes) (conn : ConnHandle),
      w.connections.get? connId = some conn → conn.readOnly = true →
      (w.handleClientFrame o connId data).view = w.view) ∧
    ∀ (cfg : Configuration) (name : String) (doc : Y.Doc) (queues : Queues) (ro : Nat → Bool)
      (ls : List Label) (b : Actor Y),
      Actor.Run cfg (Actor.spawn name doc queues) ls b → (∀ l ∈ ls, l.marks ro = true) →
      Actor.AgreesAlong cfg ro false (Actor.spawn name doc queues) (Actor.spawn name doc queues)
        ls →
      ∃ b', Actor.Run cfg (Actor.spawn name doc queues) (withoutReadOnly ro false ls) b' ∧
        b'.world.toContent = b.world.toContent ∧
        documentStates b'.world.history = documentStates b.world.history ∧
        acceptedStates b'.world.history = acceptedStates b.world.history ∧
        RedisScaling.published name b'.world.history
          = RedisScaling.published name b.world.history := by
  constructor
  · intro w o connId data conn hconn hreadOnly
    refine World.readOnly_quiet fun conn' hconn' => ?_
    obtain rfl := Option.some.inj (hconn.symm.trans hconn')
    exact hreadOnly
  · intro cfg name doc queues ro ls b hrun hmarks hagrees
    obtain ⟨b', hrun', hgist⟩ := (Actor.alike_spawn ro name doc queues).run hrun hmarks hagrees
    exact ⟨b', hrun', congrArg View.content hgist, filterMap_gist (fun e => by cases e <;> rfl) hgist,
      filterMap_gist (fun e => by cases e <;> rfl) hgist,
      filterMap_gist (fun e => by cases e <;> rfl) hgist⟩

/-! ## A reader and a writer -/

/-- The second connection is read-only. -/
def readers (id : Nat) : Bool := id == 2

/-- A reader announces itself; `clock` counts its announcements. -/
def announce (clock : Nat) : Label :=
  .command (.clientFrame 2 (World.presenceFrame OneWriter.yrs "doc" [⟨7, clock, "{}"⟩])) {}

/-- A writer and a reader join. -/
def bothJoin : List Label :=
  [.command (.addConnection (OneWriter.conn 1) 0) {},
    .command (.addConnection { OneWriter.conn 2 with readOnly := true } 1) {}]

/-- The writer edits. -/
def writerEdits : List Label :=
  [.command (.clientFrame 1 (OneWriter.editFrame 0)) { now := 5 }, .flush []]

instance World.decidableAgreesOn (w w' : World Y) : ∀ cmd, Decidable (w.AgreesOn w' cmd)
  | .clientFrame .. | .removeConnection _ => inferInstanceAs (Decidable (_ = _))
  | .addConnection .. | .externalFrame .. | .directApply .. => inferInstanceAs (Decidable True)

instance Actor.decidableAgreesOn (a a' : Actor Y) : ∀ l, Decidable (a.AgreesOn a' l)
  | .command cmd o =>
    World.decidableAgreesOn (a.world.withSched o.sched) (a'.world.withSched o.sched) cmd
  | .storeResult _ | .deadline _ => inferInstanceAs (Decidable (_ = _))
  | .flush _ | .mailboxClosed | .storeTask .. | .queues _ => inferInstanceAs (Decidable True)

/-- `AgreesAlong`, decided. -/
def Actor.agreesAlong (cfg : Configuration) (ro : Nat → Bool) :
    Bool → Actor Y → Actor Y → List Label → Bool
  | _, _, _, [] => true
  | inBatch, a, a', l :: ls =>
    if l.kept ro inBatch then
      decide (a.AgreesOn a' l) && (a.step cfg l).all fun b => (a'.step cfg l).all fun b' =>
        agreesAlong cfg ro (l.inBatch ro inBatch) b b' ls
    else (a.step cfg l).all fun b => agreesAlong cfg ro (l.inBatch ro inBatch) b a' ls

theorem Actor.agreesAlong_sound {cfg : Configuration} {ro : Nat → Bool} :
    ∀ {ls : List Label} {inBatch : Bool} {a a' : Actor Y},
      Actor.agreesAlong cfg ro inBatch a a' ls = true →
      Actor.AgreesAlong cfg ro inBatch a a' ls := by
  intro ls
  induction ls with
  | nil => exact fun _ => trivial
  | cons l ls ih =>
    intro inBatch a a' h
    rw [Actor.agreesAlong] at h
    rw [Actor.AgreesAlong]
    split
    next hkeep =>
      rw [if_pos hkeep] at h
      obtain ⟨hagrees, hrest⟩ := Bool.and_eq_true_iff.mp h
      refine ⟨of_decide_eq_true hagrees, fun b b' hb hb' => ih ?_⟩
      rw [hb, Option.all_some, hb', Option.all_some] at hrest
      exact hrest
    next hkeep =>
      rw [if_neg hkeep] at h
      intro b hb
      rw [hb, Option.all_some] at h
      exact ih h

/-- The reader closes with a frame of its own. -/
def readerCloses : List Label :=
  [.command (.clientFrame 2
    ((OutgoingMessage.new OneWriter.yrs "doc").closeMessage OneWriter.yrs "bye").intoBytes) {},
    .flush []]

/-- The writer edits again; then both sockets end, and the document is stored and
unloaded. -/
def bothLeave : List Label :=
  [.command (.clientFrame 1 (OneWriter.editFrame 1)) { now := 6 }, .flush [],
    .command (.removeConnection 2) {}, .flush [],
    .command (.removeConnection 1) { onStoreUnload := [.ok ()] }]

/-- With room in the queues, the reader's announcement makes no difference, and nor
does it that the reader is gone early. -/
theorem Actor.readOnly_cannot_write_announced :
    ∃ b', Actor.Run {} (OneWriter.start 8) (bothJoin ++ writerEdits ++ bothLeave) b' ∧
      acceptedStates b'.world.history = acceptedStates (OneWriter.after {} (OneWriter.start 8)
        (bothJoin ++ [announce 1] ++ writerEdits ++ readerCloses ++ bothLeave)).world.history ∧
      acceptedStates b'.world.history = [OneWriter.encodeUpdate ⟨[0, 1], []⟩] := by
  obtain ⟨b', hrun, _, _, hstored, _⟩ := Actor.readOnly_cannot_write.2 {} "doc"
    OneWriter.yrs.newDoc (OneWriter.queues 8) readers
    (bothJoin ++ [announce 1] ++ writerEdits ++ readerCloses ++ bothLeave) _
    (OneWriter.run_after (by decide +kernel)) (by decide +kernel)
    (Actor.agreesAlong_sound (by decide +kernel))
  exact ⟨b', hrun, hstored, hstored.trans (by decide +kernel)⟩

/-- Each announcement goes to the writer, whose queue of one frame is full after
the first; the second evicts it, and its edit is not applied. -/
theorem Actor.readOnly_evicts_writer :
    ¬ ∀ (cfg : Configuration) (ro : Nat → Bool) (ls : List Label) (b b' : Actor OneWriter.yrs),
      (∀ l ∈ ls, l.marks ro = true) →
      Actor.Run cfg (OneWriter.start cfg.outboundCapacity) ls b →
      Actor.Run cfg (OneWriter.start cfg.outboundCapacity) (withoutReadOnly ro false ls) b' →
      documentStates b'.world.history = documentStates b.world.history := by
  intro hall
  have hsame := hall { outboundCapacity := 1 } readers
    (bothJoin ++ [announce 1, announce 2] ++ writerEdits) _ _ (by decide +kernel)
    (OneWriter.run_after (by decide +kernel)) (OneWriter.run_after (by decide +kernel))
  exact absurd (congrArg List.length hsame) (by decide +kernel)

end Hocuspocus
