import Hocuspocus.Document.ReadOnly
import Hocuspocus.Document.Status

/-!
# Where an applied update comes from

`apply_and_broadcast` has three callers: a `Sync` frame of a connection, a `Sync`
frame of the Redis subscriber, a `DirectApply`. `Actor.Brings` says with what each
of them brings an update; of a connection that is a writable entry of the map and
hooks that have let the update pass. `Actor.step_applied` is the converse over all
steps: an `applied` event that is new was brought so. Everything else an actor does
is `AppliesOnly` nothing.
-/

namespace Hocuspocus

variable {Y : Yrs}

/-- What is newly applied in `w'` satisfies `P`. -/
def AppliesOnly (P : Bytes → Origin → Prop) (w w' : World Y) : Prop :=
  ∀ update origin doc, .applied update origin doc ∈ w'.history →
    .applied update origin doc ∈ w.history ∨ P update origin

namespace AppliesOnly

variable {P Q : Bytes → Origin → Prop} {w w₁ w₂ w₃ : World Y}

/-- The history of content events decides. -/
theorem of_history (h : w₂.history = w₁.history) : AppliesOnly P w₁ w₂ :=
  fun _ _ _ hmem => Or.inl (h ▸ hmem)

theorem of_view (h : w₂.view = w₁.view) : AppliesOnly P w₁ w₂ := of_history (congrArg View.history h)

theorem trans (h₁ : AppliesOnly P w₁ w₂) (h₂ : AppliesOnly P w₂ w₃) : AppliesOnly P w₁ w₃ := by
  intro update origin doc hmem
  rcases h₂ update origin doc hmem with hold | hnew
  · exact h₁ update origin doc hold
  · exact Or.inr hnew

/-- What is known of the updates may be weakened. -/
theorem mono (h : AppliesOnly P w₁ w₂) (hPQ : ∀ update origin, P update origin → Q update origin) :
    AppliesOnly Q w₁ w₂ :=
  fun update origin doc hmem => (h update origin doc hmem).imp_right (hPQ update origin)

theorem of_append {k : List (Event Y)} (h : w₂.history = w₁.history ++ k)
    (hk : ∀ update origin doc, .applied update origin doc ∈ k → P update origin) :
    AppliesOnly P w₁ w₂ := by
  intro update origin doc hmem
  rw [h] at hmem
  exact (List.mem_append.mp hmem).imp_right (hk update origin doc)

/-- The event is about a store or an unload, or a hook. -/
theorem emit {e : Event Y} (he : ∀ update origin doc, e ≠ .applied update origin doc) :
    AppliesOnly P w (w.emit e) := by
  cases hcontent : e.isContent with
  | true =>
    refine of_append (World.history_emit w hcontent) fun update origin doc hmem => ?_
    exact absurd (List.mem_singleton.mp hmem).symm (he update origin doc)
  | false => exact of_view (w.emit_quiet hcontent).view

end AppliesOnly

namespace World

variable {P : Bytes → Origin → Prop}

/-! ## What applies an update -/

theorem noteChange_applies (o : Ambient) (w : World Y) (baseBefore : Option Y.StateVector)
    (computed : Bytes) (origin : Origin) :
    AppliesOnly P w (w.noteChange o baseBefore computed origin) := by
  unfold noteChange
  split
  · exact .of_history rfl
  · dsimp only
    refine AppliesOnly.trans (.of_history ?_) (.emit fun _ _ _ h => by cases h)
    rfl

/-- It applies the update it is given, under the origin it is given. -/
theorem applyAndBroadcast_applies (o : Ambient) (w : World Y) (update : Bytes) (origin : Origin) :
    AppliesOnly (fun u by' => u = update ∧ by' = origin) w
      (w.applyAndBroadcast o update origin) := by
  unfold applyAndBroadcast
  dsimp only
  split
  next => exact .of_history rfl
  next u hdec =>
    split
    · exact .of_history rfl
    · have happlied : AppliesOnly (fun u by' => u = update ∧ by' = origin) w
          (World.emit { w with doc := (Y.applyUpdate w.doc u).1 }
            (.applied update origin (Y.applyUpdate w.doc u).1)) := by
        refine .of_append (history_emit _ rfl) fun u' by' doc hmem => ?_
        cases List.mem_singleton.mp hmem
        exact ⟨rfl, rfl⟩
      exact happlied.trans (noteChange_applies o _ _ _ origin)

/-- A connection's update is applied if the hooks let it pass, and marked as that
connection's. -/
theorem receiveUpdate_applies (o : Ambient) (w : World Y) (connId : Nat) (address : String)
    (update : Bytes) :
    AppliesOnly (fun u origin => (u = update ∧ origin = .connection connId) ∧
        firstError o.beforeHandleMessage = none) w
      (w.receiveUpdate o connId address update) := by
  have hasked : ∀ {P : Bytes → Origin → Prop}, AppliesOnly P w
      (w.emit (.beforeHandleMessage update (.connection connId) w.connections.size)) :=
    .emit fun _ _ _ h => by cases h
  unfold receiveUpdate beforeHandleMessage
  dsimp only
  cases hhook : firstError o.beforeHandleMessage with
  | some e =>
    dsimp only
    rw [if_neg Bool.false_ne_true]
    exact hasked.trans (.of_view (rejectMessage_quiet _ _ _).view)
  | none =>
    dsimp only
    rw [if_pos rfl]
    have happlies := applyAndBroadcast_applies o
      (w.emit (.beforeHandleMessage update (.connection connId) w.connections.size)) update
      (.connection connId)
    exact (hasked.trans (happlies.mono fun _ _ h => ⟨h, rfl⟩)).trans
      (.of_view (sendSyncStatus_quiet _ _ _ _).view)

/-- A frame that carries no update leaves the content alone. -/
theorem handleClientFrame_plain (o : Ambient) (w : World Y) (connId : Nat) {data : Bytes}
    (hplain : carriedUpdate Y data = none) : (w.handleClientFrame o connId data).view = w.view := by
  unfold carriedUpdate at hplain
  unfold handleClientFrame
  split
  next => rfl
  next conn hconn =>
    split
    next => rfl
    next frame hparse =>
      rw [hparse] at hplain
      have hsync : (Y.decodeSync frame.decoder).bind SyncMessage.payload = none →
          (w.handleSync o conn conn.messageAddress (.connection connId) frame).view = w.view := by
        intro hnone
        unfold handleSync
        split
        next => rfl
        next => exact ((w.sendFrame_quiet _ _).trans (sendFrame_quiet _ _ _)).view
        next update hupdate =>
          rw [hupdate] at hnone
          cases hnone
        next update hupdate =>
          rw [hupdate] at hnone
          cases hnone
      dsimp only at hplain ⊢
      cases htype : frame.messageType with
      | sync | syncReply =>
        rw [htype] at hplain
        exact hsync hplain
      | awareness => exact (w.handleAwareness_quiet _ _).view
      | queryAwareness => exact (w.replyQueryAwareness_quiet _ _).view
      | stateless => exact (w.handleStateless_quiet _ _).view
      | close | broadcastStateless => exact (w.closeConnection_quiet _ _).view
      | auth | syncStatus | ping | pong => rfl

/-- A writable connection brings the update of its frame, if the hooks let it pass. -/
def Admits (w : World Y) (o : Ambient) (connId : Nat) (data : Bytes) (update : Bytes)
    (origin : Origin) : Prop :=
  (∃ conn, w.connections.get? connId = some conn ∧ conn.readOnly = false) ∧
    carriedUpdate Y data = some update ∧ firstError o.beforeHandleMessage = none ∧
    origin = .connection connId

/-- A client's frame applies what the map and the hooks admit. -/
theorem handleClientFrame_applies (o : Ambient) (w : World Y) (connId : Nat) (data : Bytes) :
    AppliesOnly (w.Admits o connId data) w (w.handleClientFrame o connId data) := by
  cases hupdate : carriedUpdate Y data with
  | none => exact .of_view (handleClientFrame_plain o w connId hupdate)
  | some update =>
    by_cases hreadOnly : ∀ conn, w.connections.get? connId = some conn → conn.readOnly = true
    · exact .of_view (readOnly_quiet hreadOnly)
    · obtain ⟨conn, hnot⟩ := not_forall.mp hreadOnly
      obtain ⟨hconn, hwrites⟩ := Classical.not_imp.mp hnot
      have hwritable : conn.readOnly = false := Bool.eq_false_iff.mpr hwrites
      rw [handleClientFrame_update o hconn hwritable hupdate]
      refine (receiveUpdate_applies o w connId conn.messageAddress update).mono
        fun u origin h => ⟨⟨conn, hconn, hwritable⟩, ?_, h.2, h.1.2⟩
      rw [hupdate, h.1.1]

/-- A frame of another node applies the update it carries, marked as Redis's. -/
theorem handleExternalFrame_applies (o : Ambient) (w : World Y) (data : Bytes) (reply : Bool) :
    AppliesOnly (fun u origin => carriedUpdate Y data = some u ∧ origin = .redis) w
      (w.handleExternalFrame o data reply) := by
  unfold handleExternalFrame
  split
  next => exact .of_history rfl
  next frame hparse =>
    have hsync : (frame.messageType = .sync ∨ frame.messageType = .syncReply) →
        AppliesOnly (fun u origin => carriedUpdate Y data = some u ∧ origin = .redis) w
          (w.handleExternalSync o frame .redis reply) := by
      intro htype
      have hcarried : carriedUpdate Y data
          = (Y.decodeSync frame.decoder).bind SyncMessage.payload := by
        unfold carriedUpdate
        rw [hparse]
        rcases htype with htype | htype <;> simp only [htype]
      have happlies : ∀ {update : Bytes} {msg : SyncMessage Y.StateVector},
          Y.decodeSync frame.decoder = some msg → msg.payload = some update →
          AppliesOnly (fun u origin => carriedUpdate Y data = some u ∧ origin = .redis) w
            (w.applyAndBroadcast o update .redis) := by
        intro update msg hmsg hpayload
        refine (applyAndBroadcast_applies o w update .redis).mono fun u origin h => ⟨?_, h.2⟩
        rw [hcarried, hmsg, Option.bind_some, hpayload, h.1]
      unfold handleExternalSync
      split
      next => exact .of_history rfl
      next =>
        split
        · exact .emit fun _ _ _ h => by cases h
        · exact .of_history rfl
      next update hupdate => exact happlies hupdate rfl
      next update hupdate => exact happlies hupdate rfl
    dsimp only
    cases htype : frame.messageType with
    | sync => exact hsync (Or.inl htype)
    | syncReply => exact hsync (Or.inr htype)
    | awareness => exact .of_view (w.handleAwareness_quiet _ _).view
    | queryAwareness =>
      dsimp only
      split
      · split
        · exact .emit fun _ _ _ h => by cases h
        · exact .of_history rfl
      · exact .of_history rfl
    | broadcastStateless =>
      dsimp only
      split
      · exact .of_view (w.broadcastWith_quiet _).view
      · exact .of_history rfl
    | auth | stateless | close | syncStatus | ping | pong => exact .of_history rfl

/-! ## What applies none -/

/-- Stores, their results and the unload apply nothing. -/
theorem runStore_applies (results : List HookResult) (w : World Y) :
    AppliesOnly P w (w.runStore results) := by
  have hstored : ∀ {state : Bytes} {ok : Bool},
      AppliesOnly P w ((w.emit (.snapshot state)).emit (.stored state ok)) :=
    AppliesOnly.trans (.emit fun _ _ _ h => by cases h) (.emit fun _ _ _ h => by cases h)
  unfold runStore
  split
  · exact .of_history rfl
  · dsimp only
    split
    · exact hstored.trans (.of_history rfl)
    · exact hstored

theorem spawnStore_applies (w : World Y) : AppliesOnly P w w.spawnStore := by
  unfold spawnStore
  split
  · exact .of_history rfl
  · dsimp only
    refine AppliesOnly.trans (.of_history ?_) (.emit fun _ _ _ h => by cases h)
    rfl

theorem finishStore_applies (w : World Y) (i : Nat) (results : List HookResult) :
    AppliesOnly P w (w.finishStore i results) := by
  unfold finishStore
  split
  · exact .of_history rfl
  next state htask =>
    have hstored : ∀ {ok : Bool}, AppliesOnly P w (w.emit (.stored state ok)) :=
      .emit fun _ _ _ h => by cases h
    exact hstored.trans (.of_history rfl)

theorem maybeUnload_applies (cfg : Configuration) (o : Ambient) (w : World Y) :
    AppliesOnly P w (w.maybeUnload cfg o).1 := by
  have hstored : AppliesOnly P w (w.storeIfDirty o.onStoreUnload) := by
    unfold storeIfDirty
    split
    · exact w.runStore_applies o.onStoreUnload
    · exact .of_history rfl
  rcases w.maybeUnload_cases cfg o with hstay | ⟨_, _, _, heq⟩
  · rw [hstay]
    exact .of_history rfl
  · rw [heq]
    split
    · exact hstored.trans (.emit fun _ _ _ h => by cases h)
    · exact (hstored.trans (.emit fun _ _ _ h => by cases h)).trans
        (.emit fun _ _ _ h => by cases h)

theorem takeResult_applies (o : Ambient) (w : World Y) (ok : Bool) (rest : List Bool) :
    AppliesOnly P w (w.takeResult o ok rest) := by
  unfold takeResult
  dsimp only
  split <;> exact .of_history rfl

theorem tick_applies (cfg : Configuration) (o : Ambient) (w : World Y) :
    AppliesOnly P w (w.tick cfg o).1 := by
  unfold tick
  split
  · exact (w.runStore_applies o.onStore).trans (maybeUnload_applies cfg o _)
  · exact w.spawnStore_applies

end World

/-! ## One step -/

/-- The step brings an update to the actor, and what it has to be for that. -/
inductive Actor.Brings (a : Actor Y) : Label → Bytes → Origin → Prop
  | client (connId : Nat) (data : Bytes) (o : Ambient) (conn : ConnHandle) (update : Bytes)
    (hconn : a.world.connections.get? connId = some conn) (hwritable : conn.readOnly = false)
    (hcarried : carriedUpdate Y data = some update)
    (hpassed : firstError o.beforeHandleMessage = none) :
    Brings a (.command (.clientFrame connId data) o) update (.connection connId)
  | external (data : Bytes) (reply : Bool) (o : Ambient) (update : Bytes)
    (hcarried : carriedUpdate Y data = some update) :
    Brings a (.command (.externalFrame data reply) o) update .redis
  | direct (update : Bytes) (ack : Nat) (o : Ambient) :
    Brings a (.command (.directApply update ack) o) update .local

/-- **Whatever is applied was brought.** -/
theorem Actor.step_applied {cfg : Configuration} {a b : Actor Y} {l : Label}
    (hstep : a.step cfg l = some b) : AppliesOnly (a.Brings l) a.world b.world := by
  have hsched : ∀ {sched : List (List QueueAct)} {w : World Y},
      AppliesOnly (a.Brings l) (a.world.withSched sched) w → AppliesOnly (a.Brings l) a.world w :=
    fun h => AppliesOnly.trans (.of_history rfl) h
  cases Actor.step_cases hstep with
  | command cmd o n hphase =>
    refine @hsched o.sched _ ?_
    cases cmd with
    | addConnection handle ack =>
      exact AppliesOnly.trans (.of_view (World.addConnection_quiet _ o.order handle).view)
        (.emit fun _ _ _ h => by cases h)
    | clientFrame connId data =>
      refine ((a.world.withSched o.sched).handleClientFrame_applies o connId data).mono ?_
      rintro update origin ⟨⟨conn, hconn, hwritable⟩, hcarried, hpassed, rfl⟩
      exact .client connId data o conn update hconn hwritable hcarried hpassed
    | removeConnection connId =>
      exact AppliesOnly.trans (.of_view (World.removeConnection_quiet _ connId).view)
        (World.maybeUnload_applies cfg o _)
    | externalFrame data reply =>
      refine ((a.world.withSched o.sched).handleExternalFrame_applies o data reply).mono ?_
      rintro update origin ⟨hcarried, rfl⟩
      exact .external data reply o update hcarried
    | directApply update ack =>
      refine AppliesOnly.trans ?_ (.emit fun _ _ _ h => by cases h)
      refine ((a.world.withSched o.sched).applyAndBroadcast_applies o update .local).mono ?_
      rintro _ _ ⟨rfl, rfl⟩
      exact .direct _ ack o
  | flush sched phase hphase =>
    exact .of_history (congrArg View.history (World.flushBroadcast_flushes
      (a.world.withSched sched)).view)
  | storeResult o ok rest hphase hresults =>
    exact hsched ((World.takeResult_applies o _ ok rest).trans (World.maybeUnload_applies cfg o _))
  | deadline o hphase hdirty hstoring => exact hsched (World.tick_applies cfg o _)
  | mailboxClosed => exact .of_history rfl
  | storeTask i results hi => exact World.finishStore_applies _ i results
  | queues acts => exact .of_history rfl

end Hocuspocus
