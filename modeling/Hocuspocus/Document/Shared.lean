import Hocuspocus.Document.Presence

/-!
# The shared frame

`broadcast_with` builds the frame for the document's own name once and shares
it; a connection with another address gets a frame of its own. `plainBroadcast`
is the loop without this: a fresh frame for everyone. The two do the same
(`broadcastWith_eq_plain`), and `Served` says what that is for one connection,
by the state of its queue at its turn.

The second half follows the frames to the queues: on every send path a frame is
built for the address of the connection it is queued for, so that it parses to
that connection's routing key (`Actor.step_addressed`).
-/

namespace Hocuspocus

variable {Y : Yrs}

namespace World

/-! ## The plain loop -/

/-- The frame of the plain loop. -/
def freshFrame (build : String → Bytes) (conn : ConnHandle) : Bytes := build conn.messageAddress

/-- Everyone gets a fresh frame for their own address. -/
def plainBroadcast (w : World Y) (build : String → Bytes) : World Y :=
  let sent := sendEach (freshFrame build) w w.connections.vals
  sent.1.evictLagging sent.2

theorem sharedFrame_eq (name : String) (build : String → Bytes) :
    sharedFrame name build = freshFrame build := by
  funext conn
  unfold sharedFrame freshFrame
  dsimp only
  split
  next haddr => rw [haddr]
  next => rfl

theorem broadcastWith_eq_plain (w : World Y) (build : String → Bytes) :
    w.broadcastWith build = w.plainBroadcast build := by
  unfold broadcastWith plainBroadcast
  rw [sharedFrame_eq]

/-- The world when a connection's turn comes: those before it have been served. -/
def atTurn (w : World Y) (build : String → Bytes) (before : List ConnHandle) : World Y :=
  (sendEach (freshFrame build) w before).1

/-- What the plain loop does to one connection, by its queue at its turn: one
frame more behind all earlier ones if there is room, nothing and the end of the
connection if it is full, nothing at all if it is closed. -/
structure Served (w : World Y) (build : String → Bytes) (before : List ConnHandle)
    (conn : ConnHandle) : Prop where
  room : ((w.atTurn build before).poll.queues conn.outbound).hasRoom = true →
    ((w.atTurn build (before ++ [conn])).queues conn.outbound).items
      = ((w.atTurn build before).poll.queues conn.outbound).items
        ++ [.frame (build conn.messageAddress)]
  noRoom : ((w.atTurn build before).poll.queues conn.outbound).hasRoom = false →
    (w.atTurn build (before ++ [conn])).queues = (w.atTurn build before).poll.queues
  others : ∀ q, q ≠ conn.outbound →
    (w.atTurn build (before ++ [conn])).queues q = (w.atTurn build before).poll.queues q
  trace : ∃ res, (w.atTurn build (before ++ [conn])).trace = (w.atTurn build before).trace
      ++ [.frame conn.connId conn.outbound (build conn.messageAddress) res] ∧
    (res = .accepted ↔ ((w.atTurn build before).poll.queues conn.outbound).hasRoom = true) ∧
    (res = .full ↔ ((w.atTurn build before).poll.queues conn.outbound).isFull = true)
  stays : (w.plainBroadcast build).connections.get? conn.connId
    = if ((w.atTurn build before).poll.queues conn.outbound).isFull then none else some conn

theorem sendEach_append (frameFor : ConnHandle → Bytes) (before after : List ConnHandle)
    (w : World Y) :
    sendEach frameFor w (before ++ after) =
      ((sendEach frameFor (sendEach frameFor w before).1 after).1,
        (sendEach frameFor w before).2 ++
          (sendEach frameFor (sendEach frameFor w before).1 after).2) := by
  induction before generalizing w with
  | nil => rfl
  | cons conn before ih =>
    rw [List.cons_append, sendEach, sendEach, ih]
    dsimp only
    split <;> rfl

theorem atTurn_snoc (w : World Y) (build : String → Bytes) (before : List ConnHandle)
    (conn : ConnHandle) : w.atTurn build (before ++ [conn])
      = ((w.atTurn build before).sendFrame conn (build conn.messageAddress)).1 := by
  unfold atTurn
  rw [sendEach_append]
  rfl

/-- The send loop collects the ids of connections it has been given. -/
theorem sendEach_ids (frameFor : ConnHandle → Bytes) (conns : List ConnHandle) (w : World Y)
    {id : Nat} (h : id ∈ (sendEach frameFor w conns).2) : id ∈ conns.map ConnHandle.connId := by
  induction conns generalizing w with
  | nil => cases h
  | cons conn rest ih =>
    rw [sendEach] at h
    dsimp only at h
    split at h
    · exact List.mem_cons_of_mem _ (ih _ h)
    · rcases List.mem_cons.mp h with rfl | h
      · exact List.mem_cons_self ..
      · exact List.mem_cons_of_mem _ (ih _ h)

/-- A connection is collected exactly if its queue is full at its turn. -/
theorem mem_sendEach {frameFor : ConnHandle → Bytes} {w : World Y}
    {before rest : List ConnHandle} {conn : ConnHandle}
    (hnodup : ((before ++ conn :: rest).map ConnHandle.connId).Nodup) :
    conn.connId ∈ (sendEach frameFor w (before ++ conn :: rest)).2 ↔
      ((sendEach frameFor w before).1.poll.queues conn.outbound).isFull = true := by
  rw [List.map_append, List.map_cons, List.nodup_middle, List.nodup_cons, List.mem_append,
    not_or] at hnodup
  obtain ⟨⟨hbefore, hrest⟩, _⟩ := hnodup
  generalize hv : (sendEach frameFor w before).1 = v
  have hfull := Channel.trySend_full_iff (v.poll.queues conn.outbound) (.frame (frameFor conn))
  have hsent := sendFrame_snd v conn (frameFor conn)
  rw [trySend_snd] at hsent
  rw [sendEach_append, hv, sendEach, ← hfull]
  dsimp only
  constructor
  · intro h
    rcases List.mem_append.mp h with h | h
    · exact absurd (sendEach_ids _ _ _ h) hbefore
    · by_contra hnot
      rw [hsent, if_pos (decide_eq_true hnot)] at h
      exact hrest (sendEach_ids _ _ _ h)
  · intro h
    rw [hsent, if_neg (by simpa using h)]
    exact List.mem_append_right _ (List.mem_cons_self ..)

theorem plainBroadcast_served (w : World Y) (build : String → Bytes)
    {before rest : List ConnHandle} {conn : ConnHandle}
    (hvals : w.connections.vals = before ++ conn :: rest) : w.Served build before conn := by
  generalize hv : w.atTurn build before = v
  have hqueues : (w.atTurn build (before ++ [conn])).queues = v.poll.queues.set conn.outbound
      ((v.poll.queues conn.outbound).trySend (.frame (build conn.messageAddress))).1 := by
    rw [atTurn_snoc, hv, sendFrame_queues]
  have haccepted := Channel.trySend_accepted_iff (v.poll.queues conn.outbound)
    (.frame (build conn.messageAddress))
  have hfull := Channel.trySend_full_iff (v.poll.queues conn.outbound)
    (.frame (build conn.messageAddress))
  refine ⟨fun hroom => ?_, fun hnone => ?_, fun q hq => ?_, ?_, ?_⟩
  · rw [hv] at hroom ⊢
    rw [hqueues, Queues.set_self]
    exact Channel.trySend_items (haccepted.mpr hroom)
  · rw [hv] at hnone ⊢
    rw [hqueues, Channel.trySend_noRoom _ hnone]
    funext q
    by_cases hq : q = conn.outbound
    · rw [hq, Queues.set_self]
    · rw [Queues.set_ne _ hq]
  · rw [hv, hqueues, Queues.set_ne _ hq]
  · rw [hv]
    refine ⟨_, ?_, haccepted, hfull⟩
    rw [atTurn_snoc, hv, sendFrame_trace]
    rfl
  · have hin : w.connections.get? conn.connId = some conn :=
      Keyed.mem_iff_get?.mpr ⟨by rw [hvals]; exact List.mem_append_right _ (List.mem_cons_self ..),
        rfl⟩
    have hnodup : ((before ++ conn :: rest).map ConnHandle.connId).Nodup := by
      rw [← hvals]
      exact w.connections.nodup
    have hids : conn.connId ∈ (sendEach (freshFrame build) w (before ++ conn :: rest)).2 ↔
        ((w.atTurn build before).poll.queues conn.outbound).isFull = true := mem_sendEach hnodup
    obtain ⟨_, _, _, hgone⟩ := evictLagging_spec (sendEach (freshFrame build) w w.connections.vals).2
      (sendEach (freshFrame build) w w.connections.vals).1
    obtain ⟨_, _, _, _, hconns⟩ := sendEach_spec (freshFrame build) w.connections.vals w
    rw [plainBroadcast, hgone, hconns, hin, hvals]
    exact if_congr hids rfl rfl

/-- Everyone has one turn, and the evictions send closes only. -/
theorem plainBroadcast_trace (w : World Y) (build : String → Bytes) :
    ∃ k, (w.plainBroadcast build).trace = (w.atTurn build w.connections.vals).trace ++ k ∧
      ∀ e ∈ k, e.isClose = true := by
  obtain ⟨k, htrace, hclose, _⟩ :=
    evictLagging_spec (sendEach (freshFrame build) w w.connections.vals).2
      (sendEach (freshFrame build) w w.connections.vals).1
  exact ⟨k, htrace, hclose⟩

open Clocked in
/-- The presence states of those who are removed go, and no others. -/
structure Withdraws {σ : Type} (P : Y.Presence σ) (w : World Y) (build : String → Bytes) : Prop where
  gone : ∀ conn ∈ w.connections.vals, (w.plainBroadcast build).connections.get? conn.connId = none →
    ∀ client ∈ conn.clientIds, present (P.table (w.plainBroadcast build).awareness client) = false
  kept : ∀ client, (∀ conn ∈ w.connections.vals,
      (w.plainBroadcast build).connections.get? conn.connId = none → client ∉ conn.clientIds) →
    P.table (w.plainBroadcast build).awareness client = P.table w.awareness client

theorem plainBroadcast_withdraws {σ : Type} (P : Y.Presence σ) (w : World Y)
    (build : String → Bytes) : w.Withdraws P build := by
  obtain ⟨hconns, hawareness⟩ := w.broadcastWith_leaves build
  rw [broadcastWith_eq_plain] at hconns hawareness
  have hfound : ∀ conn ∈ w.connections.vals,
      (w.plainBroadcast build).connections.get? conn.connId = none →
        conn ∈ w.foundFull build := by
    intro conn hconn hgone
    rw [hconns] at hgone
    split at hgone
    next h =>
      obtain ⟨c, hc, hid⟩ := List.mem_map.mp h
      have hin := (Keyed.mem_iff_get?.mp (foundFull_mem hc)).1
      obtain rfl : c = conn := List.inj_on_of_nodup_map w.connections.nodup hin hconn hid
      exact hc
    next =>
      rw [Keyed.mem_iff_get?.mpr ⟨hconn, rfl⟩] at hgone
      cases hgone
  constructor
  · intro conn hconn hgone client hclient
    rw [hawareness]
    exact removeAll_mem P _ _ (List.mem_flatMap.mpr ⟨conn, hfound conn hconn hgone, hclient⟩)
  · intro client hnone
    rw [hawareness]
    refine removeAll_other P _ _ fun hmem => ?_
    obtain ⟨conn, hconn, hclient⟩ := List.mem_flatMap.mp hmem
    refine hnone conn (Keyed.mem_iff_get?.mp (foundFull_mem hconn)).1 ?_ hclient
    rw [hconns, if_pos (List.mem_map_of_mem hconn)]

end World

/-! ## Frames and their addresses -/

/-- The frame parses to the connection's routing key. -/
def Addressed (Y : Yrs) (conn : ConnHandle) (bytes : Bytes) : Prop :=
  ∃ frame, IncomingFrame.parse Y bytes = some frame ∧ frame.routingKey = conn.messageAddress

/-- Every frame of the builder parses to the address it was built for. -/
def Labels (Y : Yrs) (build : String → Bytes) : Prop :=
  ∀ address, ∃ frame, IncomingFrame.parse Y (build address) = some frame ∧
    frame.routingKey = address

/-- The broadcast goes to connections of `w`, each under its own address. -/
def World.Broadcast.Labelled (w : World Y) (call : Option (World.Broadcast Y)) : Prop :=
  ∀ v build, call = some (v, build) → Shrinks w v ∧ Labels Y build

section Builders

variable (hY : Y.Lib0Laws)

include hY

theorem labels_awareness (update : Bytes) : Labels Y (World.awarenessFrame Y update) :=
  fun address => ⟨_, parse_envelope hY address .awareness (Y.writeBuf update), rfl⟩

theorem labels_sync (msg : SyncMessage Y.StateVector) :
    Labels Y fun address => World.syncFrame Y address msg :=
  fun address => ⟨_, parse_envelope hY address .sync (Y.encodeSync msg), rfl⟩

theorem labels_stateless (payload : String) : Labels Y (World.statelessFrame Y payload) :=
  fun address => ⟨_, parse_envelope hY address .stateless (Y.writeString payload), rfl⟩

theorem labels_status (saved : Bool) :
    Labels Y fun address => World.statusFrame Y address saved :=
  fun address => ⟨_, parse_envelope hY address .syncStatus _, rfl⟩

namespace World

theorem relayBroadcast_labelled (w : World Y) (changed : List Nat) :
    Broadcast.Labelled w (w.relayBroadcast changed) := by
  intro v build h
  obtain ⟨out, _, heq⟩ := Option.map_eq_some_iff.mp h
  cases heq
  exact ⟨Shrinks.of_eq rfl, labels_awareness hY _⟩

theorem removeBroadcast_labelled (w : World Y) (connId : Nat) :
    Broadcast.Labelled w (w.removeBroadcast connId) := by
  intro v build h
  unfold removeBroadcast at h
  split at h
  next => cases h
  next handle _ =>
    dsimp only at h
    split at h
    next => cases h
    next =>
      obtain ⟨update, _, heq⟩ := Option.map_eq_some_iff.mp h
      cases heq
      exact ⟨(w.detach_evicts connId handle).shrinks, labels_awareness hY _⟩

theorem awarenessBroadcast_labelled (w : World Y) (frame : IncomingFrame) (origin : Origin) :
    Broadcast.Labelled w (w.awarenessBroadcast frame origin) := by
  intro v build h
  unfold awarenessBroadcast at h
  split at h
  next => cases h
  next =>
    split at h
    next => cases h
    next update _ =>
      dsimp only at h
      split at h
      next => cases h
      next =>
        obtain ⟨hshrinks, hlabels⟩ := relayBroadcast_labelled hY _ _ v build h
        refine ⟨Shrinks.trans ?_ hshrinks, hlabels⟩
        cases origin with
        | connection connId => exact (w.modify_evicts connId (Y.clients update)).shrinks
        | redis => exact Shrinks.of_eq rfl
        | «local» => exact Shrinks.of_eq rfl

theorem closeBroadcast_labelled (w : World Y) (connId : Nat) (event : CloseEvent) :
    Broadcast.Labelled w (w.closeBroadcast connId event) := by
  intro v build h
  unfold closeBroadcast at h
  split at h
  next conn _ =>
    obtain ⟨hshrinks, hlabels⟩ := removeBroadcast_labelled hY _ _ v build h
    exact ⟨(w.sendClose_evicts conn event).shrinks.trans hshrinks, hlabels⟩
  next => cases h

theorem frameBroadcast_labelled (w : World Y) (connId : Nat) (data : Bytes) :
    Broadcast.Labelled w (w.frameBroadcast connId data) := by
  intro v build h
  unfold frameBroadcast at h
  split at h
  next => cases h
  next =>
    split at h
    next => cases h
    next frame _ =>
      split at h
      next => exact awarenessBroadcast_labelled hY w frame _ v build h
      next => exact closeBroadcast_labelled hY w connId _ v build h
      next => exact closeBroadcast_labelled hY w connId _ v build h
      next => cases h

theorem externalBroadcast_labelled (w : World Y) (data : Bytes) :
    Broadcast.Labelled w (w.externalBroadcast data) := by
  intro v build h
  unfold externalBroadcast at h
  split at h
  next => cases h
  next frame _ =>
    split at h
    next => exact awarenessBroadcast_labelled hY w frame _ v build h
    next =>
      split at h
      next payload _ _ =>
        cases h
        exact ⟨Shrinks.of_eq rfl, labels_stateless hY payload⟩
      next => cases h
    next => cases h

theorem flushBroadcastCall_labelled (w : World Y) :
    Broadcast.Labelled w w.flushBroadcastCall := by
  intro v build h
  unfold flushBroadcastCall at h
  split at h
  next => cases h
  next =>
    split at h
    next => cases h
    next base _ =>
      dsimp only at h
      split at h
      next => cases h
      next =>
        cases h
        exact ⟨Shrinks.of_eq rfl, labels_sync hY _⟩

theorem commandBroadcast_labelled (w : World Y) (cmd : DocCommand) :
    Broadcast.Labelled w (w.commandBroadcast cmd) := by
  cases cmd with
  | clientFrame connId data => exact frameBroadcast_labelled hY w connId data
  | removeConnection connId => exact removeBroadcast_labelled hY w connId
  | externalFrame data reply => exact externalBroadcast_labelled hY w data
  | addConnection | directApply => exact fun v build h => by cases h

/-- What is sent straight to a connection is labelled for it. -/
theorem syncAnswers_addressed (o : Ambient) (w : World Y) (conn : ConnHandle)
    (frame : IncomingFrame) : ∀ bytes ∈ w.syncAnswers o conn frame, Addressed Y conn bytes := by
  intro bytes hbytes
  -- an update and a second sync step are answered alike
  have hstatus : bytes ∈ (if conn.readOnly then [statusFrame Y conn.messageAddress false]
      else if (firstError o.beforeHandleMessage).isNone then
        [statusFrame Y conn.messageAddress true]
      else []) → Addressed Y conn bytes := by
    intro hmem
    split at hmem
    · obtain rfl := List.mem_singleton.mp hmem
      exact labels_status hY _ _
    · split at hmem
      · obtain rfl := List.mem_singleton.mp hmem
        exact labels_status hY _ _
      · cases hmem
  unfold syncAnswers at hbytes
  split at hbytes
  next => cases hbytes
  next =>
    rcases List.mem_pair.mp hbytes with rfl | rfl
    · exact labels_sync hY _ _
    · exact labels_sync hY _ _
  next => exact hstatus hbytes
  next => exact hstatus hbytes

/-- Who is sent something straight is in the map, or joins. -/
theorem directSends_addressed {o : Ambient} {w : World Y} {cmd : DocCommand} {conn : ConnHandle}
    {frames : List Bytes} (h : w.directSends o cmd = some (conn, frames)) :
    (w.connections.get? conn.connId = some conn ∨ ∃ ack, cmd = .addConnection conn ack) ∧
      ∀ bytes ∈ frames, Addressed Y conn bytes := by
  cases cmd with
  | addConnection handle ack =>
    unfold directSends at h
    dsimp only at h
    split at h
    next =>
      obtain ⟨update, _, heq⟩ := Option.map_eq_some_iff.mp h
      cases heq
      refine ⟨Or.inr ⟨ack, rfl⟩, fun bytes hbytes => ?_⟩
      obtain rfl := List.mem_singleton.mp hbytes
      exact labels_awareness hY _ _
    next => cases h
  | clientFrame connId data =>
    unfold directSends frameSends at h
    dsimp only at h
    split at h
    next => cases h
    next conn' hconn =>
      obtain rfl : conn'.connId = connId := Keyed.get?_key hconn
      split at h
      next => cases h
      next frame _ =>
        split at h
        next =>
          cases h
          exact ⟨Or.inl hconn, syncAnswers_addressed hY o w conn frame⟩
        next =>
          cases h
          exact ⟨Or.inl hconn, syncAnswers_addressed hY o w conn frame⟩
        next =>
          obtain ⟨update, _, heq⟩ := Option.map_eq_some_iff.mp h
          cases heq
          refine ⟨Or.inl hconn, fun bytes hbytes => ?_⟩
          obtain rfl := List.mem_singleton.mp hbytes
          exact labels_awareness hY _ _
        next => cases h
  | removeConnection | externalFrame | directApply => cases h

end World

end Builders

/-- The frame is for a connection of the map, or for one that joins, and is
labelled for it. -/
def World.FrameFor (w : World Y) (joins : ConnHandle → Prop) (id q : Nat) (bytes : Bytes) : Prop :=
  ∃ conn, (w.connections.get? id = some conn ∨ joins conn) ∧ conn.connId = id ∧
    conn.outbound = q ∧ Addressed Y conn bytes

namespace World

theorem sendAll_frames (conn : ConnHandle) (frames : List Bytes) (w : World Y) :
    ∃ k, (sendAll conn w frames).trace = w.trace ++ k ∧
      ∀ id q bytes res, Event.frame id q bytes res ∈ k →
        id = conn.connId ∧ q = conn.outbound ∧ bytes ∈ frames := by
  induction frames generalizing w with
  | nil => exact ⟨[], (List.append_nil _).symm, fun _ _ _ _ h => absurd h List.not_mem_nil⟩
  | cons frame frames ih =>
    obtain ⟨k, htrace, hframes⟩ := ih (w.sendFrame conn frame).1
    refine ⟨_ :: k, by rw [sendAll, htrace, sendFrame_trace, List.append_assoc]; rfl, ?_⟩
    intro id q bytes res h
    rcases List.mem_cons.mp h with heq | h
    · injection heq with hid hq hbytes _
      exact ⟨hid, hq, hbytes ▸ List.mem_cons_self ..⟩
    · obtain ⟨hid, hq, hbytes⟩ := hframes id q bytes res h
      exact ⟨hid, hq, List.mem_cons_of_mem _ hbytes⟩

theorem Answers.addressed {conn : ConnHandle} {frames : List Bytes} {w w' : World Y}
    {joins : ConnHandle → Prop} (h : Answers conn frames w w')
    (hconn : w.connections.get? conn.connId = some conn ∨ joins conn)
    (hframes : ∀ bytes ∈ frames, Addressed Y conn bytes) :
    ∃ k, w'.trace = w.trace ++ k ∧
      ∀ id q bytes res, Event.frame id q bytes res ∈ k → w.FrameFor joins id q bytes := by
  obtain ⟨v, k, hsilent, htrace, hk⟩ := h.trace
  obtain ⟨k₀, hbefore, hk₀⟩ := hsilent.trace
  obtain ⟨k₁, hsent, hmem⟩ := sendAll_frames conn frames v
  refine ⟨k₀ ++ (k₁ ++ k), ?_, fun id q bytes res hframe => ?_⟩
  · rw [htrace, hsent, hbefore, List.append_assoc, List.append_assoc]
  · rcases List.mem_append.mp hframe with hframe | hframe
    · cases hk₀ _ hframe
    · rcases List.mem_append.mp hframe with hframe | hframe
      · obtain ⟨rfl, rfl, hbytes⟩ := hmem id q bytes res hframe
        exact ⟨conn, hconn, rfl, rfl, hframes bytes hbytes⟩
      · cases hk _ hframe

theorem Casts.addressed {call : Option (Broadcast Y)} {w w' : World Y}
    (h : Casts call w w') (hlabelled : Broadcast.Labelled w call) (joins : ConnHandle → Prop) :
    ∃ k, w'.trace = w.trace ++ k ∧
      ∀ id q bytes res, Event.frame id q bytes res ∈ k → w.FrameFor joins id q bytes := by
  cases call with
  | none =>
    obtain ⟨k, htrace, hk⟩ := h
    exact ⟨k, htrace, fun id q bytes res hframe => absurd (hk _ hframe) (by simp [Event.isFrame])⟩
  | some b =>
    obtain ⟨v, build⟩ := b
    obtain ⟨hshrinks, hlabels⟩ := hlabelled v build rfl
    obtain ⟨⟨k₁, hbefore, hk₁⟩, ⟨k₂, hafter, hk₂⟩⟩ := h
    obtain ⟨rs, closes, hfst, hcast, hcloses, _⟩ := v.broadcastWith_spec build
    refine ⟨k₁ ++ ((rs.map (offered fun conn => build conn.messageAddress) ++ closes) ++ k₂), ?_, ?_⟩
    · rw [hafter, hcast, hbefore]
      simp only [List.append_assoc]
    · intro id q bytes res hframe
      have hoffer : Event.frame id q bytes res
          ∈ rs.map (offered (Y := Y) fun conn => build conn.messageAddress) := by
        rcases List.mem_append.mp hframe with h | h
        · cases hk₁ _ h
        · rcases List.mem_append.mp h with h | h
          · rcases List.mem_append.mp h with h | h
            · exact h
            · cases hcloses _ h
          · cases hk₂ _ h
      obtain ⟨r, hr, heq⟩ := List.mem_map.mp hoffer
      injection heq with hid hq hbytes _
      have hin : v.connections.get? r.1.connId = some r.1 :=
        Keyed.mem_iff_get?.mpr ⟨hfst ▸ List.mem_map_of_mem hr, rfl⟩
      obtain ⟨conn, hconn, hcore⟩ := hshrinks _ _ hin
      -- the handle may have claimed clients since, the rest of it stays
      have hid' : conn.core.connId = r.1.core.connId := by rw [hcore]
      have hq' : conn.core.outbound = r.1.core.outbound := by rw [hcore]
      have haddress : conn.core.messageAddress = r.1.core.messageAddress := by rw [hcore]
      obtain ⟨frame, hparse, hkey⟩ := hlabels r.1.messageAddress
      exact ⟨conn, Or.inl (hid ▸ hconn), hid'.trans hid, hq'.trans hq, frame, hbytes ▸ hparse,
        hkey.trans haddress.symm⟩

end World

/-- Every frame of the step parses to the routing key of the connection it is
queued for. -/
def Actor.AllAddressed (a b : Actor Y) (l : Label) : Prop :=
  ∀ id q bytes res, Event.frame id q bytes res ∈ a.sent b →
    a.world.FrameFor (fun conn => ∃ ack o, l = .command (.addConnection conn ack) o) id q bytes

/-- **The step lemma.** -/
theorem Actor.step_addressed (hY : Y.Lib0Laws) {cfg : Configuration} {a b : Actor Y} {l : Label}
    (hstep : a.step cfg l = some b) : a.AllAddressed b l := by
  have hsent : (∃ k, b.world.trace = a.world.trace ++ k ∧
      ∀ id q bytes res, Event.frame id q bytes res ∈ k → a.world.FrameFor
        (fun conn => ∃ ack o, l = .command (.addConnection conn ack) o) id q bytes) →
      a.AllAddressed b l := by
    rintro ⟨k, htrace, hframes⟩ id q bytes res h
    rw [Actor.sent_eq htrace] at h
    exact hframes id q bytes res h
  have hsilent : World.Frameless a.world b.world → a.AllAddressed b l := by
    rintro ⟨k, htrace, hk⟩
    exact hsent ⟨k, htrace, fun id q bytes res h => absurd (hk _ h) (by simp [Event.isFrame])⟩
  cases Actor.step_cases hstep with
  | command cmd o n hphase =>
    have hcases := (a.world.withSched o.sched).handleCommand_cases cfg o cmd
    cases hsends : (a.world.withSched o.sched).directSends o cmd with
    | none =>
      exact hsent ((World.handleCommand_casts hsends).addressed
        (World.commandBroadcast_labelled hY _ cmd) _)
    | some sends =>
      obtain ⟨conn, frames⟩ := sends
      rw [hsends] at hcases
      obtain ⟨hconn, hframes⟩ := World.directSends_addressed hY hsends
      refine hsent (hcases.addressed ?_ hframes)
      rcases hconn with hin | ⟨ack, rfl⟩
      · exact Or.inl hin
      · exact Or.inr ⟨ack, o, rfl⟩
  | flush sched phase hphase =>
    exact hsent ((World.flushBroadcast_casts _).addressed (World.flushBroadcastCall_labelled hY _) _)
  | storeResult o ok rest hphase hresults =>
    exact hsilent ((World.takeResult_silent o _ ok rest).trans
      (World.maybeUnload_silent cfg o _)).trace
  | deadline o hphase hdirty hstoring =>
    exact hsilent (World.tick_silent cfg o (a.world.withSched o.sched)).trace
  | mailboxClosed => exact hsilent (World.Frameless.refl _)
  | storeTask i results => exact hsilent (World.finishStore_silent _ _ _).trace
  | queues acts => exact hsilent (World.Frameless.of_eq rfl)

/-- **The shared frame changes nothing**: a broadcast is the plain loop, which
serves each connection by its queue at its turn, sends closes only besides,
removes nobody else and withdraws nobody else's presence; and along every run,
every frame that is queued parses to its own connection's routing key. -/
theorem shared_broadcast_plain {σ : Type} (hY : Y.Lib0Laws) (P : Y.Presence σ) :
    (∀ (w : World Y) (build : String → Bytes),
      w.broadcastWith build = w.plainBroadcast build ∧
      (∀ before conn rest, w.connections.vals = before ++ conn :: rest →
        w.Served build before conn) ∧
      (∃ k, (w.plainBroadcast build).trace = (w.atTurn build w.connections.vals).trace ++ k ∧
        ∀ e ∈ k, e.isClose = true) ∧
      (∀ id, w.connections.get? id = none →
        (w.plainBroadcast build).connections.get? id = none) ∧
      w.Withdraws P build) ∧
    ∀ (cfg : Configuration) (a : Actor Y) (ls : List Label),
      Lts.Along (Actor.step cfg) (fun a l b => a.AllAddressed b l) a ls := by
  refine ⟨fun w build => ⟨w.broadcastWith_eq_plain build,
    fun before conn rest hvals => w.plainBroadcast_served build hvals,
    w.plainBroadcast_trace build, fun id hnone => ?_, w.plainBroadcast_withdraws P build⟩,
    fun cfg a ls => ?_⟩
  · rw [← w.broadcastWith_eq_plain build]
    exact (w.broadcastWith_evicts build).shrinks.none hnone
  · have hstep : ∀ a l b, Actor.step cfg a l = some b → Actor.AllAddressed (Y := Y) a b l :=
      fun a l b hstep => Actor.step_addressed hY hstep
    exact Lts.along_of_forall hstep ls a

/-- Two sessions of one socket, whose queue has room for one frame. -/
def oneSocket : World OneWriter.yrs :=
  (OneWriter.after {} (OneWriter.start 1)
    [.command (.addConnection (OneWriter.conn 1) 0) {},
      .command (.addConnection
        { OneWriter.conn 2 with outbound := 1, messageAddress := "doc\x00s1" } 1) {}]).world

/-- The session served first fills the queue, and the other one is removed. -/
theorem shared_broadcast_plain_sessions :
    oneSocket.broadcastWith (World.statelessFrame OneWriter.yrs "hi")
        = oneSocket.plainBroadcast (World.statelessFrame OneWriter.yrs "hi") ∧
      (oneSocket.plainBroadcast (World.statelessFrame OneWriter.yrs "hi")).connections.get? 1
        = none := by
  obtain ⟨hplain, hserved, _⟩ := (shared_broadcast_plain OneWriter.lib0Laws OneWriter.presence).1
    oneSocket (World.statelessFrame OneWriter.yrs "hi")
  have hvals : oneSocket.connections.vals =
      [{ OneWriter.conn 2 with outbound := 1, messageAddress := "doc\x00s1" }] ++
        OneWriter.conn 1 :: [] := by
    decide +kernel
  have hfull : ((oneSocket.atTurn (World.statelessFrame OneWriter.yrs "hi")
      [{ OneWriter.conn 2 with outbound := 1, messageAddress := "doc\x00s1" }]).poll.queues
        (OneWriter.conn 1).outbound).isFull = true := by
    decide +kernel
  exact ⟨hplain, (hserved _ _ _ hvals).stays.trans (if_pos hfull)⟩

end Hocuspocus
