import Hocuspocus.OneWriter.Presence
import Hocuspocus.Document.Disconnect

/-!
# Presence and those who leave

`Act.run_leaves` describes what an act does to the presence table in two
parts: an announcement arrives (`Act.arrived`), and then the states claimed by
those who leave are removed (`Act.gone`): whoever is dismissed by the act
itself, and whoever its broadcast finds full. `Actor.step_leaves` says the
same of a step.

The order matters. A presence frame is applied and its clients are claimed for the
connection before the relay goes out, and the relay can evict that very connection:
what it has announced a moment ago is then removed again. So the two parts are stated
on the handles as they are before anyone leaves (`Act.settled`), in which the new
claims are there already. `handleAwareness_cases` and `removeConnection_cases` are the
inversions the two handlers with presence need, one case for each way through the
source; each says what is broadcast, if anything is, so that the evicted are those
`World.foundFull` finds for that broadcast.

What removals do to a table under the clock rules stands at the end. A removal makes
the client absent and never takes its clock back, and that is all that is known: the
clock of a client that was absent already may rise as well.
-/

namespace Hocuspocus

variable {Y : Yrs}

/-! ## Arrivals and departures -/

/-- The presence update a frame carries. -/
def presenceIn (Y : Yrs) (frame : IncomingFrame) : Option Y.AwarenessUpdate :=
  (Y.readBuf frame.decoder).1.bind Y.decodeAwareness

namespace Act

/-- The presence table before anyone leaves. -/
def arrived (w : World Y) : Act → Y.Awareness
  | .present frame _ =>
    ((presenceIn Y frame).map fun u => (Y.applyAwareness w.awareness u).1).getD
      w.awareness
  | _ => w.awareness

/-- What the act announces, and for which connection. -/
def announces (w : World Y) : Act → Option (Nat × Y.AwarenessUpdate)
  | .present frame (.connection connId) =>
    ((presenceIn Y frame).filter fun u => (Y.applyAwareness w.awareness u).2).map
      fun u => (connId, u)
  | _ => none

/-- The connections before anyone leaves. -/
def settled (w : World Y) : Act → Keyed ConnHandle.connId
  | .join order handle => w.connections.insert order handle
  | .present frame origin =>
    match Act.announces w (.present frame origin) with
    | some (connId, u) =>
      w.connections.modify connId (World.claimClients (Y.clients u))
        (World.claimClients_connId (Y.clients u))
    | none => w.connections
  | _ => w.connections

/-- Who is asked to leave. -/
def dismissed (w : World Y) : Act → List ConnHandle
  | .leave connId => (w.connections.get? connId).toList
  | _ => []

end Act

/-- Whom a broadcast evicts, with what they have claimed. -/
def World.Broadcast.found : Option (World.Broadcast Y) → List ConnHandle
  | none => []
  | some (v, build) => v.foundFull build

def Act.gone (w : World Y) (act : Act) : List ConnHandle :=
  act.dismissed w ++ World.Broadcast.found (act.call w)

/-- Remove the states of each of the clients. -/
def removeAll (Y : Yrs) (ids : List Nat) (a : Y.Awareness) : Y.Awareness :=
  ids.foldl Y.removeState a

/-- States are removed one after the other. -/
theorem removeAll_append (ids ids' : List Nat) (a : Y.Awareness) :
    removeAll Y (ids ++ ids') a = removeAll Y ids' (removeAll Y ids a) := List.foldl_append

/-- A connection is responsible for what it was responsible for and for every client
it has just announced. -/
theorem mem_claimClients {k : Nat} (changed : List Nat) (conn : ConnHandle) :
    k ∈ (World.claimClients changed conn).clientIds ↔ k ∈ conn.clientIds ∨ k ∈ changed := by
  unfold World.claimClients
  dsimp only
  generalize conn.clientIds = ids
  induction changed generalizing ids with
  | nil => simp
  | cons c changed ih =>
    rw [List.foldl_cons, ih, List.mem_insert_iff, List.mem_cons]
    constructor
    · rintro ((h | h) | h)
      · exact Or.inr (Or.inl h)
      · exact Or.inl h
      · exact Or.inr (Or.inr h)
    · rintro (h | h | h)
      · exact Or.inl (Or.inr h)
      · exact Or.inl (Or.inl h)
      · exact Or.inr h

namespace World

/-- To send a frame does not touch the presence table. -/
theorem sendEach_awareness (frameFor : ConnHandle → Bytes) (conns : List ConnHandle) (w : World Y) :
    (sendEach frameFor w conns).1.awareness = w.awareness := by
  induction conns generalizing w with
  | nil => rfl
  | cons conn rest ih => exact (ih _).trans w.poll_awareness

/-- The eviction loop removes the states of whoever it evicts. On the list of the
evicted, each of whom is still registered when its turn comes. -/
theorem evictLagging_awareness (conns : List ConnHandle) (w : World Y)
    (hin : ∀ conn ∈ conns, w.connections.get? conn.connId = some conn)
    (hnodup : (conns.map ConnHandle.connId).Nodup) :
    (w.evictLagging (conns.map ConnHandle.connId)).awareness
      = removeAll Y (conns.flatMap ConnHandle.clientIds) w.awareness := by
  induction conns generalizing w with
  | nil => rfl
  | cons conn rest ih =>
    obtain ⟨hnew, hrest⟩ := List.nodup_cons.mp hnodup
    have hself := hin conn (List.mem_cons_self ..)
    have hstill : ∀ c ∈ rest, ((w.detach conn.connId conn).sendClose conn
        resetConnection).connections.get? c.connId = some c := by
      intro c hc
      have hne : c.connId ≠ conn.connId := fun he => hnew (he ▸ List.mem_map_of_mem hc)
      rw [sendClose_connections, detach_connections, Keyed.get?_erase, if_neg hne]
      exact hin c (List.mem_cons_of_mem _ hc)
    rw [List.map_cons, evictLagging, evict_some hself, ih _ hstill hrest, List.flatMap_cons,
      removeAll_append]
    exact congrArg (removeAll Y _) (poll_awareness _)

/-- Whoever a broadcast finds full is registered. -/
theorem foundFull_mem {w : World Y} {build : String → Bytes} {conn : ConnHandle}
    (h : conn ∈ w.foundFull build) : w.connections.get? conn.connId = some conn :=
  Keyed.mem_iff_get?.mpr ⟨(foundFull_sublist _ _).subset h, rfl⟩

/-- Those a broadcast finds full are gone, and what they claimed is removed. -/
theorem broadcastWith_leaves (w : World Y) (build : String → Bytes) :
    (∀ id, (w.broadcastWith build).connections.get? id
      = if id ∈ (w.foundFull build).map ConnHandle.connId then none
        else w.connections.get? id) ∧
    (w.broadcastWith build).awareness
      = removeAll Y ((w.foundFull build).flatMap ConnHandle.clientIds) w.awareness := by
  refine ⟨w.broadcastWith_foundFull build, ?_⟩
  obtain ⟨_, _, _, _, hconns⟩ := sendEach_spec (sharedFrame w.name build) w.connections.vals w
  have hsub := w.foundFull_sublist build
  rw [broadcastWith_eq, evictLagging_awareness _ _ (fun conn hconn => by rw [hconns]; exact foundFull_mem hconn)
    ((hsub.map ConnHandle.connId).nodup w.connections.nodup), sendEach_awareness]

/-- A relay is one broadcast, or none. -/
theorem relayAwareness_leaves (w : World Y) (changed : List Nat) (origin : Origin) :
    (∀ id, (w.relayAwareness changed origin).connections.get? id
      = if id ∈ (Broadcast.found (w.relayBroadcast changed)).map ConnHandle.connId then none
        else w.connections.get? id) ∧
    (w.relayAwareness changed origin).awareness
      = removeAll Y ((Broadcast.found (w.relayBroadcast changed)).flatMap ConnHandle.clientIds)
        w.awareness := by
  unfold relayAwareness relayBroadcast
  cases Y.updateWithClients w.awareness changed with
  | none => exact ⟨fun id => (if_neg List.not_mem_nil).symm, rfl⟩
  | some out => exact w.broadcastWith_leaves (awarenessFrame Y (Y.encodeAwareness out))

end World

/-- What an act leaves behind: the connections without those who are gone, and
the presence table without what they claimed. -/
structure Leaves (act : Act) (w w' : World Y) : Prop where
  connections : ∀ id, w'.connections.get? id
    = if id ∈ (act.gone w).map ConnHandle.connId then none else (act.settled w).get? id
  awareness : w'.awareness
    = removeAll Y ((act.gone w).flatMap ConnHandle.clientIds) (act.arrived w)
  gone : ∀ conn ∈ act.gone w, (act.settled w).get? conn.connId = some conn

/-- Nobody is gone. -/
theorem Leaves.of_none {act : Act} {w w' : World Y} (hgone : act.gone w = [])
    (hconns : ∀ id, w'.connections.get? id = (act.settled w).get? id)
    (hawareness : w'.awareness = act.arrived w) : Leaves act w w' := by
  refine ⟨fun id => ?_, ?_, ?_⟩
  · rw [hgone, hconns]
    exact (if_neg List.not_mem_nil).symm
  · rw [hgone, hawareness]
    rfl
  · rw [hgone]
    exact nofun

namespace World

/-- The frame announces nothing: it cannot be read, or its update is refused. -/
structure Unannounced (w : World Y) (frame : IncomingFrame) (origin : Origin) : Prop where
  refused : ∀ update, presenceIn Y frame = some update →
    (Y.applyAwareness w.awareness update).2 = false
  broadcast : w.awarenessBroadcast frame origin = none
  run : w.handleAwareness frame origin
    = { w with awareness := Act.arrived w (.present frame origin) }
  settled : Act.settled w (.present frame origin) = w.connections

/-- The frame announces the update: the rest of the handler is the relay, in
the world `v`. -/
structure Announced (w : World Y) (frame : IncomingFrame) (origin : Origin)
    (update : Y.AwarenessUpdate) (v : World Y) : Prop where
  read : presenceIn Y frame = some update
  accepted : (Y.applyAwareness w.awareness update).2 = true
  connections : v.connections = Act.settled w (.present frame origin)
  awareness : v.awareness = Act.arrived w (.present frame origin)
  trace : v.trace = w.trace
  broadcast : w.awarenessBroadcast frame origin = v.relayBroadcast (Y.clients update)
  run : w.handleAwareness frame origin = v.relayAwareness (Y.clients update) origin

/-- A frame that cannot be read or whose update is refused announces nothing, whoever
sends it. -/
theorem announces_none {w : World Y} {frame : IncomingFrame}
    (h : ∀ update, presenceIn Y frame = some update →
      (Y.applyAwareness w.awareness update).2 = false) (origin : Origin) :
    Act.announces w (.present frame origin) = none := by
  have hfilter : (presenceIn Y frame).filter (fun u => (Y.applyAwareness w.awareness u).2) = none := by
    rw [Option.filter_eq_none_iff]
    exact fun u hu => Bool.not_eq_true _ ▸ h u hu
  cases origin with
  | connection connId => exact congrArg (Option.map fun u => (connId, u)) hfilter
  | redis => rfl
  | «local» => rfl

/-- A presence frame announces an update or it does not, and there are no other cases.
By the decoding of the buffer, of the update, and by whether the update is accepted. -/
theorem handleAwareness_cases (w : World Y) (frame : IncomingFrame) (origin : Origin) :
    w.Unannounced frame origin ∨ ∃ update v, w.Announced frame origin update v := by
  cases hread : presenceIn Y frame with
  | none =>
    refine Or.inl ?_
    have hrefused : ∀ update, presenceIn Y frame = some update →
        (Y.applyAwareness w.awareness update).2 = false := fun update h => by
      rw [hread] at h
      cases h
    have harrived : Act.arrived w (.present frame origin) = w.awareness := by
      rw [Act.arrived, hread]
      rfl
    -- the payload is no byte string, or its bytes are no awareness update
    have hquiet : w.handleAwareness frame origin = w ∧
        w.awarenessBroadcast frame origin = none := by
      unfold presenceIn at hread
      unfold handleAwareness awarenessBroadcast
      cases hbuf : Y.readBuf frame.decoder with
      | mk buf rest =>
        cases buf with
        | none => exact ⟨rfl, rfl⟩
        | some buf =>
          rw [hbuf] at hread
          have hdecode : Y.decodeAwareness buf = none := hread
          simp only [hdecode, and_self]
    refine ⟨hrefused, hquiet.2, ?_, ?_⟩
    · rw [hquiet.1, harrived]
    · rw [Act.settled, announces_none hrefused]
  | some update =>
    obtain ⟨buf, rest, hbuf, hdecode⟩ : ∃ buf rest, Y.readBuf frame.decoder = (some buf, rest) ∧
        Y.decodeAwareness buf = some update := by
      unfold presenceIn at hread
      cases hbuf : Y.readBuf frame.decoder with
      | mk buf rest =>
        rw [hbuf] at hread
        obtain ⟨bytes, hbytes, hdecode⟩ := Option.bind_eq_some_iff.mp hread
        cases hbytes
        exact ⟨bytes, rest, rfl, hdecode⟩
    have harrived : Act.arrived w (.present frame origin)
        = (Y.applyAwareness w.awareness update).1 := by
      rw [Act.arrived, hread]
      rfl
    cases hok : (Y.applyAwareness w.awareness update).2 with
    | false =>
      refine Or.inl ⟨fun u hu => ?_, ?_, ?_, ?_⟩
      · rw [hread] at hu
        cases hu
        exact hok
      · unfold awarenessBroadcast
        simp only [hbuf, hdecode, hok]
        rfl
      · rw [harrived]
        unfold handleAwareness
        simp only [hbuf, hdecode, hok]
        rfl
      · rw [Act.settled, announces_none fun u hu => ?_]
        rw [hread] at hu
        cases hu
        exact hok
    | true =>
      refine Or.inr ⟨update, ?_⟩
      cases origin with
      | connection connId =>
        have hannounces : Act.announces w (.present frame (.connection connId))
            = some (connId, update) := by
          simp only [Act.announces, hread, Option.filter_some, hok, if_true, Option.map_some]
        refine ⟨{ w with
          awareness := (Y.applyAwareness w.awareness update).1
          connections := w.connections.modify connId (claimClients (Y.clients update))
            (claimClients_connId (Y.clients update)) }, hread, hok, ?_, harrived.symm, rfl, ?_, ?_⟩
        · rw [Act.settled, hannounces]
        · unfold awarenessBroadcast
          simp only [hbuf, hdecode, hok]
          rfl
        · unfold handleAwareness
          simp only [hbuf, hdecode, hok]
          rfl
      | redis =>
        refine ⟨{ w with awareness := (Y.applyAwareness w.awareness update).1 }, hread, hok, rfl,
          harrived.symm, rfl, ?_, ?_⟩
        · unfold awarenessBroadcast
          simp only [hbuf, hdecode, hok]
          rfl
        · unfold handleAwareness
          simp only [hbuf, hdecode, hok]
          rfl
      | «local» =>
        refine ⟨{ w with awareness := (Y.applyAwareness w.awareness update).1 }, hread, hok, rfl,
          harrived.symm, rfl, ?_, ?_⟩
        · unfold awarenessBroadcast
          simp only [hbuf, hdecode, hok]
          rfl
        · unfold handleAwareness
          simp only [hbuf, hdecode, hok]
          rfl

/-- Presence arrives first; the relay may then evict. -/
theorem handleAwareness_leaves (w : World Y) (frame : IncomingFrame) (origin : Origin) :
    Leaves (.present frame origin) w (w.handleAwareness frame origin) := by
  rcases w.handleAwareness_cases frame origin with h | ⟨update, v, h⟩
  · refine Leaves.of_none ?_ (fun id => ?_) ?_
    · show [] ++ Broadcast.found (w.awarenessBroadcast frame origin) = []
      rw [h.broadcast]
      rfl
    · rw [h.run, h.settled]
    · rw [h.run]
  · obtain ⟨hafter, htable⟩ := v.relayAwareness_leaves (Y.clients update) origin
    have hgone : Act.gone w (.present frame origin)
        = Broadcast.found (v.relayBroadcast (Y.clients update)) := by
      show [] ++ Broadcast.found (w.awarenessBroadcast frame origin) = _
      rw [h.broadcast]
      rfl
    refine ⟨fun id => ?_, ?_, fun conn hconn => ?_⟩
    · rw [h.run, hgone, hafter id, h.connections]
    · rw [h.run, hgone, htable, h.awareness]
    · rw [hgone] at hconn
      unfold relayBroadcast at hconn
      cases hupdate : Y.updateWithClients v.awareness (Y.clients update) with
      | none =>
        rw [hupdate] at hconn
        cases hconn
      | some out =>
        rw [hupdate] at hconn
        rw [← h.connections]
        exact foundFull_mem hconn

/-- How a connection is removed: it is not there, its presence goes unsaid, or
the others are told of it. -/
inductive Removal (w : World Y) (connId : Nat) : Prop
  | absent (hconn : w.connections.get? connId = none) (hcall : w.removeBroadcast connId = none)
      (hrun : w.removeConnection connId = w)
  | silent (handle : ConnHandle) (hconn : w.connections.get? connId = some handle)
      (hwhy : handle.clientIds = [] ∨
        Y.updateWithClients (w.detach connId handle).awareness handle.clientIds = none)
      (hcall : w.removeBroadcast connId = none)
      (hrun : w.removeConnection connId
        = (w.detach connId handle).emit (.onDisconnect connId handle.socketId))
  | told (handle : ConnHandle) (hconn : w.connections.get? connId = some handle)
      (update : Y.AwarenessUpdate)
      (hupdate : Y.updateWithClients (w.detach connId handle).awareness handle.clientIds
        = some update)
      (hcall : w.removeBroadcast connId = some (w.detach connId handle,
        awarenessFrame Y (Y.encodeAwareness update)))
      (hrun : w.removeConnection connId = ((w.detach connId handle).broadcastWith
        (awarenessFrame Y (Y.encodeAwareness update))).emit
          (.onDisconnect connId handle.socketId))

/-- How a connection is removed, by whether it is there, has claimed anything, and has
anything to withdraw. -/
theorem removeConnection_cases (w : World Y) (connId : Nat) : w.Removal connId := by
  cases hconn : w.connections.get? connId with
  | none =>
    refine .absent hconn ?_ ?_
    · rw [removeBroadcast, hconn]
    · rw [removeConnection, hconn]
  | some handle =>
    cases hempty : handle.clientIds.isEmpty with
    | true =>
      refine .silent handle hconn (Or.inl (List.isEmpty_iff.mp hempty)) ?_ ?_
      · rw [removeBroadcast, hconn]
        dsimp only
        rw [hempty]
        rfl
      · rw [removeConnection, hconn]
        dsimp only
        rw [hempty]
        rfl
    | false =>
      cases hupdate : Y.updateWithClients (w.detach connId handle).awareness handle.clientIds with
      | none =>
        refine .silent handle hconn (Or.inr hupdate) ?_ ?_
        · rw [removeBroadcast, hconn]
          dsimp only
          rw [hempty, hupdate]
          rfl
        · rw [removeConnection, hconn]
          dsimp only
          rw [hempty, hupdate]
          rfl
      | some update =>
        refine .told handle hconn update hupdate ?_ ?_
        · rw [removeBroadcast, hconn]
          dsimp only
          rw [hempty, hupdate]
          rfl
        · rw [removeConnection, hconn]
          dsimp only
          rw [hempty, hupdate]
          rfl

/-- Whoever leaves goes first, and the farewell may evict others: what the one and the
others had claimed is removed. -/
theorem removeConnection_leaves (w : World Y) (connId : Nat) :
    Leaves (.leave connId) w (w.removeConnection connId) := by
  -- detached, and perhaps announced to the others
  have hdetached : ∀ (handle : ConnHandle) (call : Option (Broadcast Y)) (v : World Y),
      w.connections.get? connId = some handle →
      w.removeBroadcast connId = call →
      (∀ conn ∈ Broadcast.found call,
        (w.detach connId handle).connections.get? conn.connId = some conn) →
      (∀ id, v.connections.get? id
        = if id ∈ (Broadcast.found call).map ConnHandle.connId then none
          else (w.detach connId handle).connections.get? id) →
      v.awareness = removeAll Y ((Broadcast.found call).flatMap ConnHandle.clientIds)
        (w.detach connId handle).awareness →
      Leaves (.leave connId) w (v.emit (.onDisconnect connId handle.socketId)) := by
    intro handle call v hconn hcall hfound hafter htable
    have hkey : handle.connId = connId := Keyed.get?_key hconn
    have hgone : (Act.leave connId).gone w = handle :: Broadcast.found call := by
      show (w.connections.get? connId).toList ++ Broadcast.found (w.removeBroadcast connId) = _
      rw [hconn, hcall]
      rfl
    have hleft : ∀ id, (w.detach connId handle).connections.get? id
        = if id = connId then none else w.connections.get? id := fun id => Keyed.get?_erase _ _ _
    refine ⟨fun id => ?_, ?_, fun conn hmem => ?_⟩
    · refine (hafter id).trans ?_
      rw [hgone, List.map_cons, hkey, hleft]
      by_cases hid : id = connId
      · rw [if_pos hid, ite_self, if_pos (List.mem_cons.mpr (Or.inl hid))]
      · rw [if_neg hid]
        by_cases hin : id ∈ (Broadcast.found call).map ConnHandle.connId
        · rw [if_pos hin, if_pos (List.mem_cons_of_mem _ hin)]
        · rw [if_neg hin, if_neg fun h => (List.mem_cons.mp h).elim hid hin]
          rfl
    · rw [hgone, List.flatMap_cons, removeAll_append]
      exact htable
    · rw [hgone] at hmem
      rcases List.mem_cons.mp hmem with rfl | hmem
      · exact hkey.symm ▸ hconn
      · have hget := hfound conn hmem
        rw [hleft] at hget
        split at hget
        · cases hget
        · exact hget
  cases w.removeConnection_cases connId with
  | absent hconn hcall hrun =>
    refine Leaves.of_none ?_ (fun id => ?_) ?_
    · show (w.connections.get? connId).toList ++ Broadcast.found (w.removeBroadcast connId) = []
      rw [hconn, hcall]
      rfl
    · rw [hrun]
      rfl
    · rw [hrun]
      rfl
  | silent handle hconn _ hcall hrun =>
    rw [hrun]
    exact hdetached handle none _ hconn hcall (fun _ hmem => absurd hmem List.not_mem_nil)
      (fun id => (if_neg List.not_mem_nil).symm) rfl
  | told handle hconn update hupdate hcall hrun =>
    obtain ⟨hafter, htable⟩ := (w.detach connId handle).broadcastWith_leaves
      (awarenessFrame Y (Y.encodeAwareness update))
    rw [hrun]
    exact hdetached handle _ _ hconn hcall (fun conn => foundFull_mem) hafter htable

/-- A join removes nobody. -/
theorem addConnection_leaves (w : World Y) (order : Reorder ConnHandle) (handle : ConnHandle) :
    Leaves (.join order handle) w (w.addConnection order handle) := by
  refine Leaves.of_none rfl (fun id => ?_) ?_
  · rw [addConnection_get?]
    exact (Keyed.get?_insert _ _ _ _).symm
  · unfold addConnection
    dsimp only
    split
    · split
      · exact poll_awareness w
      · rfl
    · rfl

/-- Nor does an answer. -/
theorem replyQueryAwareness_leaves (w : World Y) (address : String) (connId : Nat) :
    Leaves (.answer connId address) w (w.replyQueryAwareness address connId) := by
  unfold replyQueryAwareness
  split
  · exact Leaves.of_none rfl (fun _ => rfl) rfl
  · split
    · exact Leaves.of_none rfl (fun _ => rfl) rfl
    · refine Leaves.of_none rfl (fun id => ?_) (poll_awareness w)
      rw [sendFrame_connections]
      rfl

end World

/-- **What an act leaves behind**, whichever it is. -/
theorem Act.run_leaves (act : Act) (w : World Y) : Leaves act w (act.run w) := by
  cases act with
  | idle => exact Leaves.of_none rfl (fun _ => rfl) rfl
  | join order handle => exact w.addConnection_leaves order handle
  | answer connId address => exact w.replyQueryAwareness_leaves address connId
  | present frame origin => exact w.handleAwareness_leaves frame origin
  | leave connId => exact w.removeConnection_leaves connId
  | cast build =>
    obtain ⟨hafter, htable⟩ := w.broadcastWith_leaves build
    exact ⟨hafter, htable, fun conn => World.foundFull_mem⟩

/-! ## Steps -/

def Actor.arrived (a : Actor Y) (l : Label) : Y.Awareness := (a.act l).arrived a.world

def Actor.announces (a : Actor Y) (l : Label) : Option (Nat × Y.AwarenessUpdate) :=
  (a.act l).announces a.world

def Actor.settled (a : Actor Y) (l : Label) : Keyed ConnHandle.connId := (a.act l).settled a.world

/-- Who leaves in the step. -/
def Actor.gone (a : Actor Y) (l : Label) : List ConnHandle :=
  (a.act l).dismissed a.world ++ World.Broadcast.found (a.broadcastCall l)

structure Actor.Leaves (a : Actor Y) (l : Label) (b : Actor Y) : Prop where
  connections : ∀ id, b.world.connections.get? id
    = if id ∈ (a.gone l).map ConnHandle.connId then none else (a.settled l).get? id
  awareness : b.world.awareness
    = removeAll Y ((a.gone l).flatMap ConnHandle.clientIds) (a.arrived l)
  gone : ∀ conn ∈ a.gone l, (a.settled l).get? conn.connId = some conn

section Congr

variable {w v : World Y} (hconns : v.connections = w.connections)
  (hawareness : v.awareness = w.awareness)

include hawareness in
/-- What arrives depends on the presence table alone ... -/
theorem Act.arrived_congr (act : Act) : act.arrived v = act.arrived w := by
  unfold Act.arrived
  rw [hawareness]

include hawareness in
/-- ... and so does what is announced. -/
theorem Act.announces_congr (act : Act) : act.announces v = act.announces w := by
  unfold Act.announces
  rw [hawareness]

include hconns hawareness in
/-- The handles depend on the map besides ... -/
theorem Act.settled_congr (act : Act) : act.settled v = act.settled w := by
  unfold Act.settled
  simp only [hconns, Act.announces_congr hawareness]

include hconns in
/-- ... and who is asked to leave on the map alone. -/
theorem Act.dismissed_congr (act : Act) : act.dismissed v = act.dismissed w := by
  unfold Act.dismissed
  rw [hconns]

end Congr

/-- **What a step leaves behind**: the inert parts around the act change neither the
map nor the table. -/
theorem Actor.step_leaves {cfg : Configuration} {a b : Actor Y} {l : Label}
    (hstep : a.step cfg l = some b) : a.Leaves l b := by
  obtain ⟨v, hbefore, hcall, _, hafter⟩ := Actor.step_turn hstep
  obtain ⟨hconns, htable, hgone⟩ := (a.act l).run_leaves v
  have hsame : (a.act l).gone v = a.gone l := by
    rw [Act.gone, Actor.gone, hcall, Act.dismissed_congr hbefore.connections]
  have hsettled : (a.act l).settled v = a.settled l :=
    Act.settled_congr hbefore.connections hbefore.awareness _
  rw [hsame] at hconns htable hgone
  rw [hsettled] at hgone
  refine ⟨fun id => ?_, ?_, hgone⟩
  · rw [hafter.connections, hconns id, hsettled]
  · rw [hafter.awareness, htable, Act.arrived_congr hbefore.awareness]
    rfl

/-- A handle before anyone leaves: a new one, one that has claimed the clients
it announces, or one from before. -/
theorem Actor.settled_cases {a : Actor Y} {l : Label} {id : Nat} {conn : ConnHandle}
    (h : (a.settled l).get? id = some conn) :
    (l.joiner = some id ∧ ∃ ack o, l = .command (.addConnection conn ack) o) ∨
    (∃ u old, a.announces l = some (id, u) ∧ a.world.connections.get? id = some old ∧
      conn = World.claimClients (Y.clients u) old) ∨
    a.world.connections.get? id = some conn := by
  unfold Actor.settled at h
  cases hact : a.act l with
  | join order handle =>
    rw [hact] at h
    unfold Act.settled at h
    rw [Keyed.get?_insert] at h
    split at h
    next hid =>
      cases h
      refine Or.inl ?_
      have hjoiner := a.act_joiner l
      rw [hact] at hjoiner
      cases l with
      | command cmd o =>
        cases cmd with
        | addConnection handle' ack =>
          cases hact
          exact ⟨congrArg some hid.symm, ack, o, rfl⟩
        | _ => cases hjoiner
      | _ => cases hjoiner
    next => exact Or.inr (Or.inr h)
  | present frame origin =>
    rw [hact] at h
    unfold Act.settled at h
    dsimp only at h
    cases hannounces : Act.announces a.world (.present frame origin) with
    | none =>
      rw [hannounces] at h
      exact Or.inr (Or.inr h)
    | some p =>
      rw [hannounces] at h
      dsimp only at h
      rw [Keyed.get?_modify] at h
      split at h
      next hid =>
        obtain ⟨old, hold, hconn⟩ := Option.map_eq_some_iff.mp h
        refine Or.inr (Or.inl ⟨p.2, old, ?_, hold, hconn.symm⟩)
        rw [Actor.announces, hact, hannounces, hid]
      next => exact Or.inr (Or.inr h)
  | idle | answer | leave | cast =>
    rw [hact] at h
    exact Or.inr (Or.inr h)

/-- Whoever is registered after the step was so before, or joins in it. -/
theorem Actor.registered_settled {cfg : Configuration} {a b : Actor Y} {l : Label}
    (hstep : a.step cfg l = some b) {id : Nat} (h : b.world.registered id = true) :
    ∃ conn, b.world.connections.get? id = some conn ∧ (a.settled l).get? id = some conn ∧
      (l.joiner = some id ∨ a.world.registered id = true) := by
  obtain ⟨conn, hconn⟩ := Option.isSome_iff_exists.mp h
  have hconns := (Actor.step_leaves hstep).connections id
  rw [hconn] at hconns
  split at hconns
  next => cases hconns
  next =>
    refine ⟨conn, hconn, hconns.symm, ?_⟩
    rcases Actor.settled_cases hconns.symm with ⟨hjoin, _⟩ | ⟨_, old, _, hold, _⟩ | hold
    · exact Or.inl hjoin
    · exact Or.inr (Option.isSome_iff_exists.mpr ⟨old, hold⟩)
    · exact Or.inr (Option.isSome_iff_exists.mpr ⟨conn, hold⟩)

/-! ## Removals under the clock rules -/

section Removals

open Clocked

variable {σ : Type} (P : Y.Presence σ)

/-- A client whose state is not removed keeps its entry. -/
theorem removeAll_other (ids : List Nat) (a : Y.Awareness) {k : Nat} (h : k ∉ ids) :
    P.table (removeAll Y ids a) k = P.table a k := by
  induction ids generalizing a with
  | nil => rfl
  | cons j ids ih =>
    rw [List.mem_cons, not_or] at h
    exact (ih (Y.removeState a j) h.2).trans (P.remove_other a j k h.1)

/-- Whoever is absent stays absent, whatever becomes of the clock. -/
theorem removeAll_absent (ids : List Nat) (a : Y.Awareness) {k : Nat}
    (h : present (P.table a k) = false) : present (P.table (removeAll Y ids a) k) = false := by
  induction ids generalizing a with
  | nil => exact h
  | cons j ids ih =>
    refine ih (Y.removeState a j) ?_
    by_cases hj : k = j
    · subst hj
      exact P.remove_present a k
    · rw [P.remove_other a j k hj, h]

/-- A client whose state is removed is absent, also where it is removed more than
once. -/
theorem removeAll_mem (ids : List Nat) (a : Y.Awareness) {k : Nat} (h : k ∈ ids) :
    present (P.table (removeAll Y ids a) k) = false := by
  induction ids generalizing a with
  | nil => cases h
  | cons j ids ih =>
    rcases List.mem_cons.mp h with rfl | h
    · exact removeAll_absent P ids _ (P.remove_present a k)
    · exact ih _ h

/-- A removal never takes a clock back. -/
theorem removeAll_rank (ids : List Nat) (a : Y.Awareness) (k : Nat) :
    rank (P.table a k) ≤ rank (P.table (removeAll Y ids a) k) := by
  induction ids generalizing a with
  | nil => exact Nat.le_refl _
  | cons j ids ih =>
    refine Nat.le_trans ?_ (ih (Y.removeState a j))
    by_cases hj : k = j
    · subst hj
      exact P.remove_rank a k
    · rw [P.remove_other a j k hj]

end Removals

end Hocuspocus
