import Hocuspocus.Document.Provenance
import Hocuspocus.Server.Admission
import Hocuspocus.Server.Residents

/-!
# Who has written

Every update in a document has an author. `Authored` lists who that can be: a
connection, by a `Sync` frame that its own socket has sent on to this actor, after
the hooks of both rounds have let the socket's request for this document in, and
not read-only; a frame the Redis subscriber has passed on for this document; a call
of `direct_apply` for it.

The invariant is about the commands that are still to be handled (`Vouched`): a
frame stays in the mailbox while its connection may go, the socket end, and another
connection of the same id is what has to be excluded (`Sole`, `Settled`). Once the
actor handles the command, `Actor.step_applied` says what its connection was, and
the author is on record for good.
-/

namespace Hocuspocus

variable {Y : Yrs}

namespace Server

/-- The socket has sent the frame on to the actor, for a connection of the frame's
routing key that was admitted, and no other has its id. -/
structure Forwarded (s : Server Y) (j connId : Nat) (data : Bytes) (i : Nat) (sock : Socket)
    (frame : IncomingFrame) (handle : ConnHandle) : Prop where
  there : s.sockets[i]? = some sock
  parse : IncomingFrame.parse Y data = some frame
  sent : .command j (.clientFrame connId data) ∈ sock.trace
  admitted : s.Admitted i sock.trace frame.routingKey j connId handle
  sole : s.Sole j handle
  settled : s.Settled connId

/-- Who has sent a command that brings an update, among the frames of the subscriber
`externals`. -/
def Vouched (externals : String → Bytes → Prop) (s : Server Y) (j : Nat) (name : String) :
    DocCommand → Prop
  | .clientFrame connId data => ∃ i sock frame handle, s.Forwarded j connId data i sock frame handle
  | .externalFrame data _ => externals name data
  | .directApply update _ => ∃ e ∈ s.edits, e.name = name ∧ e.update = update
  | .addConnection _ _ | .removeConnection _ => True

/-- Who has written the update, from this origin. -/
inductive Authored (externals : String → Bytes → Prop) (s : Server Y) (j : Nat) (name : String)
    (update : Bytes) : Origin → Prop
  | client (i : Nat) (sock : Socket) (request : AuthRequest) (handle : ConnHandle) (data : Bytes)
    (frame : IncomingFrame) (hsock : s.sockets[i]? = some sock)
    (hname : request.documentName = name) (hletIn : LetIn sock.trace request false)
    (hadded : ∃ ack, .command j (.addConnection handle ack) ∈ sock.trace)
    (hwritable : handle.readOnly = false) (haddress : handle.messageAddress = request.key)
    (hsent : .command j (.clientFrame handle.connId data) ∈ sock.trace)
    (hparse : IncomingFrame.parse Y data = some frame) (hkey : frame.routingKey = request.key)
    (hcarried : carriedUpdate Y data = some update) :
    Authored externals s j name update (.connection handle.connId)
  | external (data : Bytes) (hexternal : externals name data)
    (hcarried : carriedUpdate Y data = some update) : Authored externals s j name update .redis
  | direct (e : DirectApply) (he : e ∈ s.edits) (hname : e.name = name)
    (hupdate : e.update = update) : Authored externals s j name update .local

/-! ## What stays -/

/-- A call of `direct_apply` keeps its name and its update. -/
theorem edit_stays {s t : Server Y} {cfg : Configuration} {l : Label Y}
    (h : Server.step cfg s l = some t) {e : DirectApply} (he : e ∈ s.edits) :
    ∃ e' ∈ t.edits, e'.name = e.name ∧ e'.update = e.update := by
  obtain ⟨k, hk⟩ := List.getElem?_of_mem he
  have hlt := (List.getElem?_eq_some_iff.mp hk).1
  obtain ⟨e', he'⟩ : ∃ e', t.edits[k]? = some e' :=
    ⟨_, List.getElem?_eq_getElem (hlt.trans_le (edits_grow h))⟩
  refine ⟨e', List.mem_of_getElem? he', ?_⟩
  rcases step_edit h he' with ⟨old, hold, hturn⟩ | ⟨hnew, _⟩
  · obtain rfl : e = old := Option.some.inj (hk.symm.trans hold)
    cases hturn with
    | idle | calls | finds | sends | refused | answered => exact ⟨rfl, rfl⟩
  · omega

theorem Forwarded.step {s t : Server Y} {cfg : Configuration} {l : Label Y}
    (haccounted : s.Accounted) (h : Server.step cfg s l = some t) {j connId : Nat} {data : Bytes}
    {i : Nat} {sock : Socket} {frame : IncomingFrame} {handle : ConnHandle}
    (hs : s.Forwarded j connId data i sock frame handle) :
    ∃ sock', t.Forwarded j connId data i sock' frame handle := by
  obtain ⟨sock', hsock', hturn⟩ := socket_goes h hs.there
  have hmore := hturn.grows
  have hsettled : s.Settled handle.connId := hs.admitted.numbered.symm ▸ hs.settled
  exact ⟨sock', hsock', hs.parse, hmore.subset hs.sent, hs.admitted.step h hmore,
    hs.sole.step hsettled haccounted h, hs.settled.step h⟩

theorem Vouched.step {externals : String → Bytes → Prop} {s t : Server Y} {cfg : Configuration}
    {l : Label Y} (haccounted : s.Accounted) (h : Server.step cfg s l = some t) {j : Nat}
    {name : String} {cmd : DocCommand} (hs : s.Vouched externals j name cmd) :
    t.Vouched externals j name cmd := by
  cases cmd with
  | clientFrame connId data =>
    obtain ⟨i, sock, frame, handle, hforwarded⟩ := hs
    obtain ⟨sock', hforwarded'⟩ := hforwarded.step haccounted h
    exact ⟨i, sock', frame, handle, hforwarded'⟩
  | directApply update ack =>
    obtain ⟨e, he, hname, hupdate⟩ := hs
    obtain ⟨e', he', hname', hupdate'⟩ := edit_stays h he
    exact ⟨e', he', hname'.trans hname, hupdate'.trans hupdate⟩
  | externalFrame | addConnection | removeConnection => exact hs

theorem Authored.step {externals : String → Bytes → Prop} {s t : Server Y} {cfg : Configuration}
    {l : Label Y} (h : Server.step cfg s l = some t) {j : Nat} {name : String} {update : Bytes}
    {origin : Origin} (hs : s.Authored externals j name update origin) :
    t.Authored externals j name update origin := by
  cases hs with
  | client i sock request handle data frame hsock hname hletIn hadded hwritable haddress hsent
      hparse hkey hcarried =>
    obtain ⟨sock', hsock', hturn⟩ := socket_goes h hsock
    have hmore := hturn.grows
    obtain ⟨ack, hadded⟩ := hadded
    exact .client i sock' request handle data frame hsock' hname (hletIn.mono hmore)
      ⟨ack, hmore.subset hadded⟩ hwritable haddress (hmore.subset hsent) hparse hkey hcarried
  | external data hexternal hcarried => exact .external data hexternal hcarried
  | direct e he hname hupdate =>
    obtain ⟨e', he', hname', hupdate'⟩ := edit_stays h he
    exact .direct e' he' (hname'.trans hname) (hupdate'.trans hupdate)

/-! ## What is sent -/

/-- A frame that a turn of the socket has sent on. -/
theorem Guarded.forwarded {s t : Server Y} (hs : s.Guarded) {cfg : Configuration} {l : Label Y}
    (h : Server.step cfg s l = some t) {i : Nat} {sock sock' : Socket}
    (hsock : s.sockets[i]? = some sock) (hsock' : t.sockets[i]? = some sock')
    (hturn : SocketTurn cfg s t i sock l sock') {j connId : Nat} {data : Bytes}
    {more : List SocketEvent} (htrace : sock'.trace = sock.trace ++ more)
    (hmem : .command j (.clientFrame connId data) ∈ more) :
    ∃ frame handle, t.Forwarded j connId data i sock' frame handle := by
  have hnew : .command j (.clientFrame connId data) ∈ sock'.trace.drop sock.trace.length := by
    rw [htrace, List.drop_left]
    exact hmem
  obtain ⟨frame, handle, hparse, hadmitted, hsole, hsettled⟩ := hs.passes h hsock hturn hnew
  refine ⟨frame, handle, hsock', hparse, ?_, hadmitted.step h hturn.grows, hsole, hsettled⟩
  rw [htrace]
  exact List.mem_append_right _ hmem

theorem Guarded.received {s t : Server Y} (hs : s.Guarded) {cfg : Configuration} {i now : Nat}
    {data : Bytes} (h : Server.step cfg s (.receive i data now) = some t) {sock : Socket}
    (hsock : s.sockets[i]? = some sock) (htask : sock.task = .reading)
    (ht : t = (s.setSocket i (sock.handleFrame Y cfg now data).1).sendAll
      (sock.handleFrame Y cfg now data).2) {externals : String → Bytes → Prop} {name : String}
    {c : Nat × DocCommand} (hc : c ∈ (sock.handleFrame Y cfg now data).2) :
    t.Vouched externals c.1 name c.2 := by
  have hsock' : t.sockets[i]? = some (sock.handleFrame Y cfg now data).1 := by
    rw [ht, sendAll_sockets]
    exact (getElem?_set_of_some hsock _ i).trans (if_pos rfl)
  have hturn : SocketTurn cfg s t i sock (.receive i data now)
      (sock.handleFrame Y cfg now data).1 := .receive data now htask
  have hframe := sock.handleFrame_cases Y cfg now data
  generalize sock.handleFrame Y cfg now data = handled at hframe hsock' hturn hc
  cases hframe with
  | short | garbled | asks | unread | waits => cases hc
  | passes frame est hlength hparse hest =>
    cases List.mem_singleton.mp hc
    obtain ⟨frame, handle, hforwarded⟩ :=
      hs.forwarded h hsock hsock' hturn rfl (List.mem_singleton_self _)
    exact ⟨i, _, frame, handle, hforwarded⟩

end Server

/-- What was queued for the routing key goes to the actor. -/
theorem Socket.register_sends (sock : Socket) (r : Registration) (doc : Nat) :
    (sock.register r doc).2 = (sock.client.queued r.request.key).map fun data =>
      (doc, .clientFrame r.connId data) := by
  unfold Socket.register ClientConnection.queued
  dsimp only
  split
  next hnone =>
    rw [hnone]
    rfl
  next pending hpending =>
    rw [hpending]
    exact List.map_map

namespace Server

/-- **Whatever is sent to an actor is vouched for.** -/
theorem Guarded.vouched {s t : Server Y} (hs : s.Guarded) {cfg : Configuration} {l : Label Y}
    (h : Server.step cfg s l = some t) {externals : String → Bytes → Prop}
    (hexternals : ∀ name data, l = .external name data → externals name data) {j : Nat}
    {cmd : DocCommand} (hsent : (j, cmd) ∈ s.sends cfg l) {a : Spawned Y}
    (ha : s.actors[j]? = some a) : t.Vouched externals j a.actor.world.name cmd := by
  have hwhole := h
  cases step_cases h with
  | connect | hangup | timeout | connected | authenticated | clean | apply | recv | command | actor
  | drop => cases hsent
  | unknown name data hdoc =>
    rw [sends, hdoc] at hsent
    cases hsent
  | receive i data now sock hsock htask =>
    simp only [sends, hsock] at hsent
    exact hs.received hwhole hsock htask rfl hsent
  | leave i key sock est hsock htask hest =>
    simp only [sends, hsock, hest, Option.elim_some] at hsent
    cases List.mem_singleton.mp hsent
    trivial
  | external name data k hdoc =>
    simp only [sends, hdoc, Option.elim_some] at hsent
    cases List.mem_singleton.mp hsent
    obtain ⟨a', ha', hname⟩ := hs.sound.named.documents name j hdoc
    obtain rfl : a = a' := Option.some.inj (ha.symm.trans ha')
    show externals a.actor.world.name data
    rw [hname]
    exact hexternals name data rfl
  | register i doc queues sock r t hsock htask h =>
    obtain ⟨client, task, trace⟩ := sock
    cases htask
    simp only [sends, hsock] at hsent
    split at hsent
    next => cases hsent
    next k hsend =>
      cases List.mem_singleton.mp hsent
      trivial
    next k ack hawait =>
      split at hsent
      next hacked =>
        rw [Socket.register_sends] at hsent
        obtain ⟨data, hdata, heq⟩ := List.mem_map.mp hsent
        cases heq
        have hsock' := registered hwhole hsock rfl hawait hacked
        obtain ⟨frame, handle, hforwarded⟩ := hs.forwarded hwhole hsock hsock'
          (.acked doc queues r j ack rfl hawait hacked) (Socket.register_flow _ r j).2
          (List.mem_map.mpr ⟨data, hdata, rfl⟩)
        exact ⟨i, _, frame, handle, hforwarded⟩
      next => cases hsent
  | direct k doc queues e t he h =>
    obtain ⟨name, update, st, returned⟩ := e
    simp only [sends, he] at hsent
    split at hsent
    next heq =>
      cases heq
      cases List.mem_singleton.mp hsent
      obtain ⟨a', ha', hname⟩ := hs.sound.named.edits k _ he j (decide_eq_true rfl)
      obtain rfl : a = a' := Option.some.inj (ha.symm.trans ha')
      obtain ⟨e', he', hname', hupdate'⟩ := edit_stays hwhole (List.mem_of_getElem? he)
      exact ⟨e', he', hname'.trans hname.symm, hupdate'⟩
    next => cases hsent

end Server

/-- What is pending at an actor was, or is sent now. -/
theorem Spawned.Round.brings {cfg : Configuration} {s : Server Y} {sends : List (Nat × DocCommand)}
    {j : Nat} {a b : Spawned Y} {l : Server.Label Y} (hround : a.Round cfg s sends j l b)
    {cmd : DocCommand} (hcmd : cmd ∈ b.pending) : cmd ∈ a.pending ∨ (j, cmd) ∈ sends := by
  cases hround with
  | told =>
    unfold Spawned.receives at hcmd
    split at hcmd
    · exact Or.inl hcmd
    · rw [Spawned.pending, Spawned.told, ← List.append_assoc] at hcmd
      refine (List.mem_append.mp hcmd).imp_right fun hnew => ?_
      obtain ⟨c, hc, hfor⟩ := List.mem_filterMap.mp hnew
      split at hfor
      next hj =>
        cases hfor
        exact hj ▸ hc
      next => cases hfor
  | recv hbatch =>
    left
    rw [Spawned.pending, List.take_append_drop] at hcmd
    rw [Spawned.pending, hbatch]
    exact hcmd
  | command o first batch b hbatch hstep =>
    left
    rw [Spawned.pending, hbatch, List.cons_append]
    refine List.mem_cons_of_mem _ ?_
    rcases List.mem_append.mp hcmd with hkept | hmail
    · dsimp only at hkept
      split at hkept
      · cases hkept
      · exact List.mem_append_left _ hkept
    · exact List.mem_append_right _ hmail
  | actor => exact Or.inl hcmd
  | drop => exact Or.inl (List.mem_append.mpr (Or.inl (by simpa [Spawned.pending] using hcmd)))

namespace Server

/-! ## Everything applied has an author -/

structure Attributed (externals : String → Bytes → Prop) (s : Server Y) : Prop where
  pending : ∀ (j : Nat) (a : Spawned Y), s.actors[j]? = some a → ∀ cmd ∈ a.pending,
    s.Vouched externals j a.actor.world.name cmd
  applied : ∀ (j : Nat) (a : Spawned Y), s.actors[j]? = some a → ∀ update origin doc,
    .applied update origin doc ∈ a.actor.world.history →
    s.Authored externals j a.actor.world.name update origin

/-- The actor handles a command that is vouched for. -/
theorem Vouched.authored {externals : String → Bytes → Prop} {s : Server Y} {j : Nat}
    {a : Spawned Y} (ha : s.actors[j]? = some a) {cmd : DocCommand} {o : Ambient}
    (hvouched : s.Vouched externals j a.actor.world.name cmd) {update : Bytes} {origin : Origin}
    (hbrings : a.actor.Brings (.command cmd o) update origin) :
    s.Authored externals j a.actor.world.name update origin := by
  cases hbrings with
  | client connId data _ conn _ hconn hwritable hcarried hpassed =>
    obtain ⟨i, sock, frame, handle, hforwarded⟩ := hvouched
    obtain ⟨request, hkey, hname, hletIn⟩ := hforwarded.admitted.letIn
    obtain ⟨a', ha', hnamed, _⟩ := hforwarded.admitted.added
    obtain rfl : a = a' := Option.some.inj (ha.symm.trans ha')
    obtain rfl := hforwarded.admitted.numbered
    -- no other connection has the id, so this is the one that was let in
    have hcore : conn.core = handle.core := hforwarded.sole a ha conn hconn
    have hreads : handle.readOnly = false := by
      rw [← hwritable]
      exact (congrArg ConnHandle.readOnly hcore).symm
    rw [hreads] at hletIn
    exact .client i sock request handle data frame hforwarded.there (hname.trans hnamed.symm)
      hletIn hforwarded.admitted.sent hreads (hforwarded.admitted.addressed.trans hkey.symm)
      hforwarded.sent hforwarded.parse hkey.symm hcarried
  | external data reply _ _ hcarried => exact .external data hvouched hcarried
  | direct _ ack _ =>
    obtain ⟨e, he, hname, hupdate⟩ := hvouched
    exact .direct e he hname hupdate

theorem Attributed.step {externals : String → Bytes → Prop} {s t : Server Y}
    (hs : s.Attributed externals) (hguarded : s.Guarded) {cfg : Configuration} {l : Label Y}
    (hexternals : ∀ name data, l = .external name data → externals name data)
    (h : Server.step cfg s l = some t) : t.Attributed externals := by
  have haccounted := hguarded.sound.accounted
  refine ⟨fun j b hb cmd hcmd => ?_, fun j b hb update origin doc happlied => ?_⟩
  · rcases step_known h hb with ⟨a, ha⟩ | ⟨_, name, doc, queues, rfl⟩
    · obtain ⟨b', hb', hround⟩ := step_round h ha
      obtain rfl : b' = b := Option.some.inj (hb'.symm.trans hb)
      rw [hround.name]
      rcases hround.brings hcmd with hold | hsent
      · exact (hs.pending j a ha cmd hold).step haccounted h
      · exact hguarded.vouched h hexternals hsent ha
    · cases hcmd
  · rcases step_known h hb with ⟨a, ha⟩ | ⟨_, name, doc, queues, rfl⟩
    · obtain ⟨b', hb', hround⟩ := step_round h ha
      obtain rfl : b' = b := Option.some.inj (hb'.symm.trans hb)
      rw [hround.name]
      suffices hbefore : s.Authored externals j a.actor.world.name update origin from
        hbefore.step h
      have hold : .applied update origin doc ∈ a.actor.world.history →
          s.Authored externals j a.actor.world.name update origin :=
        hs.applied j a ha update origin doc
      cases hround with
      | told =>
        unfold Spawned.receives at happlied
        split at happlied
        · exact hold happlied
        · exact hold happlied
      | recv | drop => exact hold happlied
      | command o cmd batch b hbatch hstep =>
        rcases Actor.step_applied hstep update origin doc happlied with hwas | hbrings
        · exact hold hwas
        · have hpending : cmd ∈ a.pending := by
            rw [Spawned.pending, hbatch]
            exact List.mem_cons_self ..
          exact (hs.pending j a ha cmd hpending).authored ha hbrings
      | actor l b hplain hbetween hclosed hstep =>
        rcases Actor.step_applied hstep update origin doc happlied with hwas | hbrings
        · exact hold hwas
        · cases hbrings with
          | client connId data o => exact absurd rfl (hplain _ o)
          | external data reply o => exact absurd rfl (hplain _ o)
          | direct update ack o => exact absurd rfl (hplain _ o)
    · cases happlied

end Server

/-- **Every update has an author**: whatever an actor has applied was brought by a
frame of a socket whose request for this document the hooks of both rounds had let
in, and not read-only; or by a frame the subscriber had passed on for it; or by a
call of `direct_apply` for it. -/
theorem applied_authored {cfg : Configuration} {ls : List (Server.Label Y)} {s : Server Y}
    (hrun : Lts.exec (Server.step cfg) (Server.build Y) ls = some s) {j : Nat} {a : Spawned Y}
    (ha : s.actors[j]? = some a) {update : Bytes} {origin : Origin} {doc : Y.Doc}
    (happlied : .applied update origin doc ∈ a.actor.world.trace) :
    s.Authored (fun name data => .external name data ∈ ls) j a.actor.world.name update origin := by
  have hall : s.Guarded ∧ s.Attributed fun name data => .external name data ∈ ls :=
    Lts.exec_invariant_along (I := fun u : Server Y =>
        u.Guarded ∧ u.Attributed fun name data => .external name data ∈ ls)
      (fun _ l _ hstep (hl : l ∈ ls) hs =>
        ⟨hs.1.step hstep, hs.2.step hs.1 (fun name data heq => heq ▸ hl) hstep⟩)
      (Lts.along_of_labels (fun _ hl => hl) _) hrun
      ⟨⟨Server.build_sound Y, Server.build_expecting Y, fun _ _ h => by cases h⟩,
        (fun j a ha => by cases ha), fun j a ha => by cases ha⟩
  exact hall.2.applied j a ha update origin doc (List.mem_filter.mpr ⟨happlied, rfl⟩)

/-- What was applied, and from where. -/
def Event.write? : Event Y → Option (Bytes × Origin)
  | .applied update origin _ => some (update, origin)
  | _ => none

/-- A client that has joined edits, and so does a peer. -/
def bothWrite : List (Server.Label OneWriter.yrs) :=
  .connect 0 :: (OneWriter.enters 0 0 "doc" ++ .receive 0 (OneWriter.editFrame 0) 0 ::
    OneWriter.handles 0 ++ .external "doc" (OneWriter.editFrame 1) :: OneWriter.handles 0)

theorem applied_authored_both :
    (OneWriter.serve {} bothWrite).Authored (fun name data => .external name data ∈ bothWrite) 0
        "doc" (OneWriter.edit 0) (.connection 1) ∧
      (OneWriter.serve {} bothWrite).Authored (fun name data => .external name data ∈ bothWrite) 0
        "doc" (OneWriter.edit 1) .redis := by
  have hrun : (Lts.exec (Server.step {}) (Server.build OneWriter.yrs) bothWrite).isSome = true := by
    decide +kernel
  have hwrites : ((OneWriter.serve {} bothWrite).actors[0]?).map (fun a =>
      (a.actor.world.name, a.actor.world.trace.filterMap Event.write?)) =
      some ("doc", [(OneWriter.edit 0, .connection 1), (OneWriter.edit 1, .redis)]) := by
    decide +kernel
  obtain ⟨a, ha, heq⟩ := Option.map_eq_some_iff.mp hwrites
  obtain ⟨hname, htrace⟩ := Prod.mk.inj heq
  have hauthored : ∀ update origin, (update, origin) ∈ a.actor.world.trace.filterMap Event.write? →
      (OneWriter.serve {} bothWrite).Authored (fun name data => .external name data ∈ bothWrite) 0
        "doc" update origin := by
    intro update origin hmem
    obtain ⟨e, he, hwrite⟩ := List.mem_filterMap.mp hmem
    cases e with
    | applied update' origin' doc =>
      cases hwrite
      exact hname ▸ applied_authored (Lts.exec_reach hrun) ha he
    | _ => cases hwrite
  rw [htrace] at hauthored
  exact ⟨hauthored _ _ (List.mem_cons_self ..),
    hauthored _ _ (List.mem_cons_of_mem _ (List.mem_singleton_self _))⟩

end Hocuspocus
