import Hocuspocus.OneWriter.Sockets
import Hocuspocus.Server.Commands
import Hocuspocus.Server.Traces

/-!
# No frame without authentication

A frame goes to an actor for a connection of its routing key. `Admitted` is
what stands behind such a connection: the `on_connect` and the
`on_authenticate` hooks have let the request of that key in, the socket has then
sent the `AddConnection` of a handle with that key, and with the `read_only` the
hooks have left, and the actor has added it. `Vetted` keeps that for a socket
through its phases; the frames it has queued are of the key they are queued for.

An id is given to one registration, so an actor that has a connection of that id
has this one (`Sole`).
-/

namespace Hocuspocus

variable {Y : Yrs}

/-- The hooks have let the request in, with this `read_only`. -/
def LetIn (trace : List SocketEvent) (request : AuthRequest) (readOnly : Bool) : Prop :=
  ∃ onConnect onAuthenticate, firstError onConnect = none ∧ firstError onAuthenticate = none ∧
    [.onConnect request onConnect, .onAuthenticate request onAuthenticate readOnly].Sublist trace

theorem LetIn.mono {trace trace' : List SocketEvent} {request : AuthRequest} {readOnly : Bool}
    (h : LetIn trace request readOnly) (hmore : trace <+: trace') :
    LetIn trace' request readOnly := by
  obtain ⟨onConnect, onAuthenticate, hconnect, hauthenticate, hsub⟩ := h
  exact ⟨onConnect, onAuthenticate, hconnect, hauthenticate, hsub.trans hmore.sublist⟩

namespace Server

/-- What stands behind a connection of the routing key with the actor `j`. -/
structure Admitted (s : Server Y) (i : Nat) (trace : List SocketEvent) (key : String)
    (j connId : Nat) (handle : ConnHandle) : Prop where
  letIn : ∃ request, request.key = key ∧ request.documentName = (parseRoutingKey key).1 ∧
    LetIn trace request handle.readOnly
  numbered : handle.connId = connId
  addressed : handle.messageAddress = key
  owned : handle.outbound = i
  sent : ∃ ack, .command j (.addConnection handle ack) ∈ trace
  added : ∃ a, s.actors[j]? = some a ∧ a.actor.world.name = (parseRoutingKey key).1 ∧
    .added handle ∈ a.actor.world.trace

/-- The actor has no other connection of the handle's id. -/
def Sole (s : Server Y) (j : Nat) (handle : ConnHandle) : Prop :=
  ∀ a, s.actors[j]? = some a → ∀ conn,
    a.actor.world.connections.get? handle.connId = some conn → conn.core = handle.core

structure Vetted (s : Server Y) (i : Nat) (sock : Socket) : Prop where
  queued : ∀ key, ∀ data ∈ sock.client.queued key,
    ∃ frame, IncomingFrame.parse Y data = some frame ∧ frame.routingKey = key
  asking : ∀ request, sock.task = .authenticating request →
    ∃ results, firstError results = none ∧ .onConnect request results ∈ sock.trace
  registering : ∀ r, sock.task = .registering r → LetIn sock.trace r.request r.readOnly
  sole : ∀ r, sock.task = .registering r → ∀ j, s.Sole j (sock.connHandle i r)
  awaiting : ∀ r j ack, sock.task = .registering r → r.stage = .await j ack →
    .command j (.addConnection (sock.connHandle i r) ack) ∈ sock.trace
  established : ∀ est ∈ sock.client.established.vals,
    ∃ handle, s.Admitted i sock.trace est.key est.doc est.connId handle ∧ s.Sole est.doc handle

/-! ## What stays -/

theorem Admitted.step {s t : Server Y} {i : Nat} {trace trace' : List SocketEvent} {key : String}
    {j connId : Nat} {handle : ConnHandle} (h : s.Admitted i trace key j connId handle)
    {cfg : Configuration} {l : Label Y} (hstep : Server.step cfg s l = some t)
    (hmore : trace <+: trace') : t.Admitted i trace' key j connId handle where
  letIn := by
    obtain ⟨request, hkey, hname, hin⟩ := h.letIn
    exact ⟨request, hkey, hname, hin.mono hmore⟩
  numbered := h.numbered
  addressed := h.addressed
  owned := h.owned
  sent := by
    obtain ⟨ack, hsent⟩ := h.sent
    exact ⟨ack, hmore.subset hsent⟩
  added := by
    obtain ⟨a, ha, hname, hadded⟩ := h.added
    obtain ⟨b, hb, hturn⟩ := step_turn hstep ha
    obtain ⟨b', hb', hname'⟩ := Names.step hstep ⟨a, ha, hname⟩
    obtain rfl : b = b' := Option.some.inj (hb.symm.trans hb')
    exact ⟨b, hb, hname', hturn.grows.subset hadded⟩

/-- Nobody adds a connection of a settled id. -/
theorem Sole.step {s t : Server Y} {j : Nat} {handle : ConnHandle} (hs : s.Sole j handle)
    (hsettled : s.Settled handle.connId) (haccounted : s.Accounted) {cfg : Configuration}
    {l : Label Y} (h : Server.step cfg s l = some t) : t.Sole j handle := by
  intro b hb conn hconn
  obtain ⟨a, ha, ⟨old, hold, hcore⟩ | ⟨ack, hadding, hid⟩⟩ := step_mapped h hb hconn
  · exact hcore.symm.trans (hs a ha old hold)
  -- whoever adds one now registers with its id, which nobody does any more
  · obtain ⟨sock, r, hsock, htask, hsame, _⟩ := haccounted.adding_registers ha hadding
    exact absurd (hsame.trans hid) (hsettled.done _ sock r hsock htask)

/-- The only `AddConnection` with the id of a registration is its own. -/
theorem own_adding {s : Server Y} (hsound : s.Sound) (hexpecting : s.Expecting) {i : Nat}
    {sock : Socket} (hsock : s.sockets[i]? = some sock) {r : Registration}
    (htask : sock.task = .registering r) {j : Nat} {a : Spawned Y} (ha : s.actors[j]? = some a)
    {conn : ConnHandle} {ack : Nat} (hadding : .addConnection conn ack ∈ a.pending)
    (hid : conn.connId = r.connId) : conn = sock.connHandle i r := by
  obtain ⟨sock', r', hsock', htask', hid', hstage'⟩ := hsound.accounted.adding_registers ha hadding
  -- one registration has the id, so the command was sent for this one
  have hi := hsound.numbered.alone conn.outbound i sock' sock r' r hsock' hsock htask' htask
    (hid'.trans hid)
  rw [hi] at hsock'
  obtain rfl : sock' = sock := Option.some.inj (hsock'.symm.trans hsock)
  obtain rfl : r' = r := by
    rw [htask'] at htask
    cases htask
    rfl
  have hours := (hexpecting i sock' r' j ack hsock' htask' hstage').pending _ ⟨a, ha, hadding⟩ rfl
  cases hours
  rfl

/-- A registration adds nothing else. -/
theorem Sole.step_registering {s t : Server Y} (hsound : s.Sound) (hexpecting : s.Expecting)
    {cfg : Configuration} {l : Label Y} (h : Server.step cfg s l = some t) {i : Nat} {sock : Socket}
    (hsock : s.sockets[i]? = some sock) {r : Registration} (htask : sock.task = .registering r)
    {j : Nat} (hs : s.Sole j (sock.connHandle i r)) : t.Sole j (sock.connHandle i r) := by
  intro b hb conn hconn
  obtain ⟨a, ha, ⟨old, hold, hcore⟩ | ⟨ack, hadding, hid⟩⟩ := step_mapped h hb hconn
  · exact hcore.symm.trans (hs a ha old hold)
  · exact congrArg ConnHandle.core (own_adding hsound hexpecting hsock htask ha hadding hid)

/-- While a socket registers, its own connection is the only one of its id. -/
theorem sole_registering {s t : Server Y} (hsound : s.Sound) (hexpecting : s.Expecting)
    {cfg : Configuration} {l : Label Y} (h : Server.step cfg s l = some t) {i : Nat}
    (hvetted : ∀ sock, s.sockets[i]? = some sock → s.Vetted i sock) {sock' : Socket}
    (hsock' : t.sockets[i]? = some sock') {r' : Registration}
    (htask' : sock'.task = .registering r') (j : Nat) : t.Sole j (sock'.connHandle i r') := by
  rcases registering_was h hsock' htask' with ⟨sock, r, hsock, htask, hsame⟩ | ⟨_, hnew⟩
  · rw [← hsame]
    exact ((hvetted sock hsock).sole r htask j).step_registering hsound hexpecting h hsock htask
  · -- no actor has heard of the next id
    intro b hb conn hconn
    have hid : (sock'.connHandle i r').connId = s.nextConnId := hnew
    obtain ⟨a, ha, ⟨old, hold, _⟩ | ⟨ack, hadding, hsame⟩⟩ := step_mapped h hb hconn
    · have hlt := hsound.numbered.mapped j a ha _ old hold
      omega
    · obtain ⟨sock, r, hsock, htask, hsame', _⟩ := hsound.accounted.adding_registers ha hadding
      have hlt := hsound.numbered.registering _ sock r hsock htask
      omega

/-! ## Turns of a socket -/

/-- What is queued was queued, or is a frame of its key. -/
theorem SocketTurn.queued {cfg : Configuration} {s t : Server Y} {i : Nat} {sock sock' : Socket}
    {l : Label Y} (h : SocketTurn cfg s t i sock l sock') {key : String} {data : Bytes}
    (hdata : data ∈ sock'.client.queued key) :
    data ∈ sock.client.queued key ∨
      ∃ frame, IncomingFrame.parse Y data = some frame ∧ frame.routingKey = key := by
  have hsame : sock'.client.queue = sock.client.queue → data ∈ sock.client.queued key := by
    intro hqueue
    rw [ClientConnection.queued, ← hqueue]
    exact hdata
  cases h with
  | idle | hangup | timeout | calls | finds | sends | leave | clean => exact Or.inl hdata
  | connected request results htask =>
    exact Or.inl (hsame (sock.connected_holds Y request results).queue)
  | authenticated request results readOnly htask =>
    exact Or.inl (hsame (sock.authenticated_holds Y request results readOnly s.nextConnId).queue)
  | refused doc queues r j htask =>
    refine Or.inl (hsame ?_)
    rw [(Socket.failed_spec _ r).1]
    rfl
  | lost doc queues r j ack htask =>
    refine Or.inl (hsame ?_)
    rw [(Socket.failed_spec _ r).1]
  | acked doc queues r j ack htask =>
    refine Or.inl ?_
    -- `register` has taken the queue of its own key away
    rw [ClientConnection.queued, (sock.register_flow r j).1, Keyed.get?_erase] at hdata
    split at hdata
    · cases hdata
    · exact hdata
  | receive data' now htask =>
    have hframe := sock.handleFrame_cases Y cfg now data'
    generalize sock.handleFrame Y cfg now data' = handled at hframe hdata hsame ⊢
    cases hframe with
    | short | garbled | passes | asks | unread => exact Or.inl hdata
    | waits frame hlength hparse hnone hty =>
      rcases Socket.enqueue_cases cfg (sock.heard now) frame.routingKey data' with
        ⟨_, hpush⟩ | ⟨_, hreset⟩
      · rw [hpush] at hdata
        rcases List.mem_append.mp ((ClientConnection.push_queued ..) ▸ hdata) with hold | hnew
        · exact Or.inl hold
        · split at hnew
          next hkey =>
            rw [List.mem_singleton.mp hnew]
            exact Or.inr ⟨frame, hparse, hkey.symm⟩
          next => cases hnew
      · refine Or.inl (hsame ?_)
        rw [hreset]
        rfl

/-- The hooks of both rounds have let the request in. -/
theorem LetIn.of_rounds {trace rest : List SocketEvent} {request : AuthRequest}
    {onConnect onAuthenticate : List HookResult} {readOnly : Bool}
    (hconnect : firstError onConnect = none) (hmem : .onConnect request onConnect ∈ trace)
    (hauthenticate : firstError onAuthenticate = none) :
    LetIn (trace ++ .onAuthenticate request onAuthenticate readOnly :: rest) request readOnly := by
  refine ⟨onConnect, onAuthenticate, hconnect, hauthenticate, ?_⟩
  have hfirst : [SocketEvent.onConnect request onConnect].Sublist trace :=
    List.singleton_sublist.mpr hmem
  exact hfirst.append (List.cons_sublist_cons.mpr (List.nil_sublist _))

/-- A registration whose `ack` has arrived is admitted. -/
theorem Vetted.admitted {s : Server Y} {i : Nat} {sock : Socket} (hs : s.Vetted i sock)
    (hsound : s.Sound) (hexpecting : s.Expecting) (hsock : s.sockets[i]? = some sock)
    {r : Registration} (htask : sock.task = .registering r) {j ack : Nat}
    (hstage : r.stage = .await j ack) (hacked : s.awaited j ack = some true) :
    s.Admitted i sock.trace r.request.key j r.connId (sock.connHandle i r) where
  letIn := by
    have hname := hsound.named.requests i sock hsock r.request (by rw [htask]; rfl)
    exact ⟨r.request, rfl, hname, hs.registering r htask⟩
  numbered := rfl
  addressed := rfl
  owned := rfl
  sent := ⟨ack, hs.awaiting r j ack htask hstage⟩
  added := by
    obtain ⟨a, ha, hin⟩ := awaited_true hacked
    obtain ⟨a', ha', hname⟩ := hsound.named.registering i sock hsock r j htask
      (by rw [hstage]; exact decide_eq_true rfl)
    obtain rfl : a = a' := Option.some.inj (ha.symm.trans ha')
    have hkey := hsound.named.requests i sock hsock r.request (by rw [htask]; rfl)
    exact ⟨a, ha, hname.trans hkey, (hexpecting i sock r j ack hsock htask hstage).added a ha hin⟩

/-- What a registering socket has of the hooks. -/
theorem Vetted.registering_turn {s t : Server Y} {i : Nat} {sock sock' : Socket}
    (hs : s.Vetted i sock) {cfg : Configuration} {l : Label Y}
    (hturn : SocketTurn cfg s t i sock l sock') {r' : Registration}
    (htask' : sock'.task = .registering r') : LetIn sock'.trace r'.request r'.readOnly := by
  rcases hturn.tasks with rfl | hnext
  · exact hs.registering r' htask'
  · have hgrows := hturn.grows
    rw [htask'] at hnext
    generalize sock'.trace = trace at hnext hgrows ⊢
    cases hnext with
    | rests task hrests => cases hrests
    | starts request results readOnly rest hlabel htask hin htrace =>
      subst htrace
      -- the second round comes after the first, on the same trace
      obtain ⟨onConnect, hconnect, hmem⟩ := hs.asking request htask
      exact LetIn.of_rounds hconnect hmem hin
    | continues r again stage htask => exact (hs.registering r htask).mono hgrows
    | awaits doc queues r j hlabel htask => exact (hs.registering r htask).mono hgrows

theorem Vetted.asking_turn {s t : Server Y} {i : Nat} {sock sock' : Socket}
    (hs : s.Vetted i sock) {cfg : Configuration} {l : Label Y}
    (hturn : SocketTurn cfg s t i sock l sock') {request : AuthRequest}
    (htask' : sock'.task = .authenticating request) :
    ∃ results, firstError results = none ∧ .onConnect request results ∈ sock'.trace := by
  rcases hturn.tasks with rfl | hnext
  · exact hs.asking request htask'
  · rw [htask'] at hnext
    cases hnext with
    | rests task hrests => cases hrests
    | asks request results hlabel htask hin htrace => exact ⟨results, hin, htrace⟩

theorem Vetted.awaiting_turn {s t : Server Y} {i : Nat} {sock sock' : Socket}
    (hs : s.Vetted i sock) {cfg : Configuration} {l : Label Y}
    (hturn : SocketTurn cfg s t i sock l sock') {r' : Registration} {j ack : Nat}
    (htask' : sock'.task = .registering r') (hstage' : r'.stage = .await j ack) :
    .command j (.addConnection (sock'.connHandle i r') ack) ∈ sock'.trace := by
  rcases hturn.tasks with rfl | hnext
  · exact hs.awaiting r' j ack htask' hstage'
  · have hsame : ∀ (r : Registration) (stage : Stage),
        sock'.connHandle i { r with stage := stage } = sock.connHandle i r := by
      intro r stage
      rw [Socket.connHandle, Socket.connHandle, hturn.socketId]
    rw [htask'] at hnext
    generalize htrace : sock'.trace = trace at hnext ⊢
    cases hnext with
    | rests task hrests => cases hrests
    | starts => cases hstage'
    | continues r again stage htask hnot => exact absurd hstage' (hnot j ack)
    | awaits doc queues r k hlabel htask hstage hintroduced =>
      cases hstage'
      rw [hsame, hintroduced]
      exact List.mem_append_right _ (List.mem_singleton_self _)

/-- **The step lemma.** -/
theorem Vetted.step {s t : Server Y} (hsound : s.Sound) (hexpecting : s.Expecting) {i : Nat}
    (hs : ∀ sock, s.sockets[i]? = some sock → s.Vetted i sock) {cfg : Configuration} {l : Label Y}
    (h : Server.step cfg s l = some t) {sock' : Socket} (hsock' : t.sockets[i]? = some sock') :
    t.Vetted i sock' := by
  rcases step_socket h hsock' with ⟨sock, hsock, hturn⟩ | ⟨_, now, _, rfl⟩
  · have hold := hs sock hsock
    refine ⟨fun key data hdata => ?_, fun request htask' => hold.asking_turn hturn htask',
      fun r' htask' => hold.registering_turn hturn htask',
      fun r' htask' j => sole_registering hsound hexpecting h hs hsock' htask' j,
      fun r' j ack htask' hstage' => hold.awaiting_turn hturn htask' hstage', fun est hest => ?_⟩
    · rcases hturn.queued hdata with hwas | hnew
      · exact hold.queued key data hwas
      · exact hnew
    · rcases hturn.established hest with hwas | ⟨r, j, ack, htask, hstage, hacked, rfl, hreads⟩
      · obtain ⟨handle, hadmitted, hsole⟩ := hold.established est hwas
        have hsettled := hsound.numbered.established i sock hsock est hwas
        rw [← hadmitted.numbered] at hsettled
        exact ⟨handle, hadmitted.step h hturn.grows, hsole.step hsettled hsound.accounted h⟩
      · have hadmitted := hold.admitted hsound hexpecting hsock htask hstage hacked
        have hsole := (hold.sole r htask j).step_registering hsound hexpecting h hsock htask
        exact ⟨_, hadmitted.step h hturn.grows, hsole⟩
  · refine ⟨fun key data hdata => ?_, fun request htask => ?_, fun r htask => ?_,
      fun r htask => ?_, fun r j ack htask => ?_, fun est hest => ?_⟩
    · cases hdata
    · cases htask
    · cases htask
    · cases htask
    · cases htask
    · cases hest

/-- Every socket is vetted. -/
structure Guarded (s : Server Y) : Prop where
  sound : s.Sound
  expecting : s.Expecting
  vetted : ∀ (i : Nat) (sock : Socket), s.sockets[i]? = some sock → s.Vetted i sock

theorem Guarded.step {s t : Server Y} (hs : s.Guarded) {cfg : Configuration} {l : Label Y}
    (h : Server.step cfg s l = some t) : t.Guarded where
  sound := hs.sound.step h
  expecting := hs.expecting.step hs.sound.accounted hs.sound.named h
  vetted i _ hsock := Vetted.step hs.sound hs.expecting (hs.vetted i) h hsock

theorem guarded_of_run {cfg : Configuration} {ls : List (Label Y)} {s : Server Y}
    (hrun : Lts.exec (Server.step cfg) (build Y) ls = some s) : s.Guarded :=
  Lts.exec_invariant (I := Guarded) (fun _ _ _ hstep hs => hs.step hstep) hrun
    ⟨build_sound Y, build_expecting Y, fun _ _ h => by cases h⟩

/-- A registration is over when its `ack` has arrived. -/
theorem registered {s t : Server Y} {cfg : Configuration} {i : Nat} {doc : Y.Doc} {queues : Queues}
    (h : Server.step cfg s (.register i doc queues) = some t) {sock : Socket}
    (hsock : s.sockets[i]? = some sock) {r : Registration} (htask : sock.task = .registering r)
    {j ack : Nat} (hstage : r.stage = .await j ack) (hacked : s.awaited j ack = some true) :
    t.sockets[i]? = some (sock.register r j).1 := by
  cases step_cases h with
  | register _ _ _ sock₁ r₁ _ hsock₁ htask₁ hregister =>
    obtain rfl : sock = sock₁ := Option.some.inj (hsock.symm.trans hsock₁)
    obtain rfl : r = r₁ := by
      rw [htask] at htask₁
      cases htask₁
      rfl
    cases registerStep_cases hregister with
    | acked handle ack' hawaits =>
      rw [hstage] at hawaits
      cases hawaits
      rw [sendAll_sockets]
      exact (getElem?_set_of_some hsock _ i).trans (if_pos rfl)
    | calls call next u hcalls | finds call handle u hcalls | sends handle hcalls
    | refused handle hcalls =>
      rw [hstage] at hcalls
      cases hcalls
    | lost handle ack' hawaits hlost =>
      rw [hstage] at hawaits
      cases hawaits
      rw [hacked] at hlost
      cases hlost

/-- What a socket passes on is for a connection that was admitted, and the only
one of its id from now on. -/
theorem Guarded.passes {s t : Server Y} (hs : s.Guarded) {cfg : Configuration} {l : Label Y}
    (h : Server.step cfg s l = some t) {i : Nat} {sock sock' : Socket}
    (hsock : s.sockets[i]? = some sock) (hturn : SocketTurn cfg s t i sock l sock')
    {j connId : Nat} {data : Bytes}
    (hmem : .command j (.clientFrame connId data) ∈ sock'.trace.drop sock.trace.length) :
    ∃ frame handle, IncomingFrame.parse Y data = some frame ∧
      s.Admitted i sock.trace frame.routingKey j connId handle ∧ t.Sole j handle ∧
      t.Settled connId := by
  have hvetted := hs.vetted i sock hsock
  have hnumbered := hs.sound.numbered.step hs.sound.accounted h
  obtain ⟨more, htrace, hmore⟩ := hturn.traced
  rw [htrace, List.drop_left] at hmem
  have he := hmore _ hmem
  cases he with
  | passes data now frame est htask hlength hparse hest =>
    obtain ⟨hin, hkey⟩ := Keyed.mem_iff_get?.mp hest
    obtain ⟨handle, hadmitted, hsole⟩ := hvetted.established est hin
    have hsettled := hs.sound.numbered.established i sock hsock est hin
    refine ⟨frame, handle, hparse, hkey ▸ hadmitted, ?_, hsettled.step h⟩
    exact hsole.step (hadmitted.numbered ▸ hsettled) hs.sound.accounted h
  | drains doc queues r k ack data htask hstage hacked hdata =>
    -- what was queued for the key goes to the actor once the `ack` is there
    obtain ⟨frame, hparse, hkey⟩ := hvetted.queued _ data hdata
    have hadmitted := hvetted.admitted hs.sound hs.expecting hsock htask hstage hacked
    have hsole := (hvetted.sole r htask j).step_registering hs.sound hs.expecting h hsock htask
    have hest : (⟨r.request.key, j, r.connId⟩ : Established) ∈
        (sock.register r j).1.client.established.vals := by
      rw [(sock.register_spec r j).1]
      exact List.mem_cons_self ..
    have hsettled := hnumbered.established i _ (registered h hsock htask hstage hacked) _ hest
    exact ⟨frame, _, hparse, hkey ▸ hadmitted, hsole, hsettled⟩

end Server

/-- **No frame without authentication**: whenever a frame is passed on to an
actor, its routing key had been let in by the hooks of both rounds, on this
socket and for the actor's document, and the actor had added the connection the
frame is for, with that key and with the `read_only` the hooks have left. From
then on the actor has this connection under the id or none, and with none the
frame does nothing. -/
theorem frames_admitted {cfg : Configuration} {ls : List (Server.Label Y)} {s t : Server Y}
    (hrun : Lts.exec (Server.step cfg) (Server.build Y) ls = some s) {l : Server.Label Y}
    (hstep : Server.step cfg s l = some t) {i : Nat} {sock sock' : Socket}
    (hsock : s.sockets[i]? = some sock) (hsock' : t.sockets[i]? = some sock') {j connId : Nat}
    {data : Bytes}
    (hframe : .command j (.clientFrame connId data) ∈ sock'.trace.drop sock.trace.length) :
    ∃ frame handle, IncomingFrame.parse Y data = some frame ∧
      s.Admitted i sock.trace frame.routingKey j connId handle ∧
      ∀ later u, Lts.exec (Server.step cfg) t later = some u → ∀ a, u.actors[j]? = some a →
        (∀ conn, a.actor.world.connections.get? connId = some conn → conn.core = handle.core) ∧
        (a.actor.world.connections.get? connId = none → ∀ o,
          (a.actor.world.handleCommand cfg o (.clientFrame connId data)).1 = a.actor.world) := by
  have hguarded := Server.guarded_of_run hrun
  rcases Server.step_socket hstep hsock' with ⟨old, hold, hturn⟩ | ⟨hi, _⟩
  · obtain rfl : sock = old := Option.some.inj (hsock.symm.trans hold)
    obtain ⟨frame, handle, hparse, hadmitted, hsole, hsettled⟩ :=
      hguarded.passes hstep hsock hturn hframe
    refine ⟨frame, handle, hparse, hadmitted, fun later u hlater a ha => ?_⟩
    have hid := hadmitted.numbered
    -- the id is settled: the actor gets no other connection under it
    have hend : u.Guarded ∧ u.Settled connId ∧ u.Sole j handle :=
      Lts.exec_invariant
        (I := fun v : Server Y => v.Guarded ∧ v.Settled connId ∧ v.Sole j handle)
        (fun v l w hnext hv => ⟨hv.1.step hnext, hv.2.1.step hnext,
          hv.2.2.step (hid.symm ▸ hv.2.1) hv.1.sound.accounted hnext⟩)
        hlater ⟨hguarded.step hstep, hsettled, hsole⟩
    refine ⟨fun conn hconn => ?_, fun hnone o => World.handleClientFrame_absent o data hnone⟩
    exact hend.2.2 a ha conn (hid.symm ▸ hconn)
  · obtain ⟨hlt, _⟩ := List.getElem?_eq_some_iff.mp hsock
    omega

/-- The frames a socket passes on in a step. -/
def passedOn (start : Socket) (t : Server OneWriter.yrs) (data : Bytes) : Bool :=
  (t.sockets[0]?).any fun sock => (sock.trace.drop start.trace.length).any fun
    | .command 0 cmd => cmd = .clientFrame 1 data
    | _ => false

/-- An edit of a client that has joined. -/
theorem frames_admitted_edit :
    let s := OneWriter.serve {} (.connect 0 :: OneWriter.enters 0 0 "doc")
    ∃ sock frame handle, s.sockets[0]? = some sock ∧
      IncomingFrame.parse OneWriter.yrs (OneWriter.editFrame 0) = some frame ∧
      s.Admitted 0 sock.trace frame.routingKey 0 1 handle := by
  intro s
  have hsome : ((s.sockets[0]?).bind fun sock =>
      (Server.step {} s (.receive 0 (OneWriter.editFrame 0) 0)).map fun t =>
        passedOn sock t (OneWriter.editFrame 0)) = some true := by
    decide +kernel
  obtain ⟨sock, hsock, hnext⟩ := Option.bind_eq_some_iff.mp hsome
  obtain ⟨t, ht, hpassed⟩ := Option.map_eq_some_iff.mp hnext
  obtain ⟨sock', hsock', hany⟩ := (Option.any_eq_true _ _).mp hpassed
  obtain ⟨e, he, hframe⟩ := List.any_eq_true.mp hany
  split at hframe
  next cmd =>
    rw [of_decide_eq_true hframe] at he
    obtain ⟨frame, handle, hparse, hadmitted, _⟩ :=
      frames_admitted (Lts.exec_reach (by decide +kernel)) ht hsock hsock' he
    exact ⟨sock, frame, handle, hsock, hparse, hadmitted⟩
  next => cases hframe

end Hocuspocus
