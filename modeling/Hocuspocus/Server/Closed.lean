import Hocuspocus.OneWriter.Sockets
import Hocuspocus.Server.Numbers
import Hocuspocus.Server.Traces

/-!
# What comes from a closed socket

`terminate` puts a `Close` on the outbound queue, and so do the actors when they
reject a message or evict someone; the reader loop goes on. What it reads then
is handled like anything else: a request starts the hooks, a frame of an established
routing key goes to the actor. Neither the socket nor its task knows that it is
closed, so whether the rest of its traffic matters depends on what it sends and on
what the hooks say.

It is ignored as long as `on_connect` turns down every request of the socket, and
its frames are for connections their actor no longer has (`Turned`). The first keeps
the socket out of `on_authenticate` and of `register_connection` (`Muted`), so no key
becomes established and nothing that was queued is passed on. For the second, an id
is given out once, so a connection that was dropped does not come back.
-/

namespace Hocuspocus

variable {Y : Yrs}

/-- A `Close` was issued for the socket, by its own task or by an actor. -/
def Server.Closed (s : Server Y) (i : Nat) : Prop :=
  (∃ sock event, s.sockets[i]? = some sock ∧ .out (.close event) ∈ sock.trace) ∨
    ∃ (j : Nat) (a : Spawned Y) (connId : Nat) (event : CloseEvent) (res : SendResult),
      s.actors[j]? = some a ∧ .close connId i event res ∈ a.actor.world.trace

/-- What the socket has done has no effect: no request is authenticated, and an
actor that handles a frame changes neither the document nor the presence. -/
structure Server.Ignores (cfg : Configuration) (s : Server Y) (e : SocketEvent) : Prop where
  denied : ∀ request results readOnly, e = .onAuthenticate request results readOnly →
    firstError results ≠ none
  unmoved : ∀ j connId data, e = .command j (.clientFrame connId data) →
    ∀ a, s.actors[j]? = some a → ∀ o,
      (a.actor.world.handleCommand cfg o (.clientFrame connId data)).1.doc = a.actor.world.doc ∧
      (a.actor.world.handleCommand cfg o (.clientFrame connId data)).1.awareness
        = a.actor.world.awareness

/-- The step turns the socket away: a frame for an established key finds that its
actor has dropped the connection, and `on_connect` lets no request in. -/
def Server.Turned (i : Nat) (s : Server Y) : Server.Label Y → Prop
  | .receive k data _ => ∀ sock frame est, k = i → s.sockets[k]? = some sock → data.length ≠ 1 →
      IncomingFrame.parse Y data = some frame →
      sock.client.established.get? frame.routingKey = some est → ∀ a, s.actors[est.doc]? = some a →
      a.actor.world.connections.get? est.connId = none
  | .connected k results => k = i → firstError results ≠ none
  | _ => True

/-- No request of the socket has passed `on_connect`. -/
def SocketTask.Outside : SocketTask → Prop
  | .authenticating _ | .registering _ => False
  | .reading | .connecting _ | .cleaning | .ended => True

theorem Socket.Extends.imp {P Q : SocketEvent → Prop} {sock sock' : Socket}
    (h : sock.Extends P sock') (hPQ : ∀ e, P e → Q e) : sock.Extends Q sock' := by
  obtain ⟨more, htrace, hmore⟩ := h
  exact ⟨more, htrace, fun e he => hPQ e (hmore e he)⟩

namespace Server

/-- What was issued stays issued. -/
theorem Closed.step {s t : Server Y} {cfg : Configuration} {l : Label Y}
    (h : Server.step cfg s l = some t) {i : Nat} (hs : s.Closed i) : t.Closed i := by
  rcases hs with ⟨sock, event, hsock, hmem⟩ | ⟨j, a, connId, event, res, ha, hmem⟩
  · have hlength := sockets_length h
    obtain ⟨hlt, _⟩ := List.getElem?_eq_some_iff.mp hsock
    have hsock' : t.sockets[i]? = some t.sockets[i] := List.getElem?_eq_getElem (by omega)
    rcases step_socket h hsock' with ⟨old, hold, hturn⟩ | ⟨hi, _⟩
    · obtain rfl : sock = old := Option.some.inj (hsock.symm.trans hold)
      exact Or.inl ⟨_, event, hsock', hturn.grows.subset hmem⟩
    · omega
  · obtain ⟨b, hb, hturn⟩ := step_turn h ha
    exact Or.inr ⟨j, b, connId, event, res, hb, hturn.grows.subset hmem⟩

/-- No request has been authenticated, and no frame has gone to a connection. -/
structure Deaf (s : Server Y) (e : SocketEvent) : Prop where
  denied : ∀ request results readOnly, e = .onAuthenticate request results readOnly →
    firstError results ≠ none
  absent : ∀ j connId data, e = .command j (.clientFrame connId data) → s.Absent j connId

theorem Deaf.ignores {s : Server Y} {e : SocketEvent} (h : s.Deaf e) (cfg : Configuration) :
    s.Ignores cfg e where
  denied := h.denied
  unmoved j connId data he a ha o := by
    obtain ⟨a', ha', hnone⟩ := (h.absent j connId data he).missing
    obtain rfl : a = a' := Option.some.inj (ha.symm.trans ha')
    have hsame : (a.actor.world.handleCommand cfg o (.clientFrame connId data)).1 = a.actor.world :=
      World.handleClientFrame_absent o data hnone
    rw [hsame]
    exact ⟨rfl, rfl⟩

theorem Deaf.step {s t : Server Y} {e : SocketEvent} (hs : s.Deaf e) (haccounted : s.Accounted)
    {cfg : Configuration} {l : Label Y} (h : Server.step cfg s l = some t) : t.Deaf e where
  denied := hs.denied
  absent j connId data he := (hs.absent j connId data he).step haccounted h

/-- Since `start` the socket has got no request past `on_connect`: it establishes no
key, and was heard by nobody. -/
structure Muted (i : Nat) (start : Socket) (s : Server Y) (sock : Socket) : Prop where
  known : s.sockets[i]? = some sock
  outside : sock.task.Outside
  keys : ∀ est ∈ sock.client.established.vals, est ∈ start.client.established.vals
  unheard : start.Extends s.Deaf sock

/-- A socket that is turned away stays outside. -/
theorem Turned.outside {cfg : Configuration} {s t : Server Y} {i : Nat} {sock sock' : Socket}
    {l : Label Y} (hturned : s.Turned i l) (hturn : SocketTurn cfg s t i sock l sock')
    (houtside : sock.task.Outside) : sock'.task.Outside := by
  rcases hturn.tasks with rfl | hnext
  · exact houtside
  · generalize sock'.task = task at hnext ⊢
    cases hnext with
    | rests task hrests => cases task <;> trivial
    | connects request => trivial
    | asks request results hlabel htask hin =>
      subst hlabel
      exact absurd hin (hturned rfl)
    | starts request results readOnly rest hlabel htask =>
      rw [htask] at houtside
      exact houtside.elim
    | continues r again stage htask | awaits doc queues r j hlabel htask =>
      rw [htask] at houtside
      exact houtside.elim

/-- Only a registration establishes a key. -/
theorem SocketTurn.outside_keys {cfg : Configuration} {s t : Server Y} {i : Nat}
    {sock sock' : Socket} {l : Label Y} (h : SocketTurn cfg s t i sock l sock')
    (houtside : sock.task.Outside) {est : Established}
    (hest : est ∈ sock'.client.established.vals) : est ∈ sock.client.established.vals := by
  rcases h.established hest with hwas | ⟨r, j, ack, htask, _⟩
  · exact hwas
  · rw [htask] at houtside
    exact houtside.elim

/-- A socket that is outside and turned away does nothing that is heard. -/
theorem Turned.deaf {s t : Server Y} {cfg : Configuration} {l : Label Y}
    (h : Server.step cfg s l = some t) (hsound : s.Sound) {i : Nat} (hturned : s.Turned i l)
    {sock : Socket} (hsock : s.sockets[i]? = some sock) (houtside : sock.task.Outside)
    {e : SocketEvent} (he : s.Traces i sock l e) : t.Deaf e := by
  cases he with
  | out | onConnect | leaves =>
    exact ⟨nofun, nofun⟩
  | onAuthenticate request results readOnly htask =>
    rw [htask] at houtside
    exact houtside.elim
  | introduces doc queues r j htask | drains doc queues r j ack data htask =>
    rw [htask] at houtside
    exact houtside.elim
  | passes data now frame est hreads hlength hparse hest =>
    refine ⟨nofun, fun j connId data' heq => ?_⟩
    cases heq
    -- turned away: the actor of this key has dropped the connection
    have hmem : est ∈ sock.client.established.vals := (Keyed.mem_iff_get?.mp hest).1
    obtain ⟨a, ha, _⟩ := hsound.named.established i sock hsock est hmem
    have hnone := hturned sock frame est rfl hsock hlength hparse hest a ha
    have habsent : s.Absent est.doc est.connId :=
      ⟨hsound.numbered.established i sock hsock est hmem, a, ha, hnone⟩
    exact habsent.step hsound.accounted h

/-- **The step lemma.** -/
theorem Muted.step {s t : Server Y} {i : Nat} {start sock : Socket} (hs : Muted i start s sock)
    {cfg : Configuration} {l : Label Y} (h : Server.step cfg s l = some t)
    (hsound : s.Sound) (hturned : s.Turned i l) : ∃ sock', Muted i start t sock' := by
  have hsock := hs.known
  have hlength := sockets_length h
  obtain ⟨hlt, _⟩ := List.getElem?_eq_some_iff.mp hsock
  have hsock' : t.sockets[i]? = some t.sockets[i] := List.getElem?_eq_getElem (by omega)
  rcases step_socket h hsock' with ⟨sock', hwas, hturn⟩ | ⟨hi, _⟩
  · obtain rfl : sock = sock' := Option.some.inj (hsock.symm.trans hwas)
    refine ⟨_, hsock', hturned.outside hturn hs.outside,
      fun est hest => hs.keys est (hturn.outside_keys hs.outside hest), ?_⟩
    have hbefore := hs.unheard.imp fun e he => he.step hsound.accounted h
    exact hbefore.trans (hturn.traced.imp fun e he => hturned.deaf h hsound hsock hs.outside he)
  · omega

end Server

/-- **A closed socket is ignored** as long as it is turned away: from a state in
which a `Close` was issued for it and it reads on, in every run whose steps turn it
away, it establishes no key, and what it does has no effect. -/
theorem closed_socket_ignored {cfg : Configuration} {ls : List (Server.Label Y)} {s : Server Y}
    (hrun : Lts.exec (Server.step cfg) (Server.build Y) ls = some s) {i : Nat} {sock : Socket}
    (hsock : s.sockets[i]? = some sock) (hreads : sock.task = .reading) (hclosed : s.Closed i)
    {later : List (Server.Label Y)} {t : Server Y}
    (hlater : Lts.exec (Server.step cfg) s later = some t)
    (hturned : Lts.Along (Server.step cfg) (fun s l _ => s.Closed i → s.Turned i l) s later) :
    ∃ sock', t.sockets[i]? = some sock' ∧
      (∀ est ∈ sock'.client.established.vals, est ∈ sock.client.established.vals) ∧
      sock.Extends (t.Ignores cfg) sock' := by
  have hmuted : Server.Muted i sock s sock := by
    refine ⟨hsock, ?_, fun est hest => hest, .same rfl⟩
    rw [hreads]
    trivial
  have hend : t.Sound ∧ t.Closed i ∧ ∃ sock', Server.Muted i sock t sock' :=
    Lts.exec_invariant_along
      (I := fun u : Server Y => u.Sound ∧ u.Closed i ∧ ∃ sock', Server.Muted i sock u sock')
      (fun u l v hstep hc hu => by
        obtain ⟨hsound, hissued, sock', hmuted'⟩ := hu
        exact ⟨hsound.step hstep, hissued.step hstep, hmuted'.step hstep hsound (hc hissued)⟩)
      hturned hlater ⟨Server.sound_of_run hrun, hclosed, sock, hmuted⟩
  obtain ⟨sock', hmuted'⟩ := hend.2.2
  exact ⟨sock', hmuted'.known, hmuted'.keys, hmuted'.unheard.imp fun e he => he.ignores cfg⟩

/-- A request that the `on_connect` hooks deny. -/
def deniedOnce : List (Server.Label OneWriter.yrs) :=
  [.connect 0, .receive 0 (OneWriter.authFrame "doc") 0, .connected 0 [.error .forbidden]]

/-- The first socket of the server, if it reads on and a `Close` was issued for it. -/
def closedAt (s : Server OneWriter.yrs) : Option Socket :=
  (s.sockets[0]?).filter fun sock => decide (sock.task = .reading) &&
    ((sock.trace.any fun
      | .out (.close _) => true
      | _ => false) ||
    s.actors.any fun a => a.actor.world.trace.any fun
      | .close _ 0 _ _ => true
      | _ => false)

theorem closedAt_spec {s : Server OneWriter.yrs} {sock : Socket} (h : closedAt s = some sock) :
    s.sockets[0]? = some sock ∧ sock.task = .reading ∧ s.Closed 0 := by
  obtain ⟨hsock, hboth⟩ := Option.filter_eq_some_iff.mp h
  obtain ⟨hreads, hissued⟩ := Bool.and_eq_true_iff.mp hboth
  refine ⟨hsock, of_decide_eq_true hreads, ?_⟩
  rcases Bool.or_eq_true_iff.mp hissued with hany | hany
  · obtain ⟨e, he, hclose⟩ := List.any_eq_true.mp hany
    split at hclose
    next event => exact Or.inl ⟨sock, event, hsock, he⟩
    next => cases hclose
  · obtain ⟨a, ha, hany'⟩ := List.any_eq_true.mp hany
    obtain ⟨j, hj⟩ := List.getElem?_of_mem ha
    obtain ⟨e, he, hclose⟩ := List.any_eq_true.mp hany'
    split at hclose
    next connId event res => exact Or.inr ⟨j, a, connId, event, res, hj, he⟩
    next => cases hclose

/-- `Turned`, decided. -/
def turned (i : Nat) (s : Server OneWriter.yrs) : Server.Label OneWriter.yrs → Bool
  | .receive k data _ => decide (k ≠ i) || (s.sockets[k]?).all fun sock =>
      (IncomingFrame.parse OneWriter.yrs data).all fun frame =>
        (sock.client.established.get? frame.routingKey).all fun est =>
          (s.actors[est.doc]?).all fun a => (a.actor.world.connections.get? est.connId).isNone
  | .connected k results => decide (k ≠ i) || (firstError results).isSome
  | _ => true

theorem turned_sound {i : Nat} {s : Server OneWriter.yrs} {l : Server.Label OneWriter.yrs}
    (h : turned i s l = true) : s.Turned i l := by
  cases l with
  | receive k data now =>
    intro sock frame est hk hsock hlength hparse hest a ha
    rw [turned, hsock, Option.all_some, hparse, Option.all_some, hest, Option.all_some, ha,
      Option.all_some, decide_eq_false (not_not_intro hk), Bool.false_or] at h
    exact Option.isNone_iff_eq_none.mp h
  | connected k results =>
    intro hk hin
    rw [turned, hin, decide_eq_false (not_not_intro hk)] at h
    cases h
  | _ => trivial

/-- Two clients edit a document, until the first sends a message no client may send:
the actor closes and drops its connection. -/
def broadcastsIllegally : List (Server.Label OneWriter.yrs) :=
  [.connect 0, .connect 0] ++ OneWriter.enters 0 0 "doc" ++ OneWriter.authenticates 1 "doc" ++
    OneWriter.registers 1 2 ++ OneWriter.handles 0 ++ OneWriter.registers 1 1 ++
    [.receive 0 ((OutgoingMessage.new OneWriter.yrs "doc").broadcastStateless OneWriter.yrs
      "hi").intoBytes 0] ++ OneWriter.handles 0

/-- It edits on, asks for another document, which it is denied, and edits that one
too; the other client edits meanwhile. -/
def sendsOn : List (Server.Label OneWriter.yrs) :=
  [.receive 0 (OneWriter.editFrame 1) 1] ++ OneWriter.handles 0 ++
    [.receive 0 (OneWriter.authFrame "other") 1, .connected 0 [.error .forbidden],
      .receive 0 (World.syncFrame OneWriter.yrs "other" (.update (OneWriter.edit 1))) 1,
      .receive 1 (OneWriter.editFrame 0) 1] ++ OneWriter.handles 0

/-- The edits of the closed client went to its actor, and only the other client's
was applied. -/
theorem closed_socket_ignored_sends_on :
    let s := OneWriter.serve {} broadcastsIllegally
    let t := Lts.reach (Server.step {}) s sendsOn
    (t.actors[0]?).map (fun a => appliedUpdates a.actor.world.history) = some [OneWriter.edit 0] ∧
    ∃ sock sock', s.sockets[0]? = some sock ∧ s.Closed 0 ∧ t.sockets[0]? = some sock' ∧
      (∀ est ∈ sock'.client.established.vals, est ∈ sock.client.established.vals) ∧
      sock.Extends (t.Ignores {}) sock' := by
  intro s t
  have hsome : (closedAt s).isSome = true := by
    decide +kernel
  obtain ⟨sock, hat⟩ := Option.isSome_iff_exists.mp hsome
  obtain ⟨hsock, hreads, hclosed⟩ := closedAt_spec hat
  have hcheck : Lts.check (Server.step {}) (turned 0) s sendsOn = true := by
    decide +kernel
  have hturned := Lts.along_of_check (P := fun s l _ => s.Closed 0 → s.Turned 0 l)
    (fun _ _ _ h _ => turned_sound h) hcheck
  obtain ⟨sock', hsock', hkeys, hextends⟩ := closed_socket_ignored
    (Lts.exec_reach (by decide +kernel)) hsock hreads hclosed (t := t)
    (Lts.exec_reach (by decide +kernel)) hturned
  exact ⟨by decide +kernel, sock, sock', hsock, hclosed, hsock', hkeys, hextends⟩

/-- The denied client asks again, is let in, and edits. -/
def deniedReturns : List (Server.Label OneWriter.yrs) :=
  OneWriter.enters 0 0 "doc" ++ [.receive 0 (OneWriter.editFrame 0) 0]

/-- A frame the socket has passed on since changes the document. -/
def heardSince (start : Socket) (t : Server OneWriter.yrs) : Bool :=
  match t.sockets[0]?, t.actors[0]? with
  | some sock, some a => (sock.trace.drop start.trace.length).any fun
    | .command 0 (.clientFrame connId data) =>
      let after : OneWriter.Doc :=
        (a.actor.world.handleCommand {} {} (.clientFrame connId data)).1.doc
      decide (after ≠ a.actor.world.doc)
    | _ => false
  | _, _ => false

theorem heardSince_spec {start : Socket} {t : Server OneWriter.yrs} (h : heardSince start t = true) :
    ¬ ∃ sock', t.sockets[0]? = some sock' ∧ start.Extends (t.Ignores {}) sock' := by
  rintro ⟨sock', hsock', more, htrace, hmore⟩
  unfold heardSince at h
  rw [hsock'] at h
  split at h
  next sock a heq ha =>
    obtain rfl := Option.some.inj heq
    obtain ⟨e, he, hmoves⟩ := List.any_eq_true.mp h
    rw [htrace, List.drop_left] at he
    split at hmoves
    next connId data =>
      exact of_decide_eq_true (p := (_ : OneWriter.Doc) ≠ _) hmoves
        ((hmore _ he).unmoved 0 connId data rfl a ha {}).1
    next => cases hmoves
  next => cases h

/-- The edit of a client that was denied. -/
theorem closed_socket_heard :
    ¬ ∀ (ls later : List (Server.Label OneWriter.yrs)) (s t : Server OneWriter.yrs) (i : Nat)
        (sock : Socket),
      Lts.exec (Server.step {}) (Server.build OneWriter.yrs) ls = some s →
      s.sockets[i]? = some sock → sock.task = .reading → s.Closed i →
      Lts.exec (Server.step {}) s later = some t →
      ∃ sock', t.sockets[i]? = some sock' ∧ sock.Extends (t.Ignores {}) sock' := by
  intro hall
  have hsome : ((closedAt (OneWriter.serve {} deniedOnce)).map fun sock =>
      heardSince sock (Lts.reach (Server.step {}) (OneWriter.serve {} deniedOnce) deniedReturns))
        = some true := by
    decide +kernel
  obtain ⟨sock, hat, hheard⟩ := Option.map_eq_some_iff.mp hsome
  obtain ⟨hsock, hreads, hclosed⟩ := closedAt_spec hat
  exact heardSince_spec hheard (hall deniedOnce deniedReturns _ _ 0 sock
    (Lts.exec_reach (by decide +kernel)) hsock hreads hclosed (Lts.exec_reach (by decide +kernel)))

end Hocuspocus
