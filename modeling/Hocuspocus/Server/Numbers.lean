import Hocuspocus.Server.Names

/-!
# Connection ids

`authenticate` takes a connection id from `next_conn_id` for each registration,
and no two have the same. An id is `Settled` once its registration is over:
nobody adds a connection of that id any more, so an actor that has none stays
without (`Absent`).
-/

namespace Hocuspocus

variable {Y : Yrs}

/-- A frame for a connection the actor does not have does nothing. -/
theorem World.handleClientFrame_absent (o : Ambient) {w : World Y} {connId : Nat} (data : Bytes)
    (h : w.connections.get? connId = none) : w.handleClientFrame o connId data = w := by
  unfold handleClientFrame
  rw [h]

namespace Server

/-- The id was given out, and nobody registers with it. -/
structure Settled (s : Server Y) (connId : Nat) : Prop where
  issued : connId < s.nextConnId
  done : ∀ (i : Nat) (sock : Socket) (r : Registration), s.sockets[i]? = some sock →
    sock.task = .registering r → r.connId ≠ connId

structure Numbered (s : Server Y) : Prop where
  registering : ∀ (i : Nat) (sock : Socket) (r : Registration), s.sockets[i]? = some sock →
    sock.task = .registering r → r.connId < s.nextConnId
  alone : ∀ (i i' : Nat) (sock sock' : Socket) (r r' : Registration),
    s.sockets[i]? = some sock → s.sockets[i']? = some sock' → sock.task = .registering r →
    sock'.task = .registering r' → r.connId = r'.connId → i = i'
  established : ∀ (i : Nat) (sock : Socket), s.sockets[i]? = some sock →
    ∀ est ∈ sock.client.established.vals, s.Settled est.connId
  mapped : ∀ (j : Nat) (a : Spawned Y), s.actors[j]? = some a → ∀ id conn,
    a.actor.world.connections.get? id = some conn → id < s.nextConnId

/-- The actor has no connection of the id, and gets none. -/
structure Absent (s : Server Y) (j connId : Nat) : Prop where
  settled : s.Settled connId
  missing : ∃ a, s.actors[j]? = some a ∧ a.actor.world.connections.get? connId = none

/-! ## The counter -/

theorem documentStep_nextConnId {s u : Server Y} {name : String} {doc : Y.Doc} {queues : Queues}
    {call : DocumentCall} {r : DocumentCall ⊕ Nat}
    (h : s.documentStep name doc queues call = some (u, r)) : u.nextConnId = s.nextConnId := by
  cases documentStep_cases h with
  | found | missing | joins | creates | locks | late | loads | spawns | inserts | forgets => rfl

theorem send_nextConnId (s : Server Y) (j : Nat) (cmd : DocCommand) :
    (s.send j cmd).1.nextConnId = s.nextConnId := by
  rw [send_eq]

theorem sendAll_nextConnId (cmds : List (Nat × DocCommand)) (s : Server Y) :
    (s.sendAll cmds).nextConnId = s.nextConnId := by
  rw [sendAll_eq]

theorem unloading_nextConnId (s : Server Y) (unloaded : Bool) (name : String) :
    (s.unloading unloaded name).nextConnId = s.nextConnId := by
  cases unloaded <;> rfl

theorem registerStep_nextConnId {s t : Server Y} {i : Nat} {sock : Socket} {r : Registration}
    {doc : Y.Doc} {queues : Queues} (h : s.registerStep i sock r doc queues = some t) :
    t.nextConnId = s.nextConnId := by
  cases registerStep_cases h with
  | calls call next u hstage hcall | finds call handle u hstage hcall =>
    exact documentStep_nextConnId (u := u) hcall
  | sends handle | refused handle =>
    exact send_nextConnId { s with nextAck := s.nextAck + 1 } handle _
  | acked handle ack => exact sendAll_nextConnId _ (s.setSocket i _)
  | lost => rfl

theorem directStep_nextConnId {s t : Server Y} {k : Nat} {e : DirectApply} {doc : Y.Doc}
    {queues : Queues} (h : s.directStep k e doc queues = some t) :
    t.nextConnId = s.nextConnId := by
  cases directStep_cases h with
  | calls call next u hreturned hstage hcall | finds call handle u hreturned hstage hcall =>
    exact documentStep_nextConnId (u := u) hcall
  | sends handle sent hreturned hstage hsent =>
    subst hsent
    exact send_nextConnId { s with nextAck := s.nextAck + 1 } handle _
  | answered => rfl

theorem connIdAfter_cases (s : Server Y) (results : List HookResult) :
    s.connIdAfter results = s.nextConnId ∨
      s.connIdAfter results = s.nextConnId + 1 := by
  unfold connIdAfter
  split
  · exact Or.inl rfl
  · exact Or.inr rfl

theorem connIdAfter_in (s : Server Y) {results : List HookResult}
    (hin : firstError results = none) : s.connIdAfter results = s.nextConnId + 1 := by
  rw [connIdAfter, hin]
  rfl

/-- Only `authenticate` takes an id. -/
theorem step_nextConnId {s t : Server Y} {cfg : Configuration} {l : Label Y}
    (h : Server.step cfg s l = some t) :
    t.nextConnId = s.nextConnId ∨
      (∃ i results readOnly, l = .authenticated i results readOnly) ∧
        t.nextConnId = s.nextConnId + 1 := by
  cases step_cases h with
  | authenticated i results readOnly =>
    exact (s.connIdAfter_cases results).imp_right fun hnext => ⟨⟨i, results, readOnly, rfl⟩, hnext⟩
  | connect | hangup | timeout | connected | clean | apply | unknown | recv | drop =>
    exact Or.inl rfl
  | receive i data now sock hsock htask | leave i key sock est hsock htask hest =>
    exact Or.inl (sendAll_nextConnId _ (s.setSocket i _))
  | register i doc queues sock r t hsock htask h => exact Or.inl (registerStep_nextConnId h)
  | direct k doc queues e t he h => exact Or.inl (directStep_nextConnId h)
  | external name data j hdoc => exact Or.inl (send_nextConnId s j _)
  | command j o a cmd batch b | actor j l a b =>
    exact Or.inl (unloading_nextConnId (s.setActor j _) _ _)

theorem nextConnId_le {s t : Server Y} {cfg : Configuration} {l : Label Y}
    (h : Server.step cfg s l = some t) : s.nextConnId ≤ t.nextConnId := by
  rcases step_nextConnId h with hsame | ⟨_, hnext⟩ <;> omega

/-! ## Registrations -/

theorem release_socketId (pending : List Bytes) : ∀ c : ClientConnection,
    (c.release pending).socketId = c.socketId := by
  induction pending with
  | nil => exact fun _ => rfl
  | cons msg pending ih => exact fun c => ih _

theorem SocketTurn.socketId {cfg : Configuration} {s t : Server Y} {i : Nat} {sock sock' : Socket}
    {l : Label Y} (h : SocketTurn cfg s t i sock l sock') :
    sock'.client.socketId = sock.client.socketId := by
  cases h with
  | idle | hangup | timeout | calls | finds | sends | leave | clean => rfl
  | connected request results htask =>
    unfold Socket.connected
    dsimp only
    split <;> rfl
  | authenticated request results readOnly htask =>
    unfold Socket.authenticated
    dsimp only
    split <;> rfl
  | refused doc queues r j htask =>
    rw [(Socket.failed_spec _ r).1]
    rfl
  | lost doc queues r j ack htask => rw [(Socket.failed_spec _ r).1]
  | acked doc queues r j ack htask =>
    unfold Socket.register
    dsimp only
    split
    · rfl
    · exact release_socketId _ _
  | receive data now htask =>
    have hframe := sock.handleFrame_cases Y cfg now data
    generalize sock.handleFrame Y cfg now data = handled at hframe ⊢
    cases hframe with
    | short | garbled | passes | asks | unread => rfl
    | waits frame hlength hparse hnone hty =>
      unfold Socket.enqueue
      dsimp only
      split
      · rfl
      · split <;> rfl

/-- A socket that registers did so before, with the same handle, or has the next
id. -/
theorem registering_was {s t : Server Y} {cfg : Configuration} {l : Label Y}
    (h : Server.step cfg s l = some t) {i : Nat} {sock' : Socket} {r' : Registration}
    (hsock' : t.sockets[i]? = some sock') (htask' : sock'.task = .registering r') :
    (∃ sock r, s.sockets[i]? = some sock ∧ sock.task = .registering r ∧
        sock.connHandle i r = sock'.connHandle i r') ∨
      (∃ results readOnly, l = .authenticated i results readOnly ∧ firstError results = none) ∧
        r'.connId = s.nextConnId := by
  rcases step_socket h hsock' with ⟨sock, hsock, hturn⟩ | ⟨_, now, _, rfl⟩
  · have hsame : ∀ (r : Registration) (again : Bool) (stage : Stage),
        sock.connHandle i r = sock'.connHandle i { r with again := again, stage := stage } := by
      intro r again stage
      rw [Socket.connHandle, Socket.connHandle, hturn.socketId]
    rcases hturn.tasks with rfl | hnext
    · exact Or.inl ⟨sock', r', hsock, htask', rfl⟩
    · rw [htask'] at hnext
      cases hnext with
      | rests task hrests => cases hrests
      | starts request results readOnly rest hlabel _ hin =>
        exact Or.inr ⟨⟨results, readOnly, hlabel, hin⟩, rfl⟩
      | continues r again stage htask => exact Or.inl ⟨sock, r, hsock, htask, hsame r again stage⟩
      | awaits doc queues r j hlabel htask =>
        exact Or.inl ⟨sock, r, hsock, htask, hsame r r.again _⟩
  · cases htask'

/-- A handle has the id of its registration. -/
theorem connId_eq {sock sock' : Socket} {i i' : Nat} {r r' : Registration}
    (h : sock.connHandle i r = sock'.connHandle i' r') : r.connId = r'.connId :=
  congrArg ConnHandle.connId h

theorem Settled.step {s t : Server Y} {cfg : Configuration} {l : Label Y}
    (h : Server.step cfg s l = some t) {connId : Nat} (hs : s.Settled connId) :
    t.Settled connId where
  issued := hs.issued.trans_le (nextConnId_le h)
  done i sock' r' hsock' htask' := by
    rcases registering_was h hsock' htask' with ⟨sock, r, hsock, htask, hsame⟩ | ⟨_, hid⟩
    · exact connId_eq hsame ▸ hs.done i sock r hsock htask
    · have hissued := hs.issued
      omega

/-- An `AddConnection` on its way is that of a registration. -/
theorem Accounted.adding_registers {s : Server Y} (hs : s.Accounted) {j : Nat} {a : Spawned Y}
    (ha : s.actors[j]? = some a) {handle : ConnHandle} {ack : Nat}
    (hmem : .addConnection handle ack ∈ a.pending) :
    ∃ sock r, s.sockets[handle.outbound]? = some sock ∧ sock.task = .registering r ∧
      r.connId = handle.connId ∧ r.stage = .await j ack := by
  obtain ⟨sock, hsock, hwait⟩ := hs.adding j a ha handle ack hmem
  unfold Socket.awaits at hwait
  split at hwait
  next request connId readOnly again doc ack' htask =>
    cases hwait
    exact ⟨sock, _, hsock, htask, rfl, rfl⟩
  next => cases hwait

/-- **Where a connection in the map of an actor comes from**: it was there, or a
registration has just added it. -/
theorem step_mapped {s t : Server Y} {cfg : Configuration} {l : Label Y}
    (h : Server.step cfg s l = some t) {j : Nat} {b : Spawned Y} (hb : t.actors[j]? = some b)
    {id : Nat} {conn : ConnHandle} (hconn : b.actor.world.connections.get? id = some conn) :
    ∃ a, s.actors[j]? = some a ∧
      ((∃ old, a.actor.world.connections.get? id = some old ∧ old.core = conn.core) ∨
        ∃ ack, .addConnection conn ack ∈ a.pending ∧ conn.connId = id) := by
  rcases step_known h hb with ⟨a, ha⟩ | ⟨_, name, doc, queues, rfl⟩
  · refine ⟨a, ha, ?_⟩
    obtain ⟨b', hb', hturn⟩ := step_turn h ha
    obtain rfl : b' = b := Option.some.inj (hb'.symm.trans hb)
    cases hturn with
    | told | recv | drop => exact Or.inl ⟨conn, hconn, rfl⟩
    | actor l b hplain hstep =>
      rcases Actor.step_get? hstep hconn with ⟨old, hold, hcore⟩ | ⟨ack, o, hl, _⟩
      · exact Or.inl ⟨old, hold, hcore⟩
      · exact absurd hl (hplain _ o)
    | command o cmd batch b hbatch hstep =>
      rcases Actor.step_get? hstep hconn with ⟨old, hold, hcore⟩ | ⟨ack, o', hl, hid⟩
      · exact Or.inl ⟨old, hold, hcore⟩
      -- the command was the first of the batch
      · cases hl
        refine Or.inr ⟨ack, List.mem_append_left _ ?_, hid.symm⟩
        rw [hbatch]
        exact List.mem_cons_self ..
  · cases hconn

/-! ## The invariant -/

/-- One socket registers with an id, before and after. -/
theorem Numbered.alone_step {s t : Server Y} (hs : s.Numbered) {cfg : Configuration} {l : Label Y}
    (h : Server.step cfg s l = some t) {i i' : Nat} {sock sock' : Socket} {r r' : Registration}
    (hsock : t.sockets[i]? = some sock) (hsock' : t.sockets[i']? = some sock')
    (htask : sock.task = .registering r) (htask' : sock'.task = .registering r')
    (hid : r.connId = r'.connId) : i = i' := by
  rcases registering_was h hsock htask with
    ⟨old, q, hold, hq, hsame⟩ | ⟨⟨results, readOnly, rfl, _⟩, hnew⟩
  · rcases registering_was h hsock' htask' with ⟨old', q', hold', hq', hsame'⟩ | ⟨_, hnew'⟩
    · have hids : q.connId = q'.connId := by
        rw [connId_eq hsame, connId_eq hsame', hid]
      exact hs.alone i i' old old' q q' hold hold' hq hq' hids
    · have hlt := hs.registering i old q hold hq
      have hids := connId_eq hsame
      omega
  · rcases registering_was h hsock' htask' with ⟨old', q', hold', hq', hsame'⟩ | ⟨⟨_, _, heq, _⟩, _⟩
    · have hlt := hs.registering i' old' q' hold' hq'
      have hids := connId_eq hsame'
      omega
    · cases heq
      rfl

/-- What is established now was, or its registration is over. -/
theorem Numbered.established_step {s t : Server Y} (hs : s.Numbered) {cfg : Configuration}
    {l : Label Y} (h : Server.step cfg s l = some t) {i : Nat} {sock : Socket}
    (hsock : t.sockets[i]? = some sock) {est : Established}
    (hest : est ∈ sock.client.established.vals) : t.Settled est.connId := by
  rcases step_socket h hsock with ⟨old, hold, hturn⟩ | ⟨_, now, _, rfl⟩
  · rcases hturn.established hest with hwas | ⟨r, j, ack, htask, _, _, rfl, hreads⟩
    · exact (hs.established i old hold est hwas).step h
    · refine ⟨(hs.registering i old r hold htask).trans_le (nextConnId_le h), ?_⟩
      intro i' sock' r' hsock' htask' hid
      rcases registering_was h hsock' htask' with ⟨old', q', hold', hq', hsame'⟩ | ⟨_, hnew⟩
      · -- the only one that registered with the id reads now
        obtain rfl := hs.alone i i' old old' r q' hold hold' htask hq'
          (hid.symm.trans (connId_eq hsame').symm)
        obtain rfl : sock = sock' := Option.some.inj (hsock.symm.trans hsock')
        rw [hreads] at htask'
        cases htask'
      · have hlt := hs.registering i old r hold htask
        have hid' : r'.connId = r.connId := hid
        omega
  · cases hest

/-- **The step lemma.** -/
theorem Numbered.step {s t : Server Y} (hs : s.Numbered) (haccounted : s.Accounted)
    {cfg : Configuration} {l : Label Y} (h : Server.step cfg s l = some t) : t.Numbered where
  registering i sock' r' hsock' htask' := by
    rcases registering_was h hsock' htask' with
      ⟨sock, r, hsock, htask, hsame⟩ | ⟨⟨_, _, hl, hin⟩, hid⟩
    · have hlt := hs.registering i sock r hsock htask
      have hids := connId_eq hsame
      have hle := nextConnId_le h
      omega
    · subst hl
      cases step_cases h with
      | authenticated =>
        have hnext := s.connIdAfter_in hin
        show r'.connId < s.connIdAfter _
        omega
  alone _ _ _ _ _ _ hsock hsock' htask htask' := hs.alone_step h hsock hsock' htask htask'
  established _ _ hsock _ hest := hs.established_step h hsock hest
  mapped j b hb id conn hconn := by
    have hle := nextConnId_le h
    obtain ⟨a, ha, ⟨old, hold, _⟩ | ⟨ack, hadding, hid⟩⟩ := step_mapped h hb hconn
    · exact (hs.mapped j a ha id old hold).trans_le hle
    · obtain ⟨sock, r, hsock, htask, hsame, _⟩ := haccounted.adding_registers ha hadding
      have hlt := hs.registering _ sock r hsock htask
      omega

theorem build_numbered (Y : Yrs) : (build Y).Numbered where
  registering i sock r hsock := by cases hsock
  alone i i' sock sock' r r' hsock := by cases hsock
  established i sock hsock := by cases hsock
  mapped j a ha := by cases ha

/-- What holds of the connections, the ids and the names in every state of a run. -/
structure Sound (s : Server Y) : Prop where
  accounted : s.Accounted
  numbered : s.Numbered
  named : s.Named

theorem Sound.step {s t : Server Y} (hs : s.Sound) {cfg : Configuration} {l : Label Y}
    (h : Server.step cfg s l = some t) : t.Sound where
  accounted := hs.accounted.step h
  numbered := hs.numbered.step hs.accounted h
  named := hs.named.step h

theorem build_sound (Y : Yrs) : (build Y).Sound :=
  ⟨build_accounted Y, build_numbered Y, build_named Y⟩

theorem sound_of_run {cfg : Configuration} {ls : List (Label Y)} {s : Server Y}
    (hrun : Lts.exec (Server.step cfg) (build Y) ls = some s) : s.Sound :=
  Lts.exec_invariant (I := Sound) (fun _ _ _ hstep hs => hs.step hstep) hrun (build_sound Y)

/-- An actor that has no connection of a settled id gets none. -/
theorem Absent.step {s t : Server Y} {j connId : Nat} (hs : s.Absent j connId)
    (haccounted : s.Accounted) {cfg : Configuration} {l : Label Y}
    (h : Server.step cfg s l = some t) : t.Absent j connId where
  settled := hs.settled.step h
  missing := by
    obtain ⟨a, ha, hnone⟩ := hs.missing
    obtain ⟨b, hb, _⟩ := step_turn h ha
    refine ⟨b, hb, ?_⟩
    cases hconn : b.actor.world.connections.get? connId with
    | none => rfl
    | some conn =>
      obtain ⟨a', ha', hcase⟩ := step_mapped h hb hconn
      obtain rfl : a = a' := Option.some.inj (ha.symm.trans ha')
      rcases hcase with ⟨old, hold, _⟩ | ⟨ack, hadding, hid⟩
      · rw [hnone] at hold
        cases hold
      · obtain ⟨sock, r, hsock, htask, hsame, _⟩ := haccounted.adding_registers ha hadding
        exact absurd (hsame.trans hid) (hs.settled.done _ sock r hsock htask)

end Server

end Hocuspocus
