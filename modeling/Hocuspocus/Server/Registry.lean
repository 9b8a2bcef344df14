import Hocuspocus.OneWriter.Sockets
import Hocuspocus.Server.Names

/-!
# One live actor for a name

`ServerShared::document` looks twice, the second time with the lock of the name,
and removes the lock's entry once the actor is inserted. A task that still waits
for that lock gets it later, while others create a new one: then two tasks may
load the name at once. `register_connection` removes whatever entry the name has
when its actor is gone, also that of a new actor.

As long as neither happens (`Orderly`), at most one task loads a name, and every
actor that has not left is the entry of its name or about to be inserted by that
task (`Exclusive`).
-/

namespace Hocuspocus

variable {Y : Yrs}

/-- The lock a call holds. -/
def DocumentCall.lock : DocumentCall → Option Nat
  | .check l | .spawn l | .insert l _ | .forget l _ => some l
  | .lookup | .miss | .wait _ => none

/-- It has found no entry, and has not inserted one. -/
def DocumentCall.loads : DocumentCall → Bool
  | .spawn _ | .insert _ _ => true
  | .lookup | .miss | .wait _ | .check _ | .forget _ _ => false

/-- The call of `ServerShared::document` a socket is in. -/
def Socket.call (sock : Socket) : Option (String × DocumentCall) :=
  match sock.task with
  | .registering ⟨request, _, _, _, .document call⟩ => some (request.documentName, call)
  | _ => none

def DirectApply.call (e : DirectApply) : Option (String × DocumentCall) :=
  match e.returned, e.stage with
  | none, .document call => some (e.name, call)
  | _, _ => none

theorem Socket.call_spec {sock : Socket} {name : String} {c : DocumentCall}
    (h : sock.call = some (name, c)) :
    ∃ r, sock.task = .registering r ∧ r.stage = .document c ∧ r.request.documentName = name := by
  unfold Socket.call at h
  split at h
  next request connId readOnly again c' htask =>
    cases h
    exact ⟨_, htask, rfl, rfl⟩
  next => cases h

theorem DirectApply.call_spec {e : DirectApply} {name : String} {c : DocumentCall}
    (h : e.call = some (name, c)) :
    e.returned = none ∧ e.stage = .document c ∧ e.name = name := by
  unfold DirectApply.call at h
  split at h
  next c' hreturned hstage =>
    cases h
    exact ⟨hreturned, hstage, rfl⟩
  next => cases h

/-- It runs its command loop, and has not unloaded. -/
def Spawned.Live (a : Spawned Y) : Prop := ¬ a.Left

namespace Server

/-- A socket, or a call of `direct_apply`. -/
abbrev Task := Nat ⊕ Nat

def call (s : Server Y) : Task → Option (String × DocumentCall)
  | .inl i => (s.sockets[i]?).bind Socket.call
  | .inr k => (s.edits[k]?).bind DirectApply.call

/-- The task that goes on with its call. -/
def Label.task : Label Y → Option Task
  | .register i _ _ => some (.inl i)
  | .direct k _ _ => some (.inr k)
  | _ => none

/-- The actor of a registration is gone, or has dropped its `AddConnection`. -/
def Fails (s : Server Y) (r : Registration) : Prop :=
  match r.stage with
  | .document _ => False
  | .send h => ∀ a, s.actors[h]? = some a → a.gone = true
  | .await h ack => s.awaited h ack = some false

/-- A task that loads a name does so under the lock of whoever else loads it, and
a registration that fails finds no live actor under its name. -/
structure Orderly (s : Server Y) (l : Label Y) : Prop where
  loads : ∀ τ name k, l.task = some τ → s.call τ = some (name, .check k) →
    s.documents name = none → ∀ τ' c, s.call τ' = some (name, c) → c.loads = true →
    c.lock = some k
  fails : ∀ i sock r, l.task = some (.inl i) → s.sockets[i]? = some sock →
    sock.task = .registering r → s.Fails r → ∀ j a,
    s.documents r.request.documentName = some j → s.actors[j]? = some a → a.Left

/-- One live actor for each name, and where the registry has an entry, that one. -/
structure OneLive (s : Server Y) : Prop where
  one : ∀ (j j' : Nat) (a a' : Spawned Y), s.actors[j]? = some a → s.actors[j']? = some a' →
    a.Live → a'.Live → a.actor.world.name = a'.actor.world.name → j = j'
  entry : ∀ name j, s.documents name = some j → s.Names j name ∧
    ∀ (j' : Nat) (a' : Spawned Y), s.actors[j']? = some a' → a'.Live →
      a'.actor.world.name = name → j' = j

/-- What holds of the calls, the locks and the registry while the steps are orderly. -/
structure Exclusive (s : Server Y) : Prop where
  locked : ∀ τ name c l, s.call τ = some (name, c) → c.lock = some l → s.locks[l]? = some true
  apart : ∀ τ τ' name name' c c' l, s.call τ = some (name, c) → s.call τ' = some (name', c') →
    c.lock = some l → c'.lock = some l → τ = τ'
  loading : ∀ τ τ' name c c', s.call τ = some (name, c) → s.call τ' = some (name, c') →
    c.loads = true → c'.loads = true → τ = τ'
  absent : ∀ τ name c, s.call τ = some (name, c) → c.loads = true → s.documents name = none
  live : ∀ (j : Nat) (a : Spawned Y), s.actors[j]? = some a → a.Live →
    s.documents a.actor.world.name = some j ∨
      ∃ τ l, s.call τ = some (a.actor.world.name, .insert l j)

/-! ## What a step does to the calls -/

theorem call_congr {s t : Server Y} (hsockets : t.sockets = s.sockets) (hedits : t.edits = s.edits)
    (τ : Task) : t.call τ = s.call τ := by
  cases τ with
  | inl i => rw [call, call, hsockets]
  | inr k => rw [call, call, hedits]

theorem call_setSocket {s t : Server Y} {i : Nat} {sock sock' : Socket}
    (hsock : s.sockets[i]? = some sock) (hsockets : t.sockets = s.sockets.set i sock')
    (hedits : t.edits = s.edits) (τ : Task) :
    t.call τ = if τ = .inl i then sock'.call else s.call τ := by
  cases τ with
  | inl k =>
    rw [call, call, hsockets, getElem?_set_of_some hsock]
    by_cases hi : i = k
    · rw [if_pos hi, if_pos (hi ▸ rfl)]
      rfl
    · rw [if_neg hi, if_neg fun heq => hi (Sum.inl.inj heq).symm]
  | inr k =>
    rw [if_neg (by simp), call, call, hedits]

theorem call_setEdit {s t : Server Y} {k : Nat} {e e' : DirectApply}
    (he : s.edits[k]? = some e) (hsockets : t.sockets = s.sockets)
    (hedits : t.edits = s.edits.set k e') (τ : Task) :
    t.call τ = if τ = .inr k then e'.call else s.call τ := by
  cases τ with
  | inl i =>
    rw [if_neg (by simp), call, call, hsockets]
  | inr m =>
    rw [call, call, hedits, getElem?_set_of_some he]
    by_cases hk : k = m
    · rw [if_pos hk, if_pos (hk ▸ rfl)]
      rfl
    · rw [if_neg hk, if_neg fun heq => hk (Sum.inr.inj heq).symm]

theorem call_registering {sock : Socket} {r : Registration} {c : DocumentCall}
    (htask : sock.task = .registering r) (hstage : r.stage = .document c) :
    sock.call = some (r.request.documentName, c) := by
  obtain ⟨request, connId, readOnly, again, stage⟩ := r
  cases hstage
  rw [Socket.call, htask]

/-- No task goes on with its call; one that is in none may begin with the lookup. -/
def Begins (s t : Server Y) : Prop :=
  ∀ τ, t.call τ = s.call τ ∨
    s.call τ = none ∧ ∀ name c, t.call τ = some (name, c) → c = .lookup

/-- Why the entry of a name goes: a registration has failed, or its actor unloads. -/
inductive Removal (s t : Server Y) (l : Label Y) (name : String) : Prop
  | fails (i : Nat) (sock : Socket) (r : Registration) (htask : l.task = some (.inl i))
    (hsock : s.sockets[i]? = some sock) (hregisters : sock.task = .registering r)
    (hfails : s.Fails r) (hname : name = r.request.documentName)
  | unloads (j : Nat) (a : Spawned Y) (ha : s.actors[j]? = some a) (hlive : a.Live)
    (hname : name = a.actor.world.name) (hleft : ∀ b, t.actors[j]? = some b → b.Left)

/-- What a step does to the registry, the locks and the calls. -/
inductive RegistryStep (s t : Server Y) (l : Label Y) : Prop
  | quiet (hdocuments : t.documents = s.documents) (hlocks : t.locks = s.locks)
    (hcalls : s.Begins t) (hlength : t.actors.length = s.actors.length)
  | removes (name : String) (hdocuments : t.documents = Function.update s.documents name none)
    (hlocks : t.locks = s.locks) (hcalls : s.Begins t)
    (hlength : t.actors.length = s.actors.length) (hremoval : Removal s t l name)
  | calls (τ : Task) (name : String) (c : DocumentCall) (doc : Y.Doc) (queues : Queues)
    (u : Server Y) (next : DocumentCall ⊕ Nat) (htask : l.task = some τ)
    (hcall : s.call τ = some (name, c))
    (hstep : s.documentStep name doc queues c = some (u, next))
    (hdocuments : t.documents = u.documents) (hlocks : t.locks = u.locks)
    (hactors : t.actors = u.actors)
    (hcalls : ∀ τ', t.call τ' = if τ' = τ then next.getLeft?.map (Prod.mk name) else s.call τ')

theorem call_idle {sock : Socket} (h : ∀ r, sock.task ≠ .registering r) : sock.call = none := by
  unfold Socket.call
  split
  next request connId readOnly again c htask => exact absurd htask (h _)
  next => rfl

theorem call_past {sock : Socket} {r : Registration} (htask : sock.task = .registering r)
    (hstage : ∀ c, r.stage ≠ .document c) : sock.call = none := by
  unfold Socket.call
  split
  next request connId readOnly again c hsame =>
    rw [htask] at hsame
    cases hsame
    exact absurd rfl (hstage c)
  next => rfl

/-- A socket that is in no call changes, and begins one or none. -/
theorem begins_socket {s t : Server Y} {i : Nat} {sock sock' : Socket}
    (hsock : s.sockets[i]? = some sock) (hold : sock.call = none)
    (hsockets : t.sockets = s.sockets.set i sock') (hedits : t.edits = s.edits)
    (hnew : ∀ name c, sock'.call = some (name, c) → c = .lookup) : s.Begins t := by
  intro τ
  rw [call_setSocket hsock hsockets hedits]
  split
  next hτ =>
    rw [hτ, call, hsock]
    exact Or.inr ⟨hold, hnew⟩
  next => exact Or.inl rfl

theorem begins_same {s t : Server Y} (hsockets : t.sockets = s.sockets)
    (hedits : t.edits = s.edits) : s.Begins t :=
  fun τ => Or.inl (call_congr hsockets hedits τ)

/-- A loop turn that has failed starts over, or ends. -/
theorem failed_begins (sock : Socket) (r : Registration) (name : String) (c : DocumentCall)
    (h : (sock.failed r).call = some (name, c)) : c = .lookup := by
  rcases sock.failed_task r with htask | htask
  · rw [call_registering htask rfl] at h
    cases h
    rfl
  · rw [call_idle fun r' heq => by rw [htask] at heq; cases heq] at h
    cases h

theorem unloadedBy_live {cfg : Configuration} {a : Spawned Y} {b : Actor Y} {l : Hocuspocus.Label}
    (hstep : a.actor.step cfg l = some b) (hexit : b.unloadedBy l = true) : a.Live := by
  intro hleft
  have hselect : a.actor.phase ≠ .select := by
    intro hphase
    rcases hleft with h | h <;> rw [h] at hphase <;> cases hphase
  cases Actor.step_cases hstep with
  | command cmd o => exact (hleft.step hstep).2 cmd o rfl
  | flush | mailboxClosed | storeTask | queues => cases hexit
  | storeResult o ok rest hphase => exact hselect hphase
  | deadline o hphase => exact hselect hphase

/-- A socket goes on with its call. -/
theorem RegistryStep.of_socket {s u : Server Y} {i : Nat} {sock sock' : Socket}
    (hsock : s.sockets[i]? = some sock) {name : String} {c : DocumentCall} {doc : Y.Doc}
    {queues : Queues} {next : DocumentCall ⊕ Nat} (hcalled : sock.call = some (name, c))
    (hstep : s.documentStep name doc queues c = some (u, next))
    (hnew : sock'.call = next.getLeft?.map (Prod.mk name)) :
    RegistryStep s (u.setSocket i sock') (.register i doc queues) := by
  obtain ⟨hsockets, hedits⟩ := documentStep_sockets hstep
  have hset : (u.setSocket i sock').sockets = s.sockets.set i sock' :=
    congrArg (List.set · i sock') hsockets
  have hcall := call_setSocket (t := u.setSocket i sock') hsock hset hedits
  refine .calls (.inl i) name c doc queues u next rfl ?_ hstep rfl rfl rfl fun τ' => ?_
  · rw [call, hsock]
    exact hcalled
  · rw [hcall, hnew]

/-- A call of `direct_apply` goes on. -/
theorem RegistryStep.of_edit {s u : Server Y} {k : Nat} {e e' : DirectApply}
    (he : s.edits[k]? = some e) {name : String} {c : DocumentCall} {doc : Y.Doc}
    {queues : Queues} {next : DocumentCall ⊕ Nat} (hcalled : e.call = some (name, c))
    (hstep : s.documentStep name doc queues c = some (u, next))
    (hnew : e'.call = next.getLeft?.map (Prod.mk name)) :
    RegistryStep s { u with edits := u.edits.set k e' } (.direct k doc queues) := by
  obtain ⟨hsockets, hedits⟩ := documentStep_sockets hstep
  have hset : u.edits.set k e' = s.edits.set k e' := congrArg (List.set · k e') hedits
  have hcall := call_setEdit (t := { u with edits := u.edits.set k e' }) he hsockets hset
  refine .calls (.inr k) name c doc queues u next rfl ?_ hstep rfl rfl rfl fun τ' => ?_
  · rw [call, he]
    exact hcalled
  · rw [hcall, hnew]

/-- The receiver of an actor that was not sent to is gone. -/
theorem send_fails {s : Server Y} {j : Nat} {cmd : DocCommand} (h : ¬ (s.send j cmd).2 = true)
    {a : Spawned Y} (ha : s.actors[j]? = some a) : a.gone = true := by
  unfold Server.send at h
  rw [ha] at h
  dsimp only at h
  split at h
  next hgone => exact hgone
  next => exact absurd rfl h

/-- What no send touches. -/
structure Beside (s t : Server Y) : Prop where
  documents : t.documents = s.documents
  locks : t.locks = s.locks
  edits : t.edits = s.edits
  length : t.actors.length = s.actors.length

theorem send_beside (s : Server Y) (j : Nat) (cmd : DocCommand) : s.Beside (s.send j cmd).1 := by
  have hlength := send_actors_length s j cmd
  rw [send_eq s j cmd]
  exact ⟨rfl, rfl, rfl, hlength⟩

theorem sendAll_beside (cmds : List (Nat × DocCommand)) (s : Server Y) :
    s.Beside (s.sendAll cmds) := by
  have hlength := sendAll_actors_length cmds s
  rw [sendAll_eq cmds s]
  exact ⟨rfl, rfl, rfl, hlength⟩

/-- A socket does something else. -/
theorem RegistryStep.quiet_socket {s t : Server Y} {l : Label Y} {i : Nat} {sock sock' : Socket}
    (hsock : s.sockets[i]? = some sock) (hold : sock.call = none) (hbeside : s.Beside t)
    (hsockets : t.sockets = s.sockets.set i sock')
    (hnew : ∀ name c, sock'.call = some (name, c) → c = .lookup) : RegistryStep s t l :=
  .quiet hbeside.documents hbeside.locks (begins_socket hsock hold hsockets hbeside.edits hnew)
    hbeside.length

/-- A socket removes the entry of its name. -/
theorem RegistryStep.fails_socket {s t : Server Y} {i : Nat} {sock sock' : Socket}
    {r : Registration} {doc : Y.Doc} {queues : Queues} (hsock : s.sockets[i]? = some sock)
    (htask : sock.task = .registering r) (hold : sock.call = none) (hfails : s.Fails r)
    (hbeside : s.Beside t)
    (hsockets : t.sockets = s.sockets)
    (hnew : ∀ name c, sock'.call = some (name, c) → c = .lookup) :
    RegistryStep s ((t.removeDocument r.request.documentName).setSocket i sock')
      (.register i doc queues) := by
  have hset : (t.removeDocument r.request.documentName).sockets.set i sock'
      = s.sockets.set i sock' := congrArg (List.set · i sock') hsockets
  refine .removes r.request.documentName ?_ hbeside.locks
    (begins_socket hsock hold hset hbeside.edits hnew) hbeside.length
    (.fails i sock r rfl hsock htask hfails rfl)
  exact congrArg (Function.update · r.request.documentName none) hbeside.documents

theorem registerStep_registry {s t : Server Y} {i : Nat} {sock : Socket} {r : Registration}
    {doc : Y.Doc} {queues : Queues} (hsock : s.sockets[i]? = some sock)
    (htask : sock.task = .registering r) (h : s.registerStep i sock r doc queues = some t) :
    RegistryStep s t (.register i doc queues) := by
  have hsent : ∀ handle, s.Beside (s.introduce i sock r handle).1 := fun handle =>
    have hnext := send_beside { s with nextAck := s.nextAck + 1 } handle
      (.addConnection (sock.connHandle i r) s.nextAck)
    ⟨hnext.documents, hnext.locks, hnext.edits, hnext.length⟩
  have hsockets : ∀ handle, (s.introduce i sock r handle).1.sockets = s.sockets := fun handle =>
    send_sockets { s with nextAck := s.nextAck + 1 } handle _
  have hsends : ∀ {handle : Nat}, r.stage = .send handle → sock.call = none := fun hstage =>
    call_past htask fun c heq => by rw [hstage] at heq; cases heq
  have hawaits : ∀ {handle ack : Nat}, r.stage = .await handle ack → sock.call = none :=
    fun hstage => call_past htask fun c heq => by rw [hstage] at heq; cases heq
  cases registerStep_cases h with
  | calls c next u hstage hcall =>
    exact .of_socket hsock (call_registering htask hstage) hcall
      (call_registering (r := { r with stage := .document next }) rfl rfl)
  | finds c handle u hstage hcall =>
    exact .of_socket hsock (call_registering htask hstage) hcall rfl
  | sends handle hstage =>
    have hset := congrArg (List.set · i { s.introduced i sock r handle with
      task := .registering { r with stage := .await handle s.nextAck } }) (hsockets handle)
    have hbeside := hsent handle
    exact .quiet_socket hsock (hsends hstage) ⟨hbeside.documents, hbeside.locks, hbeside.edits,
      hbeside.length⟩ hset fun name c hnew => by cases hnew
  | refused handle hstage hrefused =>
    refine .fails_socket hsock htask (hsends hstage) ?_ (hsent handle) (hsockets handle)
      fun name c hnew => failed_begins _ r name c hnew
    rw [Fails, hstage]
    exact fun a ha => send_fails hrefused ha
  | acked handle ack hstage hacked =>
    have hbeside := sendAll_beside (sock.register r handle).2
      (s.setSocket i (sock.register r handle).1)
    refine .quiet_socket hsock (hawaits hstage) ⟨hbeside.documents, hbeside.locks, hbeside.edits,
      hbeside.length⟩ (sendAll_sockets _ _) fun name c hnew => ?_
    rw [call_idle fun r' heq => by rw [(sock.register_spec r handle).2.1] at heq; cases heq] at hnew
    cases hnew
  | lost handle ack hstage hlost =>
    refine .fails_socket hsock htask (hawaits hstage) ?_ ⟨rfl, rfl, rfl, rfl⟩ rfl
      fun name c hnew => failed_begins sock r name c hnew
    rw [Fails, hstage]
    exact hlost

theorem edit_call {e : DirectApply} {c : DocumentCall} (hreturned : e.returned = none)
    (hstage : e.stage = .document c) : e.call = some (e.name, c) := by
  unfold DirectApply.call
  rw [hreturned, hstage]

/-- A call of `direct_apply` does something else. -/
theorem RegistryStep.quiet_edit {s t : Server Y} {l : Label Y} {k : Nat} {e e' : DirectApply}
    (he : s.edits[k]? = some e) (hold : e.call = none) (hdocuments : t.documents = s.documents)
    (hlocks : t.locks = s.locks) (hlength : t.actors.length = s.actors.length)
    (hsockets : t.sockets = s.sockets) (hedits : t.edits = s.edits.set k e')
    (hidle : e'.call = none) : RegistryStep s t l := by
  refine .quiet hdocuments hlocks (fun τ => Or.inl ?_) hlength
  rw [call_setEdit he hsockets hedits]
  split
  next hτ =>
    rw [hτ, call, he]
    exact hidle.trans hold.symm
  next => rfl

theorem directStep_registry {s t : Server Y} {k : Nat} {e : DirectApply} {doc : Y.Doc}
    {queues : Queues} (he : s.edits[k]? = some e) (h : s.directStep k e doc queues = some t) :
    RegistryStep s t (.direct k doc queues) := by
  have hpast : (∀ c, e.stage ≠ .document c) → e.call = none := by
    intro hstage
    unfold DirectApply.call
    split
    next c _ heq => exact absurd heq (hstage c)
    next => rfl
  cases directStep_cases h with
  | calls c next u hreturned hstage hcall =>
    exact .of_edit he (edit_call hreturned hstage) hcall
      (edit_call (e := { e with stage := .document next }) hreturned rfl)
  | finds c handle u hreturned hstage hcall =>
    refine .of_edit he (edit_call hreturned hstage) hcall ?_
    rw [DirectApply.call, hreturned]
    rfl
  | sends handle sent hreturned hstage hsent =>
    have hbeside := send_beside { s with nextAck := s.nextAck + 1 } handle
      (.directApply e.update s.nextAck)
    have hsockets := send_sockets { s with nextAck := s.nextAck + 1 } handle
      (.directApply e.update s.nextAck)
    subst hsent
    refine .quiet_edit he (hpast fun c heq => by rw [hstage] at heq; cases heq) hbeside.documents
      hbeside.locks hbeside.length hsockets (congrArg (List.set · k _) hbeside.edits) ?_
    split
    · rw [DirectApply.call, hreturned]
    · rfl
  | answered handle ack acked hreturned hstage =>
    exact .quiet_edit he (hpast fun c heq => by rw [hstage] at heq; cases heq) rfl rfl rfl rfl rfl
      rfl

/-- An actor takes a turn, and unloads or not. -/
theorem RegistryStep.of_actor {cfg : Configuration} {s : Server Y} {j : Nat} {a b : Spawned Y}
    {l : Label Y} {al : Hocuspocus.Label} (ha : s.actors[j]? = some a)
    (hstep : a.actor.step cfg al = some b.actor) :
    RegistryStep s ((s.setActor j b).unloading (b.actor.unloadedBy al) b.actor.world.name) l := by
  have hlength : (s.actors.set j b).length = s.actors.length := List.length_set
  cases hexit : b.actor.unloadedBy al with
  | false => exact .quiet rfl rfl (begins_same rfl rfl) hlength
  | true =>
    refine .removes b.actor.world.name rfl rfl (begins_same rfl rfl) hlength
      (.unloads j a ha (unloadedBy_live hstep hexit) (Actor.step_name hstep) fun c hc => ?_)
    obtain rfl : b = c := by
      rcases getElem?_set_cases hc with ⟨_, heq⟩ | ⟨hne, _⟩
      · exact heq
      · exact absurd rfl hne
    exact Actor.unloadedBy_phase hexit

/-- **What a step does to the registry.** -/
theorem registry_cases {s t : Server Y} {cfg : Configuration} {l : Label Y}
    (h : Server.step cfg s l = some t) : RegistryStep s t l := by
  have hold : ∀ {sock : Socket} {task : SocketTask}, sock.task = task →
      (∀ r, task ≠ .registering r) → sock.call = none :=
    fun htask hidle => call_idle fun r heq => hidle r (htask.symm.trans heq)
  have hidle : ∀ {sock' : Socket}, (∀ r, sock'.task ≠ .registering r) → ∀ name c,
      sock'.call = some (name, c) → c = .lookup := by
    intro sock' htask name c hnew
    rw [call_idle htask] at hnew
    cases hnew
  cases step_cases h with
  | connect now =>
    refine .quiet rfl rfl (fun τ => Or.inl ?_) rfl
    -- the new socket reads its first frame, and no call of it is open
    cases τ with
    | inr k => rfl
    | inl i =>
      rw [call, call]
      by_cases hi : i < s.sockets.length
      · rw [List.getElem?_append_left hi]
      · rw [List.getElem?_eq_none (Nat.le_of_not_lt hi)]
        cases hnew : (s.sockets ++ [⟨ClientConnection.new
            ("ws-" ++ toString (s.sockets.length + 1)) now, .reading, []⟩])[i]? with
        | none => rfl
        | some sock =>
          rcases getElem?_snoc hnew with hwas | ⟨_, rfl⟩
          · rw [List.getElem?_eq_none (Nat.le_of_not_lt hi)] at hwas
            cases hwas
          · rfl
  | receive i data now sock hsock htask =>
    have hbeside := sendAll_beside (sock.handleFrame Y cfg now data).2
      (s.setSocket i (sock.handleFrame Y cfg now data).1)
    refine .quiet_socket hsock (hold htask nofun) ⟨hbeside.documents, hbeside.locks, hbeside.edits,
      hbeside.length⟩ (sendAll_sockets _ _) (hidle fun r heq => ?_)
    rcases sock.handleFrame_task (Y := Y) cfg now htask data with hnext | ⟨request, hnext, _⟩ <;>
      rw [hnext] at heq <;> cases heq
  | hangup i sock hsock htask =>
    exact .quiet_socket hsock (hold htask nofun) ⟨rfl, rfl, rfl, rfl⟩ rfl (hidle nofun)
  | timeout i now sock hsock htask hdeadline =>
    exact .quiet_socket hsock (hold htask nofun) ⟨rfl, rfl, rfl, rfl⟩ rfl (hidle nofun)
  | clean i sock hsock htask hempty =>
    exact .quiet_socket hsock (hold htask nofun) ⟨rfl, rfl, rfl, rfl⟩ rfl (hidle nofun)
  | connected i results sock request hsock htask =>
    refine .quiet_socket hsock (hold htask nofun) ⟨rfl, rfl, rfl, rfl⟩ rfl (hidle fun r heq => ?_)
    rcases sock.connected_task (Y := Y) request results with hnext | hnext <;>
      rw [hnext] at heq <;> cases heq
  | authenticated i results readOnly sock request hsock htask =>
    refine .quiet_socket hsock (hold htask nofun) ⟨rfl, rfl, rfl, rfl⟩ rfl fun name c hnew => ?_
    rcases sock.authenticated_task (Y := Y) request results readOnly s.nextConnId with
      hnext | hnext
    -- an accepted login opens the lookup of its document
    · rw [call_registering hnext rfl] at hnew
      cases hnew
      rfl
    · exact hidle (fun r heq => by rw [hnext] at heq; cases heq) name c hnew
  | register i doc queues sock r t hsock htask h => exact registerStep_registry hsock htask h
  | leave i key sock est hsock htask hest =>
    have hbeside := sendAll_beside (sock.leave est).2 (s.setSocket i (sock.leave est).1)
    refine .quiet_socket hsock (hold htask nofun) ⟨hbeside.documents, hbeside.locks, hbeside.edits,
      hbeside.length⟩ (sendAll_sockets _ _) (hidle fun r heq => ?_)
    rw [sock.leave_task est htask] at heq
    cases heq
  | apply name update =>
    refine .quiet rfl rfl (fun τ => ?_) rfl
    cases τ with
    | inl i => exact Or.inl rfl
    | inr k =>
      rw [call, call]
      by_cases hk : k < s.edits.length
      · exact Or.inl (by rw [List.getElem?_append_left hk])
      · refine Or.inr ⟨?_, fun name' c hcall => ?_⟩
        · rw [List.getElem?_eq_none (Nat.le_of_not_lt hk)]
          rfl
        · obtain ⟨e, he, hcalled⟩ := Option.bind_eq_some_iff.mp hcall
          rcases getElem?_snoc he with hwas | ⟨_, rfl⟩
          · rw [List.getElem?_eq_none (Nat.le_of_not_lt hk)] at hwas
            cases hwas
          · cases hcalled
            rfl
  | direct k doc queues e t he h => exact directStep_registry he h
  | external name data j hdoc =>
    have hbeside := send_beside s j (.externalFrame data true)
    exact .quiet hbeside.documents hbeside.locks
      (begins_same (send_sockets s j _) hbeside.edits) hbeside.length
  | unknown name data hdoc => exact .quiet rfl rfl (begins_same rfl rfl) rfl
  | recv j a | drop j a => exact .quiet rfl rfl (begins_same rfl rfl) List.length_set
  | command j o a cmd batch b ha hbatch hstep => exact .of_actor ha hstep
  | actor j l a b ha hplain hclosed hstep => exact .of_actor (b := { a with actor := b }) ha hstep

/-! ## One step of a call -/

/-- A lock that is held stays held, unless the call lets it go. -/
theorem documentStep_locked {s u : Server Y} {name : String} {doc : Y.Doc} {queues : Queues}
    {c : DocumentCall} {next : DocumentCall ⊕ Nat}
    (h : s.documentStep name doc queues c = some (u, next)) {k : Nat}
    (hlocked : s.locks[k]? = some true)
    (hkeeps : c.lock ≠ some k ∨ next.getLeft?.bind DocumentCall.lock = some k) :
    u.locks[k]? = some true := by
  have hlet : ∀ l, some l ≠ some k ∨ none = some k → (s.locks.set l false)[k]? = some true := by
    intro l hkeeps
    rcases hkeeps with hne | hnone
    · rw [List.getElem?_set_ne fun heq => hne (congrArg some heq)]
      exact hlocked
    · cases hnone
  cases documentStep_cases h with
  | found | missing | joins | loads | spawns | inserts => exact hlocked
  | creates =>
    obtain ⟨hlt, _⟩ := List.getElem?_eq_some_iff.mp hlocked
    exact (List.getElem?_append_left hlt).trans hlocked
  | locks l hfree =>
    have hne : l ≠ k := by
      rintro rfl
      rw [hfree] at hlocked
      cases hlocked
    exact (List.getElem?_set_ne hne).trans hlocked
  | late l j hdoc => exact hlet l hkeeps
  | forgets l j => exact hlet l hkeeps

/-- A lock that a call holds it held, or it was free. -/
theorem documentStep_holds {s u : Server Y} {name : String} {doc : Y.Doc} {queues : Queues}
    {c c' : DocumentCall} (h : s.documentStep name doc queues c = some (u, .inl c')) {k : Nat}
    (hlock : c'.lock = some k) :
    c.lock = some k ∨ s.locks[k]? = some false ∧ u.locks[k]? = some true := by
  cases documentStep_cases h with
  | missing | joins | creates => cases hlock
  | locks l hfree =>
    cases hlock
    obtain ⟨hlt, _⟩ := List.getElem?_eq_some_iff.mp hfree
    exact Or.inr ⟨hfree, List.getElem?_set_self hlt⟩
  | loads l hdoc => exact Or.inl hlock
  | spawns l => exact Or.inl hlock
  | inserts l j => exact Or.inl hlock

/-- A call that loads did so, or has looked for the second time. -/
theorem documentStep_loads {s u : Server Y} {name : String} {doc : Y.Doc} {queues : Queues}
    {c c' : DocumentCall} (h : s.documentStep name doc queues c = some (u, .inl c'))
    (hloads : c'.loads = true) :
    c.loads = true ∨ ∃ k, c = .check k ∧ c'.lock = some k ∧ s.documents name = none := by
  cases documentStep_cases h with
  | missing | joins | creates | locks | inserts => cases hloads
  | loads l hdoc => exact Or.inr ⟨l, rfl, rfl, hdoc⟩
  | spawns l => exact Or.inl rfl

/-- An entry is as it was, or the call inserts its actor. -/
theorem documentStep_entry {s u : Server Y} {name : String} {doc : Y.Doc} {queues : Queues}
    {c : DocumentCall} {next : DocumentCall ⊕ Nat}
    (h : s.documentStep name doc queues c = some (u, next)) (n : String) :
    u.documents n = s.documents n ∨
      n = name ∧ ∃ k j, c = .insert k j ∧ next = .inl (.forget k j) ∧ u.documents n = some j := by
  cases documentStep_cases h with
  | found | missing | joins | creates | locks | late | loads | spawns | forgets => exact Or.inl rfl
  | inserts k j =>
    by_cases hn : n = name
    · subst hn
      exact Or.inr ⟨rfl, k, j, rfl, rfl, Function.update_self ..⟩
    · exact Or.inl (Function.update_of_ne hn ..)

/-- The actor a call spawns is the one it is about to insert. -/
theorem documentStep_spawned {s u : Server Y} {name : String} {doc : Y.Doc} {queues : Queues}
    {c : DocumentCall} {next : DocumentCall ⊕ Nat}
    (h : s.documentStep name doc queues c = some (u, next)) {j : Nat} {b : Spawned Y}
    (hb : u.actors[j]? = some b) :
    s.actors[j]? = some b ∨
      b.actor.world.name = name ∧ ∃ k, next = .inl (.insert k j) := by
  cases documentStep_cases h with
  | spawns k =>
    rcases getElem?_snoc hb with hold | ⟨rfl, rfl⟩
    · exact Or.inl hold
    · exact Or.inr ⟨rfl, k, rfl⟩
  | found | missing | joins | creates | locks | late | loads | inserts | forgets =>
    exact Or.inl hb

/-! ## The invariant -/

/-- A live actor was live, where none is new. -/
theorem live_was {s t : Server Y} {cfg : Configuration} {l : Label Y}
    (h : Server.step cfg s l = some t) {j : Nat} {a b : Spawned Y} (ha : s.actors[j]? = some a)
    (hb : t.actors[j]? = some b) (hlive : b.Live) :
    a.Live ∧ a.actor.world.name = b.actor.world.name := by
  obtain ⟨b', hb', hturn⟩ := step_turn h ha
  obtain rfl : b' = b := Option.some.inj (hb'.symm.trans hb)
  cases hturn with
  | told | recv | drop => exact ⟨hlive, rfl⟩
  | command o cmd batch b hbatch hstep =>
    exact ⟨fun hleft => (hleft.step hstep).2 cmd o rfl, (Actor.step_name hstep).symm⟩
  | actor l b hplain hstep =>
    refine ⟨fun hleft => hlive ?_, (Actor.step_name hstep).symm⟩
    rcases (hleft.step hstep).1 with hphase | hphase
    · rcases hleft with hwas | hwas
      · exact Or.inl (hphase.trans hwas)
      · exact Or.inr (hphase.trans hwas)
    · exact Or.inr hphase

theorem live_known {s t : Server Y} {cfg : Configuration} {l : Label Y}
    (h : Server.step cfg s l = some t) (hlength : t.actors.length = s.actors.length) {j : Nat}
    {b : Spawned Y} (hb : t.actors[j]? = some b) (hlive : b.Live) :
    ∃ a, s.actors[j]? = some a ∧ a.Live ∧ a.actor.world.name = b.actor.world.name := by
  obtain ⟨hlt, _⟩ := List.getElem?_eq_some_iff.mp hb
  rw [hlength] at hlt
  have ha : s.actors[j]? = some s.actors[j] := List.getElem?_eq_getElem hlt
  exact ⟨_, ha, live_was h ha hb hlive⟩

/-- Two live actors of a name are one. -/
theorem Exclusive.one {s : Server Y} (hs : s.Exclusive) {j j' : Nat} {a a' : Spawned Y}
    (ha : s.actors[j]? = some a) (ha' : s.actors[j']? = some a') (hlive : a.Live)
    (hlive' : a'.Live) (hname : a.actor.world.name = a'.actor.world.name) : j = j' := by
  rcases hs.live j a ha hlive with hentry | ⟨τ, l, hcall⟩
  · rcases hs.live j' a' ha' hlive' with hentry' | ⟨τ', l', hcall'⟩
    · rw [hname, hentry'] at hentry
      cases hentry
      rfl
    · rw [hname, hs.absent τ' _ _ hcall' rfl] at hentry
      cases hentry
  · rcases hs.live j' a' ha' hlive' with hentry' | ⟨τ', l', hcall'⟩
    · rw [← hname, hs.absent τ _ _ hcall rfl] at hentry'
      cases hentry'
    · rw [← hname] at hcall'
      obtain rfl := hs.loading τ τ' _ _ _ hcall hcall' rfl rfl
      rw [hcall] at hcall'
      cases hcall'
      rfl

/-- Where no call goes on, what holds of the calls stays. -/
theorem Exclusive.begins {s t : Server Y} (hs : s.Exclusive) (hlocks : t.locks = s.locks)
    (hcalls : s.Begins t)
    (hdocuments : ∀ n, s.documents n = none → t.documents n = none)
    (hlive : ∀ (j : Nat) (b : Spawned Y), t.actors[j]? = some b → b.Live →
      ∃ a, s.actors[j]? = some a ∧ a.Live ∧ a.actor.world.name = b.actor.world.name ∧
        (s.documents a.actor.world.name = some j → t.documents a.actor.world.name = some j)) :
    t.Exclusive := by
  have hwas : ∀ {τ name c}, t.call τ = some (name, c) →
      s.call τ = some (name, c) ∨ c = .lookup := by
    intro τ name c hcall
    rcases hcalls τ with hsame | ⟨_, hnew⟩
    · exact Or.inl (hsame ▸ hcall)
    · exact Or.inr (hnew name c hcall)
  refine ⟨fun τ name c l hcall hlock => ?_,
    fun τ τ' name name' c c' l hcall hcall' hlock hlock' => ?_, fun τ τ' name c c' hcall hcall' hloads hloads' => ?_, fun τ name c hcall hloads => ?_,
    fun j b hb hb' => ?_⟩
  · rcases hwas hcall with hold | rfl
    · exact hlocks ▸ hs.locked τ name c l hold hlock
    · cases hlock
  · rcases hwas hcall with hold | rfl
    · rcases hwas hcall' with hold' | rfl
      · exact hs.apart τ τ' name name' c c' l hold hold' hlock hlock'
      · cases hlock'
    · cases hlock
  · rcases hwas hcall with hold | rfl
    · rcases hwas hcall' with hold' | rfl
      · exact hs.loading τ τ' name c c' hold hold' hloads hloads'
      · cases hloads'
    · cases hloads
  · rcases hwas hcall with hold | rfl
    · exact hdocuments name (hs.absent τ name c hold hloads)
    · cases hloads
  · obtain ⟨a, ha, halive, hname, hkept⟩ := hlive j b hb hb'
    rw [← hname]
    rcases hs.live j a ha halive with hentry | ⟨τ, l, hcall⟩
    · exact Or.inl (hkept hentry)
    · refine Or.inr ⟨τ, l, ?_⟩
      rcases hcalls τ with hsame | ⟨hnone, _⟩
      · exact hsame.trans hcall
      · rw [hnone] at hcall
        cases hcall

/-- The entry of a name goes, which is not that of a live actor, or of one that is
leaving. -/
theorem Exclusive.removes {s t : Server Y} (hs : s.Exclusive) {cfg : Configuration} {l : Label Y}
    (h : Server.step cfg s l = some t) (horderly : s.Orderly l) {name : String}
    (hdocuments : t.documents = Function.update s.documents name none)
    (hlocks : t.locks = s.locks) (hcalls : s.Begins t)
    (hlength : t.actors.length = s.actors.length) (hremoval : Removal s t l name) :
    t.Exclusive := by
  refine hs.begins hlocks hcalls (fun n hnone => ?_) fun j b hb hlive => ?_
  · rw [hdocuments]
    by_cases hn : n = name
    · rw [hn, Function.update_self]
    · rw [Function.update_of_ne hn, hnone]
  · obtain ⟨a, ha, halive, hname⟩ := live_known h hlength hb hlive
    refine ⟨a, ha, halive, hname, fun hentry => ?_⟩
    have hother : a.actor.world.name ≠ name := by
      rintro rfl
      cases hremoval with
      -- orderly: no live actor has the entry of a registration that fails
      | fails i sock r htask hsock hregisters hfails hsame =>
        rw [hsame] at hentry
        exact halive (horderly.fails i sock r htask hsock hregisters hfails j a hentry ha)
      -- the entry that an actor removes is its own
      | unloads k c hc hclive hsame hleft =>
        obtain rfl := hs.one ha hc halive hclive hsame
        exact hlive (hleft b hb)
    rw [hdocuments, Function.update_of_ne hother]
    exact hentry

/-- A task goes on with its call. -/
structure Goes (s t u : Server Y) (τ : Task) (name : String) (c : DocumentCall)
    (next : DocumentCall ⊕ Nat) : Prop where
  called : s.call τ = some (name, c)
  step : ∃ doc queues, s.documentStep name doc queues c = some (u, next)
  documents : t.documents = u.documents
  locks : t.locks = u.locks
  actors : t.actors = u.actors
  calls : ∀ τ', t.call τ' = if τ' = τ then next.getLeft?.map (Prod.mk name) else s.call τ'

section

variable {s t u : Server Y} {τ : Task} {name : String} {c : DocumentCall}
  {next : DocumentCall ⊕ Nat}

/-- A call is that of the task, or was there. -/
theorem Goes.call_cases (hgoes : Goes s t u τ name c next) {τ' : Task} {n : String}
    {c' : DocumentCall} (h : t.call τ' = some (n, c')) :
    τ' = τ ∧ n = name ∧ next = .inl c' ∨ τ' ≠ τ ∧ s.call τ' = some (n, c') := by
  rw [hgoes.calls] at h
  split at h
  next hτ =>
    obtain ⟨c'', hc'', heq⟩ := Option.map_eq_some_iff.mp h
    cases heq
    cases next with
    | inl => exact Or.inl ⟨hτ, rfl, congrArg Sum.inl (Option.some.inj hc'')⟩
    | inr => cases hc''
  next hτ => exact Or.inr ⟨hτ, h⟩

theorem Goes.call_self (hgoes : Goes s t u τ name c next) {c' : DocumentCall}
    (hnext : next = .inl c') : t.call τ = some (name, c') := by
  rw [hgoes.calls, if_pos rfl, hnext]
  rfl

theorem Goes.call_other (hgoes : Goes s t u τ name c next) {τ' : Task} (hne : τ' ≠ τ) :
    t.call τ' = s.call τ' := by
  rw [hgoes.calls, if_neg hne]

theorem Exclusive.goes_locked (hs : s.Exclusive) (hgoes : Goes s t u τ name c next) {τ' : Task}
    {n : String} {c' : DocumentCall} {k : Nat} (hcall : t.call τ' = some (n, c'))
    (hlock : c'.lock = some k) : t.locks[k]? = some true := by
  obtain ⟨doc, queues, hstep⟩ := hgoes.step
  rw [hgoes.locks]
  rcases hgoes.call_cases hcall with ⟨rfl, rfl, rfl⟩ | ⟨hne, hold⟩
  -- the lock was its own before the step, or it has just taken it
  · rcases documentStep_holds hstep hlock with hheld | ⟨_, hnew⟩
    · exact documentStep_locked hstep (hs.locked _ _ _ _ hgoes.called hheld) (Or.inr hlock)
    · exact hnew
  · refine documentStep_locked hstep (hs.locked _ _ _ _ hold hlock) (Or.inl fun hheld => hne ?_)
    exact hs.apart _ _ _ _ _ _ k hold hgoes.called hlock hheld

theorem Exclusive.goes_apart (hs : s.Exclusive) (hgoes : Goes s t u τ name c next) {τ' : Task}
    {n : String} {c₁ c₂ : DocumentCall} {k : Nat} (hnext : next = .inl c₁)
    (hcall : s.call τ' = some (n, c₂)) (hlock : c₁.lock = some k) (hlock' : c₂.lock = some k) :
    τ' = τ := by
  obtain ⟨doc, queues, hstep⟩ := hgoes.step
  subst hnext
  rcases documentStep_holds hstep hlock with hheld | ⟨hfree, _⟩
  · exact hs.apart _ _ _ _ _ _ k hcall hgoes.called hlock' hheld
  · rw [hs.locked _ _ _ _ hcall hlock'] at hfree
    cases hfree

/-- Whoever else loads the name has the lock, and that is the task itself. -/
theorem Exclusive.goes_loading (hs : s.Exclusive) (hgoes : Goes s t u τ name c next)
    {l : Label Y} (horderly : s.Orderly l) (htask : l.task = some τ) {τ' : Task}
    {c₁ c₂ : DocumentCall} (hnext : next = .inl c₁) (hcall : s.call τ' = some (name, c₂))
    (hloads : c₁.loads = true) (hloads' : c₂.loads = true) : τ' = τ := by
  obtain ⟨doc, queues, hstep⟩ := hgoes.step
  have hcalled := hgoes.called
  subst hnext
  rcases documentStep_loads hstep hloads with hwas | ⟨k, rfl, _, hnone⟩
  · exact hs.loading _ _ _ _ _ hcall hcalled hloads' hwas
  -- it has looked for the second time: whoever loads the name has its lock
  · have hlock := horderly.loads τ name k htask hcalled hnone τ' c₂ hcall hloads'
    exact hs.apart _ _ _ _ _ _ k hcall hcalled hlock rfl

theorem Exclusive.goes_absent (hs : s.Exclusive) (hgoes : Goes s t u τ name c next) {τ' : Task}
    {n : String} {c' : DocumentCall} (hcall : t.call τ' = some (n, c')) (hloads : c'.loads = true) :
    t.documents n = none := by
  obtain ⟨doc, queues, hstep⟩ := hgoes.step
  rw [hgoes.documents]
  rcases hgoes.call_cases hcall with ⟨rfl, rfl, rfl⟩ | ⟨hne, hold⟩
  · have hnone : s.documents n = none := by
      rcases documentStep_loads hstep hloads with hwas | ⟨k, _, _, hnone⟩
      · exact hs.absent _ _ _ hgoes.called hwas
      · exact hnone
    rcases documentStep_entry hstep n with hsame | ⟨_, k, j, _, hnext, _⟩
    · exact hsame.trans hnone
    · cases hnext
      cases hloads
  · rcases documentStep_entry hstep n with hsame | ⟨rfl, k, j, rfl, _, _⟩
    · exact hsame.trans (hs.absent _ _ _ hold hloads)
    · exact absurd (hs.loading _ _ _ _ _ hold hgoes.called hloads rfl) hne

theorem Exclusive.goes_live (hs : s.Exclusive) (hgoes : Goes s t u τ name c next) {j : Nat}
    {b : Spawned Y} (hb : t.actors[j]? = some b) (hlive : b.Live) :
    t.documents b.actor.world.name = some j ∨
      ∃ τ' k, t.call τ' = some (b.actor.world.name, .insert k j) := by
  obtain ⟨doc, queues, hstep⟩ := hgoes.step
  rw [hgoes.actors] at hb
  rcases documentStep_spawned hstep hb with hold | ⟨hname, k, hnext⟩
  · rcases hs.live j b hold hlive with hentry | ⟨τ', k, hcall⟩
    · left
      rw [hgoes.documents]
      rcases documentStep_entry hstep b.actor.world.name with hsame | ⟨hn, k, j', rfl, _, _⟩
      · exact hsame.trans hentry
      · rw [hn, hs.absent _ _ _ hgoes.called rfl] at hentry
        cases hentry
    · by_cases hτ : τ' = τ
      · -- the task inserts it
        subst hτ
        have hcalled := hgoes.called
        rw [hcall] at hcalled
        cases hcalled
        left
        rw [hgoes.documents]
        cases documentStep_cases hstep with
        | inserts => exact Function.update_self ..
      · exact Or.inr ⟨τ', k, (hgoes.call_other hτ).trans hcall⟩
  · exact Or.inr ⟨τ, k, hname ▸ hgoes.call_self hnext⟩

theorem Exclusive.goes (hs : s.Exclusive) (hgoes : Goes s t u τ name c next) {l : Label Y}
    (horderly : s.Orderly l) (htask : l.task = some τ) : t.Exclusive where
  locked _ _ _ _ hcall hlock := hs.goes_locked hgoes hcall hlock
  apart τ₁ τ₂ n₁ n₂ c₁ c₂ k hcall₁ hcall₂ hlock₁ hlock₂ := by
    rcases hgoes.call_cases hcall₁ with ⟨rfl, rfl, hnext₁⟩ | ⟨_, hold₁⟩
    · rcases hgoes.call_cases hcall₂ with ⟨rfl, _⟩ | ⟨_, hold₂⟩
      · rfl
      · exact (hs.goes_apart hgoes hnext₁ hold₂ hlock₁ hlock₂).symm
    · rcases hgoes.call_cases hcall₂ with ⟨rfl, rfl, hnext₂⟩ | ⟨_, hold₂⟩
      · exact hs.goes_apart hgoes hnext₂ hold₁ hlock₂ hlock₁
      · exact hs.apart _ _ _ _ _ _ k hold₁ hold₂ hlock₁ hlock₂
  loading τ₁ τ₂ n c₁ c₂ hcall₁ hcall₂ hloads₁ hloads₂ := by
    rcases hgoes.call_cases hcall₁ with ⟨rfl, rfl, hnext₁⟩ | ⟨_, hold₁⟩
    · rcases hgoes.call_cases hcall₂ with ⟨rfl, _⟩ | ⟨_, hold₂⟩
      · rfl
      · exact (hs.goes_loading hgoes horderly htask hnext₁ hold₂ hloads₁ hloads₂).symm
    · rcases hgoes.call_cases hcall₂ with ⟨rfl, rfl, hnext₂⟩ | ⟨_, hold₂⟩
      · exact hs.goes_loading hgoes horderly htask hnext₂ hold₁ hloads₂ hloads₁
      · exact hs.loading _ _ _ _ _ hold₁ hold₂ hloads₁ hloads₂
  absent _ _ _ hcall hloads := hs.goes_absent hgoes hcall hloads
  live _ _ hb hlive := hs.goes_live hgoes hb hlive

end

/-- **The step lemma.** -/
theorem Exclusive.step {s t : Server Y} (hs : s.Exclusive) {cfg : Configuration} {l : Label Y}
    (h : Server.step cfg s l = some t) (horderly : s.Orderly l) : t.Exclusive := by
  cases registry_cases h with
  | quiet hdocuments hlocks hcalls hlength =>
    refine hs.begins hlocks hcalls (fun n hnone => hdocuments ▸ hnone) fun j b hb hlive => ?_
    obtain ⟨a, ha, halive, hname⟩ := live_known h hlength hb hlive
    exact ⟨a, ha, halive, hname, fun hentry => hdocuments ▸ hentry⟩
  | removes name hdocuments hlocks hcalls hlength hremoval =>
    exact hs.removes h horderly hdocuments hlocks hcalls hlength hremoval
  | calls τ name c doc queues u next htask hcall hstep hdocuments hlocks hactors hcalls =>
    exact hs.goes ⟨hcall, ⟨doc, queues, hstep⟩, hdocuments, hlocks, hactors, hcalls⟩ horderly htask

theorem build_exclusive (Y : Yrs) : (build Y).Exclusive := by
  have hnone : ∀ τ name c, (build Y).call τ ≠ some (name, c) := by
    intro τ name c hcall
    cases τ <;> cases hcall
  exact ⟨fun τ name c _ hcall => absurd hcall (hnone τ name c),
    fun τ _ name _ c _ _ hcall => absurd hcall (hnone τ name c),
    fun τ _ name c _ hcall => absurd hcall (hnone τ name c),
    fun τ name c hcall => absurd hcall (hnone τ name c), fun j a ha => by cases ha⟩

theorem Exclusive.oneLive {s : Server Y} (hs : s.Exclusive) (hnamed : s.Named) : s.OneLive where
  one _ _ _ _ ha ha' hlive hlive' hname := hs.one ha ha' hlive hlive' hname
  entry name j hentry := by
    refine ⟨hnamed.documents name j hentry, fun j' a' ha' hlive hname => ?_⟩
    rcases hs.live j' a' ha' hlive with hentry' | ⟨τ, k, hcall⟩
    · rw [hname, hentry] at hentry'
      exact (Option.some.inj hentry').symm
    · rw [hname] at hcall
      rw [hs.absent τ _ _ hcall rfl] at hentry
      cases hentry

end Server

/-- **One live actor for a name** in every state of a run whose steps are orderly,
and the entry of the name is that actor or one that has left. -/
theorem one_live_actor {cfg : Configuration} {ls : List (Server.Label Y)} {s : Server Y}
    (hrun : Lts.exec (Server.step cfg) (Server.build Y) ls = some s)
    (horderly : Lts.Along (Server.step cfg) (fun s l _ => s.Orderly l) (Server.build Y) ls) :
    s.OneLive := by
  have hend : s.Exclusive ∧ s.Named :=
    Lts.exec_invariant_along (I := fun u : Server Y => u.Exclusive ∧ u.Named)
      (fun u l v hstep hc hu => ⟨hu.1.step hstep hc, hu.2.step hstep⟩) horderly hrun
      ⟨Server.build_exclusive Y, Server.build_named Y⟩
  exact hend.1.oneLive hend.2

instance (a : Spawned Y) : Decidable a.Left := inferInstanceAs (Decidable (_ ∨ _))

namespace Server

/-- The tasks there are. -/
def tasks (s : Server Y) : List Task :=
  (List.range s.sockets.length).map Sum.inl ++ (List.range s.edits.length).map Sum.inr

theorem mem_tasks {s : Server Y} {τ : Task} {x : String × DocumentCall} (h : s.call τ = some x) :
    τ ∈ s.tasks := by
  cases τ with
  | inl i =>
    obtain ⟨sock, hsock, _⟩ := Option.bind_eq_some_iff.mp h
    obtain ⟨hlt, _⟩ := List.getElem?_eq_some_iff.mp hsock
    exact List.mem_append_left _ (List.mem_map_of_mem (List.mem_range.mpr hlt))
  | inr k =>
    obtain ⟨e, he, _⟩ := Option.bind_eq_some_iff.mp h
    obtain ⟨hlt, _⟩ := List.getElem?_eq_some_iff.mp he
    exact List.mem_append_right _ (List.mem_map_of_mem (List.mem_range.mpr hlt))

/-- Whoever loads the name has the lock `k`. -/
def loadsUnder (s : Server Y) (name : String) (k : Nat) : Bool :=
  s.tasks.all fun τ => (s.call τ).all fun x =>
    decide (x.1 ≠ name) || !x.2.loads || decide (x.2.lock = some k)

theorem loadsUnder_sound {s : Server Y} {name : String} {k : Nat}
    (h : s.loadsUnder name k = true) {τ : Task} {c : DocumentCall}
    (hcall : s.call τ = some (name, c)) (hloads : c.loads = true) : c.lock = some k := by
  have hτ := List.all_eq_true.mp h τ (mem_tasks hcall)
  rw [hcall] at hτ
  simpa [hloads] using hτ

/-- `Fails`, decided. -/
def fails (s : Server Y) (r : Registration) : Bool :=
  match r.stage with
  | .document _ => false
  | .send h => (s.actors[h]?).all fun a => a.gone
  | .await h ack => decide (s.awaited h ack = some false)

theorem fails_complete {s : Server Y} {r : Registration} (h : s.Fails r) : s.fails r = true := by
  unfold Fails at h
  unfold fails
  split
  next c hstage => rw [hstage] at h; exact h.elim
  next j hstage =>
    rw [hstage] at h
    cases ha : s.actors[j]? with
    | none => rfl
    | some a => exact h a ha
  next j ack hstage =>
    rw [hstage] at h
    exact decide_eq_true h

/-- The entry of a name is an actor that has left, or there is none. -/
def abandoned (s : Server Y) (name : String) : Bool :=
  (s.documents name).all fun j => (s.actors[j]?).all fun a => decide a.Left

/-- `Orderly`, decided. -/
def orderly (s : Server Y) (l : Label Y) : Bool :=
  match l.task with
  | none => true
  | some τ =>
    (match s.call τ with
      | some (name, .check k) => (s.documents name).isSome || s.loadsUnder name k
      | _ => true) &&
    (match τ with
      | .inl i => (s.sockets[i]?).all fun sock =>
        match sock.task with
        | .registering r => !s.fails r || s.abandoned r.request.documentName
        | _ => true
      | .inr _ => true)

theorem orderly_sound {s : Server Y} {l : Label Y} (h : s.orderly l = true) : s.Orderly l := by
  refine ⟨fun τ name k htask hcall hnone τ' c hcall' hloads => ?_,
    fun i sock r htask hsock hregisters hfails j a hentry ha => ?_⟩
  · rw [orderly, htask] at h
    have hfirst := (Bool.and_eq_true_iff.mp h).1
    rw [hcall] at hfirst
    dsimp only at hfirst
    rw [hnone, Option.isSome_none, Bool.false_or] at hfirst
    exact loadsUnder_sound hfirst hcall' hloads
  · rw [orderly, htask] at h
    have hsecond := (Bool.and_eq_true_iff.mp h).2
    dsimp only at hsecond
    rw [hsock, Option.all_some, hregisters] at hsecond
    dsimp only at hsecond
    rw [fails_complete hfails, Bool.not_true, Bool.false_or, abandoned, hentry, Option.all_some,
      ha, Option.all_some] at hsecond
    exact of_decide_eq_true hsecond

end Server

/-- Three sockets open one name. The second waits for the lock under which the first
loads; the third gets the actor both have joined, but it unloads before the
`AddConnection` is sent, and the third loads a new one. -/
def joinedLate : List (Server.Label OneWriter.yrs) :=
  [.connect 0, .connect 0, .connect 0] ++ OneWriter.authenticates 0 "doc" ++
    OneWriter.authenticates 1 "doc" ++ OneWriter.registers 0 4 ++ OneWriter.registers 1 2 ++
    OneWriter.registers 0 4 ++ OneWriter.registers 1 3 ++
    [.recv 0, .command 0 {}, .command 0 {}, .actor 0 (.flush [])] ++ OneWriter.registers 0 1 ++
    OneWriter.registers 1 1 ++ OneWriter.authenticates 2 "doc" ++ OneWriter.registers 2 1 ++
    [.hangup 0, .leave 0 "doc", .clean 0] ++ OneWriter.handles 0 ++
    [.hangup 1, .leave 1 "doc", .clean 1] ++ OneWriter.handles 0 ++ [.drop 0] ++
    OneWriter.registers 2 9 ++ OneWriter.handles 1 ++ OneWriter.registers 2 1

/-- There have been two actors, and the second one is the entry. -/
theorem one_live_actor_contended :
    (OneWriter.serve {} joinedLate).OneLive ∧ (OneWriter.serve {} joinedLate).actors.length = 2 ∧
      (OneWriter.serve {} joinedLate).documents "doc" = some 1 := by
  have hcheck : Lts.check (Server.step {}) Server.orderly (Server.build OneWriter.yrs) joinedLate
      = true := by
    decide +kernel
  refine ⟨?_, by decide +kernel, by decide +kernel⟩
  exact @one_live_actor _ {} _ _ (Lts.exec_reach (by decide +kernel))
    (Lts.along_of_check (fun _ _ _ => Server.orderly_sound) hcheck)

/-- The actor handles the removal of its only client, unloads and is gone. -/
def leaves (i j : Nat) : List (Server.Label OneWriter.yrs) :=
  [.hangup i, .leave i "doc", .clean i] ++ OneWriter.handles j ++ [.drop j]

/-- A socket finds an actor that unloads before it has sent its `AddConnection`; it
removes the entry of the actor another socket has loaded since. -/
def hijacked : List (Server.Label OneWriter.yrs) :=
  [.connect 0, .connect 0, .connect 0] ++ OneWriter.enters 0 0 "doc" ++
    OneWriter.authenticates 1 "doc" ++ OneWriter.registers 1 1 ++ leaves 0 0 ++
    OneWriter.authenticates 2 "doc" ++ OneWriter.registers 2 8 ++ OneWriter.registers 1 8

/-- A socket gets a lock when its entry is gone and the actor that was loaded under
it too; it loads under this lock while another socket loads under a new one. -/
def outrun : List (Server.Label OneWriter.yrs) :=
  [.connect 0, .connect 0, .connect 0] ++ OneWriter.authenticates 0 "doc" ++
    OneWriter.registers 0 2 ++ OneWriter.authenticates 1 "doc" ++ OneWriter.registers 1 2 ++
    OneWriter.registers 0 6 ++ OneWriter.handles 0 ++ OneWriter.registers 0 1 ++ leaves 0 0 ++
    OneWriter.authenticates 2 "doc" ++ OneWriter.registers 2 4 ++ OneWriter.registers 1 4 ++
    OneWriter.registers 2 1 ++ OneWriter.registers 1 1

/-- The actors 1 and 2 wait for commands, and have one name. -/
def splitBrain (s : Server OneWriter.yrs) : Bool :=
  match s.actors[1]?, s.actors[2]? with
  | some a, some b => decide (a.actor.phase = .select) && decide (b.actor.phase = .select) &&
      decide (a.actor.world.name = b.actor.world.name)
  | _, _ => false

theorem splitBrain_spec {s : Server OneWriter.yrs} (h : splitBrain s = true) : ¬ s.OneLive := by
  intro hone
  unfold splitBrain at h
  split at h
  next a b ha hb =>
    obtain ⟨hphases, hname⟩ := Bool.and_eq_true_iff.mp h
    obtain ⟨hphase, hphase'⟩ := Bool.and_eq_true_iff.mp hphases
    have hlive : ∀ {c : Spawned OneWriter.yrs},
        decide (c.actor.phase = .select) = true → c.Live := by
      intro c hc hleft
      have hselect := of_decide_eq_true hc
      rcases hleft with hwas | hwas <;> rw [hselect] at hwas <;> cases hwas
    have hsame := hone.one 1 2 a b ha hb (hlive hphase) (hlive hphase') (of_decide_eq_true hname)
    omega
  next => cases h

/-- Two actors of one name, by each of the two ways. -/
theorem one_live_actor_not :
    (¬ ∀ s, Lts.exec (Server.step {}) (Server.build OneWriter.yrs) hijacked = some s → s.OneLive) ∧
      ¬ ∀ s, Lts.exec (Server.step {}) (Server.build OneWriter.yrs) outrun = some s →
        s.OneLive := by
  constructor
  · intro hall
    have hsplit : splitBrain (OneWriter.serve {} hijacked) = true := by
      decide +kernel
    exact splitBrain_spec hsplit (hall _ (Lts.exec_reach (by decide +kernel)))
  · intro hall
    have hsplit : splitBrain (OneWriter.serve {} outrun) = true := by
      decide +kernel
    exact splitBrain_spec hsplit (hall _ (Lts.exec_reach (by decide +kernel)))

end Hocuspocus
