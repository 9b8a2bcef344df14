import Hocuspocus.Lib.Rest
import Hocuspocus.Server.Backlog
import Hocuspocus.Server.Registry
import Hocuspocus.Server.Rounds

/-!
# The server comes to rest

The tasks wait for each other: a registration for the lock of a name, which
another task holds while it loads; for an `ack`, which an actor sends when it
gets to the command; an actor for its batch to be flushed. When nothing more
comes in from outside, and the hooks answer, the steps that are left finish
what was begun (`Label.continues`), and each of them uses up `work`. So there
are finitely many of them in any order. When none is enabled nobody waits any
more (`AtRest`): a lock that is taken has a holder that can go on, and a command
that was sent is in a mailbox whose actor has a turn to take. No order of the
steps deadlocks, and none goes on forever.
-/

namespace Hocuspocus

variable {Y : Yrs}

/-! ## What is left to be done -/

/-- What is left of a call of `ServerShared::document`, with what follows it. -/
def DocumentCall.work : DocumentCall → Nat
  | .lookup => 14
  | .miss => 13
  | .wait _ => 12
  | .check _ => 11
  | .spawn _ => 10
  | .insert _ _ => 8
  | .forget _ _ => 7

/-- A command costs its actor four: to be received, and to be handled. -/
def Stage.work : Stage → Nat
  | .document call => call.work
  | .send _ => 6
  | .await _ _ => 1

/-- A loop with another turn may begin again. -/
def Registration.work (r : Registration) : Nat := r.stage.work + if r.again then 14 else 0

def Socket.work (sock : Socket) : Nat :=
  4 * sock.client.backlog.length +
    match sock.task with
    | .connecting _ => 30
    | .authenticating _ => 29
    | .registering r => r.work
    | .cleaning => 5 * sock.client.established.size + 1
    | .reading | .ended => 0

def DirectApply.work (e : DirectApply) : Nat := if e.returned.isSome then 0 else e.stage.work

/-- A batch is still to be flushed. -/
def Phase.work : Phase → Nat
  | .batch _ | .exiting => 1
  | .select | .stopped => 0

def Spawned.work (a : Spawned Y) : Nat :=
  4 * a.mailbox.length + 2 * a.batch.length + a.actor.phase.work + if a.gone then 0 else 1

namespace Server

def actorsWork (s : Server Y) : Nat := (s.actors.map Spawned.work).sum

def socketsWork (s : Server Y) : Nat := (s.sockets.map Socket.work).sum

def editsWork (s : Server Y) : Nat := (s.edits.map DirectApply.work).sum

def work (s : Server Y) : Nat := s.actorsWork + s.socketsWork + s.editsWork

/-- The step goes on with what was begun. Nobody connects, sends, calls, hangs up
or times out, and no store is due; a receiver is dropped once. -/
def Label.continues (s : Server Y) : Label Y → Bool
  | .connected _ _ | .authenticated _ _ _ | .register _ _ _ | .leave _ _ | .clean _ => true
  | .direct _ _ _ | .recv _ | .command _ _ | .actor _ (.flush _) => true
  | .drop j => (s.actors[j]?).any fun a => !a.gone
  | .connect _ | .receive _ _ _ | .hangup _ | .timeout _ _ | .apply _ _ | .external _ _ => false
  | .actor _ _ => false

/-- Nobody waits: every call has returned, every socket reads or has ended, and
every actor has handled what it was sent. -/
structure AtRest (s : Server Y) : Prop where
  sockets : ∀ (i : Nat) (sock : Socket), s.sockets[i]? = some sock →
    sock.task = .reading ∨ sock.task = .ended
  edits : ∀ (k : Nat) (e : DirectApply), s.edits[k]? = some e → e.returned.isSome = true
  actors : ∀ (j : Nat) (a : Spawned Y), s.actors[j]? = some a → a.pending = [] ∧
    (a.actor.phase = .select ∨ a.actor.phase = .stopped ∧ a.gone = true)

/-! ## Every step uses up work -/

theorem actorsWork_set {s t : Server Y} {j : Nat} {a b : Spawned Y} (ha : s.actors[j]? = some a)
    (hactors : t.actors = s.actors.set j b) : t.actorsWork + a.work = s.actorsWork + b.work := by
  unfold actorsWork
  rw [hactors]
  exact Lts.sum_set Spawned.work ha b

theorem socketsWork_set {s t : Server Y} {i : Nat} {sock sock' : Socket}
    (hsock : s.sockets[i]? = some sock) (hsockets : t.sockets = s.sockets.set i sock') :
    t.socketsWork + sock.work = s.socketsWork + sock'.work := by
  unfold socketsWork
  rw [hsockets]
  exact Lts.sum_set Socket.work hsock sock'

theorem editsWork_set {s t : Server Y} {k : Nat} {e e' : DirectApply} (he : s.edits[k]? = some e)
    (hedits : t.edits = s.edits.set k e') : t.editsWork + e.work = s.editsWork + e'.work := by
  unfold editsWork
  rw [hedits]
  exact Lts.sum_set DirectApply.work he e'

theorem send_work (s : Server Y) (j : Nat) (cmd : DocCommand) :
    (s.send j cmd).1.actorsWork ≤ s.actorsWork + 4 := by
  unfold Server.send
  split
  next => exact Nat.le_add_right _ _
  next a ha =>
    split
    next => exact Nat.le_add_right _ _
    next =>
      have hset := actorsWork_set (t := s.setActor j { a with mailbox := a.mailbox ++ [cmd] }) ha rfl
      have htold : ({ a with mailbox := a.mailbox ++ [cmd] } : Spawned Y).work = a.work + 4 := by
        simp only [Spawned.work, List.length_append, List.length_singleton]
        omega
      dsimp only
      omega

theorem sendAll_work (cmds : List (Nat × DocCommand)) (s : Server Y) :
    (s.sendAll cmds).actorsWork ≤ s.actorsWork + 4 * cmds.length := by
  induction cmds generalizing s with
  | nil => exact Nat.le_add_right _ _
  | cons c cmds ih =>
    have hfirst := send_work s c.1 c.2
    have hothers := ih (s.send c.1 c.2).1
    have hcons : s.sendAll (c :: cmds) = (s.send c.1 c.2).1.sendAll cmds := rfl
    rw [hcons, List.length_cons]
    omega

/-- A call that goes on, or returns a handle to send to. -/
theorem documentStep_work {s u : Server Y} {name : String} {doc : Y.Doc} {queues : Queues}
    {call : DocumentCall} {r : DocumentCall ⊕ Nat}
    (h : s.documentStep name doc queues call = some (u, r)) :
    u.actorsWork + r.elim DocumentCall.work (fun _ => 6) < s.actorsWork + call.work := by
  cases documentStep_cases h with
  | spawns l =>
    have hwork : (List.map Spawned.work (s.actors ++ [born name doc queues])).sum
        = s.actorsWork + 1 := by
      rw [List.map_append, List.sum_append]
      rfl
    show (List.map Spawned.work (s.actors ++ [born name doc queues])).sum + 8 < s.actorsWork + 10
    rw [hwork]
    omega
  | found | missing | joins | creates | locks | late | loads | inserts | forgets =>
    exact Nat.add_lt_add_left (by simp [DocumentCall.work]) s.actorsWork

theorem Spawned.work_command {a : Spawned Y} {cmd : DocCommand} {batch rest : List DocCommand}
    {b : Actor Y} {acked : List Nat} (hbatch : a.batch = cmd :: batch)
    (hrest : rest.length ≤ batch.length) :
    (⟨b, a.mailbox, rest, acked, a.gone⟩ : Spawned Y).work < a.work := by
  have hphase : b.phase.work ≤ 1 := by
    unfold Phase.work
    split <;> omega
  simp only [Spawned.work, hbatch, List.length_cons]
  omega

theorem failed_work {sock : Socket} (sock' : Socket) {r : Registration} (htask : sock.task = .registering r)
    (hclient : sock'.client = sock.client) : (sock'.failed r).work < sock.work := by
  have hstage : 1 ≤ r.stage.work := by
    unfold Stage.work DocumentCall.work
    split
    · split <;> omega
    · omega
    · omega
  unfold Socket.failed
  split
  next hagain =>
    have hnext : ({ sock' with
        task := .registering { r with again := false, stage := .document .lookup } } : Socket).work
        = 4 * sock.client.backlog.length + 14 := by
      simp only [Socket.work, hclient]
      rfl
    have hold : sock.work = 4 * sock.client.backlog.length + (r.stage.work + 14) := by
      simp only [Socket.work, htask, Registration.work, hagain, if_true]
    omega
  next hagain =>
    simp only [Socket.work, Socket.terminate, Socket.emit, htask, hclient, Registration.work, hagain]
    omega

/-- The frames that were queued go to the actor. -/
theorem register_work {sock : Socket} {r : Registration} (htask : sock.task = .registering r)
    (h : Nat) : (sock.register r h).1.work + 4 * (sock.register r h).2.length + 1 ≤ sock.work := by
  have hstage : 1 ≤ r.work := by
    unfold Registration.work Stage.work DocumentCall.work
    split
    · split <;> omega
    · omega
    · omega
  unfold Socket.register
  dsimp only
  split
  next hnone =>
    simp only [Socket.work, htask, List.length_nil]
    show 4 * sock.client.backlog.length + 0 + 4 * 0 + 1 ≤ 4 * sock.client.backlog.length + r.work
    omega
  next pending hpending =>
    have hqueue := (ClientConnection.release_spec pending.frames { sock.client with
      established := sock.client.established.insert Reorder.keep ⟨r.request.key, h, r.connId⟩
      queue := sock.client.queue.erase r.request.key }).1
    have hlength := (ClientConnection.backlog_perm hpending).length_eq
    rw [List.length_append] at hlength
    simp only [Socket.work, htask, List.length_map]
    rw [ClientConnection.backlog, hqueue]
    show 4 * (sock.client.others r.request.key).length + 0 + 4 * pending.frames.length + 1 ≤ _
    omega

/-- A socket takes a turn: what it sends is less than what it has done. -/
theorem work_of_socket {s t : Server Y} {i : Nat} {sock sock' : Socket}
    (hsock : s.sockets[i]? = some sock) (hsockets : t.sockets = s.sockets.set i sock')
    (hedits : t.edits = s.edits) (hless : t.actorsWork + sock'.work < s.actorsWork + sock.work) :
    t.work < s.work := by
  have hset := socketsWork_set hsock hsockets
  unfold work editsWork
  rw [hedits]
  omega

theorem work_of_edit {s t : Server Y} {k : Nat} {e e' : DirectApply} (he : s.edits[k]? = some e)
    (hedits : t.edits = s.edits.set k e') (hsockets : t.sockets = s.sockets)
    (hless : t.actorsWork + e'.work < s.actorsWork + e.work) : t.work < s.work := by
  have hset := editsWork_set he hedits
  unfold work socketsWork
  rw [hsockets]
  omega

theorem work_of_actor {s t : Server Y} {j : Nat} {a b : Spawned Y} (ha : s.actors[j]? = some a)
    (hactors : t.actors = s.actors.set j b) (hsockets : t.sockets = s.sockets)
    (hedits : t.edits = s.edits) (hless : b.work < a.work) : t.work < s.work := by
  have hset := actorsWork_set ha hactors
  unfold work socketsWork editsWork
  rw [hsockets, hedits]
  omega

theorem registerStep_work {s t : Server Y} {i : Nat} {sock : Socket} {r : Registration}
    {doc : Y.Doc} {queues : Queues} (hsock : s.sockets[i]? = some sock)
    (htask : sock.task = .registering r) (h : s.registerStep i sock r doc queues = some t) :
    t.work < s.work := by
  have hedits := registerStep_edits h
  have hsent : ∀ handle, (s.introduce i sock r handle).1.actorsWork ≤ s.actorsWork + 4 :=
    fun handle => send_work { s with nextAck := s.nextAck + 1 } handle _
  have hsame : ∀ handle, (s.introduce i sock r handle).1.sockets = s.sockets :=
    fun handle => send_sockets { s with nextAck := s.nextAck + 1 } handle _
  -- where its registration is at another stage
  have hstages : ∀ (sock' : Socket) {stage : Stage}, sock'.client = sock.client →
      sock'.task = .registering { r with stage } →
      sock'.work + r.stage.work = sock.work + stage.work := by
    intro sock' stage hclient htask'
    simp only [Socket.work, htask, htask', hclient, Registration.work]
    omega
  cases registerStep_cases h with
  | calls call next u hstage hcall =>
    have hdocument := documentStep_work hcall
    have hnext := hstages { sock with
      task := .registering { r with stage := .document next } } rfl rfl
    rw [hstage] at hnext
    refine work_of_socket hsock (congrArg (List.set · i _) (documentStep_sockets hcall).1) hedits ?_
    show u.actorsWork + _ < _
    simp only [Stage.work, Sum.elim_inl] at hnext hdocument
    omega
  | finds call handle u hstage hcall =>
    have hdocument := documentStep_work hcall
    have hnext := hstages { sock with
      task := .registering { r with stage := .send handle } } rfl rfl
    rw [hstage] at hnext
    refine work_of_socket hsock (congrArg (List.set · i _) (documentStep_sockets hcall).1) hedits ?_
    show u.actorsWork + _ < _
    simp only [Stage.work, Sum.elim_inr] at hnext hdocument
    omega
  | sends handle hstage =>
    have hmail := hsent handle
    have hnext := hstages { s.introduced i sock r handle with
      task := .registering { r with stage := .await handle s.nextAck } } rfl rfl
    rw [hstage] at hnext
    refine work_of_socket hsock (congrArg (List.set · i _) (hsame handle)) hedits ?_
    show (s.introduce i sock r handle).1.actorsWork + _ < _
    simp only [Stage.work] at hnext ⊢
    omega
  | refused handle hstage hrefused =>
    have hfailed := failed_work (s.introduced i sock r handle) htask rfl
    have hunsent : (s.introduce i sock r handle).1.actorsWork = s.actorsWork := by
      unfold introduce at hrefused ⊢
      rw [send_refused hrefused]
      rfl
    refine work_of_socket hsock (congrArg (List.set · i _) (hsame handle)) hedits ?_
    show (s.introduce i sock r handle).1.actorsWork + _ < _
    omega
  | acked handle ack hstage hacked =>
    have hmail := sendAll_work (sock.register r handle).2 (s.setSocket i (sock.register r handle).1)
    have hregister := register_work htask handle
    have hactors : (s.setSocket i (sock.register r handle).1).actorsWork = s.actorsWork := rfl
    refine work_of_socket hsock (sendAll_sockets _ _) hedits ?_
    omega
  | lost handle ack hstage hlost =>
    have hfailed := failed_work sock htask rfl
    exact work_of_socket hsock rfl hedits (Nat.add_lt_add_left hfailed s.actorsWork)

theorem directStep_work {s t : Server Y} {k : Nat} {e : DirectApply} {doc : Y.Doc}
    {queues : Queues} (he : s.edits[k]? = some e) (h : s.directStep k e doc queues = some t) :
    t.work < s.work := by
  have hstages : ∀ (e' : DirectApply), e'.returned = none → e'.work = e'.stage.work := by
    intro e' hreturned
    rw [DirectApply.work, hreturned]
    rfl
  have hsockets := directStep_sockets h
  cases directStep_cases h with
  | calls call next u hreturned hstage hcall =>
    have hdocument := documentStep_work hcall
    have hold := hstages e hreturned
    have hnew := hstages { e with stage := .document next } hreturned
    refine work_of_edit he (congrArg (List.set · k _) (documentStep_sockets hcall).2) hsockets ?_
    show u.actorsWork + _ < _
    rw [hstage] at hold
    simp only [Stage.work, Sum.elim_inl] at hold hnew hdocument
    omega
  | finds call handle u hreturned hstage hcall =>
    have hdocument := documentStep_work hcall
    have hold := hstages e hreturned
    have hnew := hstages { e with stage := .send handle } hreturned
    refine work_of_edit he (congrArg (List.set · k _) (documentStep_sockets hcall).2) hsockets ?_
    show u.actorsWork + _ < _
    rw [hstage] at hold
    simp only [Stage.work, Sum.elim_inr] at hold hnew hdocument
    omega
  | sends handle sent hreturned hstage hsent =>
    have hmail := send_work { s with nextAck := s.nextAck + 1 } handle
      (.directApply e.update s.nextAck)
    have hedits := send_edits { s with nextAck := s.nextAck + 1 } handle
      (.directApply e.update s.nextAck)
    rw [← hsent] at hmail hedits
    have hnew : (if sent.2 = true then { e with stage := .await handle s.nextAck }
        else { e with returned := some false } : DirectApply).work ≤ 1 := by
      split
      · rw [DirectApply.work, hreturned]
        exact Nat.le_refl 1
      · exact Nat.zero_le 1
    have hold := hstages e hreturned
    rw [hstage] at hold
    refine work_of_edit he (congrArg (List.set · k _) hedits) hsockets ?_
    show sent.1.actorsWork + _ < _
    have hactors : ({ s with nextAck := s.nextAck + 1 } : Server Y).actorsWork = s.actorsWork := rfl
    simp only [Stage.work] at hold
    omega
  | answered handle ack acked hreturned hstage hacked =>
    have hold := hstages e hreturned
    rw [hstage] at hold
    refine work_of_edit he rfl hsockets (Nat.add_lt_add_left ?_ s.actorsWork)
    rw [hold]
    exact Nat.zero_lt_one

/-- **A step that goes on with what was begun leaves less to be done.** -/
theorem spends_work (cfg : Configuration) :
    Lts.Spends (Server.step cfg) (fun (s : Server Y) l => l.continues s = true) Server.work := by
  intro s l t h hcontinues
  cases step_cases h with
  | connect | receive | hangup | timeout | apply | external | unknown => cases hcontinues
  | connected i results sock request hsock htask =>
    refine work_of_socket hsock rfl rfl (Nat.add_lt_add_left ?_ s.actorsWork)
    have hqueue := (sock.connected_holds Y request results).queue
    have hold : sock.work = 4 * sock.client.backlog.length + 30 := by rw [Socket.work, htask]
    rw [hold, Socket.work, ClientConnection.backlog, hqueue]
    rcases sock.connected_task (Y := Y) request results with hnext | hnext
    · rw [hnext]
      exact Nat.add_lt_add_left (show 29 < 30 by decide) _
    · rw [hnext]
      exact Nat.add_lt_add_left (show 0 < 30 by decide) _
  | authenticated i results readOnly sock request hsock htask =>
    refine work_of_socket hsock rfl rfl (Nat.add_lt_add_left ?_ s.actorsWork)
    have hqueue := (sock.authenticated_holds Y request results readOnly s.nextConnId).queue
    have hold : sock.work = 4 * sock.client.backlog.length + 29 := by rw [Socket.work, htask]
    rw [hold, Socket.work, ClientConnection.backlog, hqueue]
    rcases sock.authenticated_task (Y := Y) request results readOnly s.nextConnId with hnext | hnext
    · rw [hnext]
      exact Nat.add_lt_add_left (show 28 < 29 by decide) _
    · rw [hnext]
      exact Nat.add_lt_add_left (show 0 < 29 by decide) _
  | register i doc queues sock r t hsock htask h => exact registerStep_work hsock htask h
  | leave i key sock est hsock htask hest =>
    have hmail := sendAll_work (sock.leave est).2 (s.setSocket i (sock.leave est).1)
    have hone : (sock.leave est).2.length = 1 := rfl
    have hactors : (s.setSocket i (sock.leave est).1).actorsWork = s.actorsWork := rfl
    -- one entry less, for the command that is sent
    have hlength := (Keyed.perm_erase hest).length_eq
    rw [List.length_cons, ← Keyed.get?_key hest] at hlength
    have hold : sock.work
        = 4 * sock.client.backlog.length + (5 * sock.client.established.vals.length + 1) := by
      rw [Socket.work, htask]
      rfl
    have hnew : (sock.leave est).1.work = 4 * sock.client.backlog.length
        + (5 * (sock.client.established.erase est.key).vals.length + 1) := by
      rw [Socket.work, sock.leave_task est htask]
      rfl
    refine work_of_socket hsock (sendAll_sockets _ _) (sendAll_edits _ _) ?_
    omega
  | clean i sock hsock htask hempty =>
    refine work_of_socket hsock rfl rfl (Nat.add_lt_add_left ?_ s.actorsWork)
    have hold : sock.work
        = 4 * sock.client.backlog.length + (5 * sock.client.established.size + 1) := by
      rw [Socket.work, htask]
    have hnew : ({ sock with task := .ended } : Socket).work = 4 * sock.client.backlog.length := rfl
    omega
  | direct k doc queues e t he h => exact directStep_work he h
  | recv j a ha hbatch hgone hphase hmail =>
    refine work_of_actor ha rfl rfl rfl ?_
    have hpos := List.length_pos_iff.mpr hmail
    have hmax : maxCoalesceBatch = 512 := rfl
    simp only [Spawned.work, hbatch, List.length_drop, List.length_take, List.length_nil]
    omega
  | command j o a cmd batch b ha hbatch hstep =>
    obtain ⟨hactors, hsockets, hedits⟩ := unloading_parts
      (s.setActor j ⟨b, a.mailbox, if b.unloadedBy (.command cmd o) then [] else batch,
        cmd.ack?.elim a.acked fun ack => a.acked ++ [ack], a.gone⟩)
      (b.unloadedBy (.command cmd o)) b.world.name
    refine work_of_actor ha hactors hsockets hedits (Spawned.work_command hbatch ?_)
    split
    · exact Nat.zero_le _
    · exact Nat.le_refl _
  | actor j l a b ha hplain hclosed hstep =>
    obtain ⟨hactors, hsockets, hedits⟩ := unloading_parts (s.setActor j { a with actor := b })
      (b.unloadedBy l) b.world.name
    cases l with
    | command | storeResult | deadline | mailboxClosed | storeTask | queues => cases hcontinues
    | flush sched =>
      refine work_of_actor ha hactors hsockets hedits ?_
      have hphase : b.phase.work < a.actor.phase.work := by
        cases Actor.step_cases hstep with
        | flush _ phase hphase =>
          rcases hphase with ⟨⟨n, hn⟩, rfl⟩ | ⟨hexiting, rfl⟩
          · rw [hn]
            exact Nat.zero_lt_one
          · rw [hexiting]
            exact Nat.zero_lt_one
      simp only [Spawned.work]
      omega
  | drop j a ha hstopped =>
    refine work_of_actor ha rfl rfl rfl ?_
    have hthere : a.gone = false := by
      have hany : ((s.actors[j]?).any fun a => !a.gone) = true := hcontinues
      rw [ha, Option.any_some, Bool.not_eq_true'] at hany
      exact hany
    simp only [Spawned.work, hthere, List.length_nil, if_true, Bool.false_eq_true, if_false]
    omega

end Server

/-! ## Batches and mailboxes -/

/-- What is left of the batch can be handled, and a receiver that is gone left
nothing behind. -/
structure Spawned.Paced (a : Spawned Y) : Prop where
  room : ∀ cmd rest, a.batch = cmd :: rest →
    ∃ n, a.actor.phase.next = some n ∧ n + rest.length ≤ maxCoalesceBatch
  gone : a.gone = true → a.mailbox = [] ∧ a.actor.phase = .stopped

theorem Actor.step_stopped {cfg : Configuration} {a b : Actor Y} {l : Label}
    (h : a.step cfg l = some b) (hstopped : a.phase = .stopped) : b.phase = .stopped := by
  cases Actor.step_cases h with
  | command cmd o n hphase =>
    rw [hstopped] at hphase
    cases hphase
  | flush sched phase hphase =>
    rcases hphase with ⟨⟨n, hn⟩, _⟩ | ⟨hexiting, _⟩
    · rw [hstopped] at hn
      cases hn
    · rw [hstopped] at hexiting
      cases hexiting
  | storeResult o ok rest hphase | deadline o hphase =>
    rw [hstopped] at hphase
    cases hphase
  | mailboxClosed => rfl
  | storeTask | queues => exact hstopped

theorem Spawned.Paced.round {cfg : Configuration} {s : Server Y}
    {sends : List (Nat × DocCommand)} {j : Nat} {a b : Spawned Y} {l : Server.Label Y}
    (hround : a.Round cfg s sends j l b) (ha : a.Paced) : b.Paced := by
  cases hround with
  | told =>
    unfold Spawned.receives
    split
    next => exact ha
    next hthere => exact ⟨ha.room, fun hgone => absurd hgone hthere⟩
  | recv hbatch hthere hphase hmail =>
    refine ⟨fun cmd rest hnew => ⟨1, ?_, ?_⟩, fun hgone => ?_⟩
    · show a.actor.phase.next = some 1
      rw [hphase]
      rfl
    · have hlength := congrArg List.length hnew
      rw [List.length_take, List.length_cons] at hlength
      omega
    · rw [hthere] at hgone
      cases hgone
  | command o cmd batch b hbatch hstep =>
    have hgone : a.gone = true → b.phase = .stopped := fun hgone =>
      Actor.step_stopped hstep (ha.gone hgone).2
    refine ⟨fun cmd' rest hnew => ?_, fun h => ⟨(ha.gone h).1, hgone h⟩⟩
    obtain ⟨n, hn, hroom⟩ := ha.room cmd batch hbatch
    dsimp only at hnew
    split at hnew
    next => cases hnew
    next hstays =>
      subst hnew
      rw [List.length_cons] at hroom
      cases Actor.step_cases hstep with
      | command cmd o m hphase =>
        rw [hphase] at hn
        obtain rfl := Option.some.inj hn
        generalize (a.actor.world.withSched o.sched).handleCommand cfg o cmd = r at hstays ⊢
        cases hexit : r.2 with
        | true => exact absurd (by simp [Actor.unloadedBy, Phase.after, hexit]) hstays
        | false =>
          refine ⟨m + 1, ?_, by omega⟩
          show (if m < maxCoalesceBatch then some (m + 1) else none) = some (m + 1)
          exact if_pos (by omega)
  | actor l b hplain hbetween hclosed hstep =>
    refine ⟨fun cmd rest hnew => ?_, fun h =>
      ⟨(ha.gone h).1, Actor.step_stopped hstep (ha.gone h).2⟩⟩
    have hphase : b.phase = a.actor.phase := by
      cases Actor.step_cases hstep with
      | command cmd o => exact absurd rfl (hplain cmd o)
      | flush | storeResult | deadline | mailboxClosed =>
        have hempty := hbetween rfl
        rw [hempty] at hnew
        cases hnew
      | storeTask | queues => rfl
    rw [hphase]
    exact ha.room cmd rest hnew
  | drop hstopped => exact ⟨ha.room, fun _ => ⟨rfl, hstopped⟩⟩

namespace Server

theorem paced_of_run {cfg : Configuration} {ls : List (Label Y)} {s : Server Y}
    (hrun : Lts.exec (Server.step cfg) (build Y) ls = some s) {j : Nat} {a : Spawned Y}
    (ha : s.actors[j]? = some a) : a.Paced :=
  rounds_invariant (I := Spawned.Paced) (fun _ _ _ => ⟨nofun, nofun⟩)
    (fun _ _ _ _ _ _ hround => Spawned.Paced.round hround) hrun ha

/-! ## Locks -/

/-- A lock that is taken has a holder, and one that somebody waits for is there. -/
structure Locking (s : Server Y) : Prop where
  held : ∀ l, s.locks[l]? = some true → ∃ τ name c, s.call τ = some (name, c) ∧ c.lock = some l
  made : ∀ name l, s.creating name = some l → l < s.locks.length
  waits : ∀ τ name l, s.call τ = some (name, .wait l) → l < s.locks.length

/-- The locks' entries are as they were, or a call has changed them. -/
theorem step_creating {s t : Server Y} {cfg : Configuration} {l : Label Y}
    (h : Server.step cfg s l = some t) : t.creating = s.creating ∨
      ∃ name c doc queues u next, s.documentStep name doc queues c = some (u, next) ∧
        t.creating = u.creating ∧ t.locks = u.locks := by
  have hsent : ∀ (u : Server Y) (j : Nat) (cmd : DocCommand),
      (u.send j cmd).1.creating = u.creating := by
    intro u j cmd
    rw [send_eq]
  have hall : ∀ (u : Server Y) (cmds : List (Nat × DocCommand)),
      (u.sendAll cmds).creating = u.creating := by
    intro u cmds
    rw [sendAll_eq]
  cases step_cases h with
  | connect | hangup | timeout | connected | authenticated | clean | apply | unknown | recv | drop =>
    exact Or.inl rfl
  | receive | leave => exact Or.inl (hall _ _)
  | external => exact Or.inl (hsent _ _ _)
  | register i doc queues sock r t hsock htask h =>
    cases registerStep_cases h with
    | calls call next u hstage hcall => exact Or.inr ⟨_, _, _, _, u, _, hcall, rfl, rfl⟩
    | finds call handle u hstage hcall => exact Or.inr ⟨_, _, _, _, u, _, hcall, rfl, rfl⟩
    | sends | refused => exact Or.inl (hsent { s with nextAck := s.nextAck + 1 } _ _)
    | acked => exact Or.inl (hall _ _)
    | lost => exact Or.inl rfl
  | direct k doc queues e t he h =>
    cases directStep_cases h with
    | calls call next u hreturned hstage hcall => exact Or.inr ⟨_, _, _, _, u, _, hcall, rfl, rfl⟩
    | finds call handle u hreturned hstage hcall => exact Or.inr ⟨_, _, _, _, u, _, hcall, rfl, rfl⟩
    | sends handle sent hreturned hstage hsent' =>
      subst hsent'
      exact Or.inl (hsent { s with nextAck := s.nextAck + 1 } _ _)
    | answered => exact Or.inl rfl
  | command j o a cmd batch b =>
    left
    cases b.unloadedBy (.command cmd o) <;> rfl
  | actor j l a b =>
    left
    cases b.unloadedBy l <;> rfl

theorem documentStep_made {s u : Server Y} {name : String} {doc : Y.Doc} {queues : Queues}
    {c : DocumentCall} {next : DocumentCall ⊕ Nat}
    (h : s.documentStep name doc queues c = some (u, next))
    (hmade : ∀ name l, s.creating name = some l → l < s.locks.length) :
    s.locks.length ≤ u.locks.length ∧ (∀ n l, u.creating n = some l → l < u.locks.length) ∧
      ∀ l, next = .inl (.wait l) → l < u.locks.length := by
  have hset : ∀ l b, (s.locks.set l b).length = s.locks.length := fun l b => List.length_set
  cases documentStep_cases h with
  | found | missing | loads | spawns | inserts => exact ⟨Nat.le_refl _, hmade, nofun⟩
  | joins l hlock =>
    refine ⟨Nat.le_refl _, hmade, fun k heq => ?_⟩
    cases heq
    exact hmade name l hlock
  | creates hlock =>
    have hlength : (s.locks ++ [false]).length = s.locks.length + 1 := List.length_append
    refine ⟨by dsimp only; omega, fun n l hl => ?_, fun l heq => ?_⟩
    · dsimp only at hl ⊢
      by_cases hn : n = name
      · rw [hn, Function.update_self] at hl
        cases hl
        omega
      · rw [Function.update_of_ne hn] at hl
        have hlt := hmade n l hl
        omega
    · cases heq
      dsimp only
      omega
  | locks l hfree =>
    refine ⟨(hset l true).ge, fun n k hk => ?_, nofun⟩
    exact (hset l true).symm ▸ hmade n k hk
  | late l j =>
    refine ⟨(hset l false).ge, fun n k hk => ?_, nofun⟩
    exact (hset l false).symm ▸ hmade n k hk
  | forgets l j =>
    refine ⟨(hset l false).ge, fun n k hk => (hset l false).symm ▸ ?_, nofun⟩
    have hk : Function.update s.creating name none n = some k := hk
    by_cases hn : n = name
    · rw [hn, Function.update_self] at hk
      cases hk
    · rw [Function.update_of_ne hn] at hk
      exact hmade n k hk

/-- Whoever holds a lock after a call has gone on held it before, or is the one
whose call it is. -/
theorem documentStep_taken {s u : Server Y} {name : String} {doc : Y.Doc} {queues : Queues}
    {c : DocumentCall} {next : DocumentCall ⊕ Nat}
    (h : s.documentStep name doc queues c = some (u, next)) {k : Nat}
    (htaken : u.locks[k]? = some true) :
    next.getLeft?.bind DocumentCall.lock = some k ∨ s.locks[k]? = some true ∧ c.lock ≠ some k := by
  have hfreed : ∀ l, (s.locks.set l false)[k]? = some true → s.locks[k]? = some true ∧ l ≠ k := by
    intro l hk
    rcases getElem?_set_cases hk with ⟨_, hfalse⟩ | ⟨hne, hold⟩
    · cases hfalse
    · exact ⟨hold, hne⟩
  cases documentStep_cases h with
  | found | missing | joins => exact Or.inr ⟨htaken, nofun⟩
  | creates =>
    rcases getElem?_snoc htaken with hold | ⟨_, hfalse⟩
    · exact Or.inr ⟨hold, nofun⟩
    · cases hfalse
  | locks l hfree =>
    rcases getElem?_set_cases htaken with ⟨rfl, _⟩ | ⟨_, hold⟩
    · exact Or.inl rfl
    · exact Or.inr ⟨hold, nofun⟩
  | late l j =>
    obtain ⟨hold, hne⟩ := hfreed l htaken
    exact Or.inr ⟨hold, fun heq => hne (Option.some.inj heq)⟩
  | forgets l j =>
    obtain ⟨hold, hne⟩ := hfreed l htaken
    exact Or.inr ⟨hold, fun heq => hne (Option.some.inj heq)⟩
  | loads l | spawns l | inserts l j =>
    by_cases hl : l = k
    · exact Or.inl (congrArg some hl)
    · exact Or.inr ⟨htaken, fun heq => hl (Option.some.inj heq)⟩

theorem Locking.begins {s t : Server Y} (hs : s.Locking) (hlocks : t.locks = s.locks)
    (hcreating : ∀ name l, t.creating name = some l → l < t.locks.length) (hcalls : s.Begins t) :
    t.Locking := by
  refine ⟨fun l hl => ?_, hcreating, fun τ name l hcall => ?_⟩
  · rw [hlocks] at hl
    obtain ⟨τ, name, c, hcall, hlock⟩ := hs.held l hl
    rcases hcalls τ with hsame | ⟨hnone, _⟩
    · exact ⟨τ, name, c, hsame.trans hcall, hlock⟩
    · rw [hnone] at hcall
      cases hcall
  · rw [hlocks]
    rcases hcalls τ with hsame | ⟨_, hnew⟩
    · exact hs.waits τ name l (hsame ▸ hcall)
    · cases hnew name _ hcall

theorem Locking.step {s t : Server Y} (hs : s.Locking) {cfg : Configuration} {l : Label Y}
    (h : Server.step cfg s l = some t) : t.Locking := by
  have hcreating : ∀ name k, t.creating name = some k → k < t.locks.length := by
    intro name k hk
    rcases step_creating h with hsame | ⟨name', c, doc, queues, u, next, hstep, hcreating, hlocks⟩
    · have hlt := hs.made name k (hsame ▸ hk)
      cases registry_cases h with
      | quiet hdocuments hlocks => exact hlocks ▸ hlt
      | removes name' hdocuments hlocks => exact hlocks ▸ hlt
      | calls τ name' c doc queues u next htask hcall hstep hdocuments hlocks =>
        exact hlocks ▸ hlt.trans_le (documentStep_made hstep hs.made).1
    · rw [hlocks]
      exact (documentStep_made hstep hs.made).2.1 name k (hcreating ▸ hk)
  cases registry_cases h with
  | quiet hdocuments hlocks hcalls => exact hs.begins hlocks hcreating hcalls
  | removes name hdocuments hlocks hcalls => exact hs.begins hlocks hcreating hcalls
  | calls τ name c doc queues u next htask hcall hstep hdocuments hlocks hactors hcalls =>
    have hgoes : Goes s t u τ name c next :=
      ⟨hcall, ⟨doc, queues, hstep⟩, hdocuments, hlocks, hactors, hcalls⟩
    obtain ⟨hgrows, _, hwaits⟩ := documentStep_made hstep hs.made
    refine ⟨fun k hk => ?_, hcreating, fun τ' n k hcall' => ?_⟩
    · rw [hlocks] at hk
      rcases documentStep_taken hstep hk with hnew | ⟨hold, hother⟩
      · obtain ⟨c', hc', hlock⟩ := Option.bind_eq_some_iff.mp hnew
        cases next with
        | inl c'' =>
          cases hc'
          exact ⟨τ, name, _, hgoes.call_self rfl, hlock⟩
        | inr => cases hc'
      · obtain ⟨τ', n, c', hcall', hlock⟩ := hs.held k hold
        have hne : τ' ≠ τ := by
          rintro rfl
          rw [hcall] at hcall'
          cases hcall'
          exact hother hlock
        exact ⟨τ', n, c', (hgoes.call_other hne).trans hcall', hlock⟩
    · rw [hlocks]
      rcases hgoes.call_cases hcall' with ⟨_, _, hnext⟩ | ⟨_, hold⟩
      · exact hwaits k hnext
      · exact (hs.waits τ' n k hold).trans_le hgrows

theorem locking_of_run {cfg : Configuration} {ls : List (Label Y)} {s : Server Y}
    (hrun : Lts.exec (Server.step cfg) (build Y) ls = some s) : s.Locking := by
  refine Lts.exec_invariant (fun u l v hstep (hu : u.Locking) => hu.step hstep) hrun
    ⟨fun l hl => ?_, nofun, fun τ name l hcall => ?_⟩
  · cases hl
  · cases τ <;> cases hcall

/-! ## Whoever waits, waits for somebody who can go on -/

/-- Some step that goes on with what was begun is enabled. -/
def Busy (cfg : Configuration) (s : Server Y) : Prop :=
  ∃ l, l.continues s = true ∧ Server.step cfg s l ≠ none

theorem actor_busy {cfg : Configuration} {s : Server Y} {j : Nat} {a : Spawned Y}
    (ha : s.actors[j]? = some a) (hpaced : a.Paced)
    (hleft : ¬ (a.pending = [] ∧
      (a.actor.phase = .select ∨ a.actor.phase = .stopped ∧ a.gone = true))) : s.Busy cfg := by
  obtain ⟨⟨w, phase⟩, mailbox, batch, acked, gone⟩ := a
  cases batch with
  | cons cmd rest =>
    obtain ⟨n, hn, _⟩ := hpaced.room cmd rest rfl
    have hn : phase.next = some n := hn
    refine ⟨.command j {}, rfl, ?_⟩
    rw [Server.step, ha]
    simp only [Actor.step, hn]
    exact Option.some_ne_none _
  | nil =>
    cases phase with
    | batch n =>
      refine ⟨.actor j (.flush []), rfl, ?_⟩
      rw [Server.step, ha]
      exact Option.some_ne_none _
    | exiting =>
      refine ⟨.actor j (.flush []), rfl, ?_⟩
      rw [Server.step, ha]
      exact Option.some_ne_none _
    | select =>
      have hmail : mailbox ≠ [] := by
        rintro rfl
        exact hleft ⟨rfl, Or.inl rfl⟩
      have hthere : gone = false := by
        cases gone with
        | false => rfl
        | true => exact absurd (hpaced.gone rfl).1 hmail
      subst hthere
      refine ⟨.recv j, rfl, ?_⟩
      rw [Server.step, ha]
      dsimp only
      rw [if_pos ⟨rfl, hmail⟩]
      exact Option.some_ne_none _
    | stopped =>
      have hthere : gone = false := by
        cases gone with
        | false => rfl
        | true =>
          have hmail : mailbox = [] := (hpaced.gone rfl).1
          subst hmail
          exact absurd ⟨rfl, Or.inr ⟨rfl, rfl⟩⟩ hleft
      refine ⟨.drop j, ?_, ?_⟩
      · rw [Label.continues, ha, Option.any_some, hthere]
        rfl
      · rw [Server.step, ha]
        exact Option.some_ne_none _

/-- A call that is not kept waiting can go on. -/
theorem documentStep_enabled (s : Server Y) (name : String) (doc : Y.Doc) (queues : Queues)
    {c : DocumentCall} (hfree : ∀ l, c = .wait l → s.locks[l]? = some false) :
    ∃ r, s.documentStep name doc queues c = some r := by
  cases c with
  | lookup | miss | check l =>
    rw [Server.documentStep]
    split <;> exact ⟨_, rfl⟩
  | wait l =>
    rw [Server.documentStep, if_pos (hfree l rfl)]
    exact ⟨_, rfl⟩
  | spawn | insert | forget => exact ⟨_, rfl⟩

theorem call_free {cfg : Configuration} {s : Server Y} {τ : Task} {name : String} {c : DocumentCall}
    (hcall : s.call τ = some (name, c)) (hfree : ∀ l, c = .wait l → s.locks[l]? = some false) :
    s.Busy cfg := by
  let queues : Queues := fun _ => Channel.fresh 0
  obtain ⟨⟨u, next⟩, hstep⟩ := documentStep_enabled s name Y.newDoc queues hfree
  cases τ with
  | inl i =>
    obtain ⟨⟨client, task, trace⟩, hsock, hcall⟩ := Option.bind_eq_some_iff.mp hcall
    obtain ⟨r, htask, hstage, rfl⟩ := Socket.call_spec hcall
    cases htask
    refine ⟨.register i Y.newDoc queues, rfl, ?_⟩
    rw [Server.step, hsock]
    dsimp only
    rw [Server.registerStep, hstage]
    dsimp only
    rw [hstep]
    exact Option.some_ne_none _
  | inr k =>
    obtain ⟨e, he, hcall⟩ := Option.bind_eq_some_iff.mp hcall
    obtain ⟨hreturned, hstage, rfl⟩ := DirectApply.call_spec hcall
    refine ⟨.direct k Y.newDoc queues, rfl, ?_⟩
    rw [Server.step, he]
    dsimp only
    rw [Server.directStep, hreturned, hstage]
    dsimp only
    rw [hstep]
    exact Option.some_ne_none _

/-- Where a call waits for a lock, the lock is free, or its holder goes on. -/
theorem call_busy {cfg : Configuration} {s : Server Y} (hs : s.Locking) {τ : Task} {name : String}
    {c : DocumentCall} (hcall : s.call τ = some (name, c)) : s.Busy cfg := by
  by_cases hfree : ∀ l, c = .wait l → s.locks[l]? = some false
  · exact call_free hcall hfree
  · obtain ⟨l, hl⟩ := not_forall.mp hfree
    obtain ⟨rfl, htaken⟩ := Classical.not_imp.mp hl
    have hlt := hs.waits τ name l hcall
    have htrue : s.locks[l]? = some true := by
      rw [List.getElem?_eq_getElem hlt] at htaken ⊢
      cases hlock : s.locks[l] with
      | true => rfl
      | false => exact absurd (congrArg some hlock) htaken
    obtain ⟨τ', name', c', hcall', hlock⟩ := hs.held l htrue
    refine call_free hcall' fun k heq => ?_
    subst heq
    cases hlock

/-- Where a task waits for an `ack`, it is there or lost, or an actor goes on. -/
theorem await_busy {cfg : Configuration} {s : Server Y} (j ack : Nat)
    (hactors : ∀ (j : Nat) (a : Spawned Y), s.actors[j]? = some a → a.pending ≠ [] → s.Busy cfg)
    (hgoes : ∀ acked, s.awaited j ack = some acked → s.Busy cfg) : s.Busy cfg := by
  cases hawaited : s.awaited j ack with
  | some acked => exact hgoes acked hawaited
  | none =>
    unfold Server.awaited at hawaited
    split at hawaited
    next => cases hawaited
    next a ha =>
      split at hawaited
      next => cases hawaited
      next =>
        split at hawaited
        next hwaits =>
          refine hactors j a ha fun hempty => ?_
          have hempty : a.batch ++ a.mailbox = [] := hempty
          rw [hempty] at hwaits
          cases hwaits
        next => cases hawaited

theorem registering_busy {cfg : Configuration} {s : Server Y} (hs : s.Locking)
    (hactors : ∀ (j : Nat) (a : Spawned Y), s.actors[j]? = some a → a.pending ≠ [] → s.Busy cfg)
    {i : Nat} {sock : Socket} {r : Registration} (hsock : s.sockets[i]? = some sock)
    (htask : sock.task = .registering r) : s.Busy cfg := by
  let queues : Queues := fun _ => Channel.fresh 0
  cases hstage : r.stage with
  | document c =>
    have hcall : s.call (.inl i) = some (r.request.documentName, c) := by
      rw [call, hsock]
      exact call_registering htask hstage
    exact call_busy hs hcall
  | send h =>
    obtain ⟨client, task, trace⟩ := sock
    cases htask
    refine ⟨.register i Y.newDoc queues, rfl, ?_⟩
    rw [Server.step, hsock]
    dsimp only
    rw [Server.registerStep, hstage]
    dsimp only
    split <;> exact Option.some_ne_none _
  | await h ack =>
    obtain ⟨client, task, trace⟩ := sock
    cases htask
    refine await_busy h ack hactors fun acked hacked => ?_
    refine ⟨.register i Y.newDoc queues, rfl, ?_⟩
    rw [Server.step, hsock]
    dsimp only
    rw [Server.registerStep, hstage]
    dsimp only
    rw [hacked]
    cases acked <;> exact Option.some_ne_none _

theorem socket_busy {cfg : Configuration} {s : Server Y} (hs : s.Locking)
    (hactors : ∀ (j : Nat) (a : Spawned Y), s.actors[j]? = some a → a.pending ≠ [] → s.Busy cfg)
    {i : Nat} {sock : Socket} (hsock : s.sockets[i]? = some sock)
    (hbusy : ¬ (sock.task = .reading ∨ sock.task = .ended)) : s.Busy cfg := by
  cases htask : sock.task with
  | reading => exact absurd (Or.inl htask) hbusy
  | ended => exact absurd (Or.inr htask) hbusy
  | registering r => exact registering_busy hs hactors hsock htask
  | connecting request =>
    obtain ⟨client, task, trace⟩ := sock
    cases htask
    refine ⟨.connected i [], rfl, ?_⟩
    rw [Server.step, hsock]
    exact Option.some_ne_none _
  | authenticating request =>
    obtain ⟨client, task, trace⟩ := sock
    cases htask
    refine ⟨.authenticated i [] false, rfl, ?_⟩
    rw [Server.step, hsock]
    exact Option.some_ne_none _
  | cleaning =>
    obtain ⟨client, task, trace⟩ := sock
    cases htask
    cases hempty : client.established.isEmpty with
    | true =>
      refine ⟨.clean i, rfl, ?_⟩
      rw [Server.step, hsock]
      dsimp only
      rw [if_pos hempty]
      exact Option.some_ne_none _
    | false =>
      -- an entry is left to be drained
      have hsome : ∃ key, client.established.get? key ≠ none := by
        by_contra hnone
        have hall : client.established.isEmpty = true :=
          Keyed.isEmpty_iff.mpr fun key => Classical.not_not.mp (not_exists.mp hnone key)
        rw [hempty] at hall
        cases hall
      obtain ⟨key, hkey⟩ := hsome
      obtain ⟨est, hest⟩ := Option.ne_none_iff_exists'.mp hkey
      refine ⟨.leave i key, rfl, ?_⟩
      rw [Server.step, hsock]
      dsimp only
      rw [hest]
      exact Option.some_ne_none _

theorem edit_busy {cfg : Configuration} {s : Server Y} (hs : s.Locking)
    (hactors : ∀ (j : Nat) (a : Spawned Y), s.actors[j]? = some a → a.pending ≠ [] → s.Busy cfg)
    {k : Nat} {e : DirectApply} (he : s.edits[k]? = some e) (hreturned : e.returned = none) :
    s.Busy cfg := by
  let queues : Queues := fun _ => Channel.fresh 0
  cases hstage : e.stage with
  | document c =>
    have hcall : s.call (.inr k) = some (e.name, c) := by
      rw [call, he]
      exact edit_call hreturned hstage
    exact call_busy hs hcall
  | send h =>
    refine ⟨.direct k Y.newDoc queues, rfl, ?_⟩
    rw [Server.step, he]
    dsimp only
    rw [Server.directStep, hreturned, hstage]
    exact Option.some_ne_none _
  | await h ack =>
    refine await_busy h ack hactors fun acked hacked => ?_
    refine ⟨.direct k Y.newDoc queues, rfl, ?_⟩
    rw [Server.step, he]
    dsimp only
    rw [Server.directStep, hreturned, hstage]
    dsimp only
    rw [hacked]
    exact Option.some_ne_none _

/-- Where nothing goes on, nobody waits. -/
theorem atRest_of_rests {cfg : Configuration} {s : Server Y} (hlocking : s.Locking)
    (hpaced : ∀ (j : Nat) (a : Spawned Y), s.actors[j]? = some a → a.Paced)
    (hrests : Lts.Rests (Server.step cfg) (fun s l => l.continues s = true) s) : s.AtRest := by
  have hidle : ¬ s.Busy cfg := fun ⟨l, hcontinues, hstep⟩ => hstep (hrests l hcontinues)
  have hactors : ∀ (j : Nat) (a : Spawned Y), s.actors[j]? = some a → a.pending = [] ∧
      (a.actor.phase = .select ∨ a.actor.phase = .stopped ∧ a.gone = true) := by
    intro j a ha
    by_contra hleft
    exact hidle (actor_busy ha (hpaced j a ha) hleft)
  have hmail : ∀ (j : Nat) (a : Spawned Y), s.actors[j]? = some a → a.pending ≠ [] → s.Busy cfg :=
    fun j a ha hpending => absurd (hactors j a ha).1 hpending
  refine ⟨fun i sock hsock => ?_, fun k e he => ?_, hactors⟩
  · by_contra hbusy
    exact hidle (socket_busy hlocking hmail hsock hbusy)
  · cases hreturned : e.returned with
    | some => rfl
    | none => exact absurd (edit_busy hlocking hmail he hreturned) hidle

end Server

/-- **No deadlock and no livelock.** From every state the server reaches, a run of
steps that go on with what was begun is no longer than `work`, in whatever order
the tasks take them. Where such a run cannot be continued every call and every
registration is over and every command was handled; and there is such a run. -/
theorem comes_to_rest {cfg : Configuration} {ls : List (Server.Label Y)} {s : Server Y}
    (hrun : Lts.exec (Server.step cfg) (Server.build Y) ls = some s) :
    (∀ more t, Lts.Along (Server.step cfg) (fun s l _ => l.continues s = true) s more →
      Lts.exec (Server.step cfg) s more = some t → more.length ≤ s.work ∧
        ((∀ l, l.continues t = true → Server.step cfg t l = none) → t.AtRest)) ∧
    ∃ more t, Lts.Along (Server.step cfg) (fun s l _ => l.continues s = true) s more ∧
      Lts.exec (Server.step cfg) s more = some t ∧ t.AtRest := by
  have hspends := Server.spends_work (Y := Y) cfg
  have hends : ∀ more t, Lts.exec (Server.step cfg) s more = some t →
      Lts.Rests (Server.step cfg) (fun s l => l.continues s = true) t → t.AtRest := by
    intro more t hmore hrests
    have hwhole := Lts.exec_append.mpr ⟨s, hrun, hmore⟩
    exact Server.atRest_of_rests (Server.locking_of_run hwhole)
      (fun j a ha => Server.paced_of_run hwhole ha) hrests
  refine ⟨fun more t halong hmore => ⟨?_, fun hrests => hends more t hmore hrests⟩, ?_⟩
  · exact le_of_add_le_left (hspends.length_le halong hmore)
  · obtain ⟨more, t, halong, hmore, hrests⟩ := hspends.rests s
    exact ⟨more, t, halong, hmore, hends more t hmore hrests⟩

/-- A socket loads a document, another waits for its lock, and a call of
`direct_apply` has begun. -/
def contended : List (Server.Label OneWriter.yrs) :=
  [.connect 0, .connect 0, .apply "doc" (OneWriter.edit 0)] ++ OneWriter.authenticates 0 "doc" ++
    OneWriter.registers 0 4 ++ OneWriter.authenticates 1 "doc" ++ OneWriter.registers 1 2

theorem comes_to_rest_contended : (OneWriter.serve {} contended).locks = [true] ∧
    ∃ more t, Lts.Along (Server.step {}) (fun s l _ => l.continues s = true)
        (OneWriter.serve {} contended) more ∧
      Lts.exec (Server.step {}) (OneWriter.serve {} contended) more = some t ∧ t.AtRest :=
  ⟨by decide +kernel, (comes_to_rest (Lts.exec_reach (by decide +kernel))).2⟩

end Hocuspocus
