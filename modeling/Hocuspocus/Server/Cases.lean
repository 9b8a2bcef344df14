import Hocuspocus.Server.State

/-!
# The branches of a step

`Server.step` and the three functions under it (`documentStep`, `registerStep`,
`directStep`) branch on what they find. The inductions here have one constructor
for each branch that succeeds, with what was found and the state it leads to;
every proof about a step of the server starts with `cases Server.step_cases h`.
-/

namespace Hocuspocus

variable {Y : Yrs}

theorem AuthRequest.parse_name {rawKey : String} {data : Bytes} {request : AuthRequest}
    (h : AuthRequest.parse Y rawKey data = some request) :
    request.key = rawKey ∧ request.documentName = (parseRoutingKey rawKey).1 := by
  unfold AuthRequest.parse at h
  split at h
  · cases h
  · split at h
    · cases h
    · split at h
      · cases h
      · cases h
        exact ⟨rfl, rfl⟩

/-- A frame has come in. -/
def Socket.heard (sock : Socket) (now : Nat) : Socket :=
  { sock with client := { sock.client with lastMessageAt := now } }

/-- The branches of `handle_frame`, and of `authenticate` up to the hooks. -/
inductive Socket.FrameCases (Y : Yrs) (cfg : Configuration) (now : Nat) (sock : Socket)
    (data : Bytes) : Socket × List (Nat × DocCommand) → Prop
  | short (hlength : data.length = 1) : FrameCases Y cfg now sock data (sock.heard now, [])
  | garbled (hlength : data.length ≠ 1) (hparse : IncomingFrame.parse Y data = none) :
    FrameCases Y cfg now sock data (sock.heard now, [])
  | passes (frame : IncomingFrame) (est : Established) (hlength : data.length ≠ 1)
    (hparse : IncomingFrame.parse Y data = some frame)
    (hest : sock.client.established.get? frame.routingKey = some est) :
    FrameCases Y cfg now sock data
      ((sock.heard now).tell est.doc (.clientFrame est.connId data))
  | asks (frame : IncomingFrame) (request : AuthRequest) (hlength : data.length ≠ 1)
    (hparse : IncomingFrame.parse Y data = some frame)
    (hnone : sock.client.established.get? frame.routingKey = none)
    (hty : frame.messageType = .auth)
    (hrequest : AuthRequest.parse Y frame.routingKey data = some request) :
    FrameCases Y cfg now sock data ({ sock.heard now with task := .connecting request }, [])
  | unread (frame : IncomingFrame) (hlength : data.length ≠ 1)
    (hparse : IncomingFrame.parse Y data = some frame)
    (hnone : sock.client.established.get? frame.routingKey = none)
    (hty : frame.messageType = .auth)
    (hrequest : AuthRequest.parse Y frame.routingKey data = none) :
    FrameCases Y cfg now sock data (sock.heard now, [])
  | waits (frame : IncomingFrame) (hlength : data.length ≠ 1)
    (hparse : IncomingFrame.parse Y data = some frame)
    (hnone : sock.client.established.get? frame.routingKey = none)
    (hty : frame.messageType ≠ .auth) :
    FrameCases Y cfg now sock data ((sock.heard now).enqueue cfg frame.routingKey data, [])

theorem Socket.handleFrame_cases (Y : Yrs) (cfg : Configuration) (now : Nat) (sock : Socket)
    (data : Bytes) : FrameCases Y cfg now sock data (sock.handleFrame Y cfg now data) := by
  unfold handleFrame
  dsimp only
  split
  next hlength => exact .short hlength
  next hlength =>
    split
    next hparse => exact .garbled hlength hparse
    next frame hparse =>
      split
      next est hest => exact .passes frame est hlength hparse hest
      next hnone =>
        split
        next hty =>
          unfold authenticate
          split
          next hrequest => exact .unread frame hlength hparse hnone hty hrequest
          next request hrequest => exact .asks frame request hlength hparse hnone hty hrequest
        next hty => exact .waits frame hlength hparse hnone hty

/-- A frame that is queued, or not, changes the queue and says at most that it
was not. -/
theorem Socket.enqueue_steady (cfg : Configuration) (sock : Socket) (rawKey : String)
    (data : Bytes) :
    (sock.enqueue cfg rawKey data).client.established = sock.client.established ∧
    (sock.enqueue cfg rawKey data).task = sock.task := by
  unfold enqueue
  dsimp only
  split
  · exact ⟨rfl, rfl⟩
  · split <;> exact ⟨rfl, rfl⟩

namespace Server

/-- A command that is sent changes the actors only. -/
theorem send_eq (s : Server Y) (j : Nat) (cmd : DocCommand) :
    (s.send j cmd).1 = { s with actors := (s.send j cmd).1.actors } := by
  unfold Server.send
  split
  next => rfl
  next => split <;> rfl

theorem sendAll_eq (cmds : List (Nat × DocCommand)) (s : Server Y) :
    s.sendAll cmds = { s with actors := (s.sendAll cmds).actors } := by
  unfold Server.sendAll
  induction cmds generalizing s with
  | nil => rfl
  | cons c cmds ih =>
    rw [List.foldl_cons, ih (s.send c.1 c.2).1, send_eq s c.1 c.2]

/-- The branches of `ServerShared::document`. -/
inductive DocumentCases (s : Server Y) (name : String) (doc : Y.Doc) (queues : Queues) :
    DocumentCall → Server Y → DocumentCall ⊕ Nat → Prop
  | found (h : Nat) (hdoc : s.documents name = some h) :
    DocumentCases s name doc queues .lookup s (.inr h)
  | missing (hdoc : s.documents name = none) :
    DocumentCases s name doc queues .lookup s (.inl .miss)
  | joins (l : Nat) (hlock : s.creating name = some l) :
    DocumentCases s name doc queues .miss s (.inl (.wait l))
  | creates (hlock : s.creating name = none) :
    DocumentCases s name doc queues .miss
      { s with
        creating := Function.update s.creating name (some s.locks.length)
        locks := s.locks ++ [false] } (.inl (.wait s.locks.length))
  | locks (l : Nat) (hfree : s.locks[l]? = some false) :
    DocumentCases s name doc queues (.wait l) { s with locks := s.locks.set l true }
      (.inl (.check l))
  | late (l h : Nat) (hdoc : s.documents name = some h) :
    DocumentCases s name doc queues (.check l) (s.unlock l) (.inr h)
  | loads (l : Nat) (hdoc : s.documents name = none) :
    DocumentCases s name doc queues (.check l) s (.inl (.spawn l))
  | spawns (l : Nat) :
    DocumentCases s name doc queues (.spawn l)
      { s with actors := s.actors ++ [⟨Actor.spawn name doc queues, [], [], [], false⟩] }
      (.inl (.insert l s.actors.length))
  | inserts (l h : Nat) :
    DocumentCases s name doc queues (.insert l h)
      { s with documents := Function.update s.documents name (some h) } (.inl (.forget l h))
  | forgets (l h : Nat) :
    DocumentCases s name doc queues (.forget l h)
      ({ s with creating := Function.update s.creating name none }.unlock l) (.inr h)

theorem documentStep_cases {s t : Server Y} {name : String} {doc : Y.Doc} {queues : Queues}
    {call : DocumentCall} {r : DocumentCall ⊕ Nat}
    (h : s.documentStep name doc queues call = some (t, r)) :
    DocumentCases s name doc queues call t r := by
  cases call with
  | lookup =>
    rw [Server.documentStep] at h
    split at h
    next k hk =>
      cases h
      exact .found k hk
    next hnone =>
      cases h
      exact .missing hnone
  | miss =>
    rw [Server.documentStep] at h
    split at h
    next l hl =>
      cases h
      exact .joins l hl
    next hnone =>
      cases h
      exact .creates hnone
  | wait l =>
    rw [Server.documentStep] at h
    split at h
    next hfree =>
      cases h
      exact .locks l hfree
    next => cases h
  | check l =>
    rw [Server.documentStep] at h
    split at h
    next k hk =>
      cases h
      exact .late l k hk
    next hnone =>
      cases h
      exact .loads l hnone
  | spawn l =>
    cases h
    exact .spawns l
  | insert l k =>
    cases h
    exact .inserts l k
  | forget l k =>
    cases h
    exact .forgets l k

/-- The `AddConnection` of a registration, sent to an actor. -/
def introduce (s : Server Y) (i : Nat) (sock : Socket) (r : Registration) (h : Nat) :
    Server Y × Bool :=
  { s with nextAck := s.nextAck + 1 }.send h (.addConnection (sock.connHandle i r) s.nextAck)

/-- The socket when it has sent it. -/
def introduced (s : Server Y) (i : Nat) (sock : Socket) (r : Registration) (h : Nat) : Socket :=
  sock.emit (.command h (.addConnection (sock.connHandle i r) s.nextAck))

/-- The branches of `register_connection`. -/
inductive RegisterCases (s : Server Y) (i : Nat) (sock : Socket) (r : Registration) (doc : Y.Doc)
    (queues : Queues) : Server Y → Prop
  | calls (call next : DocumentCall) (u : Server Y) (hstage : r.stage = .document call)
    (hcall : s.documentStep r.request.documentName doc queues call = some (u, .inl next)) :
    RegisterCases s i sock r doc queues
      (u.setSocket i { sock with task := .registering { r with stage := .document next } })
  | finds (call : DocumentCall) (h : Nat) (u : Server Y) (hstage : r.stage = .document call)
    (hcall : s.documentStep r.request.documentName doc queues call = some (u, .inr h)) :
    RegisterCases s i sock r doc queues
      (u.setSocket i { sock with task := .registering { r with stage := .send h } })
  | sends (h : Nat) (hstage : r.stage = .send h) (hsent : (s.introduce i sock r h).2 = true) :
    RegisterCases s i sock r doc queues
      ((s.introduce i sock r h).1.setSocket i { s.introduced i sock r h with
        task := .registering { r with stage := .await h s.nextAck } })
  | refused (h : Nat) (hstage : r.stage = .send h) (hsent : ¬ (s.introduce i sock r h).2 = true) :
    RegisterCases s i sock r doc queues
      (((s.introduce i sock r h).1.removeDocument r.request.documentName).setSocket i
        ((s.introduced i sock r h).failed r))
  | acked (h ack : Nat) (hstage : r.stage = .await h ack) (hacked : s.awaited h ack = some true) :
    RegisterCases s i sock r doc queues
      ((s.setSocket i (sock.register r h).1).sendAll (sock.register r h).2)
  | lost (h ack : Nat) (hstage : r.stage = .await h ack) (hlost : s.awaited h ack = some false) :
    RegisterCases s i sock r doc queues
      ((s.removeDocument r.request.documentName).setSocket i (sock.failed r))

theorem registerStep_cases {s t : Server Y} {i : Nat} {sock : Socket} {r : Registration}
    {doc : Y.Doc} {queues : Queues} (h : s.registerStep i sock r doc queues = some t) :
    RegisterCases s i sock r doc queues t := by
  unfold Server.registerStep at h
  split at h
  next call hstage =>
    obtain ⟨⟨u, next⟩, hcall, h⟩ := Option.map_eq_some_iff.mp h
    cases next with
    | inl call' =>
      subst h
      exact .calls call call' u hstage hcall
    | inr handle =>
      subst h
      exact .finds call handle u hstage hcall
  next handle hstage =>
    dsimp only at h
    split at h
    next hsent =>
      cases h
      exact .sends handle hstage hsent
    next hsent =>
      cases h
      exact .refused handle hstage hsent
  next handle ack hstage =>
    split at h
    next => cases h
    next hacked =>
      cases h
      exact .acked handle ack hstage hacked
    next hlost =>
      cases h
      exact .lost handle ack hstage hlost

/-- The branches of `direct_apply`. -/
inductive DirectCases (s : Server Y) (k : Nat) (e : DirectApply) (doc : Y.Doc) (queues : Queues) :
    Server Y → Prop
  | calls (call next : DocumentCall) (u : Server Y) (hreturned : e.returned = none)
    (hstage : e.stage = .document call)
    (hcall : s.documentStep e.name doc queues call = some (u, .inl next)) :
    DirectCases s k e doc queues
      { u with edits := u.edits.set k { e with stage := .document next } }
  | finds (call : DocumentCall) (h : Nat) (u : Server Y) (hreturned : e.returned = none)
    (hstage : e.stage = .document call)
    (hcall : s.documentStep e.name doc queues call = some (u, .inr h)) :
    DirectCases s k e doc queues { u with edits := u.edits.set k { e with stage := .send h } }
  | sends (h : Nat) (sent : Server Y × Bool) (hreturned : e.returned = none)
    (hstage : e.stage = .send h)
    (hsent : sent = { s with nextAck := s.nextAck + 1 }.send h (.directApply e.update s.nextAck)) :
    DirectCases s k e doc queues
      { sent.1 with
        edits := sent.1.edits.set k (if sent.2 then { e with stage := .await h s.nextAck }
          else { e with returned := some false }) }
  | answered (h ack : Nat) (acked : Bool) (hreturned : e.returned = none)
    (hstage : e.stage = .await h ack) (hacked : s.awaited h ack = some acked) :
    DirectCases s k e doc queues { s with edits := s.edits.set k { e with returned := some true } }

theorem directStep_cases {s t : Server Y} {k : Nat} {e : DirectApply} {doc : Y.Doc}
    {queues : Queues} (h : s.directStep k e doc queues = some t) :
    DirectCases s k e doc queues t := by
  unfold Server.directStep at h
  split at h
  next => cases h
  next call hreturned hstage =>
    obtain ⟨⟨u, next⟩, hcall, h⟩ := Option.map_eq_some_iff.mp h
    cases next with
    | inl call' =>
      subst h
      exact .calls call call' u hreturned hstage hcall
    | inr handle =>
      subst h
      exact .finds call handle u hreturned hstage hcall
  next handle hreturned hstage =>
    cases h
    exact .sends handle _ hreturned hstage rfl
  next handle ack hreturned hstage =>
    obtain ⟨acked, hacked, rfl⟩ := Option.map_eq_some_iff.mp h
    exact .answered handle ack acked hreturned hstage hacked

/-- The actor has unloaded, or not. -/
def unloading (s : Server Y) (unloaded : Bool) (name : String) : Server Y :=
  if unloaded then s.removeDocument name else s

theorem unloading_parts (s : Server Y) (unloaded : Bool) (name : String) :
    (s.unloading unloaded name).actors = s.actors ∧
    (s.unloading unloaded name).sockets = s.sockets ∧
    (s.unloading unloaded name).edits = s.edits := by
  cases unloaded <;> exact ⟨rfl, rfl, rfl⟩

/-- The branches of a step. -/
inductive StepCases (cfg : Configuration) (s : Server Y) : Label Y → Server Y → Prop
  | connect (now : Nat) : StepCases cfg s (.connect now)
      { s with sockets := s.sockets ++
        [⟨.new ("ws-" ++ toString (s.sockets.length + 1)) now, .reading, []⟩] }
  | receive (i : Nat) (data : Bytes) (now : Nat) (sock : Socket)
    (hsock : s.sockets[i]? = some sock) (htask : sock.task = .reading) :
    StepCases cfg s (.receive i data now)
      ((s.setSocket i (sock.handleFrame Y cfg now data).1).sendAll
        (sock.handleFrame Y cfg now data).2)
  | hangup (i : Nat) (sock : Socket) (hsock : s.sockets[i]? = some sock)
    (htask : sock.task = .reading) :
    StepCases cfg s (.hangup i) (s.setSocket i { sock with task := .cleaning })
  | timeout (i now : Nat) (sock : Socket) (hsock : s.sockets[i]? = some sock)
    (htask : sock.task = .reading) (hdeadline : sock.client.idleDeadline cfg ≤ now) :
    StepCases cfg s (.timeout i now)
      (s.setSocket i (Socket.terminate { sock with task := .cleaning } connectionTimeout))
  | connected (i : Nat) (results : List HookResult) (sock : Socket) (request : AuthRequest)
    (hsock : s.sockets[i]? = some sock) (htask : sock.task = .connecting request) :
    StepCases cfg s (.connected i results) (s.setSocket i (sock.connected Y request results))
  | authenticated (i : Nat) (results : List HookResult) (readOnly : Bool) (sock : Socket)
    (request : AuthRequest) (hsock : s.sockets[i]? = some sock)
    (htask : sock.task = .authenticating request) :
    StepCases cfg s (.authenticated i results readOnly)
      ({ s with nextConnId := s.connIdAfter results }.setSocket i
        (sock.authenticated Y request results readOnly s.nextConnId))
  | register (i : Nat) (doc : Y.Doc) (queues : Queues) (sock : Socket) (r : Registration)
    (t : Server Y) (hsock : s.sockets[i]? = some sock) (htask : sock.task = .registering r)
    (h : s.registerStep i sock r doc queues = some t) : StepCases cfg s (.register i doc queues) t
  | leave (i : Nat) (key : String) (sock : Socket) (est : Established)
    (hsock : s.sockets[i]? = some sock) (htask : sock.task = .cleaning)
    (hest : sock.client.established.get? key = some est) :
    StepCases cfg s (.leave i key)
      ((s.setSocket i (sock.leave est).1).sendAll (sock.leave est).2)
  | clean (i : Nat) (sock : Socket) (hsock : s.sockets[i]? = some sock)
    (htask : sock.task = .cleaning) (hempty : sock.client.established.isEmpty = true) :
    StepCases cfg s (.clean i) (s.setSocket i { sock with task := .ended })
  | apply (name : String) (update : Bytes) : StepCases cfg s (.apply name update)
      { s with edits := s.edits ++ [⟨name, update, .document .lookup, none⟩] }
  | direct (k : Nat) (doc : Y.Doc) (queues : Queues) (e : DirectApply) (t : Server Y)
    (he : s.edits[k]? = some e) (h : s.directStep k e doc queues = some t) :
    StepCases cfg s (.direct k doc queues) t
  | external (name : String) (data : Bytes) (j : Nat) (hdoc : s.documents name = some j) :
    StepCases cfg s (.external name data) (s.send j (.externalFrame data true)).1
  | unknown (name : String) (data : Bytes) (hdoc : s.documents name = none) :
    StepCases cfg s (.external name data) s
  | recv (j : Nat) (a : Spawned Y) (ha : s.actors[j]? = some a) (hbatch : a.batch = [])
    (hgone : a.gone = false) (hphase : a.actor.phase = .select) (hmail : a.mailbox ≠ []) :
    StepCases cfg s (.recv j) (s.setActor j { a with
      mailbox := a.mailbox.drop maxCoalesceBatch, batch := a.mailbox.take maxCoalesceBatch })
  | command (j : Nat) (o : Ambient) (a : Spawned Y) (cmd : DocCommand) (batch : List DocCommand)
    (b : Actor Y) (ha : s.actors[j]? = some a) (hbatch : a.batch = cmd :: batch)
    (hstep : a.actor.step cfg (.command cmd o) = some b) :
    StepCases cfg s (.command j o)
      ((s.setActor j ⟨b, a.mailbox, if b.unloadedBy (.command cmd o) then [] else batch,
        cmd.ack?.elim a.acked fun ack => a.acked ++ [ack], a.gone⟩).unloading
          (b.unloadedBy (.command cmd o)) b.world.name)
  | actor (j : Nat) (l : Hocuspocus.Label) (a : Spawned Y) (b : Actor Y)
    (ha : s.actors[j]? = some a) (hplain : ∀ cmd o, l ≠ .command cmd o)
    (hclosed : l = .mailboxClosed →
      a.batch = [] ∧ a.mailbox = [] ∧ s.hasSender j a = false)
    (hstep : a.actor.step cfg l = some b) :
    StepCases cfg s (.actor j l)
      ((s.setActor j { a with actor := b }).unloading (b.unloadedBy l) b.world.name)
  | drop (j : Nat) (a : Spawned Y) (ha : s.actors[j]? = some a)
    (hstopped : a.actor.phase = .stopped) :
    StepCases cfg s (.drop j) (s.setActor j { a with mailbox := [], gone := true })

theorem actorStep_cases {cfg : Configuration} {s t : Server Y} {j : Nat} {a : Spawned Y}
    {l : Hocuspocus.Label} (ha : s.actors[j]? = some a) (hplain : ∀ cmd o, l ≠ .command cmd o)
    (hclosed : l = .mailboxClosed → a.batch = [] ∧ a.mailbox = [] ∧ s.hasSender j a = false)
    (h : s.actorStep cfg j a l = some t) : StepCases cfg s (.actor j l) t := by
  obtain ⟨b, hstep, rfl⟩ := Option.map_eq_some_iff.mp h
  exact .actor j l a b ha hplain hclosed hstep

/-- **Inversion of `step`.** -/
theorem step_cases {cfg : Configuration} {s t : Server Y} {l : Label Y}
    (h : Server.step cfg s l = some t) : StepCases cfg s l t := by
  cases l with
  | connect now =>
    cases h
    exact .connect now
  | receive i data now =>
    rw [Server.step] at h
    split at h
    next client trace hsock =>
      cases h
      exact .receive i data now _ hsock rfl
    next => cases h
  | hangup i =>
    rw [Server.step] at h
    split at h
    next client trace hsock =>
      cases h
      exact .hangup i _ hsock rfl
    next => cases h
  | timeout i now =>
    rw [Server.step] at h
    split at h
    next client trace hsock =>
      split at h
      next hdeadline =>
        cases h
        exact .timeout i now _ hsock rfl hdeadline
      next => cases h
    next => cases h
  | connected i results =>
    rw [Server.step] at h
    split at h
    next client request trace hsock =>
      cases h
      exact .connected i results _ request hsock rfl
    next => cases h
  | authenticated i results readOnly =>
    rw [Server.step] at h
    split at h
    next client request trace hsock =>
      cases h
      exact .authenticated i results readOnly _ request hsock rfl
    next => cases h
  | register i doc queues =>
    rw [Server.step] at h
    split at h
    next client r trace hsock => exact .register i doc queues _ r t hsock rfl h
    next => cases h
  | leave i key =>
    rw [Server.step] at h
    split at h
    next client trace hsock =>
      obtain ⟨est, hest, rfl⟩ := Option.map_eq_some_iff.mp h
      exact .leave i key _ est hsock rfl hest
    next => cases h
  | clean i =>
    rw [Server.step] at h
    split at h
    next client trace hsock =>
      split at h
      next hempty =>
        cases h
        exact .clean i _ hsock rfl hempty
      next => cases h
    next => cases h
  | apply name update =>
    cases h
    exact .apply name update
  | direct k doc queues =>
    rw [Server.step] at h
    split at h
    next e he => exact .direct k doc queues e t he h
    next => cases h
  | external name data =>
    rw [Server.step] at h
    split at h
    next j hj =>
      cases h
      exact .external name data j hj
    next hnone =>
      cases h
      exact .unknown name data hnone
  | recv j =>
    rw [Server.step] at h
    split at h
    next actor mailbox acked ha =>
      split at h
      next hready =>
        cases h
        exact .recv j _ ha rfl rfl hready.1 hready.2
      next => cases h
    next => cases h
  | command j o =>
    rw [Server.step] at h
    split at h
    next actor mailbox cmd batch acked gone ha =>
      split at h
      next => cases h
      next b hstep =>
        cases h
        exact .command j o _ cmd batch b ha rfl hstep
    next => cases h
  | actor j l =>
    rw [Server.step] at h
    split at h
    next => cases h
    next a ha =>
      cases l with
      | command cmd o => cases h
      | mailboxClosed =>
        dsimp only at h
        split at h
        next hclosed =>
          obtain ⟨hbatch, hmail, hsender⟩ := hclosed
          refine actorStep_cases ha (fun cmd o heq => by cases heq) (fun _ => ?_) h
          exact ⟨List.isEmpty_iff.mp hbatch, List.isEmpty_iff.mp hmail, by simpa using hsender⟩
        next => cases h
      | flush sched | storeResult o | deadline o =>
        dsimp only at h
        split at h
        next =>
          exact actorStep_cases ha (fun cmd o heq => by cases heq) (fun heq => by cases heq) h
        next => cases h
      | storeTask n results | queues acts =>
        exact actorStep_cases ha (fun cmd o heq => by cases heq) (fun heq => by cases heq) h
  | drop j =>
    rw [Server.step] at h
    split at h
    next a ha =>
      split at h
      next hstopped =>
        cases h
        exact .drop j a ha hstopped
      next => cases h
    next => cases h

end Server

end Hocuspocus
