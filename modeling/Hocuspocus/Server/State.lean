import Hocuspocus.Server.Connection

/-!
# The server (`ServerShared`, `server.rs`)

The registry, the locks under which documents are created, the actors with
their mailboxes, and the tasks that use them: one for each socket, and the
calls of `direct_apply`. A step is what one task does between two points where
another may come in: a lookup, the acquisition of a lock, an insertion, a send,
an `ack` that arrives. The labels choose the task; what the environment
supplies (frames, hook results, the document a load found) is in them.

An actor takes its steps by `Document/Run.lean`. `recv` is the turn of its loop
that drains the mailbox into a batch, `command` handles the first command of
the batch. An actor that unloads removes the entry of its name; what was in the
batch is dropped with it, and what is in the mailbox once the receiver is
(`drop`). An `ack` is lost when its command was dropped.
-/

namespace Hocuspocus

variable {Y : Yrs}

/-- The `ack` a command carries. -/
def DocCommand.ack? : DocCommand → Option Nat
  | .addConnection _ ack | .directApply _ ack => some ack
  | .clientFrame _ _ | .removeConnection _ | .externalFrame _ _ => none

/-- An actor with its receiver: `mailbox` was sent and not received, `batch`
was received and not handled; `acked` lists the acks it has sent. -/
structure Spawned (Y : Yrs) where
  actor : Actor Y
  mailbox : List DocCommand
  batch : List DocCommand
  acked : List Nat
  gone : Bool

/-- A call of `direct_apply`. -/
structure DirectApply where
  name : String
  update : Bytes
  stage : Stage
  returned : Option Bool

structure Server (Y : Yrs) where
  actors : List (Spawned Y)
  documents : String → Option Nat
  creating : String → Option Nat
  locks : List Bool
  nextConnId : Nat
  nextAck : Nat
  sockets : List Socket
  edits : List DirectApply

/-- The stage keeps a handle of the actor. -/
def Stage.holds (j : Nat) : Stage → Bool
  | .document (.insert _ h) | .document (.forget _ h) | .send h | .await h _ => h = j
  | .document _ => false

/-- A socket keeps one for what is established, and while it registers. -/
def Socket.holds (j : Nat) (sock : Socket) : Bool :=
  (sock.client.established.vals.any fun est => est.doc = j) ||
    match sock.task with
    | .registering r => r.stage.holds j
    | _ => false

/-- The step went through `maybe_unload` to the end: the command or the branch
asked to exit. -/
def Actor.unloadedBy (b : Actor Y) : Label → Bool
  | .command _ _ | .storeResult _ | .deadline _ => b.phase = .exiting ∨ b.phase = .stopped
  | _ => false

namespace Server

/-- `ServerBuilder::build`. -/
def build (Y : Yrs) : Server Y := ⟨[], fun _ => none, fun _ => none, [], 1, 0, [], []⟩

inductive Label (Y : Yrs)
  /-- A socket is upgraded. -/
  | connect (now : Nat)
  /-- The reader loop gets a binary message, a close or an error, or times out. -/
  | receive (i : Nat) (data : Bytes) (now : Nat)
  | hangup (i : Nat)
  | timeout (i : Nat) (now : Nat)
  /-- The hooks a socket waits for have run. -/
  | connected (i : Nat) (results : List HookResult)
  | authenticated (i : Nat) (results : List HookResult) (readOnly : Bool)
  /-- `register_connection` goes on; a load finds `doc`. -/
  | register (i : Nat) (doc : Y.Doc) (queues : Queues)
  /-- `cleanup` drains the entry of a key, or ends. -/
  | leave (i : Nat) (key : String)
  | clean (i : Nat)
  /-- `direct_apply` is called, and goes on. -/
  | apply (name : String) (update : Bytes)
  | direct (k : Nat) (doc : Y.Doc) (queues : Queues)
  /-- The Redis subscriber passes on a frame. -/
  | external (name : String) (data : Bytes)
  /-- An actor's loop. -/
  | recv (j : Nat)
  | command (j : Nat) (o : Ambient)
  | actor (j : Nat) (l : Hocuspocus.Label)
  | drop (j : Nat)

def setSocket (s : Server Y) (i : Nat) (sock : Socket) : Server Y :=
  { s with sockets := s.sockets.set i sock }

def setActor (s : Server Y) (j : Nat) (a : Spawned Y) : Server Y :=
  { s with actors := s.actors.set j a }

/-- The id counter when the `on_authenticate` hooks have run: `authenticate` takes an
id if none of them has erred. -/
def connIdAfter (s : Server Y) (results : List HookResult) : Nat :=
  if (firstError results).isSome then s.nextConnId else s.nextConnId + 1

/-- `UnboundedSender::send`: it fails when the receiver is gone. -/
def send (s : Server Y) (j : Nat) (cmd : DocCommand) : Server Y × Bool :=
  match s.actors[j]? with
  | none => (s, false)
  | some a =>
    if a.gone then (s, false)
    else (s.setActor j { a with mailbox := a.mailbox ++ [cmd] }, true)

/-- Sends whose result is ignored. -/
def sendAll (s : Server Y) (cmds : List (Nat × DocCommand)) : Server Y :=
  cmds.foldl (fun s c => (s.send c.1 c.2).1) s

def removeDocument (s : Server Y) (name : String) : Server Y :=
  { s with documents := Function.update s.documents name none }

/-- The guard of a lock is dropped. -/
def unlock (s : Server Y) (l : Nat) : Server Y := { s with locks := s.locks.set l false }

/-- `ServerShared::document`; the right side is the handle it returns. -/
def documentStep (s : Server Y) (name : String) (doc : Y.Doc) (queues : Queues) :
    DocumentCall → Option (Server Y × (DocumentCall ⊕ Nat))
  | .lookup =>
    match s.documents name with
    | some h => some (s, .inr h)
    | none => some (s, .inl .miss)
  | .miss =>
    match s.creating name with
    | some l => some (s, .inl (.wait l))
    | none =>
      some ({ s with
        creating := Function.update s.creating name (some s.locks.length)
        locks := s.locks ++ [false] }, .inl (.wait s.locks.length))
  | .wait l =>
    if s.locks[l]? = some false then some ({ s with locks := s.locks.set l true }, .inl (.check l))
    else none
  | .check l =>
    match s.documents name with
    | some h => some (s.unlock l, .inr h)
    | none => some (s, .inl (.spawn l))
  | .spawn l =>
    let spawned : Spawned Y := ⟨Actor.spawn name doc queues, [], [], [], false⟩
    some ({ s with actors := s.actors ++ [spawned] }, .inl (.insert l s.actors.length))
  | .insert l h =>
    some ({ s with documents := Function.update s.documents name (some h) }, .inl (.forget l h))
  | .forget l h =>
    some ({ s with creating := Function.update s.creating name none }.unlock l, .inr h)

/-- Whether a task that waits for the `ack` gets it; `none` while the command
is still to be handled. -/
def awaited (s : Server Y) (j ack : Nat) : Option Bool :=
  match s.actors[j]? with
  | none => some false
  | some a =>
    if ack ∈ a.acked then some true
    else if (a.batch ++ a.mailbox).any fun cmd => cmd.ack? = some ack then none
    else some false

/-- A step of `register_connection`. -/
def registerStep (s : Server Y) (i : Nat) (sock : Socket) (r : Registration) (doc : Y.Doc)
    (queues : Queues) : Option (Server Y) :=
  let name := r.request.documentName
  match r.stage with
  | .document call =>
    (s.documentStep name doc queues call).map fun
      | (s, .inl call) =>
        s.setSocket i { sock with task := .registering { r with stage := .document call } }
      | (s, .inr h) => s.setSocket i { sock with task := .registering { r with stage := .send h } }
  | .send h =>
    let cmd := DocCommand.addConnection (sock.connHandle i r) s.nextAck
    let sent := { s with nextAck := s.nextAck + 1 }.send h cmd
    let sock := sock.emit (.command h cmd)
    if sent.2 then
      some (sent.1.setSocket i
        { sock with task := .registering { r with stage := .await h s.nextAck } })
    else some ((sent.1.removeDocument name).setSocket i (sock.failed r))
  | .await h ack =>
    match s.awaited h ack with
    | none => none
    | some true =>
      let registered := sock.register r h
      some ((s.setSocket i registered.1).sendAll registered.2)
    | some false => some ((s.removeDocument name).setSocket i (sock.failed r))

/-- A step of `direct_apply`. -/
def directStep (s : Server Y) (k : Nat) (e : DirectApply) (doc : Y.Doc) (queues : Queues) :
    Option (Server Y) :=
  match e.returned, e.stage with
  | some _, _ => none
  | none, .document call =>
    (s.documentStep e.name doc queues call).map fun
      | (s, .inl call) => { s with edits := s.edits.set k { e with stage := .document call } }
      | (s, .inr h) => { s with edits := s.edits.set k { e with stage := .send h } }
  | none, .send h =>
    let sent := { s with nextAck := s.nextAck + 1 }.send h (.directApply e.update s.nextAck)
    let e := if sent.2 then { e with stage := .await h s.nextAck } else { e with returned := some false }
    some { sent.1 with edits := sent.1.edits.set k e }
  | none, .await h ack =>
    (s.awaited h ack).map fun _ => { s with edits := s.edits.set k { e with returned := some true } }

/-- A step of an actor; when it unloads, the entry of its name goes. -/
def actorStep (cfg : Configuration) (s : Server Y) (j : Nat) (a : Spawned Y)
    (l : Hocuspocus.Label) : Option (Server Y) :=
  (a.actor.step cfg l).map fun b =>
    let s := s.setActor j { a with actor := b }
    if b.unloadedBy l then s.removeDocument b.world.name else s

/-- Someone still holds a sender of the actor: the registry, where it is under
its own name, or a task. -/
def hasSender (s : Server Y) (j : Nat) (a : Spawned Y) : Bool :=
  decide (s.documents a.actor.world.name = some j) || s.sockets.any (Socket.holds j) ||
    s.edits.any fun e => e.returned.isNone && e.stage.holds j

def step (cfg : Configuration) (s : Server Y) : Label Y → Option (Server Y)
  | .connect now =>
    let socketId := "ws-" ++ toString (s.sockets.length + 1)
    some { s with sockets := s.sockets ++ [⟨.new socketId now, .reading, []⟩] }
  | .receive i data now =>
    match s.sockets[i]? with
    | some ⟨client, .reading, trace⟩ =>
      let handled := Socket.handleFrame Y cfg now ⟨client, .reading, trace⟩ data
      some ((s.setSocket i handled.1).sendAll handled.2)
    | _ => none
  | .hangup i =>
    match s.sockets[i]? with
    | some ⟨client, .reading, trace⟩ => some (s.setSocket i ⟨client, .cleaning, trace⟩)
    | _ => none
  | .timeout i now =>
    match s.sockets[i]? with
    | some ⟨client, .reading, trace⟩ =>
      if client.idleDeadline cfg ≤ now then
        some (s.setSocket i (Socket.terminate ⟨client, .cleaning, trace⟩ connectionTimeout))
      else none
    | _ => none
  | .connected i results =>
    match s.sockets[i]? with
    | some ⟨client, .connecting request, trace⟩ =>
      some (s.setSocket i (Socket.connected Y ⟨client, .connecting request, trace⟩ request results))
    | _ => none
  | .authenticated i results readOnly =>
    match s.sockets[i]? with
    | some ⟨client, .authenticating request, trace⟩ =>
      some ({ s with nextConnId := s.connIdAfter results }.setSocket i
        (Socket.authenticated Y ⟨client, .authenticating request, trace⟩ request results readOnly
          s.nextConnId))
    | _ => none
  | .register i doc queues =>
    match s.sockets[i]? with
    | some ⟨client, .registering r, trace⟩ =>
      s.registerStep i ⟨client, .registering r, trace⟩ r doc queues
    | _ => none
  | .leave i key =>
    match s.sockets[i]? with
    | some ⟨client, .cleaning, trace⟩ =>
      (client.established.get? key).map fun est =>
        let left := Socket.leave ⟨client, .cleaning, trace⟩ est
        (s.setSocket i left.1).sendAll left.2
    | _ => none
  | .clean i =>
    match s.sockets[i]? with
    | some ⟨client, .cleaning, trace⟩ =>
      if client.established.isEmpty then some (s.setSocket i ⟨client, .ended, trace⟩) else none
    | _ => none
  | .apply name update =>
    some { s with edits := s.edits ++ [⟨name, update, .document .lookup, none⟩] }
  | .direct k doc queues =>
    match s.edits[k]? with
    | some e => s.directStep k e doc queues
    | none => none
  | .external name data =>
    match s.documents name with
    | some j => some (s.send j (.externalFrame data true)).1
    | none => some s
  | .recv j =>
    match s.actors[j]? with
    | some ⟨actor, mailbox, [], acked, false⟩ =>
      if actor.phase = .select ∧ mailbox ≠ [] then
        some (s.setActor j
          ⟨actor, mailbox.drop maxCoalesceBatch, mailbox.take maxCoalesceBatch, acked, false⟩)
      else none
    | _ => none
  | .command j o =>
    match s.actors[j]? with
    | some ⟨actor, mailbox, cmd :: batch, acked, gone⟩ =>
      match actor.step cfg (.command cmd o) with
      | none => none
      | some b =>
        let exit := b.unloadedBy (.command cmd o)
        let s := s.setActor j ⟨b, mailbox, if exit then [] else batch,
          cmd.ack?.elim acked fun ack => acked ++ [ack], gone⟩
        some (if exit then s.removeDocument b.world.name else s)
    | _ => none
  | .actor j l =>
    match s.actors[j]? with
    | none => none
    | some a =>
      match l with
      | .command _ _ => none
      | .flush _ | .storeResult _ | .deadline _ =>
        if a.batch.isEmpty then s.actorStep cfg j a l else none
      | .mailboxClosed =>
        if a.batch.isEmpty ∧ a.mailbox.isEmpty ∧ !s.hasSender j a then s.actorStep cfg j a l else none
      | .storeTask _ _ | .queues _ => s.actorStep cfg j a l
  | .drop j =>
    match s.actors[j]? with
    | some a =>
      if a.actor.phase = .stopped then some (s.setActor j { a with mailbox := [], gone := true })
      else none
    | none => none

end Server

end Hocuspocus
