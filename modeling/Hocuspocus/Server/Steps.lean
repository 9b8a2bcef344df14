import Hocuspocus.Server.Ghosts

/-!
# What a step of the server does to one of its parts

`Server.step` has a branch for each task. Seen from one actor there is less to
tell: it is sent commands, or its loop takes a turn. `Spawned.Turn` lists these
turns with the labels that make them, `SocketTurn` and `EditTurn` those of a
socket and of a call of `direct_apply`; `step_turn`, `step_socket` and
`step_edit` are the inversions of `Server.step` the invariants use.
-/

namespace Hocuspocus

variable {Y : Yrs}

/-- The commands arrive in its mailbox. -/
def Spawned.told (a : Spawned Y) (cmds : List DocCommand) : Spawned Y :=
  { a with mailbox := a.mailbox ++ cmds }

theorem Spawned.told_nil (a : Spawned Y) : a.told [] = a := by
  rw [Spawned.told, List.append_nil]

theorem Spawned.told_told (a : Spawned Y) (cmds more : List DocCommand) :
    (a.told cmds).told more = a.told (cmds ++ more) := by
  rw [Spawned.told, Spawned.told, Spawned.told, List.append_assoc]

/-- What the actor `j` can do in a step of the server, or have done to it. -/
inductive Spawned.Turn (cfg : Configuration) (j : Nat) (a : Spawned Y) :
    Server.Label Y → Spawned Y → Prop
  | told (l : Server.Label Y) (cmds : List DocCommand) :
    Turn cfg j a l (a.told cmds)
  | recv (n : Nat) (hbatch : a.batch = []) :
    Turn cfg j a (.recv j) { a with mailbox := a.mailbox.drop n, batch := a.mailbox.take n }
  | command (o : Ambient) (cmd : DocCommand) (batch : List DocCommand) (b : Actor Y)
    (hbatch : a.batch = cmd :: batch) (hstep : a.actor.step cfg (.command cmd o) = some b) :
    Turn cfg j a (.command j o)
      ⟨b, a.mailbox, if b.unloadedBy (.command cmd o) then [] else batch,
        cmd.ack?.elim a.acked fun ack => a.acked ++ [ack], a.gone⟩
  | actor (l : Hocuspocus.Label) (b : Actor Y) (hplain : ∀ cmd o, l ≠ .command cmd o)
    (hstep : a.actor.step cfg l = some b) : Turn cfg j a (.actor j l) { a with actor := b }
  | drop (hstopped : a.actor.phase = .stopped) :
    Turn cfg j a (.drop j) { a with mailbox := [], gone := true }

/-- An actor forgets nothing of what it has done. -/
theorem Spawned.Turn.grows {cfg : Configuration} {j : Nat} {a b : Spawned Y} {l : Server.Label Y}
    (h : a.Turn cfg j l b) : a.actor.world.trace <+: b.actor.world.trace := by
  cases h with
  | told | recv | drop => exact List.prefix_refl _
  | command o cmd batch b hbatch hstep => exact Actor.step_trace hstep
  | actor l b hplain hstep => exact Actor.step_trace hstep

namespace Server

theorem send_actor {s : Server Y} (k : Nat) (cmd : DocCommand) {j : Nat} {a : Spawned Y}
    (ha : s.actors[j]? = some a) :
    ∃ cmds, (s.send k cmd).1.actors[j]? = some (a.told cmds) := by
  unfold Server.send
  split
  next => exact ⟨[], a.told_nil.symm ▸ ha⟩
  next b hb =>
    split
    next => exact ⟨[], a.told_nil.symm ▸ ha⟩
    next =>
      by_cases hkj : k = j
      · subst hkj
        obtain rfl : a = b := Option.some.inj (ha.symm.trans hb)
        exact ⟨[cmd], (getElem?_set_of_some hb _ k).trans (if_pos rfl)⟩
      · refine ⟨[], ?_⟩
        rw [a.told_nil]
        exact ((getElem?_set_of_some hb _ j).trans (if_neg hkj)).trans ha

theorem sendAll_actor (cmds : List (Nat × DocCommand)) : ∀ {s : Server Y} {j : Nat} {a : Spawned Y},
    s.actors[j]? = some a →
    ∃ more, (s.sendAll cmds).actors[j]? = some (a.told more) := by
  induction cmds with
  | nil =>
    intro s j a ha
    refine ⟨[], ?_⟩
    rw [a.told_nil]
    exact ha
  | cons c cmds ih =>
    intro s j a ha
    obtain ⟨first, hfirst⟩ := send_actor c.1 c.2 ha
    obtain ⟨more, hmore⟩ := ih hfirst
    refine ⟨first ++ more, ?_⟩
    rw [← a.told_told]
    exact hmore

theorem documentStep_actor {s t : Server Y} {name : String} {doc : Y.Doc} {queues : Queues}
    {call : DocumentCall} {r : DocumentCall ⊕ Nat}
    (h : s.documentStep name doc queues call = some (t, r)) {j : Nat} {a : Spawned Y}
    (ha : s.actors[j]? = some a) : t.actors[j]? = some a := by
  cases documentStep_cases h with
  | spawns l =>
    obtain ⟨hlt, _⟩ := List.getElem?_eq_some_iff.mp ha
    exact (List.getElem?_append_left hlt).trans ha
  | found | missing | joins | creates | locks | late | loads | inserts | forgets => exact ha

/-- It is sent commands, perhaps none. -/
theorem turn_told {cfg : Configuration} {l : Label Y} {j : Nat} {a : Spawned Y} {t : Server Y}
    (h : ∃ cmds, t.actors[j]? = some (a.told cmds)) :
    ∃ b, t.actors[j]? = some b ∧ a.Turn cfg j l b := by
  obtain ⟨cmds, hb⟩ := h
  exact ⟨_, hb, .told l cmds⟩

theorem turn_same {cfg : Configuration} {l : Label Y} {j : Nat} {a : Spawned Y} {t : Server Y}
    (h : t.actors[j]? = some a) : ∃ b, t.actors[j]? = some b ∧ a.Turn cfg j l b := by
  refine turn_told ⟨[], ?_⟩
  rw [a.told_nil]
  exact h

theorem registerStep_turn {s t : Server Y} {cfg : Configuration} {l : Label Y} {i : Nat}
    {sock : Socket} {r : Registration} {doc : Y.Doc} {queues : Queues}
    (h : s.registerStep i sock r doc queues = some t) {j : Nat} {a : Spawned Y}
    (ha : s.actors[j]? = some a) : ∃ b, t.actors[j]? = some b ∧ a.Turn cfg j l b := by
  have hsent := fun handle => send_actor (s := { s with nextAck := s.nextAck + 1 }) handle
    (.addConnection (sock.connHandle i r) s.nextAck) ha
  cases registerStep_cases h with
  | calls call next u hstage hcall => exact turn_same (documentStep_actor hcall ha)
  | finds call handle u hstage hcall => exact turn_same (documentStep_actor hcall ha)
  | sends handle => exact turn_told (hsent handle)
  | refused handle => exact turn_told (hsent handle)
  | acked handle ack hstage hacked => exact turn_told (sendAll_actor (s := s.setSocket i _) _ ha)
  | lost => exact turn_same ha

theorem directStep_turn {s t : Server Y} {cfg : Configuration} {l : Label Y} {k : Nat}
    {e : DirectApply} {doc : Y.Doc} {queues : Queues} (h : s.directStep k e doc queues = some t)
    {j : Nat} {a : Spawned Y} (ha : s.actors[j]? = some a) :
    ∃ b, t.actors[j]? = some b ∧ a.Turn cfg j l b := by
  cases directStep_cases h with
  | calls call next u hreturned hstage hcall => exact turn_same (documentStep_actor hcall ha)
  | finds call handle u hreturned hstage hcall => exact turn_same (documentStep_actor hcall ha)
  | sends handle sent hreturned hstage hsent =>
    subst hsent
    exact turn_told (send_actor (s := { s with nextAck := s.nextAck + 1 }) handle _ ha)
  | answered => exact turn_same ha

/-- The actor `k` takes a turn of its own. -/
theorem turn_set {s t : Server Y} {cfg : Configuration} {l : Label Y} {k : Nat} {a' b : Spawned Y}
    (ha' : s.actors[k]? = some a') (hturn : a'.Turn cfg k l b)
    (hactors : t.actors = s.actors.set k b) {j : Nat} {a : Spawned Y} (ha : s.actors[j]? = some a) :
    ∃ b, t.actors[j]? = some b ∧ a.Turn cfg j l b := by
  by_cases hkj : k = j
  · subst hkj
    obtain rfl : a = a' := Option.some.inj (ha.symm.trans ha')
    refine ⟨b, ?_, hturn⟩
    rw [hactors]
    exact (getElem?_set_of_some ha _ k).trans (if_pos rfl)
  · refine turn_same ?_
    rw [hactors]
    exact ((getElem?_set_of_some ha' _ j).trans (if_neg hkj)).trans ha

/-- **What a step does to an actor.** -/
theorem step_turn {s t : Server Y} {cfg : Configuration} {l : Label Y}
    (h : Server.step cfg s l = some t) {j : Nat} {a : Spawned Y} (ha : s.actors[j]? = some a) :
    ∃ b, t.actors[j]? = some b ∧ a.Turn cfg j l b := by
  cases step_cases h with
  | connect | hangup | timeout | connected | authenticated | clean | apply | unknown =>
    exact turn_same ha
  | receive i data now sock hsock htask =>
    exact turn_told (sendAll_actor (s := s.setSocket i _) _ ha)
  | register i doc queues sock r t hsock htask h => exact registerStep_turn h ha
  | leave i key sock est hsock htask hest =>
    exact turn_told (sendAll_actor (s := s.setSocket i _) _ ha)
  | direct k doc queues e t he h => exact directStep_turn h ha
  | external name data k hdoc => exact turn_told (send_actor _ _ ha)
  | recv k a' ha' hbatch => exact turn_set ha' (.recv maxCoalesceBatch hbatch) rfl ha
  | command k o a' cmd batch b ha' hbatch hstep =>
    exact turn_set ha' (.command o cmd batch b hbatch hstep) (unloading_parts _ _ _).1 ha
  | actor k l a' b ha' hplain hclosed hstep =>
    exact turn_set ha' (.actor l b hplain hstep) (unloading_parts _ _ _).1 ha
  | drop k a' ha' hstopped => exact turn_set ha' (.drop hstopped) rfl ha

/-! ## An actor that is new -/

/-- An actor when it has been spawned. -/
def born (name : String) (doc : Y.Doc) (queues : Queues) : Spawned Y :=
  ⟨Actor.spawn name doc queues, [], [], [], false⟩

theorem send_actors_length (s : Server Y) (j : Nat) (cmd : DocCommand) :
    (s.send j cmd).1.actors.length = s.actors.length := by
  unfold Server.send
  split
  next => rfl
  next =>
    split
    · rfl
    · exact List.length_set

theorem sendAll_actors_length (cmds : List (Nat × DocCommand)) (s : Server Y) :
    (s.sendAll cmds).actors.length = s.actors.length := by
  induction cmds generalizing s with
  | nil => rfl
  | cons c cmds ih => exact (ih (s.send c.1 c.2).1).trans (send_actors_length s c.1 c.2)

/-- The actor was there, or has just been spawned. -/
def Known (s : Server Y) (j : Nat) (b : Spawned Y) : Prop :=
  (∃ a, s.actors[j]? = some a) ∨ j = s.actors.length ∧ ∃ name doc queues, b = born name doc queues

theorem Known.of_length {s t : Server Y} (hlength : t.actors.length = s.actors.length) {j : Nat}
    {b : Spawned Y} (hb : t.actors[j]? = some b) : s.Known j b := by
  obtain ⟨hlt, _⟩ := List.getElem?_eq_some_iff.mp hb
  exact Or.inl ⟨_, List.getElem?_eq_getElem (hlength ▸ hlt)⟩

theorem documentStep_known {s u : Server Y} {name : String} {doc : Y.Doc} {queues : Queues}
    {call : DocumentCall} {r : DocumentCall ⊕ Nat}
    (h : s.documentStep name doc queues call = some (u, r)) {j : Nat} {b : Spawned Y}
    (hb : u.actors[j]? = some b) : s.Known j b := by
  cases documentStep_cases h with
  | spawns l =>
    rcases getElem?_snoc hb with hold | ⟨hj, rfl⟩
    · exact Or.inl ⟨b, hold⟩
    · exact Or.inr ⟨hj, name, doc, queues, rfl⟩
  | found | missing | joins | creates | locks | late | loads | inserts | forgets =>
    exact Or.inl ⟨b, hb⟩

/-- **What actors there are after a step.** -/
theorem step_known {s t : Server Y} {cfg : Configuration} {l : Label Y}
    (h : Server.step cfg s l = some t) {j : Nat} {b : Spawned Y} (hb : t.actors[j]? = some b) :
    s.Known j b := by
  cases step_cases h with
  | connect | hangup | timeout | connected | authenticated | clean | apply | unknown =>
    exact Or.inl ⟨b, hb⟩
  | receive i data now sock hsock htask | leave i key sock est hsock htask hest =>
    exact .of_length (sendAll_actors_length _ (s.setSocket i _)) hb
  | register i doc queues sock r t hsock htask h =>
    cases registerStep_cases h with
    | calls call next u hstage hcall | finds call handle u hstage hcall =>
      exact documentStep_known hcall hb
    | sends handle | refused handle =>
      exact .of_length (send_actors_length { s with nextAck := s.nextAck + 1 } handle _) hb
    | acked handle ack => exact .of_length (sendAll_actors_length _ (s.setSocket i _)) hb
    | lost => exact Or.inl ⟨b, hb⟩
  | direct k doc queues e t he h =>
    cases directStep_cases h with
    | calls call next u hreturned hstage hcall | finds call handle u hreturned hstage hcall =>
      exact documentStep_known hcall hb
    | sends handle sent hreturned hstage hsent =>
      subst hsent
      exact .of_length (send_actors_length { s with nextAck := s.nextAck + 1 } handle _) hb
    | answered => exact Or.inl ⟨b, hb⟩
  | external name data k hdoc => exact .of_length (send_actors_length s k _) hb
  | recv k a | drop k a => exact .of_length List.length_set hb
  | command | actor =>
    refine .of_length ?_ hb
    rw [(unloading_parts _ _ _).1]
    exact List.length_set

/-! ## A socket -/

/-- What the socket `i` does in a step of the server to `t`, if it does anything. -/
inductive SocketTurn (cfg : Configuration) (s t : Server Y) (i : Nat) (sock : Socket) :
    Label Y → Socket → Prop
  | idle (l : Label Y) : SocketTurn cfg s t i sock l sock
  | receive (data : Bytes) (now : Nat) (htask : sock.task = .reading) :
    SocketTurn cfg s t i sock (.receive i data now) (sock.handleFrame Y cfg now data).1
  | hangup (htask : sock.task = .reading) :
    SocketTurn cfg s t i sock (.hangup i) { sock with task := .cleaning }
  | timeout (now : Nat) (htask : sock.task = .reading) :
    SocketTurn cfg s t i sock (.timeout i now)
      (Socket.terminate { sock with task := .cleaning } connectionTimeout)
  | connected (request : AuthRequest) (results : List HookResult)
    (htask : sock.task = .connecting request) :
    SocketTurn cfg s t i sock (.connected i results) (sock.connected Y request results)
  | authenticated (request : AuthRequest) (results : List HookResult) (readOnly : Bool)
    (htask : sock.task = .authenticating request) :
    SocketTurn cfg s t i sock (.authenticated i results readOnly)
      (sock.authenticated Y request results readOnly s.nextConnId)
  | calls (doc : Y.Doc) (queues : Queues) (r : Registration) (call next : DocumentCall)
    (htask : sock.task = .registering r) (hstage : r.stage = .document call)
    (hcall : ∃ u, s.documentStep r.request.documentName doc queues call = some (u, .inl next) ∧
      t.actors = u.actors) :
    SocketTurn cfg s t i sock (.register i doc queues)
      { sock with task := .registering { r with stage := .document next } }
  | finds (doc : Y.Doc) (queues : Queues) (r : Registration) (call : DocumentCall) (h : Nat)
    (htask : sock.task = .registering r) (hstage : r.stage = .document call)
    (hcall : ∃ u, s.documentStep r.request.documentName doc queues call = some (u, .inr h) ∧
      t.actors = u.actors) :
    SocketTurn cfg s t i sock (.register i doc queues)
      { sock with task := .registering { r with stage := .send h } }
  | sends (doc : Y.Doc) (queues : Queues) (r : Registration) (h : Nat)
    (htask : sock.task = .registering r) (hstage : r.stage = .send h) :
    SocketTurn cfg s t i sock (.register i doc queues)
      { sock.emit (.command h (.addConnection (sock.connHandle i r) s.nextAck)) with
        task := .registering { r with stage := .await h s.nextAck } }
  | refused (doc : Y.Doc) (queues : Queues) (r : Registration) (h : Nat)
    (htask : sock.task = .registering r) (hstage : r.stage = .send h) :
    SocketTurn cfg s t i sock (.register i doc queues)
      ((sock.emit (.command h (.addConnection (sock.connHandle i r) s.nextAck))).failed r)
  | acked (doc : Y.Doc) (queues : Queues) (r : Registration) (h ack : Nat)
    (htask : sock.task = .registering r) (hstage : r.stage = .await h ack)
    (hacked : s.awaited h ack = some true) :
    SocketTurn cfg s t i sock (.register i doc queues) (sock.register r h).1
  | lost (doc : Y.Doc) (queues : Queues) (r : Registration) (h ack : Nat)
    (htask : sock.task = .registering r) (hstage : r.stage = .await h ack)
    (hlost : s.awaited h ack = some false) :
    SocketTurn cfg s t i sock (.register i doc queues) (sock.failed r)
  | leave (key : String) (est : Established) (htask : sock.task = .cleaning)
    (hest : sock.client.established.get? key = some est) :
    SocketTurn cfg s t i sock (.leave i key) (sock.leave est).1
  | clean (htask : sock.task = .cleaning) (hempty : sock.client.established.isEmpty = true) :
    SocketTurn cfg s t i sock (.clean i) { sock with task := .ended }

theorem sendAll_sockets (cmds : List (Nat × DocCommand)) (s : Server Y) :
    (s.sendAll cmds).sockets = s.sockets := by
  rw [sendAll_eq]

theorem documentStep_sockets {s t : Server Y} {name : String} {doc : Y.Doc} {queues : Queues}
    {call : DocumentCall} {r : DocumentCall ⊕ Nat}
    (h : s.documentStep name doc queues call = some (t, r)) :
    t.sockets = s.sockets ∧ t.edits = s.edits := by
  cases documentStep_cases h with
  | found | missing | joins | creates | locks | late | loads | spawns | inserts | forgets =>
    exact ⟨rfl, rfl⟩

theorem send_edits (s : Server Y) (j : Nat) (cmd : DocCommand) :
    (s.send j cmd).1.edits = s.edits := by
  rw [send_eq]

theorem sendAll_edits (cmds : List (Nat × DocCommand)) (s : Server Y) :
    (s.sendAll cmds).edits = s.edits := by
  rw [sendAll_eq]

/-- What a step does to the sockets: nothing, or one takes a turn, or one is new. -/
inductive SocketsStep (cfg : Configuration) (s t : Server Y) (l : Label Y) : Prop
  | same (hsockets : t.sockets = s.sockets)
  | turn (k : Nat) (sock new : Socket) (hsock : s.sockets[k]? = some sock)
    (hturn : SocketTurn cfg s t k sock l new) (hsockets : t.sockets = s.sockets.set k new)
  | connect (now : Nat) (hlabel : l = .connect now) (hsockets : t.sockets = s.sockets ++
      [⟨.new ("ws-" ++ toString (s.sockets.length + 1)) now, .reading, []⟩])

theorem registerStep_socket {s t : Server Y} {cfg : Configuration} {k : Nat}
    {sock : Socket} {r : Registration} {doc : Y.Doc} {queues : Queues}
    (hsock : s.sockets[k]? = some sock) (htask : sock.task = .registering r)
    (h : s.registerStep k sock r doc queues = some t) :
    SocketsStep cfg s t (.register k doc queues) := by
  have hsent := fun handle => send_sockets { s with nextAck := s.nextAck + 1 } handle
    (.addConnection (sock.connHandle k r) s.nextAck)
  cases registerStep_cases h with
  | calls call next u hstage hcall =>
    refine .turn k sock _ hsock (.calls doc queues r call next htask hstage ⟨u, hcall, rfl⟩) ?_
    rw [← (documentStep_sockets hcall).1]
    rfl
  | finds call handle u hstage hcall =>
    refine .turn k sock _ hsock (.finds doc queues r call handle htask hstage ⟨u, hcall, rfl⟩) ?_
    rw [← (documentStep_sockets hcall).1]
    rfl
  | sends handle hstage =>
    refine .turn k sock _ hsock (.sends doc queues r handle htask hstage) ?_
    exact congrArg (List.set · k _) (hsent handle)
  | refused handle hstage =>
    refine .turn k sock _ hsock (.refused doc queues r handle htask hstage) ?_
    exact congrArg (List.set · k _) (hsent handle)
  | acked handle ack hstage hacked =>
    refine .turn k sock _ hsock (.acked doc queues r handle ack htask hstage hacked) ?_
    rw [sendAll_sockets]
    rfl
  | lost handle ack hstage hlost =>
    exact .turn k sock _ hsock (.lost doc queues r handle ack htask hstage hlost) rfl

theorem directStep_sockets {s t : Server Y} {k : Nat} {e : DirectApply} {doc : Y.Doc}
    {queues : Queues} (h : s.directStep k e doc queues = some t) : t.sockets = s.sockets := by
  cases directStep_cases h with
  | calls call next u hreturned hstage hcall | finds call handle u hreturned hstage hcall =>
    exact (documentStep_sockets hcall).1
  | sends handle sent hreturned hstage hsent =>
    subst hsent
    exact send_sockets { s with nextAck := s.nextAck + 1 } handle _
  | answered => rfl

theorem sockets_cases {s t : Server Y} {cfg : Configuration} {l : Label Y}
    (h : Server.step cfg s l = some t) : SocketsStep cfg s t l := by
  cases step_cases h with
  | connect now => exact .connect now rfl rfl
  | receive k data now sock hsock htask =>
    refine .turn k _ _ hsock (.receive data now htask) ?_
    rw [sendAll_sockets]
    rfl
  | hangup k sock hsock htask => exact .turn k _ _ hsock (.hangup htask) rfl
  | timeout k now sock hsock htask hdeadline => exact .turn k _ _ hsock (.timeout now htask) rfl
  | connected k results sock request hsock htask =>
    exact .turn k _ _ hsock (.connected request results htask) rfl
  | authenticated k results readOnly sock request hsock htask =>
    exact .turn k _ _ hsock (.authenticated request results readOnly htask) rfl
  | register k doc queues sock r t hsock htask h => exact registerStep_socket hsock htask h
  | leave k key sock est hsock htask hest =>
    refine .turn k _ _ hsock (.leave key est htask hest) ?_
    rw [sendAll_sockets]
    rfl
  | clean k sock hsock htask hempty => exact .turn k _ _ hsock (.clean htask hempty) rfl
  | direct k doc queues e t he h => exact .same (directStep_sockets h)
  | external name data j hdoc => exact .same (send_sockets s j _)
  | command | actor => exact .same (unloading_parts _ _ _).2.1
  | apply | unknown | recv | drop => exact .same rfl

/-- The socket was there, and took a turn. -/
def SocketWas (cfg : Configuration) (s t : Server Y) (l : Label Y) (i : Nat) (sock' : Socket) :
    Prop :=
  ∃ sock, s.sockets[i]? = some sock ∧ SocketTurn cfg s t i sock l sock'

/-- **What a step does to a socket.** -/
theorem step_socket {s t : Server Y} {cfg : Configuration} {l : Label Y}
    (h : Server.step cfg s l = some t) {i : Nat} {sock' : Socket}
    (hsock' : t.sockets[i]? = some sock') :
    SocketWas cfg s t l i sock' ∨ i = s.sockets.length ∧ ∃ now, l = .connect now ∧
      sock' = ⟨.new ("ws-" ++ toString (s.sockets.length + 1)) now, .reading, []⟩ := by
  cases sockets_cases h with
  | same hsockets => exact Or.inl ⟨sock', hsockets ▸ hsock', .idle l⟩
  | turn k sock new hsock hturn hsockets =>
    rw [hsockets] at hsock'
    rcases getElem?_set_cases hsock' with ⟨rfl, rfl⟩ | ⟨_, hold⟩
    · exact Or.inl ⟨sock, hsock, hturn⟩
    · exact Or.inl ⟨sock', hold, .idle l⟩
  | connect now hlabel hsockets =>
    rw [hsockets] at hsock'
    rcases getElem?_snoc hsock' with hold | ⟨hi, hnew⟩
    · exact Or.inl ⟨sock', hold, .idle l⟩
    · exact Or.inr ⟨hi, now, hlabel, hnew.symm⟩

theorem sockets_length {s t : Server Y} {cfg : Configuration} {l : Label Y}
    (h : Server.step cfg s l = some t) : s.sockets.length ≤ t.sockets.length := by
  cases sockets_cases h with
  | same hsockets => rw [hsockets]
  | turn k sock new hsock hturn hsockets => rw [hsockets, List.length_set]
  | connect now hlabel hsockets =>
    rw [hsockets, List.length_append]
    exact Nat.le_add_right _ _

/-! ## A call of `direct_apply` -/

/-- What the call `k` of `direct_apply` does in a step of the server to `t`, if it
does anything. -/
inductive EditTurn (s t : Server Y) (k : Nat) (e : DirectApply) : Label Y → DirectApply → Prop
  | idle (l : Label Y) : EditTurn s t k e l e
  | calls (doc : Y.Doc) (queues : Queues) (call next : DocumentCall)
    (hreturned : e.returned = none) (hstage : e.stage = .document call)
    (hcall : ∃ u, s.documentStep e.name doc queues call = some (u, .inl next) ∧
      t.actors = u.actors) :
    EditTurn s t k e (.direct k doc queues) { e with stage := .document next }
  | finds (doc : Y.Doc) (queues : Queues) (call : DocumentCall) (h : Nat)
    (hreturned : e.returned = none) (hstage : e.stage = .document call)
    (hcall : ∃ u, s.documentStep e.name doc queues call = some (u, .inr h) ∧
      t.actors = u.actors) :
    EditTurn s t k e (.direct k doc queues) { e with stage := .send h }
  | sends (doc : Y.Doc) (queues : Queues) (h : Nat) (hreturned : e.returned = none)
    (hstage : e.stage = .send h)
    (hsent : ∃ a, t.actors[h]? = some a ∧ .directApply e.update s.nextAck ∈ a.pending) :
    EditTurn s t k e (.direct k doc queues) { e with stage := .await h s.nextAck }
  | refused (doc : Y.Doc) (queues : Queues) (h : Nat) (hreturned : e.returned = none)
    (hstage : e.stage = .send h) :
    EditTurn s t k e (.direct k doc queues) { e with returned := some false }
  | answered (doc : Y.Doc) (queues : Queues) (h ack : Nat) (acked : Bool)
    (hreturned : e.returned = none) (hstage : e.stage = .await h ack)
    (hawaited : s.awaited h ack = some acked) :
    EditTurn s t k e (.direct k doc queues) { e with returned := some true }

/-- The call had been made, and took a turn. -/
def EditWas (s t : Server Y) (l : Label Y) (k : Nat) (e' : DirectApply) : Prop :=
  ∃ e, s.edits[k]? = some e ∧ EditTurn s t k e l e'

theorem edit_idle {s t : Server Y} {l : Label Y} {k : Nat} {e : DirectApply}
    (h : s.edits[k]? = some e) : EditWas s t l k e := ⟨e, h, .idle l⟩

theorem edit_set {s t : Server Y} {l : Label Y} {k : Nat} {e new : DirectApply}
    (he : s.edits[k]? = some e) {m : Nat} {e' : DirectApply}
    (h : (s.edits.set k new)[m]? = some e') (hturn : EditTurn s t k e l new) :
    EditWas s t l m e' := by
  rcases getElem?_set_cases h with ⟨rfl, rfl⟩ | ⟨_, hold⟩
  · exact ⟨e, he, hturn⟩
  · exact edit_idle hold

theorem send_accepted {s : Server Y} {j : Nat} {cmd : DocCommand} (h : (s.send j cmd).2 = true) :
    ∃ a, (s.send j cmd).1.actors[j]? = some a ∧ cmd ∈ a.pending := by
  unfold Server.send at h ⊢
  split at h
  next => cases h
  next a ha =>
    split at h
    next => cases h
    next hgone =>
      rw [if_neg hgone]
      exact ⟨a.told [cmd], (getElem?_set_of_some ha _ j).trans (if_pos rfl),
        List.mem_append_right _ (List.mem_append_right _ (List.mem_singleton_self cmd))⟩

theorem directStep_edit {s t : Server Y} {k : Nat} {e : DirectApply} {doc : Y.Doc}
    {queues : Queues} (he : s.edits[k]? = some e) (h : s.directStep k e doc queues = some t)
    {m : Nat} {e' : DirectApply} (he' : t.edits[m]? = some e') :
    EditWas s t (.direct k doc queues) m e' := by
  cases directStep_cases h with
  | calls call next u hreturned hstage hcall =>
    rw [(documentStep_sockets hcall).2] at he'
    exact edit_set he he' (.calls doc queues call next hreturned hstage ⟨u, hcall, rfl⟩)
  | finds call handle u hreturned hstage hcall =>
    rw [(documentStep_sockets hcall).2] at he'
    exact edit_set he he' (.finds doc queues call handle hreturned hstage ⟨u, hcall, rfl⟩)
  | sends handle sent hreturned hstage hsent =>
    have hedits : sent.1.edits = s.edits := by
      rw [hsent]
      exact send_edits { s with nextAck := s.nextAck + 1 } handle (.directApply e.update s.nextAck)
    cases haccepted : sent.2 with
    | true =>
      rw [haccepted, if_pos rfl] at he'
      have htold : ∃ a, sent.1.actors[handle]? = some a ∧
          .directApply e.update s.nextAck ∈ a.pending := by
        rw [hsent] at haccepted ⊢
        exact send_accepted haccepted
      rw [hedits] at he'
      exact edit_set he he' (.sends doc queues handle hreturned hstage htold)
    | false =>
      rw [haccepted, if_neg Bool.false_ne_true] at he'
      rw [hedits] at he'
      exact edit_set he he' (.refused doc queues handle hreturned hstage)
  | answered handle ack acked hreturned hstage hacked =>
    exact edit_set he he' (.answered doc queues handle ack acked hreturned hstage hacked)

theorem registerStep_edits {s t : Server Y} {k : Nat} {sock : Socket} {r : Registration}
    {doc : Y.Doc} {queues : Queues} (h : s.registerStep k sock r doc queues = some t) :
    t.edits = s.edits := by
  cases registerStep_cases h with
  | calls call next u hstage hcall | finds call handle u hstage hcall =>
    exact (documentStep_sockets hcall).2
  | sends handle | refused handle =>
    exact send_edits { s with nextAck := s.nextAck + 1 } handle _
  | acked handle ack => exact sendAll_edits _ (s.setSocket k _)
  | lost => rfl

/-- **What a step does to a call of `direct_apply`.** -/
theorem step_edit {s t : Server Y} {cfg : Configuration} {l : Label Y}
    (h : Server.step cfg s l = some t) {k : Nat} {e' : DirectApply} (he' : t.edits[k]? = some e') :
    EditWas s t l k e' ∨ k = s.edits.length ∧ ∃ name update, l = .apply name update ∧
      e' = ⟨name, update, .document .lookup, none⟩ := by
  have hsame : t.edits = s.edits → EditWas s t l k e' := fun hedits => edit_idle (hedits ▸ he')
  cases step_cases h with
  | connect | hangup | timeout | connected | authenticated | clean | unknown | recv | drop =>
    exact Or.inl (hsame rfl)
  | receive i data now sock hsock htask | leave i key sock est hsock htask hest =>
    exact Or.inl (hsame (sendAll_edits _ (s.setSocket i _)))
  | register i doc queues sock r t hsock htask h => exact Or.inl (hsame (registerStep_edits h))
  | apply name update =>
    rcases getElem?_snoc he' with hold | ⟨hk, rfl⟩
    · exact Or.inl (edit_idle hold)
    · exact Or.inr ⟨hk, name, update, rfl, rfl⟩
  | direct m doc queues e t he h => exact Or.inl (directStep_edit he h he')
  | external name data j hdoc => exact Or.inl (hsame (send_edits s j _))
  | command | actor => exact Or.inl (hsame (unloading_parts _ _ _).2.2)

end Server

end Hocuspocus
