import Hocuspocus.Server.Steps

/-!
# Handles lead to actors of their name

`ServerShared::document` returns a handle for a name: out of the registry, or of
the actor it has just spawned. `Named` says that whoever keeps a handle got it
for the name of its actor: the registry under that name, a task on its way to
the actor, a socket for a routing key of that document.
-/

namespace Hocuspocus

variable {Y : Yrs}

/-- The request a socket is busy with. -/
def SocketTask.request : SocketTask → Option AuthRequest
  | .connecting request | .authenticating request => some request
  | .registering r => some r.request
  | .reading | .cleaning | .ended => none

namespace Server

/-- The actor `j` runs the document of this name. -/
def Names (s : Server Y) (j : Nat) (name : String) : Prop :=
  ∃ a, s.actors[j]? = some a ∧ a.actor.world.name = name

/-- A task is about to insert the actor under the name. -/
def Inserting (s : Server Y) (name : String) (j : Nat) : Prop :=
  (∃ (i : Nat) (sock : Socket) (r : Registration) (l : Nat), s.sockets[i]? = some sock ∧
    sock.task = .registering r ∧ r.stage = .document (.insert l j) ∧
    r.request.documentName = name) ∨
  ∃ (k : Nat) (e : DirectApply) (l : Nat), s.edits[k]? = some e ∧
    e.stage = .document (.insert l j) ∧ e.name = name

structure Named (s : Server Y) : Prop where
  documents : ∀ name j, s.documents name = some j → s.Names j name
  requests : ∀ (i : Nat) (sock : Socket), s.sockets[i]? = some sock → ∀ request,
    sock.task.request = some request → request.documentName = (parseRoutingKey request.key).1
  registering : ∀ (i : Nat) (sock : Socket), s.sockets[i]? = some sock → ∀ r j,
    sock.task = .registering r → r.stage.holds j = true → s.Names j r.request.documentName
  established : ∀ (i : Nat) (sock : Socket), s.sockets[i]? = some sock → ∀ est,
    est ∈ sock.client.established.vals → s.Names est.doc (parseRoutingKey est.key).1
  edits : ∀ (k : Nat) (e : DirectApply), s.edits[k]? = some e → ∀ j, e.stage.holds j = true →
    s.Names j e.name

/-! ## The registry -/

theorem send_documents (s : Server Y) (j : Nat) (cmd : DocCommand) :
    (s.send j cmd).1.documents = s.documents := by
  rw [send_eq]

theorem sendAll_documents (cmds : List (Nat × DocCommand)) (s : Server Y) :
    (s.sendAll cmds).documents = s.documents := by
  rw [sendAll_eq]

theorem removeDocument_documents {s : Server Y} {name n : String} {j : Nat}
    (h : (s.removeDocument name).documents n = some j) : s.documents n = some j := by
  have hentry : (s.removeDocument name).documents n = Function.update s.documents name none n := rfl
  rw [hentry] at h
  by_cases hn : n = name
  · subst hn
    rw [Function.update_self] at h
    cases h
  · rw [Function.update_of_ne hn] at h
    exact h

/-- An entry was there, or is the insertion of the call. -/
theorem documentStep_documents {s u : Server Y} {name : String} {doc : Y.Doc} {queues : Queues}
    {call : DocumentCall} {r : DocumentCall ⊕ Nat}
    (h : s.documentStep name doc queues call = some (u, r)) {n : String} {j : Nat}
    (hj : u.documents n = some j) :
    s.documents n = some j ∨ n = name ∧ ∃ l, call = .insert l j := by
  cases documentStep_cases h with
  | found | missing | joins | creates | locks | late | loads | spawns | forgets => exact Or.inl hj
  | inserts l k =>
    by_cases hn : n = name
    · subst hn
      have hk : some k = some j := (Function.update_self n (some k) s.documents).symm.trans hj
      cases hk
      exact Or.inr ⟨rfl, l, rfl⟩
    · exact Or.inl ((Function.update_of_ne hn (some k) s.documents).symm.trans hj)

/-- What a call returns, or goes on with, is a handle of the name. -/
theorem documentStep_names {s u : Server Y} {name : String} {doc : Y.Doc} {queues : Queues}
    {call : DocumentCall} {r : DocumentCall ⊕ Nat}
    (hdocuments : ∀ j, s.documents name = some j → s.Names j name)
    (hcall : ∀ j, (Stage.document call).holds j = true → s.Names j name)
    (h : s.documentStep name doc queues call = some (u, r)) {j : Nat}
    (hj : r.elim (fun next => (Stage.document next).holds j = true) fun k => k = j) :
    u.Names j name := by
  cases documentStep_cases h with
  | found k hk | late l k hk =>
    obtain rfl : k = j := hj
    exact hdocuments k hk
  | missing | joins | creates | locks | loads => cases hj
  | spawns l =>
    obtain rfl : s.actors.length = j := of_decide_eq_true hj
    exact ⟨_, List.getElem?_concat_length, rfl⟩
  | inserts l k => exact hcall j hj
  | forgets l k => exact hcall j (decide_eq_true hj)

theorem registerStep_documents {s t : Server Y} {i : Nat} {sock : Socket} {r : Registration}
    {doc : Y.Doc} {queues : Queues} (hsock : s.sockets[i]? = some sock)
    (htask : sock.task = .registering r) (h : s.registerStep i sock r doc queues = some t)
    {n : String} {j : Nat} (hj : t.documents n = some j) :
    s.documents n = some j ∨ s.Inserting n j := by
  have hsent := fun handle => send_documents { s with nextAck := s.nextAck + 1 } handle
    (.addConnection (sock.connHandle i r) s.nextAck)
  cases registerStep_cases h with
  | calls call next u hstage hcall | finds call handle u hstage hcall =>
    rcases documentStep_documents hcall hj with hold | ⟨rfl, l, rfl⟩
    · exact Or.inl hold
    · exact Or.inr (Or.inl ⟨i, sock, r, l, hsock, htask, hstage, rfl⟩)
  | sends handle => exact Or.inl (hsent handle ▸ hj)
  | refused handle =>
    have hkept := removeDocument_documents (s := (s.introduce i sock r handle).1) hj
    exact Or.inl (hsent handle ▸ hkept)
  | acked handle ack =>
    rw [sendAll_documents] at hj
    exact Or.inl hj
  | lost => exact Or.inl (removeDocument_documents (s := s) hj)

theorem directStep_documents {s t : Server Y} {k : Nat} {e : DirectApply} {doc : Y.Doc}
    {queues : Queues} (he : s.edits[k]? = some e) (h : s.directStep k e doc queues = some t)
    {n : String} {j : Nat} (hj : t.documents n = some j) :
    s.documents n = some j ∨ s.Inserting n j := by
  cases directStep_cases h with
  | calls call next u hreturned hstage hcall | finds call handle u hreturned hstage hcall =>
    rcases documentStep_documents hcall hj with hold | ⟨rfl, l, rfl⟩
    · exact Or.inl hold
    · exact Or.inr (Or.inr ⟨k, e, l, he, hstage, rfl⟩)
  | sends handle sent hreturned hstage hsent =>
    subst hsent
    have hsame := send_documents { s with nextAck := s.nextAck + 1 } handle
      (.directApply e.update s.nextAck)
    exact Or.inl (hsame ▸ hj)
  | answered => exact Or.inl hj

theorem unloading_documents {s : Server Y} {unloaded : Bool} {name n : String} {j : Nat}
    (h : (s.unloading unloaded name).documents n = some j) : s.documents n = some j := by
  cases unloaded with
  | true => exact removeDocument_documents h
  | false => exact h

/-- An entry of the registry was there, or a task has inserted it. -/
theorem step_documents {s t : Server Y} {cfg : Configuration} {l : Label Y}
    (h : Server.step cfg s l = some t) {n : String} {j : Nat} (hj : t.documents n = some j) :
    s.documents n = some j ∨ s.Inserting n j := by
  cases step_cases h with
  | connect | hangup | timeout | connected | authenticated | clean | apply | unknown | recv | drop =>
    exact Or.inl hj
  | receive i data now sock hsock htask | leave i key sock est hsock htask hest =>
    rw [sendAll_documents] at hj
    exact Or.inl hj
  | register i doc queues sock r t hsock htask h => exact registerStep_documents hsock htask h hj
  | direct k doc queues e t he h => exact directStep_documents he h hj
  | external name data k hdoc =>
    rw [send_documents] at hj
    exact Or.inl hj
  | command k o a cmd batch b ha hbatch hstep =>
    exact Or.inl (unloading_documents (s := s.setActor k _) hj)
  | actor k l a b ha hplain hclosed hstep =>
    exact Or.inl (unloading_documents (s := s.setActor k _) hj)

/-! ## The invariant -/

theorem Names.step {s t : Server Y} {cfg : Configuration} {l : Label Y}
    (h : Server.step cfg s l = some t) {j : Nat} {name : String} (hname : s.Names j name) :
    t.Names j name := by
  obtain ⟨a, ha, hname⟩ := hname
  obtain ⟨b, hb, hturn⟩ := step_turn h ha
  refine ⟨b, hb, ?_⟩
  cases hturn with
  | told | recv | drop => exact hname
  | command o cmd batch b hbatch hstep => exact (Actor.step_name hstep).trans hname
  | actor l b hplain hstep => exact (Actor.step_name hstep).trans hname

theorem Named.inserting {s : Server Y} (hs : s.Named) {name : String} {j : Nat}
    (h : s.Inserting name j) : s.Names j name := by
  rcases h with ⟨i, sock, r, l, hsock, htask, hstage, rfl⟩ | ⟨k, e, l, he, hstage, rfl⟩
  · refine hs.registering i sock hsock r j htask ?_
    rw [hstage]
    exact decide_eq_true rfl
  · refine hs.edits k e he j ?_
    rw [hstage]
    exact decide_eq_true rfl

end Server

/-- A frame starts a request for the document of its routing key, or none. -/
theorem Socket.handleFrame_task (cfg : Configuration) (now : Nat) {sock : Socket}
    (htask : sock.task = .reading) (data : Bytes) :
    (sock.handleFrame Y cfg now data).1.task = .reading ∨
      ∃ request, (sock.handleFrame Y cfg now data).1.task = .connecting request ∧
        request.documentName = (parseRoutingKey request.key).1 := by
  have hframe := sock.handleFrame_cases Y cfg now data
  generalize sock.handleFrame Y cfg now data = handled at hframe ⊢
  cases hframe with
  | short | garbled | passes | unread => exact Or.inl htask
  | asks frame request hlength hparse hnone hty hrequest =>
    obtain ⟨hkey, hname⟩ := AuthRequest.parse_name hrequest
    exact Or.inr ⟨request, rfl, hkey ▸ hname⟩
  | waits frame hlength hparse hnone hty =>
    exact Or.inl (((sock.heard now).enqueue_steady cfg frame.routingKey data).2.trans htask)

/-- A socket goes on with its request, or gives up. -/
theorem Socket.connected_task (sock : Socket) (request : AuthRequest) (results : List HookResult) :
    (sock.connected Y request results).task = .authenticating request ∨
      (sock.connected Y request results).task = .reading := by
  unfold connected
  dsimp only
  split
  · exact Or.inr rfl
  · exact Or.inl rfl

theorem Socket.authenticated_task (sock : Socket) (request : AuthRequest)
    (results : List HookResult) (readOnly : Bool) (connId : Nat) :
    (sock.authenticated Y request results readOnly connId).task
        = .registering ⟨request, connId, readOnly, true, .document .lookup⟩ ∨
      (sock.authenticated Y request results readOnly connId).task = .reading := by
  unfold authenticated
  dsimp only
  split
  · exact Or.inr rfl
  · exact Or.inl rfl

theorem Socket.leave_task (sock : Socket) (est : Established) (htask : sock.task = .cleaning) :
    (sock.leave est).1.task = .cleaning := htask

theorem Socket.failed_task (sock : Socket) (r : Registration) :
    (sock.failed r).task = .registering { r with again := false, stage := .document .lookup } ∨
      (sock.failed r).task = .reading := by
  unfold failed
  split
  · exact Or.inl rfl
  · exact Or.inr rfl

namespace Server

/-- What a socket that has taken a turn, with this trace, is busy with now. -/
inductive Tasks (s : Server Y) (i : Nat) (sock : Socket) (l : Label Y) (trace : List SocketEvent) :
    SocketTask → Prop
  | rests (task : SocketTask) (hrests : task.request = none) : Tasks s i sock l trace task
  | connects (request : AuthRequest)
    (hname : request.documentName = (parseRoutingKey request.key).1) :
    Tasks s i sock l trace (.connecting request)
  | asks (request : AuthRequest) (results : List HookResult) (hlabel : l = .connected i results)
    (htask : sock.task = .connecting request) (hin : firstError results = none) (htrace : .onConnect request results ∈ trace) :
    Tasks s i sock l trace (.authenticating request)
  | starts (request : AuthRequest) (results : List HookResult) (readOnly : Bool)
    (rest : List SocketEvent) (hlabel : l = .authenticated i results readOnly)
    (htask : sock.task = .authenticating request) (hin : firstError results = none)
    (htrace : trace = sock.trace ++ .onAuthenticate request results readOnly :: rest) :
    Tasks s i sock l trace
      (.registering ⟨request, s.nextConnId, readOnly, true, .document .lookup⟩)
  | continues (r : Registration) (again : Bool) (stage : Stage) (htask : sock.task = .registering r)
    (hstage : ∀ j ack, stage ≠ .await j ack) :
    Tasks s i sock l trace (.registering { r with again := again, stage := stage })
  | awaits (doc : Y.Doc) (queues : Queues) (r : Registration) (j : Nat)
    (hlabel : l = .register i doc queues) (htask : sock.task = .registering r)
    (hstage : r.stage = .send j) (htrace : trace = (s.introduced i sock r j).trace) :
    Tasks s i sock l trace (.registering { r with stage := .await j s.nextAck })

/-- **What a turn leaves a socket busy with.** -/
theorem SocketTurn.tasks {cfg : Configuration} {s t : Server Y} {i : Nat} {sock sock' : Socket}
    {l : Label Y} (h : SocketTurn cfg s t i sock l sock') :
    sock' = sock ∨ Tasks s i sock l sock'.trace sock'.task := by
  have hreading : ∀ sock₁ : Socket, sock₁.task = .reading →
      Tasks s i sock l sock₁.trace sock₁.task := fun sock₁ htask₁ => .rests _ (by rw [htask₁]; rfl)
  have hfailed : ∀ (sock₁ : Socket) (r : Registration), sock.task = .registering r →
      Tasks s i sock l (sock₁.failed r).trace (sock₁.failed r).task := by
    intro sock₁ r htask
    rcases sock₁.failed_task r with hnext | hnext
    · rw [hnext]
      exact .continues r false _ htask fun j ack heq => by cases heq
    · exact hreading _ hnext
  cases h with
  | idle => exact Or.inl rfl
  | receive data now htask =>
    rcases sock.handleFrame_task (Y := Y) cfg now htask data with hnext | ⟨request, hnext, hname⟩
    · exact Or.inr (hreading _ hnext)
    · rw [hnext]
      exact Or.inr (.connects request hname)
  | hangup | timeout | clean => exact Or.inr (.rests _ rfl)
  | leave key est htask => exact Or.inr (.rests _ (by rw [sock.leave_task est htask]; rfl))
  | acked doc queues r j ack => exact Or.inr (hreading _ (sock.register_spec r j).2.1)
  | connected request results htask =>
    unfold Socket.connected
    dsimp only
    split
    next => exact Or.inr (hreading _ rfl)
    next hin =>
      exact Or.inr (.asks request results rfl htask hin
        (List.mem_append_right _ (List.mem_singleton_self _)))
  | authenticated request results readOnly htask =>
    unfold Socket.authenticated
    dsimp only
    split
    next => exact Or.inr (hreading _ rfl)
    next hin =>
      exact Or.inr (.starts request results readOnly _ rfl htask hin (List.append_assoc _ _ _))
  | calls doc queues r call next htask | finds doc queues r call j htask =>
    exact Or.inr (.continues r r.again _ htask fun k ack heq => by cases heq)
  | sends doc queues r j htask hstage =>
    exact Or.inr (.awaits doc queues r j rfl htask hstage rfl)
  | refused doc queues r j htask | lost doc queues r j ack htask =>
    exact Or.inr (hfailed _ r htask)

/-- A socket has a request from the routing key of a frame, and keeps it. -/
theorem SocketTurn.request {cfg : Configuration} {s t : Server Y} {i : Nat} {sock sock' : Socket}
    {l : Label Y} (h : SocketTurn cfg s t i sock l sock') {request : AuthRequest}
    (hrequest : sock'.task.request = some request) :
    sock.task.request = some request ∨
      request.documentName = (parseRoutingKey request.key).1 := by
  rcases h.tasks with rfl | hnext
  · exact Or.inl hrequest
  · generalize sock'.task = task at hnext hrequest
    cases hnext with
    | rests task hrests =>
      rw [hrests] at hrequest
      cases hrequest
    | connects request' hname =>
      cases hrequest
      exact Or.inr hname
    | asks request' results hlabel htask =>
      rw [htask]
      exact Or.inl hrequest
    | starts request' results readOnly rest hlabel htask =>
      rw [htask]
      exact Or.inl hrequest
    | continues r again stage htask | awaits doc queues r j hlabel htask =>
      rw [htask]
      exact Or.inl hrequest

/-- What a socket has established it had, or the `ack` has arrived. -/
theorem SocketTurn.established {cfg : Configuration} {s t : Server Y} {i : Nat}
    {sock sock' : Socket} {l : Label Y} (h : SocketTurn cfg s t i sock l sock') {est : Established}
    (hest : est ∈ sock'.client.established.vals) :
    est ∈ sock.client.established.vals ∨ ∃ (r : Registration) (j ack : Nat),
      sock.task = .registering r ∧ r.stage = .await j ack ∧ s.awaited j ack = some true ∧
      est = ⟨r.request.key, j, r.connId⟩ ∧ sock'.task = .reading := by
  cases h with
  | idle | hangup | timeout | calls | finds | sends | clean => exact Or.inl hest
  | receive data now htask =>
    rw [(Socket.handleFrame_steady Y cfg now htask data).1.established] at hest
    exact Or.inl hest
  | connected request results htask =>
    rw [(Socket.connected_steady Y htask results).established] at hest
    exact Or.inl hest
  | authenticated request results readOnly htask =>
    rw [(Socket.authenticated_steady Y htask results readOnly s.nextConnId).established] at hest
    exact Or.inl hest
  | refused doc queues r h htask =>
    rw [(Socket.failed_spec _ r).1] at hest
    exact Or.inl hest
  | lost doc queues r h ack htask =>
    rw [(Socket.failed_spec _ r).1] at hest
    exact Or.inl hest
  | acked doc queues r h ack htask hstage hacked =>
    rw [(sock.register_spec r h).1] at hest
    rcases List.mem_cons.mp hest with rfl | hold
    · exact Or.inr ⟨r, h, ack, htask, hstage, hacked, rfl, (sock.register_spec r h).2.1⟩
    · exact Or.inl (List.mem_filter.mp hold).1
  | leave key est' htask hest' => exact Or.inl (List.mem_filter.mp hest).1

theorem Named.registering_turn {s t : Server Y} (hs : s.Named) {cfg : Configuration} {l : Label Y}
    (h : Server.step cfg s l = some t) {i : Nat} {sock sock' : Socket}
    (hsock : s.sockets[i]? = some sock) (hturn : SocketTurn cfg s t i sock l sock')
    {r' : Registration} {j : Nat} (htask' : sock'.task = .registering r')
    (hj : r'.stage.holds j = true) : t.Names j r'.request.documentName := by
  -- a call holds the actor it found or spawned, and asked for it by the name
  have hcalls : ∀ r call, sock.task = .registering r → r.stage = .document call → ∀ j,
      (Stage.document call).holds j = true → s.Names j r.request.documentName :=
    fun r call htask hstage j hj => hs.registering i sock hsock r j htask (hstage ▸ hj)
  have hfailed : ∀ (sock₁ : Socket) (r : Registration), (sock₁.failed r).task ≠ .registering r' := by
    intro sock₁ r heq
    rcases sock₁.failed_task r with hnext | hnext <;> rw [hnext] at heq <;> cases heq
    cases hj
  cases hturn with
  | idle => exact (hs.registering i _ hsock r' j htask' hj).step h
  | receive data now htask =>
    rcases Socket.handleFrame_task (Y := Y) cfg now htask data with hnext | ⟨request, hnext, _⟩ <;>
      rw [hnext] at htask' <;> cases htask'
  | hangup htask => cases htask'
  | timeout now htask => cases htask'
  | connected request results htask =>
    rcases sock.connected_task (Y := Y) request results with hnext | hnext <;>
      rw [hnext] at htask' <;> cases htask'
  | authenticated request results readOnly htask =>
    rcases sock.authenticated_task (Y := Y) request results readOnly s.nextConnId with
      hnext | hnext <;> rw [hnext] at htask' <;> cases htask'
    cases hj
  | calls doc queues r call next htask hstage hcall =>
    cases htask'
    obtain ⟨u, hcall, hactors⟩ := hcall
    have hname := documentStep_names (hs.documents _) (hcalls r call htask hstage) hcall hj
    unfold Server.Names
    rw [hactors]
    exact hname
  | finds doc queues r call k htask hstage hcall =>
    cases htask'
    obtain ⟨u, hcall, hactors⟩ := hcall
    have hk : k = j := of_decide_eq_true hj
    have hname := documentStep_names (j := j) (hs.documents _) (hcalls r call htask hstage) hcall hk
    unfold Server.Names
    rw [hactors]
    exact hname
  | sends doc queues r k htask hstage =>
    cases htask'
    exact (hs.registering i sock hsock r j htask (hstage ▸ hj)).step h
  | refused doc queues r k htask => exact absurd htask' (hfailed _ r)
  | lost doc queues r k ack htask => exact absurd htask' (hfailed _ r)
  | acked doc queues r k ack htask =>
    rw [(sock.register_spec r k).2.1] at htask'
    cases htask'
  | leave key est htask =>
    rw [sock.leave_task est htask] at htask'
    cases htask'
  | clean htask => cases htask'

/-- **The step lemma.** -/
theorem Named.step {s t : Server Y} (hs : s.Named) {cfg : Configuration} {l : Label Y}
    (h : Server.step cfg s l = some t) : t.Named where
  documents name j hj := by
    rcases step_documents h hj with hold | hinserting
    · exact (hs.documents name j hold).step h
    · exact (hs.inserting hinserting).step h
  requests i sock' hsock' request hrequest := by
    rcases step_socket h hsock' with ⟨sock, hsock, hturn⟩ | ⟨_, now, _, rfl⟩
    · rcases hturn.request hrequest with hold | hname
      · exact hs.requests i sock hsock request hold
      · exact hname
    · cases hrequest
  registering i sock' hsock' r j htask' hj := by
    rcases step_socket h hsock' with ⟨sock, hsock, hturn⟩ | ⟨_, now, _, rfl⟩
    · exact hs.registering_turn h hsock hturn htask' hj
    · cases htask'
  established i sock' hsock' est hest := by
    rcases step_socket h hsock' with ⟨sock, hsock, hturn⟩ | ⟨_, now, _, rfl⟩
    · rcases hturn.established hest with hold | ⟨r, j, ack, htask, hstage, _, rfl, _⟩
      · exact (hs.established i sock hsock est hold).step h
      · have hname := hs.registering i sock hsock r j htask (by rw [hstage]; exact decide_eq_true rfl)
        rw [hs.requests i sock hsock r.request (by rw [htask]; rfl)] at hname
        exact hname.step h
    · cases hest
  edits k e' he' j hj := by
    rcases step_edit h he' with ⟨e, he, hturn⟩ | ⟨_, name, update, _, rfl⟩
    · have hcalls : ∀ call, e.stage = .document call → ∀ j,
          (Stage.document call).holds j = true → s.Names j e.name :=
        fun call hstage j hj => hs.edits k e he j (hstage ▸ hj)
      cases hturn with
      | idle => exact (hs.edits k _ he j hj).step h
      | calls doc queues call next hreturned hstage hcall =>
        obtain ⟨u, hcall, hactors⟩ := hcall
        have hname := documentStep_names (hs.documents e.name) (hcalls call hstage) hcall hj
        unfold Server.Names
        rw [hactors]
        exact hname
      | finds doc queues call h' hreturned hstage hcall =>
        obtain ⟨u, hcall, hactors⟩ := hcall
        have hfound : h' = j := of_decide_eq_true hj
        have hname := documentStep_names (hs.documents e.name) (hcalls call hstage) hcall hfound
        unfold Server.Names
        rw [hactors]
        exact hname
      | sends doc queues h' hreturned hstage hsent =>
        exact (hs.edits k e he j (hstage ▸ hj)).step h
      | refused => exact (hs.edits k e he j hj).step h
      | answered => exact (hs.edits k e he j hj).step h
    · cases hj

theorem build_named (Y : Yrs) : (build Y).Named where
  documents name j h := by cases h
  requests i sock h := by cases h
  registering i sock h := by cases h
  established i sock h := by cases h
  edits k e h := by cases h

end Server

end Hocuspocus
