import Hocuspocus.OneWriter.Sockets
import Hocuspocus.Server.Traces
import Hocuspocus.Server.InOrder

/-!
# When a socket times out

`idle_deadline` reads three fields of a connection. Here they are read off the run:
`established_at` is when the socket was upgraded, `last_message_at` when it was last
sent a frame, and `authenticated` is raised once the `on_authenticate` hooks have let
one of its requests in. So a client that has not authenticated cannot put the
deadline off, whatever it sends; one that has moves it with each frame, also with
frames that are dropped. A socket that has timed out is read no more.
-/

namespace Hocuspocus

variable {Y : Yrs}

/-- The three fields `idle_deadline` reads. -/
def ClientConnection.clock (c : ClientConnection) : Nat × Nat × Bool :=
  (c.establishedAt, c.lastMessageAt, c.authenticated)

/-- The `on_authenticate` hooks have let a request of the socket in. -/
def Socket.Passed (sock : Socket) : Prop :=
  ∃ request results readOnly, .onAuthenticate request results readOnly ∈ sock.trace ∧
    firstError results = none

/-- The clock of the socket shows these times, and the flag whether it has passed. -/
structure Socket.Clocked (sock : Socket) (times : List Nat) : Prop where
  first : times.head? = some sock.client.establishedAt
  last : times.getLast? = some sock.client.lastMessageAt
  passed : sock.client.authenticated = true ↔ sock.Passed

theorem Socket.Clocked.of_clock {sock : Socket} {times : List Nat} {first last : Nat} {flag : Bool}
    (hclock : sock.client.clock = (first, last, flag)) (hfirst : times.head? = some first)
    (hlast : times.getLast? = some last) (hpassed : flag = true ↔ sock.Passed) :
    sock.Clocked times := by
  cases hclock
  exact ⟨hfirst, hlast, hpassed⟩

/-- What is added to a trace lets nobody in. -/
def SocketEvent.Bars (e : SocketEvent) : Prop :=
  ∀ request results readOnly, e = .onAuthenticate request results readOnly →
    firstError results ≠ none

/-- The loop of the socket has ended. -/
def SocketTask.Over (task : SocketTask) : Prop := task = .cleaning ∨ task = .ended

theorem Socket.Passed.mono {sock sock' : Socket} (h : sock.Passed)
    (hmore : sock.trace <+: sock'.trace) : sock'.Passed := by
  obtain ⟨request, results, readOnly, hmem, hin⟩ := h
  exact ⟨request, results, readOnly, hmore.subset hmem, hin⟩

theorem Socket.Extends.passed_iff {sock sock' : Socket}
    (h : sock.Extends SocketEvent.Bars sock') : sock'.Passed ↔ sock.Passed := by
  obtain ⟨more, htrace, hbars⟩ := h
  constructor
  · rintro ⟨request, results, readOnly, hmem, hin⟩
    rw [htrace] at hmem
    rcases List.mem_append.mp hmem with hold | hnew
    · exact ⟨request, results, readOnly, hold, hin⟩
    · exact absurd hin (hbars _ hnew request results readOnly rfl)
  · exact fun hpassed => hpassed.mono ⟨more, htrace.symm⟩

/-! ## The clock of one socket -/

theorem ClientConnection.release_clock (pending : List Bytes) : ∀ c : ClientConnection,
    (c.release pending).clock = c.clock := by
  induction pending with
  | nil => exact fun _ => rfl
  | cons msg pending ih => exact fun c => ih _

theorem Socket.failed_clock (sock : Socket) (r : Registration) :
    (sock.failed r).client.clock = sock.client.clock := by
  unfold Socket.failed
  split <;> rfl

theorem Socket.register_clock (sock : Socket) (r : Registration) (doc : Nat) :
    (sock.register r doc).1.client.clock = sock.client.clock := by
  unfold Socket.register
  dsimp only
  split
  next => rfl
  next pending hpending => exact ClientConnection.release_clock pending.frames _

/-- Every frame is a sign of life. -/
theorem Socket.handleFrame_clock (cfg : Configuration) (now : Nat) (sock : Socket) (data : Bytes) :
    (sock.handleFrame Y cfg now data).1.client.clock
      = (sock.client.establishedAt, now, sock.client.authenticated) := by
  have hframe := sock.handleFrame_cases Y cfg now data
  generalize sock.handleFrame Y cfg now data = handled at hframe ⊢
  cases hframe with
  | short | garbled | passes | asks | unread => rfl
  | waits frame hlength hparse hnone hty =>
    unfold Socket.enqueue
    dsimp only
    split
    · rfl
    · split <;> rfl

/-- The hooks have run: their answer decides. -/
theorem Socket.authenticated_clock (sock : Socket) (request : AuthRequest)
    (results : List HookResult) (readOnly : Bool) (connId : Nat) :
    (sock.authenticated Y request results readOnly connId).client.clock
      = (sock.client.establishedAt, sock.client.lastMessageAt,
          sock.client.authenticated || (firstError results).isNone) := by
  unfold Socket.authenticated
  dsimp only
  split
  next e herror =>
    rw [herror, Option.isNone_some, Bool.or_false]
    rfl
  next herror =>
    rw [herror, Option.isNone_none, Bool.or_true]
    rfl

theorem Socket.authenticated_passed (sock : Socket) (request : AuthRequest)
    (results : List HookResult) (readOnly : Bool) (connId : Nat) :
    (sock.authenticated Y request results readOnly connId).Passed ↔
      sock.Passed ∨ firstError results = none := by
  have hextends : sock.Extends (fun e => (∃ msg, e = .out msg) ∨
      e = .onAuthenticate request results readOnly)
      (sock.authenticated Y request results readOnly connId) :=
    sock.authenticated_extends (fun msg => Or.inl ⟨msg, rfl⟩) request results readOnly connId
      (Or.inr rfl)
  obtain ⟨more, htrace, hmore⟩ := hextends
  constructor
  · rintro ⟨request', results', readOnly', hmem, hin⟩
    rw [htrace] at hmem
    rcases List.mem_append.mp hmem with hold | hnew
    · exact Or.inl ⟨request', results', readOnly', hold, hin⟩
    · rcases hmore _ hnew with ⟨msg, hout⟩ | hasked
      · cases hout
      · cases hasked
        exact Or.inr hin
  · rintro (hpassed | hin)
    · exact hpassed.mono ⟨more, htrace.symm⟩
    · refine ⟨request, results, readOnly, ?_, hin⟩
      unfold Socket.authenticated
      dsimp only
      rw [hin]
      simp [Socket.emit]

namespace Server

/-- Only the `on_authenticate` hooks let somebody in. -/
theorem SocketTurn.passed_iff {cfg : Configuration} {s t : Server Y} {i : Nat}
    {sock sock' : Socket} {l : Label Y} (h : SocketTurn cfg s t i sock l sock')
    (hauthenticated : ∀ results readOnly, l ≠ .authenticated i results readOnly) :
    sock'.Passed ↔ sock.Passed := by
  obtain ⟨more, htrace, hmore⟩ := h.traced
  refine Socket.Extends.passed_iff ⟨more, htrace, fun e he request results readOnly heq => ?_⟩
  subst heq
  cases hmore _ he with
  | onAuthenticate => exact absurd rfl (hauthenticated results readOnly)

/-- Only frames and the `on_authenticate` hooks touch the clock. -/
theorem SocketTurn.clock {cfg : Configuration} {s t : Server Y} {i : Nat} {sock sock' : Socket}
    {l : Label Y} (h : SocketTurn cfg s t i sock l sock')
    (hreceive : ∀ data now, l ≠ .receive i data now)
    (hauthenticated : ∀ results readOnly, l ≠ .authenticated i results readOnly) :
    sock'.client.clock = sock.client.clock := by
  cases h with
  | idle | hangup | timeout | calls | finds | sends | leave | clean => rfl
  | receive data now => exact absurd rfl (hreceive data now)
  | authenticated request results readOnly => exact absurd rfl (hauthenticated results readOnly)
  | connected request results htask =>
    unfold Socket.connected
    dsimp only
    split <;> rfl
  | refused doc queues r j htask hstage => exact Socket.failed_clock _ r
  | lost doc queues r j ack htask => exact sock.failed_clock r
  | acked doc queues r j ack htask => exact sock.register_clock r j

theorem step_authenticated {s t : Server Y} {cfg : Configuration} {i : Nat}
    {results : List HookResult} {readOnly : Bool}
    (h : Server.step cfg s (.authenticated i results readOnly) = some t) :
    ∃ sock request, s.sockets[i]? = some sock ∧ sock.task = .authenticating request ∧
      t.sockets = s.sockets.set i
        (sock.authenticated Y request results readOnly s.nextConnId) := by
  cases step_cases h with
  | authenticated i results readOnly sock request hsock htask =>
    exact ⟨sock, request, hsock, htask, rfl⟩

theorem SocketTurn.over {cfg : Configuration} {s t : Server Y} {i : Nat} {sock sock' : Socket}
    {l : Label Y} (h : SocketTurn cfg s t i sock l sock') (hover : sock.task.Over) :
    sock'.task.Over := by
  have hbusy : ∀ {task : SocketTask}, sock.task = task → task.Over := fun heq => heq ▸ hover
  cases h with
  | idle | leave => exact hover
  | hangup | timeout => exact Or.inl rfl
  | clean => exact Or.inr rfl
  | receive data now htask => rcases hbusy htask with h | h <;> cases h
  | connected request results htask => rcases hbusy htask with h | h <;> cases h
  | authenticated request results readOnly htask => rcases hbusy htask with h | h <;> cases h
  | calls doc queues r call next htask | finds doc queues r call j htask
  | sends doc queues r j htask | refused doc queues r j htask | acked doc queues r j ack htask
  | lost doc queues r j ack htask => rcases hbusy htask with h | h <;> cases h

/-! ## The times of a socket -/

/-- When the socket `i` is upgraded, and when it is sent frames. -/
def heardAt (i : Nat) (s : Server Y) : Label Y → List Nat
  | .connect now => if s.sockets.length = i then [now] else []
  | .receive k _ now => if k = i then [now] else []
  | _ => []

theorem heardAt_other {s : Server Y} {i : Nat} {l : Label Y}
    (hreceive : ∀ data now, l ≠ .receive i data now) (hthere : i < s.sockets.length) :
    s.heardAt i l = [] := by
  cases l with
  | connect now => exact if_neg (Nat.ne_of_gt hthere)
  | receive k data now => exact if_neg fun heq => hreceive data now (by rw [heq])
  | hangup | timeout | connected | authenticated | register | leave | clean | apply | direct
  | external | recv | command | actor | drop => rfl

/-- The times the socket `i` was heard at; there is none before it is there. -/
def Timed (i : Nat) (s : Server Y) (times : List Nat) : Prop :=
  match s.sockets[i]? with
  | some sock => sock.Clocked times
  | none => times = []

theorem Timed.clocked {s : Server Y} {i : Nat} {times : List Nat} (hs : s.Timed i times)
    {sock : Socket} (hsock : s.sockets[i]? = some sock) : sock.Clocked times := by
  rw [Timed, hsock] at hs
  exact hs

/-- The socket takes a turn. -/
theorem Timed.turn {s t : Server Y} {cfg : Configuration} {l : Label Y} {i : Nat}
    {times : List Nat} (h : Server.step cfg s l = some t) {sock sock' : Socket}
    (hclocked : sock.Clocked times) (hsock : s.sockets[i]? = some sock)
    (hsock' : t.sockets[i]? = some sock') (hturn : SocketTurn cfg s t i sock l sock') :
    sock'.Clocked (times ++ s.heardAt i l) := by
  obtain ⟨hlt, _⟩ := List.getElem?_eq_some_iff.mp hsock
  have hset : ∀ {u : List Socket} {new : Socket}, u = s.sockets.set i new → u[i]? = some sock' →
      sock' = new := by
    rintro u new rfl hget
    rw [List.getElem?_set_self hlt] at hget
    exact (Option.some.inj hget).symm
  by_cases hreceive : ∃ data now, l = .receive i data now
  · obtain ⟨data, now, rfl⟩ := hreceive
    obtain ⟨old, hold, _, hsockets⟩ := step_receive h
    obtain rfl : sock = old := Option.some.inj (hsock.symm.trans hold)
    have hpassed := hturn.passed_iff fun _ _ hl => by cases hl
    obtain rfl := hset hsockets hsock'
    have hheard : s.heardAt i (.receive i data now) = [now] := if_pos rfl
    rw [hheard]
    refine .of_clock (sock.handleFrame_clock cfg now data) ?_ ?_ ?_
    · rw [List.head?_append, hclocked.first, Option.some_or]
    · exact List.getLast?_concat
    · exact hclocked.passed.trans hpassed.symm
  · have hother := heardAt_other (fun data now hl => hreceive ⟨data, now, hl⟩) hlt
    rw [hother, List.append_nil]
    by_cases hasked : ∃ results readOnly, l = .authenticated i results readOnly
    · obtain ⟨results, readOnly, rfl⟩ := hasked
      obtain ⟨old, request, hold, _, hsockets⟩ := step_authenticated h
      obtain rfl : sock = old := Option.some.inj (hsock.symm.trans hold)
      obtain rfl := hset hsockets hsock'
      refine .of_clock (sock.authenticated_clock request results readOnly _) hclocked.first
        hclocked.last ?_
      rw [sock.authenticated_passed, Bool.or_eq_true, Option.isNone_iff_eq_none, hclocked.passed]
    · have hauthenticated : ∀ results readOnly, l ≠ .authenticated i results readOnly :=
        fun results readOnly hl => hasked ⟨results, readOnly, hl⟩
      refine .of_clock (hturn.clock (fun data now hl => hreceive ⟨data, now, hl⟩) hauthenticated)
        hclocked.first hclocked.last ?_
      exact hclocked.passed.trans (hturn.passed_iff hauthenticated).symm

/-- **The step lemma.** -/
theorem Timed.step {s t : Server Y} {cfg : Configuration} {l : Label Y} {i : Nat}
    {times : List Nat} (hs : s.Timed i times) (h : Server.step cfg s l = some t) :
    t.Timed i (times ++ s.heardAt i l) := by
  unfold Timed
  split
  next sock' hsock' =>
    rcases step_socket h hsock' with ⟨sock, hsock, hturn⟩ | ⟨hi, now, rfl, rfl⟩
    · exact Timed.turn h (hs.clocked hsock) hsock hsock' hturn
    · -- the socket is new
      have hnone : s.sockets[i]? = none := List.getElem?_eq_none (Nat.le_of_eq hi.symm)
      have htimes : times = [] := by
        rw [Timed, hnone] at hs
        exact hs
      have hheard : s.heardAt i (.connect now) = [now] := if_pos hi.symm
      rw [htimes, hheard]
      refine ⟨rfl, rfl, ?_⟩
      constructor
      · intro hfalse
        cases hfalse
      · rintro ⟨request, results, readOnly, hmem, _⟩
        cases hmem
  next hnone' =>
    have hlength := sockets_length h
    have hout : s.sockets.length ≤ i := hlength.trans (List.getElem?_eq_none_iff.mp hnone')
    have hnone : s.sockets[i]? = none := List.getElem?_eq_none hout
    rw [Timed, hnone] at hs
    rw [hs, List.nil_append]
    cases l with
    | receive k data now =>
      refine if_neg fun heq => ?_
      obtain ⟨sock, hsock, _⟩ := step_receive h
      rw [heq, hnone] at hsock
      cases hsock
    | connect now =>
      refine if_neg fun heq => ?_
      cases step_cases h with
      | connect =>
        rw [List.getElem?_append_right hout, heq, Nat.sub_self] at hnone'
        cases hnone'
    | hangup | timeout | connected | authenticated | register | leave | clean | apply | direct
    | external | recv | command | actor | drop => rfl

/-- A socket that has timed out is over for good. -/
theorem over_of_run {cfg : Configuration} {i : Nat} {s t : Server Y} {ls : List (Label Y)}
    (hrun : Lts.exec (Server.step cfg) s ls = some t)
    (hs : ∃ sock, s.sockets[i]? = some sock ∧ sock.task.Over) :
    ∃ sock, t.sockets[i]? = some sock ∧ sock.task.Over := by
  refine Lts.exec_invariant (I := fun u : Server Y => ∃ sock, u.sockets[i]? = some sock ∧
    sock.task.Over) (fun u l v h hu => ?_) hrun hs
  obtain ⟨sock, hsock, hover⟩ := hu
  have hlength := sockets_length h
  obtain ⟨hlt, _⟩ := List.getElem?_eq_some_iff.mp hsock
  have hsock' : v.sockets[i]? = some v.sockets[i] := List.getElem?_eq_getElem (by omega)
  rcases step_socket h hsock' with ⟨old, hold, hturn⟩ | ⟨hi, _⟩
  · obtain rfl : sock = old := Option.some.inj (hsock.symm.trans hold)
    exact ⟨_, hsock', hturn.over hover⟩
  · omega

/-- The timer may fire while the socket reads, and ends its loop. -/
theorem timeout_enabled {cfg : Configuration} {s : Server Y} {i : Nat} {sock : Socket}
    (hsock : s.sockets[i]? = some sock) (now : Nat) :
    (∃ t, Server.step cfg s (.timeout i now) = some t) ↔
      sock.task = .reading ∧ sock.client.idleDeadline cfg ≤ now := by
  constructor
  · rintro ⟨t, h⟩
    cases step_cases h with
    | timeout _ _ old hold htask hdeadline =>
      obtain rfl : sock = old := Option.some.inj (hsock.symm.trans hold)
      exact ⟨htask, hdeadline⟩
  · rintro ⟨htask, hdeadline⟩
    obtain ⟨client, task, trace⟩ := sock
    cases htask
    rw [Server.step, hsock]
    exact ⟨_, if_pos hdeadline⟩

end Server

/-- **The idle deadline.** A socket of a run may time out while it reads, from
`timeout` after it was opened on, or, once the `on_authenticate` hooks have let a
request of it in, from `timeout` after it was last sent a frame; and when it has
timed out, no frame of it is read any more. -/
theorem idle_deadline_exact {cfg : Configuration} {ls : List (Server.Label Y)} {s : Server Y}
    (hrun : Lts.exec (Server.step cfg) (Server.build Y) ls = some s) {i : Nat} {sock : Socket}
    (hsock : s.sockets[i]? = some sock) :
    ∃ opened last,
      (Lts.record (Server.step cfg) (Server.heardAt i) (Server.build Y) ls).head? = some opened ∧
      (Lts.record (Server.step cfg) (Server.heardAt i) (Server.build Y) ls).getLast? = some last ∧
      (¬ sock.Passed → ∀ now, (∃ t, Server.step cfg s (.timeout i now) = some t) ↔
        sock.task = .reading ∧ opened + cfg.timeout ≤ now) ∧
      (sock.Passed → ∀ now, (∃ t, Server.step cfg s (.timeout i now) = some t) ↔
        sock.task = .reading ∧ last + cfg.timeout ≤ now) ∧
      ∀ now t later u, Server.step cfg s (.timeout i now) = some t →
        Lts.exec (Server.step cfg) t later = some u →
        ∀ data now', Server.step cfg u (.receive i data now') = none := by
  have hend := Lts.exec_record (I := fun (u : Server Y) times => u.Timed i times)
    (C := fun _ _ _ => True) (w := []) (fun u l v times h _ hu => hu.step h)
    (Lts.along_of_forall (fun _ _ _ _ => trivial) ls (Server.build Y)) hrun rfl
  rw [List.nil_append] at hend
  have hclocked := hend.clocked hsock
  refine ⟨_, _, hclocked.first, hclocked.last, fun hnot now => ?_, fun hpassed now => ?_,
    fun now t later u htimeout hlater data now' => ?_⟩
  · have hflag : sock.client.authenticated = false :=
      Bool.eq_false_iff.mpr fun hflag => hnot (hclocked.passed.mp hflag)
    have hdeadline : sock.client.idleDeadline cfg = sock.client.establishedAt + cfg.timeout := by
      rw [ClientConnection.idleDeadline, hflag]
      rfl
    rw [Server.timeout_enabled hsock, hdeadline]
  · have hdeadline : sock.client.idleDeadline cfg = sock.client.lastMessageAt + cfg.timeout := by
      rw [ClientConnection.idleDeadline, hclocked.passed.mpr hpassed]
      rfl
    rw [Server.timeout_enabled hsock, hdeadline]
  · obtain ⟨hlt, _⟩ := List.getElem?_eq_some_iff.mp hsock
    have hended : ∃ sock', t.sockets[i]? = some sock' ∧ sock'.task.Over := by
      cases Server.step_cases htimeout with
      | timeout _ _ old hold htask hdeadline =>
        exact ⟨_, List.getElem?_set_self hlt, Or.inl rfl⟩
    obtain ⟨last, hlast, hover⟩ := Server.over_of_run hlater hended
    -- a frame is read by a socket that reads
    refine Option.eq_none_iff_forall_ne_some.mpr fun v hread => ?_
    obtain ⟨old, hold, hreads, _⟩ := Server.step_receive hread
    obtain rfl : last = old := Option.some.inj (hlast.symm.trans hold)
    rcases hover with hover | hover <;> rw [hreads] at hover <;> cases hover

/-- A client sends an edit of a document it has not asked for. -/
def unasked : List (Server.Label OneWriter.yrs) :=
  [.connect 5, .receive 0 (OneWriter.editFrame 0) 50000]

/-- It does not put its deadline off. -/
theorem idle_deadline_exact_unasked :
    (∃ t, Server.step {} (OneWriter.serve {} unasked) (.timeout 0 60005) = some t) ∧
      ¬ ∃ t, Server.step {} (OneWriter.serve {} unasked) (.timeout 0 60004) = some t := by
  have hruns : Lts.exec (Server.step {}) (Server.build OneWriter.yrs) unasked
      = some (OneWriter.serve {} unasked) := Lts.exec_reach (by decide +kernel)
  have hsome : ((OneWriter.serve {} unasked).sockets[0]?).map
      (fun sock => (decide (sock.task = .reading), sock.trace.isEmpty)) = some (true, true) := by
    decide +kernel
  have hfirst : (Lts.record (Server.step {}) (Server.heardAt 0) (Server.build OneWriter.yrs)
      unasked).head? = some 5 := by decide +kernel
  obtain ⟨sock, hsock, hboth⟩ := Option.map_eq_some_iff.mp hsome
  obtain ⟨hreads, hempty⟩ : _ ∧ _ := by simpa only [Prod.mk.injEq] using hboth
  have htask : sock.task = .reading := of_decide_eq_true hreads
  obtain ⟨opened, last, hopened, _, hunasked, _⟩ := idle_deadline_exact hruns hsock
  obtain rfl : opened = 5 := Option.some.inj (hopened.symm.trans hfirst)
  have hnot : ¬ sock.Passed := by
    rintro ⟨request, results, readOnly, hmem, _⟩
    rw [List.isEmpty_iff.mp hempty] at hmem
    cases hmem
  refine ⟨(hunasked hnot 60005).mpr ⟨htask, Nat.le_refl _⟩, fun hfires => ?_⟩
  have hlate : 5 + 60000 ≤ 60004 := ((hunasked hnot 60004).mp hfires).2
  omega

end Hocuspocus
