import Hocuspocus.Server.Backlog
import Hocuspocus.Server.Names

/-!
# What a socket traces

A turn of a socket adds to its trace: the hooks it has run, what goes out, the
commands it sends. `Server.Traces` says of each of these what the socket was
busy with; `SocketTurn.traced` is the inversion the invariants on traces use.
-/

namespace Hocuspocus

variable {Y : Yrs}

/-- What a turn of the socket adds to its trace. -/
inductive Server.Traces (s : Server Y) (i : Nat) (sock : Socket) :
    Server.Label Y → SocketEvent → Prop
  | out (l : Server.Label Y) (msg : OutMsg) : Traces s i sock l (.out msg)
  | onConnect (request : AuthRequest) (results : List HookResult)
    (htask : sock.task = .connecting request) :
    Traces s i sock (.connected i results) (.onConnect request results)
  | onAuthenticate (request : AuthRequest) (results : List HookResult) (readOnly : Bool)
    (htask : sock.task = .authenticating request) :
    Traces s i sock (.authenticated i results readOnly) (.onAuthenticate request results readOnly)
  | introduces (doc : Y.Doc) (queues : Queues) (r : Registration) (j : Nat)
    (htask : sock.task = .registering r) (hstage : r.stage = .send j) :
    Traces s i sock (.register i doc queues)
      (.command j (.addConnection (sock.connHandle i r) s.nextAck))
  | passes (data : Bytes) (now : Nat) (frame : IncomingFrame) (est : Established)
    (htask : sock.task = .reading) (hlength : data.length ≠ 1)
    (hparse : IncomingFrame.parse Y data = some frame)
    (hest : sock.client.established.get? frame.routingKey = some est) :
    Traces s i sock (.receive i data now) (.command est.doc (.clientFrame est.connId data))
  | drains (doc : Y.Doc) (queues : Queues) (r : Registration) (j ack : Nat) (data : Bytes)
    (htask : sock.task = .registering r) (hstage : r.stage = .await j ack)
    (hacked : s.awaited j ack = some true) (hdata : data ∈ sock.client.queued r.request.key) :
    Traces s i sock (.register i doc queues) (.command j (.clientFrame r.connId data))
  | leaves (key : String) (est : Established)
    (hest : sock.client.established.get? key = some est) :
    Traces s i sock (.leave i key) (.command est.doc (.removeConnection est.connId))

/-- The trace of the second goes on from that of the first, with such events. -/
def Socket.Extends (P : SocketEvent → Prop) (sock sock' : Socket) : Prop :=
  ∃ more, sock'.trace = sock.trace ++ more ∧ ∀ e ∈ more, P e

namespace Socket.Extends

variable {P : SocketEvent → Prop}

theorem same {sock sock' : Socket} (h : sock'.trace = sock.trace) : sock.Extends P sock' :=
  ⟨[], h.trans (List.append_nil _).symm, fun _ he => absurd he List.not_mem_nil⟩

theorem event {sock sock' : Socket} {e : SocketEvent} (h : sock'.trace = sock.trace ++ [e])
    (he : P e) : sock.Extends P sock' := by
  refine ⟨[e], h, fun other hother => ?_⟩
  rw [List.mem_singleton.mp hother]
  exact he

theorem trans {sock₁ sock₂ sock₃ : Socket} (h : sock₁.Extends P sock₂)
    (h' : sock₂.Extends P sock₃) : sock₁.Extends P sock₃ := by
  obtain ⟨more, htrace, hmore⟩ := h
  obtain ⟨more', htrace', hmore'⟩ := h'
  refine ⟨more ++ more', ?_, fun e he => ?_⟩
  · rw [htrace', htrace, List.append_assoc]
  · rcases List.mem_append.mp he with he | he
    · exact hmore e he
    · exact hmore' e he

theorem mem {sock sock' : Socket} (h : sock.Extends P sock') {e : SocketEvent}
    (he : e ∈ sock'.trace) : e ∈ sock.trace ∨ P e := by
  obtain ⟨more, htrace, hmore⟩ := h
  rw [htrace] at he
  rcases List.mem_append.mp he with he | he
  · exact Or.inl he
  · exact Or.inr (hmore e he)

end Socket.Extends

namespace Socket

variable {P : SocketEvent → Prop} (hout : ∀ msg, P (.out msg))

include hout

theorem deny_extends (sock : Socket) (rawKey reason : String) :
    sock.Extends P (sock.deny Y rawKey reason) := by
  refine ⟨[_, _], List.append_assoc _ _ _, fun e he => ?_⟩
  rcases List.mem_cons.mp he with rfl | he
  · exact hout _
  · rw [List.mem_singleton.mp he]
    exact hout _

theorem failed_extends (sock : Socket) (r : Registration) : sock.Extends P (sock.failed r) := by
  unfold failed
  split
  · exact .same rfl
  · exact .event rfl (hout _)

theorem enqueue_extends (cfg : Configuration) (sock : Socket) (rawKey : String) (data : Bytes) :
    sock.Extends P (sock.enqueue cfg rawKey data) := by
  unfold enqueue
  dsimp only
  split
  · exact .event rfl (hout _)
  · split
    · exact .event rfl (hout _)
    · exact .same rfl

theorem connected_extends (sock : Socket) (request : AuthRequest) (results : List HookResult)
    (h : P (.onConnect request results)) : sock.Extends P (sock.connected Y request results) := by
  have hemit : sock.Extends P (sock.emit (.onConnect request results)) := .event rfl h
  unfold connected
  dsimp only
  split
  · exact hemit.trans (deny_extends hout _ _ _)
  · exact hemit

theorem authenticated_extends (sock : Socket) (request : AuthRequest) (results : List HookResult)
    (readOnly : Bool) (connId : Nat) (h : P (.onAuthenticate request results readOnly)) :
    sock.Extends P (sock.authenticated Y request results readOnly connId) := by
  have hemit : sock.Extends P (sock.emit (.onAuthenticate request results readOnly)) := .event rfl h
  unfold authenticated
  dsimp only
  split
  · exact hemit.trans (deny_extends hout _ _ _)
  · exact hemit.trans (.event rfl (hout _))

end Socket

namespace Server

/-- **What a turn adds to the trace.** -/
theorem SocketTurn.traced {cfg : Configuration} {s t : Server Y} {i : Nat} {sock sock' : Socket}
    {l : Label Y} (h : SocketTurn cfg s t i sock l sock') :
    sock.Extends (s.Traces i sock l) sock' := by
  have hout : ∀ msg, s.Traces i sock l (.out msg) := fun msg => .out l msg
  cases h with
  | idle | hangup | calls | finds | clean => exact .same rfl
  | timeout now htask => exact .event rfl (hout _)
  | connected request results htask =>
    exact sock.connected_extends hout request results (.onConnect request results htask)
  | authenticated request results readOnly htask =>
    exact sock.authenticated_extends hout request results readOnly s.nextConnId
      (.onAuthenticate request results readOnly htask)
  | sends doc queues r j htask hstage => exact .event rfl (.introduces doc queues r j htask hstage)
  | refused doc queues r j htask hstage =>
    have hemit : sock.Extends (s.Traces i sock (.register i doc queues)) (s.introduced i sock r j) :=
      .event rfl (.introduces doc queues r j htask hstage)
    exact hemit.trans (Socket.failed_extends hout _ r)
  | lost doc queues r j ack htask => exact sock.failed_extends hout r
  | leave key est htask hest => exact .event rfl (.leaves key est hest)
  | acked doc queues r j ack htask hstage hacked =>
    refine ⟨_, (sock.register_flow r j).2, fun e he => ?_⟩
    obtain ⟨data, hdata, rfl⟩ := List.mem_map.mp he
    exact .drains doc queues r j ack data htask hstage hacked hdata
  | receive data now htask =>
    have hframe := sock.handleFrame_cases Y cfg now data
    generalize sock.handleFrame Y cfg now data = handled at hframe ⊢
    cases hframe with
    | short | garbled | asks | unread => exact .same rfl
    | passes frame est hlength hparse hest =>
      exact .event rfl (.passes data now frame est htask hlength hparse hest)
    | waits frame hlength hparse hnone hty =>
      obtain ⟨more, htrace, hmore⟩ := (sock.heard now).enqueue_extends hout cfg frame.routingKey data
      exact ⟨more, htrace, hmore⟩

/-- A socket forgets nothing of what it has done. -/
theorem SocketTurn.grows {cfg : Configuration} {s t : Server Y} {i : Nat} {sock sock' : Socket}
    {l : Label Y} (h : SocketTurn cfg s t i sock l sock') : sock.trace <+: sock'.trace := by
  obtain ⟨more, htrace, _⟩ := h.traced
  exact ⟨more, htrace.symm⟩

end Server

end Hocuspocus
