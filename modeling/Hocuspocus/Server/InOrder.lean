import Hocuspocus.Server.Backlog
import Hocuspocus.Server.Names

/-!
# Frames reach the actor in order

A frame for a routing key goes to the actor at once if the key is established,
and waits in the queue of the key if not; `authenticate` passes the queue on in
the same step in which it establishes the key. So what was passed on, followed
by what is queued, is what has arrived (`Flow`), as long as `enqueue` has room.
An `Auth` frame of a key that is still to be established is no part of that.

`Traffic` is what this rests on. The queue of an established key is empty, and
a key that is not established has had nothing passed on; a connection that is
established was added to the actor by an `AddConnection` the actor has acked.
-/

namespace Hocuspocus

variable {Y : Yrs}

/-- A frame of two or more bytes for the routing key. -/
def addressed (Y : Yrs) (key : String) (data : Bytes) : Bool :=
  decide (2 ≤ data.length) &&
    (IncomingFrame.parse Y data).any fun frame => frame.routingKey = key

/-- One that is passed on, now or when the key is established. -/
def Socket.takes (Y : Yrs) (sock : Socket) (key : String) (data : Bytes) : Bool :=
  addressed Y key data && (sock.client.established.contains key ||
    (IncomingFrame.parse Y data).any fun frame => frame.messageType ≠ .auth)

/-- The frames for the key that were passed to an actor. -/
def sent (Y : Yrs) (key : String) (trace : List SocketEvent) : List Bytes :=
  trace.filterMap fun
    | .command _ (.clientFrame _ data) => if addressed Y key data then some data else none
    | _ => none

/-- What a step of the server brings the socket for the key. -/
def Server.arrival (i : Nat) (key : String) (s : Server Y) : Server.Label Y → List Bytes
  | .receive k data _ =>
    match s.sockets[k]? with
    | some sock => if k = i ∧ sock.takes Y key data = true then [data] else []
    | none => []
  | _ => []

/-- No limit is exceeded by the frame the socket receives. -/
def Server.WithinLimits (cfg : Configuration) (i : Nat) (s : Server Y) : Server.Label Y → Prop
  | .receive k data _ => ∀ sock frame, k = i → s.sockets[k]? = some sock →
      IncomingFrame.parse Y data = some frame → frame.messageType ≠ .auth →
      sock.client.established.get? frame.routingKey = none →
      sock.client.Room cfg frame.routingKey data
  | _ => True

/-! ## Frames and their keys -/

theorem addressed_iff {key : String} {data : Bytes} {frame : IncomingFrame}
    (hparse : IncomingFrame.parse Y data = some frame) :
    addressed Y key data = true ↔ 2 ≤ data.length ∧ frame.routingKey = key := by
  rw [addressed, hparse, Option.any_some, Bool.and_eq_true, decide_eq_true_eq, decide_eq_true_eq]

/-- A frame has one routing key. -/
theorem addressed_unique {key key' : String} {data : Bytes} (h : addressed Y key data = true)
    (h' : addressed Y key' data = true) : key = key' := by
  cases hparse : IncomingFrame.parse Y data with
  | none =>
    rw [addressed, hparse, Option.any_none, Bool.and_false] at h
    cases h
  | some frame =>
    exact ((addressed_iff hparse).mp h).2.symm.trans ((addressed_iff hparse).mp h').2

theorem takes_iff {sock : Socket} {key : String} {data : Bytes} {frame : IncomingFrame}
    (hparse : IncomingFrame.parse Y data = some frame) :
    sock.takes Y key data = true ↔ (2 ≤ data.length ∧ frame.routingKey = key) ∧
      ((∃ est, sock.client.established.get? key = some est) ∨ frame.messageType ≠ .auth) := by
  rw [Socket.takes, Bool.and_eq_true, addressed_iff hparse, hparse, Option.any_some,
    Bool.or_eq_true, Keyed.contains_eq_true, decide_eq_true_eq]

@[simp] theorem sent_append (key : String) (trace more : List SocketEvent) :
    sent Y key (trace ++ more) = sent Y key trace ++ sent Y key more :=
  List.filterMap_append

/-- The event passes no frame to an actor. -/
def SocketEvent.Quiet (e : SocketEvent) : Prop :=
  ∀ doc connId data, e ≠ .command doc (.clientFrame connId data)

theorem sent_quiet {key : String} {more : List SocketEvent} (h : ∀ e ∈ more, e.Quiet) :
    sent Y key more = [] := by
  refine List.filterMap_eq_nil_iff.mpr fun e he => ?_
  split
  next doc connId data => exact absurd rfl (h _ he doc connId data)
  next => rfl

theorem mem_sent {key : String} {trace : List SocketEvent} {doc connId : Nat} {data : Bytes}
    (hmem : .command doc (.clientFrame connId data) ∈ trace) (hkey : addressed Y key data = true) :
    data ∈ sent Y key trace :=
  List.mem_filterMap.mpr ⟨_, hmem, if_pos hkey⟩

/-- Frames of one key are passed on. -/
theorem sent_frames {key key' : String} {frames : List Bytes} (doc connId : Nat)
    (h : ∀ data ∈ frames, addressed Y key' data = true) :
    sent Y key (frames.map fun data => .command doc (.clientFrame connId data))
      = if key = key' then frames else [] := by
  induction frames with
  | nil => split <;> rfl
  | cons data frames ih =>
    have hdata := h data (List.mem_cons_self ..)
    have hrest := ih fun d hd => h d (List.mem_cons_of_mem _ hd)
    rw [List.map_cons, sent, List.filterMap_cons]
    dsimp only
    by_cases hkey : key = key'
    · subst hkey
      rw [if_pos rfl] at hrest ⊢
      rw [if_pos hdata]
      exact congrArg (data :: ·) hrest
    · have hother : ¬ addressed Y key data = true := fun hthis =>
        hkey (addressed_unique hthis hdata)
      rw [if_neg hkey] at hrest ⊢
      rw [if_neg hother]
      exact hrest

/-- One frame is passed on. -/
theorem sent_frame {key key' : String} {data : Bytes} (doc connId : Nat)
    (h : addressed Y key' data = true) :
    sent Y key [.command doc (.clientFrame connId data)] = if key = key' then [data] else [] := by
  have hall : ∀ msg ∈ [data], addressed Y key' msg = true := by
    intro msg hmsg
    rw [List.mem_singleton.mp hmsg]
    exact h
  exact sent_frames doc connId hall

/-! ## The invariant -/

/-- An `AddConnection` for the routing key is in the trace. -/
def Asked (trace : List SocketEvent) (doc ack connId : Nat) (key : String) : Prop :=
  ∃ handle, .command doc (.addConnection handle ack) ∈ trace ∧ handle.connId = connId ∧
    handle.messageAddress = key

/-- Every frame for the key goes to this actor, for this connection. -/
def Route (Y : Yrs) (key : String) (doc connId : Nat) (trace : List SocketEvent) : Prop :=
  ∀ d c data, .command d (.clientFrame c data) ∈ trace → addressed Y key data = true →
    d = doc ∧ c = connId

/-- The socket is on its way out. -/
def SocketTask.leaves : SocketTask → Bool
  | .cleaning | .ended => true
  | .reading | .connecting _ | .authenticating _ | .registering _ => false

namespace Server

/-- The actor has handled the command with the `ack`. -/
def Acked (s : Server Y) (doc ack : Nat) : Prop := ∃ a, s.actors[doc]? = some a ∧ ack ∈ a.acked

/-- Before a frame is passed on, the actor has acked the `AddConnection` of its
routing key. -/
def Introduced (s : Server Y) (trace : List SocketEvent) : Prop :=
  ∀ before doc connId data after,
    trace = before ++ .command doc (.clientFrame connId data) :: after →
    ∃ key ack, addressed Y key data = true ∧ Asked before doc ack connId key ∧ s.Acked doc ack

structure Traffic (s : Server Y) (sock : Socket) : Prop where
  entries : ∀ pending ∈ sock.client.queue.vals, ∀ data ∈ pending.frames,
    addressed Y pending.key data = true
  drained : ∀ key est, sock.client.established.get? key = some est →
    sock.client.queue.get? key = none
  awaits : ∀ r doc ack, sock.task = .registering r → r.stage = .await doc ack →
    Asked sock.trace doc ack r.connId r.request.key
  asked : ∀ key est, sock.client.established.get? key = some est →
    ∃ ack, Asked sock.trace est.doc ack est.connId key ∧ s.Acked est.doc ack
  introduced : s.Introduced sock.trace
  route : ∀ key, ∃ doc connId, Route Y key doc connId sock.trace
  current : ∀ key est, sock.client.established.get? key = some est →
    Route Y key est.doc est.connId sock.trace
  fresh : sock.task.leaves = false → ∀ key, sock.client.established.get? key = none →
    sent Y key sock.trace = []

/-- What was passed on and what is queued is what has arrived. -/
def Flow (i : Nat) (key : String) (s : Server Y) (arrived : List Bytes) : Prop :=
  match s.sockets[i]? with
  | some sock => s.Traffic sock ∧ sent Y key sock.trace ++ sock.client.queued key = arrived
  | none => arrived = []

end Server

theorem Asked.mono {trace : List SocketEvent} {doc ack connId : Nat} {key : String}
    (h : Asked trace doc ack connId key) (more : List SocketEvent) :
    Asked (trace ++ more) doc ack connId key := by
  obtain ⟨handle, hmem, hsame⟩ := h
  exact ⟨handle, List.mem_append_left _ hmem, hsame⟩

theorem Route.append {key : String} {doc connId : Nat} {trace more : List SocketEvent}
    (h : Route Y key doc connId trace) (hmore : Route Y key doc connId more) :
    Route Y key doc connId (trace ++ more) := by
  intro d c data hmem hkey
  rcases List.mem_append.mp hmem with hmem | hmem
  · exact h d c data hmem hkey
  · exact hmore d c data hmem hkey

theorem Route.of_sent {key : String} {trace : List SocketEvent} (h : sent Y key trace = [])
    (doc connId : Nat) : Route Y key doc connId trace := by
  intro d c data hmem hkey
  have hin := mem_sent hmem hkey
  rw [h] at hin
  cases hin

theorem Route.quiet {key : String} {more : List SocketEvent} (h : ∀ e ∈ more, e.Quiet)
    (doc connId : Nat) : Route Y key doc connId more :=
  Route.of_sent (sent_quiet h) doc connId

theorem Route.frames (key : String) (doc connId : Nat) (frames : List Bytes) :
    Route Y key doc connId (frames.map fun data => .command doc (.clientFrame connId data)) := by
  intro d c data hmem _
  obtain ⟨msg, _, hmsg⟩ := List.mem_map.mp hmem
  cases hmsg
  exact ⟨rfl, rfl⟩

namespace Server

theorem Acked.step {s t : Server Y} {cfg : Configuration} {l : Label Y}
    (h : Server.step cfg s l = some t) {doc ack : Nat} (hacked : s.Acked doc ack) :
    t.Acked doc ack := by
  obtain ⟨a, ha, hack⟩ := hacked
  obtain ⟨b, hb, hturn⟩ := step_turn h ha
  refine ⟨b, hb, ?_⟩
  cases hturn with
  | told | recv | actor | drop => exact hack
  | command o cmd batch b hbatch hstep =>
    cases cmd.ack? with
    | none => exact hack
    | some new => exact List.mem_append_left _ hack

/-- More is traced; the frames in it have their `AddConnection` in what was
there. -/
theorem Introduced.append {s : Server Y} {trace more : List SocketEvent} (h : s.Introduced trace)
    (hmore : ∀ doc connId data, .command doc (.clientFrame connId data) ∈ more →
      ∃ key ack, addressed Y key data = true ∧ Asked trace doc ack connId key ∧ s.Acked doc ack) :
    s.Introduced (trace ++ more) := by
  intro before doc connId data after hsplit
  rcases List.append_eq_append_iff.mp hsplit with ⟨mid, hbefore, hmid⟩ | ⟨mid, htrace, hmid⟩
  · obtain ⟨key, ack, hkey, hasked, hacked⟩ := hmore doc connId data (by
      rw [hmid]
      exact List.mem_append_right _ (List.mem_cons_self ..))
    rw [hbefore]
    exact ⟨key, ack, hkey, hasked.mono mid, hacked⟩
  · cases mid with
    | nil =>
      obtain ⟨key, ack, hkey, hasked, hacked⟩ := hmore doc connId data (by
        rw [List.nil_append] at hmid
        rw [← hmid]
        exact List.mem_cons_self ..)
      rw [List.append_nil] at htrace
      exact ⟨key, ack, hkey, htrace ▸ hasked, hacked⟩
    | cons e mid =>
      cases hmid
      exact h before doc connId data mid htrace

theorem Traffic.mono {s t : Server Y} {sock : Socket} (hs : s.Traffic sock)
    (hacked : ∀ doc ack, s.Acked doc ack → t.Acked doc ack) : t.Traffic sock where
  entries := hs.entries
  drained := hs.drained
  awaits := hs.awaits
  asked key est hest := by
    obtain ⟨ack, hasked, hack⟩ := hs.asked key est hest
    exact ⟨ack, hasked, hacked _ _ hack⟩
  introduced before doc connId data after hsplit := by
    obtain ⟨key, ack, hkey, hasked, hack⟩ := hs.introduced before doc connId data after hsplit
    exact ⟨key, ack, hkey, hasked, hacked _ _ hack⟩
  route := hs.route
  current := hs.current
  fresh := hs.fresh

end Server

/-! ## Turns that pass nothing on -/

/-- Connections and queue stay as they are, and no frame is passed on. -/
structure Socket.Keeps (sock sock' : Socket) : Prop where
  established : sock'.client.established = sock.client.established
  queue : sock'.client.queue = sock.client.queue
  trace : ∃ more, sock'.trace = sock.trace ++ more ∧ ∀ e ∈ more, e.Quiet

theorem Socket.keeps_self (sock : Socket) : sock.Keeps sock :=
  ⟨rfl, rfl, [], (List.append_nil _).symm, fun _ he => absurd he List.not_mem_nil⟩

theorem Socket.keeps_emit {sock sock' : Socket} (hclient : sock'.client = sock.client)
    {e : SocketEvent} (htrace : sock'.trace = sock.trace ++ [e]) (he : e.Quiet) :
    sock.Keeps sock' := by
  refine ⟨by rw [hclient], by rw [hclient], [e], htrace, fun other hother => ?_⟩
  rw [List.mem_singleton.mp hother]
  exact he

theorem Socket.Keeps.trans {sock₁ sock₂ sock₃ : Socket} (h : sock₁.Keeps sock₂)
    (h' : sock₂.Keeps sock₃) : sock₁.Keeps sock₃ := by
  obtain ⟨more, htrace, hquiet⟩ := h.trace
  obtain ⟨more', htrace', hquiet'⟩ := h'.trace
  refine ⟨h'.established.trans h.established, h'.queue.trans h.queue, more ++ more', ?_,
    fun e he => ?_⟩
  · rw [htrace', htrace, List.append_assoc]
  · rcases List.mem_append.mp he with he | he
    · exact hquiet e he
    · exact hquiet' e he

theorem Socket.connected_keeps (Y : Yrs) (sock : Socket) (request : AuthRequest)
    (results : List HookResult) : sock.Keeps (sock.connected Y request results) := by
  unfold connected
  dsimp only
  split
  next e _ =>
    refine ⟨rfl, rfl, [.onConnect request results, .out (.frame _), .out (.close forbidden)],
      (List.append_assoc ..).trans (List.append_assoc ..), fun e he doc connId data heq => ?_⟩
    subst heq
    simp at he
  next =>
    exact sock.keeps_emit rfl rfl fun doc connId data heq => by cases heq

theorem Socket.authenticated_keeps (Y : Yrs) (sock : Socket) (request : AuthRequest)
    (results : List HookResult) (readOnly : Bool) (connId : Nat) :
    sock.Keeps (sock.authenticated Y request results readOnly connId) := by
  unfold authenticated
  dsimp only
  split
  next e _ =>
    refine ⟨rfl, rfl, [.onAuthenticate request results readOnly, .out (.frame _),
      .out (.close forbidden)], (List.append_assoc ..).trans (List.append_assoc ..),
      fun e he doc connId data heq => ?_⟩
    subst heq
    simp at he
  next =>
    refine ⟨rfl, rfl, [.onAuthenticate request results readOnly, .out (.frame _)],
      List.append_assoc .., fun e he doc connId data heq => ?_⟩
    subst heq
    simp at he

theorem Socket.failed_keeps (sock : Socket) (r : Registration) : sock.Keeps (sock.failed r) := by
  unfold failed
  split
  · exact ⟨rfl, rfl, sock.keeps_self.trace⟩
  · exact sock.keeps_emit rfl rfl fun doc connId data heq => by cases heq

theorem Socket.Keeps.flow {sock sock' : Socket} (h : sock.Keeps sock') (key : String) :
    sent Y key sock'.trace = sent Y key sock.trace ∧
      sock'.client.queued key = sock.client.queued key := by
  obtain ⟨more, htrace, hquiet⟩ := h.trace
  constructor
  · rw [htrace, sent_append, sent_quiet hquiet, List.append_nil]
  · rw [ClientConnection.queued, h.queue]
    rfl

theorem Server.Traffic.keeps {s : Server Y} {sock sock' : Socket} (hs : s.Traffic sock)
    (h : sock.Keeps sock') (hleaves : sock'.task.leaves = false → sock.task.leaves = false)
    (hawaits : ∀ r doc ack, sock'.task = .registering r → r.stage = .await doc ack →
      Asked sock'.trace doc ack r.connId r.request.key) : s.Traffic sock' := by
  obtain ⟨more, htrace, hquiet⟩ := h.trace
  refine ⟨?_, ?_, hawaits, ?_, ?_, ?_, ?_, ?_⟩
  · rw [h.queue]
    exact hs.entries
  · rw [h.queue, h.established]
    exact hs.drained
  · rw [h.established, htrace]
    intro key est hest
    obtain ⟨ack, hasked, hacked⟩ := hs.asked key est hest
    exact ⟨ack, hasked.mono more, hacked⟩
  · rw [htrace]
    exact hs.introduced.append fun doc connId data hmem => absurd rfl (hquiet _ hmem doc connId data)
  · intro key
    obtain ⟨doc, connId, hroute⟩ := hs.route key
    rw [htrace]
    exact ⟨doc, connId, hroute.append (Route.quiet hquiet doc connId)⟩
  · rw [h.established, htrace]
    intro key est hest
    exact (hs.current key est hest).append (Route.quiet hquiet est.doc est.connId)
  · rw [h.established]
    intro hlive key hnone
    rw [(h.flow key).1]
    exact hs.fresh (hleaves hlive) key hnone

/-! ## A frame is received -/

/-- What a socket does with a frame: it passes it on, queues it, or does nothing
with it that matters here. -/
inductive Socket.Handled (Y : Yrs) (sock : Socket) (data : Bytes) (sock' : Socket) : Prop
  | ignored (hkeeps : sock.Keeps sock') (hlive : sock'.task.leaves = false)
    (hout : ∀ r, sock'.task ≠ .registering r) (hnot : ∀ key, ¬ sock.takes Y key data = true)
  | passed (frame : IncomingFrame) (est : Established)
    (hparse : IncomingFrame.parse Y data = some frame) (hlength : 2 ≤ data.length)
    (hest : sock.client.established.get? frame.routingKey = some est)
    (htask : sock'.task = .reading)
    (hestablished : sock'.client.established = sock.client.established)
    (hqueue : sock'.client.queue = sock.client.queue)
    (htrace : sock'.trace = sock.trace ++ [.command est.doc (.clientFrame est.connId data)])
  | queued (frame : IncomingFrame) (c : ClientConnection)
    (hparse : IncomingFrame.parse Y data = some frame) (hlength : 2 ≤ data.length)
    (hnone : sock.client.established.get? frame.routingKey = none)
    (hty : frame.messageType ≠ .auth) (htask : sock'.task = .reading)
    (hestablished : c.established = sock.client.established)
    (hqueue : c.queue = sock.client.queue)
    (hclient : sock'.client = c.push frame.routingKey data) (htrace : sock'.trace = sock.trace)

theorem Socket.handleFrame_handled (hempty : (Y.readString []).1 = none) {cfg : Configuration}
    (now : Nat) {sock : Socket} (htask : sock.task = .reading) (data : Bytes)
    (hroom : ∀ frame, IncomingFrame.parse Y data = some frame → frame.messageType ≠ .auth →
      sock.client.established.get? frame.routingKey = none →
      sock.client.Room cfg frame.routingKey data) :
    sock.Handled Y data (sock.handleFrame Y cfg now data).1 := by
  have hlive : sock.task.leaves = false := by
    rw [htask]
    rfl
  have hout : ∀ r, sock.task ≠ .registering r := fun r heq => by
    rw [htask] at heq
    cases heq
  have hkeeps : sock.Keeps (sock.heard now) :=
    ⟨rfl, rfl, [], (List.append_nil _).symm, fun _ he => absurd he List.not_mem_nil⟩
  have hlong : ∀ frame, IncomingFrame.parse Y data = some frame → data.length ≠ 1 →
      2 ≤ data.length := by
    intro frame hparse hlength
    cases data with
    | nil =>
      unfold IncomingFrame.parse at hparse
      split at hparse
      next => cases hparse
      next hread =>
        rw [hread] at hempty
        cases hempty
    | cons b data =>
      rw [List.length_cons] at hlength ⊢
      omega
  -- an `Auth` frame of a key that is not established is not passed on
  have hauth : ∀ frame, IncomingFrame.parse Y data = some frame →
      sock.client.established.get? frame.routingKey = none → frame.messageType = .auth →
      ∀ key, ¬ sock.takes Y key data = true := by
    intro frame hparse hnone hty key htakes
    obtain ⟨⟨_, hkey⟩, hest | hother⟩ := (takes_iff hparse).mp htakes
    · obtain ⟨est, hest⟩ := hest
      rw [← hkey] at hest
      exact absurd (hnone.symm.trans hest) (by simp)
    · exact hother hty
  have hframe := sock.handleFrame_cases Y cfg now data
  generalize sock.handleFrame Y cfg now data = handled at hframe ⊢
  cases hframe with
  | short hlength =>
    refine .ignored hkeeps hlive hout fun key htakes => ?_
    rw [takes, addressed, hlength] at htakes
    cases htakes
  | garbled hlength hparse =>
    refine .ignored hkeeps hlive hout fun key htakes => ?_
    rw [takes, addressed, hparse, Option.any_none, Bool.and_false, Bool.false_and] at htakes
    cases htakes
  | passes frame est hlength hparse hest =>
    exact .passed frame est hparse (hlong frame hparse hlength) hest htask rfl rfl rfl
  | asks frame request hlength hparse hnone hty hrequest =>
    exact .ignored ⟨hkeeps.established, hkeeps.queue, hkeeps.trace⟩ rfl (fun r heq => by cases heq)
      (hauth frame hparse hnone hty)
  | unread frame hlength hparse hnone hty hrequest =>
    exact .ignored hkeeps hlive hout (hauth frame hparse hnone hty)
  | waits frame hlength hparse hnone hty =>
    have hfits := hroom frame hparse hty hnone
    rcases enqueue_cases cfg (sock.heard now) frame.routingKey data with ⟨_, hpush⟩ | ⟨hfull, _⟩
    · rw [hpush]
      exact .queued frame (sock.heard now).client hparse (hlong frame hparse hlength) hnone hty htask
        rfl rfl rfl rfl
    · exact absurd ⟨hfits.documents, hfits.messages, hfits.bytes⟩ hfull

/-- A socket that is reading waits for no `ack`. -/
theorem awaits_reading {sock : Socket} (htask : sock.task = .reading) :
    ∀ r doc ack, sock.task = .registering r → r.stage = .await doc ack →
      Asked sock.trace doc ack r.connId r.request.key := by
  intro r doc ack heq
  rw [htask] at heq
  cases heq

namespace Server

/-- A frame is passed on to the actor of its routing key. -/
theorem Traffic.passed {s : Server Y} {sock sock' : Socket} (hs : s.Traffic sock) {data : Bytes}
    {frame : IncomingFrame} {est : Established}
    (hparse : IncomingFrame.parse Y data = some frame) (hlength : 2 ≤ data.length)
    (hest : sock.client.established.get? frame.routingKey = some est)
    (htask : sock'.task = .reading) (hlive : sock.task.leaves = false)
    (hestablished : sock'.client.established = sock.client.established)
    (hqueue : sock'.client.queue = sock.client.queue)
    (htrace : sock'.trace = sock.trace ++ [.command est.doc (.clientFrame est.connId data)]) :
    s.Traffic sock' := by
  have hkey : addressed Y frame.routingKey data = true := (addressed_iff hparse).mpr ⟨hlength, rfl⟩
  have hone : ∀ key, key ≠ frame.routingKey →
      sent Y key [.command est.doc (.clientFrame est.connId data)] = [] := by
    intro key hne
    rw [sent_frame est.doc est.connId hkey, if_neg hne]
  obtain ⟨ack, hasked, hacked⟩ := hs.asked _ est hest
  -- the frame goes where the frames of its key went before
  have hroute : ∀ key doc connId, Route Y key doc connId sock.trace →
      (key = frame.routingKey → doc = est.doc ∧ connId = est.connId) →
      Route Y key doc connId sock'.trace := by
    intro key doc connId hold hsame
    rw [htrace]
    by_cases hthis : key = frame.routingKey
    · obtain ⟨rfl, rfl⟩ := hsame hthis
      exact hold.append (Route.frames key est.doc est.connId [data])
    · exact hold.append (Route.of_sent (hone key hthis) doc connId)
  refine ⟨?_, ?_, awaits_reading htask, ?_, ?_, fun key => ?_, ?_, fun _ key hnone => ?_⟩
  · rw [hqueue]
    exact hs.entries
  · rw [hqueue, hestablished]
    exact hs.drained
  · rw [hestablished, htrace]
    intro key other hother
    obtain ⟨ack', hasked', hacked'⟩ := hs.asked key other hother
    exact ⟨ack', hasked'.mono _, hacked'⟩
  · rw [htrace]
    refine hs.introduced.append fun doc connId msg hmem => ?_
    cases List.mem_singleton.mp hmem
    exact ⟨frame.routingKey, ack, hkey, hasked, hacked⟩
  · by_cases hthis : key = frame.routingKey
    · exact ⟨est.doc, est.connId,
        hroute key _ _ (hs.current key est (hthis ▸ hest)) fun _ => ⟨rfl, rfl⟩⟩
    · obtain ⟨doc, connId, hold⟩ := hs.route key
      exact ⟨doc, connId, hroute key doc connId hold fun h => absurd h hthis⟩
  · rw [hestablished]
    intro key other hother
    refine hroute key _ _ (hs.current key other hother) fun hthis => ?_
    obtain rfl : other = est := Option.some.inj (hother.symm.trans (hthis ▸ hest))
    exact ⟨rfl, rfl⟩
  · rw [hestablished] at hnone
    rw [htrace, sent_append, hs.fresh hlive key hnone, List.nil_append]
    refine hone key fun hthis => ?_
    rw [hthis, hest] at hnone
    cases hnone

/-- A frame is queued. -/
theorem Traffic.queued {s : Server Y} {sock sock' : Socket} (hs : s.Traffic sock) {data : Bytes}
    {frame : IncomingFrame} {c : ClientConnection}
    (hparse : IncomingFrame.parse Y data = some frame) (hlength : 2 ≤ data.length)
    (hnone : sock.client.established.get? frame.routingKey = none)
    (htask : sock'.task = .reading) (hlive : sock.task.leaves = false)
    (hestablished : c.established = sock.client.established)
    (hqueue : c.queue = sock.client.queue)
    (hclient : sock'.client = c.push frame.routingKey data) (htrace : sock'.trace = sock.trace) :
    s.Traffic sock' := by
  have hsame : sock'.client.established = sock.client.established := by
    rw [hclient]
    exact hestablished
  -- it comes after what waits under its key
  have hpushed : sock'.client.queue = sock.client.queue.insert Reorder.keep
      ⟨frame.routingKey, sock.client.queued frame.routingKey ++ [data]⟩ := by
    rw [hclient, ClientConnection.queued, ← hqueue]
    rfl
  refine ⟨fun pending hpending msg hmsg => ?_, ?_, awaits_reading htask, ?_, ?_, ?_, ?_, ?_⟩
  · rw [hpushed] at hpending
    rcases List.mem_cons.mp hpending with rfl | hold
    · rcases List.mem_append.mp hmsg with hmsg | hmsg
      · cases hget : sock.client.queue.get? frame.routingKey with
        | none =>
          rw [ClientConnection.queued, hget] at hmsg
          cases hmsg
        | some old =>
          rw [ClientConnection.queued, hget] at hmsg
          obtain ⟨hold, hkey⟩ := Keyed.mem_iff_get?.mp hget
          exact hkey ▸ hs.entries old hold msg hmsg
      · rw [List.mem_singleton.mp hmsg]
        exact (addressed_iff hparse).mpr ⟨hlength, rfl⟩
    · exact hs.entries pending (List.mem_filter.mp hold).1 msg hmsg
  · rw [hsame, hpushed]
    intro key est hest
    rw [Keyed.get?_insert]
    split
    next hthis =>
      rw [hthis, hnone] at hest
      cases hest
    next => exact hs.drained key est hest
  · rw [hsame, htrace]
    exact hs.asked
  · rw [htrace]
    exact hs.introduced
  · rw [htrace]
    exact hs.route
  · rw [hsame, htrace]
    exact hs.current
  · rw [hsame, htrace]
    exact fun _ => hs.fresh hlive

/-- The step lemma for a frame that is received. -/
theorem Traffic.handled {s : Server Y} {sock sock' : Socket} (hs : s.Traffic sock)
    (htask : sock.task = .reading) {data : Bytes} (h : sock.Handled Y data sock') (key : String) :
    s.Traffic sock' ∧ sent Y key sock'.trace ++ sock'.client.queued key
      = sent Y key sock.trace ++ sock.client.queued key ++
        if sock.takes Y key data = true then [data] else [] := by
  have hlive : sock.task.leaves = false := by
    rw [htask]
    rfl
  cases h with
  | ignored hkeeps hgoes hout hnot =>
    refine ⟨hs.keeps hkeeps (fun _ => hlive) fun r doc ack heq => absurd heq (hout r), ?_⟩
    obtain ⟨hsent, hqueued⟩ := hkeeps.flow (Y := Y) key
    rw [hsent, hqueued, if_neg (hnot key), List.append_nil]
  | passed frame est hparse hlength hest htask' hestablished hqueue htrace =>
    refine ⟨hs.passed hparse hlength hest htask' hlive hestablished hqueue htrace, ?_⟩
    have hkey : addressed Y frame.routingKey data = true :=
      (addressed_iff hparse).mpr ⟨hlength, rfl⟩
    have hsame : sock'.client.queued key = sock.client.queued key := by
      rw [ClientConnection.queued, hqueue]
      rfl
    rw [htrace, sent_append, sent_frame est.doc est.connId hkey, hsame]
    by_cases hthis : key = frame.routingKey
    · subst hthis
      -- nothing is queued for an established key
      have hdrained : sock.client.queued frame.routingKey = [] := by
        rw [ClientConnection.queued, hs.drained _ est hest]
        rfl
      rw [hdrained, if_pos rfl,
        if_pos ((takes_iff hparse).mpr ⟨⟨hlength, rfl⟩, Or.inl ⟨est, hest⟩⟩),
        List.append_nil, List.append_nil]
    · rw [if_neg hthis, if_neg fun htakes => hthis ((takes_iff hparse).mp htakes).1.2.symm,
        List.append_nil, List.append_nil]
  | queued frame c hparse hlength hnone hty htask' hestablished hqueue hclient htrace =>
    refine ⟨hs.queued hparse hlength hnone htask' hlive hestablished hqueue hclient htrace, ?_⟩
    have hsame : c.queued key = sock.client.queued key := by
      rw [ClientConnection.queued, hqueue]
      rfl
    rw [htrace, hclient, c.push_queued, hsame, List.append_assoc]
    by_cases hthis : key = frame.routingKey
    · subst hthis
      rw [if_pos rfl, if_pos ((takes_iff hparse).mpr ⟨⟨hlength, rfl⟩, Or.inr hty⟩)]
    · rw [if_neg hthis, if_neg fun htakes => hthis ((takes_iff hparse).mp htakes).1.2.symm]

end Server

/-! ## A routing key is established -/

namespace Server

theorem Traffic.queued_addressed {s : Server Y} {sock : Socket} (hs : s.Traffic sock) {key : String}
    {data : Bytes} (h : data ∈ sock.client.queued key) : addressed Y key data = true := by
  cases hget : sock.client.queue.get? key with
  | none =>
    rw [ClientConnection.queued, hget] at h
    cases h
  | some pending =>
    rw [ClientConnection.queued, hget] at h
    obtain ⟨hmem, hkey⟩ := Keyed.mem_iff_get?.mp hget
    exact hkey ▸ hs.entries pending hmem data h

/-- The `ack` has arrived: the key is established and its queue drained. -/
theorem Traffic.register {s : Server Y} {sock : Socket} (hs : s.Traffic sock) {r : Registration}
    {doc ack : Nat} (htask : sock.task = .registering r) (hstage : r.stage = .await doc ack)
    (hacked : s.Acked doc ack) (hnone : sock.client.established.get? r.request.key = none) :
    s.Traffic (sock.register r doc).1 := by
  obtain ⟨hestablished, hreading, _⟩ := sock.register_spec r doc
  obtain ⟨hqueue, htrace⟩ := sock.register_flow r doc
  have hasked := hs.awaits r doc ack htask hstage
  have hlive : sock.task.leaves = false := by
    rw [htask]
    rfl
  -- nothing was passed on for the key before
  have hnew : Route Y r.request.key doc r.connId (sock.register r doc).1.trace := by
    rw [htrace]
    exact (Route.of_sent (hs.fresh hlive _ hnone) doc r.connId).append (Route.frames _ _ _ _)
  have hothers : ∀ key, key ≠ r.request.key →
      sent Y key (sock.register r doc).1.trace = sent Y key sock.trace := by
    intro key hne
    rw [htrace, sent_append, sent_frames doc r.connId fun data hdata => hs.queued_addressed hdata,
      if_neg hne, List.append_nil]
  have hold : ∀ key d connId, key ≠ r.request.key → Route Y key d connId sock.trace →
      Route Y key d connId (sock.register r doc).1.trace := by
    intro key d connId hne hroute
    rw [htrace]
    refine hroute.append (Route.of_sent ?_ d connId)
    rw [sent_frames doc r.connId fun data hdata => hs.queued_addressed hdata, if_neg hne]
  have hget : ∀ key, (sock.register r doc).1.client.established.get? key
      = if key = r.request.key then some ⟨r.request.key, doc, r.connId⟩
        else sock.client.established.get? key := by
    intro key
    rw [hestablished]
    exact Keyed.get?_insert ..
  refine ⟨fun pending hpending => ?_, fun key est hest => ?_, awaits_reading hreading,
    fun key est hest => ?_, ?_, fun key => ?_, fun key est hest => ?_, fun _ key hkey => ?_⟩
  · rw [hqueue] at hpending
    exact hs.entries pending (List.mem_filter.mp hpending).1
  · rw [hqueue, Keyed.get?_erase]
    split
    next => rfl
    next hne =>
      rw [hget, if_neg hne] at hest
      exact hs.drained key est hest
  · rw [hget] at hest
    rw [htrace]
    split at hest
    next hthis =>
      cases hest
      rw [hthis]
      exact ⟨ack, hasked.mono _, hacked⟩
    next =>
      obtain ⟨ack', hasked', hacked'⟩ := hs.asked key est hest
      exact ⟨ack', hasked'.mono _, hacked'⟩
  · rw [htrace]
    refine hs.introduced.append fun d connId data hmem => ?_
    obtain ⟨msg, hmsg, heq⟩ := List.mem_map.mp hmem
    cases heq
    exact ⟨r.request.key, ack, hs.queued_addressed hmsg, hasked, hacked⟩
  · by_cases hthis : key = r.request.key
    · exact ⟨doc, r.connId, hthis ▸ hnew⟩
    · obtain ⟨d, connId, hroute⟩ := hs.route key
      exact ⟨d, connId, hold key d connId hthis hroute⟩
  · rw [hget] at hest
    split at hest
    next hthis =>
      cases hest
      exact hthis ▸ hnew
    next hne => exact hold key _ _ hne (hs.current key est hest)
  · rw [hget] at hkey
    split at hkey
    next => cases hkey
    next hne =>
      rw [hothers key hne]
      exact hs.fresh hlive key hkey

theorem Traffic.register_flow {s : Server Y} {sock : Socket} (hs : s.Traffic sock)
    (r : Registration) (doc : Nat) (key : String) :
    sent Y key (sock.register r doc).1.trace ++ (sock.register r doc).1.client.queued key
      = sent Y key sock.trace ++ sock.client.queued key := by
  obtain ⟨hqueue, htrace⟩ := sock.register_flow r doc
  rw [ClientConnection.queued, hqueue, Keyed.get?_erase, htrace, sent_append,
    sent_frames doc r.connId fun data hdata => hs.queued_addressed hdata]
  by_cases hthis : key = r.request.key
  · subst hthis
    rw [if_pos rfl, if_pos rfl, Option.elim_none, List.append_nil]
  · rw [if_neg hthis, if_neg hthis, List.append_nil]
    rfl

/-- `cleanup` drains an entry: the socket takes no more frames. -/
theorem Traffic.leave {s : Server Y} {sock : Socket} (hs : s.Traffic sock) {est : Established}
    (htask : sock.task = .cleaning) : s.Traffic (sock.leave est).1 := by
  have hcleaning : (sock.leave est).1.task = .cleaning := htask
  have htrace : (sock.leave est).1.trace
      = sock.trace ++ [.command est.doc (.removeConnection est.connId)] := rfl
  have hquiet : ∀ e ∈ [SocketEvent.command est.doc (.removeConnection est.connId)], e.Quiet := by
    intro e he doc connId data heq
    rw [List.mem_singleton.mp he] at heq
    cases heq
  have hget : ∀ key other, (sock.leave est).1.client.established.get? key = some other →
      sock.client.established.get? key = some other := by
    intro key other hother
    have herase : (sock.client.established.erase est.key).get? key = some other := hother
    rw [Keyed.get?_erase] at herase
    split at herase
    · cases herase
    · exact herase
  refine ⟨hs.entries, fun key other hother => hs.drained key other (hget key other hother),
    fun r doc ack heq => ?_, fun key other hother => ?_, ?_, fun key => ?_,
    fun key other hother => ?_, fun hlive => ?_⟩
  · rw [hcleaning] at heq
    cases heq
  · obtain ⟨ack, hasked, hacked⟩ := hs.asked key other (hget key other hother)
    exact ⟨ack, hasked.mono _, hacked⟩
  · rw [htrace]
    exact hs.introduced.append fun doc connId data hmem => absurd rfl (hquiet _ hmem doc connId data)
  · obtain ⟨doc, connId, hroute⟩ := hs.route key
    rw [htrace]
    exact ⟨doc, connId, hroute.append (Route.quiet hquiet doc connId)⟩
  · rw [htrace]
    exact (hs.current key other (hget key other hother)).append (Route.quiet hquiet _ _)
  · rw [hcleaning] at hlive
    cases hlive

/-! ## The step lemma -/

/-- A socket that takes a turn, not for a frame. -/
theorem Traffic.turn {cfg : Configuration} {s t : Server Y} {i : Nat} {sock sock' : Socket}
    {l : Label Y} (hs : s.Traffic sock) (hfresh : ∀ key, sock.task.key = some key →
      sock.client.established.get? key = none)
    (h : SocketTurn cfg s t i sock l sock') (hl : ∀ data now, l ≠ .receive i data now)
    (key : String) :
    s.Traffic sock' ∧ sent Y key sock'.trace ++ sock'.client.queued key
      = sent Y key sock.trace ++ sock.client.queued key := by
  -- most turns leave both the frames that were sent and those that wait
  have hkeeps : sock.Keeps sock' → (sock'.task.leaves = false → sock.task.leaves = false) →
      (∀ r doc ack, sock'.task = .registering r → r.stage = .await doc ack →
        Asked sock'.trace doc ack r.connId r.request.key) →
      s.Traffic sock' ∧ sent Y key sock'.trace ++ sock'.client.queued key
        = sent Y key sock.trace ++ sock.client.queued key := by
    intro hsame hleaves hawaits
    obtain ⟨hsent, hqueued⟩ := hsame.flow (Y := Y) key
    refine ⟨hs.keeps hsame hleaves hawaits, ?_⟩
    rw [hsent, hqueued]
  have hlive : ∀ {task : SocketTask}, sock.task = task → task.leaves = false →
      sock'.task.leaves = false → sock.task.leaves = false := by
    intro task htask hfalse _
    rw [htask]
    exact hfalse
  have hfailed : ∀ (sock₁ : Socket) (r : Registration) doc ack r',
      (sock₁.failed r).task = .registering r' → r'.stage = .await doc ack →
        Asked (sock₁.failed r).trace doc ack r'.connId r'.request.key := by
    intro sock₁ r doc ack r' heq hstage
    rcases sock₁.failed_task r with hnext | hnext <;> rw [hnext] at heq <;> cases heq
    cases hstage
  cases h with
  | idle => exact ⟨hs, rfl⟩
  | receive data now htask => exact absurd rfl (hl data now)
  | hangup htask =>
    exact hkeeps ⟨rfl, rfl, sock.keeps_self.trace⟩ (hlive htask rfl) fun r doc ack heq => by cases heq
  | timeout now htask =>
    exact hkeeps (sock.keeps_emit rfl rfl fun doc connId data heq => by cases heq) (hlive htask rfl)
      fun r doc ack heq => by cases heq
  | connected request results htask =>
    refine hkeeps (sock.connected_keeps Y request results) (hlive htask rfl) fun r doc ack heq => ?_
    rcases sock.connected_task (Y := Y) request results with hnext | hnext <;>
      rw [hnext] at heq <;> cases heq
  | authenticated request results readOnly htask =>
    refine hkeeps (sock.authenticated_keeps Y request results readOnly s.nextConnId)
      (hlive htask rfl) fun r doc ack heq hstage => ?_
    rcases sock.authenticated_task (Y := Y) request results readOnly s.nextConnId with
      hnext | hnext <;> rw [hnext] at heq <;> cases heq
    cases hstage
  | calls doc queues r call next htask | finds doc queues r call h htask =>
    refine hkeeps ⟨rfl, rfl, sock.keeps_self.trace⟩ (hlive htask rfl) fun r' d ack heq hstage => ?_
    cases heq
    cases hstage
  | sends doc queues r h htask =>
    refine hkeeps (sock.keeps_emit rfl rfl fun doc connId data heq => by cases heq) (hlive htask rfl)
      fun r' d ack heq hstage => ?_
    cases heq
    cases hstage
    exact ⟨_, List.mem_append_right _ (List.mem_singleton_self _), rfl, rfl⟩
  | refused doc queues r h htask =>
    have hemit : sock.Keeps
        (sock.emit (.command h (.addConnection (sock.connHandle i r) s.nextAck))) :=
      sock.keeps_emit rfl rfl fun doc connId data heq => by cases heq
    exact hkeeps (hemit.trans (Socket.failed_keeps _ r)) (hlive htask rfl)
      fun r' d ack heq => hfailed _ r d ack r' heq
  | lost doc queues r h ack htask =>
    exact hkeeps (sock.failed_keeps r) (hlive htask rfl)
      fun r' d ack heq => hfailed sock r d ack r' heq
  | acked doc queues r h ack htask hstage hacked =>
    -- the frames that waited are sent, in the order they came
    have hnone := hfresh r.request.key (by rw [htask]; rfl)
    exact ⟨hs.register htask hstage (awaited_true hacked) hnone, hs.register_flow r h key⟩
  | leave key' est htask hest =>
    refine ⟨hs.leave htask, ?_⟩
    have hsent : sent Y key (sock.leave est).1.trace = sent Y key sock.trace := by
      have htrace : (sock.leave est).1.trace
          = sock.trace ++ [.command est.doc (.removeConnection est.connId)] := rfl
      rw [htrace, sent_append]
      exact List.append_nil _
    rw [hsent]
    rfl
  | clean htask =>
    exact hkeeps ⟨rfl, rfl, sock.keeps_self.trace⟩ (fun hfalse => by cases hfalse)
      fun r doc ack heq => by cases heq

theorem step_receive {s t : Server Y} {cfg : Configuration} {i : Nat} {data : Bytes} {now : Nat}
    (h : Server.step cfg s (.receive i data now) = some t) :
    ∃ sock, s.sockets[i]? = some sock ∧ sock.task = .reading ∧
      t.sockets = s.sockets.set i (sock.handleFrame Y cfg now data).1 := by
  cases step_cases h with
  | receive i data now sock hsock htask =>
    refine ⟨sock, hsock, htask, ?_⟩
    rw [sendAll_sockets]
    rfl

theorem arrival_other {s : Server Y} {i : Nat} {l : Label Y}
    (hl : ∀ data now, l ≠ .receive i data now) (key : String) : s.arrival i key l = [] := by
  cases l with
  | receive k data now =>
    have hne : k ≠ i := fun heq => hl data now (heq ▸ rfl)
    unfold arrival
    dsimp only
    split
    next => exact if_neg fun h => hne h.1
    next => rfl
  | connect | hangup | timeout | connected | authenticated | register | leave | clean | apply
  | direct | external | recv | command | actor | drop => rfl

/-- Nothing arrives at a socket that is still to come. -/
theorem arrival_absent {s : Server Y} {i : Nat} (h : s.sockets[i]? = none) (key : String)
    (l : Label Y) : s.arrival i key l = [] := by
  cases l with
  | receive k data now =>
    unfold arrival
    dsimp only
    split
    next sock hsock =>
      refine if_neg fun hboth => ?_
      rw [hboth.1, h] at hsock
      cases hsock
    next => rfl
  | connect | hangup | timeout | connected | authenticated | register | leave | clean | apply
  | direct | external | recv | command | actor | drop => rfl

/-- **The step lemma.** -/
theorem Flow.step (hempty : (Y.readString []).1 = none) {s t : Server Y} {cfg : Configuration}
    {l : Label Y} (h : Server.step cfg s l = some t) {i : Nat}
    (hlimits : s.WithinLimits cfg i l) (haccounted : s.Accounted) {key : String}
    {arrived : List Bytes} (hs : s.Flow i key arrived) :
    t.Flow i key (arrived ++ s.arrival i key l) := by
  have hmono : ∀ {sock : Socket}, s.Traffic sock → t.Traffic sock := fun hsock =>
    hsock.mono fun _ _ hacked => hacked.step h
  have habsent : s.sockets[i]? = none → arrived ++ s.arrival i key l = [] := by
    intro hnone
    rw [Flow, hnone] at hs
    have hnothing : arrived = [] := hs
    rw [hnothing, arrival_absent hnone]
    rfl
  cases hsock' : t.sockets[i]? with
  | none =>
    have hlength := sockets_length h
    have hnone : s.sockets[i]? = none := by
      rw [List.getElem?_eq_none_iff] at hsock' ⊢
      omega
    rw [Flow, hsock']
    exact habsent hnone
  | some sock' =>
    rw [Flow, hsock']
    rcases step_socket h hsock' with ⟨sock, hsock, hturn⟩ | ⟨hi, now, _, rfl⟩
    · rw [Flow, hsock] at hs
      obtain ⟨htraffic, hflow⟩ := hs
      by_cases hl : ∃ data now, l = .receive i data now
      · obtain ⟨data, now, rfl⟩ := hl
        obtain ⟨old, hold, hreading, hset⟩ := step_receive h
        obtain rfl : sock = old := Option.some.inj (hsock.symm.trans hold)
        obtain rfl : (sock.handleFrame Y cfg now data).1 = sock' := by
          rw [hset, getElem?_set_of_some hsock _ i, if_pos rfl] at hsock'
          exact Option.some.inj hsock'
        have hhandled := sock.handleFrame_handled hempty now hreading data
          fun frame hparse hty hnone => hlimits sock frame rfl hsock hparse hty hnone
        obtain ⟨hafter, hsame⟩ := htraffic.handled hreading hhandled key
        refine ⟨hmono hafter, ?_⟩
        have harrival : s.arrival i key (.receive i data now)
            = if sock.takes Y key data = true then [data] else [] := by
          rw [arrival, hsock]
          simp only [true_and]
        rw [hsame, hflow, harrival]
      · have hother : ∀ data now, l ≠ .receive i data now := fun data now heq => hl ⟨data, now, heq⟩
        obtain ⟨hafter, hsame⟩ := htraffic.turn (haccounted.fresh i sock hsock) hturn hother key
        refine ⟨hmono hafter, ?_⟩
        rw [hsame, hflow, arrival_other hother, List.append_nil]
    · -- the socket is new: nothing has arrived, waits or was sent
      have hnone : s.sockets[i]? = none := List.getElem?_eq_none (Nat.le_of_eq hi.symm)
      rw [habsent hnone]
      refine ⟨⟨?_, ?_, ?_, ?_, ?_, ?_, ?_, ?_⟩, rfl⟩
      · exact fun pending hpending => absurd hpending List.not_mem_nil
      · exact fun _ _ _ => rfl
      · exact awaits_reading rfl
      · intro key est hest
        cases hest
      · intro before doc connId data after hsplit
        have hlength := congrArg List.length hsplit
        rw [List.length_append, List.length_cons, List.length_nil] at hlength
        omega
      · exact fun key => ⟨0, 0, Route.of_sent rfl 0 0⟩
      · intro key est hest
        cases hest
      · exact fun _ _ _ => rfl

end Server

/-- **Frames are delivered in order**: in every state of a run in which the
socket stays within its limits, the frames passed to the actor for a routing key
and then the frames queued for it are the frames that have arrived for it. They
go to one actor, for one connection, and the actor has acked the `AddConnection`
that stands before the first of them. -/
theorem delivery_in_order (hempty : (Y.readString []).1 = none) {cfg : Configuration}
    {ls : List (Server.Label Y)} {s : Server Y}
    (hrun : Lts.exec (Server.step cfg) (Server.build Y) ls = some s) {i : Nat}
    (hlimits : Lts.Along (Server.step cfg) (fun s l _ => s.WithinLimits cfg i l)
      (Server.build Y) ls)
    {sock : Socket} (hsock : s.sockets[i]? = some sock) (key : String) :
    sent Y key sock.trace ++ sock.client.queued key
      = Lts.record (Server.step cfg) (Server.arrival i key) (Server.build Y) ls ∧
    (∃ doc connId, Route Y key doc connId sock.trace) ∧
    ∀ before doc connId data after,
      sock.trace = before ++ .command doc (.clientFrame connId data) :: after →
      ∃ key' ack, addressed Y key' data = true ∧ Asked before doc ack connId key' ∧
        s.Acked doc ack := by
  have hboth : s.Accounted ∧ s.Flow i key
      ([] ++ Lts.record (Server.step cfg) (Server.arrival i key) (Server.build Y) ls) :=
    Lts.exec_record (I := fun (u : Server Y) arrived => u.Accounted ∧ u.Flow i key arrived)
      (fun u l v arrived hstep hc hu => ⟨hu.1.step hstep, hu.2.step hempty hstep hc hu.1⟩)
      hlimits hrun ⟨Server.build_accounted Y, rfl⟩
  obtain ⟨_, hflow⟩ := hboth
  rw [List.nil_append, Server.Flow, hsock] at hflow
  obtain ⟨htraffic, hsame⟩ := hflow
  exact ⟨hsame, htraffic.route key, htraffic.introduced⟩

/-- Whatever arrives would fit into the queue. -/
def fits (cfg : Configuration) (s : Server OneWriter.yrs) : Server.Label OneWriter.yrs → Bool
  | .receive k data _ => (s.sockets[k]?).all fun sock =>
      (IncomingFrame.parse OneWriter.yrs data).all fun frame =>
        decide (sock.client.Room cfg frame.routingKey data)
  | _ => true

theorem fits_within {cfg : Configuration} {s : Server OneWriter.yrs}
    {l : Server.Label OneWriter.yrs} (h : fits cfg s l = true) : s.WithinLimits cfg 0 l := by
  cases l with
  | receive k data now =>
    intro sock frame _ hsock hparse _ _
    rw [fits, hsock, Option.all_some, hparse, Option.all_some] at h
    exact of_decide_eq_true h
  | _ => trivial

/-- An edit before the document is joined, and one after. -/
def editsAround : List (Server.Label OneWriter.yrs) :=
  [.connect 0, .receive 0 (OneWriter.editFrame 0) 0] ++ OneWriter.enters 0 0 "doc" ++
    [.receive 0 (OneWriter.editFrame 1) 0]

/-- Both reach the actor. -/
theorem delivery_in_order_around :
    let s := OneWriter.serve {} editsAround
    ∃ sock, s.sockets[0]? = some sock ∧
      sent OneWriter.yrs "doc" sock.trace ++ sock.client.queued "doc"
        = [OneWriter.editFrame 0, OneWriter.editFrame 1] ∧
      ∃ doc connId, Route OneWriter.yrs "doc" doc connId sock.trace := by
  intro s
  have hsome : (s.sockets[0]?).isSome = true := by
    decide +kernel
  obtain ⟨sock, hsock⟩ := Option.isSome_iff_exists.mp hsome
  have hcheck : Lts.check (Server.step {}) (fits {}) (Server.build OneWriter.yrs) editsAround
      = true := by
    decide +kernel
  have hwithin : Lts.Along (Server.step {}) (fun s l _ => s.WithinLimits {} 0 l)
      (Server.build OneWriter.yrs) editsAround :=
    Lts.along_of_check (fun _ _ _ => fits_within) hcheck
  have harrived : Lts.record (Server.step {}) (Server.arrival 0 "doc")
      (Server.build OneWriter.yrs) editsAround
        = [OneWriter.editFrame 0, OneWriter.editFrame 1] := by
    decide +kernel
  obtain ⟨hsame, hroute, _⟩ := delivery_in_order (by decide +kernel)
    (Lts.exec_reach (by decide +kernel)) hwithin hsock "doc"
  exact ⟨sock, hsock, hsame.trans harrived, hroute⟩

end Hocuspocus
