import Mathlib.Algebra.Ring.Nat
import Hocuspocus.Server.Steps

/-!
# What a socket holds back

Frames for a routing key that is not established are queued, and two counters
say how many there are and what they weigh. `enqueue` adds to both after it has
checked the limits, `authenticate` takes off what it drains. `Balanced` is the
accounting: the counters are exact, no entry of the queue is empty, and nothing
is above its limit. `push` and `release` keep it, everything else leaves queue
and counters alone.
-/

namespace Hocuspocus

variable {Y : Yrs}

/-- What the frames weigh. -/
def weight (frames : List Bytes) : Nat := (frames.map List.length).sum

@[simp] theorem weight_nil : weight [] = 0 := rfl

@[simp] theorem weight_cons (msg : Bytes) (frames : List Bytes) :
    weight (msg :: frames) = msg.length + weight frames := rfl

@[simp] theorem weight_append (frames more : List Bytes) :
    weight (frames ++ more) = weight frames + weight more := by
  rw [weight, List.map_append, List.sum_append]
  rfl

theorem weight_perm {frames more : List Bytes} (h : frames.Perm more) :
    weight frames = weight more := (h.map List.length).sum_eq

namespace ClientConnection

/-- Every frame that is queued. -/
def backlog (c : ClientConnection) : List Bytes := c.queue.vals.flatMap Pending.frames

/-- What is queued for the other keys. -/
def others (c : ClientConnection) (key : String) : List Bytes :=
  (c.queue.erase key).vals.flatMap Pending.frames

/-- The accounting of the queue. -/
structure Balanced (cfg : Configuration) (c : ClientConnection) : Prop where
  messages : c.queuedMessages = c.backlog.length
  bytes : c.queuedBytes = weight c.backlog
  entries : ∀ pending ∈ c.queue.vals, pending.frames ≠ []
  documents_le : c.queue.size ≤ cfg.maxPendingDocuments
  messages_le : c.queuedMessages ≤ cfg.maxUnauthenticatedQueueMessages
  bytes_le : c.queuedBytes ≤ cfg.maxUnauthenticatedQueueSize

/-- Queue and counters are the same. -/
structure Holds (c c' : ClientConnection) : Prop where
  queue : c'.queue = c.queue
  messages : c'.queuedMessages = c.queuedMessages
  bytes : c'.queuedBytes = c.queuedBytes

theorem Balanced.holds {cfg : Configuration} {c c' : ClientConnection} (hc : c.Balanced cfg)
    (h : c.Holds c') : c'.Balanced cfg := by
  have hbacklog : c'.backlog = c.backlog := by
    rw [backlog, h.queue]
    rfl
  refine ⟨?_, ?_, ?_, ?_, ?_, ?_⟩
  · rw [h.messages, hbacklog]
    exact hc.messages
  · rw [h.bytes, hbacklog]
    exact hc.bytes
  · rw [h.queue]
    exact hc.entries
  · rw [h.queue]
    exact hc.documents_le
  · rw [h.messages]
    exact hc.messages_le
  · rw [h.bytes]
    exact hc.bytes_le

theorem new_balanced (cfg : Configuration) (socketId : String) (now : Nat) :
    (new socketId now).Balanced cfg where
  messages := rfl
  bytes := rfl
  entries _ h := absurd h List.not_mem_nil
  documents_le := Nat.zero_le _
  messages_le := Nat.zero_le _
  bytes_le := Nat.zero_le _

/-- What is queued is the entry of a key and what is queued for the others. -/
theorem backlog_perm {c : ClientConnection} {key : String} {pending : Pending}
    (h : c.queue.get? key = some pending) :
    c.backlog.Perm (pending.frames ++ c.others key) :=
  (Keyed.perm_erase h).flatMap_right Pending.frames

/-! ## A frame is queued -/

theorem push_backlog (c : ClientConnection) (key : String) (data : Bytes) :
    (c.push key data).backlog.Perm (data :: c.backlog) := by
  have hpush : (c.push key data).backlog =
      ((c.queue.get? key).elim [] Pending.frames ++ [data]) ++ c.others key := rfl
  have hrest : ((c.queue.get? key).elim [] Pending.frames ++ c.others key).Perm c.backlog := by
    cases h : c.queue.get? key with
    | none =>
      rw [others, Keyed.erase_of_get?_none h]
      exact List.Perm.refl _
    | some pending => exact (backlog_perm h).symm
  rw [hpush, List.append_assoc]
  exact List.perm_middle.trans (hrest.cons data)

/-- The table grows by one where the key is new. -/
theorem push_size (c : ClientConnection) (key : String) (data : Bytes) :
    (c.push key data).queue.size = c.queue.size + if c.queue.contains key then 0 else 1 := by
  have hpush : (c.push key data).queue.size = (c.queue.erase key).size + 1 := rfl
  rw [hpush, Keyed.contains]
  cases h : c.queue.get? key with
  | none =>
    rw [Keyed.erase_of_get?_none h]
    rfl
  | some pending =>
    have hlength := (Keyed.perm_erase h).length_eq
    rw [List.length_cons] at hlength
    exact hlength.symm

/-- The frames that are queued for the key. -/
def queued (c : ClientConnection) (key : String) : List Bytes :=
  (c.queue.get? key).elim [] Pending.frames

theorem push_queued (c : ClientConnection) (rawKey : String) (data : Bytes)
    (key : String) : (c.push rawKey data).queued key
      = c.queued key ++ if key = rawKey then [data] else [] := by
  have hget := Keyed.get?_insert c.queue Reorder.keep
    ⟨rawKey, (c.queue.get? rawKey).elim [] Pending.frames ++ [data]⟩ key
  have hpush : (c.push rawKey data).queue.get? key = (c.queue.insert Reorder.keep
    ⟨rawKey, (c.queue.get? rawKey).elim [] Pending.frames ++ [data]⟩).get? key := rfl
  rw [queued, hpush, hget]
  by_cases hkey : key = rawKey
  · subst hkey
    rw [if_pos rfl, if_pos rfl]
    rfl
  · rw [if_neg hkey, if_neg hkey, List.append_nil]
    rfl

/-- `enqueue` has found room. -/
structure Room (cfg : Configuration) (c : ClientConnection) (key : String) (data : Bytes) : Prop where
  documents : c.queue.contains key = false → c.queue.size + 1 ≤ cfg.maxPendingDocuments
  messages : c.queuedMessages + 1 ≤ cfg.maxUnauthenticatedQueueMessages
  bytes : c.queuedBytes + data.length ≤ cfg.maxUnauthenticatedQueueSize

instance (cfg : Configuration) (c : ClientConnection) (key : String) (data : Bytes) :
    Decidable (c.Room cfg key data) :=
  decidable_of_iff
    ((c.queue.contains key = false → c.queue.size + 1 ≤ cfg.maxPendingDocuments) ∧
      c.queuedMessages + 1 ≤ cfg.maxUnauthenticatedQueueMessages ∧
      c.queuedBytes + data.length ≤ cfg.maxUnauthenticatedQueueSize)
    ⟨fun h => ⟨h.1, h.2.1, h.2.2⟩, fun h => ⟨h.documents, h.messages, h.bytes⟩⟩

theorem Balanced.push {cfg : Configuration} {c : ClientConnection} (hc : c.Balanced cfg)
    {key : String} {data : Bytes} (hroom : c.Room cfg key data) : (c.push key data).Balanced cfg where
  messages := by
    rw [(c.push_backlog key data).length_eq, List.length_cons, ← hc.messages]
    rfl
  bytes := by
    rw [weight_perm (c.push_backlog key data), weight_cons, ← hc.bytes]
    exact Nat.add_comm _ _
  entries pending h := by
    rcases List.mem_cons.mp h with rfl | h
    · exact List.append_ne_nil_of_right_ne_nil _ (List.cons_ne_nil _ _)
    · exact hc.entries pending (List.mem_filter.mp h).1
  documents_le := by
    rw [push_size]
    cases hkey : c.queue.contains key with
    | true => exact hc.documents_le
    | false => exact hroom.documents hkey
  messages_le := hroom.messages
  bytes_le := hroom.bytes

/-! ## An entry is drained -/

/-- Each message takes one off the first counter and its length off the second. -/
theorem release_spec (frames : List Bytes) : ∀ c : ClientConnection,
    (c.release frames).queue = c.queue ∧
    (c.release frames).queuedMessages = c.queuedMessages - frames.length ∧
    (c.release frames).queuedBytes = c.queuedBytes - weight frames := by
  unfold release
  induction frames with
  | nil => exact fun c => ⟨rfl, rfl, rfl⟩
  | cons msg frames ih =>
    intro c
    obtain ⟨hqueue, hmessages, hbytes⟩ := ih { c with
      queuedMessages := c.queuedMessages - 1
      queuedBytes := c.queuedBytes - msg.length }
    rw [List.foldl_cons]
    refine ⟨hqueue, ?_, ?_⟩
    · rw [hmessages, List.length_cons]
      dsimp only
      omega
    · rw [hbytes, weight_cons]
      dsimp only
      omega

/-- An entry is counted in full. -/
theorem Balanced.counted {cfg : Configuration} {c : ClientConnection} (hc : c.Balanced cfg)
    {key : String} {pending : Pending} (h : c.queue.get? key = some pending) :
    c.queuedMessages = pending.frames.length + (c.others key).length ∧
    c.queuedBytes = weight pending.frames + weight (c.others key) := by
  have hperm := backlog_perm h
  constructor
  · rw [hc.messages, hperm.length_eq, List.length_append]
  · rw [hc.bytes, weight_perm hperm, weight_append]

theorem Balanced.drain {cfg : Configuration} {c : ClientConnection} (hc : c.Balanced cfg)
    {key : String} {pending : Pending} (h : c.queue.get? key = some pending)
    (established : Keyed Established.key) :
    (({ c with established := established, queue := c.queue.erase key }).release
      pending.frames).Balanced cfg := by
  obtain ⟨hqueue, hmessages, hbytes⟩ := release_spec pending.frames
    { c with established := established, queue := c.queue.erase key }
  obtain ⟨hcount, hweight⟩ := hc.counted h
  have hsize := (Keyed.perm_erase h).length_eq
  rw [List.length_cons] at hsize
  have hdocuments := hc.documents_le
  have hmax := hc.messages_le
  have hmaxbytes := hc.bytes_le
  generalize hrelease : ({ c with established := established, queue := c.queue.erase key } :
    ClientConnection).release pending.frames = c' at hqueue hmessages hbytes ⊢
  have hbacklog : c'.backlog = c.others key := by
    rw [backlog, hqueue]
    rfl
  dsimp only at hmessages hbytes
  refine ⟨?_, ?_, fun p hp => ?_, ?_, ?_, ?_⟩
  · rw [hbacklog, hmessages]
    omega
  · rw [hbacklog, hbytes]
    omega
  · rw [hqueue] at hp
    exact hc.entries p (List.mem_filter.mp hp).1
  · rw [hqueue]
    show (c.queue.erase key).vals.length ≤ cfg.maxPendingDocuments
    have hall : c.queue.vals.length ≤ cfg.maxPendingDocuments := hdocuments
    omega
  · omega
  · omega

/-- When the loop gets to a message, the counters still have it. -/
theorem Balanced.covers {cfg : Configuration} {c : ClientConnection} (hc : c.Balanced cfg)
    {key : String} {pending : Pending} (h : c.queue.get? key = some pending)
    (established : Keyed Established.key) {done rest : List Bytes} {msg : Bytes}
    (hframes : pending.frames = done ++ msg :: rest) :
    let c' := ({ c with established := established, queue := c.queue.erase key }).release done
    1 ≤ c'.queuedMessages ∧ msg.length ≤ c'.queuedBytes := by
  intro c'
  obtain ⟨_, hmessages, hbytes⟩ := release_spec done
    { c with established := established, queue := c.queue.erase key }
  obtain ⟨hcount, hweight⟩ := hc.counted h
  rw [hframes, List.length_append, List.length_cons] at hcount
  rw [hframes, weight_append, weight_cons] at hweight
  dsimp only at hmessages hbytes
  constructor
  · show 1 ≤ (({ c with established := established, queue := c.queue.erase key } :
      ClientConnection).release done).queuedMessages
    omega
  · show msg.length ≤ (({ c with established := established, queue := c.queue.erase key } :
      ClientConnection).release done).queuedBytes
    omega

end ClientConnection

/-! ## Turns of a socket -/

namespace Socket

open ClientConnection

/-- `enqueue` has room and queues the frame, or leaves the queue alone. -/
theorem enqueue_cases (cfg : Configuration) (sock : Socket) (key : String) (data : Bytes) :
    (sock.client.Room cfg key data ∧
      sock.enqueue cfg key data = { sock with client := sock.client.push key data }) ∨
    ¬ sock.client.Room cfg key data ∧ sock.enqueue cfg key data = sock.terminate resetConnection := by
  unfold enqueue
  dsimp only
  split
  next hdocuments =>
    refine Or.inr ⟨fun hroom => ?_, rfl⟩
    rw [Bool.and_eq_true, Bool.not_eq_true', decide_eq_true_eq] at hdocuments
    have hle := hroom.documents hdocuments.1
    omega
  next hdocuments =>
    split
    next hfull =>
      refine Or.inr ⟨fun hroom => ?_, rfl⟩
      rw [Bool.or_eq_true, decide_eq_true_eq, decide_eq_true_eq] at hfull
      have hmessages := hroom.messages
      have hbytes := hroom.bytes
      omega
    next hfits =>
      rw [Bool.or_eq_true, decide_eq_true_eq, decide_eq_true_eq] at hfits
      refine Or.inl ⟨⟨fun hnew => ?_, ?_, ?_⟩, rfl⟩
      · rw [hnew, Bool.not_false, Bool.true_and, decide_eq_true_eq] at hdocuments
        omega
      · omega
      · omega

/-- What a frame does to the queue: nothing, or it is queued where there is room. -/
theorem handleFrame_queue (Y : Yrs) (cfg : Configuration) (now : Nat) (sock : Socket)
    (data : Bytes) :
    sock.client.Holds (sock.handleFrame Y cfg now data).1.client ∨
    ∃ key c, sock.client.Holds c ∧ c.Room cfg key data ∧
      (sock.handleFrame Y cfg now data).1.client = c.push key data := by
  have hsame : sock.client.Holds (sock.heard now).client := ⟨rfl, rfl, rfl⟩
  have hframe := sock.handleFrame_cases Y cfg now data
  generalize sock.handleFrame Y cfg now data = handled at hframe ⊢
  cases hframe with
  | short | garbled | passes | asks | unread => exact Or.inl hsame
  | waits frame hlength hparse hnone hty =>
    rcases enqueue_cases cfg (sock.heard now) frame.routingKey data with ⟨hroom, hpush⟩ | ⟨_, hreset⟩
    · rw [hpush]
      exact Or.inr ⟨_, _, hsame, hroom, rfl⟩
    · rw [hreset]
      exact Or.inl hsame

/-- The queue of the key goes to the actor, behind everything that was traced. -/
theorem register_flow (sock : Socket) (r : Registration) (doc : Nat) :
    (sock.register r doc).1.client.queue = sock.client.queue.erase r.request.key ∧
    (sock.register r doc).1.trace = sock.trace ++ (sock.client.queued r.request.key).map
      fun data => .command doc (.clientFrame r.connId data) := by
  unfold register ClientConnection.queued
  dsimp only
  split
  next hnone =>
    rw [hnone, Keyed.erase_of_get?_none hnone]
    exact ⟨rfl, (List.append_nil _).symm⟩
  next pending hpending =>
    refine ⟨(ClientConnection.release_spec _ _).1, ?_⟩
    rw [hpending, List.map_map]
    rfl

theorem register_balanced {cfg : Configuration} {sock : Socket}
    (hc : sock.client.Balanced cfg) (r : Registration) (doc : Nat) :
    (sock.register r doc).1.client.Balanced cfg := by
  unfold register
  dsimp only
  split
  next => exact hc.holds ⟨rfl, rfl, rfl⟩
  next pending h => exact hc.drain h _

theorem connected_holds (Y : Yrs) (sock : Socket) (request : AuthRequest)
    (results : List HookResult) : sock.client.Holds (sock.connected Y request results).client := by
  unfold connected
  dsimp only
  split <;> exact ⟨rfl, rfl, rfl⟩

theorem authenticated_holds (Y : Yrs) (sock : Socket) (request : AuthRequest)
    (results : List HookResult) (readOnly : Bool) (connId : Nat) :
    sock.client.Holds (sock.authenticated Y request results readOnly connId).client := by
  unfold authenticated
  dsimp only
  split <;> exact ⟨rfl, rfl, rfl⟩

end Socket

namespace Server

open ClientConnection

theorem SocketTurn.balanced {cfg : Configuration} {s t : Server Y} {i : Nat} {sock sock' : Socket}
    {l : Label Y} (h : SocketTurn cfg s t i sock l sock') (hc : sock.client.Balanced cfg) :
    sock'.client.Balanced cfg := by
  have hfailed : ∀ (sock₁ : Socket) (r : Registration), sock₁.client = sock.client →
      (sock₁.failed r).client.Balanced cfg := by
    intro sock₁ r hsame
    rw [(sock₁.failed_spec r).1, hsame]
    exact hc
  cases h with
  | idle => exact hc
  | receive data now htask =>
    rcases sock.handleFrame_queue Y cfg now data with hholds | ⟨key, c, hholds, hroom, hpush⟩
    · exact hc.holds hholds
    · rw [hpush]
      exact (hc.holds hholds).push hroom
  | hangup htask => exact hc
  | timeout now htask => exact hc
  | connected request results htask => exact hc.holds (sock.connected_holds Y request results)
  | authenticated request results readOnly htask =>
    exact hc.holds (sock.authenticated_holds Y request results readOnly s.nextConnId)
  | calls doc queues r call next htask | finds doc queues r call h htask
  | sends doc queues r h htask => exact hc
  | refused doc queues r h htask => exact hfailed _ r rfl
  | lost doc queues r h ack htask => exact hfailed sock r rfl
  | acked doc queues r h ack htask => exact Socket.register_balanced hc r h
  | leave key est htask => exact hc.holds ⟨rfl, rfl, rfl⟩
  | clean htask => exact hc

/-- The queues of all sockets balance. -/
def Balanced (cfg : Configuration) (s : Server Y) : Prop :=
  ∀ (i : Nat) (sock : Socket), s.sockets[i]? = some sock → sock.client.Balanced cfg

/-- **The step lemma.** -/
theorem Balanced.step {s t : Server Y} {cfg : Configuration} (hs : s.Balanced cfg) {l : Label Y}
    (h : Server.step cfg s l = some t) : t.Balanced cfg := by
  intro i sock' hsock'
  rcases step_socket h hsock' with ⟨sock, hsock, hturn⟩ | ⟨_, now, _, rfl⟩
  · exact hturn.balanced (hs i sock hsock)
  · exact new_balanced cfg _ now

theorem build_balanced (Y : Yrs) (cfg : Configuration) : (build Y).Balanced cfg := by
  intro i sock h
  cases h

end Server

/-- **The accounting of the queue is exact**: of every socket, in every state a
server reaches. The drain of an entry finds both counters large enough for each
message it takes off, whatever the socket has established by then. -/
theorem queue_accounting {cfg : Configuration} {ls : List (Server.Label Y)} {s : Server Y}
    (hrun : Lts.exec (Server.step cfg) (Server.build Y) ls = some s) {i : Nat} {sock : Socket}
    (hsock : s.sockets[i]? = some sock) :
    sock.client.Balanced cfg ∧
    ∀ key pending established, sock.client.queue.get? key = some pending →
      ∀ done msg rest, pending.frames = done ++ msg :: rest →
        let c := ({ sock.client with
          established := established
          queue := sock.client.queue.erase key }).release done
        1 ≤ c.queuedMessages ∧ msg.length ≤ c.queuedBytes := by
  have hs : s.Balanced cfg :=
    Lts.exec_invariant (fun _ _ _ hstep hs => hs.step hstep) hrun (Server.build_balanced Y cfg)
  exact ⟨hs i sock hsock, fun key pending established hkey done msg rest hframes =>
    (hs i sock hsock).covers hkey established hframes⟩

/-- A socket that has sent two frames before it authenticates. -/
theorem queue_accounting_two :
    let frame := ((OutgoingMessage.new OneWriter.yrs "doc").queryAwareness OneWriter.yrs).intoBytes
    let s := OneWriter.serve {} [.connect 0, .receive 0 frame 0, .receive 0 frame 0]
    ∃ sock pending, s.sockets[0]? = some sock ∧ sock.client.queue.get? "doc" = some pending ∧
      pending.frames = [frame, frame] ∧ sock.client.Balanced {} ∧
      (sock.client.release [frame]).queuedMessages = 1 := by
  intro frame s
  have hsome : ((s.sockets[0]?).bind fun sock => (sock.client.queue.get? "doc").bind fun pending =>
      if pending.frames = [frame, frame] ∧ (sock.client.release [frame]).queuedMessages = 1
      then some () else none).isSome = true := by
    decide +kernel
  obtain ⟨_, hboth⟩ := Option.isSome_iff_exists.mp hsome
  obtain ⟨sock, hsock, hboth⟩ := Option.bind_eq_some_iff.mp hboth
  obtain ⟨pending, hpending, htwo⟩ := Option.bind_eq_some_iff.mp hboth
  split at htwo
  next hframes =>
    have hall := @queue_accounting _ {} _ s (Lts.exec_reach (by decide +kernel)) 0 sock hsock
    exact ⟨sock, pending, hsock, hpending, hframes.1, hall.1, hframes.2⟩
  next => cases htwo

end Hocuspocus
