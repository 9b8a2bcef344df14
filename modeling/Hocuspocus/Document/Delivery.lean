import Hocuspocus.Document.Frame

/-!
# What the send paths do

One lemma for each way a message reaches a queue: what is appended to the
trace, and who is still connected afterwards. A broadcast offers its frame to
every connection in turn; the offers and what the queues answered are a list
of pairs, and the evicted connections are those whose answer was `full`.
-/

namespace Hocuspocus

variable {Y : Yrs}

/-- The offer of a frame to a connection. -/
def offered (frameFor : ConnHandle → Bytes) (r : ConnHandle × SendResult) : Event Y :=
  .frame r.1.connId r.1.outbound (frameFor r.1) r.2

/-- The connections whose queue was full. -/
def lagging (rs : List (ConnHandle × SendResult)) : List Nat :=
  (rs.filter fun r => r.2 = .full).map fun r => r.1.connId

def Event.isClose : Event Y → Bool
  | .close .. => true
  | _ => false

namespace World

@[simp] theorem poll_trace (w : World Y) : w.poll.trace = w.trace := by
  unfold poll
  split <;> rfl

@[simp] theorem poll_connections (w : World Y) : w.poll.connections = w.connections := by
  unfold poll
  split <;> rfl

@[simp] theorem poll_awareness (w : World Y) : w.poll.awareness = w.awareness := by
  unfold poll
  split <;> rfl

theorem sendFrame_trace (w : World Y) (conn : ConnHandle) (frame : Bytes) :
    (w.sendFrame conn frame).1.trace =
      w.trace ++ [.frame conn.connId conn.outbound frame
        (w.trySend conn.outbound (.frame frame)).2] :=
  congrArg (· ++ _) w.poll_trace

@[simp] theorem sendFrame_connections (w : World Y) (conn : ConnHandle) (frame : Bytes) :
    (w.sendFrame conn frame).1.connections = w.connections := w.poll_connections

theorem sendFrame_snd (w : World Y) (conn : ConnHandle) (frame : Bytes) :
    (w.sendFrame conn frame).2 = decide ((w.trySend conn.outbound (.frame frame)).2 ≠ .full) := rfl

theorem sendClose_trace (w : World Y) (conn : ConnHandle) (event : CloseEvent) :
    (w.sendClose conn event).trace =
      w.trace ++ [.close conn.connId conn.outbound event
        (w.trySend conn.outbound (.close event)).2] :=
  congrArg (· ++ _) w.poll_trace

@[simp] theorem sendClose_connections (w : World Y) (conn : ConnHandle) (event : CloseEvent) :
    (w.sendClose conn event).connections = w.connections := w.poll_connections

@[simp] theorem detach_connections (w : World Y) (id : Nat) (conn : ConnHandle) :
    (w.detach id conn).connections = w.connections.erase id := rfl

/-- The send loop offers the frame to each connection, in order, and returns
those whose queue was full. -/
theorem sendEach_spec (frameFor : ConnHandle → Bytes) (conns : List ConnHandle) (w : World Y) :
    ∃ rs : List (ConnHandle × SendResult), rs.map Prod.fst = conns ∧
      (sendEach frameFor w conns).1.trace = w.trace ++ rs.map (offered frameFor) ∧
      (sendEach frameFor w conns).2 = lagging rs ∧
      (sendEach frameFor w conns).1.connections = w.connections := by
  induction conns generalizing w with
  | nil => exact ⟨[], rfl, (List.append_nil _).symm, rfl, rfl⟩
  | cons conn rest ih =>
    obtain ⟨rs, hfst, htrace, hids, hconns⟩ := ih (w.sendFrame conn (frameFor conn)).1
    have hsent := sendFrame_snd w conn (frameFor conn)
    refine ⟨(conn, (w.trySend conn.outbound (.frame (frameFor conn))).2) :: rs,
      by rw [List.map_cons, hfst], ?_, ?_, ?_⟩
    · show (sendEach frameFor (w.sendFrame conn (frameFor conn)).1 rest).1.trace = _
      rw [htrace, sendFrame_trace, List.append_assoc]
      rfl
    · show (if (w.sendFrame conn (frameFor conn)).2 then _ else _) = _
      rw [hids, hsent]
      by_cases hfull : (w.trySend conn.outbound (.frame (frameFor conn))).2 = .full
      · simp [lagging, hfull]
      · simp [lagging, hfull]
    · show (sendEach frameFor (w.sendFrame conn (frameFor conn)).1 rest).1.connections = _
      rw [hconns, sendFrame_connections]

theorem evict_spec (w : World Y) (id : Nat) :
    ∃ k, (w.evict id).trace = w.trace ++ k ∧ (∀ e ∈ k, e.isClose = true) ∧
      (w.evict id).connections = w.connections.erase id := by
  unfold evict
  split
  next hnone =>
    refine ⟨[], (List.append_nil _).symm, nofun, ?_⟩
    exact (Keyed.erase_of_get?_none hnone).symm
  next conn hsome =>
    refine ⟨_, sendClose_trace _ _ _, ?_, sendClose_connections _ _ _⟩
    intro e he
    rw [List.mem_singleton.mp he]
    rfl

/-- Evicting sends nothing but closes, and removes exactly the given ids. -/
theorem evictLagging_spec (ids : List Nat) (w : World Y) :
    ∃ k, (w.evictLagging ids).trace = w.trace ++ k ∧ (∀ e ∈ k, e.isClose = true) ∧
      ∀ j, (w.evictLagging ids).connections.get? j
        = if j ∈ ids then none else w.connections.get? j := by
  induction ids generalizing w with
  | nil => exact ⟨[], (List.append_nil _).symm, nofun, fun j => by simp [evictLagging]⟩
  | cons id ids ih =>
    obtain ⟨k₁, htrace₁, hclose₁, hconns₁⟩ := w.evict_spec id
    obtain ⟨k₂, htrace₂, hclose₂, hconns₂⟩ := ih (w.evict id)
    refine ⟨k₁ ++ k₂, ?_, ?_, ?_⟩
    · rw [evictLagging, htrace₂, htrace₁, List.append_assoc]
    · intro e he
      exact (List.mem_append.mp he).elim (hclose₁ e) (hclose₂ e)
    · intro j
      rw [evictLagging, hconns₂, hconns₁, Keyed.get?_erase]
      by_cases hj : j ∈ ids
      · simp [hj]
      · by_cases hid : j = id <;> simp [hj, hid]

/-- A broadcast offers everyone the frame for their address, and leaves those
connected whose queue was not full. -/
theorem broadcastWith_spec (w : World Y) (build : String → Bytes) :
    ∃ (rs : List (ConnHandle × SendResult)) (k : List (Event Y)),
      rs.map Prod.fst = w.connections.vals ∧
      (w.broadcastWith build).trace =
        w.trace ++ (rs.map (offered fun conn => build conn.messageAddress) ++ k) ∧
      (∀ e ∈ k, e.isClose = true) ∧
      ∀ j, (w.broadcastWith build).connections.get? j
        = if j ∈ lagging rs then none else w.connections.get? j := by
  have hframe : sharedFrame w.name build = fun conn => build conn.messageAddress := by
    funext conn
    unfold sharedFrame
    dsimp only
    split
    next haddr => rw [haddr]
    next => rfl
  obtain ⟨rs, hfst, htrace, hids, hconns⟩ :=
    sendEach_spec (sharedFrame w.name build) w.connections.vals w
  obtain ⟨k, htrace', hclose, hconns'⟩ :=
    evictLagging_spec (lagging rs) (sendEach (sharedFrame w.name build) w w.connections.vals).1
  have hall : w.broadcastWith build =
      (sendEach (sharedFrame w.name build) w w.connections.vals).1.evictLagging (lagging rs) := by
    rw [← hids]
    rfl
  refine ⟨rs, k, hfst, ?_, hclose, ?_⟩
  · rw [hall, htrace', htrace, List.append_assoc, hframe]
  · intro j
    rw [hall, hconns' j, hconns]

end World

/-! ## Steps and runs -/

/-- What the actor's trace gained from `a` to `b`. -/
def Actor.sent (a b : Actor Y) : List (Event Y) := b.world.trace.drop a.world.trace.length

theorem Actor.trace_sent {a b : Actor Y} (h : a.world.trace <+: b.world.trace) :
    b.world.trace = a.world.trace ++ a.sent b :=
  (List.prefix_iff_eq_append.mp h).symm

theorem Actor.sent_eq {a b : Actor Y} {k : List (Event Y)}
    (h : b.world.trace = a.world.trace ++ k) : a.sent b = k := by
  rw [Actor.sent, h, List.drop_left]

theorem Actor.sent_trans {a b c : Actor Y} (hab : a.world.trace <+: b.world.trace)
    (hbc : b.world.trace <+: c.world.trace) : a.sent c = a.sent b ++ b.sent c := by
  refine Actor.sent_eq ?_
  rw [← List.append_assoc, ← Actor.trace_sent hab]
  exact Actor.trace_sent hbc

theorem Actor.run_trace {cfg : Configuration} {a b : Actor Y} {ls : List Label}
    (hrun : Actor.Run cfg a ls b) : a.world.trace <+: b.world.trace :=
  Lts.exec_invariant (I := fun c => a.world.trace <+: c.world.trace)
    (fun _ _ _ hstep h => h.trans (Actor.step_trace hstep)) hrun (List.prefix_refl _)

/-- The connection is in the actor's map. -/
def Actor.Registered (connId : Nat) (a : Actor Y) : Prop :=
  ∃ conn, a.world.connections.get? connId = some conn

end Hocuspocus
