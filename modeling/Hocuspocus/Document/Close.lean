import Hocuspocus.Document.Evict
import Hocuspocus.Lib.Slack

/-!
# The close of an evicted connection

`evict_lagging` sends the `Close` through the queue `broadcast_with` has just
found full, with the same `try_send`. Whether it arrives is decided between the
refused frame and the close, by what the writer task takes from that queue and
what is put into it meanwhile.

A broadcast is a list of turns, one `try_send` each: a frame for every
connection, then a close for every connection found full (`World.turns`).
Between two turns the schedule runs what the writers and the other documents of
a socket do, and `actsSince` lists all of it, the actor's own sends included,
from the refusal to the close.

`World.MakesRoom` is the condition on that list. It counts the moves on the one
queue (`movesOn`): from some moment on the writer takes more than anyone tries to
put in (`Slack.Relieved`), and the socket is still there at the close's turn.
`evictionCloses_iff` proves that it decides the matter: `runQueueActs_places`
follows the free places of one queue through any list of acts, and
`Slack.relieved_iff` says when a queue that had none has one again. A writer that
takes nothing during the broadcast never hears of the eviction
(`stalled_loses_close`).
-/

namespace Hocuspocus

variable {Y : Yrs}

/-! ## Turns

A turn is one `try_send`: the queue and the message.
-/

/-- What happens to the queues in a list of turns: before each, what others do,
then the send of the actor. -/
def rounds : List (List QueueAct) → List (Nat × OutMsg) → List QueueAct
  | _, [] => []
  | sched, (q, m) :: rest => sched.headD [] ++ .send q m :: rounds sched.tail rest

/-- What has happened when it is the turn of the `k`-th send. -/
def actsBefore (sched : List (List QueueAct)) (turns : List (Nat × OutMsg)) (k : Nat) :
    List QueueAct :=
  rounds sched (turns.take k) ++ (sched.drop k).headD []

/-- What happens after the `j`-th send, until it is the turn of the `k`-th. -/
def actsSince (sched : List (List QueueAct)) (turns : List (Nat × OutMsg)) (j k : Nat) :
    List QueueAct :=
  actsBefore (sched.drop (j + 1)) (turns.drop (j + 1)) (k - (j + 1))

/-- The queues the `k`-th send finds. -/
def queuesAt (qs : Queues) (sched : List (List QueueAct)) (turns : List (Nat × OutMsg))
    (k : Nat) : Queues :=
  runQueueActs qs (actsBefore sched turns k)

def frameTurns (frameFor : ConnHandle → Bytes) (conns : List ConnHandle) : List (Nat × OutMsg) :=
  conns.map fun conn => (conn.outbound, .frame (frameFor conn))

def closeTurns (conns : List ConnHandle) : List (Nat × OutMsg) :=
  conns.map fun conn => (conn.outbound, .close resetConnection)

/-- The connections whose queue is full at the turn of their frame, each with
that turn. -/
def refusals (frameFor : ConnHandle → Bytes) (qs : Queues) (sched : List (List QueueAct))
    (conns : List ConnHandle) : List (ConnHandle × Nat) :=
  conns.zipIdx.filter fun (conn, j) =>
    (queuesAt qs sched (frameTurns frameFor conns) j conn.outbound).isFull

/-- What an act does to the number of messages in a queue. A hangup ends the
queue, and counts for nothing. -/
def QueueAct.moveOn (q : Nat) : QueueAct → Option Slack.Move
  | .drain i => if i = q then some .take else none
  | .send i _ => if i = q then some .put else none
  | .hangup _ => none

/-- What is taken from a queue, and what is put into it. -/
def movesOn (q : Nat) (acts : List QueueAct) : List Slack.Move :=
  acts.filterMap (QueueAct.moveOn q)

theorem runQueueActs_append (qs : Queues) (acts acts' : List QueueAct) :
    runQueueActs qs (acts ++ acts') = runQueueActs (runQueueActs qs acts) acts' :=
  List.foldl_append ..

section Turns

variable (qs : Queues) (sched : List (List QueueAct)) (q : Nat) (m : OutMsg)
  (turns : List (Nat × OutMsg))

/-- The queues after the first send, from where the other turns follow. -/
def afterSend : Queues :=
  let now := runQueueActs qs (sched.headD [])
  now.set q ((now q).trySend m).1

theorem actsBefore_succ (k : Nat) : actsBefore sched ((q, m) :: turns) (k + 1)
    = sched.headD [] ++ .send q m :: actsBefore sched.tail turns k := by
  rw [actsBefore, List.take_succ_cons, rounds, ← List.drop_tail, List.append_assoc,
    List.cons_append]
  rfl

theorem queuesAt_succ (k : Nat) : queuesAt qs sched ((q, m) :: turns) (k + 1)
    = queuesAt (afterSend qs sched q m) sched.tail turns k := by
  rw [queuesAt, actsBefore_succ, runQueueActs_append]
  rfl

/-- All turns of a list are over: the queues, and what is left of the schedule. -/
theorem queuesAt_append (turns' : List (Nat × OutMsg)) (k : Nat) :
    queuesAt qs sched (turns ++ turns') (turns.length + k)
      = queuesAt (runQueueActs qs (rounds sched turns)) (sched.drop turns.length) turns' k := by
  induction turns generalizing qs sched with
  | nil => rw [List.nil_append, List.length_nil, Nat.zero_add]; rfl
  | cons turn rest ih =>
    obtain ⟨q, m⟩ := turn
    rw [List.cons_append, List.length_cons, Nat.add_right_comm, queuesAt_succ, ih, rounds,
      runQueueActs_append, ← List.drop_tail]
    rfl

/-- From one turn to a later one: its own send, and what happens since. -/
theorem queuesAt_since {j k : Nat} (hturn : turns[j]? = some (q, m)) (hjk : j < k) :
    queuesAt qs sched turns k
      = runQueueActs (queuesAt qs sched turns j) (.send q m :: actsSince sched turns j k) := by
  induction j generalizing qs sched turns k with
  | zero =>
    obtain ⟨rest, rfl⟩ : ∃ rest, turns = (q, m) :: rest := by
      cases turns with
      | nil => cases hturn
      | cons turn rest => exact ⟨rest, by injection hturn with h; rw [h]⟩
    obtain ⟨k, rfl⟩ : ∃ k', k = k' + 1 := ⟨k - 1, by omega⟩
    rw [queuesAt_succ, actsSince, Nat.zero_add, List.drop_one, List.drop_one, List.tail_cons,
      Nat.add_sub_cancel]
    rfl
  | succ j ih =>
    cases turns with
    | nil => cases hturn
    | cons turn rest =>
      obtain ⟨k, rfl⟩ : ∃ k', k = k' + 1 := ⟨k - 1, by omega⟩
      obtain ⟨q', m'⟩ := turn
      rw [queuesAt_succ, queuesAt_succ, ih _ _ _ hturn (by omega), actsSince, actsSince,
        List.drop_succ_cons, List.drop_tail, Nat.add_sub_add_right]

theorem refusals_cons (frameFor : ConnHandle → Bytes) (conn : ConnHandle)
    (rest : List ConnHandle) :
    (refusals frameFor qs sched (conn :: rest)).map Prod.fst
      = (if (runQueueActs qs (sched.headD []) conn.outbound).isFull then [conn] else [])
        ++ (refusals frameFor (afterSend qs sched conn.outbound (.frame (frameFor conn)))
          sched.tail rest).map Prod.fst := by
  have hlater : (rest.zipIdx 1).filter (fun (c, j) =>
        (queuesAt qs sched (frameTurns frameFor (conn :: rest)) j c.outbound).isFull)
      = (refusals frameFor (afterSend qs sched conn.outbound (.frame (frameFor conn)))
          sched.tail rest).map fun (c, j) => (c, j + 1) := by
    rw [refusals, List.zipIdx_succ, List.filter_map]
    refine congrArg _ (List.filter_congr fun c _ => ?_)
    exact congrArg (fun qs' : Queues => (qs' c.1.outbound).isFull)
      (queuesAt_succ qs sched _ _ (frameTurns frameFor rest) c.2)
  rw [refusals, List.zipIdx_cons, List.filter_cons, Nat.zero_add, hlater]
  by_cases hfull : (runQueueActs qs (sched.headD []) conn.outbound).isFull = true
  · refine (congrArg (List.map Prod.fst) (if_pos hfull)).trans ?_
    rw [if_pos hfull, List.map_cons, List.map_map]
    rfl
  · refine (congrArg (List.map Prod.fst) (if_neg hfull)).trans ?_
    rw [if_neg hfull, List.map_map]
    rfl

end Turns

/-! ## The places of one queue -/

/-- A queue that has ended stays so. -/
theorem QueueAct.run_closed {qs : Queues} {q : Nat} (act : QueueAct)
    (h : (qs q).closed = true) : (act.run qs q).closed = true := by
  have hset : ∀ i (c : Channel OutMsg), (q = i → c.closed = true) → (qs.set i c q).closed = true := by
    intro i c hc
    by_cases hi : q = i
    · rw [hi, Queues.set_self]
      exact hc hi
    · rw [Queues.set_ne _ hi, h]
  cases act with
  | drain i =>
    refine hset i _ fun hi => ?_
    subst hi
    unfold drainOne
    split
    · rfl
    · exact h
  | hangup i => exact hset i _ fun _ => rfl
  | send i m =>
    refine hset i _ fun hi => ?_
    subst hi
    rw [Channel.trySend_noRoom m (by rw [Channel.hasRoom, h]; rfl), h]

theorem runQueueActs_closed {qs : Queues} {q : Nat} (acts : List QueueAct)
    (h : (qs q).closed = true) : (runQueueActs qs acts q).closed = true := by
  induction acts generalizing qs with
  | nil => exact h
  | cons act rest ih => exact ih (act.run_closed h)

/-- One act on a queue that is still there after it. -/
theorem QueueAct.run_places {qs : Queues} {q : Nat} (act : QueueAct)
    (hopen : (act.run qs q).closed = false) :
    (act.run qs q).cap = (qs q).cap ∧
      (act.run qs q).places = Slack.free (qs q).cap (qs q).places (movesOn q [act]) := by
  have hbounded := (qs q).bounded
  -- an act on another queue is none of this one's
  have hother : ∀ {i : Nat} {c : Channel OutMsg}, q ≠ i → act.run qs = qs.set i c →
      movesOn q [act] = [] → (act.run qs q).cap = (qs q).cap ∧
        (act.run qs q).places = Slack.free (qs q).cap (qs q).places (movesOn q [act]) := by
    intro i c hi hrun hmoves
    rw [hrun, hmoves, Queues.set_ne _ hi]
    exact ⟨rfl, rfl⟩
  cases act with
  | drain i =>
    by_cases hi : q = i
    · subst hi
      have hmoves : movesOn q [.drain q] = [.take] := by simp [movesOn, QueueAct.moveOn]
      rw [hmoves]
      rw [QueueAct.run, Queues.set_self] at hopen ⊢
      unfold drainOne at hopen ⊢
      split
      next hitems =>
        -- the writer that takes a close ends the queue
        rw [hitems] at hopen
        cases hopen
      next =>
        refine ⟨rfl, ?_⟩
        simp only [Channel.recv, Channel.places, List.length_tail, Slack.free]
        omega
    · exact hother hi rfl (by simp [movesOn, QueueAct.moveOn, Ne.symm hi])
  | hangup i =>
    by_cases hi : q = i
    · subst hi
      rw [QueueAct.run, Queues.set_self] at hopen
      cases hopen
    · exact hother hi rfl rfl
  | send i m =>
    by_cases hi : q = i
    · subst hi
      have hmoves : movesOn q [.send q m] = [.put] := by simp [movesOn, QueueAct.moveOn]
      rw [hmoves]
      rw [QueueAct.run, Queues.set_self] at hopen ⊢
      unfold Channel.trySend at hopen ⊢
      split
      next hclosed =>
        rw [if_pos hclosed, hclosed] at hopen
        cases hopen
      next =>
        split
        · refine ⟨rfl, ?_⟩
          simp only [Channel.places, List.length_append, List.length_singleton, Slack.free]
          omega
        · refine ⟨rfl, ?_⟩
          simp only [Channel.places, Slack.free]
          omega
    · exact hother hi rfl (by simp [movesOn, QueueAct.moveOn, Ne.symm hi])

/-- The free places of a queue follow what is taken from it and put into it, as
long as it is there. -/
theorem runQueueActs_places {qs : Queues} {q : Nat} (acts : List QueueAct)
    (hopen : (runQueueActs qs acts q).closed = false) :
    (runQueueActs qs acts q).cap = (qs q).cap ∧
      (runQueueActs qs acts q).places = Slack.free (qs q).cap (qs q).places (movesOn q acts) := by
  induction acts generalizing qs with
  | nil => exact ⟨rfl, rfl⟩
  | cons act rest ih =>
    have hnow : (act.run qs q).closed = false := by
      cases hclosed : (act.run qs q).closed with
      | false => rfl
      | true =>
        have hend := runQueueActs_closed rest hclosed
        rw [show runQueueActs (act.run qs) rest = runQueueActs qs (act :: rest) from rfl,
          hopen] at hend
        cases hend
    obtain ⟨hcap, hplaces⟩ := act.run_places hnow
    obtain ⟨hcap', hplaces'⟩ := ih hopen
    refine ⟨hcap'.trans hcap, hplaces'.trans ?_⟩
    rw [hcap, hplaces, ← Slack.free_append]
    have hmoves : movesOn q [act] ++ movesOn q rest = movesOn q (act :: rest) :=
      List.filterMap_append.symm
    rw [hmoves]

/-- A queue that was full has room at a later turn exactly when it was relieved
since, and is there. -/
theorem hasRoom_since {qs : Queues} {sched : List (List QueueAct)} {turns : List (Nat × OutMsg)}
    {q j k : Nat} {m : OutMsg} (hturn : turns[j]? = some (q, m)) (hjk : j < k)
    (hfull : (queuesAt qs sched turns j q).isFull = true) :
    (queuesAt qs sched turns k q).hasRoom = true ↔
      (queuesAt qs sched turns k q).closed = false ∧
        Slack.Relieved (qs q).cap (movesOn q (actsSince sched turns j k)) := by
  rw [Channel.hasRoom_iff]
  refine and_congr_right fun hopen => ?_
  have hsince := queuesAt_since qs sched q m turns hturn hjk
  obtain ⟨hthere, hnone⟩ := (Channel.isFull_iff _).mp hfull
  have hcap : (queuesAt qs sched turns j q).cap = (qs q).cap := (runQueueActs_places _ hthere).1
  have hmoves : movesOn q (.send q m :: actsSince sched turns j k)
      = .put :: movesOn q (actsSince sched turns j k) := by
    simp [movesOn, QueueAct.moveOn]
  rw [hsince] at hopen ⊢
  -- the refused frame is a put that finds no place
  rw [(runQueueActs_places _ hopen).2, hcap, hnone, hmoves, ← Slack.relieved_iff]
  rfl

namespace World

/-- The connections a broadcast finds full, each with the turn of its frame. -/
def refusals (w : World Y) (build : String → Bytes) : List (ConnHandle × Nat) :=
  Hocuspocus.refusals (sharedFrame w.name build) w.queues w.sched w.connections.vals

/-- The connections a broadcast finds full. -/
def foundFull (w : World Y) (build : String → Bytes) : List ConnHandle :=
  (w.refusals build).map Prod.fst

/-- The turns of a broadcast: a frame for everyone, a close for whoever is found
full. -/
def turns (w : World Y) (build : String → Bytes) : List (Nat × OutMsg) :=
  frameTurns (sharedFrame w.name build) w.connections.vals ++ closeTurns (w.foundFull build)

/-- After the `refused`-th turn a queue gets a place for the close, before the
turn of one: more is taken from it than put into it, and its socket is still
there. -/
def MakesRoom (w : World Y) (build : String → Bytes) (q refused : Nat) : Prop :=
  ∃ k ∈ List.range (w.turns build).length,
    (w.turns build)[k]? = some (q, .close resetConnection) ∧
      (queuesAt w.queues w.sched (w.turns build) k q).closed = false ∧
      Slack.Relieved (w.queues q).cap (movesOn q (actsSince w.sched (w.turns build) refused k))

instance (w : World Y) (build : String → Bytes) (q refused : Nat) :
    Decidable (w.MakesRoom build q refused) :=
  inferInstanceAs (Decidable (∃ k ∈ List.range (w.turns build).length, _))

/-- The queue of each connection found full gets a place for the close. -/
def Relieves (w : World Y) (build : String → Bytes) : Prop :=
  ∀ c ∈ w.refusals build, w.MakesRoom build c.1.outbound c.2

instance (w : World Y) (build : String → Bytes) : Decidable (w.Relieves build) :=
  inferInstanceAs (Decidable (∀ c ∈ w.refusals build, w.MakesRoom build c.1.outbound c.2))

/-- Every connection the broadcast removes has a close accepted by the queue
of its socket. -/
def EvictionCloses (w : World Y) (build : String → Bytes) : Prop :=
  ∀ conn ∈ w.connections.vals,
    (w.broadcastWith build).connections.get? conn.connId = none →
    ∃ id event, Event.close id conn.outbound event .accepted
      ∈ (w.broadcastWith build).trace.drop w.trace.length

/-- The send loop: whom it finds full, and the queues and the schedule after
it. -/
theorem sendEach_turns (frameFor : ConnHandle → Bytes) (conns : List ConnHandle) (w : World Y) :
    (sendEach frameFor w conns).2 = (Hocuspocus.refusals frameFor w.queues w.sched conns).map
        (fun c => c.1.connId) ∧
      (sendEach frameFor w conns).1.queues
        = runQueueActs w.queues (rounds w.sched (frameTurns frameFor conns)) ∧
      (sendEach frameFor w conns).1.sched = w.sched.drop conns.length := by
  induction conns generalizing w with
  | nil => exact ⟨rfl, rfl, rfl⟩
  | cons conn rest ih =>
    obtain ⟨hids, hqueues, hsched⟩ := ih (w.sendFrame conn (frameFor conn)).1
    have hafter : (w.sendFrame conn (frameFor conn)).1.queues
        = afterSend w.queues w.sched conn.outbound (.frame (frameFor conn)) := by
      rw [sendFrame_queues, poll_queues]
      rfl
    rw [hafter, sendFrame_sched] at hids hqueues
    rw [sendFrame_sched, List.drop_tail] at hsched
    refine ⟨?_, ?_, hsched⟩
    · have hfull := Channel.trySend_full_iff (w.poll.queues conn.outbound) (.frame (frameFor conn))
      have hsent := sendFrame_snd w conn (frameFor conn)
      rw [trySend_snd, poll_queues] at hsent
      rw [poll_queues] at hfull
      have hcons := congrArg (List.map ConnHandle.connId)
        (refusals_cons w.queues w.sched frameFor conn rest)
      rw [List.map_map, List.map_append, List.map_map] at hcons
      show (if (w.sendFrame conn (frameFor conn)).2 then _ else _) = _
      rw [hids]
      refine Eq.trans ?_ hcons.symm
      rw [hsent]
      by_cases h : (runQueueActs w.queues (w.sched.headD []) conn.outbound).isFull = true
      · rw [hfull.mpr h, if_pos h]
        rfl
      · have hnot : ((runQueueActs w.queues (w.sched.headD []) conn.outbound).trySend
            (.frame (frameFor conn))).2 ≠ .full := fun he => h (hfull.mp he)
        rw [decide_eq_true hnot, if_neg h]
        rfl
    · refine hqueues.trans ?_
      exact (runQueueActs_append w.queues (w.sched.headD [])
        (.send conn.outbound (.frame (frameFor conn)) ::
          rounds w.sched.tail (frameTurns frameFor rest))).symm

theorem evict_some {w : World Y} {conn : ConnHandle}
    (h : w.connections.get? conn.connId = some conn) :
    w.evict conn.connId = (w.detach conn.connId conn).sendClose conn resetConnection := by
  rw [evict, h]

/-- In the eviction loop a queue accepts a close exactly when it has room at the
turn of one. -/
theorem evictLagging_turns (conns : List ConnHandle) (w : World Y)
    (hin : ∀ conn ∈ conns, w.connections.get? conn.connId = some conn)
    (hnodup : (conns.map ConnHandle.connId).Nodup) :
    ∃ k, (w.evictLagging (conns.map ConnHandle.connId)).trace = w.trace ++ k ∧
      ∀ q, (∃ id event, Event.close id q event .accepted ∈ k) ↔
        ∃ i, (closeTurns conns)[i]? = some (q, .close resetConnection) ∧
          (queuesAt w.queues w.sched (closeTurns conns) i q).hasRoom = true := by
  induction conns generalizing w with
  | nil =>
    refine ⟨[], (List.append_nil _).symm, fun q => ?_⟩
    exact ⟨fun ⟨_, _, h⟩ => (nomatch h), fun ⟨_, h, _⟩ => (nomatch h)⟩
  | cons conn rest ih =>
    obtain ⟨hnew, hrest⟩ := List.nodup_cons.mp hnodup
    have hself := hin conn (List.mem_cons_self ..)
    let v := (w.detach conn.connId conn).sendClose conn resetConnection
    -- the eviction of one connection leaves the others registered
    have hstill : ∀ c ∈ rest, v.connections.get? c.connId = some c := by
      intro c hc
      have hne : c.connId ≠ conn.connId := fun he =>
        hnew (he ▸ List.mem_map_of_mem hc)
      rw [sendClose_connections, detach_connections, Keyed.get?_erase, if_neg hne]
      exact hin c (List.mem_cons_of_mem _ hc)
    obtain ⟨k, htrace, hiff⟩ := ih v hstill hrest
    have hpolled : (w.detach conn.connId conn).poll.queues
        = runQueueActs w.queues (w.sched.headD []) := poll_queues _
    have hvqueues : v.queues
        = afterSend w.queues w.sched conn.outbound (.close resetConnection) := by
      show ((w.detach conn.connId conn).poll.queues).set conn.outbound
        (((w.detach conn.connId conn).poll.queues conn.outbound).trySend
          (.close resetConnection)).1 = _
      rw [hpolled]
      rfl
    have hvsched : v.sched = w.sched.tail := poll_sched _
    rw [hvqueues, hvsched] at hiff
    have hroom := Channel.trySend_accepted_iff
      (runQueueActs w.queues (w.sched.headD []) conn.outbound) (.close resetConnection)
    refine ⟨.close conn.connId conn.outbound resetConnection
      ((w.detach conn.connId conn).trySend conn.outbound (.close resetConnection)).2 :: k, ?_, ?_⟩
    · rw [List.map_cons, evictLagging, evict_some hself, htrace, sendClose_trace,
        List.append_assoc]
      rfl
    · intro q
      rw [trySend_snd, hpolled]
      refine Iff.trans ?_ Nat.or_exists_add_one
      -- the head is accepted by its own queue if there is room now, the others later
      have hhead : (∃ id event, Event.close (Y := Y) id q event .accepted =
          .close conn.connId conn.outbound resetConnection
            ((runQueueActs w.queues (w.sched.headD []) conn.outbound).trySend
              (.close resetConnection)).2) ↔
          (closeTurns (conn :: rest))[0]? = some (q, .close resetConnection) ∧
            (queuesAt w.queues w.sched (closeTurns (conn :: rest)) 0 q).hasRoom = true := by
        constructor
        · rintro ⟨_, _, heq⟩
          injection heq with _ hq _ hres
          subst hq
          exact ⟨rfl, hroom.mp hres.symm⟩
        · rintro ⟨hturn, hnow⟩
          obtain rfl : conn.outbound = q := by
            injection hturn with hturn
            injection hturn
          exact ⟨conn.connId, resetConnection, by rw [hroom.mpr hnow]⟩
      have hlater : (∃ i, (closeTurns (conn :: rest))[i + 1]? = some (q, .close resetConnection) ∧
          (queuesAt w.queues w.sched (closeTurns (conn :: rest)) (i + 1) q).hasRoom = true) ↔
          ∃ id event, Event.close id q event .accepted ∈ k := by
        rw [hiff]
        refine exists_congr fun i => and_congr Iff.rfl ?_
        rw [show closeTurns (conn :: rest)
          = (conn.outbound, .close resetConnection) :: closeTurns rest from rfl, queuesAt_succ]
      rw [hlater, ← hhead]
      simp only [List.mem_cons, exists_or]

theorem foundFull_sublist (w : World Y) (build : String → Bytes) :
    (w.foundFull build).Sublist w.connections.vals := by
  have hsub := (List.filter_sublist (l := w.connections.vals.zipIdx) (p := fun (conn, j) =>
    (queuesAt w.queues w.sched (frameTurns (sharedFrame w.name build) w.connections.vals) j
      conn.outbound).isFull)).map Prod.fst
  rwa [List.zipIdx_map_fst] at hsub

/-- A broadcast is the two loops. -/
theorem broadcastWith_eq (w : World Y) (build : String → Bytes) :
    w.broadcastWith build
      = (sendEach (sharedFrame w.name build) w w.connections.vals).1.evictLagging
          ((w.foundFull build).map ConnHandle.connId) := by
  rw [broadcastWith, (sendEach_turns _ _ w).1, foundFull, List.map_map]
  rfl

/-- Whoever is found full is gone, and nobody else. -/
theorem broadcastWith_foundFull (w : World Y) (build : String → Bytes) (id : Nat) :
    (w.broadcastWith build).connections.get? id
      = if id ∈ (w.foundFull build).map ConnHandle.connId then none
        else w.connections.get? id := by
  obtain ⟨_, _, _, _, hconns⟩ := sendEach_spec (sharedFrame w.name build) w.connections.vals w
  obtain ⟨_, _, _, hgone⟩ := evictLagging_spec ((w.foundFull build).map ConnHandle.connId)
    (sendEach (sharedFrame w.name build) w w.connections.vals).1
  rw [broadcastWith_eq, hgone id, hconns]

/-- The closes come after all the frames. -/
theorem length_le_of_close {w : World Y} {build : String → Bytes} {k q : Nat} {event : CloseEvent}
    (hturn : (w.turns build)[k]? = some (q, .close event)) : w.connections.vals.length ≤ k := by
  by_contra hlt
  rw [turns, List.getElem?_append_left (by rw [frameTurns, List.length_map]; omega), frameTurns,
    List.getElem?_map] at hturn
  obtain ⟨_, _, heq⟩ := Option.map_eq_some_iff.mp hturn
  cases heq

/-- A queue accepts a close of a broadcast exactly when it has room at the turn
of one. -/
theorem broadcastWith_closes (w : World Y) (build : String → Bytes) (q : Nat) :
    (∃ id event, Event.close id q event .accepted
        ∈ (w.broadcastWith build).trace.drop w.trace.length) ↔
      ∃ k, (w.turns build)[k]? = some (q, .close resetConnection) ∧
        (queuesAt w.queues w.sched (w.turns build) k q).hasRoom = true := by
  obtain ⟨_, hqueues, hsched⟩ := sendEach_turns (sharedFrame w.name build) w.connections.vals w
  obtain ⟨rs, _, htrace, _, hconns⟩ :=
    sendEach_spec (sharedFrame w.name build) w.connections.vals w
  have hsub := w.foundFull_sublist build
  obtain ⟨k, hclosed, hiff⟩ := evictLagging_turns (w.foundFull build)
    (sendEach (sharedFrame w.name build) w w.connections.vals).1
    (fun conn hconn => by
      rw [hconns]
      exact Keyed.mem_iff_get?.mpr ⟨hsub.subset hconn, rfl⟩)
    ((hsub.map ConnHandle.connId).nodup w.connections.nodup)
  have hlen : (frameTurns (sharedFrame w.name build) w.connections.vals).length
      = w.connections.vals.length := List.length_map ..
  have hlater : ∀ i, queuesAt w.queues w.sched (w.turns build) (w.connections.vals.length + i)
      = queuesAt (sendEach (sharedFrame w.name build) w w.connections.vals).1.queues
          (sendEach (sharedFrame w.name build) w w.connections.vals).1.sched
          (closeTurns (w.foundFull build)) i := fun i => by
    rw [hqueues, hsched, ← hlen]
    exact queuesAt_append ..
  have hframes : ∀ r ∈ rs.map (offered (Y := Y) (sharedFrame w.name build)), ∀ id event,
      r ≠ .close id q event .accepted := by
    intro r hr id event heq
    obtain ⟨_, _, rfl⟩ := List.mem_map.mp hr
    cases heq
  rw [broadcastWith_eq, hclosed, htrace, List.append_assoc, List.drop_left]
  constructor
  · rintro ⟨id, event, hmem⟩
    rcases List.mem_append.mp hmem with h | h
    · exact absurd rfl (hframes _ h id event)
    · obtain ⟨i, hturn, hroom⟩ := (hiff q).mp ⟨id, event, h⟩
      refine ⟨w.connections.vals.length + i, ?_, by rw [hlater]; exact hroom⟩
      rw [turns, List.getElem?_append_right (by omega), hlen, Nat.add_sub_cancel_left]
      exact hturn
  · rintro ⟨n, hturn, hroom⟩
    have hframes := length_le_of_close hturn
    obtain ⟨i, rfl⟩ : ∃ i, n = w.connections.vals.length + i :=
      ⟨n - w.connections.vals.length, by omega⟩
    rw [turns, List.getElem?_append_right (by omega), hlen, Nat.add_sub_cancel_left] at hturn
    rw [hlater] at hroom
    obtain ⟨id, event, hmem⟩ := (hiff q).mpr ⟨i, hturn, hroom⟩
    exact ⟨id, event, List.mem_append_right _ hmem⟩

/-- What `refusals` lists: a connection with the turn of its frame, which finds
the queue full. -/
theorem mem_refusals {w : World Y} {build : String → Bytes} {conn : ConnHandle} {j : Nat} :
    (conn, j) ∈ w.refusals build ↔ w.connections.vals[j]? = some conn ∧
      (queuesAt w.queues w.sched (w.turns build) j conn.outbound).isFull = true := by
  have hframes : ∀ {c : ConnHandle}, w.connections.vals[j]? = some c →
      queuesAt w.queues w.sched (w.turns build) j
        = queuesAt w.queues w.sched (frameTurns (sharedFrame w.name build) w.connections.vals) j :=
    by
    intro c hc
    have hlt := (List.getElem?_eq_some_iff.mp hc).1
    rw [queuesAt, queuesAt, actsBefore, actsBefore, turns,
      List.take_append_of_le_length (by rw [frameTurns, List.length_map]; omega)]
  unfold refusals Hocuspocus.refusals
  rw [List.mem_filter, List.mem_zipIdx_iff_getElem?]
  refine and_congr_right fun hc => ?_
  rw [hframes hc]

/-- **An eviction closes the socket** exactly when the queue found full gets a
place between the refused frame and the close. -/
theorem evictionCloses_iff (w : World Y) (build : String → Bytes) :
    w.EvictionCloses build ↔ w.Relieves build := by
  -- room for the close of a connection found full, by what happened since
  have hsince : ∀ {conn : ConnHandle} {j : Nat}, (conn, j) ∈ w.refusals build →
      ((∃ id event, Event.close id conn.outbound event .accepted
        ∈ (w.broadcastWith build).trace.drop w.trace.length) ↔
        w.MakesRoom build conn.outbound j) := by
    intro conn j hmem
    obtain ⟨hconn, hfull⟩ := mem_refusals.mp hmem
    have hlt := (List.getElem?_eq_some_iff.mp hconn).1
    have hturn : (w.turns build)[j]?
        = some (conn.outbound, .frame (sharedFrame w.name build conn)) := by
      rw [turns, List.getElem?_append_left (by rw [frameTurns, List.length_map]; exact hlt),
        frameTurns, List.getElem?_map, hconn]
      rfl
    rw [w.broadcastWith_closes build]
    refine exists_congr fun k => ?_
    rw [List.mem_range]
    constructor
    · rintro ⟨hclose, hroom⟩
      have hjk : j < k := hlt.trans_le (length_le_of_close hclose)
      exact ⟨(List.getElem?_eq_some_iff.mp hclose).1, hclose,
        (hasRoom_since hturn hjk hfull).mp hroom⟩
    · rintro ⟨_, hclose, hroom⟩
      have hjk : j < k := hlt.trans_le (length_le_of_close hclose)
      exact ⟨hclose, (hasRoom_since hturn hjk hfull).mpr hroom⟩
  unfold EvictionCloses Relieves
  constructor
  · rintro hcloses ⟨conn, j⟩ hmem
    have hfound : conn ∈ w.foundFull build := List.mem_map.mpr ⟨_, hmem, rfl⟩
    refine (hsince hmem).mp (hcloses conn ((w.foundFull_sublist build).subset hfound) ?_)
    rw [broadcastWith_foundFull, if_pos (List.mem_map_of_mem hfound)]
  · intro hrelieves conn hconn hgone
    rw [broadcastWith_foundFull] at hgone
    split at hgone
    next hfull =>
      obtain ⟨c, hc, hid⟩ := List.mem_map.mp hfull
      obtain rfl : c = conn := List.inj_on_of_nodup_map w.connections.nodup
        ((w.foundFull_sublist build).subset hc) hconn hid
      obtain ⟨⟨c, j⟩, hmem, rfl⟩ := List.mem_map.mp hc
      exact (hsince hmem).mpr (hrelieves _ hmem)
    next =>
      rw [Keyed.mem_iff_get?.mpr ⟨hconn, rfl⟩] at hgone
      cases hgone

end World

/-! ## A writer that takes nothing -/

/-- The schedule never lets the writer of `q` take anything. -/
def Stalled (q : Nat) (sched : List (List QueueAct)) : Prop :=
  ∀ acts ∈ sched, ∀ act ∈ acts, act ≠ .drain q

theorem Stalled.drop {q : Nat} {sched : List (List QueueAct)} (h : Stalled q sched) (k : Nat) :
    Stalled q (sched.drop k) := fun acts hacts => h acts (List.mem_of_mem_drop hacts)

theorem Stalled.head {q : Nat} {sched : List (List QueueAct)} (h : Stalled q sched) :
    ∀ act ∈ sched.headD [], act ≠ .drain q := by
  cases sched with
  | nil => exact nofun
  | cons acts rest => exact h acts (List.mem_cons_self ..)

theorem Stalled.rounds {q : Nat} {sched : List (List QueueAct)} (h : Stalled q sched)
    (turns : List (Nat × OutMsg)) : ∀ act ∈ rounds sched turns, act ≠ .drain q := by
  induction turns generalizing sched with
  | nil => exact nofun
  | cons turn rest ih =>
    intro act hact
    have htail : Stalled q sched.tail := by
      rw [← List.drop_one]
      exact h.drop 1
    rcases List.mem_append.mp hact with h' | h'
    · exact h.head act h'
    · rcases List.mem_cons.mp h' with rfl | h'
      · exact nofun
      · exact ih htail act h'

theorem Stalled.take_notMem {q : Nat} {sched : List (List QueueAct)} (h : Stalled q sched)
    (turns : List (Nat × OutMsg)) (j k : Nat) :
    Slack.Move.take ∉ movesOn q (actsSince sched turns j k) := by
  intro hmem
  obtain ⟨act, hact, hmove⟩ := List.mem_filterMap.mp hmem
  have hother : act ≠ .drain q := by
    rcases List.mem_append.mp hact with h' | h'
    · exact (h.drop _).rounds _ act h'
    · exact ((h.drop _).drop _).head act h'
  cases act with
  | drain i =>
    have hne : i ≠ q := fun he => hother (by rw [he])
    rw [QueueAct.moveOn, if_neg hne] at hmove
    cases hmove
  | hangup i => cases hmove
  | send i m =>
    rw [QueueAct.moveOn] at hmove
    split at hmove <;> cases hmove

/-- A connection found full by a broadcast during which its writer takes
nothing is evicted without a close. -/
theorem World.stalled_loses_close {w : World Y} {build : String → Bytes} {conn : ConnHandle}
    (hstall : Stalled conn.outbound w.sched) (hfull : conn ∈ w.foundFull build) :
    ¬ w.EvictionCloses build := by
  intro hcloses
  obtain ⟨c, hmem, rfl⟩ := List.mem_map.mp hfull
  obtain ⟨k, _, _, _, hrelieved⟩ := (w.evictionCloses_iff build).mp hcloses c hmem
  exact Slack.not_relieved (hstall.take_notMem _ _ _) hrelieved

/-! ## The broadcast of a step -/

namespace World

/-- A broadcast: the world it is made in, and the frame it builds. -/
abbrev Broadcast (Y : Yrs) : Type := World Y × (String → Bytes)

/-- Where the broadcast, if there is one, evicts, the queue gets a place for the
close. -/
def Broadcast.CloseRoom : Option (Broadcast Y) → Prop
  | none => True
  | some (w, build) => w.Relieves build

instance : (call : Option (Broadcast Y)) → Decidable (Broadcast.CloseRoom call)
  | none => isTrue trivial
  | some (w, build) => inferInstanceAs (Decidable (w.Relieves build))

def awarenessFrame (Y : Yrs) (update : Bytes) (addr : String) : Bytes :=
  ((OutgoingMessage.new Y addr).awarenessUpdate Y update).intoBytes

/-- The presence of a leaving connection is withdrawn from the others. -/
def removeBroadcast (w : World Y) (connId : Nat) : Option (Broadcast Y) :=
  match w.connections.get? connId with
  | none => none
  | some handle =>
    let left := w.detach connId handle
    if handle.clientIds.isEmpty then none
    else (Y.updateWithClients left.awareness handle.clientIds).map fun update =>
      (left, awarenessFrame Y (Y.encodeAwareness update))

def relayBroadcast (w : World Y) (changed : List Nat) : Option (Broadcast Y) :=
  (Y.updateWithClients w.awareness changed).map fun out =>
    (w, awarenessFrame Y (Y.encodeAwareness out))

/-- The presence update of a frame, and who claims the clients in it. -/
def awarenessBroadcast (w : World Y) (frame : IncomingFrame) (origin : Origin) :
    Option (Broadcast Y) :=
  match Y.readBuf frame.decoder with
  | (none, _) => none
  | (some buf, _) =>
    match Y.decodeAwareness buf with
    | none => none
    | some update =>
      let changed := Y.clients update
      let applied := Y.applyAwareness w.awareness update
      let w := { w with awareness := applied.1 }
      if !applied.2 then none
      else
        let w :=
          match origin with
          | .connection connId =>
            { w with connections :=
                w.connections.modify connId (claimClients changed) (claimClients_connId changed) }
          | _ => w
        w.relayBroadcast changed

def closeBroadcast (w : World Y) (connId : Nat) (event : CloseEvent) : Option (Broadcast Y) :=
  match w.connections.get? connId with
  | some conn => (w.sendClose conn event).removeBroadcast connId
  | none => none

def frameBroadcast (w : World Y) (connId : Nat) (data : Bytes) : Option (Broadcast Y) :=
  match w.connections.get? connId with
  | none => none
  | some _ =>
    match IncomingFrame.parse Y data with
    | none => none
    | some frame =>
      match frame.messageType with
      | .awareness => w.awarenessBroadcast frame (.connection connId)
      | .close => w.closeBroadcast connId ⟨1000, "provider_initiated"⟩
      | .broadcastStateless => w.closeBroadcast connId resetConnection
      | _ => none

def externalBroadcast (w : World Y) (data : Bytes) : Option (Broadcast Y) :=
  match IncomingFrame.parse Y data with
  | none => none
  | some frame =>
    match frame.messageType with
    | .awareness => w.awarenessBroadcast frame .redis
    | .broadcastStateless =>
      match Y.readString frame.decoder with
      | (some payload, _) =>
        some (w, fun addr => ((OutgoingMessage.new Y addr).stateless Y payload).intoBytes)
      | (none, _) => none
    | _ => none

def flushBroadcastCall (w : World Y) : Option (Broadcast Y) :=
  if !w.broadcastPending then none
  else
    match w.broadcastBase with
    | none => none
    | some base =>
      let merged := Y.encodeDiff w.doc base
      if merged.isEmpty then none
      else some ({ w with broadcastPending := false, broadcastBase := none },
        fun addr => syncFrame Y addr (.update merged))

/-- What a command broadcasts. -/
def commandBroadcast (w : World Y) : DocCommand → Option (Broadcast Y)
  | .clientFrame connId data => w.frameBroadcast connId data
  | .removeConnection connId => w.removeBroadcast connId
  | .externalFrame data _ => w.externalBroadcast data
  | _ => none

/-- Nothing that is a frame was sent. -/
def Frameless (w w' : World Y) : Prop :=
  ∃ k, w'.trace = w.trace ++ k ∧ ∀ e ∈ k, e.isFrame = false

theorem Frameless.trans {w₁ w₂ w₃ : World Y} (h₁ : Frameless w₁ w₂) (h₂ : Frameless w₂ w₃) :
    Frameless w₁ w₃ := by
  obtain ⟨k₁, htrace₁, hk₁⟩ := h₁
  obtain ⟨k₂, htrace₂, hk₂⟩ := h₂
  refine ⟨k₁ ++ k₂, by rw [htrace₂, htrace₁, List.append_assoc], ?_⟩
  exact fun e he => (List.mem_append.mp he).elim (hk₁ e) (hk₂ e)

theorem Frameless.of_eq {w w' : World Y} (h : w'.trace = w.trace) : Frameless w w' :=
  ⟨[], by rw [h, List.append_nil], nofun⟩

theorem Frameless.refl (w : World Y) : Frameless w w := Frameless.of_eq rfl

theorem emit_frameless (w : World Y) {e : Event Y} (he : e.isFrame = false) :
    Frameless w (w.emit e) := (emit_silent w he).trace

theorem sendClose_frameless (w : World Y) (conn : ConnHandle) (event : CloseEvent) :
    Frameless w (w.sendClose conn event) := by
  refine ⟨_, sendClose_trace w conn event, fun e he => ?_⟩
  rw [List.mem_singleton.mp he]
  rfl

/-- The frames sent are those of the broadcast. -/
def Casts (call : Option (Broadcast Y)) (w w' : World Y) : Prop :=
  match call with
  | none => Frameless w w'
  | some (v, build) => Frameless w v ∧ Frameless (v.broadcastWith build) w'

theorem Casts.after {call : Option (Broadcast Y)} {w₁ w₂ w₃ : World Y} (h₁ : Frameless w₁ w₂)
    (h₂ : Casts call w₂ w₃) : Casts call w₁ w₃ := by
  cases call with
  | none => exact Frameless.trans h₁ h₂
  | some b => exact ⟨Frameless.trans h₁ h₂.1, h₂.2⟩

theorem Casts.before {call : Option (Broadcast Y)} {w₁ w₂ w₃ : World Y} (h₁ : Casts call w₁ w₂)
    (h₂ : Frameless w₂ w₃) : Casts call w₁ w₃ := by
  cases call with
  | none => exact Frameless.trans h₁ h₂
  | some b => exact ⟨h₁.1, Frameless.trans h₁.2 h₂⟩

theorem removeConnection_casts (w : World Y) (connId : Nat) :
    Casts (w.removeBroadcast connId) w (w.removeConnection connId) := by
  unfold removeBroadcast removeConnection
  cases w.connections.get? connId with
  | none => exact Frameless.refl w
  | some handle =>
    have hleft : Frameless w (w.detach connId handle) := Frameless.of_eq rfl
    refine Casts.before ?_ (emit_frameless _ rfl)
    dsimp only
    cases handle.clientIds.isEmpty with
    | true => exact hleft
    | false =>
      cases hupdate : Y.updateWithClients (w.detach connId handle).awareness handle.clientIds with
      | none => exact hleft
      | some update => exact ⟨hleft, Frameless.refl _⟩

theorem closeConnection_casts (w : World Y) (connId : Nat) (event : CloseEvent) :
    Casts (w.closeBroadcast connId event) w (w.closeConnection connId event) := by
  unfold closeBroadcast closeConnection
  cases hconn : w.connections.get? connId with
  | none =>
    dsimp only
    rw [removeConnection, hconn]
    exact Frameless.refl w
  | some conn => exact Casts.after (sendClose_frameless w conn event) (removeConnection_casts _ _)

theorem relayAwareness_casts (w : World Y) (changed : List Nat) (origin : Origin) :
    Casts (w.relayBroadcast changed) w (w.relayAwareness changed origin) := by
  unfold relayBroadcast relayAwareness
  cases Y.updateWithClients w.awareness changed with
  | none => exact Frameless.refl w
  | some out => exact ⟨Frameless.refl w, emit_frameless _ rfl⟩

theorem handleAwareness_casts (w : World Y) (frame : IncomingFrame) (origin : Origin) :
    Casts (w.awarenessBroadcast frame origin) w (w.handleAwareness frame origin) := by
  unfold awarenessBroadcast handleAwareness
  cases Y.readBuf frame.decoder with
  | mk buf rest =>
    cases buf with
    | none => exact Frameless.refl w
    | some buf =>
      dsimp only
      cases Y.decodeAwareness buf with
      | none => exact Frameless.refl w
      | some update =>
        dsimp only
        have hclaimed : ∀ v : World Y, v.trace = w.trace →
            Casts (v.relayBroadcast (Y.clients update)) w
              (v.relayAwareness (Y.clients update) origin) := fun v hv =>
          Casts.after (Frameless.of_eq hv) (relayAwareness_casts _ _ _)
        cases (Y.applyAwareness w.awareness update).2 with
        | false =>
          have happlied : Frameless w { w with awareness := (Y.applyAwareness w.awareness update).1 } :=
            Frameless.of_eq rfl
          exact happlied
        | true =>
          refine hclaimed _ ?_
          cases origin <;> rfl

/-- A frame that is not answered straight broadcasts at most once. -/
theorem handleClientFrame_casts {o : Ambient} {w : World Y} {connId : Nat} {data : Bytes}
    (hnone : w.frameSends o connId data = none) :
    Casts (w.frameBroadcast connId data) w (w.handleClientFrame o connId data) := by
  unfold frameSends at hnone
  unfold frameBroadcast handleClientFrame
  cases hconn : w.connections.get? connId with
  | none => exact Frameless.refl w
  | some conn =>
    rw [hconn] at hnone
    dsimp only at hnone ⊢
    cases hparse : IncomingFrame.parse Y data with
    | none => exact Frameless.refl w
    | some frame =>
      rw [hparse] at hnone
      dsimp only at hnone ⊢
      cases htype : frame.messageType with
      | sync | syncReply =>
        rw [htype] at hnone
        cases hnone
      | awareness => exact w.handleAwareness_casts _ _
      | queryAwareness =>
        rw [htype] at hnone
        have hquiet : Y.awarenessUpdate w.awareness = none := Option.map_eq_none_iff.mp hnone
        dsimp only
        rw [replyQueryAwareness, hquiet]
        exact Frameless.refl w
      | stateless =>
        dsimp only
        unfold handleStateless
        split
        · exact Frameless.refl w
        · exact emit_frameless w rfl
      | close => exact w.closeConnection_casts _ _
      | broadcastStateless => exact w.closeConnection_casts _ _
      | auth | syncStatus | ping | pong => exact Frameless.refl w

theorem handleExternalSync_frameless (o : Ambient) (w : World Y) (frame : IncomingFrame)
    (origin : Origin) (reply : Bool) :
    Frameless w (w.handleExternalSync o frame origin reply) := by
  unfold handleExternalSync
  split
  · exact Frameless.refl w
  · split
    · exact emit_frameless w rfl
    · exact Frameless.refl w
  · exact (w.applyAndBroadcast_silent o _ _).trace
  · exact (w.applyAndBroadcast_silent o _ _).trace

theorem handleExternalFrame_casts (o : Ambient) (w : World Y) (data : Bytes) (reply : Bool) :
    Casts (w.externalBroadcast data) w (w.handleExternalFrame o data reply) := by
  unfold externalBroadcast handleExternalFrame
  cases IncomingFrame.parse Y data with
  | none => exact Frameless.refl w
  | some frame =>
    dsimp only
    cases frame.messageType with
    | sync | syncReply => exact handleExternalSync_frameless ..
    | awareness => exact w.handleAwareness_casts _ _
    | queryAwareness =>
      dsimp only
      split
      · split
        · exact emit_frameless w rfl
        · exact Frameless.refl w
      · exact Frameless.refl w
    | broadcastStateless =>
      dsimp only
      cases Y.readString frame.decoder with
      | mk payload rest =>
        cases payload with
        | none => exact Frameless.refl w
        | some payload => exact ⟨Frameless.refl w, Frameless.refl _⟩
    | stateless | close | auth | syncStatus | ping | pong => exact Frameless.refl w

theorem flushBroadcast_casts (w : World Y) : Casts w.flushBroadcastCall w w.flushBroadcast := by
  unfold flushBroadcastCall flushBroadcast
  have hreset : Frameless w { w with broadcastPending := false, broadcastBase := none } :=
    Frameless.of_eq rfl
  cases w.broadcastPending with
  | false => exact Frameless.refl w
  | true =>
    cases w.broadcastBase with
    | none => exact hreset
    | some base =>
      cases hmerged : (Y.encodeDiff w.doc base).isEmpty with
      | true =>
        dsimp only
        rw [hmerged]
        exact hreset
      | false =>
        dsimp only
        rw [hmerged]
        exact ⟨hreset, Frameless.refl _⟩

end World

/-! ## Steps and runs -/

/-- The broadcast a label makes. -/
def Actor.broadcastCall (a : Actor Y) : Label → Option (World.Broadcast Y)
  | .command cmd o => (a.world.withSched o.sched).commandBroadcast cmd
  | .flush sched => (a.world.withSched sched).flushBroadcastCall
  | _ => none

/-- Where the step's broadcast evicts, the queue gets a place for the close. -/
def Actor.CloseRoom (a : Actor Y) (l : Label) : Prop :=
  World.Broadcast.CloseRoom (a.broadcastCall l)

instance (a : Actor Y) (l : Label) : Decidable (a.CloseRoom l) :=
  inferInstanceAs (Decidable (World.Broadcast.CloseRoom (a.broadcastCall l)))

/-- Whoever had a frame refused in the step and is gone has a close accepted by
the same queue. -/
def Actor.EvictionsClose (a b : Actor Y) : Prop :=
  ∀ id q bytes, Event.frame id q bytes .full ∈ a.sent b → ¬ b.Registered id →
    ∃ id' event, Event.close id' q event .accepted ∈ a.sent b

namespace World

theorem handleCommand_casts {cfg : Configuration} {o : Ambient} {w : World Y} {cmd : DocCommand}
    (hnone : w.directSends o cmd = none) :
    Casts (w.commandBroadcast cmd) w (w.handleCommand cfg o cmd).1 := by
  cases cmd with
  | addConnection handle ack =>
    have hquiet : Y.hasStates w.awareness = true → Y.awarenessUpdate w.awareness = none := by
      intro hstates
      unfold directSends at hnone
      dsimp only at hnone
      rw [if_pos hstates] at hnone
      exact Option.map_eq_none_iff.mp hnone
    refine ⟨_, addConnection_silent w _ _ _ hquiet, fun e he => ?_⟩
    rcases List.mem_pair.mp he with rfl | rfl <;> rfl
  | clientFrame connId data => exact handleClientFrame_casts hnone
  | removeConnection connId =>
    exact (w.removeConnection_casts connId).before (maybeUnload_silent cfg o _).trace
  | externalFrame data reply => exact w.handleExternalFrame_casts o data reply
  | directApply update ack =>
    exact ((w.applyAndBroadcast_silent o update .local).trans
      (emit_silent _ (e := .ack ack) rfl)).trace

/-- A refused frame is one of the broadcast's, and so is the close. -/
theorem Casts.evictions_close {call : Option (Broadcast Y)} {w w' : World Y}
    (h : Casts call w w') (hroom : Broadcast.CloseRoom call)
    {id q : Nat} {bytes : Bytes} {k : List (Event Y)} (htrace : w'.trace = w.trace ++ k)
    (hfull : Event.frame id q bytes .full ∈ k) :
    ∃ id' event, Event.close id' q event .accepted ∈ k := by
  cases call with
  | none =>
    obtain ⟨k', htrace', hk⟩ := h
    obtain rfl : k' = k := List.append_cancel_left (htrace'.symm.trans htrace)
    cases hk _ hfull
  | some b =>
    obtain ⟨v, build⟩ := b
    obtain ⟨⟨k₁, hbefore, hk₁⟩, ⟨k₂, hafter, hk₂⟩⟩ := h
    obtain ⟨rs, closes, hfst, hcast, hcloses, hconns⟩ := v.broadcastWith_spec build
    have hk : k = k₁ ++ ((rs.map (offered fun conn => build conn.messageAddress) ++ closes) ++ k₂)
        := by
      refine (List.append_right_inj w.trace).mp ?_
      rw [← htrace, hafter, hcast, hbefore]
      simp only [List.append_assoc]
    subst hk
    have hoffer : Event.frame id q bytes .full
        ∈ rs.map (offered (Y := Y) fun conn => build conn.messageAddress) := by
      rcases List.mem_append.mp hfull with h | h
      · cases hk₁ _ h
      · rcases List.mem_append.mp h with h | h
        · rcases List.mem_append.mp h with h | h
          · exact h
          · cases hcloses _ h
        · cases hk₂ _ h
    obtain ⟨r, hr, heq⟩ := List.mem_map.mp hoffer
    injection heq with _ hq _ hres
    have hconn : r.1 ∈ v.connections.vals := hfst ▸ List.mem_map_of_mem hr
    have hlag : r.1.connId ∈ lagging rs :=
      List.mem_map.mpr ⟨r, List.mem_filter.mpr ⟨hr, by simpa using hres⟩, rfl⟩
    obtain ⟨id', event, hclose⟩ := (v.evictionCloses_iff build).mpr hroom r.1 hconn
      (by rw [hconns, if_pos hlag])
    rw [hcast, List.drop_left] at hclose
    refine ⟨id', event, List.mem_append_right _ (List.mem_append_left _ ?_)⟩
    rw [← hq]
    exact hclose

end World

theorem Actor.step_evictionsClose {cfg : Configuration} {a b : Actor Y} {l : Label}
    (hstep : a.step cfg l = some b) (hroom : a.CloseRoom l) : a.EvictionsClose b := by
  have htrace := Actor.trace_sent (Actor.step_trace hstep)
  intro id q bytes hfull hgone
  -- a step that broadcasts nothing sends no frame, a direct answer evicts nobody
  have hcasts : World.Casts (a.broadcastCall l) a.world b.world →
      ∃ id' event, Event.close id' q event .accepted ∈ a.sent b := fun h =>
    h.evictions_close hroom htrace hfull
  have hsilent : World.Frameless a.world b.world →
      ∃ id' event, Event.close id' q event .accepted ∈ a.sent b := by
    rintro ⟨k, hk, hnoframe⟩
    rw [Actor.sent_eq hk] at hfull
    cases hnoframe _ hfull
  cases Actor.step_cases hstep with
  | command cmd o n hphase =>
    have hcases := (a.world.withSched o.sched).handleCommand_cases cfg o cmd
    cases hsends : (a.world.withSched o.sched).directSends o cmd with
    | none => exact hcasts (World.handleCommand_casts hsends)
    | some sends =>
      obtain ⟨conn, frames⟩ := sends
      rw [hsends] at hcases
      obtain ⟨k, hk, honly, _⟩ := hcases.refused
      rw [Actor.sent_eq hk] at hfull
      obtain rfl := honly id ⟨q, bytes, hfull⟩
      exact absurd hcases.registered hgone
  | flush sched phase hphase => exact hcasts (World.flushBroadcast_casts _)
  | storeResult o ok rest hphase hresults =>
    exact hsilent ((World.takeResult_silent o _ ok rest).trans
      (World.maybeUnload_silent cfg o _)).trace
  | deadline o hphase hdirty hstoring =>
    exact hsilent (World.tick_silent cfg o (a.world.withSched o.sched)).trace
  | mailboxClosed => exact hsilent (World.Frameless.refl _)
  | storeTask i results => exact hsilent (World.finishStore_silent _ _ _).trace
  | queues acts => exact hsilent (World.Frameless.of_eq rfl)

/-- **Every eviction closes the socket**: a broadcast does so exactly when the
writers of the queues it found full, between the refused frame and the close, take
more than is put in, and a run does all whose broadcasts meet this. -/
theorem Actor.eviction_closes (cfg : Configuration) (a : Actor Y) (ls : List Label) :
    (∀ (w : World Y) (build : String → Bytes), w.EvictionCloses build ↔ w.Relieves build) ∧
    (Lts.Along (Actor.step cfg) (fun a l _ => a.CloseRoom l) a ls →
      Lts.Along (Actor.step cfg) (fun a _ b => a.EvictionsClose b) a ls) := by
  refine ⟨World.evictionCloses_iff, fun hroom => ?_⟩
  refine Lts.along_of_invariant (I := fun _ => True) (fun _ _ _ _ _ _ => trivial) ?_ hroom trivial
  exact fun a l b hstep hc _ => Actor.step_evictionsClose hstep hc

/-- A client joins and edits; the edit's sync status fills its queue. -/
def joinAndFill : List Label :=
  [.command (.addConnection (OneWriter.conn 1) 0) {},
    .command (.clientFrame 1 (OneWriter.editFrame 0)) {}]

/-- While the edit is broadcast, the writer takes a frame before the close. -/
theorem Actor.eviction_closes_drained :
    Actor.EvictionsClose (OneWriter.after {} (OneWriter.start 1) joinAndFill)
      (OneWriter.after {} (OneWriter.after {} (OneWriter.start 1) joinAndFill)
        [.flush [[], [.drain 1]]]) := by
  have hroom : Lts.Along (Actor.step {}) (fun a l _ => a.CloseRoom l) (OneWriter.start 1)
      (joinAndFill ++ [.flush [[], [.drain 1]]]) :=
    Lts.along_step (OneWriter.step_after (by decide +kernel)) (by decide +kernel)
      (Lts.along_step (OneWriter.step_after (by decide +kernel)) (by decide +kernel)
        (Lts.along_step (OneWriter.step_after (by decide +kernel)) (by decide +kernel) trivial))
  exact Lts.along_last ((Actor.eviction_closes {} _ _).2 hroom)
    (OneWriter.run_after (by decide +kernel)) (OneWriter.step_after (by decide +kernel))

/-- No close in the list was accepted. -/
theorem no_close_of_all {t : List (Event Y)}
    (h : t.all (fun e => match e with
      | .close _ _ _ .accepted => false
      | _ => true) = true) {id q : Nat} {event : CloseEvent} :
    Event.close id q event .accepted ∉ t :=
  fun hmem => Bool.false_ne_true (List.all_eq_true.mp h _ hmem)

/-- A writer that takes nothing meanwhile: the connection is evicted, and its
close refused like the frame before. -/
theorem Actor.eviction_without_close :
    ¬ ∀ (cfg : Configuration) (ls : List Label), Lts.Along (Actor.step cfg)
      (fun a _ b => a.EvictionsClose b) (OneWriter.start cfg.outboundCapacity) ls := by
  intro hall
  have hcloses := Lts.along_last (hall { outboundCapacity := 1 } (joinAndFill ++ [.flush []]))
    (OneWriter.run_after (by decide +kernel)) (OneWriter.step_after (by decide +kernel))
  have hrefused : Refused 1
      ((OneWriter.after { outboundCapacity := 1 } (OneWriter.start 1) joinAndFill).sent
        (OneWriter.after { outboundCapacity := 1 }
          (OneWriter.after { outboundCapacity := 1 } (OneWriter.start 1) joinAndFill)
          [.flush []])) := refused_of_any (by decide +kernel)
  obtain ⟨q, bytes, hfull⟩ := hrefused
  obtain ⟨id, event, hclose⟩ := hcloses 1 q bytes hfull
    (Actor.not_registered.mpr (by decide +kernel))
  exact no_close_of_all (by decide +kernel) hclose

end Hocuspocus
