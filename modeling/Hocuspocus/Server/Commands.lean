import Hocuspocus.Server.Numbers

/-!
# Where commands come from

What an actor is still to handle was on its way before the step, or one task
has just sent it: a frame or a removal, which nobody waits for, or the
`AddConnection` or the `DirectApply` of a task that waits from now on, with the
next `ack` (`step_pending`).

So whoever waits for an `ack` waits for the command it has sent: no other
command has that `ack`, and the actor that has sent the `ack` has added the
connection (`Expected`).
-/

namespace Hocuspocus

variable {Y : Yrs}

namespace Server

/-- The command is still to be handled by the actor. -/
def Awaits (s : Server Y) (j : Nat) (cmd : DocCommand) : Prop :=
  ∃ a, s.actors[j]? = some a ∧ cmd ∈ a.pending

/-- What a step sends to the actor `j`. -/
inductive Sends (s : Server Y) (j : Nat) : Label Y → DocCommand → Prop
  | plain (l : Label Y) (cmd : DocCommand) (hplain : cmd.ack? = none) : Sends s j l cmd
  | introduces (i : Nat) (doc : Y.Doc) (queues : Queues) (sock : Socket) (r : Registration)
    (hsock : s.sockets[i]? = some sock) (htask : sock.task = .registering r)
    (hstage : r.stage = .send j) :
    Sends s j (.register i doc queues) (.addConnection (sock.connHandle i r) s.nextAck)
  | directs (k : Nat) (doc : Y.Doc) (queues : Queues) (update : Bytes) :
    Sends s j (.direct k doc queues) (.directApply update s.nextAck)

/-- The command was on its way, or this step sends it. -/
def Comes (s : Server Y) (l : Label Y) (j : Nat) (cmd : DocCommand) : Prop :=
  s.Awaits j cmd ∨ s.Sends j l cmd

/-! ## One step -/

theorem send_pending {s : Server Y} {k j : Nat} {cmd c : DocCommand}
    (h : (s.send k cmd).1.Awaits j c) : s.Awaits j c ∨ j = k ∧ c = cmd := by
  obtain ⟨b, hb, hc⟩ := h
  unfold Server.send at hb
  split at hb
  next => exact Or.inl ⟨b, hb, hc⟩
  next a ha =>
    split at hb
    next => exact Or.inl ⟨b, hb, hc⟩
    next =>
      rcases getElem?_set_cases hb with ⟨rfl, rfl⟩ | ⟨_, hold⟩
      · rw [Spawned.pending, ← List.append_assoc] at hc
        rcases List.mem_append.mp hc with hc | hc
        · exact Or.inl ⟨a, ha, hc⟩
        · exact Or.inr ⟨rfl, List.mem_singleton.mp hc⟩
      · exact Or.inl ⟨b, hold, hc⟩

theorem sendAll_pending {j : Nat} {c : DocCommand} {cmds : List (Nat × DocCommand)}
    {s : Server Y} (h : (s.sendAll cmds).Awaits j c) : s.Awaits j c ∨ (j, c) ∈ cmds := by
  induction cmds generalizing s with
  | nil => exact Or.inl h
  | cons first cmds ih =>
    rcases ih (s := (s.send first.1 first.2).1) h with hsent | hmem
    · rcases send_pending hsent with hold | ⟨rfl, rfl⟩
      · exact Or.inl hold
      · exact Or.inr (List.mem_cons_self ..)
    · exact Or.inr (List.mem_cons_of_mem _ hmem)

/-- A socket sends commands nobody waits for. -/
theorem Comes.told {s : Server Y} {l : Label Y} {i : Nat} {sock : Socket}
    {cmds : List (Nat × DocCommand)} (hplain : ∀ c ∈ cmds, c.2.ack? = none) {j : Nat}
    {cmd : DocCommand} (h : ((s.setSocket i sock).sendAll cmds).Awaits j cmd) :
    s.Comes l j cmd := by
  rcases sendAll_pending h with hold | hmem
  · exact Or.inl hold
  · exact Or.inr (.plain l cmd (hplain _ hmem))

/-- An actor that is spawned has nothing to handle. -/
theorem documentStep_pending {s u : Server Y} {name : String} {doc : Y.Doc} {queues : Queues}
    {call : DocumentCall} {r : DocumentCall ⊕ Nat}
    (h : s.documentStep name doc queues call = some (u, r)) {j : Nat} {c : DocCommand}
    (hc : u.Awaits j c) : s.Awaits j c := by
  cases documentStep_cases h with
  | spawns l =>
    obtain ⟨b, hb, hmem⟩ := hc
    rcases getElem?_snoc hb with hold | ⟨_, rfl⟩
    · exact ⟨b, hold, hmem⟩
    · cases hmem
  | found | missing | joins | creates | locks | late | loads | inserts | forgets => exact hc

theorem registerStep_pending {s t : Server Y} {i : Nat} {sock : Socket} {r : Registration}
    {doc : Y.Doc} {queues : Queues} (hsock : s.sockets[i]? = some sock)
    (htask : sock.task = .registering r) (h : s.registerStep i sock r doc queues = some t) {j : Nat}
    {cmd : DocCommand} (hcmd : t.Awaits j cmd) : s.Comes (.register i doc queues) j cmd := by
  have hintroduces : ∀ handle, r.stage = .send handle →
      (s.introduce i sock r handle).1.Awaits j cmd → s.Comes (.register i doc queues) j cmd := by
    intro handle hstage hawaits
    rcases send_pending hawaits with hold | ⟨rfl, rfl⟩
    · exact Or.inl hold
    · exact Or.inr (.introduces i doc queues sock r hsock htask hstage)
  cases registerStep_cases h with
  | calls call next u hstage hcall | finds call handle u hstage hcall =>
    exact Or.inl (documentStep_pending hcall hcmd)
  | sends handle hstage | refused handle hstage => exact hintroduces handle hstage hcmd
  | acked handle ack hstage hacked =>
    refine Comes.told (fun c hc => ?_) hcmd
    obtain ⟨_, data, hdata⟩ := (sock.register_spec r handle).2.2 c hc
    rw [hdata]
    rfl
  | lost => exact Or.inl hcmd

theorem directStep_pending {s t : Server Y} {k : Nat} {e : DirectApply} {doc : Y.Doc}
    {queues : Queues} (h : s.directStep k e doc queues = some t) {j : Nat} {cmd : DocCommand}
    (hcmd : t.Awaits j cmd) : s.Comes (.direct k doc queues) j cmd := by
  cases directStep_cases h with
  | calls call next u hreturned hstage hcall | finds call handle u hreturned hstage hcall =>
    exact Or.inl (documentStep_pending hcall hcmd)
  | sends handle sent hreturned hstage hsent =>
    subst hsent
    rcases send_pending (s := { s with nextAck := s.nextAck + 1 }) hcmd with hold | ⟨_, rfl⟩
    · exact Or.inl hold
    · exact Or.inr (.directs k doc queues e.update)
  | answered => exact Or.inl hcmd

/-- An actor takes a turn that brings it nothing. -/
theorem setActor_pending {s t : Server Y} {k : Nat} {a b : Spawned Y} (ha : s.actors[k]? = some a)
    (hsub : b.pending ⊆ a.pending) (hactors : t.actors = s.actors.set k b) {j : Nat}
    {cmd : DocCommand} (hcmd : t.Awaits j cmd) : s.Awaits j cmd := by
  obtain ⟨c, hc, hmem⟩ := hcmd
  rw [hactors] at hc
  rcases getElem?_set_cases hc with ⟨rfl, rfl⟩ | ⟨_, hold⟩
  · exact ⟨a, ha, hsub hmem⟩
  · exact ⟨c, hold, hmem⟩

/-- **Where a command comes from.** -/
theorem step_pending {s t : Server Y} {cfg : Configuration} {l : Label Y}
    (h : Server.step cfg s l = some t) {j : Nat} {cmd : DocCommand} (hcmd : t.Awaits j cmd) :
    s.Comes l j cmd := by
  cases step_cases h with
  | connect | hangup | timeout | connected | authenticated | clean | apply | unknown =>
    exact Or.inl hcmd
  | receive i data now sock hsock htask =>
    refine Comes.told (fun c hc => ?_) hcmd
    obtain ⟨est, _, _, hdata⟩ := (sock.handleFrame_steady Y cfg now htask data).2 c hc
    rw [hdata]
    rfl
  | register i doc queues sock r t hsock htask h => exact registerStep_pending hsock htask h hcmd
  | leave i key sock est hsock htask hest =>
    refine Comes.told (fun c hc => ?_) hcmd
    rw [List.mem_singleton.mp hc]
    rfl
  | direct k doc queues e t he h => exact directStep_pending h hcmd
  | external name data k hdoc =>
    rcases send_pending hcmd with hold | ⟨_, rfl⟩
    · exact Or.inl hold
    · exact Or.inr (.plain _ _ rfl)
  | recv k a ha hbatch =>
    refine Or.inl (setActor_pending ha (fun c hc => ?_) rfl hcmd)
    rw [Spawned.pending, List.take_append_drop] at hc
    rw [Spawned.pending, hbatch]
    exact hc
  | command k o a first batch b ha hbatch hstep =>
    refine Or.inl (setActor_pending ha (fun c hc => ?_) (unloading_parts _ _ _).1 hcmd)
    rw [Spawned.pending, hbatch]
    rcases List.mem_append.mp hc with hc | hc
    · refine List.mem_append_left _ (List.mem_cons_of_mem _ ?_)
      -- an actor that exits drops the rest of its batch
      dsimp only at hc
      split at hc
      · cases hc
      · exact hc
    · exact List.mem_append_right _ hc
  | actor k l a b ha hplain hclosed hstep =>
    exact Or.inl (setActor_pending (b := { a with actor := b }) ha (fun c hc => hc)
      (unloading_parts _ _ _).1 hcmd)
  | drop k a ha hstopped =>
    refine Or.inl (setActor_pending ha (fun c hc => ?_) rfl hcmd)
    rcases List.mem_append.mp hc with hc | hc
    · exact List.mem_append_left _ hc
    · cases hc

/-! ## Whoever waits for an `ack` -/

/-- The socket waits for the `ack` of its own `AddConnection`. -/
structure Expected (s : Server Y) (i : Nat) (sock : Socket) (r : Registration) (j ack : Nat) :
    Prop where
  issued : ack < s.nextAck
  pending : ∀ cmd, s.Awaits j cmd → cmd.ack? = some ack →
    cmd = .addConnection (sock.connHandle i r) ack
  added : ∀ a, s.actors[j]? = some a → ack ∈ a.acked →
    .added (sock.connHandle i r) ∈ a.actor.world.trace

def Expecting (s : Server Y) : Prop :=
  ∀ (i : Nat) (sock : Socket) (r : Registration) (j ack : Nat), s.sockets[i]? = some sock →
    sock.task = .registering r → r.stage = .await j ack → s.Expected i sock r j ack

theorem Accounted.pending_ack {s : Server Y} (hs : s.Accounted) {j : Nat} {cmd : DocCommand}
    {ack : Nat} (h : s.Awaits j cmd) (hack : cmd.ack? = some ack) : ack < s.nextAck := by
  obtain ⟨a, ha, hmem⟩ := h
  refine (hs.acks j a ha).2 ack (List.mem_append_left _ ?_)
  exact List.mem_filterMap.mpr ⟨cmd, hmem, hack⟩

end Server

/-- An actor that handles an `AddConnection` adds the connection. -/
theorem Actor.step_added {cfg : Configuration} {a b : Actor Y} {handle : ConnHandle} {ack : Nat}
    {o : Ambient} (hstep : a.step cfg (.command (.addConnection handle ack) o) = some b) :
    .added handle ∈ b.world.trace := by
  cases Actor.step_cases hstep with
  | command _ _ n hphase =>
    refine List.mem_append_left [Event.ack ack] ?_
    exact List.mem_append_right _ (List.mem_singleton_self _)

namespace Server

theorem unloading_nextAck (s : Server Y) (unloaded : Bool) (name : String) :
    (s.unloading unloaded name).nextAck = s.nextAck := by
  cases unloaded <;> rfl

theorem introduce_nextAck (s : Server Y) (i : Nat) (sock : Socket) (r : Registration) (h : Nat) :
    (s.introduce i sock r h).1.nextAck = s.nextAck + 1 := by
  rw [introduce, send_eq]

theorem step_nextAck {s t : Server Y} {cfg : Configuration} {l : Label Y}
    (h : Server.step cfg s l = some t) : s.nextAck ≤ t.nextAck := by
  have hdocument : ∀ {name : String} {doc : Y.Doc} {queues : Queues} {call : DocumentCall}
      {u : Server Y} {r : DocumentCall ⊕ Nat},
      s.documentStep name doc queues call = some (u, r) → s.nextAck ≤ u.nextAck := by
    intro name doc queues call u r hcall
    cases documentStep_cases hcall with
    | found | missing | joins | creates | locks | late | loads | spawns | inserts | forgets =>
      exact Nat.le_refl _
  cases step_cases h with
  | connect | hangup | timeout | connected | authenticated | clean | apply | unknown | recv | drop =>
    exact Nat.le_refl _
  | receive | leave =>
    rw [sendAll_eq]
    exact Nat.le_refl _
  | external =>
    rw [send_eq]
  | command j o a cmd batch b =>
    exact Nat.le_of_eq (unloading_nextAck (s.setActor j _) _ _).symm
  | actor j l a b => exact Nat.le_of_eq (unloading_nextAck (s.setActor j _) _ _).symm
  | register i doc queues sock r t hsock htask h =>
    cases registerStep_cases h with
    | calls call next u hstage hcall | finds call handle u hstage hcall =>
      exact hdocument (u := u) hcall
    | sends handle hstage => exact (introduce_nextAck s i sock r handle).symm ▸ Nat.le_succ _
    | refused handle hstage => exact (introduce_nextAck s i sock r handle).symm ▸ Nat.le_succ _
    | acked =>
      rw [sendAll_eq]
      exact Nat.le_refl _
    | lost => exact Nat.le_refl _
  | direct k doc queues e t he h =>
    cases directStep_cases h with
    | calls call next u hreturned hstage hcall | finds call handle u hreturned hstage hcall =>
      exact hdocument (u := u) hcall
    | sends handle sent hreturned hstage hsent =>
      subst hsent
      rw [send_eq]
      exact Nat.le_succ _
    | answered => exact Nat.le_refl _

/-- The socket sends its `AddConnection`. -/
theorem register_nextAck {s t : Server Y} {cfg : Configuration} {i : Nat} {doc : Y.Doc}
    {queues : Queues} (h : Server.step cfg s (.register i doc queues) = some t) {sock : Socket}
    (hsock : s.sockets[i]? = some sock) {r : Registration} (htask : sock.task = .registering r)
    {j : Nat} (hstage : r.stage = .send j) : t.nextAck = s.nextAck + 1 := by
  cases step_cases h with
  | register _ _ _ sock₁ r₁ _ hsock₁ htask₁ hregister =>
    obtain rfl : sock = sock₁ := Option.some.inj (hsock.symm.trans hsock₁)
    obtain rfl : r = r₁ := by
      rw [htask] at htask₁
      cases htask₁
      rfl
    cases registerStep_cases hregister with
    | sends handle | refused handle => exact introduce_nextAck s i sock r handle
    | calls call next u hcalls | finds call handle u hcalls =>
      rw [hstage] at hcalls
      cases hcalls
    | acked handle ack hawaits | lost handle ack hawaits =>
      rw [hstage] at hawaits
      cases hawaits

/-- A socket that waits already. -/
theorem Expected.step {s t : Server Y} {cfg : Configuration} {l : Label Y}
    (h : Server.step cfg s l = some t) {i : Nat} {sock : Socket} {r : Registration} {j ack : Nat}
    {a : Spawned Y} (ha : s.actors[j]? = some a) (hs : s.Expected i sock r j ack) :
    t.Expected i sock r j ack where
  issued := hs.issued.trans_le (step_nextAck h)
  pending cmd hcmd hack := by
    rcases step_pending h hcmd with hold | hnew
    · exact hs.pending cmd hold hack
    · -- a command with a new `ack`
      have hlt := hs.issued
      cases hnew with
      | plain l cmd hplain =>
        rw [hplain] at hack
        cases hack
      | introduces =>
        cases hack
        omega
      | directs =>
        cases hack
        omega
  added b hb hack := by
    obtain ⟨b', hb', hturn⟩ := step_turn h ha
    obtain rfl : b' = b := Option.some.inj (hb'.symm.trans hb)
    cases hturn with
    | told | recv | drop => exact hs.added a ha hack
    | actor l b hplain hstep => exact (Actor.step_trace hstep).subset (hs.added a ha hack)
    | command o cmd batch b hbatch hstep =>
      by_cases hold : ack ∈ a.acked
      · exact (Actor.step_trace hstep).subset (hs.added a ha hold)
      · have hcmd : cmd.ack? = some ack := by
          cases hnew : cmd.ack? with
          | none =>
            rw [hnew] at hack
            exact absurd hack hold
          | some new =>
            rw [hnew] at hack
            rcases List.mem_append.mp hack with hack | hack
            · exact absurd hack hold
            · rw [List.mem_singleton.mp hack]
        -- the actor has handled the one command with this `ack`, our own
        have hpending : s.Awaits j cmd := by
          refine ⟨a, ha, List.mem_append_left _ ?_⟩
          rw [hbatch]
          exact List.mem_cons_self ..
        obtain rfl := hs.pending cmd hpending hcmd
        exact Actor.step_added hstep

/-- A socket that waits from now on. -/
theorem Accounted.expected {s t : Server Y} (hs : s.Accounted) {cfg : Configuration} {i : Nat}
    {doc : Y.Doc} {queues : Queues} (h : Server.step cfg s (.register i doc queues) = some t)
    {sock sock' : Socket} {r r' : Registration} {j : Nat} {a : Spawned Y}
    (hsock : s.sockets[i]? = some sock) (htask : sock.task = .registering r)
    (ha : s.actors[j]? = some a) (hsame : sock'.connHandle i r' = sock.connHandle i r)
    (hnext : s.nextAck < t.nextAck) :
    t.Expected i sock' r' j s.nextAck where
  issued := hnext
  pending cmd hcmd hack := by
    rcases step_pending h hcmd with hold | hnew
    -- `s.nextAck` is on no command yet, so this step has sent it
    · exact absurd (hs.pending_ack hold hack) (Nat.lt_irrefl _)
    · cases hnew with
      | plain l cmd hplain =>
        rw [hplain] at hack
        cases hack
      | introduces _ _ _ sock₁ r₁ hsock₁ htask₁ =>
        obtain rfl : sock = sock₁ := Option.some.inj (hsock.symm.trans hsock₁)
        obtain rfl : r = r₁ := by
          rw [htask] at htask₁
          cases htask₁
          rfl
        rw [hsame]
  added b hb hack := by
    obtain ⟨b', hb', hturn⟩ := step_turn h ha
    obtain rfl : b' = b := Option.some.inj (hb'.symm.trans hb)
    cases hturn with
    | told => exact absurd ((hs.acks j a ha).2 _ (List.mem_append_right _ hack)) (Nat.lt_irrefl _)

/-- **The step lemma.** -/
theorem Expecting.step {s t : Server Y} (hs : s.Expecting) (haccounted : s.Accounted)
    (hnamed : s.Named) {cfg : Configuration} {l : Label Y} (h : Server.step cfg s l = some t) :
    t.Expecting := by
  intro i sock' r' j ack hsock' htask' hstage'
  have hactor : ∀ sock r, s.sockets[i]? = some sock → sock.task = .registering r →
      r.stage.holds j = true → ∃ a, s.actors[j]? = some a := by
    intro sock r hsock htask hholds
    obtain ⟨a, ha, _⟩ := hnamed.registering i sock hsock r j htask hholds
    exact ⟨a, ha⟩
  rcases step_socket h hsock' with ⟨sock, hsock, hturn⟩ | ⟨_, now, _, rfl⟩
  · rcases hturn.tasks with rfl | hnext
    · obtain ⟨a, ha⟩ := hactor _ r' hsock htask' (by rw [hstage']; exact decide_eq_true rfl)
      exact (hs i _ r' j ack hsock htask' hstage').step h ha
    · rw [htask'] at hnext
      cases hnext with
      | rests task hrests => cases hrests
      | starts => cases hstage'
      | continues r again stage htask hnot => exact absurd hstage' (hnot j ack)
      | awaits doc queues r k hlabel htask hstage =>
        subst hlabel
        cases hstage'
        obtain ⟨a, ha⟩ := hactor sock r hsock htask (by rw [hstage]; exact decide_eq_true rfl)
        have hnext := register_nextAck h hsock htask hstage
        have hsame : sock'.connHandle i { r with stage := .await j s.nextAck }
            = sock.connHandle i r := by
          rw [Socket.connHandle, hturn.socketId]
          rfl
        exact haccounted.expected h hsock htask ha hsame (hnext ▸ Nat.lt_succ_self _)
  · cases htask'

theorem build_expecting (Y : Yrs) : (build Y).Expecting := by
  intro i sock r j ack hsock
  cases hsock

end Server

end Hocuspocus
