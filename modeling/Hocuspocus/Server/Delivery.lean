import Hocuspocus.Server.Provenance

/-!
# What is sent to an actor is handled once, in order

Between a sender and `handle_command` a command passes the mailbox and a batch. The
batch is taken from the front of the mailbox and handled from its front, so an
actor's commands are handled in the order in which they were sent, each of them
once; what is neither handled nor pending is lost with an actor that leaves in the
middle of a batch, or with its mailbox (`commands_handled_once`).

For the frames of a connection this goes back to the socket: a connection id belongs
to one socket for good (`Allotted`), so of all that is sent to the actor the frames of
the connection are those in the trace of its socket (`frames_handled_once`).
-/

namespace Hocuspocus

variable {Y : Yrs}

theorem commandsFor_append (j : Nat) (cmds more : List (Nat × DocCommand)) :
    commandsFor j (cmds ++ more) = commandsFor j cmds ++ commandsFor j more :=
  List.filterMap_append

namespace Server

/-- The command of the actor a step handles. -/
def handles (j : Nat) (s : Server Y) : Label Y → List DocCommand
  | .command k _ =>
    if k = j then (s.actors[j]?).elim [] fun a => a.batch.take 1 else []
  | _ => []

/-- Whoever is sent a command is there. -/
theorem Named.sends {s t : Server Y} (hs : s.Named) {cfg : Configuration} {l : Label Y}
    (h : Server.step cfg s l = some t) {j : Nat} {cmd : DocCommand}
    (hsent : (j, cmd) ∈ s.sends cfg l) : ∃ a, s.actors[j]? = some a := by
  have hthere : ∀ {k : Nat} {name : String}, s.Names k name → ∃ a, s.actors[k]? = some a := by
    rintro k name ⟨a, ha, _⟩
    exact ⟨a, ha⟩
  cases step_cases h with
  | connect | hangup | timeout | connected | authenticated | clean | apply | recv | command | actor
  | drop => cases hsent
  | unknown name data hdoc =>
    rw [Server.sends, hdoc] at hsent
    cases hsent
  | receive i data now sock hsock htask =>
    simp only [Server.sends, hsock] at hsent
    have hframe := sock.handleFrame_cases Y cfg now data
    generalize sock.handleFrame Y cfg now data = handled at hframe hsent
    cases hframe with
    | short | garbled | asks | unread | waits => cases hsent
    | passes frame est hlength hparse hest =>
      cases List.mem_singleton.mp hsent
      exact hthere (hs.established i sock hsock est (Keyed.mem_iff_get?.mp hest).1)
  | leave i key sock est hsock htask hest =>
    simp only [Server.sends, hsock, hest, Option.elim_some] at hsent
    cases List.mem_singleton.mp hsent
    exact hthere (hs.established i sock hsock est (Keyed.mem_iff_get?.mp hest).1)
  | external name data k hdoc =>
    simp only [Server.sends, hdoc, Option.elim_some] at hsent
    cases List.mem_singleton.mp hsent
    exact hthere (hs.documents name j hdoc)
  | register i doc queues sock r t hsock htask h =>
    obtain ⟨client, task, trace⟩ := sock
    cases htask
    have hstage := fun hholds => hs.registering i _ hsock r j rfl hholds
    simp only [Server.sends, hsock] at hsent
    split at hsent
    next => cases hsent
    next k hsend =>
      cases List.mem_singleton.mp hsent
      exact hthere (hstage (by rw [hsend]; exact decide_eq_true rfl))
    next k ack hawait =>
      split at hsent
      next =>
        rw [Socket.register_sends] at hsent
        obtain ⟨data, _, heq⟩ := List.mem_map.mp hsent
        cases heq
        exact hthere (hstage (by rw [hawait]; exact decide_eq_true rfl))
      next => cases hsent
  | direct k doc queues e t he h =>
    obtain ⟨name, update, st, returned⟩ := e
    simp only [Server.sends, he] at hsent
    split at hsent
    next heq =>
      cases heq
      cases List.mem_singleton.mp hsent
      exact hthere (hs.edits k _ he j (decide_eq_true rfl))
    next => cases hsent

/-- What an actor has been sent and has handled, as far as its state shows. -/
structure Passes (a : Spawned Y) (sent handled : List DocCommand) : Prop where
  ordered : handled <+: sent
  live : a.Live → a.gone = false ∧ sent = handled ++ a.pending

theorem Passes.born {name : String} {doc : Y.Doc} {queues : Queues} :
    Passes (Server.born name doc queues) [] [] := ⟨List.prefix_refl _, fun _ => ⟨rfl, rfl⟩⟩

/-- The actor does not handle a command. -/
theorem Passes.keeps {a b : Spawned Y} {sent handled : List DocCommand} (h : Passes a sent handled)
    (hlive : b.Live → a.Live) (hgone : b.Live → b.gone = a.gone)
    (hpending : b.Live → b.pending = a.pending) : Passes b sent handled := by
  refine ⟨h.ordered, fun hb => ?_⟩
  obtain ⟨hthere, hsent⟩ := h.live (hlive hb)
  rw [hgone hb, hpending hb]
  exact ⟨hthere, hsent⟩

/-- **The step lemma.** -/
theorem Passes.round {cfg : Configuration} {s : Server Y} {l : Label Y} {j : Nat}
    {a b : Spawned Y} {sent handled : List DocCommand} (ha : s.actors[j]? = some a)
    (hround : a.Round cfg s (s.sends cfg l) j l b) (h : Passes a sent handled) :
    Passes b (sent ++ commandsFor j (s.sends cfg l)) (handled ++ s.handles j l) := by
  cases hround with
  | told _ hturns =>
    have hquiet : s.handles j l = [] := by
      unfold handles
      split
      next k o =>
        split
        next hk => exact absurd (congrArg some hk) hturns
        next => rfl
      next => rfl
    rw [hquiet, List.append_nil]
    refine ⟨h.ordered.trans (List.prefix_append _ _), fun hb => ?_⟩
    have hlive : a.Live := by
      unfold Spawned.receives at hb
      split at hb <;> exact hb
    obtain ⟨hthere, hsent⟩ := h.live hlive
    rw [Spawned.receives, hthere, if_neg Bool.false_ne_true, hsent]
    refine ⟨hthere, ?_⟩
    rw [Spawned.pending, Spawned.pending, List.append_assoc, List.append_assoc]
    rfl
  | recv hbatch hgone hphase hmail =>
    have hnothing : s.handles j (.recv j) = [] := rfl
    have hnone : commandsFor j (s.sends cfg (.recv j)) = [] := rfl
    rw [hnone, hnothing, List.append_nil, List.append_nil]
    refine h.keeps (fun hb => hb) (fun _ => rfl) fun _ => ?_
    rw [Spawned.pending, Spawned.pending, hbatch, List.take_append_drop]
    rfl
  | command o cmd batch b hbatch hstep =>
    have hlive : a.Live := fun hleft => absurd rfl ((hleft.step hstep).2 cmd o)
    obtain ⟨hthere, hsent⟩ := h.live hlive
    have hnow : s.handles j (.command j o) = [cmd] := by
      rw [handles, if_pos rfl, ha, Option.elim_some, hbatch]
      rfl
    have hnone : commandsFor j (s.sends cfg (.command j o)) = [] := rfl
    rw [Spawned.pending, hbatch, List.cons_append] at hsent
    rw [hnone, hnow, List.append_nil, hsent]
    refine ⟨⟨batch ++ a.mailbox, by rw [List.append_assoc, List.singleton_append]⟩,
      fun hb => ⟨hthere, ?_⟩⟩
    -- the rest of the batch is still there, as it has not unloaded
    have hstays : b.unloadedBy (.command cmd o) ≠ true :=
      fun hexit => hb (Actor.unloadedBy_phase hexit)
    rw [Spawned.pending]
    dsimp only
    rw [if_neg hstays, List.append_assoc, List.singleton_append]
  | actor al b hplain hbetween hclosed hstep =>
    have hnothing : s.handles j (.actor j al) = [] := rfl
    have hnone : commandsFor j (s.sends cfg (.actor j al)) = [] := rfl
    rw [hnone, hnothing, List.append_nil, List.append_nil]
    refine h.keeps (fun hb hleft => hb ?_) (fun _ => rfl) fun _ => rfl
    rcases (hleft.step hstep).1 with hphase | hphase
    · rw [Spawned.Left, hphase]
      exact hleft
    · exact Or.inr hphase
  | drop hstopped =>
    have hnothing : s.handles j (.drop j) = [] := rfl
    have hnone : commandsFor j (s.sends cfg (.drop j)) = [] := rfl
    rw [hnone, hnothing, List.append_nil, List.append_nil]
    exact ⟨h.ordered, fun hb => absurd (Or.inr hstopped) hb⟩

/-- No actor, nothing sent and nothing handled. -/
def Passed (j : Nat) (s : Server Y) (sent : List (Nat × DocCommand)) (handled : List DocCommand) :
    Prop :=
  match s.actors[j]? with
  | some a => Passes a (commandsFor j sent) handled
  | none => commandsFor j sent = [] ∧ handled = []

theorem Passed.step {s t : Server Y} {cfg : Configuration} {l : Label Y} (hnamed : s.Named)
    (h : Server.step cfg s l = some t) {j : Nat} {sent : List (Nat × DocCommand)}
    {handled : List DocCommand} (hs : s.Passed j sent handled) :
    t.Passed j (sent ++ s.sends cfg l) (handled ++ s.handles j l) := by
  unfold Passed at hs ⊢
  rw [commandsFor_append]
  cases ha : s.actors[j]? with
  | some a =>
    obtain ⟨b, hb, hround⟩ := step_round h ha
    rw [ha] at hs
    rw [hb]
    exact Passes.round ha hround hs
  | none =>
    rw [ha] at hs
    obtain ⟨hsent, rfl⟩ := hs
    have hnone : commandsFor j (s.sends cfg l) = [] := by
      refine List.filterMap_eq_nil_iff.mpr fun c hc => if_neg ?_
      rintro rfl
      obtain ⟨a, ha'⟩ := hnamed.sends h hc
      rw [ha] at ha'
      cases ha'
    have hhandles : s.handles j l = [] := by
      unfold handles
      split
      · rw [ha, Option.elim_none, ite_self]
      · rfl
    rw [hsent, hnone, hhandles]
    cases hb : t.actors[j]? with
    | none => exact ⟨rfl, rfl⟩
    | some b =>
      rcases step_known h hb with ⟨a, ha'⟩ | ⟨_, name, doc, queues, rfl⟩
      · rw [ha] at ha'
        cases ha'
      · exact .born

theorem passes_of_run {cfg : Configuration} {ls : List (Label Y)} {s : Server Y}
    (hrun : Lts.exec (Server.step cfg) (build Y) ls = some s) {j : Nat} {a : Spawned Y}
    (ha : s.actors[j]? = some a) :
    Passes a (commandsFor j (Lts.record (Server.step cfg) (Server.sends cfg) (build Y) ls))
      (Lts.record (Server.step cfg) (Server.handles j) (build Y) ls) := by
  have hend : s.Sound ∧ s.Passed j
      ([] ++ Lts.record (Server.step cfg) (Server.sends cfg) (build Y) ls)
      ([] ++ Lts.record (Server.step cfg) (Server.handles j) (build Y) ls) :=
    Lts.exec_records (I := fun (u : Server Y) sent handled => u.Sound ∧ u.Passed j sent handled)
      (fun _ _ _ _ _ hstep hs => ⟨hs.1.step hstep, hs.2.step hs.1.named hstep⟩) hrun
      ⟨build_sound Y, rfl, rfl⟩
  rw [List.nil_append, List.nil_append, Passed, ha] at hend
  exact hend.2

end Server

/-- **Every command is handled once, in order.** What an actor has handled in a run is
a beginning of what was sent to it; while it has not left, the rest is what is still
in its batch and its mailbox. -/
theorem commands_handled_once {cfg : Configuration} {ls : List (Server.Label Y)} {s : Server Y}
    (hrun : Lts.exec (Server.step cfg) (Server.build Y) ls = some s) {j : Nat} {a : Spawned Y}
    (ha : s.actors[j]? = some a) :
    Lts.record (Server.step cfg) (Server.handles j) (Server.build Y) ls
      <+: commandsFor j (Lts.record (Server.step cfg) (Server.sends cfg) (Server.build Y) ls) ∧
    (a.Live → commandsFor j (Lts.record (Server.step cfg) (Server.sends cfg) (Server.build Y) ls)
      = Lts.record (Server.step cfg) (Server.handles j) (Server.build Y) ls ++ a.pending) := by
  have hpasses := Server.passes_of_run hrun ha
  exact ⟨hpasses.ordered, fun hlive => (hpasses.live hlive).2⟩

/-- A client joins and edits twice, and the actor has handled one of the edits. -/
def halfHandled : List (Server.Label OneWriter.yrs) :=
  .connect 0 :: (OneWriter.enters 0 0 "doc" ++ [.receive 0 (OneWriter.editFrame 0) 0,
    .receive 0 (OneWriter.editFrame 1) 0, .recv 0, .command 0 {}])

theorem halfHandled_runs :
    (Lts.exec (Server.step {}) (Server.build OneWriter.yrs) halfHandled).isSome = true := by
  decide +kernel

/-- The actor has more to handle. -/
theorem halfHandled_actor : ∃ a, (OneWriter.serve {} halfHandled).actors[0]? = some a ∧ a.Live ∧
    a.pending.length = 1 := by
  have hactor : ((OneWriter.serve {} halfHandled).actors[0]?).map (fun a =>
      (a.actor.phase, a.pending.length)) = some (.batch 1, 1) := by decide +kernel
  obtain ⟨a, ha, hdoes⟩ := Option.map_eq_some_iff.mp hactor
  obtain ⟨hphase, hpending⟩ := Prod.mk.inj hdoes
  refine ⟨a, ha, fun hleft => ?_, hpending⟩
  rw [Spawned.Left, hphase] at hleft
  rcases hleft with h | h <;> cases h

theorem commands_handled_once_half :
    ∃ a, (OneWriter.serve {} halfHandled).actors[0]? = some a ∧ a.pending.length = 1 ∧
      commandsFor 0 (Lts.record (Server.step {}) (Server.sends {}) (Server.build OneWriter.yrs)
        halfHandled) = Lts.record (Server.step {}) (Server.handles 0)
          (Server.build OneWriter.yrs) halfHandled ++ a.pending := by
  obtain ⟨a, ha, hlive, hpending⟩ := halfHandled_actor
  exact ⟨a, ha, hpending, (commands_handled_once (Lts.exec_reach halfHandled_runs) ha).2 hlive⟩

/-! ## The frames of a connection -/

/-- The commands a socket has sent. -/
def Socket.commands (sock : Socket) : List (Nat × DocCommand) :=
  sock.trace.filterMap fun | .command doc cmd => some (doc, cmd) | _ => none

/-- The frames of the connection among the commands. -/
def framesOf (connId : Nat) (cmds : List DocCommand) : List Bytes :=
  cmds.filterMap fun | .clientFrame id data => if id = connId then some data else none | _ => none

theorem framesOf_append (connId : Nat) (cmds more : List DocCommand) :
    framesOf connId (cmds ++ more) = framesOf connId cmds ++ framesOf connId more :=
  List.filterMap_append

theorem Socket.commands_append {sock sock' : Socket} {more : List SocketEvent}
    (h : sock'.trace = sock.trace ++ more) :
    sock'.commands = sock.commands ++ more.filterMap fun
      | .command doc cmd => some (doc, cmd) | _ => none := by
  rw [Socket.commands, h, List.filterMap_append]
  rfl

theorem Socket.emit_command (sock : Socket) (doc : Nat) (cmd : DocCommand) :
    (sock.emit (.command doc cmd)).commands = sock.commands ++ [(doc, cmd)] := by
  have htrace : (sock.emit (.command doc cmd)).trace = sock.trace ++ [.command doc cmd] := rfl
  exact Socket.commands_append htrace

/-- The id is that of a connection the socket is registering, has established or has
sent frames for. -/
inductive Socket.Owns (sock : Socket) (connId : Nat) : Prop
  | registering (r : Registration) (htask : sock.task = .registering r) (hid : r.connId = connId)
  | established (est : Established) (hest : est ∈ sock.client.established.vals)
    (hid : est.connId = connId)
  | sent (doc : Nat) (data : Bytes) (hsent : .command doc (.clientFrame connId data) ∈ sock.trace)

namespace Server

/-- The socket whose task sends what the step sends. -/
def Label.speaks : Label Y → Option Nat
  | .receive i _ _ | .register i _ _ | .leave i _ => some i
  | _ => none

/-- Ids are given out, and no two sockets have the same. -/
structure Allotted (s : Server Y) : Prop where
  issued : ∀ (i : Nat) (sock : Socket) connId, s.sockets[i]? = some sock → sock.Owns connId →
    connId < s.nextConnId
  alone : ∀ (i i' : Nat) (sock sock' : Socket) connId, s.sockets[i]? = some sock →
    s.sockets[i']? = some sock' → sock.Owns connId → sock'.Owns connId → i = i'

/-- A socket has had the ids it owns, or has just been given the next one. -/
theorem owns_was {s t : Server Y} {cfg : Configuration} {l : Label Y}
    (h : Server.step cfg s l = some t) {i : Nat} {sock' : Socket}
    (hsock' : t.sockets[i]? = some sock') {connId : Nat} (howns : sock'.Owns connId) :
    (∃ sock, s.sockets[i]? = some sock ∧ sock.Owns connId) ∨
      (∃ results readOnly, l = .authenticated i results readOnly ∧ firstError results = none) ∧
        connId = s.nextConnId := by
  cases howns with
  | registering r htask hid =>
    rcases registering_was h hsock' htask with ⟨sock, q, hsock, hq, hsame⟩ | ⟨hlabel, hnew⟩
    · exact Or.inl ⟨sock, hsock, .registering q hq ((connId_eq hsame).trans hid)⟩
    · exact Or.inr ⟨hlabel, hid.symm.trans hnew⟩
  | established est hest hid =>
    rcases step_socket h hsock' with ⟨sock, hsock, hturn⟩ | ⟨_, now, _, rfl⟩
    · rcases hturn.established hest with hwas | ⟨r, j, ack, htask, _, _, rfl, _⟩
      · exact Or.inl ⟨sock, hsock, .established est hwas hid⟩
      · exact Or.inl ⟨sock, hsock, .registering r htask hid⟩
    · cases hest
  | sent doc data hsent =>
    rcases step_socket h hsock' with ⟨sock, hsock, hturn⟩ | ⟨_, now, _, rfl⟩
    · rcases hturn.traced.mem hsent with hwas | htraces
      · exact Or.inl ⟨sock, hsock, .sent doc data hwas⟩
      · cases htraces with
        | passes data now frame est htask hlength hparse hest =>
          exact Or.inl ⟨sock, hsock, .established est (Keyed.mem_iff_get?.mp hest).1 rfl⟩
        | drains doc queues r j ack data htask => exact Or.inl ⟨sock, hsock, .registering r htask rfl⟩
    · cases hsent

theorem Allotted.step {s t : Server Y} (hs : s.Allotted) {cfg : Configuration} {l : Label Y}
    (h : Server.step cfg s l = some t) : t.Allotted where
  issued i sock' connId hsock' howns := by
    rcases owns_was h hsock' howns with ⟨sock, hsock, hwas⟩ | ⟨⟨results, readOnly, rfl, hin⟩, rfl⟩
    · exact (hs.issued i sock connId hsock hwas).trans_le (nextConnId_le h)
    · cases step_cases h with
      | authenticated => exact (Nat.lt_succ_self _).trans_eq (s.connIdAfter_in hin).symm
  alone i i' sock sock' connId hsock hsock' howns howns' := by
    rcases owns_was h hsock howns with ⟨old, hold, hwas⟩ | ⟨⟨results, readOnly, rfl, _⟩, rfl⟩
    · rcases owns_was h hsock' howns' with ⟨old', hold', hwas'⟩ | ⟨_, rfl⟩
      · exact hs.alone i i' old old' connId hold hold' hwas hwas'
      · exact absurd (hs.issued i old _ hold hwas) (Nat.lt_irrefl _)
    · rcases owns_was h hsock' howns' with ⟨old', hold', hwas'⟩ | ⟨⟨_, _, hlabel, _⟩, _⟩
      · exact absurd (hs.issued i' old' _ hold' hwas') (Nat.lt_irrefl _)
      · cases hlabel
        rfl

theorem build_allotted (Y : Yrs) : (build Y).Allotted where
  issued i sock connId hsock := by cases hsock
  alone i i' sock sock' connId hsock := by cases hsock

/-- Whose task does not speak sends nothing. -/
theorem step_silent {s t : Server Y} {cfg : Configuration} {l : Label Y}
    (h : Server.step cfg s l = some t) {i : Nat} {sock : Socket}
    (hsock : s.sockets[i]? = some sock) (hspeaks : l.speaks ≠ some i) :
    ∃ sock', t.sockets[i]? = some sock' ∧ sock'.commands = sock.commands := by
  obtain ⟨sock', hsock', hturn⟩ := socket_goes h hsock
  obtain ⟨more, htrace, hmore⟩ := hturn.traced
  refine ⟨sock', hsock', (Socket.commands_append htrace).trans ?_⟩
  have hnone : (more.filterMap fun
      | .command doc cmd => some (doc, cmd) | _ => none : List (Nat × DocCommand)) = [] := by
    refine List.filterMap_eq_nil_iff.mpr fun e he => ?_
    cases hmore e he with
    | out | onConnect | onAuthenticate => rfl
    | introduces | passes | drains | leaves => exact absurd rfl hspeaks
  rw [hnone, List.append_nil]

/-- What goes out is no command. -/
theorem commands_out {sock sock' : Socket} (h : sock.Extends (fun e => ∃ msg, e = .out msg) sock') :
    sock'.commands = sock.commands := by
  obtain ⟨more, htrace, hmore⟩ := h
  refine (Socket.commands_append htrace).trans ?_
  have hnone : (more.filterMap fun
      | .command doc cmd => some (doc, cmd) | _ => none : List (Nat × DocCommand)) = [] := by
    refine List.filterMap_eq_nil_iff.mpr fun e he => ?_
    obtain ⟨msg, rfl⟩ := hmore e he
    rfl
  rw [hnone, List.append_nil]

/-- What a socket sends is in its trace. -/
theorem step_speaks {s t : Server Y} {cfg : Configuration} {l : Label Y}
    (h : Server.step cfg s l = some t) {i : Nat} {sock : Socket}
    (hsock : s.sockets[i]? = some sock) (hspeaks : l.speaks = some i) :
    ∃ sock', t.sockets[i]? = some sock' ∧ sock'.commands = sock.commands ++ s.sends cfg l := by
  have hset : ∀ {u : Server Y} {new : Socket}, u.sockets = s.sockets.set i new →
      u.sockets[i]? = some new := by
    intro u new hsockets
    rw [hsockets]
    exact (getElem?_set_of_some hsock new i).trans (if_pos rfl)
  have hout : ∀ msg, (fun e : SocketEvent => ∃ msg, e = .out msg) (.out msg) := fun msg => ⟨msg, rfl⟩
  cases step_cases h with
  | receive k data now sock' hsock' htask =>
    cases hspeaks
    obtain rfl : sock = sock' := Option.some.inj (hsock.symm.trans hsock')
    refine ⟨_, hset (sendAll_sockets _ _), ?_⟩
    simp only [sends, hsock]
    have hframe := sock.handleFrame_cases Y cfg now data
    generalize sock.handleFrame Y cfg now data = handled at hframe ⊢
    cases hframe with
    | short | garbled | asks | unread => exact (List.append_nil _).symm
    | passes frame est hlength hparse hest => exact (sock.heard now).emit_command _ _
    | waits frame hlength hparse hnone hty =>
      rw [List.append_nil]
      exact commands_out ((sock.heard now).enqueue_extends hout cfg frame.routingKey data)
  | leave k key sock' est hsock' htask hest =>
    cases hspeaks
    obtain rfl : sock = sock' := Option.some.inj (hsock.symm.trans hsock')
    refine ⟨_, hset (sendAll_sockets _ _), ?_⟩
    simp only [sends, hsock, hest, Option.elim_some]
    exact sock.emit_command _ _
  | register k doc queues sock' r t hsock' htask h =>
    cases hspeaks
    obtain rfl : sock = sock' := Option.some.inj (hsock.symm.trans hsock')
    obtain ⟨client, task, trace⟩ := sock
    cases htask
    cases registerStep_cases h with
    | calls call next u hstage hcall | finds call handle u hstage hcall =>
      refine ⟨_, hset (congrArg (List.set · i _) (documentStep_sockets hcall).1), ?_⟩
      simp only [sends, hsock, hstage, List.append_nil]
      rfl
    | sends handle hstage =>
      refine ⟨_, hset (congrArg (List.set · i _) (send_sockets _ _ _)), ?_⟩
      simp only [sends, hsock, hstage]
      exact Socket.emit_command _ _ _
    | refused handle hstage =>
      refine ⟨_, hset (congrArg (List.set · i _) (send_sockets _ _ _)), ?_⟩
      simp only [sends, hsock, hstage]
      exact (commands_out (Socket.failed_extends hout _ r)).trans (Socket.emit_command _ _ _)
    | acked handle ack hstage hacked =>
      refine ⟨_, hset (sendAll_sockets _ _), ?_⟩
      simp only [sends, hsock, hstage, hacked, if_true]
      rw [Socket.commands_append (Socket.register_flow _ r handle).2, Socket.register_sends,
        List.filterMap_map]
      exact congrArg (_ ++ ·) (congrFun List.filterMap_eq_map' _)
    | lost handle ack hstage hlost =>
      refine ⟨_, hset rfl, ?_⟩
      simp only [sends, hsock, hstage, hlost, Option.some.injEq, Bool.false_eq_true, if_false,
        List.append_nil]
      exact commands_out (Socket.failed_extends hout _ r)
  | _ => cases hspeaks

/-- The frames of a connection among the commands for the actor. -/
def framesTo (j connId : Nat) (cmds : List (Nat × DocCommand)) : List Bytes :=
  framesOf connId (commandsFor j cmds)

theorem framesTo_append (j connId : Nat) (cmds more : List (Nat × DocCommand)) :
    framesTo j connId (cmds ++ more) = framesTo j connId cmds ++ framesTo j connId more := by
  rw [framesTo, commandsFor_append, framesOf_append, framesTo, framesTo]

theorem framesTo_mem {j connId : Nat} {cmds : List (Nat × DocCommand)}
    (h : framesTo j connId cmds ≠ []) : ∃ data, (j, .clientFrame connId data) ∈ cmds := by
  obtain ⟨data, hdata⟩ := List.exists_mem_of_ne_nil _ h
  obtain ⟨cmd, hcmd, hframe⟩ := List.mem_filterMap.mp hdata
  obtain ⟨⟨k, cmd'⟩, hmem, hfor⟩ := List.mem_filterMap.mp hcmd
  split at hfor
  next hk =>
    cases hfor
    cases cmd' with
    | clientFrame id data' =>
      dsimp only at hframe
      split at hframe
      next hid =>
        cases hframe
        have hk' : k = j := hk
        exact ⟨data, hid ▸ hk' ▸ hmem⟩
      next => cases hframe
    | _ => cases hframe
  next => cases hfor

/-- A socket that has sent frames for a connection owns its id. -/
theorem owns_sent {sock : Socket} {j connId : Nat} (h : framesTo j connId sock.commands ≠ []) :
    sock.Owns connId := by
  obtain ⟨data, hmem⟩ := framesTo_mem h
  obtain ⟨e, he, hsent⟩ := List.mem_filterMap.mp hmem
  split at hsent
  next =>
    cases hsent
    exact .sent j data he
  next => cases hsent

/-- A step that sends a frame for a connection is that of the socket which owns the id. -/
theorem sends_owned {s t : Server Y} {cfg : Configuration} {l : Label Y}
    (h : Server.step cfg s l = some t) {j connId : Nat}
    (hframes : framesTo j connId (s.sends cfg l) ≠ []) :
    ∃ i sock', l.speaks = some i ∧ t.sockets[i]? = some sock' ∧ sock'.Owns connId := by
  have hsocket : ∀ {i : Nat} {sock : Socket}, s.sockets[i]? = some sock → l.speaks = some i →
      ∃ i sock', l.speaks = some i ∧ t.sockets[i]? = some sock' ∧ sock'.Owns connId := by
    intro i sock hsock hspeaks
    obtain ⟨sock', hsock', hcommands⟩ := step_speaks h hsock hspeaks
    refine ⟨i, sock', hspeaks, hsock', owns_sent (j := j) ?_⟩
    rw [hcommands, framesTo_append]
    exact List.append_ne_nil_of_right_ne_nil _ hframes
  obtain ⟨data, hmem⟩ := framesTo_mem hframes
  cases step_cases h with
  | receive i data now sock hsock | leave i key sock est hsock | register i doc queues sock r t hsock =>
    exact hsocket hsock rfl
  | external name data k hdoc =>
    simp only [sends, hdoc, Option.elim_some] at hmem
    cases List.mem_singleton.mp hmem
  | unknown name data hdoc =>
    rw [sends, hdoc] at hmem
    cases hmem
  | direct k doc queues e t he =>
    obtain ⟨name, update, st, returned⟩ := e
    simp only [sends, he] at hmem
    split at hmem
    next => cases List.mem_singleton.mp hmem
    next => cases hmem
  | _ => cases hmem

/-- What was sent to the actor for a connection is what the socket that owns the id
has sent. -/
structure Heard (j connId : Nat) (s : Server Y) (sent : List (Nat × DocCommand)) : Prop where
  owned : ∀ (i : Nat) (sock : Socket), s.sockets[i]? = some sock → sock.Owns connId →
    framesTo j connId sent = framesTo j connId sock.commands
  nobody : (∀ (i : Nat) (sock : Socket), s.sockets[i]? = some sock → ¬ sock.Owns connId) →
    framesTo j connId sent = []

theorem Heard.step {s t : Server Y} (hallotted : s.Allotted) {cfg : Configuration} {l : Label Y}
    (h : Server.step cfg s l = some t) {j connId : Nat} {sent : List (Nat × DocCommand)}
    (hs : s.Heard j connId sent) : t.Heard j connId (sent ++ s.sends cfg l) := by
  have hallotted' := hallotted.step h
  have hcommands : ∀ {i : Nat} {sock : Socket}, s.sockets[i]? = some sock →
      ∃ sock', t.sockets[i]? = some sock' ∧ sock.commands <+: sock'.commands := by
    intro i sock hsock
    by_cases hspeaks : l.speaks = some i
    · obtain ⟨sock', hsock', hmore⟩ := step_speaks h hsock hspeaks
      exact ⟨sock', hsock', hmore ▸ List.prefix_append _ _⟩
    · obtain ⟨sock', hsock', hsame⟩ := step_silent h hsock hspeaks
      exact ⟨sock', hsock', hsame ▸ List.prefix_refl _⟩
  -- nobody else sends a frame of a connection that has an owner
  have hquiet : ∀ {i : Nat} {sock' : Socket}, t.sockets[i]? = some sock' → sock'.Owns connId →
      l.speaks ≠ some i → framesTo j connId (s.sends cfg l) = [] := by
    intro i sock' hsock' howns hspeaks
    by_contra hframes
    obtain ⟨k, other, hk, hother, howns'⟩ := sends_owned h hframes
    obtain rfl := hallotted'.alone i k sock' other connId hsock' hother howns howns'
    exact hspeaks hk
  refine ⟨fun i sock' hsock' howns => ?_, fun hnobody => ?_⟩
  · rw [framesTo_append]
    rcases owns_was h hsock' howns with ⟨sock, hsock, hwas⟩ | ⟨⟨results, readOnly, rfl, _⟩, hid⟩
    · rw [hs.owned i sock hsock hwas]
      by_cases hspeaks : l.speaks = some i
      · obtain ⟨new, hnew, hmore⟩ := step_speaks h hsock hspeaks
        obtain rfl : new = sock' := Option.some.inj (hnew.symm.trans hsock')
        rw [hmore, framesTo_append]
      · obtain ⟨new, hnew, hsame⟩ := step_silent h hsock hspeaks
        obtain rfl : new = sock' := Option.some.inj (hnew.symm.trans hsock')
        rw [hquiet hsock' howns hspeaks, hsame, List.append_nil]
    · -- the id is new, and no frame has been sent with it
      have hfresh : ∀ (k : Nat) (sock : Socket), s.sockets[k]? = some sock → ¬ sock.Owns connId := by
        intro k sock hsock hwas
        have hlt := hallotted.issued k sock connId hsock hwas
        omega
      rw [hs.nobody hfresh]
      rcases step_socket h hsock' with ⟨sock, hsock, _⟩ | ⟨_, now, hl, _⟩
      · obtain ⟨new, hnew, hsame⟩ := step_silent h hsock (by intro hspeaks; cases hspeaks)
        obtain rfl : new = sock' := Option.some.inj (hnew.symm.trans hsock')
        rw [hsame]
        by_contra hframes
        exact hfresh i sock hsock (owns_sent (j := j) fun hnone => hframes hnone.symm)
      · cases hl
  · rw [framesTo_append]
    have hnone : framesTo j connId (s.sends cfg l) = [] := by
      by_contra hframes
      obtain ⟨k, other, _, hother, howns⟩ := sends_owned h hframes
      exact hnobody k other hother howns
    rw [hnone, List.append_nil]
    by_contra hframes
    by_cases howned : ∃ (i : Nat) (sock : Socket), s.sockets[i]? = some sock ∧ sock.Owns connId
    · obtain ⟨i, sock, hsock, howns⟩ := howned
      rw [hs.owned i sock hsock howns] at hframes
      obtain ⟨sock', hsock', more, hmore⟩ := hcommands hsock
      refine hnobody i sock' hsock' (owns_sent (j := j) ?_)
      rw [← hmore, framesTo_append]
      exact List.append_ne_nil_of_left_ne_nil hframes _
    · exact hframes (hs.nobody fun i sock hsock howns => howned ⟨i, sock, hsock, howns⟩)

end Server

/-- **A client's frames are handled once, in order.** Of the frames a socket has sent to
an actor for one of its connections, those the actor has handled are a beginning; while
the actor has not left, the others are pending. -/
theorem frames_handled_once {cfg : Configuration} {ls : List (Server.Label Y)} {s : Server Y}
    (hrun : Lts.exec (Server.step cfg) (Server.build Y) ls = some s) {i j connId : Nat}
    {sock : Socket} (hsock : s.sockets[i]? = some sock) (howns : sock.Owns connId)
    {a : Spawned Y} (ha : s.actors[j]? = some a) :
    framesOf connId (Lts.record (Server.step cfg) (Server.handles j) (Server.build Y) ls)
      <+: Server.framesTo j connId sock.commands ∧
    (a.Live → Server.framesTo j connId sock.commands
      = framesOf connId (Lts.record (Server.step cfg) (Server.handles j) (Server.build Y) ls) ++
        framesOf connId a.pending) := by
  have hend : s.Allotted ∧ s.Heard j connId
      ([] ++ Lts.record (Server.step cfg) (Server.sends cfg) (Server.build Y) ls) :=
    Lts.exec_record (I := fun (u : Server Y) sent => u.Allotted ∧ u.Heard j connId sent)
      (fun _ _ _ _ hstep _ hs => ⟨hs.1.step hstep, hs.2.step hs.1 hstep⟩)
      (Lts.along_of_forall (fun _ _ _ _ => trivial) ls _) hrun
      ⟨Server.build_allotted Y, ⟨fun i sock hsock => (by cases hsock), fun _ => rfl⟩⟩
  have hheard := hend.2.owned i sock hsock howns
  rw [List.nil_append] at hheard
  have hpasses := Server.passes_of_run hrun ha
  rw [← hheard, Server.framesTo]
  refine ⟨hpasses.ordered.filterMap _, fun hlive => ?_⟩
  rw [(hpasses.live hlive).2, framesOf_append]

theorem frames_handled_once_half :
    ∃ (sock : Socket) (a : Spawned OneWriter.yrs),
      (OneWriter.serve {} halfHandled).sockets[0]? = some sock ∧
      (OneWriter.serve {} halfHandled).actors[0]? = some a ∧
      Server.framesTo 0 1 sock.commands = [OneWriter.editFrame 0, OneWriter.editFrame 1] ∧
      framesOf 1 (Lts.record (Server.step {}) (Server.handles 0) (Server.build OneWriter.yrs)
        halfHandled) = [OneWriter.editFrame 0] ∧
      Server.framesTo 0 1 sock.commands = framesOf 1 (Lts.record (Server.step {})
        (Server.handles 0) (Server.build OneWriter.yrs) halfHandled) ++ framesOf 1 a.pending := by
  have hsent : ((OneWriter.serve {} halfHandled).sockets[0]?).map (fun sock =>
      Server.framesTo 0 1 sock.commands) = some [OneWriter.editFrame 0, OneWriter.editFrame 1] := by
    decide +kernel
  obtain ⟨sock, hsock, hframes⟩ := Option.map_eq_some_iff.mp hsent
  obtain ⟨a, ha, hlive, _⟩ := halfHandled_actor
  have howns : sock.Owns 1 := Server.owns_sent (j := 0) (by rw [hframes]; exact List.cons_ne_nil _ _)
  exact ⟨sock, a, hsock, ha, hframes, by decide +kernel,
    (frames_handled_once (Lts.exec_reach halfHandled_runs) hsock howns ha).2 hlive⟩

end Hocuspocus
