import Hocuspocus.Document.Frame
import Hocuspocus.Server.Steps

/-!
# What a step sends, and to whom

`sends` reads the commands of a step off the state before it. With them
`Spawned.Round` says exactly what a step does to one actor: the commands for it
go to the end of its mailbox unless its receiver is gone, or its own task takes
one of the turns of its loop. `step_round` is the inversion of `Server.step` for
what depends on the commands themselves and on the state of the loop;
`step_turn` forgets both.
-/

namespace Hocuspocus

variable {Y : Yrs}

/-- The actor whose task takes the step. -/
def Server.Label.turns : Server.Label Y → Option Nat
  | .recv j | .command j _ | .actor j _ | .drop j => some j
  | _ => none

/-- The branch of the loop that is open between two batches. -/
def Label.between : Label → Bool
  | .flush _ | .storeResult _ | .deadline _ | .mailboxClosed => true
  | .command _ _ | .storeTask _ _ | .queues _ => false

/-- The commands for the actor `j`. -/
def commandsFor (j : Nat) (cmds : List (Nat × DocCommand)) : List DocCommand :=
  cmds.filterMap fun c => if c.1 = j then some c.2 else none

/-- The actor `j` is sent commands. -/
def Spawned.receives (a : Spawned Y) (j : Nat) (cmds : List (Nat × DocCommand)) : Spawned Y :=
  if a.gone then a else a.told (commandsFor j cmds)

theorem Spawned.receives_nil (a : Spawned Y) (j : Nat) : a.receives j [] = a := by
  rw [Spawned.receives]
  split
  · rfl
  · exact a.told_nil

theorem Spawned.receives_cons (a : Spawned Y) (j : Nat) (c : Nat × DocCommand)
    (cmds : List (Nat × DocCommand)) :
    a.receives j (c :: cmds) = (a.receives j [c]).receives j cmds := by
  have happend : commandsFor j (c :: cmds) = commandsFor j [c] ++ commandsFor j cmds := by
    rw [commandsFor, commandsFor, commandsFor, ← List.filterMap_append, List.singleton_append]
  cases hgone : a.gone with
  | true =>
    simp only [Spawned.receives, hgone, if_true]
  | false =>
    have htold : (a.told (commandsFor j [c])).gone = false := hgone
    simp only [Spawned.receives, hgone, htold, Bool.false_eq_true, if_false]
    rw [happend, Spawned.told_told]

/-- What the actor `j` has done in a step from `s`, or has had done to it. -/
inductive Spawned.Round (cfg : Configuration) (s : Server Y) (sends : List (Nat × DocCommand))
    (j : Nat) (a : Spawned Y) : Server.Label Y → Spawned Y → Prop
  | told (l : Server.Label Y) (hturns : l.turns ≠ some j) :
    Round cfg s sends j a l (a.receives j sends)
  | recv (hbatch : a.batch = []) (hgone : a.gone = false) (hphase : a.actor.phase = .select)
    (hmail : a.mailbox ≠ []) : Round cfg s sends j a (.recv j)
      { a with mailbox := a.mailbox.drop maxCoalesceBatch, batch := a.mailbox.take maxCoalesceBatch }
  | command (o : Ambient) (cmd : DocCommand) (batch : List DocCommand) (b : Actor Y)
    (hbatch : a.batch = cmd :: batch) (hstep : a.actor.step cfg (.command cmd o) = some b) :
    Round cfg s sends j a (.command j o)
      ⟨b, a.mailbox, if b.unloadedBy (.command cmd o) then [] else batch,
        cmd.ack?.elim a.acked fun ack => a.acked ++ [ack], a.gone⟩
  | actor (l : Hocuspocus.Label) (b : Actor Y) (hplain : ∀ cmd o, l ≠ .command cmd o)
    (hbetween : l.between = true → a.batch = [])
    (hclosed : l = .mailboxClosed → a.mailbox = [] ∧ s.hasSender j a = false)
    (hstep : a.actor.step cfg l = some b) : Round cfg s sends j a (.actor j l) { a with actor := b }
  | drop (hstopped : a.actor.phase = .stopped) :
    Round cfg s sends j a (.drop j) { a with mailbox := [], gone := true }

/-- In a round the actor stays as it is, or takes a step of its own. -/
theorem Spawned.Round.acts {cfg : Configuration} {s : Server Y} {sends : List (Nat × DocCommand)}
    {j : Nat} {a b : Spawned Y} {l : Server.Label Y} (hround : a.Round cfg s sends j l b) :
    b.actor = a.actor ∨ ∃ al, a.actor.step cfg al = some b.actor := by
  cases hround with
  | told =>
    unfold Spawned.receives
    split <;> exact Or.inl rfl
  | recv | drop => exact Or.inl rfl
  | command o cmd batch b hbatch hstep => exact Or.inr ⟨_, hstep⟩
  | actor l b hplain hbetween hclosed hstep => exact Or.inr ⟨l, hstep⟩

theorem Spawned.Round.name {cfg : Configuration} {s : Server Y} {sends : List (Nat × DocCommand)}
    {j : Nat} {a b : Spawned Y} {l : Server.Label Y} (hround : a.Round cfg s sends j l b) :
    b.actor.world.name = a.actor.world.name := by
  rcases hround.acts with hsame | ⟨al, hstep⟩
  · rw [hsame]
  · exact Actor.step_name hstep

theorem Spawned.Round.history {cfg : Configuration} {s : Server Y} {sends : List (Nat × DocCommand)}
    {j : Nat} {a b : Spawned Y} {l : Server.Label Y} (hround : a.Round cfg s sends j l b) :
    a.actor.world.history <+: b.actor.world.history := by
  rcases hround.acts with hsame | ⟨al, hstep⟩
  · rw [hsame]
  · exact (Actor.step_trace hstep).filter _

namespace Server

/-- The commands a step sends, in their order. -/
def sends (cfg : Configuration) (s : Server Y) : Label Y → List (Nat × DocCommand)
  | .receive i data now =>
    match s.sockets[i]? with
    | some sock => (sock.handleFrame Y cfg now data).2
    | none => []
  | .register i _ _ =>
    match s.sockets[i]? with
    | some ⟨client, .registering r, trace⟩ =>
      match r.stage with
      | .document _ => []
      | .send h => [(h, .addConnection (Socket.connHandle ⟨client, .registering r, trace⟩ i r) s.nextAck)]
      | .await h ack =>
        if s.awaited h ack = some true then (Socket.register ⟨client, .registering r, trace⟩ r h).2
        else []
    | _ => []
  | .leave i key =>
    match s.sockets[i]? with
    | some sock => (sock.client.established.get? key).elim [] fun est => (sock.leave est).2
    | none => []
  | .direct k _ _ =>
    match s.edits[k]? with
    | some ⟨_, update, .send h, none⟩ => [(h, .directApply update s.nextAck)]
    | _ => []
  | .external name data => (s.documents name).elim [] fun j => [(j, .externalFrame data true)]
  | _ => []

theorem send_receives {s : Server Y} (k : Nat) (cmd : DocCommand) {j : Nat} {a : Spawned Y}
    (ha : s.actors[j]? = some a) :
    (s.send k cmd).1.actors[j]? = some (a.receives j [(k, cmd)]) := by
  by_cases hkj : k = j
  · subst hkj
    have hfor : commandsFor k [(k, cmd)] = [cmd] := by simp [commandsFor]
    unfold Server.send Spawned.receives
    rw [ha, hfor]
    dsimp only
    split
    next => exact ha
    next => exact (getElem?_set_of_some ha _ k).trans (if_pos rfl)
  · have hfor : commandsFor j [(k, cmd)] = [] := by simp [commandsFor, hkj]
    have hsame : a.receives j [(k, cmd)] = a := by
      rw [Spawned.receives, hfor, a.told_nil, ite_self]
    rw [hsame]
    unfold Server.send
    split
    next => exact ha
    next b hb =>
      split
      next => exact ha
      next => exact ((getElem?_set_of_some hb _ j).trans (if_neg hkj)).trans ha

theorem sendAll_receives (cmds : List (Nat × DocCommand)) : ∀ {s : Server Y} {j : Nat}
    {a : Spawned Y}, s.actors[j]? = some a →
    (s.sendAll cmds).actors[j]? = some (a.receives j cmds) := by
  induction cmds with
  | nil =>
    intro s j a ha
    rw [a.receives_nil]
    exact ha
  | cons c cmds ih =>
    intro s j a ha
    rw [a.receives_cons]
    exact ih (send_receives c.1 c.2 ha)

/-- The step sends nothing to the actor, and its task has no turn. -/
theorem round_same {s t : Server Y} {cfg : Configuration} {l : Label Y} {j : Nat} {a : Spawned Y}
    (hsends : s.sends cfg l = []) (hturns : l.turns ≠ some j) (h : t.actors[j]? = some a) :
    ∃ b, t.actors[j]? = some b ∧ a.Round cfg s (s.sends cfg l) j l b := by
  refine ⟨_, ?_, .told l hturns⟩
  rw [hsends, a.receives_nil]
  exact h

/-- The step sends commands, and the task of the actor has no turn. -/
theorem round_sent {s t : Server Y} {cfg : Configuration} {l : Label Y} {j : Nat} {a : Spawned Y}
    {cmds : List (Nat × DocCommand)} (hsends : s.sends cfg l = cmds) (hturns : l.turns ≠ some j)
    (h : t.actors[j]? = some (a.receives j cmds)) :
    ∃ b, t.actors[j]? = some b ∧ a.Round cfg s (s.sends cfg l) j l b := by
  subst hsends
  exact ⟨_, h, .told l hturns⟩

theorem registerStep_round {s t : Server Y} {cfg : Configuration} {i : Nat} {sock : Socket}
    {r : Registration} {doc : Y.Doc} {queues : Queues} (hsock : s.sockets[i]? = some sock)
    (htask : sock.task = .registering r) (h : s.registerStep i sock r doc queues = some t) {j : Nat}
    {a : Spawned Y} (ha : s.actors[j]? = some a) :
    ∃ b, t.actors[j]? = some b ∧
      a.Round cfg s (s.sends cfg (.register i doc queues)) j (.register i doc queues) b := by
  have hturns : (Label.register i doc queues : Label Y).turns ≠ some j := nofun
  obtain ⟨client, task, trace⟩ := sock
  cases htask
  have hsent := fun handle => send_receives (s := { s with nextAck := s.nextAck + 1 }) handle
    (.addConnection (Socket.connHandle ⟨client, .registering r, trace⟩ i r) s.nextAck) ha
  cases registerStep_cases h with
  | calls call next u hstage hcall | finds call handle u hstage hcall =>
    refine round_same ?_ hturns (documentStep_actor hcall ha)
    simp only [sends, hsock, hstage]
  | sends handle hstage =>
    refine round_sent ?_ hturns (hsent handle)
    simp only [sends, hsock, hstage]
  | refused handle hstage =>
    refine round_sent ?_ hturns (hsent handle)
    simp only [sends, hsock, hstage]
  | acked handle ack hstage hacked =>
    refine round_sent ?_ hturns (sendAll_receives (s := s.setSocket i _) _ ha)
    simp only [sends, hsock, hstage, hacked, if_true]
  | lost handle ack hstage hlost =>
    refine round_same ?_ hturns ha
    simp [sends, hsock, hstage, hlost]

theorem directStep_round {s t : Server Y} {cfg : Configuration} {k : Nat} {e : DirectApply}
    {doc : Y.Doc} {queues : Queues} (he : s.edits[k]? = some e)
    (h : s.directStep k e doc queues = some t) {j : Nat} {a : Spawned Y}
    (ha : s.actors[j]? = some a) :
    ∃ b, t.actors[j]? = some b ∧
      a.Round cfg s (s.sends cfg (.direct k doc queues)) j (.direct k doc queues) b := by
  have hturns : (Label.direct k doc queues : Label Y).turns ≠ some j := nofun
  obtain ⟨name, update, stage, returned⟩ := e
  cases directStep_cases h with
  | calls call next u hreturned hstage hcall | finds call handle u hreturned hstage hcall =>
    cases hstage
    refine round_same ?_ hturns (documentStep_actor hcall ha)
    simp only [sends, he]
  | sends handle sent hreturned hstage hsent =>
    cases hreturned
    cases hstage
    subst hsent
    refine round_sent ?_ hturns
      (send_receives (s := { s with nextAck := s.nextAck + 1 }) handle _ ha)
    simp only [sends, he]
  | answered handle ack acked hreturned hstage =>
    cases hstage
    refine round_same ?_ hturns ha
    simp only [sends, he]

/-- The task of the actor `k` has a turn. -/
theorem round_set {s t : Server Y} {cfg : Configuration} {l : Label Y} {k : Nat} {a' b : Spawned Y}
    (ha' : s.actors[k]? = some a') (hround : a'.Round cfg s (s.sends cfg l) k l b)
    (hturns : l.turns = some k) (hsends : s.sends cfg l = [])
    (hactors : t.actors = s.actors.set k b) {j : Nat} {a : Spawned Y} (ha : s.actors[j]? = some a) :
    ∃ b, t.actors[j]? = some b ∧ a.Round cfg s (s.sends cfg l) j l b := by
  by_cases hkj : k = j
  · subst hkj
    obtain rfl : a = a' := Option.some.inj (ha.symm.trans ha')
    refine ⟨b, ?_, hround⟩
    rw [hactors]
    exact (getElem?_set_of_some ha _ k).trans (if_pos rfl)
  · refine round_same hsends (fun heq => hkj (Option.some.inj (hturns.symm.trans heq))) ?_
    rw [hactors]
    exact ((getElem?_set_of_some ha' _ j).trans (if_neg hkj)).trans ha

/-- The branches of the loop between two batches wait for the batch to be empty. -/
theorem actor_between {s t : Server Y} {cfg : Configuration} {j : Nat} {l : Hocuspocus.Label}
    (h : Server.step cfg s (.actor j l) = some t) {a : Spawned Y} (ha : s.actors[j]? = some a)
    (hbetween : l.between = true) : a.batch = [] := by
  rw [Server.step, ha] at h
  cases l with
  | command | storeTask | queues => cases hbetween
  | flush sched | storeResult o | deadline o =>
    dsimp only at h
    split at h
    next hbatch => exact List.isEmpty_iff.mp hbatch
    next => cases h
  | mailboxClosed =>
    dsimp only at h
    split at h
    next hclosed => exact List.isEmpty_iff.mp hclosed.1
    next => cases h

/-- **What a step does to an actor, to the command.** -/
theorem step_round {s t : Server Y} {cfg : Configuration} {l : Label Y}
    (h : Server.step cfg s l = some t) {j : Nat} {a : Spawned Y} (ha : s.actors[j]? = some a) :
    ∃ b, t.actors[j]? = some b ∧ a.Round cfg s (s.sends cfg l) j l b := by
  have hwhole := h
  cases step_cases h with
  | connect | hangup | timeout | connected | authenticated | clean | apply =>
    exact round_same rfl nofun ha
  | unknown name data hdoc =>
    refine round_same ?_ nofun ha
    simp only [sends, hdoc, Option.elim_none]
  | receive i data now sock hsock htask =>
    refine round_sent ?_ nofun (sendAll_receives (s := s.setSocket i _) _ ha)
    simp only [sends, hsock]
  | register i doc queues sock r t hsock htask h => exact registerStep_round hsock htask h ha
  | leave i key sock est hsock htask hest =>
    refine round_sent ?_ nofun (sendAll_receives (s := s.setSocket i _) _ ha)
    simp only [sends, hsock, hest, Option.elim_some]
  | direct k doc queues e t he h => exact directStep_round he h ha
  | external name data k hdoc =>
    refine round_sent ?_ nofun (send_receives _ _ ha)
    simp only [sends, hdoc, Option.elim_some]
  | recv k a' ha' hbatch hgone hphase hmail =>
    exact round_set ha' (.recv hbatch hgone hphase hmail) rfl rfl rfl ha
  | command k o a' cmd batch b ha' hbatch hstep =>
    exact round_set ha' (.command o cmd batch b hbatch hstep) rfl rfl (unloading_parts _ _ _).1 ha
  | actor k l a' b ha' hplain hclosed hstep =>
    refine round_set ha' (.actor l b hplain (actor_between hwhole ha') (fun heq => ?_) hstep) rfl rfl
      (unloading_parts _ _ _).1 ha
    exact (hclosed heq).2
  | drop k a' ha' hstopped => exact round_set ha' (.drop hstopped) rfl rfl rfl ha

/-- What every actor is born with and every round keeps holds of every actor there is. -/
theorem rounds_invariant {I : Spawned Y → Prop} {cfg : Configuration}
    (hborn : ∀ name doc queues, I (born name doc queues))
    (hround : ∀ s sends j a l b, a.Round cfg s sends j l b → I a → I b)
    {ls : List (Label Y)} {s : Server Y} (hrun : Lts.exec (Server.step cfg) (build Y) ls = some s)
    {j : Nat} {a : Spawned Y} (ha : s.actors[j]? = some a) : I a := by
  have hall : ∀ (j : Nat) (a : Spawned Y), s.actors[j]? = some a → I a := by
    refine Lts.exec_invariant
      (I := fun u : Server Y => ∀ (j : Nat) (a : Spawned Y), u.actors[j]? = some a → I a)
      (fun u l v hstep hu j b hb => ?_) hrun (fun j a ha => by cases ha)
    rcases step_known hstep hb with ⟨a, ha⟩ | ⟨_, name, doc, queues, rfl⟩
    · obtain ⟨b', hb', hround'⟩ := step_round hstep ha
      obtain rfl : b' = b := Option.some.inj (hb'.symm.trans hb)
      exact hround u _ j a l b' hround' (hu j a ha)
    · exact hborn name doc queues
  exact hall j a ha

/-- ... and what every step of an actor keeps. -/
theorem actors_invariant {P : Actor Y → Prop} {cfg : Configuration}
    (hborn : ∀ name doc queues, P (Actor.spawn name doc queues))
    (hstep : ∀ a l b, a.step cfg l = some b → P a → P b) {ls : List (Label Y)} {s : Server Y}
    (hrun : Lts.exec (Server.step cfg) (build Y) ls = some s) {j : Nat} {a : Spawned Y}
    (ha : s.actors[j]? = some a) : P a.actor := by
  refine rounds_invariant (I := fun a : Spawned Y => P a.actor) hborn (fun s sends j a l b hround h => ?_)
    hrun ha
  cases hround with
  | told =>
    unfold Spawned.receives
    split
    · exact h
    · exact h
  | recv | drop => exact h
  | command o cmd batch b hbatch hround => exact hstep _ _ _ hround h
  | actor l b hplain hbetween hclosed hround => exact hstep _ _ _ hround h

end Server

end Hocuspocus
