import Hocuspocus.Document.Unload
import Hocuspocus.Document.Evict
import Hocuspocus.Document.Disconnect
import Hocuspocus.OneWriter.Sockets
import Hocuspocus.Server.Cases

/-!
# No ghost connections

A connection in the map of an actor is there on behalf of a socket. `Kept` says
what the socket, or the actor's mailbox, still has of it: the routing key is
established with this actor, or the socket waits for the `ack` the actor has
sent, or its `RemoveConnection` is on the way. An `AddConnection` that was not
handled yet has a socket that waits for its `ack`, and no other command has
that `ack`; so when a socket learns that it is lost, the connection is in no
map, and the retry starts from nothing.

An actor leaves its loop by `maybe_unload`, which it does with an empty map, or
when nobody has a sender any more; then nothing keeps a connection.
-/

namespace Hocuspocus

variable {Y : Yrs}

/-- The connection, the actor and the `ack` a socket waits for. -/
def Socket.awaits (sock : Socket) : Option (Nat × Nat × Nat) :=
  match sock.task with
  | .registering ⟨_, connId, _, _, .await doc ack⟩ => some (connId, doc, ack)
  | _ => none

/-- The routing key a socket is about to establish. -/
def SocketTask.key : SocketTask → Option String
  | .connecting request | .authenticating request => some request.key
  | .registering r => some r.request.key
  | .reading | .cleaning | .ended => none

namespace Spawned

/-- What was sent and not handled. -/
def pending (a : Spawned Y) : List DocCommand := a.batch ++ a.mailbox

def acks (a : Spawned Y) : List Nat := a.pending.filterMap DocCommand.ack? ++ a.acked

/-- It is past its last command. -/
def Left (a : Spawned Y) : Prop := a.actor.phase = .exiting ∨ a.actor.phase = .stopped

def Empty (a : Spawned Y) : Prop := ∀ id, a.actor.world.connections.get? id = none

end Spawned

/-- Why a connection is in the map of an actor. -/
inductive Kept (sockets : List Socket) (j : Nat) (a : Spawned Y) (conn : ConnHandle) : Prop
  | established (sock : Socket) (est : Established)
    (hsock : sockets[conn.outbound]? = some sock) (hest : est ∈ sock.client.established.vals)
    (hdoc : est.doc = j) (hconn : est.connId = conn.connId)
  | acked (sock : Socket) (ack : Nat) (hsock : sockets[conn.outbound]? = some sock)
    (hawaits : sock.awaits = some (conn.connId, j, ack)) (hack : ack ∈ a.acked)
  | leaving (h : .removeConnection conn.connId ∈ a.pending)

namespace Server

structure Accounted (s : Server Y) : Prop where
  kept : ∀ (j : Nat) (a : Spawned Y), s.actors[j]? = some a → ∀ id conn,
    a.actor.world.connections.get? id = some conn → Kept s.sockets j a conn
  adding : ∀ (j : Nat) (a : Spawned Y), s.actors[j]? = some a → ∀ handle ack, DocCommand.addConnection handle ack ∈ a.pending →
    ∃ sock, s.sockets[handle.outbound]? = some sock ∧ sock.awaits = some (handle.connId, j, ack)
  acks : ∀ (j : Nat) (a : Spawned Y), s.actors[j]? = some a → a.acks.Nodup ∧ ∀ ack ∈ a.acks, ack < s.nextAck
  left : ∀ (j : Nat) (a : Spawned Y), s.actors[j]? = some a → a.Left → a.Empty
  gone : ∀ (j : Nat) (a : Spawned Y), s.actors[j]? = some a → a.gone = true → a.actor.phase = .stopped
  fresh : ∀ (i : Nat) (sock : Socket), s.sockets[i]? = some sock → ∀ key, sock.task.key = some key →
    sock.client.established.get? key = none
  ended : ∀ (i : Nat) (sock : Socket), s.sockets[i]? = some sock → sock.task = .ended →
    sock.client.established.isEmpty = true

/-! ## What changes it and what does not -/

theorem Accounted.congr {s t : Server Y} (hs : s.Accounted) (hactors : t.actors = s.actors)
    (hsockets : t.sockets = s.sockets) (hnext : s.nextAck ≤ t.nextAck) : t.Accounted where
  kept := by
    rw [hactors, hsockets]
    exact hs.kept
  adding := by
    rw [hactors, hsockets]
    exact hs.adding
  acks j a h := by
    rw [hactors] at h
    obtain ⟨hnodup, hlt⟩ := hs.acks j a h
    exact ⟨hnodup, fun ack hack => (hlt ack hack).trans_le hnext⟩
  left := hactors ▸ hs.left
  gone := hactors ▸ hs.gone
  fresh := hsockets ▸ hs.fresh
  ended := hsockets ▸ hs.ended

theorem getElem?_set_cases {α : Type} {l : List α} {i j : Nat} {x y : α}
    (h : (l.set i x)[j]? = some y) : i = j ∧ x = y ∨ i ≠ j ∧ l[j]? = some y := by
  rw [List.getElem?_set] at h
  split at h
  next hij =>
    split at h
    · exact Or.inl ⟨hij, Option.some.inj h⟩
    · cases h
  next hij => exact Or.inr ⟨hij, h⟩

theorem getElem?_set_of_some {α : Type} {l : List α} {i : Nat} {x : α} (h : l[i]? = some x) (y : α)
    (j : Nat) : (l.set i y)[j]? = if i = j then some y else l[j]? := by
  obtain ⟨hlt, _⟩ := List.getElem?_eq_some_iff.mp h
  rw [List.getElem?_set]
  by_cases hij : i = j
  · rw [if_pos hij, if_pos hij, if_pos (hij ▸ hlt)]
  · rw [if_neg hij, if_neg hij]

/-- A socket changes. What it had established it still has, or the actor is
told or empty; if it no longer waits for an `ack`, then the command with it is
not pending, and if the actor has sent it, the connection is established. -/
theorem Accounted.setSocket {s : Server Y} (hs : s.Accounted) {i : Nat} {sock sock' : Socket}
    (hsock : s.sockets[i]? = some sock)
    (hest : ∀ est ∈ sock.client.established.vals, est ∈ sock'.client.established.vals ∨
      ∀ a, s.actors[est.doc]? = some a → .removeConnection est.connId ∈ a.pending ∨ a.Empty)
    (hawaits : ∀ connId j ack, sock.awaits = some (connId, j, ack) →
      sock'.awaits = some (connId, j, ack) ∨ ∀ a, s.actors[j]? = some a →
        (∀ cmd ∈ a.pending, cmd.ack? ≠ some ack) ∧
        (ack ∈ a.acked → ∃ est ∈ sock'.client.established.vals, est.doc = j ∧ est.connId = connId))
    (hfresh : ∀ key, sock'.task.key = some key → sock'.client.established.get? key = none)
    (hended : sock'.task = .ended → sock'.client.established.isEmpty = true) :
    (s.setSocket i sock').Accounted where
  kept j a ha id conn hconn := by
    have hget := getElem?_set_of_some hsock sock'
    cases hs.kept j a ha id conn hconn with
    | established old est hold hest' hdoc hid =>
      by_cases hi : i = conn.outbound
      · subst hi
        obtain rfl : sock = old := Option.some.inj (hsock.symm.trans hold)
        rcases hest est hest' with hkeeps | htold
        · exact .established sock' est ((hget _).trans (if_pos rfl)) hkeeps hdoc hid
        · -- given up by the socket: the actor is told, or has no connections left
          rcases htold a (hdoc ▸ ha) with hleaving | hempty
          · exact .leaving (hid ▸ hleaving)
          · rw [hempty id] at hconn
            cases hconn
      · exact .established old est (((hget _).trans (if_neg hi)).trans hold) hest' hdoc hid
    | acked old ack hold hwait hack =>
      by_cases hi : i = conn.outbound
      · subst hi
        obtain rfl : sock = old := Option.some.inj (hsock.symm.trans hold)
        have hnew := (hget conn.outbound).trans (if_pos rfl)
        rcases hawaits _ _ _ hwait with hstill | hdone
        · exact .acked sock' ack hnew hstill hack
        · -- the `ack` was there: what it answers is established now
          obtain ⟨est, hest', hdoc, hid⟩ := (hdone a ha).2 hack
          exact .established sock' est hnew hest' hdoc hid
      · exact .acked old ack (((hget _).trans (if_neg hi)).trans hold) hwait hack
    | leaving h => exact .leaving h
  adding j a ha handle ack hadd := by
    have hget := getElem?_set_of_some hsock sock'
    obtain ⟨old, hold, hwait⟩ := hs.adding j a ha handle ack hadd
    by_cases hi : i = handle.outbound
    · subst hi
      obtain rfl : sock = old := Option.some.inj (hsock.symm.trans hold)
      rcases hawaits _ _ _ hwait with hstill | hdone
      · exact ⟨sock', (hget _).trans (if_pos rfl), hstill⟩
      · exact absurd rfl ((hdone a ha).1 _ hadd)
    · exact ⟨old, ((hget _).trans (if_neg hi)).trans hold, hwait⟩
  acks := hs.acks
  left := hs.left
  gone := hs.gone
  fresh k old hold := by
    rcases getElem?_set_cases hold with ⟨_, rfl⟩ | ⟨_, hold⟩
    · exact hfresh
    · exact hs.fresh k old hold
  ended k old hold := by
    rcases getElem?_set_cases hold with ⟨_, rfl⟩ | ⟨_, hold⟩
    · exact hended
    · exact hs.ended k old hold

/-- A socket whose connections stay as they are. -/
theorem Accounted.setSocket_same {s : Server Y} (hs : s.Accounted) {i : Nat} {sock sock' : Socket}
    (hsock : s.sockets[i]? = some sock) (hest : sock'.client.established = sock.client.established)
    (hawaits : sock.awaits = none ∨ sock'.awaits = sock.awaits)
    (hfresh : ∀ key, sock'.task.key = some key → sock.client.established.get? key = none)
    (hended : sock'.task ≠ .ended) : (s.setSocket i sock').Accounted := by
  refine hs.setSocket hsock (fun est h => Or.inl (hest ▸ h)) (fun connId j ack h => Or.inl ?_)
    (fun key h => hest ▸ hfresh key h) fun h => absurd h hended
  rcases hawaits with hnone | hsame
  · rw [hnone] at h
    cases h
  · rw [hsame, h]

/-- An actor changes: whoever is in its map is kept, it has no new command or
`ack`, and if it is past its last command, its map is empty. -/
theorem Accounted.setActor {s : Server Y} (hs : s.Accounted) {j : Nat} {a a' : Spawned Y}
    (ha : s.actors[j]? = some a)
    (hkept : ∀ id conn, a'.actor.world.connections.get? id = some conn → Kept s.sockets j a' conn)
    (hadding : ∀ handle ack, .addConnection handle ack ∈ a'.pending →
      .addConnection handle ack ∈ a.pending)
    (hacks : a'.acks.Nodup ∧ ∀ ack ∈ a'.acks, ack ∈ a.acks) (hleft : a'.Left → a'.Empty)
    (hgone : a'.gone = true → a'.actor.phase = .stopped) : (s.setActor j a').Accounted where
  kept k b hb := by
    rcases getElem?_set_cases hb with ⟨rfl, rfl⟩ | ⟨_, hb⟩
    · exact hkept
    · exact hs.kept k b hb
  adding k b hb := by
    rcases getElem?_set_cases hb with ⟨rfl, rfl⟩ | ⟨_, hb⟩
    · exact fun handle ack h => hs.adding j a ha handle ack (hadding handle ack h)
    · exact hs.adding k b hb
  acks k b hb := by
    rcases getElem?_set_cases hb with ⟨rfl, rfl⟩ | ⟨_, hb⟩
    · exact ⟨hacks.1, fun ack h => (hs.acks j a ha).2 ack (hacks.2 ack h)⟩
    · exact hs.acks k b hb
  left k b hb := by
    rcases getElem?_set_cases hb with ⟨rfl, rfl⟩ | ⟨_, hb⟩
    · exact hleft
    · exact hs.left k b hb
  gone k b hb := by
    rcases getElem?_set_cases hb with ⟨rfl, rfl⟩ | ⟨_, hb⟩
    · exact hgone
    · exact hs.gone k b hb
  fresh := hs.fresh
  ended := hs.ended

/-! ## Commands that are sent -/

theorem send_setSocket (s : Server Y) (i : Nat) (sock : Socket) (j : Nat) (cmd : DocCommand) :
    (s.setSocket i sock).send j cmd = ((s.send j cmd).1.setSocket i sock, (s.send j cmd).2) := by
  have hactors : (s.setSocket i sock).actors = s.actors := rfl
  unfold Server.send
  rw [hactors]
  split
  next => rfl
  next => split <;> rfl

theorem send_sockets (s : Server Y) (j : Nat) (cmd : DocCommand) :
    (s.send j cmd).1.sockets = s.sockets := by
  rw [send_eq]

/-- A command is sent. If it has an `ack`, that is new; if it adds a connection,
its socket waits. -/
theorem Accounted.send {s : Server Y} (hs : s.Accounted) (j : Nat) (cmd : DocCommand)
    (hnew : ∀ ack, cmd.ack? = some ack → ack < s.nextAck ∧
      ∀ a, s.actors[j]? = some a → ack ∉ a.acks)
    (hadd : ∀ handle ack, cmd = .addConnection handle ack → ∃ sock,
      s.sockets[handle.outbound]? = some sock ∧ sock.awaits = some (handle.connId, j, ack)) :
    (s.send j cmd).1.Accounted := by
  unfold Server.send
  split
  next => exact hs
  next a ha =>
    split
    next => exact hs
    next hgone =>
      have hpending : ({ a with mailbox := a.mailbox ++ [cmd] } : Spawned Y).pending
          = a.pending ++ [cmd] := (List.append_assoc ..).symm
      have hset : ∀ k b, (s.actors.set j { a with mailbox := a.mailbox ++ [cmd] })[k]? = some b →
          j = k ∧ { a with mailbox := a.mailbox ++ [cmd] } = b ∨ j ≠ k ∧ s.actors[k]? = some b :=
        fun k b h => getElem?_set_cases h
      -- only the actor that is sent to differs, by one command at the end of its mailbox
      refine ⟨fun k b hb => ?_, fun k b hb => ?_, fun k b hb => ?_, fun k b hb => ?_,
        fun k b hb => ?_, hs.fresh, hs.ended⟩
      · rcases hset k b hb with ⟨rfl, rfl⟩ | ⟨_, hb⟩
        · intro id conn hconn
          cases hs.kept j a ha id conn hconn with
          | established sock est hsock hest hdoc hid =>
            exact .established sock est hsock hest hdoc hid
          | acked sock ack hsock hwait hack => exact .acked sock ack hsock hwait hack
          | leaving h => exact .leaving (hpending ▸ List.mem_append_left _ h)
        · exact hs.kept k b hb
      · rcases hset k b hb with ⟨rfl, rfl⟩ | ⟨_, hb⟩
        · intro handle ack h
          rw [hpending] at h
          rcases List.mem_append.mp h with h | h
          · exact hs.adding j a ha handle ack h
          · exact hadd handle ack (List.mem_singleton.mp h).symm
        · exact hs.adding k b hb
      · rcases hset k b hb with ⟨rfl, rfl⟩ | ⟨_, hb⟩
        · obtain ⟨hnodup, hlt⟩ := hs.acks j a ha
          have hacks : ({ a with mailbox := a.mailbox ++ [cmd] } : Spawned Y).acks.Perm
              (cmd.ack?.toList ++ a.acks) := by
            rw [Spawned.acks, hpending, List.filterMap_append, List.append_assoc]
            refine (List.perm_append_comm_assoc _ _ _).trans (List.Perm.append_right _ ?_)
            rw [List.filterMap_cons, List.filterMap_nil]
            cases cmd.ack? <;> rfl
          cases hcmd : cmd.ack? with
          | none =>
            rw [hcmd] at hacks
            exact ⟨hacks.nodup_iff.mpr hnodup, fun ack h => hlt ack (hacks.subset h)⟩
          | some new =>
            obtain ⟨hnext, hout⟩ := hnew new hcmd
            rw [hcmd] at hacks
            refine ⟨hacks.nodup_iff.mpr (List.nodup_cons.mpr ⟨hout a ha, hnodup⟩), fun ack h => ?_⟩
            rcases List.mem_cons.mp (hacks.subset h) with rfl | h
            · exact hnext
            · exact hlt ack h
        · exact hs.acks k b hb
      · rcases hset k b hb with ⟨rfl, rfl⟩ | ⟨_, hb⟩
        · exact hs.left j a ha
        · exact hs.left k b hb
      · rcases hset k b hb with ⟨rfl, rfl⟩ | ⟨_, hb⟩
        · exact hs.gone j a ha
        · exact hs.gone k b hb

theorem Accounted.send_plain {s : Server Y} (hs : s.Accounted) (j : Nat) {cmd : DocCommand}
    (hcmd : cmd.ack? = none) : (s.send j cmd).1.Accounted := by
  refine hs.send j cmd (fun ack h => ?_) fun handle ack h => ?_
  · rw [hcmd] at h
    cases h
  · rw [h] at hcmd
    cases hcmd

theorem Accounted.sendAll {s : Server Y} (hs : s.Accounted) {cmds : List (Nat × DocCommand)}
    (hcmds : ∀ c ∈ cmds, c.2.ack? = none) : (s.sendAll cmds).Accounted := by
  unfold Server.sendAll
  induction cmds generalizing s with
  | nil => exact hs
  | cons c cmds ih =>
    exact ih (hs.send_plain c.1 (hcmds c (List.mem_cons_self ..)))
      fun d hd => hcmds d (List.mem_cons_of_mem _ hd)

/-- The actor has the command, or its receiver is gone. -/
theorem Accounted.told {s : Server Y} (hs : s.Accounted) (j : Nat) (cmd : DocCommand)
    {a : Spawned Y} (ha : (s.send j cmd).1.actors[j]? = some a) : cmd ∈ a.pending ∨ a.Empty := by
  unfold Server.send at ha
  split at ha
  next hnone =>
    rw [hnone] at ha
    cases ha
  next old hold =>
    split at ha
    next hgone =>
      have hleft := hs.gone j a ha (Option.some.inj (hold.symm.trans ha) ▸ hgone)
      exact Or.inr (hs.left j a ha (Or.inr hleft))
    next =>
      rcases getElem?_set_cases ha with ⟨_, rfl⟩ | ⟨hne, _⟩
      · exact Or.inl (List.mem_append_right _ (List.mem_append_right _ (List.mem_singleton_self cmd)))
      · exact absurd rfl hne

/-- `cleanup` drains an entry. -/
theorem Accounted.leave {s : Server Y} (hs : s.Accounted) {i : Nat} {sock : Socket}
    (hsock : s.sockets[i]? = some sock) (htask : sock.task = .cleaning) {est : Established}
    (hest : est ∈ sock.client.established.vals) :
    ((s.setSocket i (sock.leave est).1).sendAll (sock.leave est).2).Accounted := by
  have hone : (s.setSocket i (sock.leave est).1).sendAll (sock.leave est).2
      = ((s.send est.doc (.removeConnection est.connId)).1).setSocket i (sock.leave est).1 :=
    congrArg Prod.fst (send_setSocket s i (sock.leave est).1 est.doc (.removeConnection est.connId))
  have hplain : (DocCommand.removeConnection est.connId).ack? = none := rfl
  have hsent := hs.send_plain est.doc hplain
  have hcleaning : (sock.leave est).1.task = .cleaning := htask
  rw [hone]
  refine hsent.setSocket (by rw [send_sockets]; exact hsock) (fun other hother => ?_)
    (fun connId j ack h => ?_) (fun key h => ?_) fun h => ?_
  · by_cases hkey : other.key = est.key
    · refine Or.inr fun a ha => ?_
      have hsame : other = est :=
        List.inj_on_of_nodup_map sock.client.established.nodup hother hest hkey
      rw [hsame] at ha ⊢
      exact hs.told est.doc _ ha
    · exact Or.inl (List.mem_filter.mpr ⟨hother, by simpa using hkey⟩)
  · rw [Socket.awaits, htask] at h
    cases h
  · rw [hcleaning] at h
    cases h
  · rw [hcleaning] at h
    cases h

/-! ## Steps of an actor -/

end Server

theorem World.maybeUnload_empty {cfg : Configuration} {o : Ambient} {w : World Y}
    (h : (w.maybeUnload cfg o).2 = true) (id : Nat) :
    (w.maybeUnload cfg o).1.connections.get? id = none := by
  rcases w.maybeUnload_cases cfg o with hstay | ⟨hempty, _, _, hcase⟩
  · rw [hstay] at h
    cases h
  · rw [hcase] at h ⊢
    have hsame : (w.storeIfDirty o.onStoreUnload).connections = w.connections := by
      unfold storeIfDirty
      split
      · exact runStore_connections _ w
      · rfl
    split at h
    next => cases h
    next hagreed =>
      rw [if_neg hagreed]
      show (w.storeIfDirty o.onStoreUnload).connections.get? id = none
      rw [hsame]
      exact Keyed.isEmpty_iff.mp hempty id

theorem Actor.unloadedBy_phase {b : Actor Y} {l : Label} (h : b.unloadedBy l = true) :
    b.phase = .exiting ∨ b.phase = .stopped := by
  cases l with
  | command | storeResult | deadline => exact of_decide_eq_true h
  | flush | mailboxClosed | storeTask | queues => cases h

/-- An actor that leaves by `unloadedBy` has gone through `maybe_unload` to the end. -/
theorem Actor.unloadedBy_unloads {cfg : Configuration} {a b : Actor Y} {l : Label}
    (hstep : a.step cfg l = some b) (hexit : b.unloadedBy l = true) : a.Unloads cfg l := by
  have hphase := Actor.unloadedBy_phase hexit
  have hagreed : ∀ (exit : Bool) (stay leave : Phase), ¬ (stay = .exiting ∨ stay = .stopped) →
      (Phase.after exit stay leave = .exiting ∨ Phase.after exit stay leave = .stopped) →
      exit = true := by
    intro exit stay leave hstay h
    cases exit with
    | true => rfl
    | false => exact absurd h hstay
  have hbatch : ∀ n, ¬ (Phase.batch n = .exiting ∨ Phase.batch n = .stopped) := by
    rintro n (h | h) <;> cases h
  have hselect : ¬ (Phase.select = .exiting ∨ Phase.select = .stopped) := by decide
  cases Actor.step_cases hstep with
  | command cmd o n =>
    cases cmd with
    | removeConnection connId => exact ⟨o, _, rfl, hagreed _ (.batch n) .exiting (hbatch n) hphase⟩
    | addConnection | clientFrame | externalFrame | directApply => exact absurd hphase (hbatch n)
  | flush | mailboxClosed | storeTask | queues => cases hexit
  | storeResult o ok rest hselected hresults =>
    refine ⟨o, _, ?_, hagreed _ .select .stopped hselect hphase⟩
    rw [Actor.unloadCall, hresults]
  | deadline o =>
    have htick := hagreed ((a.world.withSched o.sched).tick cfg o).2 .select .stopped hselect hphase
    unfold World.tick at htick
    split at htick
    next hconns => exact ⟨o, _, if_pos hconns, htick⟩
    next => cases htick

/-- An actor that unloads has nobody in its map. -/
theorem Actor.unloaded_empty {cfg : Configuration} {a b : Actor Y} {l : Label}
    (hstep : a.step cfg l = some b) (hexit : b.unloadedBy l = true) (id : Nat) :
    b.world.connections.get? id = none := by
  obtain ⟨o, w, hcall, hagreed⟩ := Actor.unloadedBy_unloads hstep hexit
  rw [Actor.unloadCall_world hstep hcall]
  exact World.maybeUnload_empty hagreed id

namespace Spawned

/-- Past its last command an actor handles none, and does not come back. -/
theorem Left.step {cfg : Configuration} {a : Spawned Y} {b : Actor Y} {l : Label} (h : a.Left)
    (hstep : a.actor.step cfg l = some b) :
    (b.phase = a.actor.phase ∨ b.phase = .stopped) ∧ ∀ cmd o, l ≠ .command cmd o := by
  have hselect : a.actor.phase ≠ .select := by
    rintro hphase
    rcases h with h | h <;> rw [h] at hphase <;> cases hphase
  cases Actor.step_cases hstep with
  | command cmd o n hphase => rcases h with h | h <;> rw [h] at hphase <;> cases hphase
  | flush sched phase hphase =>
    refine ⟨?_, fun cmd o hl => by cases hl⟩
    rcases hphase with ⟨⟨n, hn⟩, _⟩ | ⟨_, rfl⟩
    · rcases h with h | h <;> rw [h] at hn <;> cases hn
    · exact Or.inr rfl
  | storeResult o ok rest hphase hresults => exact absurd hphase hselect
  | deadline o hphase hdirty hstoring => exact absurd hphase hselect
  | mailboxClosed hphase => exact absurd hphase hselect
  | storeTask i results hi => exact ⟨Or.inl rfl, fun cmd o hl => by cases hl⟩
  | queues acts => exact ⟨Or.inl rfl, fun cmd o hl => by cases hl⟩

/-- How an actor comes to leave: it unloads, or nobody has a sender. -/
theorem left_cases {cfg : Configuration} {a : Spawned Y} {b : Actor Y} {l : Label}
    (hstep : a.actor.step cfg l = some b) (hb : b.phase = .exiting ∨ b.phase = .stopped) :
    a.Left ∨ b.unloadedBy l = true ∨ l = .mailboxClosed := by
  cases Actor.step_cases hstep with
  | command cmd o n hphase => exact Or.inr (Or.inl (decide_eq_true hb))
  | flush sched phase hphase =>
    rcases hphase with ⟨_, rfl⟩ | ⟨hphase, _⟩
    · rcases hb with h | h <;> cases h
    · exact Or.inl (Or.inl hphase)
  | storeResult o ok rest hphase hresults => exact Or.inr (Or.inl (decide_eq_true hb))
  | deadline o hphase hdirty hstoring => exact Or.inr (Or.inl (decide_eq_true hb))
  | mailboxClosed hphase => exact Or.inr (Or.inr rfl)
  | storeTask i results hi => exact Or.inl hb
  | queues acts => exact Or.inl hb

end Spawned

theorem Kept.of_core {sockets : List Socket} {j : Nat} {a : Spawned Y} {conn conn' : ConnHandle}
    (hcore : conn.core = conn'.core) (h : Kept sockets j a conn) : Kept sockets j a conn' := by
  have hid : conn.connId = conn'.connId := by
    show conn.core.connId = conn'.core.connId
    rw [hcore]
  have hout : conn.outbound = conn'.outbound := by
    show conn.core.outbound = conn'.core.outbound
    rw [hcore]
  cases h with
  | established sock est hsock hest hdoc hconn =>
    exact .established sock est (hout ▸ hsock) hest hdoc (hconn.trans hid)
  | acked sock ack hsock hwait hack => exact .acked sock ack (hout ▸ hsock) (hid ▸ hwait) hack
  | leaving h => exact .leaving (hid ▸ h)

/-- Nobody is kept without a sender, or a command that is still to come. -/
theorem Kept.sender {sockets : List Socket} {j : Nat} {a : Spawned Y} {conn : ConnHandle}
    (h : Kept sockets j a conn) (hpending : a.pending = []) : sockets.any (Socket.holds j) = true := by
  cases h with
  | established sock est hsock hest hdoc hconn =>
    refine List.any_eq_true.mpr ⟨sock, List.mem_of_getElem? hsock, ?_⟩
    exact Bool.or_eq_true_iff.mpr (Or.inl (List.any_eq_true.mpr ⟨est, hest, decide_eq_true hdoc⟩))
  | acked sock ack hsock hwait hack =>
    refine List.any_eq_true.mpr ⟨sock, List.mem_of_getElem? hsock, ?_⟩
    refine Bool.or_eq_true_iff.mpr (Or.inr ?_)
    unfold Socket.awaits at hwait
    split at hwait
    next request connId readOnly again doc ack' htask =>
      cases hwait
      rw [htask]
      exact decide_eq_true rfl
    next => cases hwait
  | leaving h =>
    rw [hpending] at h
    cases h

namespace Server

theorem Accounted.removeDocument {s : Server Y} (hs : s.Accounted) (name : String) :
    (s.removeDocument name).Accounted := hs.congr rfl rfl le_rfl

theorem Accounted.unloading {s : Server Y} (hs : s.Accounted) (unloaded : Bool) (name : String) :
    (s.unloading unloaded name).Accounted := by
  cases unloaded with
  | true => exact hs.removeDocument name
  | false => exact hs

/-- A step of an actor by itself, with no command. -/
theorem Accounted.actorStep {s : Server Y} (hs : s.Accounted) {cfg : Configuration} {j : Nat}
    {a : Spawned Y} {b : Actor Y} {l : Hocuspocus.Label} (ha : s.actors[j]? = some a)
    (hstep : a.actor.step cfg l = some b) (hcmd : ∀ cmd o, l ≠ .command cmd o)
    (hclosed : l = .mailboxClosed → a.batch = [] ∧ a.mailbox = [] ∧ s.hasSender j a = false) :
    (s.setActor j { a with actor := b }).Accounted := by
  have hkept : ∀ id conn, b.world.connections.get? id = some conn → Kept s.sockets j a conn := by
    intro id conn hconn
    rcases Actor.step_get? hstep hconn with ⟨old, hold, hcore⟩ | ⟨ack, o, hl, _⟩
    · exact (hs.kept j a ha id old hold).of_core hcore
    · exact absurd hl (hcmd _ o)
  refine hs.setActor ha (fun id conn hconn => ?_) (fun _ _ h => h)
    ⟨(hs.acks j a ha).1, fun ack h => h⟩ (fun hb => ?_) fun hgone => ?_
  · cases hkept id conn hconn with
    | established sock est hsock hest hdoc hid =>
      exact .established sock est hsock hest hdoc hid
    | acked sock ack hsock hwait hack => exact .acked sock ack hsock hwait hack
    | leaving h => exact .leaving h
  · intro id
    rcases Spawned.left_cases hstep hb with hleft | hexit | hl
    · cases hconn : b.world.connections.get? id with
      | none => rfl
      | some conn =>
        rcases Actor.step_get? hstep hconn with ⟨old, hold, _⟩ | ⟨ack, o, hl, _⟩
        · rw [hs.left j a ha hleft id] at hold
          cases hold
        · exact absurd hl (hcmd _ o)
    · exact Actor.unloaded_empty hstep hexit id
    · obtain ⟨hbatch, hmail, hnone⟩ := hclosed hl
      cases hconn : b.world.connections.get? id with
      | none => rfl
      | some conn =>
        have hpending : a.pending = [] := by
          rw [Spawned.pending, hbatch, hmail]
          rfl
        have hsender := (hkept id conn hconn).sender hpending
        rw [Server.hasSender, hsender] at hnone
        simp at hnone
  · have hstopped := hs.gone j a ha hgone
    rcases (Spawned.Left.step (Or.inr hstopped) hstep).1 with hphase | hphase
    · exact hphase.trans hstopped
    · exact hphase

/-- The command at the head of the batch is handled. -/
theorem Accounted.command {s : Server Y} (hs : s.Accounted) {cfg : Configuration} {j : Nat}
    {a : Spawned Y} {b : Actor Y} {batch : List DocCommand} {cmd : DocCommand} {o : Ambient}
    (ha : s.actors[j]? = some a) (hbatch : a.batch = cmd :: batch)
    (hstep : a.actor.step cfg (.command cmd o) = some b) :
    (s.setActor j ⟨b, a.mailbox, if b.unloadedBy (.command cmd o) then [] else batch,
      cmd.ack?.elim a.acked fun ack => a.acked ++ [ack], a.gone⟩).Accounted := by
  obtain ⟨actor, mailbox, _, acked, gone⟩ := a
  subst hbatch
  generalize hrest : (if b.unloadedBy (.command cmd o) then [] else batch) = rest
  have hsub : rest.Sublist batch := by
    rw [← hrest]
    split
    · exact List.nil_sublist _
    · exact List.Sublist.refl _
  have hmore : ∀ ack ∈ acked, ack ∈ cmd.ack?.elim acked fun ack => acked ++ [ack] := by
    intro ack hack
    cases cmd.ack? with
    | none => exact hack
    | some new => exact List.mem_append_left _ hack
  -- an actor that handles a command has not left
  have hnot : ¬ (Spawned.mk actor mailbox (cmd :: batch) acked gone).Left := fun hleft =>
    (hleft.step hstep).2 cmd o rfl
  refine hs.setActor ha (fun id conn hconn => ?_) (fun handle ack h => ?_) ?_ (fun hb => ?_)
    fun hgone => absurd (Or.inr (hs.gone j _ ha hgone)) hnot
  · -- a connection was there before, or this command adds it
    rcases Actor.step_get? hstep hconn with ⟨old, hold, hcore⟩ | ⟨ack, o', hl, hid⟩
    · refine Kept.of_core hcore ?_
      cases hs.kept j _ ha id old hold with
      | established sock est hsock hest hdoc hconn => exact .established sock est hsock hest hdoc hconn
      | acked sock ack hsock hwait hack => exact .acked sock ack hsock hwait (hmore ack hack)
      | leaving h =>
        rcases List.mem_append.mp h with h | h
        · rcases List.mem_cons.mp h with h | h
          · -- the connection leaves by this very command
            have hgone := Actor.leave_step (h ▸ hstep)
            have hid : old.connId = id := Keyed.get?_key hold
            rw [hid, World.registered, hconn] at hgone
            cases hgone
          · refine .leaving (List.mem_append_left _ ?_)
            cases hexit : b.unloadedBy (.command cmd o) with
            | true =>
              rw [Actor.unloaded_empty hstep hexit id] at hconn
              cases hconn
            | false =>
              rw [hexit] at hrest
              exact hrest ▸ h
        · exact .leaving (List.mem_append_right _ h)
    · cases hl
      obtain ⟨sock, hsock, hwait⟩ := hs.adding j _ ha conn ack
        (List.mem_append_left _ (List.mem_cons_self ..))
      exact .acked sock ack hsock hwait (List.mem_append_right _ (List.mem_singleton_self ack))
  · rcases List.mem_append.mp h with h | h
    · exact List.mem_append_left _ (List.mem_cons_of_mem _ (hsub.subset h))
    · exact List.mem_append_right _ h
  · obtain ⟨hnodup, _⟩ := hs.acks j _ ha
    have hold : (Spawned.mk actor mailbox (cmd :: batch) acked gone).acks
        = cmd.ack?.toList ++ ((batch ++ mailbox).filterMap DocCommand.ack? ++ acked) := by
      rw [Spawned.acks, Spawned.pending, List.cons_append, List.filterMap_cons]
      cases cmd.ack? <;> rfl
    have hperm : (Spawned.mk b mailbox rest
        (cmd.ack?.elim acked fun ack => acked ++ [ack]) gone).acks.Perm
        (cmd.ack?.toList ++ ((rest ++ mailbox).filterMap DocCommand.ack? ++ acked)) := by
      rw [Spawned.acks, Spawned.pending]
      cases cmd.ack? with
      | none => exact List.Perm.refl _
      | some new =>
        rw [Option.elim_some, ← List.append_assoc]
        exact List.perm_append_comm
    have hsublist : (cmd.ack?.toList ++ ((rest ++ mailbox).filterMap DocCommand.ack? ++ acked)).Sublist
        (Spawned.mk actor mailbox (cmd :: batch) acked gone).acks := by
      rw [hold]
      exact ((((hsub.append_right mailbox).filterMap _).append_right acked).append_left _)
    exact ⟨hperm.nodup_iff.mpr (hsublist.nodup hnodup), fun ack h => hsublist.subset (hperm.subset h)⟩
  · rcases Spawned.left_cases (a := ⟨actor, mailbox, cmd :: batch, acked, gone⟩) hstep hb with
      hleft | hexit | hl
    · exact absurd hleft hnot
    · exact Actor.unloaded_empty hstep hexit
    · cases hl

/-- The loop drains the mailbox into a batch. -/
theorem Accounted.recv {s : Server Y} (hs : s.Accounted) {j : Nat} {a : Spawned Y}
    (ha : s.actors[j]? = some a) (hbatch : a.batch = []) (n : Nat) :
    (s.setActor j { a with mailbox := a.mailbox.drop n, batch := a.mailbox.take n }).Accounted := by
  obtain ⟨actor, mailbox, _, acked, gone⟩ := a
  subst hbatch
  have hpending : (Spawned.mk actor (mailbox.drop n) (mailbox.take n) acked gone).pending
      = (Spawned.mk actor mailbox [] acked gone).pending := List.take_append_drop n mailbox
  have hacks : (Spawned.mk actor (mailbox.drop n) (mailbox.take n) acked gone).acks
      = (Spawned.mk actor mailbox [] acked gone).acks := by
    rw [Spawned.acks, hpending]
    rfl
  refine hs.setActor ha (fun id conn hconn => ?_) (fun handle ack h => hpending ▸ h)
    (by rw [hacks]; exact ⟨(hs.acks j _ ha).1, fun ack h => h⟩)
    (hs.left j ⟨actor, mailbox, [], acked, gone⟩ ha) (hs.gone j ⟨actor, mailbox, [], acked, gone⟩ ha)
  cases hs.kept j _ ha id conn hconn with
  | established sock est hsock hest hdoc hid => exact .established sock est hsock hest hdoc hid
  | acked sock ack hsock hwait hack => exact .acked sock ack hsock hwait hack
  | leaving h => exact .leaving (hpending ▸ h)

/-- The receiver is dropped, and the mailbox with it. -/
theorem Accounted.drop {s : Server Y} (hs : s.Accounted) {j : Nat} {a : Spawned Y}
    (ha : s.actors[j]? = some a) (hstopped : a.actor.phase = .stopped) :
    (s.setActor j { a with mailbox := [], gone := true }).Accounted := by
  have hempty := hs.left j a ha (Or.inr hstopped)
  have hsub : ({ a with mailbox := [], gone := true } : Spawned Y).pending.Sublist a.pending :=
    (List.nil_sublist _).append_left _
  have hacks : ({ a with mailbox := [], gone := true } : Spawned Y).acks.Sublist a.acks :=
    (hsub.filterMap _).append_right _
  refine hs.setActor ha (fun id conn hconn => ?_) (fun handle ack h => hsub.subset h)
    ⟨hacks.nodup (hs.acks j a ha).1, fun ack h => hacks.subset h⟩ (fun _ => hempty)
    fun _ => hstopped
  have hnone : a.actor.world.connections.get? id = none := hempty id
  rw [hnone] at hconn
  cases hconn

/-! ## Tasks -/

theorem getElem?_snoc {α : Type} {l : List α} {x y : α} {i : Nat} (h : (l ++ [x])[i]? = some y) :
    l[i]? = some y ∨ i = l.length ∧ x = y := by
  rw [List.getElem?_append] at h
  split at h
  next => exact Or.inl h
  next hge =>
    rw [List.getElem?_singleton] at h
    split at h
    next hi => exact Or.inr ⟨by omega, Option.some.inj h⟩
    next => cases h

/-- A new actor has no connections, and nobody has sent it anything. -/
theorem Accounted.spawn {s : Server Y} (hs : s.Accounted) (name : String) (doc : Y.Doc)
    (queues : Queues) :
    ({ s with actors := s.actors ++ [⟨Actor.spawn name doc queues, [], [], [], false⟩] } :
      Server Y).Accounted where
  kept j a ha := by
    rcases getElem?_snoc ha with ha | ⟨_, rfl⟩
    · exact hs.kept j a ha
    · exact fun id conn hconn => by cases hconn
  adding j a ha := by
    rcases getElem?_snoc ha with ha | ⟨_, rfl⟩
    · exact hs.adding j a ha
    · exact fun handle ack h => absurd h List.not_mem_nil
  acks j a ha := by
    rcases getElem?_snoc ha with ha | ⟨_, rfl⟩
    · exact hs.acks j a ha
    · exact ⟨List.nodup_nil, fun ack h => absurd h List.not_mem_nil⟩
  left j a ha := by
    rcases getElem?_snoc ha with ha | ⟨_, rfl⟩
    · exact hs.left j a ha
    · exact fun _ id => rfl
  gone j a ha := by
    rcases getElem?_snoc ha with ha | ⟨_, rfl⟩
    · exact hs.gone j a ha
    · exact fun h => by cases h
  fresh := hs.fresh
  ended := hs.ended

theorem Accounted.documentStep {s t : Server Y} (hs : s.Accounted) {name : String} {doc : Y.Doc}
    {queues : Queues} {call : DocumentCall} {r : DocumentCall ⊕ Nat}
    (h : s.documentStep name doc queues call = some (t, r)) :
    t.Accounted ∧ t.sockets = s.sockets := by
  cases documentStep_cases h with
  | found | missing | joins | loads => exact ⟨hs, rfl⟩
  | creates | locks | late | inserts | forgets => exact ⟨hs.congr rfl rfl le_rfl, rfl⟩
  | spawns l => exact ⟨hs.spawn name doc queues, rfl⟩

theorem awaited_true {s : Server Y} {j ack : Nat} (h : s.awaited j ack = some true) :
    ∃ a, s.actors[j]? = some a ∧ ack ∈ a.acked := by
  unfold Server.awaited at h
  split at h
  next => cases h
  next a ha =>
    split at h
    next hack => exact ⟨a, ha, hack⟩
    next => split at h <;> cases h

theorem awaited_false {s : Server Y} {j ack : Nat} (h : s.awaited j ack = some false)
    {a : Spawned Y} (ha : s.actors[j]? = some a) :
    ack ∉ a.acked ∧ ∀ cmd ∈ a.pending, cmd.ack? ≠ some ack := by
  unfold Server.awaited at h
  rw [ha] at h
  dsimp only at h
  split at h
  next => cases h
  next hack =>
    split at h
    next => cases h
    next hlost =>
      refine ⟨hack, fun cmd hcmd heq => hlost ?_⟩
      exact List.any_eq_true.mpr ⟨cmd, hcmd, decide_eq_true heq⟩

/-- An `ack` is sent once, by the command that had it. -/
theorem Accounted.ack_once {s : Server Y} (hs : s.Accounted) {j ack : Nat} {a : Spawned Y}
    (ha : s.actors[j]? = some a) (hack : ack ∈ a.acked) :
    ∀ cmd ∈ a.pending, cmd.ack? ≠ some ack := by
  intro cmd hcmd heq
  obtain ⟨hnodup, _⟩ := hs.acks j a ha
  rw [Spawned.acks] at hnodup
  exact (List.disjoint_of_nodup_append hnodup) (List.mem_filterMap.mpr ⟨cmd, hcmd, heq⟩) hack

theorem send_refused {s : Server Y} {j : Nat} {cmd : DocCommand} (h : ¬ (s.send j cmd).2 = true) :
    (s.send j cmd).1 = s := by
  unfold Server.send at h ⊢
  split
  next => rfl
  next a ha =>
    rw [ha] at h
    dsimp only at h
    split
    next => rfl
    next hgone =>
      rw [if_neg hgone] at h
      exact absurd rfl h

end Server

/-- A failed turn leaves the connections of the socket alone. -/
theorem Socket.failed_spec (sock : Socket) (r : Registration) :
    (sock.failed r).client = sock.client ∧ (sock.failed r).task ≠ .ended ∧
      ∀ key, (sock.failed r).task.key = some key → key = r.request.key := by
  unfold Socket.failed
  split
  · refine ⟨rfl, (fun h => by cases h), fun key h => ?_⟩
    cases h
    rfl
  · exact ⟨rfl, (fun h => by cases h), fun key h => by cases h⟩

namespace Server

/-- The loop has another turn, or gives up: no actor has the connection. -/
theorem Accounted.retry {s : Server Y} (hs : s.Accounted) {i : Nat} {sock sock' : Socket}
    {r : Registration} (hsock : s.sockets[i]? = some sock) (hclient : sock'.client = sock.client)
    (hkey : sock.client.established.get? r.request.key = none)
    (hlost : ∀ connId j ack, sock.awaits = some (connId, j, ack) → s.awaited j ack = some false) :
    (s.setSocket i (sock'.failed r)).Accounted := by
  obtain ⟨hsame, hgoes, hkeys⟩ := sock'.failed_spec r
  rw [hclient] at hsame
  refine hs.setSocket hsock (fun est h => Or.inl (hsame ▸ h)) (fun connId j ack h => ?_)
    (fun key h => ?_) fun h => absurd h hgoes
  · refine Or.inr fun a ha => ?_
    obtain ⟨hout, hnot⟩ := awaited_false (hlost connId j ack h) ha
    exact ⟨hnot, fun hin => absurd hin hout⟩
  · rw [hsame, hkeys key h]
    exact hkey

end Server

/-- While it has no command in a mailbox a registering socket waits for
nothing. -/
theorem Socket.awaits_out {sock : Socket} (hout : ∀ r, sock.task ≠ .registering r) :
    sock.awaits = none := by
  unfold Socket.awaits
  split
  next heq => exact absurd heq (hout _)
  next => rfl

theorem Socket.awaits_none {sock : Socket} {r : Registration} (htask : sock.task = .registering r)
    (hstage : ∀ j ack, r.stage ≠ .await j ack) : sock.awaits = none := by
  unfold Socket.awaits
  rw [htask]
  split
  next heq =>
    cases heq
    exact absurd rfl (hstage _ _)
  next => rfl

theorem Socket.awaits_some {sock : Socket} {r : Registration} (htask : sock.task = .registering r)
    {j ack : Nat} (hstage : r.stage = .await j ack) : sock.awaits = some (r.connId, j, ack) := by
  obtain ⟨request, connId, readOnly, again, stage⟩ := r
  cases hstage
  rw [Socket.awaits, htask]

/-- What a socket does when its connection is in. -/
theorem Socket.register_spec (sock : Socket) (r : Registration) (doc : Nat) :
    (sock.register r doc).1.client.established
      = sock.client.established.insert Reorder.keep ⟨r.request.key, doc, r.connId⟩ ∧
    (sock.register r doc).1.task = .reading ∧
    ∀ c ∈ (sock.register r doc).2, c.1 = doc ∧ ∃ data, c.2 = .clientFrame r.connId data := by
  have hrelease : ∀ (frames : List Bytes) (c : ClientConnection),
      (c.release frames).established = c.established := by
    intro frames
    unfold ClientConnection.release
    induction frames with
    | nil => exact fun c => rfl
    | cons msg frames ih => exact fun c => ih _
  unfold Socket.register
  dsimp only
  split
  next => exact ⟨rfl, rfl, fun c hc => absurd hc List.not_mem_nil⟩
  next pending _ =>
    refine ⟨hrelease _ _, rfl, fun c hc => ?_⟩
    obtain ⟨cmd, hcmd, rfl⟩ := List.mem_map.mp hc
    obtain ⟨msg, _, rfl⟩ := List.mem_map.mp hcmd
    exact ⟨rfl, msg, rfl⟩

namespace Server

theorem Accounted.register {s t : Server Y} (hs : s.Accounted) {i : Nat} {sock : Socket}
    {r : Registration} {doc : Y.Doc} {queues : Queues} (hsock : s.sockets[i]? = some sock)
    (htask : sock.task = .registering r) (h : s.registerStep i sock r doc queues = some t) :
    t.Accounted := by
  have hkey : sock.client.established.get? r.request.key = none :=
    hs.fresh i sock hsock _ (by rw [htask]; rfl)
  have hstill : ∀ key, (SocketTask.registering r).key = some key →
      sock.client.established.get? key = none := fun key h => by
    cases h
    exact hkey
  have hnext : ({ s with nextAck := s.nextAck + 1 } : Server Y).Accounted :=
    hs.congr rfl rfl (Nat.le_succ _)
  cases registerStep_cases h with
  | calls call next u hstage hcall | finds call handle u hstage hcall =>
    have hout := Socket.awaits_none htask fun j ack heq => by
      rw [hstage] at heq
      cases heq
    obtain ⟨hu, hsame⟩ := hs.documentStep hcall
    rw [← hsame] at hsock
    exact hu.setSocket_same hsock rfl (Or.inl hout) hstill fun h => by cases h
  | sends handle hstage hsent =>
    have hout := Socket.awaits_none htask fun j ack heq => by
      rw [hstage] at heq
      cases heq
    unfold Server.introduce Server.introduced
    generalize hcmd : DocCommand.addConnection (sock.connHandle i r) s.nextAck = cmd
    -- the `ack` is not given out yet, so nothing that is pending answers it
    have hwaits : (({ s with nextAck := s.nextAck + 1 } : Server Y).setSocket i
        { sock.emit (.command handle cmd) with
          task := .registering { r with stage := .await handle s.nextAck } }).Accounted :=
      hnext.setSocket_same hsock rfl (Or.inl hout) hstill fun h => by cases h
    have hsent := hwaits.send handle cmd (fun ack hack => ?_) fun conn ack hadd => ?_
    · rw [send_setSocket] at hsent
      exact hsent
    · rw [← hcmd] at hack
      cases hack
      exact ⟨Nat.lt_succ_self _, fun a ha hin => Nat.lt_irrefl _ ((hs.acks handle a ha).2 _ hin)⟩
    · rw [← hcmd] at hadd
      cases hadd
      exact ⟨_, (getElem?_set_of_some hsock _ i).trans (if_pos rfl), rfl⟩
  | refused handle hstage hrefused =>
    have hout := Socket.awaits_none htask fun j ack heq => by
      rw [hstage] at heq
      cases heq
    unfold Server.introduce at hrefused ⊢
    rw [send_refused hrefused]
    refine (hnext.removeDocument _).retry hsock rfl hkey fun connId j ack h => ?_
    rw [hout] at h
    cases h
  | acked handle ack hstage hacked =>
    have hwait := Socket.awaits_some htask hstage
    obtain ⟨a, ha, hin⟩ := awaited_true hacked
    obtain ⟨hest, hreading, hcmds⟩ := sock.register_spec r handle
    -- the `ack` is taken, and in its place the connection is established
    have hmem : ∀ est, est ∈ (sock.register r handle).1.client.established.vals ↔
        est = ⟨r.request.key, handle, r.connId⟩ ∨ est ∈ sock.client.established.vals := by
      intro est
      have herase := Keyed.erase_of_get?_none hkey
      rw [hest, Keyed.insert]
      dsimp only
      rw [herase]
      exact List.mem_cons
    refine Accounted.sendAll (hs.setSocket hsock (fun est h => Or.inl ((hmem est).mpr (Or.inr h)))
      (fun connId j ack' h => ?_) (fun key h => ?_) fun h => ?_) fun c hc => ?_
    · rw [hwait] at h
      cases h
      refine Or.inr fun a' ha' => ?_
      obtain rfl : a = a' := Option.some.inj (ha.symm.trans ha')
      exact ⟨hs.ack_once ha hin, fun _ => ⟨_, (hmem _).mpr (Or.inl rfl), rfl, rfl⟩⟩
    · rw [hreading] at h
      cases h
    · rw [hreading] at h
      cases h
    · obtain ⟨_, data, hdata⟩ := hcmds c hc
      rw [hdata]
      rfl
  | lost handle ack hstage hlost =>
    have hwait := Socket.awaits_some htask hstage
    refine (hs.removeDocument _).retry hsock rfl hkey fun connId j ack' h => ?_
    rw [hwait] at h
    cases h
    exact hlost

theorem Accounted.direct {s t : Server Y} (hs : s.Accounted) {k : Nat} {e : DirectApply}
    {doc : Y.Doc} {queues : Queues} (h : s.directStep k e doc queues = some t) : t.Accounted := by
  cases directStep_cases h with
  | calls call next u hreturned hstage hcall | finds call handle u hreturned hstage hcall =>
    exact (hs.documentStep hcall).1.congr rfl rfl le_rfl
  | sends handle sent hreturned hstage hsent =>
    subst hsent
    have hnext : ({ s with nextAck := s.nextAck + 1 } : Server Y).Accounted :=
      hs.congr rfl rfl (Nat.le_succ _)
    refine (hnext.send handle (.directApply e.update s.nextAck) (fun ack hack => ?_)
      fun conn ack hadd => ?_).congr rfl rfl le_rfl
    · cases hack
      exact ⟨Nat.lt_succ_self _, fun a ha hin => Nat.lt_irrefl _ ((hs.acks handle a ha).2 _ hin)⟩
    · cases hadd
  | answered => exact hs.congr rfl rfl le_rfl

end Server

namespace Socket

/-- What it keeps of its connections: all of them, and it may start to
authenticate for a key that has none. -/
structure Steady (sock sock' : Socket) : Prop where
  established : sock'.client.established = sock.client.established
  fresh : ∀ key, sock'.task.key = some key → sock.task.key = some key ∨
    sock.client.established.get? key = none
  goes : sock'.task ≠ .ended

theorem handleFrame_steady (Y : Yrs) (cfg : Configuration) (now : Nat) {sock : Socket}
    (htask : sock.task = .reading) (data : Bytes) :
    Steady sock (sock.handleFrame Y cfg now data).1 ∧
    ∀ c ∈ (sock.handleFrame Y cfg now data).2, ∃ est ∈ sock.client.established.vals,
      c.1 = est.doc ∧ c.2 = .clientFrame est.connId data := by
  have hsame : ∀ sock' : Socket, sock'.client.established = sock.client.established →
      sock'.task = sock.task → Steady sock sock' := by
    intro sock' hest htask'
    refine ⟨hest, fun key h => Or.inl (htask' ▸ h), fun h => ?_⟩
    rw [htask', htask] at h
    cases h
  have hframe := sock.handleFrame_cases Y cfg now data
  generalize sock.handleFrame Y cfg now data = handled at hframe ⊢
  cases hframe with
  | short | garbled | unread => exact ⟨hsame _ rfl rfl, fun c hc => absurd hc List.not_mem_nil⟩
  | passes frame est hlength hparse hest =>
    refine ⟨hsame _ rfl rfl, fun c hc => ?_⟩
    obtain rfl := List.mem_singleton.mp hc
    exact ⟨est, (Keyed.mem_iff_get?.mp hest).1, rfl, rfl⟩
  | asks frame request hlength hparse hnone hty hrequest =>
    refine ⟨⟨rfl, fun key h => Or.inr ?_, fun h => by cases h⟩, fun c hc => absurd hc List.not_mem_nil⟩
    cases h
    rw [(AuthRequest.parse_name hrequest).1]
    exact hnone
  | waits frame hlength hparse hnone hty =>
    obtain ⟨hest, htask'⟩ := (sock.heard now).enqueue_steady cfg frame.routingKey data
    exact ⟨hsame _ hest htask', fun c hc => absurd hc List.not_mem_nil⟩

theorem connected_steady (Y : Yrs) {sock : Socket} {request : AuthRequest}
    (htask : sock.task = .connecting request) (results : List HookResult) :
    Steady sock (sock.connected Y request results) := by
  unfold connected
  dsimp only
  split
  · exact ⟨rfl, (fun key h => by cases h), fun h => by cases h⟩
  · refine ⟨rfl, fun key h => Or.inl ?_, fun h => by cases h⟩
    rw [htask]
    exact h

theorem authenticated_steady (Y : Yrs) {sock : Socket} {request : AuthRequest}
    (htask : sock.task = .authenticating request) (results : List HookResult) (readOnly : Bool)
    (connId : Nat) : Steady sock (sock.authenticated Y request results readOnly connId) := by
  unfold authenticated
  dsimp only
  split
  · exact ⟨rfl, (fun key h => by cases h), fun h => by cases h⟩
  · refine ⟨rfl, fun key h => Or.inl ?_, fun h => by cases h⟩
    rw [htask]
    exact h

end Socket

namespace Server

/-- A socket that waits for no `ack` does something of its own. -/
theorem Accounted.steady {s : Server Y} (hs : s.Accounted) {i : Nat} {sock sock' : Socket}
    (hsock : s.sockets[i]? = some sock) (hsteady : sock.Steady sock')
    (hout : ∀ r, sock.task ≠ .registering r) : (s.setSocket i sock').Accounted := by
  refine hs.setSocket_same hsock hsteady.established (Or.inl (Socket.awaits_out hout))
    (fun key h => ?_) hsteady.goes
  rcases hsteady.fresh key h with hold | hnone
  · exact hs.fresh i sock hsock key hold
  · exact hnone

theorem Accounted.connect {s : Server Y} (hs : s.Accounted) (client : ClientConnection) :
    ({ s with sockets := s.sockets ++ [⟨client, .reading, []⟩] } : Server Y).Accounted := by
  have hmore : ∀ {i : Nat} {sock : Socket}, s.sockets[i]? = some sock →
      (s.sockets ++ [(⟨client, .reading, []⟩ : Socket)])[i]? = some sock := by
    intro i sock h
    obtain ⟨hlt, _⟩ := List.getElem?_eq_some_iff.mp h
    rw [List.getElem?_append_left hlt]
    exact h
  refine ⟨fun j a ha id conn hconn => ?_, fun j a ha handle ack hadd => ?_, hs.acks, hs.left, hs.gone,
    fun i sock h key hkey => ?_, fun i sock h hended => ?_⟩
  · cases hs.kept j a ha id conn hconn with
    | established sock est hsock hest hdoc hid =>
      exact .established sock est (hmore hsock) hest hdoc hid
    | acked sock ack hsock hwait hack => exact .acked sock ack (hmore hsock) hwait hack
    | leaving h => exact .leaving h
  · obtain ⟨sock, hsock, hwait⟩ := hs.adding j a ha handle ack hadd
    exact ⟨sock, hmore hsock, hwait⟩
  · rcases getElem?_snoc h with h | ⟨_, rfl⟩
    · exact hs.fresh i sock h key hkey
    · cases hkey
  · rcases getElem?_snoc h with h | ⟨_, rfl⟩
    · exact hs.ended i sock h hended
    · cases hended

/-- **The step lemma.** -/
theorem Accounted.step {s t : Server Y} (hs : s.Accounted) {cfg : Configuration} {l : Label Y}
    (h : Server.step cfg s l = some t) : t.Accounted := by
  cases step_cases h with
  | connect now => exact hs.connect _
  | receive i data now sock hsock htask =>
    obtain ⟨hsteady, hcmds⟩ := Socket.handleFrame_steady Y cfg now htask data
    refine (hs.steady hsock hsteady fun r h => ?_).sendAll fun c hc => ?_
    · rw [htask] at h
      cases h
    · obtain ⟨est, _, _, hframe⟩ := hcmds c hc
      rw [hframe]
      rfl
  | hangup i sock hsock htask =>
    refine hs.setSocket_same hsock rfl (Or.inl (Socket.awaits_out fun r h => ?_))
      (fun key h => by cases h) fun h => by cases h
    rw [htask] at h
    cases h
  | timeout i now sock hsock htask hdeadline =>
    refine hs.setSocket_same hsock rfl (Or.inl (Socket.awaits_out fun r h => ?_))
      (fun key h => by cases h) fun h => by cases h
    rw [htask] at h
    cases h
  | connected i results sock request hsock htask =>
    refine hs.steady hsock (Socket.connected_steady Y htask results) fun r h => ?_
    rw [htask] at h
    cases h
  | authenticated i results readOnly sock request hsock htask =>
    have hnext : ({ s with nextConnId := s.connIdAfter results } : Server Y).Accounted :=
      hs.congr rfl rfl le_rfl
    refine hnext.steady hsock
      (Socket.authenticated_steady Y htask results readOnly s.nextConnId) fun r h => ?_
    rw [htask] at h
    cases h
  | register i doc queues sock r t hsock htask h => exact hs.register hsock htask h
  | leave i key sock est hsock htask hest =>
    exact hs.leave hsock htask (Keyed.mem_iff_get?.mp hest).1
  | clean i sock hsock htask hempty =>
    refine hs.setSocket hsock (fun est h => Or.inl h) (fun connId j ack h => ?_)
      (fun key h => by cases h) fun _ => hempty
    rw [Socket.awaits, htask] at h
    cases h
  | apply name update => exact hs.congr rfl rfl le_rfl
  | direct k doc queues e t he h => exact hs.direct h
  | external name data j hdoc => exact hs.send_plain j rfl
  | unknown name data hdoc => exact hs
  | recv j a ha hbatch hgone hphase hmail => exact hs.recv ha hbatch maxCoalesceBatch
  | command j o a cmd batch b ha hbatch hstep => exact (hs.command ha hbatch hstep).unloading _ _
  | actor j l a b ha hplain hclosed hstep =>
    exact (hs.actorStep ha hstep hplain hclosed).unloading _ _
  | drop j a ha hstopped => exact hs.drop ha hstopped

theorem build_accounted (Y : Yrs) : (build Y).Accounted where
  kept j a ha := by cases ha
  adding j a ha := by cases ha
  acks j a ha := by cases ha
  left j a ha := by cases ha
  gone j a ha := by cases ha
  fresh i sock h := by cases h
  ended i sock h := by cases h

/-- Somebody is responsible for the connection: a live socket that has it
established, one that is registering it, or its removal is pending. -/
inductive Owned (s : Server Y) (j : Nat) (a : Spawned Y) (conn : ConnHandle) : Prop
  | established (sock : Socket) (est : Established)
    (hsock : s.sockets[conn.outbound]? = some sock) (hlive : sock.task ≠ .ended)
    (hest : est ∈ sock.client.established.vals) (hdoc : est.doc = j)
    (hconn : est.connId = conn.connId)
  | registering (sock : Socket) (r : Registration)
    (hsock : s.sockets[conn.outbound]? = some sock) (htask : sock.task = .registering r)
    (hconn : r.connId = conn.connId)
  | leaving (h : .removeConnection conn.connId ∈ a.batch ++ a.mailbox)

theorem Accounted.owned {s : Server Y} (hs : s.Accounted) {j : Nat} {a : Spawned Y} {id : Nat}
    {conn : ConnHandle} (ha : s.actors[j]? = some a)
    (hconn : a.actor.world.connections.get? id = some conn) : s.Owned j a conn := by
  cases hs.kept j a ha id conn hconn with
  | established sock est hsock hest hdoc hid =>
    refine .established sock est hsock (fun hended => ?_) hest hdoc hid
    have hnone := Keyed.isEmpty_iff.mp (hs.ended _ sock hsock hended) est.key
    rw [Keyed.mem_iff_get?.mpr ⟨hest, rfl⟩] at hnone
    cases hnone
  | acked sock ack hsock hwait hack =>
    unfold Socket.awaits at hwait
    split at hwait
    next request connId readOnly again doc ack' htask =>
      cases hwait
      exact .registering sock _ hsock htask rfl
    next => cases hwait
  | leaving h => exact .leaving h

end Server

/-- **No ghost connections**: in every state a server reaches, whoever is in the
map of an actor has somebody responsible for it, and no actor is past its loop
with somebody in its map; so when a socket has ended and no command is pending,
no actor has a connection of that socket. -/
theorem no_ghost_connections {cfg : Configuration} {ls : List (Server.Label Y)} {s : Server Y}
    (hrun : Lts.exec (Server.step cfg) (Server.build Y) ls = some s) :
    (∀ (j : Nat) (a : Spawned Y), s.actors[j]? = some a → ∀ id conn,
      a.actor.world.connections.get? id = some conn → conn.connId = id ∧ s.Owned j a conn) ∧
    (∀ (j : Nat) (a : Spawned Y), s.actors[j]? = some a →
      a.actor.phase = .exiting ∨ a.actor.phase = .stopped → a.actor.world.connections.isEmpty = true) ∧
    ∀ (i : Nat) (sock : Socket), s.sockets[i]? = some sock → sock.task = .ended →
      (∀ (j : Nat) (a : Spawned Y), s.actors[j]? = some a → a.batch ++ a.mailbox = []) →
      ∀ (j : Nat) (a : Spawned Y), s.actors[j]? = some a → ∀ id conn,
        a.actor.world.connections.get? id = some conn → conn.outbound ≠ i := by
  have hs : s.Accounted :=
    Lts.exec_invariant (fun _ _ _ hstep hs => hs.step hstep) hrun (Server.build_accounted Y)
  refine ⟨fun j a ha id conn hconn => ⟨Keyed.get?_key hconn, hs.owned ha hconn⟩,
    fun j a ha hleft => Keyed.isEmpty_iff.mpr (hs.left j a ha hleft), ?_⟩
  rintro i sock hsock hended hdrained j a ha id conn hconn rfl
  cases hs.owned ha hconn with
  | established sock' est hsock' hlive hest hdoc hid =>
    obtain rfl : sock = sock' := Option.some.inj (hsock.symm.trans hsock')
    exact hlive hended
  | registering sock' r hsock' htask hid =>
    obtain rfl : sock = sock' := Option.some.inj (hsock.symm.trans hsock')
    rw [htask] at hended
    cases hended
  | leaving h =>
    rw [hdrained j a ha] at h
    cases h

/-- A socket that has joined. -/
theorem no_ghost_connections_joined :
    let s := OneWriter.serve {} (.connect 0 :: OneWriter.enters 0 0 "doc")
    ∃ a conn, s.actors[0]? = some a ∧ a.actor.world.connections.get? 1 = some conn ∧
      s.Owned 0 a conn := by
  intro s
  have hsome : ((s.actors[0]?).bind fun a => a.actor.world.connections.get? 1).isSome = true := by
    decide +kernel
  obtain ⟨conn, hboth⟩ := Option.isSome_iff_exists.mp hsome
  obtain ⟨a, ha, hconn⟩ := Option.bind_eq_some_iff.mp hboth
  have hall := @no_ghost_connections _ {} _ s (Lts.exec_reach (by decide +kernel))
  exact ⟨a, conn, ha, hconn, (hall.1 0 a ha 1 conn hconn).2⟩

end Hocuspocus
