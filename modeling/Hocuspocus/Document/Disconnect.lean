import Hocuspocus.Document.Store
import Hocuspocus.Document.Turn

/-!
# Who leaves, and who is told

A connection leaves the map in three ways: its socket is gone
(`RemoveConnection`), its own frame closes it, or a broadcast finds its queue
full. The first two go through `remove_connection`, which runs the
`on_disconnect` hooks; `evict_lagging` does not, and the `RemoveConnection`
the socket sends later finds nobody. `Turns.departs` says for each step who
is registered afterwards and whose hooks have run, and `disconnect_pairs`
that over a whole run the hooks run once for a connection exactly if it is
never evicted.
-/

namespace Hocuspocus

variable {Y : Yrs}

namespace World

def registered (w : World Y) (id : Nat) : Bool := (w.connections.get? id).isSome

/-- The connections a broadcast evicts. -/
def Broadcast.evicted : Option (Broadcast Y) → List Nat
  | none => []
  | some (v, build) => (v.foundFull build).map ConnHandle.connId

end World

/-- The connections for which the `on_disconnect` hooks have run. -/
def disconnects (t : List (Event Y)) : List Nat :=
  t.filterMap fun | .onDisconnect id _ => some id | _ => none

theorem disconnects_append (t k : List (Event Y)) :
    disconnects (t ++ k) = disconnects t ++ disconnects k := List.filterMap_append

theorem disconnects_eq_nil {k : List (Event Y)} (h : ∀ e ∈ k, ∀ id s, e ≠ .onDisconnect id s) :
    disconnects k = [] := by
  refine List.filterMap_eq_nil_iff.mpr fun e he => ?_
  cases e with
  | onDisconnect id s => exact absurd rfl (h _ he id s)
  | _ => rfl

def Act.joiner : Act → Option Nat
  | .join _ handle => some handle.connId
  | _ => none

def Act.leaver : Act → Option Nat
  | .leave connId => some connId
  | _ => none

/-- What a step does to the map, and whose hooks it runs: those of whoever
leaves through `remove_connection`, and nobody else's. -/
structure Departs (act : Act) (call : Option (World.Broadcast Y)) (w w' : World Y) : Prop where
  registered : ∀ id, w'.registered id
    = (decide (act.joiner = some id) || (w.registered id && decide (act.leaver ≠ some id) &&
      decide (id ∉ World.Broadcast.evicted call)))
  hooks : disconnects w'.trace
    = disconnects w.trace ++ (act.leaver.filter fun id => w.registered id).toList

theorem Inert.registered {w w' : World Y} (h : Inert w w') (id : Nat) :
    w'.registered id = w.registered id := by
  rw [World.registered, h.connections]
  rfl

theorem Inert.disconnects {w w' : World Y} (h : Inert w w') :
    disconnects w'.trace = disconnects w.trace := by
  obtain ⟨k, htrace, hk⟩ := h.trace
  have hnone : Hocuspocus.disconnects k = [] := by
    refine disconnects_eq_nil fun e he id s heq => ?_
    subst heq
    cases hk _ he with
    | other h => cases h
  rw [htrace, disconnects_append, hnone, List.append_nil]

namespace World

/-- A broadcast takes out whoever it finds full, without their hooks. -/
theorem broadcastWith_departs (w : World Y) (build : String → Bytes) :
    (∀ id, (w.broadcastWith build).registered id
      = (w.registered id && decide (id ∉ Broadcast.evicted (some (w, build))))) ∧
    disconnects (w.broadcastWith build).trace = disconnects w.trace := by
  constructor
  · intro id
    rw [registered, w.broadcastWith_foundFull build id]
    unfold Broadcast.evicted
    by_cases hin : id ∈ (w.foundFull build).map ConnHandle.connId
    · rw [if_pos hin, decide_eq_false (not_not.mpr hin), Bool.and_false]
      rfl
    · rw [if_neg hin, decide_eq_true hin, Bool.and_true]
      rfl
  · obtain ⟨rs, k, _, htrace, hclose, _⟩ := w.broadcastWith_spec build
    have hnone : disconnects (rs.map (offered fun conn => build conn.messageAddress) ++ k) = [] := by
      refine disconnects_eq_nil fun e he id s heq => ?_
      subst heq
      rcases List.mem_append.mp he with h | h
      · obtain ⟨r, _, heq⟩ := List.mem_map.mp h
        cases heq
      · cases hclose _ h
    rw [htrace, disconnects_append, hnone, List.append_nil]

theorem relayAwareness_departs (w : World Y) (changed : List Nat) (origin : Origin) :
    (∀ id, (w.relayAwareness changed origin).registered id
      = (w.registered id && decide (id ∉ Broadcast.evicted (w.relayBroadcast changed)))) ∧
    disconnects (w.relayAwareness changed origin).trace = disconnects w.trace := by
  unfold relayAwareness relayBroadcast
  cases Y.updateWithClients w.awareness changed with
  | none => exact ⟨fun id => (Bool.and_true _).symm, rfl⟩
  | some out =>
    obtain ⟨hregistered, hhooks⟩ :=
      w.broadcastWith_departs (awarenessFrame Y (Y.encodeAwareness out))
    refine ⟨hregistered, ?_⟩
    refine (disconnects_append _ _).trans ?_
    exact (List.append_nil _).trans hhooks

theorem registered_modify (w : World Y) (connId : Nat) (changed : List Nat) (id : Nat) :
    ({ w with connections :=
        w.connections.modify connId (claimClients changed) (claimClients_connId changed) } :
      World Y).registered id = w.registered id := by
  unfold registered
  dsimp only
  rw [Keyed.get?_modify]
  split
  · exact Option.isSome_map
  · rfl

theorem handleAwareness_departs (w : World Y) (frame : IncomingFrame) (origin : Origin) :
    Departs (.present frame origin) (w.awarenessBroadcast frame origin) w
      (w.handleAwareness frame origin) := by
  -- nobody joins or leaves on their own account
  have hkeep : ∀ {call : Option (Broadcast Y)} {w' : World Y},
      (∀ id, w'.registered id = (w.registered id && decide (id ∉ Broadcast.evicted call))) →
      disconnects w'.trace = disconnects w.trace → Departs (.present frame origin) call w w' := by
    intro call w' hregistered hhooks
    refine ⟨fun id => ?_, hhooks.trans (List.append_nil _).symm⟩
    rw [hregistered id]
    simp [Act.joiner, Act.leaver]
  have hstill : ∀ {w' : World Y}, w'.connections = w.connections → w'.trace = w.trace →
      Departs (.present frame origin) none w w' := by
    intro w' hconns htrace
    refine hkeep (fun id => ?_) (congrArg disconnects htrace)
    rw [registered, hconns]
    exact (Bool.and_true _).symm
  unfold awarenessBroadcast handleAwareness
  cases Y.readBuf frame.decoder with
  | mk buf rest =>
    cases buf with
    | none => exact hstill rfl rfl
    | some buf =>
      dsimp only
      cases Y.decodeAwareness buf with
      | none => exact hstill rfl rfl
      | some update =>
        dsimp only
        cases (Y.applyAwareness w.awareness update).2 with
        | false => exact hstill rfl rfl
        | true =>
          have hrelay : ∀ v : World Y, (∀ id, v.registered id = w.registered id) →
              v.trace = w.trace →
              Departs (.present frame origin) (v.relayBroadcast (Y.clients update)) w
                (v.relayAwareness (Y.clients update) origin) := by
            intro v hregistered htrace
            obtain ⟨hafter, hhooks⟩ := v.relayAwareness_departs (Y.clients update) origin
            refine hkeep (fun id => ?_) (hhooks.trans (congrArg disconnects htrace))
            rw [hafter id, hregistered id]
          cases origin with
          | connection connId => exact hrelay _ (fun id => registered_modify _ _ _ id) rfl
          | redis => exact hrelay _ (fun _ => rfl) rfl
          | «local» => exact hrelay _ (fun _ => rfl) rfl

theorem removeConnection_departs (w : World Y) (connId : Nat) :
    Departs (.leave connId) (w.removeBroadcast connId) w (w.removeConnection connId) := by
  unfold removeBroadcast removeConnection
  cases hconn : w.connections.get? connId with
  | none =>
    have hout : w.registered connId = false := by rw [registered, hconn]; rfl
    refine ⟨fun id => ?_, ?_⟩
    · by_cases hid : connId = id
      · subst hid
        simp [hout, Act.joiner]
      · simp [Act.joiner, Act.leaver, Broadcast.evicted, hid]
    · simp [Act.leaver, hout]
  | some handle =>
    have hin : w.registered connId = true := by rw [registered, hconn]; rfl
    have hleft : ∀ id, (w.detach connId handle).registered id
        = (w.registered id && decide (some connId ≠ some id)) := by
      intro id
      rw [registered, detach_connections, Keyed.get?_erase]
      by_cases hid : id = connId
      · simp [hid]
      · simp [hid, Ne.symm hid, registered]
    -- detached, perhaps announced, and then the hooks
    have hgone : ∀ {call : Option (Broadcast Y)} {v : World Y},
        (∀ id, v.registered id = ((w.detach connId handle).registered id &&
          decide (id ∉ Broadcast.evicted call))) →
        disconnects v.trace = disconnects w.trace →
        Departs (.leave connId) call w (v.emit (.onDisconnect connId handle.socketId)) := by
      intro call v hregistered hhooks
      refine ⟨fun id => ?_, ?_⟩
      · refine (hregistered id).trans ?_
        rw [hleft id]
        simp [Act.joiner, Act.leaver]
      · refine (disconnects_append _ _).trans ?_
        rw [hhooks]
        have hleaver : (Act.leaver (.leave connId)).filter (fun id => w.registered id)
            = some connId := by
          rw [Act.leaver, Option.filter_some, if_pos hin]
        rw [hleaver]
        rfl
    have hquiet : Departs (.leave connId) none w
        ((w.detach connId handle).emit (.onDisconnect connId handle.socketId)) :=
      hgone (fun _ => (Bool.and_true _).symm) rfl
    dsimp only
    cases handle.clientIds.isEmpty with
    | true => exact hquiet
    | false =>
      cases Y.updateWithClients (w.detach connId handle).awareness handle.clientIds with
      | none => exact hquiet
      | some update =>
        obtain ⟨hafter, hhooks⟩ := (w.detach connId handle).broadcastWith_departs
          (awarenessFrame Y (Y.encodeAwareness update))
        exact hgone hafter hhooks

/-- Whoever leaves is not among those its farewell evicts. -/
theorem removeBroadcast_leaver (w : World Y) (connId : Nat) :
    connId ∉ Broadcast.evicted (w.removeBroadcast connId) := by
  unfold removeBroadcast
  split
  · exact List.not_mem_nil
  next handle _ =>
    dsimp only
    split
    · exact List.not_mem_nil
    · cases Y.updateWithClients (w.detach connId handle).awareness handle.clientIds with
      | none => exact List.not_mem_nil
      | some update =>
        intro hmem
        obtain ⟨conn, hconn, hid⟩ := List.mem_map.mp hmem
        have hin := (foundFull_sublist _ _).subset hconn
        have hget : (w.connections.erase connId).get? connId = some conn :=
          Keyed.mem_iff_get?.mpr ⟨hin, hid⟩
        rw [Keyed.get?_erase, if_pos rfl] at hget
        cases hget

theorem addConnection_departs (w : World Y) (order : Reorder ConnHandle) (handle : ConnHandle) :
    Departs (.join order handle) none w (w.addConnection order handle) := by
  refine ⟨fun id => ?_, ?_⟩
  · rw [registered, addConnection_get?]
    by_cases hid : id = handle.connId
    · simp [hid, Act.joiner]
    · simp [hid, Ne.symm hid, Act.joiner, Act.leaver, Broadcast.evicted, registered]
  · have hgreeted : ∀ v : World Y, disconnects v.trace = disconnects w.trace →
        disconnects (v.trace ++ [.added handle]) = disconnects w.trace ++ [] := by
      intro v hv
      rw [disconnects_append, hv]
      rfl
    unfold addConnection
    dsimp only
    split
    · split
      · refine hgreeted _ ?_
        rw [sendFrame_trace, disconnects_append]
        exact List.append_nil _
      · exact hgreeted w rfl
    · exact hgreeted w rfl

theorem replyQueryAwareness_departs (w : World Y) (address : String) (connId : Nat) :
    Departs (.answer connId address) none w (w.replyQueryAwareness address connId) := by
  have hkeep : ∀ {w' : World Y}, w'.connections = w.connections →
      disconnects w'.trace = disconnects w.trace → Departs (.answer connId address) none w w' := by
    intro w' hconns hhooks
    refine ⟨fun id => ?_, hhooks.trans (List.append_nil _).symm⟩
    rw [registered, hconns]
    simp [Act.joiner, Act.leaver, Broadcast.evicted, registered]
  unfold replyQueryAwareness
  split
  · exact hkeep rfl rfl
  · split
    · exact hkeep rfl rfl
    · refine hkeep (sendFrame_connections _ _ _) ?_
      rw [sendFrame_trace, disconnects_append]
      exact List.append_nil _

end World

theorem Act.run_departs (act : Act) (w : World Y) : Departs act (act.call w) w (act.run w) := by
  cases act with
  | idle =>
    refine ⟨fun id => ?_, (List.append_nil _).symm⟩
    simp [Act.run, Act.call, Act.joiner, Act.leaver, World.Broadcast.evicted]
  | join order handle => exact w.addConnection_departs order handle
  | answer connId address => exact w.replyQueryAwareness_departs address connId
  | present frame origin => exact w.handleAwareness_departs frame origin
  | leave connId => exact w.removeConnection_departs connId
  | cast build =>
    obtain ⟨hafter, hhooks⟩ := w.broadcastWith_departs build
    refine ⟨fun id => ?_, hhooks.trans (List.append_nil _).symm⟩
    refine (hafter id).trans ?_
    have hsome : ∀ p : Bool, (w.registered id && p) = (decide (none = some id) ||
        (w.registered id && decide (none ≠ some id) && p)) := by
      intro p
      cases p <;> simp
    exact hsome _

theorem Turns.departs {act : Act} {call : Option (World.Broadcast Y)} {w w' : World Y}
    (h : Turns act call w w') : Departs act call w w' := by
  obtain ⟨v, hbefore, rfl, _, hafter⟩ := h
  obtain ⟨hregistered, hhooks⟩ := act.run_departs v
  refine ⟨fun id => ?_, ?_⟩
  · rw [hafter.registered, hregistered, hbefore.registered]
  · rw [hafter.disconnects, hhooks, hbefore.disconnects]
    simp only [hbefore.registered]

/-! ## Runs -/

/-- The connection a label adds. -/
def Label.joiner : Label → Option Nat
  | .command (.addConnection handle _) _ => some handle.connId
  | _ => none

/-- While the connection is registered, no broadcast of the step finds its
queue full. -/
def Actor.KeepsRoom (id : Nat) (a : Actor Y) (l : Label) : Prop :=
  a.world.registered id = true → id ∉ World.Broadcast.evicted (a.broadcastCall l)

/-- How often the `on_disconnect` hooks have run for the connection. -/
def Actor.timesTold (id : Nat) (a : Actor Y) : Nat := (disconnects a.world.trace).count id

section Told

variable {cfg : Configuration} {id : Nat} {a b : Actor Y} {l : Label}

/-- Only an `AddConnection` joins anyone. -/
theorem Actor.act_joiner (a : Actor Y) (l : Label) : (a.act l).joiner = l.joiner := by
  cases l with
  | command cmd o =>
    cases cmd with
    | clientFrame connId data =>
      unfold Actor.act World.commandAct World.frameAct
      dsimp only
      split
      · rfl
      · split
        · rfl
        · split <;> rfl
    | externalFrame data reply =>
      unfold Actor.act World.commandAct World.externalAct
      dsimp only
      split
      · rfl
      · split
        · rfl
        · split <;> rfl
        · rfl
    | _ => rfl
  | flush sched =>
    unfold Actor.act World.flushAct
    dsimp only
    split <;> rfl
  | _ => rfl

/-- Nobody of that id is registered: nothing happens to it. -/
theorem Actor.told_absent (hstep : a.step cfg l = some b) (hnew : l.joiner ≠ some id)
    (ha : a.world.registered id = false) :
    b.world.registered id = false ∧ b.timesTold id = a.timesTold id := by
  obtain ⟨hregistered, hhooks⟩ := (Actor.step_turn hstep).departs
  have hjoiner : (a.act l).joiner ≠ some id := (a.act_joiner l).symm ▸ hnew
  constructor
  · rw [hregistered id, ha, decide_eq_false hjoiner]
    rfl
  · have hnone : (((a.act l).leaver.filter fun id => a.world.registered id).toList).count id = 0 := by
      refine List.count_eq_zero.mpr fun hmem => ?_
      obtain ⟨_, hreg⟩ := Option.filter_eq_some_iff.mp (Option.mem_toList.mp hmem)
      rw [ha] at hreg
      cases hreg
    rw [Actor.timesTold, hhooks, List.count_append, hnone, Nat.add_zero]
    rfl

/-- It is registered: it stays, or it leaves and is told, or it is evicted and
is not. -/
theorem Actor.told_present (hstep : a.step cfg l = some b) (hnew : l.joiner ≠ some id)
    (ha : a.world.registered id = true) :
    (b.world.registered id = true ∧ b.timesTold id = a.timesTold id ∧ a.KeepsRoom id l) ∨
    (b.world.registered id = false ∧ b.timesTold id = a.timesTold id + 1 ∧ a.KeepsRoom id l) ∨
    (b.world.registered id = false ∧ b.timesTold id = a.timesTold id ∧ ¬ a.KeepsRoom id l) := by
  obtain ⟨v, hbefore, hcall, hplain, hafter⟩ := Actor.step_turn hstep
  have hturns : Turns (a.act l) (a.broadcastCall l) a.world b.world :=
    ⟨v, hbefore, hcall, hplain, hafter⟩
  obtain ⟨hregistered, hhooks⟩ := hturns.departs
  have hjoiner : (a.act l).joiner ≠ some id := (a.act_joiner l).symm ▸ hnew
  have htold : b.timesTold id = a.timesTold id
      + (((a.act l).leaver.filter fun id => a.world.registered id).toList).count id := by
    rw [Actor.timesTold, hhooks, List.count_append]
    rfl
  have hreg : b.world.registered id = (decide ((a.act l).leaver ≠ some id) &&
      decide (id ∉ World.Broadcast.evicted (a.broadcastCall l))) := by
    rw [hregistered id, decide_eq_false hjoiner, ha, Bool.false_or, Bool.true_and]
  by_cases hleaver : (a.act l).leaver = some id
  · -- whoever leaves is out of the map before the broadcast is made
    have hroom : id ∉ World.Broadcast.evicted (a.broadcastCall l) := by
      have hact : a.act l = .leave id := by
        cases hact : a.act l with
        | leave connId =>
          rw [hact] at hleaver
          exact congrArg Act.leave (Option.some.inj hleaver)
        | _ =>
          rw [hact] at hleaver
          cases hleaver
      rw [← hcall, hact]
      exact World.removeBroadcast_leaver v id
    refine Or.inr (Or.inl ⟨?_, ?_, fun _ => hroom⟩)
    · rw [hreg, decide_eq_false (not_not.mpr hleaver), Bool.false_and]
    · rw [htold, hleaver, Option.filter_some, if_pos ha]
      simp
  · have hcount : (((a.act l).leaver.filter fun id => a.world.registered id).toList).count id = 0 := by
      refine List.count_eq_zero.mpr fun hmem => hleaver ?_
      exact (Option.filter_eq_some_iff.mp (Option.mem_toList.mp hmem)).1
    rw [hcount, Nat.add_zero] at htold
    rw [decide_eq_true hleaver, Bool.true_and] at hreg
    by_cases hroom : id ∈ World.Broadcast.evicted (a.broadcastCall l)
    · refine Or.inr (Or.inr ⟨?_, htold, fun hkeeps => hkeeps ha hroom⟩)
      rw [hreg, decide_eq_false (not_not.mpr hroom)]
    · exact Or.inl ⟨hreg.trans (decide_eq_true hroom), htold, fun _ => hroom⟩

end Told

section Runs

variable {cfg : Configuration} {id : Nat}

theorem Actor.run_absent {ls : List Label} {a b : Actor Y} (hrun : Actor.Run cfg a ls b)
    (hnew : ∀ l ∈ ls, l.joiner ≠ some id) (ha : a.world.registered id = false) :
    b.world.registered id = false ∧ b.timesTold id = a.timesTold id ∧
      Lts.Along (Actor.step cfg) (fun a l _ => a.KeepsRoom id l) a ls := by
  induction ls generalizing a with
  | nil =>
    rw [Actor.Run, Lts.exec_nil, Option.some.injEq] at hrun
    subst hrun
    exact ⟨ha, rfl, trivial⟩
  | cons l ls ih =>
    obtain ⟨c, hc, hrest⟩ := Lts.exec_cons.mp hrun
    obtain ⟨hreg, htold⟩ := Actor.told_absent hc (hnew l (List.mem_cons_self ..)) ha
    obtain ⟨hreg', htold', halong⟩ := ih hrest (fun k hk => hnew k (List.mem_cons_of_mem _ hk)) hreg
    refine ⟨hreg', htold'.trans htold, Lts.along_step hc (fun h => ?_) halong⟩
    rw [ha] at h
    cases h

/-- From where the connection is registered and not yet told, to the end of a
run: it is still there, or it has been told once, or it was evicted. -/
theorem Actor.run_present {ls : List Label} {a b : Actor Y} (hrun : Actor.Run cfg a ls b)
    (hnew : ∀ l ∈ ls, l.joiner ≠ some id) (ha : a.world.registered id = true)
    (htold : a.timesTold id = 0) :
    let room := Lts.Along (Actor.step cfg) (fun a l _ => a.KeepsRoom id l) a ls
    (b.world.registered id = true ∧ b.timesTold id = 0 ∧ room) ∨
    (b.world.registered id = false ∧ b.timesTold id = 1 ∧ room) ∨
    (b.world.registered id = false ∧ b.timesTold id = 0 ∧ ¬ room) := by
  induction ls generalizing a with
  | nil =>
    rw [Actor.Run, Lts.exec_nil, Option.some.injEq] at hrun
    subst hrun
    exact Or.inl ⟨ha, htold, trivial⟩
  | cons l ls ih =>
    obtain ⟨c, hc, hrest⟩ := Lts.exec_cons.mp hrun
    have hnew' : ∀ k ∈ ls, k.joiner ≠ some id := fun k hk => hnew k (List.mem_cons_of_mem _ hk)
    rcases Actor.told_present hc (hnew l (List.mem_cons_self ..)) ha with
      ⟨hreg, hc', hroom⟩ | ⟨hreg, hc', hroom⟩ | ⟨hreg, hc', hroom⟩
    · rcases ih hrest hnew' hreg (hc'.trans htold) with h | h | h
      · exact Or.inl ⟨h.1, h.2.1, Lts.along_step hc hroom h.2.2⟩
      · exact Or.inr (Or.inl ⟨h.1, h.2.1, Lts.along_step hc hroom h.2.2⟩)
      · exact Or.inr (Or.inr ⟨h.1, h.2.1, fun hall => h.2.2 (Lts.along_cons hall hc).2⟩)
    · obtain ⟨hout, hsame, halong⟩ := Actor.run_absent hrest hnew' hreg
      refine Or.inr (Or.inl ⟨hout, ?_, Lts.along_step hc hroom halong⟩)
      rw [hsame, hc', htold]
    · obtain ⟨hout, hsame, _⟩ := Actor.run_absent hrest hnew' hreg
      refine Or.inr (Or.inr ⟨hout, ?_, fun hall => hroom (Lts.along_cons hall hc).1⟩)
      rw [hsame, hc', htold]

end Runs

/-- In the run `ls` from `a`, the connection's `on_disconnect` hooks have run
exactly once at the end, and at no point while it was in the map. -/
def Actor.ToldOnce (cfg : Configuration) (id : Nat) (a : Actor Y) (ls : List Label) : Prop :=
  (∀ b, Actor.Run cfg a ls b → b.timesTold id = 1) ∧
  ∀ part b, part <+: ls → Actor.Run cfg a part b → b.world.registered id = true →
    b.timesTold id = 0

/-- A connection's stay: it is added, and its socket's `RemoveConnection` is
handled. -/
def stay (handle : ConnHandle) (ack : Nat) (o : Ambient) (during : List Label) (o' : Ambient) :
    List Label :=
  .command (.addConnection handle ack) o ::
    (during ++ [.command (.removeConnection handle.connId) o'])

theorem Actor.join_step {cfg : Configuration} {handle : ConnHandle} {ack : Nat} {o : Ambient}
    {a b : Actor Y} (hstep : a.step cfg (.command (.addConnection handle ack) o) = some b) :
    b.world.registered handle.connId = true ∧
      b.timesTold handle.connId = a.timesTold handle.connId := by
  obtain ⟨hregistered, hhooks⟩ := (Actor.step_turn hstep).departs
  constructor
  · rw [hregistered]
    simp [Actor.act, World.commandAct, Act.joiner]
  · rw [Actor.timesTold, hhooks]
    exact congrArg (List.count _) (List.append_nil _)

theorem Actor.leave_step {cfg : Configuration} {id : Nat} {o : Ambient} {a b : Actor Y}
    (hstep : a.step cfg (.command (.removeConnection id) o) = some b) :
    b.world.registered id = false := by
  obtain ⟨hregistered, _⟩ := (Actor.step_turn hstep).departs
  rw [hregistered]
  simp [Actor.act, World.commandAct, Act.joiner, Act.leaver]

/-- **`on_disconnect` pairs with every connection that is not evicted**: over
a run in which a connection is added once and its `RemoveConnection` handled
later, its hooks run exactly once, and never while it is in the map, if and
only if no broadcast finds its queue full while it is registered. -/
theorem Actor.disconnect_pairs {cfg : Configuration} {name : String} {doc : Y.Doc}
    {queues : Queues} {before during : List Label} {handle : ConnHandle} {ack : Nat}
    {o o' : Ambient} {b : Actor Y}
    (hrun : Actor.Run cfg (Actor.spawn name doc queues)
      (before ++ stay handle ack o during o') b)
    (honce : ∀ l ∈ before ++ during, l.joiner ≠ some handle.connId) :
    Actor.ToldOnce cfg handle.connId (Actor.spawn name doc queues)
        (before ++ stay handle ack o during o') ↔
      Lts.Along (Actor.step cfg) (fun a l _ => a.KeepsRoom handle.connId l)
        (Actor.spawn name doc queues) (before ++ stay handle ack o during o') := by
  have hbefore : ∀ l ∈ before, l.joiner ≠ some handle.connId :=
    fun l hl => honce l (List.mem_append_left _ hl)
  have hafter : ∀ l ∈ during ++ [Label.command (.removeConnection handle.connId) o'],
      l.joiner ≠ some handle.connId := by
    intro l hl
    rcases List.mem_append.mp hl with hl | hl
    · exact honce l (List.mem_append_right _ hl)
    · rw [List.mem_singleton.mp hl]
      simp [Label.joiner]
  obtain ⟨c, hc, hrest⟩ := Lts.exec_append.mp hrun
  obtain ⟨d, hjoin, hstay⟩ := Lts.exec_cons.mp hrest
  obtain ⟨hcreg, hctold, hcroom⟩ := Actor.run_absent hc hbefore rfl
  obtain ⟨hdreg, hdtold⟩ := Actor.join_step hjoin
  have hdzero : d.timesTold handle.connId = 0 := hdtold.trans hctold
  -- the end of the run is past the `RemoveConnection`
  have hend : b.world.registered handle.connId = false := by
    obtain ⟨e, _, hleave⟩ := Lts.exec_snoc.mp hstay
    exact Actor.leave_step hleave
  have hsplit : Lts.Along (Actor.step cfg) (fun a l _ => a.KeepsRoom handle.connId l)
      (Actor.spawn name doc queues) (before ++ stay handle ack o during o') ↔
      Lts.Along (Actor.step cfg) (fun a l _ => a.KeepsRoom handle.connId l) d
        (during ++ [.command (.removeConnection handle.connId) o']) := by
    rw [Lts.along_append hc]
    refine ⟨fun h => (Lts.along_cons h.2 hjoin).2, fun h => ⟨hcroom, Lts.along_step hjoin ?_ h⟩⟩
    intro hreg
    rw [hcreg] at hreg
    cases hreg
  rw [hsplit]
  constructor
  · intro htold
    rcases Actor.run_present hstay hafter hdreg hdzero with h | h | h
    · rw [hend] at h
      cases h.1
    · exact h.2.2
    · have hone := htold.1 b hrun
      rw [h.2.1] at hone
      cases hone
  · intro hroom
    refine ⟨fun b' hb' => ?_, fun part e hpart he hreg => ?_⟩
    · obtain rfl : b = b' := Option.some.inj (hrun.symm.trans hb')
      rcases Actor.run_present hstay hafter hdreg hdzero with h | h | h
      · rw [hend] at h
        cases h.1
      · exact h.2.1
      · exact absurd hroom h.2.2
    · rcases prefix_append_cases hpart with hpart | ⟨part', rfl, hpart'⟩
      · -- before it has joined
        have hout := (Actor.run_absent he (fun l hl => hbefore l (hpart.subset hl)) rfl).1
        rw [hout] at hreg
        cases hreg
      · obtain ⟨c', hc', hrest'⟩ := Lts.exec_append.mp he
        obtain rfl : c = c' := Option.some.inj (hc.symm.trans hc')
        rcases List.prefix_cons_iff.mp hpart' with rfl | ⟨part'', rfl, hpart''⟩
        · rw [Lts.exec_nil, Option.some.injEq] at hrest'
          rw [← hrest', hcreg] at hreg
          cases hreg
        · obtain ⟨d', hjoin', hstay'⟩ := Lts.exec_cons.mp hrest'
          obtain rfl : d = d' := Option.some.inj (hjoin.symm.trans hjoin')
          rcases Actor.run_present hstay' (fun l hl => hafter l (hpart''.subset hl)) hdreg hdzero
            with h | h | h
          · exact h.2.1
          · rw [h.1] at hreg
            cases hreg
          · rw [h.1] at hreg
            cases hreg

/-- A client joins, edits, and goes; nothing takes frames from its queue. -/
def editAndLeave : List Label :=
  stay (OneWriter.conn 1) 0 {} [.command (.clientFrame 1 (OneWriter.editFrame 0)) {}, .flush []] {}

/-- With room in its queue it is told of. -/
theorem Actor.disconnect_pairs_room :
    Actor.ToldOnce {} 1 (OneWriter.start 8) ([] ++ editAndLeave) := by
  refine (Actor.disconnect_pairs (OneWriter.run_after (by decide +kernel)) (by decide)).mpr ?_
  let test (a : Actor OneWriter.yrs) (l : Label) : Bool :=
    decide (1 ∉ World.Broadcast.evicted (a.broadcastCall l))
  have htest : Lts.check (Actor.step {}) test (OneWriter.start 8)
      ([] ++ editAndLeave) = true := by decide +kernel
  have hroom : ∀ (a : Actor OneWriter.yrs) (l : Label) (_ : Actor OneWriter.yrs),
      test a l = true → a.KeepsRoom 1 l := fun _ _ _ h _ => of_decide_eq_true h
  exact Lts.along_of_check hroom htest

/-- Its queue holds one frame, the status of the edit: the broadcast of the
edit evicts it, and the hooks never run. -/
theorem Actor.disconnect_untold :
    ¬ ∀ (cfg : Configuration) (before during : List Label) (handle : ConnHandle) (ack : Nat)
      (o o' : Ambient) (b : Actor OneWriter.yrs),
      Actor.Run cfg (OneWriter.start cfg.outboundCapacity)
        (before ++ stay handle ack o during o') b →
      (∀ l ∈ before ++ during, l.joiner ≠ some handle.connId) →
      Actor.ToldOnce cfg handle.connId (OneWriter.start cfg.outboundCapacity)
        (before ++ stay handle ack o during o') := by
  intro hall
  have htold := hall { outboundCapacity := 1 } []
    [.command (.clientFrame 1 (OneWriter.editFrame 0)) {}, .flush []] (OneWriter.conn 1) 0 {} {} _
    (OneWriter.run_after (by decide +kernel)) (by decide)
  have hone := htold.1 _ (OneWriter.run_after (by decide +kernel))
  revert hone
  decide +kernel

end Hocuspocus
