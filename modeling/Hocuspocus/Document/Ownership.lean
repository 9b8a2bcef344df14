import Hocuspocus.Document.Presence

/-!
# Whose presence it is

Each connection is responsible for some client ids, whose presence goes when
the connection does. The actor puts every client of a connection's presence
frames on that list, also one the frame merely repeats. Here `Chronicle`
carries beside the actor who joined and who announced what, `Owner` reads from
it whose a client id is (whoever announced it first, while that connection is
registered and has not announced it as gone), and `departure_keeps_presence`
says that departures leave the presence of others alone in every run in which
nobody announces what is another's. `Claims.inv` is the invariant behind it:
what is on a connection's list is its own, or nobody's any more.
-/

namespace Hocuspocus

open Clocked

variable {Y : Yrs} {σ : Type}

/-! ## Who announced what -/

/-- An actor, with the ids that have joined and the presence updates its
connections have announced, in order. -/
structure Chronicle (Y : Yrs) where
  actor : Actor Y
  joined : List Nat
  said : List (Nat × Y.AwarenessUpdate)

namespace Chronicle

def start (a : Actor Y) : Chronicle Y := ⟨a, [], []⟩

def step (cfg : Configuration) (s : Chronicle Y) (l : Label) : Option (Chronicle Y) :=
  (s.actor.step cfg l).map fun b =>
    ⟨b, s.joined ++ l.joiner.toList, s.said ++ (s.actor.announces l).toList⟩

/-- Who announced the client first. -/
def announcer (s : Chronicle Y) (client : Nat) : Option Nat :=
  (s.said.find? fun p => decide (client ∈ Y.clients p.2)).map Prod.fst

/-- The connection has announced the client as gone. -/
def retracted (P : Y.Presence σ) (s : Chronicle Y) (client id : Nat) : Bool :=
  s.said.any fun p => decide (p.1 = id) && decide (client ∈ Y.clients p.2) &&
    !present (P.entries p.2 client)

/-- Whose the client is: it was announced first by this connection, which is
still there and has not announced it as gone. -/
structure Owner (P : Y.Presence σ) (s : Chronicle Y) (client id : Nat) : Prop where
  first : s.announcer client = some id
  registered : s.actor.world.registered id = true
  kept : s.retracted P client id = false

/-- A connection that goes takes nobody's presence but its own: the entries
of clients owned by connections that stay are what they were just before. -/
def Keeps (P : Y.Presence σ) (s : Chronicle Y) (l : Label) (t : Chronicle Y) : Prop :=
  ∀ gone, s.actor.world.registered gone = true → t.actor.world.registered gone = false →
    ∀ client id, t.Owner P client id →
      P.table t.actor.world.awareness client = P.table (s.actor.arrived l) client

/-- Nobody announces a client that is another's. -/
def OnlyOwn (P : Y.Presence σ) (s : Chronicle Y) (l : Label) (_ : Chronicle Y) : Prop :=
  ∀ id u, s.actor.announces l = some (id, u) → ∀ client ∈ Y.clients u,
    ∀ owner, s.Owner P client owner → owner = id

theorem step_eq {cfg : Configuration} {s t : Chronicle Y} {l : Label}
    (h : s.step cfg l = some t) : s.actor.step cfg l = some t.actor ∧
      t.joined = s.joined ++ l.joiner.toList ∧ t.said = s.said ++ (s.actor.announces l).toList := by
  obtain ⟨b, hb, rfl⟩ := Option.map_eq_some_iff.mp h
  exact ⟨hb, rfl, rfl⟩

variable {P : Y.Presence σ} {s t : Chronicle Y} {l : Label} {k : Nat}
  (hsaid : t.said = s.said ++ (s.actor.announces l).toList)

include hsaid

/-- The first one stays the first. -/
theorem announcer_some {id : Nat} (h : s.announcer k = some id) : t.announcer k = some id := by
  obtain ⟨p, hp, rfl⟩ := Option.map_eq_some_iff.mp h
  rw [announcer, hsaid, List.find?_append, hp]
  rfl

/-- A client nobody has announced is whose the step announces it. -/
theorem announcer_none {id : Nat} {u : Y.AwarenessUpdate} (h : s.announcer k = none)
    (hnow : s.actor.announces l = some (id, u)) (hk : k ∈ Y.clients u) :
    t.announcer k = some id := by
  rw [announcer, hsaid, hnow, List.find?_append, Option.map_eq_none_iff.mp h]
  have hfind : [(id, u)].find? (fun p => decide (k ∈ Y.clients p.2)) = some (id, u) :=
    List.find?_cons_of_pos (decide_eq_true hk)
  exact congrArg (Option.map Prod.fst) hfind

theorem retracted_mono {id : Nat} (h : s.retracted P k id = true) :
    t.retracted P k id = true := by
  rw [retracted, hsaid, List.any_append, Bool.or_eq_true]
  exact Or.inl h

end Chronicle

/-! ## The invariant -/

/-- What is on a connection's list is its own, or nobody's any more. -/
structure Claims (P : Y.Presence σ) (s : Chronicle Y) : Prop where
  claimed : ∀ id conn, s.actor.world.connections.get? id = some conn →
    ∀ k ∈ conn.clientIds, ∃ owner, s.announcer k = some owner ∧
      (owner = id ∨ s.actor.world.registered owner = false ∨ s.retracted P k owner = true)
  announced : ∀ p ∈ s.said, p.1 ∈ s.joined
  registered : ∀ id, s.actor.world.registered id = true → id ∈ s.joined

theorem Claims.start (P : Y.Presence σ) (name : String) (doc : Y.Doc) (queues : Queues) :
    Claims P (Chronicle.start (Actor.spawn name doc queues)) where
  claimed _ _ h := by cases h
  announced _ h := by cases h
  registered _ h := by cases h

/-- Only a registered connection announces. -/
theorem Actor.announces_registered {a : Actor Y} {l : Label} {id : Nat} {u : Y.AwarenessUpdate}
    (h : a.announces l = some (id, u)) : a.world.registered id = true := by
  obtain ⟨frame, hact⟩ : ∃ frame, a.act l = .present frame (.connection id) := by
    unfold Actor.announces at h
    cases hact : a.act l with
    | present frame origin =>
      rw [hact] at h
      cases origin with
      | connection connId =>
        obtain ⟨v, _, hv⟩ := Option.map_eq_some_iff.mp h
        cases hv
        exact ⟨frame, rfl⟩
      | redis => cases h
      | «local» => cases h
    | _ =>
      rw [hact] at h
      cases h
  -- of the commands only a client's frame leads to this act
  cases l with
  | command cmd o =>
    cases cmd with
    | clientFrame connId data =>
      have hframe : a.world.frameAct connId data = .present frame (.connection id) := hact
      unfold World.frameAct at hframe
      split at hframe
      next => cases hframe
      next conn hconn =>
        split at hframe
        next => cases hframe
        next =>
          split at hframe
          next =>
            cases hframe
            rw [World.registered, hconn]
            rfl
          all_goals cases hframe
    | externalFrame data reply =>
      have hframe : World.externalAct Y data = .present frame (.connection id) := hact
      unfold World.externalAct at hframe
      split at hframe
      next => cases hframe
      next =>
        split at hframe
        next => cases hframe
        next => split at hframe <;> cases hframe
        next => cases hframe
    | addConnection => cases hact
    | removeConnection => cases hact
    | directApply => cases hact
  | flush sched =>
    have hflush : (a.world.withSched sched).flushAct = .present frame (.connection id) := hact
    unfold World.flushAct at hflush
    split at hflush <;> cases hflush
  | _ => cases hact

section Step

variable {cfg : Configuration} {P : Y.Presence σ} {s t : Chronicle Y} {l : Label}

variable (hstep : s.step cfg l = some t) (hnew : ∀ id, l.joiner = some id → id ∉ s.joined)

include hstep hnew in
/-- An id that has left does not come back. -/
theorem Chronicle.stays_out {id : Nat} (hjoined : id ∈ s.joined)
    (hout : s.actor.world.registered id = false) : t.actor.world.registered id = false := by
  obtain ⟨hactor, _, _⟩ := Chronicle.step_eq hstep
  by_contra hreg
  rw [Bool.not_eq_false] at hreg
  obtain ⟨_, _, _, hjoin | hin⟩ := Actor.registered_settled hactor hreg
  · exact hnew id hjoin hjoined
  · rw [hout] at hin
    cases hin

include hstep hnew in
/-- What holds of the lists before anyone leaves. -/
theorem Claims.settled (h : Claims P s)
    (hempty : ∀ handle ack o, l = .command (.addConnection handle ack) o → handle.clientIds = [])
    (hown : s.OnlyOwn P l t) {id : Nat} {conn : ConnHandle}
    (hconn : (s.actor.settled l).get? id = some conn) {k : Nat} (hk : k ∈ conn.clientIds) :
    ∃ owner, t.announcer k = some owner ∧
      (owner = id ∨ t.actor.world.registered owner = false ∨ t.retracted P k owner = true) := by
  obtain ⟨hactor, _, hsaid⟩ := Chronicle.step_eq hstep
  have hjoined : ∀ owner, s.announcer k = some owner → owner ∈ s.joined := by
    intro owner howner
    obtain ⟨p, hp, rfl⟩ := Option.map_eq_some_iff.mp howner
    exact h.announced p (List.mem_of_find?_eq_some hp)
  have hbefore : ∀ old, s.actor.world.connections.get? id = some old → k ∈ old.clientIds →
      ∃ owner, t.announcer k = some owner ∧
        (owner = id ∨ t.actor.world.registered owner = false ∨ t.retracted P k owner = true) := by
    intro old hold hk
    obtain ⟨owner, howner, hcases⟩ := h.claimed id old hold k hk
    refine ⟨owner, Chronicle.announcer_some hsaid howner, ?_⟩
    rcases hcases with heq | hout | hretracted
    · exact Or.inl heq
    · exact Or.inr (Or.inl (Chronicle.stays_out hstep hnew (hjoined owner howner) hout))
    · exact Or.inr (Or.inr (Chronicle.retracted_mono hsaid hretracted))
  rcases Actor.settled_cases hconn with ⟨_, ack, o, hl⟩ | ⟨u, old, hnow, hold, rfl⟩ | hold
  · rw [hempty conn ack o hl] at hk
    cases hk
  · rcases (mem_claimClients _ _).mp hk with hk | hk
    · exact hbefore old hold hk
    · -- newly on the list: the first to announce it, unless it is nobody's
      cases howner : s.announcer k with
      | none => exact ⟨id, Chronicle.announcer_none hsaid howner hnow hk, Or.inl rfl⟩
      | some owner =>
        refine ⟨owner, Chronicle.announcer_some hsaid howner, ?_⟩
        cases hreg : s.actor.world.registered owner with
        | false => exact Or.inr (Or.inl (Chronicle.stays_out hstep hnew (hjoined owner howner) hreg))
        | true =>
          cases hretracted : s.retracted P k owner with
          | true => exact Or.inr (Or.inr (Chronicle.retracted_mono hsaid hretracted))
          | false => exact Or.inl (hown id u hnow k hk owner ⟨howner, hreg, hretracted⟩)
  · exact hbefore conn hold hk

include hstep hnew in
theorem Claims.inv (h : Claims P s)
    (hempty : ∀ handle ack o, l = .command (.addConnection handle ack) o → handle.clientIds = [])
    (hown : s.OnlyOwn P l t) : Claims P t := by
  obtain ⟨hactor, hjoined, hsaid⟩ := Chronicle.step_eq hstep
  refine ⟨fun id conn hconn k hk => ?_, fun p hp => ?_, fun id hreg => ?_⟩
  · obtain ⟨conn', hconn', hsettled, _⟩ :=
      Actor.registered_settled hactor (Option.isSome_iff_exists.mpr ⟨conn, hconn⟩)
    obtain rfl : conn = conn' := Option.some.inj (hconn.symm.trans hconn')
    exact h.settled hstep hnew hempty hown hsettled hk
  · rw [hjoined, List.mem_append]
    rw [hsaid, List.mem_append] at hp
    rcases hp with hp | hp
    · exact Or.inl (h.announced p hp)
    · exact Or.inl (h.registered p.1 (Actor.announces_registered (Option.mem_toList.mp hp)))
  · rw [hjoined, List.mem_append]
    obtain ⟨_, _, _, hjoin | hin⟩ := Actor.registered_settled hactor hreg
    · exact Or.inr (Option.mem_toList.mpr hjoin)
    · exact Or.inl (h.registered id hin)

include hstep hnew in
/-- Nobody's entries go but those of the ones who leave. -/
theorem Claims.keeps (h : Claims P s)
    (hempty : ∀ handle ack o, l = .command (.addConnection handle ack) o → handle.clientIds = [])
    (hown : s.OnlyOwn P l t) : s.Keeps P l t := by
  intro _ _ _ k id howner
  obtain ⟨hactor, _, _⟩ := Chronicle.step_eq hstep
  have hleaves := Actor.step_leaves hactor
  rw [hleaves.awareness]
  refine removeAll_other P _ _ fun hk => ?_
  obtain ⟨conn, hgone, hk⟩ := List.mem_flatMap.mp hk
  obtain ⟨owner, hfirst, hcases⟩ := h.settled hstep hnew hempty hown (hleaves.gone conn hgone) hk
  obtain rfl : id = owner := Option.some.inj (howner.first.symm.trans hfirst)
  rcases hcases with rfl | hout | hretracted
  · -- the owner itself would be gone
    obtain ⟨conn', hconn', _, _⟩ := Actor.registered_settled hactor howner.registered
    have hconns := hleaves.connections conn.connId
    rw [if_pos (List.mem_map_of_mem hgone), hconn'] at hconns
    cases hconns
  · rw [howner.registered] at hout
    cases hout
  · rw [howner.kept] at hretracted
    cases hretracted

end Step

/-! ## Runs -/

/-- From a state in which the lists are right, and as long as only new
connections join. -/
theorem Claims.run {cfg : Configuration} {P : Y.Presence σ} :
    ∀ {ls : List Label} {s : Chronicle Y}, Claims P s →
      (s.joined ++ ls.filterMap Label.joiner).Nodup →
      (∀ l ∈ ls, ∀ handle ack o, l = .command (.addConnection handle ack) o →
        handle.clientIds = []) →
      Lts.Along (Chronicle.step cfg) (Chronicle.OnlyOwn P) s ls →
      Lts.Along (Chronicle.step cfg) (Chronicle.Keeps P) s ls := by
  intro ls
  induction ls with
  | nil => intro _ _ _ _ _; trivial
  | cons l ls ih =>
    intro s h hunique hempty hown t ht
    obtain ⟨hnow, hlater⟩ := Lts.along_cons hown ht
    have hfresh := hempty l (List.mem_cons_self ..)
    have hjoins : s.joined ++ (l :: ls).filterMap Label.joiner
        = (s.joined ++ l.joiner.toList) ++ ls.filterMap Label.joiner := by
      rw [List.append_assoc, List.filterMap_cons]
      cases l.joiner <;> rfl
    rw [hjoins] at hunique
    have hnew : ∀ id, l.joiner = some id → id ∉ s.joined := by
      intro id hid hmem
      have hleft := (List.nodup_append.mp hunique).1
      exact (List.nodup_append.mp hleft).2.2 id hmem id (Option.mem_toList.mpr hid) rfl
    refine ⟨h.keeps ht hnew hfresh hnow, ih (h.inv ht hnew hfresh hnow) ?_ ?_ hlater⟩
    · rw [(Chronicle.step_eq ht).2.1]
      exact hunique
    · exact fun l' hl' => hempty l' (List.mem_cons_of_mem _ hl')

/-- A departing connection takes only its own presence, in every run in which
nobody announces what is another's. -/
theorem Actor.departure_keeps_presence (P : Y.Presence σ) {cfg : Configuration} {name : String}
    {doc : Y.Doc} {queues : Queues} {ls : List Label}
    (hunique : (ls.filterMap Label.joiner).Nodup)
    (hempty : ∀ l ∈ ls, ∀ handle ack o, l = .command (.addConnection handle ack) o →
      handle.clientIds = [])
    (hown : Lts.Along (Chronicle.step cfg) (Chronicle.OnlyOwn P)
      (Chronicle.start (Actor.spawn name doc queues)) ls) :
    Lts.Along (Chronicle.step cfg) (Chronicle.Keeps P)
      (Chronicle.start (Actor.spawn name doc queues)) ls :=
  (Claims.start P name doc queues).run hunique hempty hown

/-- Two clients join and each shows itself, as client 7 and client 8; then
the second sends one more entry. -/
def showAndSend (client clock : Nat) : List Label :=
  [.command (.addConnection (OneWriter.conn 1) 0) {}, .command (.addConnection (OneWriter.conn 2) 0) {},
    .command (.clientFrame 1 (OneWriter.showFrame 7 1)) {}, .command (.clientFrame 2 (OneWriter.showFrame 8 1)) {},
    .command (.clientFrame 2 (OneWriter.showFrame client clock)) {}]

def leaveSecond : List Label := [.command (.removeConnection 2) {}]

/-- The second one moves, and leaves. -/
theorem Actor.departure_keeps_presence_moved :
    Lts.Along (Chronicle.step {}) (Chronicle.Keeps OneWriter.presence)
      (Chronicle.start (OneWriter.start 8)) (showAndSend 8 2 ++ leaveSecond) := by
  refine Actor.departure_keeps_presence OneWriter.presence (by decide)
    (OneWriter.fresh_of_all (by decide)) ?_
  let test (s : Chronicle OneWriter.yrs) (l : Label) : Bool :=
    (s.actor.announces l).elim true fun p => (OneWriter.yrs.clients p.2).all fun k =>
      (s.announcer k).elim true fun owner => decide (owner = p.1)
  have htest : Lts.check (Chronicle.step {}) test (Chronicle.start (OneWriter.start 8))
      (showAndSend 8 2 ++ leaveSecond) = true := by decide +kernel
  have hown : ∀ (s : Chronicle OneWriter.yrs) (l : Label) (t : Chronicle OneWriter.yrs),
      test s l = true → s.OnlyOwn OneWriter.presence l t := by
    intro s l t h id u hnow k hk owner howner
    have hall : ((s.actor.announces l).elim true fun p => (OneWriter.yrs.clients p.2).all fun k =>
      (s.announcer k).elim true fun owner => decide (owner = p.1)) = true := h
    rw [hnow] at hall
    have hfirst := List.all_eq_true.mp hall k hk
    rw [howner.first] at hfirst
    exact of_decide_eq_true hfirst
  exact Lts.along_of_check hown htest

/-- It repeats what it was sent about the first, and leaves: the presence of
the first, which is still there, goes with it. -/
theorem Actor.departure_takes_presence :
    ¬ ∀ (cfg : Configuration) (ls : List Label), (ls.filterMap Label.joiner).Nodup →
      (∀ l ∈ ls, ∀ handle ack o, l = .command (.addConnection handle ack) o →
        handle.clientIds = []) →
      Lts.Along (Chronicle.step cfg) (Chronicle.Keeps OneWriter.presence)
        (Chronicle.start (OneWriter.start cfg.outboundCapacity)) ls := by
  intro hall
  have halong := hall {} (showAndSend 7 1 ++ leaveSecond) (by decide)
    (OneWriter.fresh_of_all (by decide))
  have hlast := Lts.along_last halong (Lts.exec_reach (by decide +kernel))
    (Lts.step_reach (by decide +kernel))
  have hkept := hlast 2 (by decide +kernel) (by decide +kernel) 7 1
    ⟨by decide +kernel, by decide +kernel, by decide +kernel⟩
  revert hkept
  decide +kernel

end Hocuspocus
