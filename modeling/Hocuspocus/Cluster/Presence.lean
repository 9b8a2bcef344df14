import Hocuspocus.Cluster.Spread
import Hocuspocus.Document.Mirror
import Hocuspocus.OneWriter.Nodes

/-!
# Presence on resident nodes

The facts are versions of presence entries. A node publishes the entries that
a client announces, so whatever version one node has reached the others are
told of. What it takes away itself, when a connection leaves or is evicted, is
told to its own connections only: `remove_connection` does not run
`on_awareness_update`.
-/

namespace Hocuspocus

open Clocked

variable {Y : Yrs} {σ : Type}

/-- The presence update in a frame. -/
def presenceUpdateIn (Y : Yrs) (frame : Bytes) : Option Y.AwarenessUpdate :=
  match IncomingFrame.parse Y frame with
  | none => none
  | some f =>
    match f.messageType with
    | .awareness => presenceIn Y f
    | _ => none

theorem presenceUpdateIn_presence (hY : Y.Lib0Laws) (name : String) (update : Bytes) :
    presenceUpdateIn Y (Y.writeString name ++ Y.writeVar 1 ++ Y.writeBuf update)
      = Y.decodeAwareness update := by
  have hparse : IncomingFrame.parse Y (Y.writeString name ++ Y.writeVar 1 ++ Y.writeBuf update)
      = some ⟨name, .awareness, Y.writeBuf update⟩ :=
    parse_envelope hY name .awareness (Y.writeBuf update)
  have hbuf := hY.readBuf_write update []
  rw [List.append_nil] at hbuf
  unfold presenceUpdateIn
  rw [hparse]
  dsimp only
  rw [presenceIn, hbuf]
  rfl

theorem presenceUpdateIn_sync (hY : Y.Lib0Laws) (name : String) (ty : MessageType)
    (hty : ty ≠ .awareness) (payload : Bytes) :
    presenceUpdateIn Y (((OutgoingMessage.new Y name).writeOpcode Y ty).encoder ++ payload)
      = none := by
  unfold presenceUpdateIn
  rw [parse_envelope hY]
  dsimp only
  split
  · exact absurd rfl hty
  · rfl

/-! ## The step of an actor -/

theorem World.syncDeed_present (o : Ambient) (conn : ConnHandle) (f frame : IncomingFrame)
    (origin : Origin) : World.syncDeed Y o conn f ≠ .present frame origin := by
  unfold World.syncDeed
  split
  · split <;> intro h <;> cases h
  · split <;> intro h <;> cases h
  · intro h
    cases h

theorem World.externalSyncDeed_present (w : World Y) (f frame : IncomingFrame) (reply : Bool)
    (origin : Origin) : w.externalSyncDeed f reply ≠ .present frame origin := by
  unfold World.externalSyncDeed
  split
  · split <;> intro h <;> cases h
  all_goals intro h; cases h

theorem World.frameAct_present (o : Ambient) (w : World Y) (connId : Nat) (data : Bytes)
    (frame : IncomingFrame) (origin : Origin) : w.frameAct connId data = .present frame origin ↔
      w.frameDeed o connId data = .present frame origin := by
  unfold World.frameAct World.frameDeed
  cases w.connections.get? connId with
  | none => exact ⟨fun h => (by cases h), fun h => (by cases h)⟩
  | some conn =>
    cases IncomingFrame.parse Y data with
    | none => exact ⟨fun h => (by cases h), fun h => (by cases h)⟩
    | some f =>
      dsimp only
      cases f.messageType with
      | awareness => exact ⟨fun h => (by cases h; rfl), fun h => (by cases h; rfl)⟩
      | sync => exact ⟨fun h => (by cases h), fun h => absurd h (syncDeed_present o conn f _ _)⟩
      | syncReply => exact ⟨fun h => (by cases h), fun h => absurd h (syncDeed_present o conn f _ _)⟩
      | _ => exact ⟨fun h => (by cases h), fun h => (by cases h)⟩

theorem World.externalAct_present (w : World Y) (data : Bytes) (reply : Bool)
    (frame : IncomingFrame) (origin : Origin) : World.externalAct Y data = .present frame origin ↔
      w.externalDeed data reply = .present frame origin := by
  unfold World.externalAct World.externalDeed
  cases IncomingFrame.parse Y data with
  | none => exact ⟨fun h => (by cases h), fun h => (by cases h)⟩
  | some f =>
    dsimp only
    cases f.messageType with
    | awareness => exact ⟨fun h => (by cases h; rfl), fun h => (by cases h; rfl)⟩
    | sync => exact ⟨fun h => (by cases h), fun h => absurd h (externalSyncDeed_present w f _ _ _)⟩
    | syncReply =>
      exact ⟨fun h => (by cases h), fun h => absurd h (externalSyncDeed_present w f _ _ _)⟩
    | broadcastStateless =>
      refine ⟨fun h => ?_, fun h => (by cases h)⟩
      dsimp only at h
      split at h <;> cases h
    | queryAwareness =>
      refine ⟨fun h => (by cases h), fun h => ?_⟩
      dsimp only at h
      split at h
      · split at h <;> cases h
      · cases h
    | _ => exact ⟨fun h => (by cases h), fun h => (by cases h)⟩

/-- A step about presence is one in both readings of steps. -/
theorem Actor.act_present {a : Actor Y} {l : Label} {frame : IncomingFrame} {origin : Origin} :
    a.act l = .present frame origin ↔ a.deed l = .present frame origin := by
  cases l with
  | command cmd o =>
    cases cmd with
    | clientFrame connId data => exact a.world.frameAct_present o connId data frame origin
    | externalFrame data reply => exact a.world.externalAct_present data reply frame origin
    | _ => exact ⟨fun h => (by cases h), fun h => (by cases h)⟩
  | flush sched =>
    refine ⟨fun h => ?_, fun h => (by cases h)⟩
    have hflush : (a.world.withSched sched).flushAct = .present frame origin := h
    unfold World.flushAct at hflush
    split at hflush <;> cases hflush
  | _ => exact ⟨fun h => (by cases h), fun h => (by cases h)⟩

/-- An accepted presence update has arrived. -/
theorem Actor.arrived_present {a : Actor Y} {l : Label} {frame : IncomingFrame} {origin : Origin}
    (h : a.deed l = .present frame origin) : a.arrived l
      = (presenceIn Y frame).elim a.world.awareness
        fun u => (Y.applyAwareness a.world.awareness u).1 := by
  rw [Actor.arrived, Actor.act_present.mpr h, Act.arrived]
  cases presenceIn Y frame <;> rfl

/-- A step about anything else finds the table as it was. -/
theorem Actor.arrived_other {a : Actor Y} {l : Label}
    (h : ∀ frame origin, a.deed l ≠ .present frame origin) : a.arrived l = a.world.awareness := by
  rw [Actor.arrived]
  cases hact : a.act l with
  | present frame origin => exact absurd (Actor.act_present.mp hact) (h frame origin)
  | _ => rfl

variable (P : Y.Presence σ)

/-- Nobody who leaves in the step has a client id on its list: the removal of
one, with a state or without, raises its clock here and nowhere else. -/
def Actor.DepartsUnclaimed (a : Actor Y) (l : Label) : Prop :=
  ∀ conn ∈ a.gone l, conn.clientIds = []

/-- The versions an actor's presence table has reached. -/
def Actor.versions (a : Actor Y) : Set (Nat × Nat) := (P.table a.world.awareness).versions

/-- What a frame tells every table that gets it. -/
def presenceFacts (frame : Bytes) : Set (Nat × Nat) :=
  {x | ∃ u, presenceUpdateIn Y frame = some u ∧ (∀ a, (Y.applyAwareness a u).2 = true) ∧
    x ∈ (P.entries u).versions}

variable {P}

section

variable {cfg : Configuration} {a b : Actor Y} {l : Label} (hstep : a.step cfg l = some b)

include hstep

/-- The table stays as it is if nobody who leaves has claimed a client. -/
theorem Actor.step_departs (hdeparts : a.DepartsUnclaimed l) :
    b.world.awareness = a.arrived l := by
  rw [(Actor.step_leaves hstep).awareness, List.flatMap_eq_nil_iff.mpr hdeparts]
  rfl

theorem Actor.arrived_versions : (P.table (a.arrived l)).versions ⊆ b.versions P :=
  versions_subset.mpr (Actor.step_rank P hstep)

theorem Actor.step_versions : a.versions P ⊆ b.versions P :=
  versions_subset.mpr fun k =>
    Nat.le_trans (Act.arrived_rank P a.world (a.act l) k) (Actor.step_rank P hstep k)

end

theorem presenceFacts_none {frame : Bytes} (h : presenceUpdateIn Y frame = none) :
    presenceFacts P frame = ∅ := by
  refine Set.eq_empty_iff_forall_notMem.mpr ?_
  rintro x ⟨u, hu, _⟩
  rw [h] at hu
  cases hu

/-- The frame of an update tells its entries. -/
theorem presenceFacts_update (hY : Y.Lib0Laws) (name : String) (u : Y.AwarenessUpdate) :
    presenceFacts P (Y.writeString name ++ Y.writeVar 1 ++ Y.writeBuf (Y.encodeAwareness u))
      = (P.entries u).versions := by
  obtain ⟨u', hdec, hentries, hok⟩ := P.decode_encode u
  have hframe := (presenceUpdateIn_presence hY name (Y.encodeAwareness u)).trans hdec
  ext x
  constructor
  · rintro ⟨v, hv, _, hx⟩
    obtain rfl : u' = v := Option.some.inj (hframe.symm.trans hv)
    rwa [← hentries]
  · exact fun hx => ⟨u', hframe, hok, hentries ▸ hx⟩

theorem clients_known (P : Y.Presence σ) {a : Y.Awareness} {u : Y.AwarenessUpdate}
    (hok : (Y.applyAwareness a u).2 = true) :
    ∀ k ∈ Y.clients u, P.table (Y.applyAwareness a u).1 k ≠ none := by
  intro k hk hnone
  have hzero := rank_eq_zero.mpr hnone
  rw [P.table_apply a u hok, rank_merge] at hzero
  exact (P.mem_clients u k).mp hk (rank_eq_zero.mp (by omega))

/-- What is announced of an accepted update are the entries its clients now
have, and they are all that has changed. -/
theorem announced_entries (P : Y.Presence σ) {a : Y.Awareness} {u out : Y.AwarenessUpdate}
    (hok : (Y.applyAwareness a u).2 = true)
    (hout : Y.updateWithClients (Y.applyAwareness a u).1 (Y.clients u) = some out) :
    (P.entries out).versions ⊆ (P.table (Y.applyAwareness a u).1).versions ∧
    (P.table (Y.applyAwareness a u).1).versions
      ⊆ (P.table a).versions ∪ (P.entries out).versions := by
  obtain ⟨out', hout', hentries⟩ := P.updateWith _ _ (clients_known P hok)
  obtain rfl : out = out' := Option.some.inj (hout.symm.trans hout')
  constructor
  · refine versions_subset.mpr fun k => ?_
    rcases hentries k with ⟨_, hk⟩ | ⟨_, hk⟩
    · rw [hk]
    · rw [hk]
      exact Nat.zero_le _
  · rintro ⟨k, r⟩ hr
    have hr' : r ≤ rank (P.table (Y.applyAwareness a u).1 k) := hr
    rcases hentries k with ⟨_, hk⟩ | ⟨hout, _⟩
    · refine Or.inr ?_
      show r ≤ rank (P.entries out k)
      rwa [hk]
    · have hnone : P.entries u k = none := not_not.mp (mt (P.mem_clients u k).mpr hout)
      rw [P.table_apply a u hok, Table.merge_of_none hnone] at hr'
      exact Or.inl hr'

section

variable {cfg : Configuration} {a b : Actor Y} {l : Hocuspocus.Label}
  (hstep : a.step cfg l = some b)

include hstep

/-- What a step publishes of presence, the table has reached. -/
theorem publications_versions (hY : Y.Lib0Laws) (P : Y.Presence σ) :
    ∀ frame ∈ Cluster.publications a b, presenceFacts P frame ⊆ b.versions P := by
  intro frame hframe
  generalize hd : a.deed l = deed
  cases deed with
  | nothing =>
    rw [Cluster.publications_nothing hstep hd] at hframe
    exact absurd hframe List.not_mem_nil
  | change update origin =>
    rcases Cluster.publications_change hstep hd with h | ⟨_, u, _, _, h⟩
    · rw [h] at hframe
      exact absurd hframe List.not_mem_nil
    · rw [h] at hframe
      rw [List.mem_singleton.mp hframe]
      exact (presenceFacts_none (presenceUpdateIn_sync hY a.world.name .sync (by decide)
        _)).subset.trans (Set.empty_subset _)
  | present f origin =>
    rw [Cluster.publications_eq] at hframe
    rcases (Actor.step_present hstep hd).2 with ⟨hpublics, _⟩ |
      ⟨update, out, hread, hok, hout, hpublics⟩
    · rw [hpublics] at hframe
      exact absurd hframe List.not_mem_nil
    · rw [hpublics] at hframe
      obtain ⟨e, he, hpub⟩ := List.mem_filterMap.mp hframe
      rw [List.mem_singleton.mp he, RedisScaling.publication, RedisScaling.onAwarenessUpdate] at hpub
      split at hpub
      · cases hpub
      · rw [← Option.some.inj hpub, presenceFacts_update hY]
        refine (announced_entries P hok hout).1.trans ?_
        -- what is announced is read out of the table the update has arrived in
        have harrived := Actor.arrived_present hd
        rw [hread, Option.elim_some] at harrived
        rw [← harrived]
        exact Actor.arrived_versions hstep
  | answer f =>
    rw [Cluster.publications_answer hstep hd, RedisScaling.replyFrame] at hframe
    obtain rfl : f = frame := by
      split at hframe
      · exact (Option.some.inj (Option.mem_toList.mp hframe))
      · cases Option.mem_toList.mp hframe
    obtain ⟨data, hforeign⟩ := Actor.deed_answer hd
    cases hforeign with
    | state sv hq =>
      exact (presenceFacts_none (presenceUpdateIn_sync hY a.world.name .syncReply (by decide)
        _)).subset.trans (Set.empty_subset _)
    | table u hu hq =>
      refine (presenceFacts_update hY a.world.name u).subset.trans ?_
      refine subset_trans ?_ (Actor.step_versions hstep)
      obtain ⟨u', hu', hentries⟩ := P.updateAll a.world.awareness
      obtain rfl : u = u' := Option.some.inj (hu.symm.trans hu')
      -- the answer lists the table as it stands
      refine versions_subset.mpr fun k => ?_
      rcases hentries k with hk | ⟨hk, _⟩
      · rw [hk]
      · rw [hk]
        exact Nat.zero_le _

end

/-- A frame from a peer arrives as its presence update. -/
theorem Actor.foreign_arrived (a : Actor Y) (frame : Bytes) (o : Ambient) :
    a.arrived (.command (.externalFrame frame true) o)
      = (presenceUpdateIn Y frame).elim a.world.awareness
        fun u => (Y.applyAwareness a.world.awareness u).1 := by
  have hact : a.act (.command (.externalFrame frame true) o) = World.externalAct Y frame := rfl
  rw [Actor.arrived, hact]
  unfold World.externalAct presenceUpdateIn
  cases IncomingFrame.parse Y frame with
  | none => rfl
  | some f =>
    dsimp only
    cases f.messageType with
    | awareness =>
      rw [Act.arrived]
      cases presenceIn Y f <;> rfl
    | broadcastStateless =>
      dsimp only
      split <;> rfl
    | _ => rfl

/-- Presence tables as a reading of frames and actors. -/
def Lore.presence (hY : Y.Lib0Laws) (P : Y.Presence σ) : Lore Y (Nat × Nat) where
  facts := presenceFacts P
  known := Actor.versions P
  keeps := fun _ _ _ _ hstep => Actor.step_versions hstep
  heard := by
    rintro cfg a b frame o hstep x ⟨u, hu, hok, hx⟩
    refine Actor.arrived_versions hstep ?_
    rw [Actor.foreign_arrived, hu, Option.elim_some, P.table_apply _ _ (hok _), versions_merge]
    exact Or.inr hx
  said := fun _ _ _ _ hstep => publications_versions hstep hY P

/-- A client's presence frame is not from Redis. -/
theorem Actor.deed_own_present {a : Actor Y} {l : Label} (hown : Cluster.fromPeer l = false)
    {frame : IncomingFrame} {origin : Origin} (h : a.deed l = .present frame origin) :
    origin.isRedis = false := by
  cases l with
  | command cmd o =>
    cases cmd with
    | clientFrame connId data =>
      have hframe : a.world.frameDeed o connId data = .present frame origin := h
      rcases a.world.frameDeed_cases o connId data with hd | ⟨_, ⟨u, id, hd⟩ | ⟨f, hd⟩⟩
      · rw [hd] at hframe
        cases hframe
      · rw [hd] at hframe
        cases hframe
      · rw [hd] at hframe
        cases hframe
        rfl
    | externalFrame data reply => cases hown
    | directApply u ack => cases h
    | addConnection handle ack => cases h
    | removeConnection connId => cases h
  | flush | storeResult | deadline | mailboxClosed | storeTask | queues => cases h

/-- The update of the frame is accepted by every table. -/
def Fair (Y : Yrs) (frame : Bytes) : Prop :=
  ∀ u, presenceUpdateIn Y frame = some u → ∀ a, (Y.applyAwareness a u).2 = true

theorem publications_fair (hY : Y.Lib0Laws) (P : Y.Presence σ) {cfg : Configuration}
    {a b : Actor Y} {l : Hocuspocus.Label} (hstep : a.step cfg l = some b) :
    ∀ frame ∈ Cluster.publications a b, Fair Y frame := by
  intro frame hframe u hu
  cases Cluster.publications_publishable hstep frame hframe with
  | sync ty hty payload =>
    have hnone := presenceUpdateIn_sync hY a.world.name ty
      (by rcases hty with rfl | rfl <;> decide) payload
    rw [hnone] at hu
    cases hu
  | presence v =>
    obtain ⟨v', hdec, _, hok⟩ := P.decode_encode v
    rw [presenceUpdateIn_presence hY, hdec] at hu
    exact Option.some.inj hu ▸ hok

section

variable {cfg : Configuration} {a b : Actor Y} {l : Hocuspocus.Label}

/-- What a frame from a peer changes, it has told. -/
theorem foreign_reached {frame : Bytes} {o : Ambient} (hfair : Fair Y frame)
    (hstep : a.step cfg (.command (.externalFrame frame true) o) = some b)
    (hdeparts : a.DepartsUnclaimed (.command (.externalFrame frame true) o)) :
    b.versions P ⊆ a.versions P ∪ presenceFacts P frame := by
  rw [Actor.versions, Actor.step_departs hstep hdeparts, Actor.foreign_arrived]
  cases hu : presenceUpdateIn Y frame with
  | none => exact Set.subset_union_left
  | some u =>
    rw [Option.elim_some, P.table_apply _ _ (hfair u hu _), versions_merge]
    exact Set.union_subset_union_right _ fun x hx => ⟨u, hu, hfair u hu, hx⟩

/-- What a client's frame changes is published. -/
theorem own_reached (hY : Y.Lib0Laws) (hstep : a.step cfg l = some b)
    (hown : Cluster.fromPeer l = false) (hdeparts : a.DepartsUnclaimed l) : b.versions P
      ⊆ a.versions P ∪ Cluster.told (.presence hY P) (Cluster.publications a b) := by
  rw [Actor.versions, Actor.step_departs hstep hdeparts]
  by_cases hpresent : ∃ frame origin, a.deed l = .present frame origin
  · obtain ⟨frame, origin, hd⟩ := hpresent
    rw [Actor.arrived_present hd]
    cases hread : presenceIn Y frame with
    | none => exact Set.subset_union_left
    | some update =>
      rw [Option.elim_some]
      cases hok : (Y.applyAwareness a.world.awareness update).2 with
      | false =>
        rw [P.table_err _ _ hok]
        exact Set.subset_union_left
      | true =>
        rcases (Actor.step_present hstep hd).2 with ⟨_, hnone⟩ |
          ⟨update', out, hread', _, hout, hpublics⟩
        · -- there is always something to announce
          obtain ⟨out, hout, _⟩ := P.updateWith _ _ (clients_known P hok)
          rw [hnone update hread hok] at hout
          cases hout
        · obtain rfl : update = update' := Option.some.inj (hread.symm.trans hread')
          rw [Cluster.publications_eq, hpublics, List.filterMap_cons, RedisScaling.publication,
            RedisScaling.onAwarenessUpdate, Actor.deed_own_present hown hd]
          refine (announced_entries P hok hout).2.trans (Set.union_subset_union_right _ ?_)
          have hfacts := presenceFacts_update (P := P) hY a.world.name out
          exact fun x hx => ⟨_, List.mem_singleton_self _, hfacts.symm.subset hx⟩
  · rw [Actor.arrived_other fun frame origin hd => hpresent ⟨frame, origin, hd⟩]
    exact Set.subset_union_left

end

/-! ## Convergence -/

namespace Cluster

variable {ι : Type}

/-- Nobody who leaves in the step has claimed a client. -/
def LeavesUnclaimed (c : Cluster Y ι) : Label Y ι → Prop
  | .actor i j l => ∀ cell, (c.cells i)[j]? = some cell → cell.actor.DepartsUnclaimed l
  | .external i j o => ∀ cell frame rest, (c.cells i)[j]? = some cell → cell.inbox = frame :: rest →
    cell.actor.DepartsUnclaimed (.command (.externalFrame frame true) o)
  | _ => True

variable {P : Y.Presence σ}

/-- Whatever such a step reaches was published, by the actor itself at the
latest. -/
theorem Doing.reached (hY : Y.Lib0Laws) {cfg : Configuration} {c : Cluster Y ι} {i : ι}
    {cell cell' : Cell Y} {l : Label Y ι} {k : Hocuspocus.Label} (hdoing : Doing cell cell' i l k)
    (hcell : c.home i = some cell) (hstep : cell.actor.step cfg k = some cell'.actor)
    (hposted : cell.inbox ⊆ c.said) (hfair : ∀ frame ∈ c.said, Fair Y frame)
    (hleaves : LeavesUnclaimed c l) : cell'.actor.versions P ⊆ cell.actor.versions P ∪
      (common (.presence hY P) c ∪
        told (.presence hY P) (publications cell.actor cell'.actor)) := by
  cases hdoing with
  | own k hown =>
    exact (own_reached hY hstep hown (hleaves cell hcell)).trans
      (Set.union_subset_union_right _ Set.subset_union_right)
  | mail frame o hmail =>
    have hmem : frame ∈ c.said := by
      rw [hmail] at hposted
      exact hposted (List.mem_cons_self ..)
    refine (foreign_reached (hfair frame hmem) hstep
      (hleaves cell frame cell'.inbox hcell hmail)).trans (Set.union_subset_union_right _ ?_)
    exact fun x hx => Or.inl ⟨frame, hmem, hx⟩

/-- Every published presence update is accepted everywhere. -/
theorem fair_step (hY : Y.Lib0Laws) (P : Y.Presence σ) [DecidableEq ι] {S : Settings ι}
    {c d : Cluster Y ι} {l : Label Y ι} (hc : Resident S c) (h : step S c l = some d)
    (hl : keepsHomes l = true) (hfair : ∀ frame ∈ c.said, Fair Y frame) :
    ∀ frame ∈ d.said, Fair Y frame := by
  rcases hc.step_cases h hl with ⟨i, n, rfl⟩ | ⟨i, cell, cell', k, _, _, hacted, _, rfl⟩
  · obtain ⟨payload, _, rfl⟩ := step_receive h
    have hsaid : ((arrival S Y i payload).elim (c.taken i n) ((c.taken i n).route i)).said
        = c.said := by
      cases arrival S Y i payload with
      | none => rfl
      | some frame =>
        rw [Option.elim_some]
        rcases (c.taken i n).route_cases i frame with hroute | ⟨j, cell, _, _, hroute⟩
        · rw [hroute]
          rfl
        · rw [hroute]
          rfl
    rw [hsaid]
    exact hfair
  · intro frame hframe
    rw [said_publish] at hframe
    rcases List.mem_append.mp hframe with hframe | hframe
    · exact hfair frame hframe
    · exact publications_fair hY P hacted.step frame hframe

end Cluster

open Cluster in
/-- **Presence converges** in every run in which nobody who leaves has claimed a
client: once all is quiet, the nodes show the same clients. -/
theorem presence_converges {ι : Type} [DecidableEq ι] (hY : Y.Lib0Laws) (P : Y.Presence σ)
    (S : Settings ι) (hshort : ∀ i, RedisScaling.Short (S.identifier i))
    (hdistinct : Function.Injective S.identifier) (hclean : (parseRoutingKey S.name).1 = S.name)
    {c d : Cluster Y ι} {ls : List (Cluster.Label Y ι)} (hfresh : Fresh S c)
    (hempty : ∀ i cell, c.home i = some cell → ∀ k, P.table cell.actor.world.awareness k = none)
    (hrun : Lts.exec (step S) c ls = some d) (hresident : ∀ l ∈ ls, keepsHomes l = true)
    (hleaves : Lts.Along (step S) (fun c l _ => LeavesUnclaimed c l) c ls)
    (hstill : Still d) {i k : ι} {cell cell' : Cell Y} (hcell : d.home i = some cell)
    (hcell' : d.home k = some cell') (client : Nat) :
    present (P.table cell.actor.world.awareness client)
      = present (P.table cell'.actor.world.awareness client) := by
  have hbase : ∀ i cell, c.home i = some cell →
      cell.actor.versions P = Table.versions fun _ : Nat => (none : Option (Entry σ)) := by
    intro i cell hcell
    exact congrArg Table.versions (funext (hempty i cell hcell))
  have hstart : Shared (.presence hY P) S (Actor.versions P)
      (Table.versions fun _ : Nat => (none : Option (Entry σ))) c ∧
      Posted S c ∧ ∀ frame ∈ c.said, Fair Y frame := by
    refine ⟨hfresh.shared (fun m cell hm => (hbase m cell hm).symm.subset)
      fun m cell hm => (hbase m cell hm).subset, .of_still hfresh.still, fun frame hframe => ?_⟩
    rw [said, hfresh.published] at hframe
    exact absurd hframe List.not_mem_nil
  have hend : Shared (.presence hY P) S (Actor.versions P)
      (Table.versions fun _ : Nat => (none : Option (Entry σ))) d ∧
      Posted S d ∧ ∀ frame ∈ d.said, Fair Y frame := by
    refine Lts.exec_invariant_along (I := fun c : Cluster Y ι =>
      Shared (.presence hY P) S (Actor.versions P)
        (Table.versions fun _ : Nat => (none : Option (Entry σ))) c ∧
      Posted S c ∧ ∀ frame ∈ c.said, Fair Y frame) ?_
      (Lts.along_and (Lts.along_of_labels hresident c) hleaves) hrun hstart
    rintro s l t hstep ⟨hl, hleave⟩ ⟨hshared, hposted, hfair⟩
    refine ⟨hshared.step hY hshort hdistinct hclean hstep hl ?_, hposted.step hshort hstep,
      fair_step hY P hshared.resident hstep hl hfair⟩
    exact fun m cell₀ cell₁ k hm hacted hdoing => hdoing.reached hY hm hacted.step
      (hposted.waiting m cell₀ (List.mem_of_getElem? hm)) hfair hleave
  exact present_of_versions ((hend.1.still hstill hcell hcell').antisymm
    (hend.1.still hstill hcell' hcell)) client

/-! ## On presence tables of the instance -/

namespace OneWriter

/-- Nobody who leaves in the step has claimed a client. -/
def departsUnclaimed (a : Actor yrs) (l : Label) : Bool :=
  (a.gone l).all fun conn => conn.clientIds.isEmpty

theorem departsUnclaimed_sound {a : Actor yrs} {l : Label} (h : departsUnclaimed a l = true) :
    a.DepartsUnclaimed l :=
  fun conn hconn => List.isEmpty_iff.mp (List.all_eq_true.mp h conn hconn)

def leavesUnclaimed (c : Cluster yrs Bool) : Cluster.Label yrs Bool → Bool
  | .actor i j l => (c.cells i)[j]?.all fun cell => departsUnclaimed cell.actor l
  | .external i j o => (c.cells i)[j]?.all fun cell => cell.inbox.head?.all fun frame =>
    departsUnclaimed cell.actor (.command (.externalFrame frame true) o)
  | _ => true

theorem leavesUnclaimed_sound {c : Cluster yrs Bool} {l : Cluster.Label yrs Bool}
    (h : leavesUnclaimed c l = true) : c.LeavesUnclaimed l := by
  cases l with
  | actor i j k =>
    exact fun cell hcell => departsUnclaimed_sound ((Option.all_eq_true _ _).mp h cell hcell)
  | external i j o =>
    intro cell frame rest hcell hmail
    have hcell' := (Option.all_eq_true _ _).mp h cell hcell
    exact departsUnclaimed_sound ((Option.all_eq_true _ _).mp hcell' frame (by rw [hmail]; rfl))
  | _ => trivial

theorem settled_nobody (i : Bool) (cell : Cell yrs) (h : settled.home i = some cell) (k : Nat) :
    presence.table cell.actor.world.awareness k = none := by
  obtain rfl : (⟨start 8, []⟩ : Cell yrs) = cell := Option.some.inj h
  rfl

/-- A node handles a command of its clients. -/
def does (i : Bool) (cmd : DocCommand) : Cluster.Label yrs Bool := .actor i 0 (.command cmd {})

/-- Whether the node shows the client. -/
def shows (c : Cluster yrs Bool) (i : Bool) (client : Nat) : Option Bool :=
  (c.home i).map fun cell => present (presence.table cell.actor.world.awareness client)

end OneWriter

/-- On node `a` client 7 shows itself, on node `b` client 8, and all is
delivered. -/
def gathering : List (Cluster.Label OneWriter.yrs Bool) :=
  [OneWriter.does true (.addConnection (OneWriter.conn 1) 0),
    OneWriter.does true (.addConnection (OneWriter.conn 3) 0),
    OneWriter.does true (.clientFrame 1 (OneWriter.showFrame 7 1)),
    OneWriter.does false (.addConnection (OneWriter.conn 2) 0),
    OneWriter.does false (.clientFrame 2 (OneWriter.showFrame 8 1))] ++
  OneWriter.hears false 0 ++ OneWriter.hears true 1 ++ [.receive true 0, .receive false 0]

/-- Client 7 takes its state away, and a connection of its node that has shown
nobody leaves. -/
def farewell : List (Cluster.Label OneWriter.yrs Bool) :=
  gathering ++ [OneWriter.does true (.clientFrame 1 (OneWriter.hideFrame 7 2))] ++
    OneWriter.hears false 0 ++ [.receive true 0, OneWriter.does true (.removeConnection 3)]

/-- The connection of client 7 is lost. -/
def vanishing : List (Cluster.Label OneWriter.yrs Bool) :=
  gathering ++ [OneWriter.does true (.removeConnection 1)]

theorem presence_converges_farewell : (OneWriter.work farewell).Still ∧
    OneWriter.shows (OneWriter.work farewell) true 7 = some false ∧
    OneWriter.shows (OneWriter.work farewell) true 8 = some true ∧
    ∀ cell cell', (OneWriter.work farewell).home true = some cell →
      (OneWriter.work farewell).home false = some cell' → ∀ client,
      present (OneWriter.presence.table cell.actor.world.awareness client)
        = present (OneWriter.presence.table cell'.actor.world.awareness client) := by
  have hstill : (OneWriter.work farewell).Still := OneWriter.still_of_quiet (by decide +kernel)
  refine ⟨hstill, by decide +kernel, by decide +kernel, fun cell cell' hcell hcell' client => ?_⟩
  exact presence_converges OneWriter.lib0Laws OneWriter.presence OneWriter.nodes
    OneWriter.nodes_short OneWriter.nodes_distinct (by decide) OneWriter.settled_fresh
    OneWriter.settled_nobody (Lts.exec_reach (by decide +kernel)) (List.all_eq_true.mp (by decide))
    (Lts.along_of_check (fun _ _ _ => OneWriter.leavesUnclaimed_sound) (by decide +kernel))
    hstill hcell hcell' client

/-- The node whose connection was lost shows client 7 no longer; the other one
does for good. -/
theorem presence_diverges : (OneWriter.work vanishing).Still ∧
    Lts.exec (Cluster.step OneWriter.nodes) OneWriter.settled vanishing
      = some (OneWriter.work vanishing) ∧ (∀ l ∈ vanishing, Cluster.keepsHomes l = true) ∧
    OneWriter.shows (OneWriter.work vanishing) true 7 = some false ∧
    OneWriter.shows (OneWriter.work vanishing) false 7 = some true :=
  ⟨OneWriter.still_of_quiet (by decide +kernel), Lts.exec_reach (by decide +kernel),
    List.all_eq_true.mp (by decide), by decide +kernel, by decide +kernel⟩

end Hocuspocus
