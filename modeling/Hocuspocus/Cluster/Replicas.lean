import Hocuspocus.Cluster.Spread
import Hocuspocus.OneWriter.Nodes

/-!
# Documents of resident nodes

The facts are operations and deletions. A document knows those it has
received, and takes in those whose dependencies it has; a frame tells what its
update carries. Each node publishes what its own transactions bring about, so
it has all been published unless a frame from Redis completes an operation that
was waiting: that transaction counts as replication, and `on_change` is silent
about it.
-/

namespace Hocuspocus

open Causal

variable {Y : Yrs}

/-- The update a frame brings. -/
def updateIn (Y : Yrs) (frame : Bytes) : Option Y.Update :=
  match IncomingFrame.parse Y frame with
  | none => none
  | some f =>
    match f.messageType with
    | .sync | .syncReply =>
      match Y.decodeSync f.decoder with
      | some (.syncStep2 update) | some (.update update) => Y.decodeUpdate update
      | _ => none
    | _ => none

theorem updateIn_sync (hY : Y.Lib0Laws) (address : String) (ty : MessageType)
    (hty : ty = .sync ∨ ty = .syncReply) {msg : SyncMessage Y.StateVector} {update : Bytes}
    (hmsg : msg = .syncStep2 update ∨ msg = .update update) :
    updateIn Y (((OutgoingMessage.new Y address).writeOpcode Y ty).encoder ++ Y.encodeSync msg)
      = Y.decodeUpdate update := by
  unfold updateIn
  rw [parse_envelope hY]
  rcases hty with rfl | rfl <;> rcases hmsg with rfl | rfl <;> simp only [hY.decodeSync_encode]

theorem updateIn_other (hY : Y.Lib0Laws) (address : String) (ty : MessageType)
    (hty : ty ≠ .sync ∧ ty ≠ .syncReply) (payload : Bytes) :
    updateIn Y (((OutgoingMessage.new Y address).writeOpcode Y ty).encoder ++ payload) = none := by
  unfold updateIn
  rw [parse_envelope hY]
  dsimp only
  split
  · exact absurd rfl hty.1
  · exact absurd rfl hty.2
  · rfl

section

variable {cfg : Configuration} {a b : Actor Y} {l : Hocuspocus.Label}
  (hstep : a.step cfg l = some b)

include hstep

/-- A step that applies no update leaves the document alone. -/
theorem Actor.step_doc (hdeed : ∀ update origin, a.deed l ≠ .change update origin) :
    b.world.doc = a.world.doc := by
  generalize hd : a.deed l = deed at hdeed
  cases deed with
  | nothing => exact (Actor.step_nothing hstep hd).2
  | change update origin => exact absurd rfl (hdeed update origin)
  | present frame origin => exact (Actor.step_present hstep hd).1
  | answer frame => exact (Actor.step_answer hstep hd).2

/-- A frame from a peer does to the document what its update does. -/
theorem Actor.step_foreign_doc {frame : Bytes} {reply : Bool} {o : Ambient}
    (hl : l = .command (.externalFrame frame reply) o) :
    b.world.doc = (updateIn Y frame).elim a.world.doc fun u => (Y.applyUpdate a.world.doc u).1 := by
  have hdeed : a.deed l = a.world.externalDeed frame reply := by rw [hl]; rfl
  have hsync : ∀ f : IncomingFrame, a.deed l = a.world.externalSyncDeed f reply →
      b.world.doc = (match Y.decodeSync f.decoder with
        | some (.syncStep2 update) | some (.update update) => Y.decodeUpdate update
        | _ => none).elim a.world.doc fun u => (Y.applyUpdate a.world.doc u).1 := by
    intro f hf
    have happly : ∀ update, applyBytes a.world.doc update
        = (Y.decodeUpdate update).elim a.world.doc fun u => (Y.applyUpdate a.world.doc u).1 := by
      intro update
      unfold applyBytes
      cases Y.decodeUpdate update <;> rfl
    unfold World.externalSyncDeed at hf
    split at hf
    next sv hdec =>
      rw [hdec]
      split at hf
      · exact (Actor.step_answer hstep hf).2
      · exact (Actor.step_nothing hstep hf).2
    next update hdec =>
      rw [hdec]
      exact (Actor.step_change hstep hf).2.trans (happly update)
    next update hdec =>
      rw [hdec]
      exact (Actor.step_change hstep hf).2.trans (happly update)
    next hdec =>
      rw [hdec]
      exact (Actor.step_nothing hstep hf).2
  -- no other frame changes the document
  have hnone : (∀ update origin, a.world.externalDeed frame reply ≠ .change update origin) →
      b.world.doc = a.world.doc := fun h => Actor.step_doc hstep (hdeed ▸ h)
  unfold updateIn
  unfold World.externalDeed at hdeed hnone
  cases hparse : IncomingFrame.parse Y frame with
  | none =>
    rw [hparse] at hnone
    exact hnone fun _ _ h => by cases h
  | some f =>
    rw [hparse] at hdeed hnone
    dsimp only at hdeed hnone ⊢
    cases hty : f.messageType with
    | sync =>
      rw [hty] at hdeed
      exact hsync f hdeed
    | syncReply =>
      rw [hty] at hdeed
      exact hsync f hdeed
    | queryAwareness =>
      rw [hty] at hnone
      refine hnone fun _ _ h => ?_
      dsimp only at h
      split at h
      · split at h <;> cases h
      · cases h
    | _ =>
      rw [hty] at hnone
      exact hnone fun _ _ h => by cases h

/-- A client's update is published as what it brought about. -/
theorem Cluster.publications_own_change {update : Bytes} {origin : Origin}
    (hdeed : a.deed l = .change update origin) (horigin : origin.isRedis = false) {u : Y.Update}
    (hdec : Y.decodeUpdate update = some u) (hok : (Y.applyUpdate a.world.doc u).2 = true)
    (hsome : Y.encodeTxn a.world.doc u ≠ []) : Cluster.publications a b
      = [RedisScaling.encodeSyncFrame Y a.world.name (.update (Y.encodeTxn a.world.doc u))] := by
  obtain ⟨clients, hpublics⟩ := (Actor.step_change hstep hdeed).1
  rw [Cluster.publications_eq, hpublics, changeEvents, hdec]
  dsimp only
  have hsaid : ((Y.applyUpdate a.world.doc u).2 && !(Y.encodeTxn a.world.doc u).isEmpty) = true := by
    rw [hok, List.isEmpty_eq_false_iff.mpr hsome]
    rfl
  rw [if_pos hsaid, List.filterMap_cons, RedisScaling.publication, RedisScaling.onChange, horigin]
  rfl

end

/-- What a client or a `direct_apply` changes does not count as replicated. -/
theorem Actor.deed_own {a : Actor Y} {l : Label} (hown : Cluster.fromPeer l = false)
    {update : Bytes} {origin : Origin} (hdeed : a.deed l = .change update origin) :
    origin.isRedis = false := by
  cases l with
  | command cmd o =>
    cases cmd with
    | clientFrame connId data =>
      have hframe : a.world.frameDeed o connId data = .change update origin := hdeed
      rcases a.world.frameDeed_cases o connId data with hd | ⟨_, ⟨u, id, hd⟩ | ⟨f, hd⟩⟩
      · rw [hd] at hframe
        cases hframe
      · rw [hd] at hframe
        cases hframe
        rfl
      · rw [hd] at hframe
        cases hframe
    | externalFrame data reply => cases hown
    | directApply u ack =>
      cases hdeed
      rfl
    | addConnection handle ack => cases hdeed
    | removeConnection connId => cases hdeed
  | flush | storeResult | deadline | mailboxClosed | storeTask | queues => cases hdeed

section

variable {Op : Type} (R : Y.Replicated Op)

/-- What a frame carries for every document to take. -/
def frameFacts (frame : Bytes) : Set (Op ⊕ Op) :=
  {x | ∃ u, updateIn Y frame = some u ∧ (∀ c, (Y.applyUpdate c u).2 = true) ∧
    x ∈ (R.delta u).all}

variable {R}

theorem frameFacts_encodes {frame update : Bytes} {δ : Delta Op}
    (hframe : updateIn Y frame = Y.decodeUpdate update) (h : Encodes R update δ) :
    frameFacts R frame = δ.all := by
  obtain ⟨u, hdec, hdelta, hok⟩ := h
  ext x
  constructor
  · rintro ⟨u', hu', _, hx⟩
    obtain rfl : u = u' := Option.some.inj ((hframe.trans hdec).symm.trans hu')
    rwa [← hdelta]
  · exact fun hx => ⟨u, hframe.trans hdec, hok, hdelta ▸ hx⟩

theorem frameFacts_none {frame : Bytes} (hframe : updateIn Y frame = none) :
    frameFacts R frame = ∅ := by
  refine Set.eq_empty_iff_forall_notMem.mpr ?_
  rintro x ⟨u, hu, _⟩
  rw [hframe] at hu
  cases hu

/-- The frames of the extension. -/
theorem frameFacts_update (hY : Y.Lib0Laws) (name : String) {update : Bytes} {δ : Delta Op}
    (h : Encodes R update δ) :
    frameFacts R (RedisScaling.encodeSyncFrame Y name (.update update)) = δ.all :=
  frameFacts_encodes (updateIn_sync hY name .sync (Or.inl rfl) (Or.inr rfl)) h

theorem frameFacts_presence (hY : Y.Lib0Laws) (name : String) (payload : Bytes) :
    frameFacts R (Y.writeString name ++ Y.writeVar 1 ++ payload) = ∅ :=
  frameFacts_none (updateIn_other hY name .awareness ⟨by decide, by decide⟩ payload)

theorem all_applyUpdate {doc : Y.Doc} {u : Y.Update} (hok : (Y.applyUpdate doc u).2 = true) :
    (R.rep (Y.applyUpdate doc u).1).all = (R.rep doc).all ∪ (R.delta u).all := by
  rw [R.rep_apply doc u hok, Replica.all_apply]

theorem grows_all {d d' : Y.Doc} (h : Grows R d d') : (R.rep d).all ⊆ (R.rep d').all :=
  both_subset.mpr h

/-- What a step publishes of documents, the document has taken in. -/
theorem publications_done (hY : Y.Lib0Laws) {cfg : Configuration} {a b : Actor Y}
    {l : Hocuspocus.Label} (hstep : a.step cfg l = some b) :
    ∀ frame ∈ Cluster.publications a b, frameFacts R frame ⊆ (R.rep b.world.doc).done R.deps := by
  intro frame hframe
  generalize hd : a.deed l = deed
  cases deed with
  | nothing =>
    rw [Cluster.publications_nothing hstep hd] at hframe
    exact absurd hframe List.not_mem_nil
  | change update origin =>
    rcases Cluster.publications_change hstep hd with h | ⟨_, u, hdec, hok, h⟩
    · rw [h] at hframe
      exact absurd hframe List.not_mem_nil
    · rw [h] at hframe
      obtain ⟨u', hdec', hdelta, hok'⟩ := R.decode_txn a.world.doc u hok
      have hdoc : b.world.doc = (Y.applyUpdate a.world.doc u).1 := by
        rw [(Actor.step_change hstep hd).2, applyBytes, hdec]
      rw [List.mem_singleton.mp hframe, frameFacts_update hY _ ⟨u', hdec', hdelta, hok'⟩, hdoc]
      exact Replica.change_subset_done _ _
  | present f origin =>
    rcases Cluster.publications_present hstep hd with h | ⟨_, out, h⟩
    · rw [h] at hframe
      exact absurd hframe List.not_mem_nil
    · rw [h] at hframe
      rw [List.mem_singleton.mp hframe, frameFacts_presence hY]
      exact Set.empty_subset _
  | answer f =>
    rw [Cluster.publications_answer hstep hd, RedisScaling.replyFrame] at hframe
    obtain rfl : f = frame := by
      split at hframe
      · exact (Option.some.inj (Option.mem_toList.mp hframe))
      · cases Option.mem_toList.mp hframe
    have hsame : b.world.doc = a.world.doc := (Actor.step_answer hstep hd).2
    obtain ⟨data, hforeign⟩ := Actor.deed_answer hd
    cases hforeign with
    | state sv hq =>
      obtain ⟨u, hdec, hdelta, hok⟩ := R.decode_diff a.world.doc sv
      have hframe := updateIn_sync hY a.world.name .syncReply (Or.inr rfl)
        (Or.inl (Eq.refl (SyncMessage.syncStep2 (Y.encodeDiff a.world.doc sv))))
      have hfacts := frameFacts_encodes hframe ⟨u, hdec, hdelta, hok⟩
      rw [hsame]
      exact hfacts.subset.trans (Replica.diff_subset_done _ _)
    | table u hu hq =>
      exact (frameFacts_presence hY a.world.name (Y.writeBuf (Y.encodeAwareness u))).subset.trans
        (Set.empty_subset _)

/-- Documents as a reading of frames and actors. -/
def Lore.documents (hY : Y.Lib0Laws) (herr : Y.ErrKeepsDoc) (R : Y.Replicated Op) :
    Lore Y (Op ⊕ Op) where
  facts := frameFacts R
  known a := (R.rep a.world.doc).all
  keeps := by
    intro cfg a b l hstep
    by_cases hchange : ∃ update origin, a.deed l = .change update origin
    · obtain ⟨update, origin, hd⟩ := hchange
      rw [(Actor.step_change hstep hd).2]
      exact grows_all (grows_applyBytes herr _ update)
    · rw [Actor.step_doc hstep fun update origin hd => hchange ⟨update, origin, hd⟩]
  heard := by
    rintro cfg a b frame o hstep x ⟨u, hu, hok, hx⟩
    rw [Actor.step_foreign_doc hstep rfl, hu, Option.elim_some, all_applyUpdate (hok _)]
    exact Or.inr hx
  said := fun _ _ _ _ hstep frame hframe =>
    (publications_done hY hstep frame hframe).trans (Replica.done_subset_all _)

/-- What an actor's document has taken in. -/
def Actor.done (R : Y.Replicated Op) (a : Actor Y) : Set (Op ⊕ Op) := (R.rep a.world.doc).done R.deps

/-- A client's update is published as far as it was taken in. -/
theorem own_done (hY : Y.Lib0Laws) (herr : Y.ErrKeepsDoc) {cfg : Configuration} {a b : Actor Y}
    {l : Hocuspocus.Label} (hstep : a.step cfg l = some b) (hown : Cluster.fromPeer l = false) :
    b.done R ⊆ a.done R ∪ Cluster.told (.documents hY herr R) (Cluster.publications a b) := by
  have hsame : b.world.doc = a.world.doc →
      b.done R ⊆ a.done R ∪ Cluster.told (.documents hY herr R) (Cluster.publications a b) := by
    intro h
    rw [Actor.done, h]
    exact Set.subset_union_left
  by_cases hchange : ∃ update origin, a.deed l = .change update origin
  · obtain ⟨update, origin, hd⟩ := hchange
    have hdoc := (Actor.step_change hstep hd).2
    cases hdec : Y.decodeUpdate update with
    | none =>
      rw [applyBytes, hdec] at hdoc
      exact hsame hdoc
    | some u =>
      rw [applyBytes, hdec] at hdoc
      cases hok : (Y.applyUpdate a.world.doc u).2 with
      | false => exact hsame (hdoc.trans (herr _ _ hok))
      | true =>
        obtain ⟨u', hdec', hdelta, hok'⟩ := R.decode_txn a.world.doc u hok
        rw [Cluster.publications_own_change hstep hd (Actor.deed_own hown hd) hdec hok
          (R.encodeTxn_ne_nil _ _), Cluster.told_singleton]
        have hfacts := frameFacts_update hY a.world.name ⟨u', hdec', hdelta, hok'⟩
        refine subset_trans ?_ (Set.union_subset_union_right _ hfacts.symm.subset)
        rw [Actor.done, hdoc]
        exact Replica.done_subset_change _ _
  · exact hsame (Actor.step_doc hstep fun update origin hd => hchange ⟨update, origin, hd⟩)

/-- What a frame would make the document take in. -/
def takenIn (R : Y.Replicated Op) (doc : Y.Doc) (frame : Bytes) : Set (Op ⊕ Op) :=
  match updateIn Y frame with
  | none => (R.rep doc).done R.deps
  | some u => ((R.rep doc).apply (R.delta u)).done R.deps

theorem foreign_done (herr : Y.ErrKeepsDoc) {cfg : Configuration} {a b : Actor Y} {frame : Bytes}
    {o : Ambient} (hstep : a.step cfg (.command (.externalFrame frame true) o) = some b) :
    b.done R ⊆ a.done R ∪ takenIn R a.world.doc frame := by
  have hdoc := Actor.step_foreign_doc hstep rfl
  unfold takenIn
  rw [Actor.done, hdoc]
  cases updateIn Y frame with
  | none => exact Set.subset_union_left
  | some u =>
    rw [Option.elim_some]
    cases hok : (Y.applyUpdate a.world.doc u).2 with
    | false =>
      rw [herr _ _ hok]
      exact Set.subset_union_left
    | true =>
      rw [R.rep_apply _ _ hok]
      exact Set.subset_union_right

end

/-! ## Convergence -/

namespace Cluster

variable {Op ι : Type} (R : Y.Replicated Op)

/-- What some node has published of documents. -/
def replicated (c : Cluster Y ι) : Set (Op ⊕ Op) :=
  {x | ∃ p ∈ c.published, x ∈ frameFacts R p.2}

/-- What the frame that comes next makes the document take in, besides what it
has taken in already, some node has published. -/
def CompletesNothing (c : Cluster Y ι) : Label Y ι → Prop
  | .external i j _ => ∀ cell frame rest, (c.cells i)[j]? = some cell → cell.inbox = frame :: rest →
    takenIn R cell.actor.world.doc frame ⊆ cell.actor.done R ∪ replicated R c
  | _ => True

theorem common_documents (hY : Y.Lib0Laws) (herr : Y.ErrKeepsDoc) (R : Y.Replicated Op)
    (c : Cluster Y ι) : Cluster.common (.documents hY herr R) c = Cluster.replicated R c := by
  ext x
  constructor
  · rintro ⟨frame, hframe, hx⟩
    obtain ⟨p, hp, rfl⟩ := List.mem_map.mp hframe
    exact ⟨p, hp, hx⟩
  · rintro ⟨p, hp, hx⟩
    exact ⟨p.2, List.mem_map_of_mem hp, hx⟩

variable {R}

/-- Such a step takes in what was published, by the actor itself at the latest. -/
theorem Doing.done (hY : Y.Lib0Laws) (herr : Y.ErrKeepsDoc) {cfg : Configuration}
    {c : Cluster Y ι} {i : ι} {cell cell' : Cell Y} {l : Label Y ι} {k : Hocuspocus.Label}
    (hdoing : Doing cell cell' i l k) (hcell : c.home i = some cell)
    (hstep : cell.actor.step cfg k = some cell'.actor) (hcompletes : CompletesNothing R c l) :
    cell'.actor.done R ⊆ cell.actor.done R ∪ (common (.documents hY herr R) c ∪
      told (.documents hY herr R) (publications cell.actor cell'.actor)) := by
  cases hdoing with
  | own k hown =>
    exact (own_done hY herr hstep hown).trans
      (Set.union_subset_union_right _ Set.subset_union_right)
  | mail frame o hmail =>
    refine (foreign_done herr hstep).trans (Set.union_subset Set.subset_union_left ?_)
    refine (hcompletes cell frame cell'.inbox hcell hmail).trans ?_
    rw [common_documents]
    exact Set.union_subset_union_right _ Set.subset_union_left

end Cluster

open Cluster in
/-- **Resident nodes converge** in every run in which no frame from a peer
completes an operation that waits unpublished: once all is quiet, the nodes have
integrated the same. -/
theorem residents_converge {Op ι : Type} [DecidableEq ι] (hY : Y.Lib0Laws) (herr : Y.ErrKeepsDoc)
    (R : Y.Replicated Op) (S : Settings ι) (hshort : ∀ i, RedisScaling.Short (S.identifier i))
    (hdistinct : Function.Injective S.identifier) (hclean : (parseRoutingKey S.name).1 = S.name)
    {c d : Cluster Y ι} {ls : List (Cluster.Label Y ι)} (hfresh : Fresh S c)
    (hequal : ∀ i k cell cell', c.home i = some cell → c.home k = some cell' →
      cell.actor.done R = cell'.actor.done R)
    (hrun : Lts.exec (step S) c ls = some d) (hresident : ∀ l ∈ ls, keepsHomes l = true)
    (hcompletes : Lts.Along (step S) (fun c l _ => CompletesNothing R c l) c ls)
    (hstill : Still d) {i k : ι} {cell cell' : Cell Y} (hcell : d.home i = some cell)
    (hcell' : d.home k = some cell') :
    (R.rep cell.actor.world.doc).ins R.deps = (R.rep cell'.actor.world.doc).ins R.deps ∧
    (R.rep cell.actor.world.doc).gone R.deps = (R.rep cell'.actor.world.doc).gone R.deps := by
  obtain ⟨start, hstart, _⟩ := hfresh.toResident.home_some i
  have hshared : Shared (.documents hY herr R) S (Actor.done R) (start.actor.done R) c :=
    hfresh.shared
      (fun m cell₀ hm => (hequal i m start cell₀ hstart hm).subset.trans
        (Replica.done_subset_all _))
      fun m cell₀ hm => (hequal m i cell₀ start hm hstart).subset
  have hend : Shared (.documents hY herr R) S (Actor.done R) (start.actor.done R) d := by
    refine Lts.exec_invariant_along ?_ (Lts.along_and (Lts.along_of_labels hresident c) hcompletes)
      hrun hshared
    intro s l t hstep hl hs
    exact hs.step hY hshort hdistinct hclean hstep hl.1
      fun m cell₀ cell₁ k hm hacted hdoing => hdoing.done hY herr hm hacted.step hl.2
  have hle := Replica.contains_of_all (hend.still hstill hcell hcell')
  have hge := Replica.contains_of_all (hend.still hstill hcell' hcell)
  exact ⟨hle.ins.antisymm hge.ins, hle.gone.antisymm hge.gone⟩

/-! ## On documents of one writer -/

namespace OneWriter

theorem settled_same (i k : Bool) (cell cell' : Cell yrs) (h : settled.home i = some cell)
    (h' : settled.home k = some cell') : cell.actor.done replicated = cell'.actor.done replicated := by
  obtain rfl : cell = cell' := Option.some.inj (h.symm.trans h')
  rfl

/-- The updates that were published. -/
def updates (c : Cluster yrs Bool) : List Update := c.published.filterMap fun p => updateIn yrs p.2

/-- The clocks and deletions an update makes a document take in are in some
published update, if they are new. -/
def knownTo (published : List Update) (d : Doc) (u : Update) : Bool :=
  ((List.range (frontier (d.apply u))).all fun o =>
    decide (o < frontier d) || published.any fun u => decide (o ∈ u.ops)) &&
  (d.apply u).gone.all fun o => decide (o ∈ d.gone) || published.any fun u => decide (o ∈ u.dels)

def completesNothing (c : Cluster yrs Bool) : Cluster.Label yrs Bool → Bool
  | .external i j _ =>
    match (c.cells i)[j]? with
    | some ⟨actor, frame :: _⟩ => (updateIn yrs frame).all (knownTo (updates c) actor.world.doc)
    | _ => true
  | _ => true

theorem published_all {c : Cluster yrs Bool} {u : Update} (h : u ∈ updates c) :
    (delta u).all ⊆ Cluster.replicated replicated c := by
  obtain ⟨p, hp, hu⟩ := List.mem_filterMap.mp h
  exact fun x hx => ⟨p, hp, u, hu, fun _ => rfl, hx⟩

theorem knownTo_sound {c : Cluster yrs Bool} {d : Doc} {u : Update}
    (h : knownTo (updates c) d u = true) :
    (rep (d.apply u)).done deps ⊆ (rep d).done deps ∪ Cluster.replicated replicated c := by
  obtain ⟨hins, hgone⟩ := Bool.and_eq_true_iff.mp h
  rw [Replica.done, Replica.done, ins_rep, ins_rep, gone_rep, gone_rep]
  rintro (o | o) ho
  · have hnew := List.all_eq_true.mp hins o (List.mem_range.mpr ho)
    rcases Bool.or_eq_true_iff.mp hnew with hold | hpub
    · have hlt : o < frontier d := of_decide_eq_true hold
      exact Or.inl hlt
    · obtain ⟨u', hu', hmem⟩ := List.any_eq_true.mp hpub
      have hop : o ∈ u'.ops := of_decide_eq_true hmem
      exact Or.inr (@published_all c u' hu' (.inl o) hop)
  · have hnew := List.all_eq_true.mp hgone o ho
    rcases Bool.or_eq_true_iff.mp hnew with hold | hpub
    · have hmem : o ∈ d.gone := of_decide_eq_true hold
      exact Or.inl hmem
    · obtain ⟨u', hu', hmem⟩ := List.any_eq_true.mp hpub
      have hdel : o ∈ u'.dels := of_decide_eq_true hmem
      exact Or.inr (@published_all c u' hu' (.inr o) hdel)

theorem completesNothing_sound {c : Cluster yrs Bool} {l : Cluster.Label yrs Bool}
    (h : completesNothing c l = true) : Cluster.CompletesNothing replicated c l := by
  cases l with
  | external i j o =>
    intro cell frame rest hcell hmail
    obtain ⟨actor, inbox⟩ := cell
    dsimp only at hmail
    subst hmail
    rw [completesNothing, hcell] at h
    cases hu : updateIn yrs frame with
    | none =>
      rw [takenIn, hu]
      exact Set.subset_union_left
    | some u =>
      have htaken : takenIn replicated actor.world.doc frame
          = (rep (Doc.apply actor.world.doc u)).done deps := by
        rw [takenIn, hu]
        exact congrArg (Replica.done deps) (rep_apply actor.world.doc u).symm
      exact htaken.subset.trans (knownTo_sound ((Option.all_eq_true _ _).mp h u hu))
  | _ => trivial

end OneWriter

/-- An edit on each node, one after the other. -/
def relayed : List (Cluster.Label OneWriter.yrs Bool) :=
  [OneWriter.edits true 0] ++ OneWriter.hears false 0 ++ [OneWriter.edits false 1] ++
    OneWriter.hears true 1 ++ [.receive true 0, .receive false 0]

/-- The second edit reaches its node before the first, on which it depends,
comes in from the other node. -/
def overtaken : List (Cluster.Label OneWriter.yrs Bool) :=
  [OneWriter.edits true 0, OneWriter.edits false 1] ++ OneWriter.hears false 0 ++
    OneWriter.hears true 1 ++ [.receive true 0, .receive false 0]

theorem residents_converge_relayed :
    (OneWriter.work relayed).Still ∧
    ((OneWriter.work relayed).home false).map (fun cell => OneWriter.frontier cell.actor.world.doc)
      = some 2 ∧
    ∀ cell cell', (OneWriter.work relayed).home true = some cell →
      (OneWriter.work relayed).home false = some cell' →
      (OneWriter.rep cell.actor.world.doc).ins OneWriter.deps
        = (OneWriter.rep cell'.actor.world.doc).ins OneWriter.deps := by
  have hstill : (OneWriter.work relayed).Still := OneWriter.still_of_quiet (by decide +kernel)
  refine ⟨hstill, by decide +kernel, fun cell cell' hcell hcell' => ?_⟩
  exact (residents_converge OneWriter.lib0Laws OneWriter.errKeepsDoc OneWriter.replicated
    OneWriter.nodes OneWriter.nodes_short OneWriter.nodes_distinct (by decide)
    OneWriter.settled_fresh OneWriter.settled_same (Lts.exec_reach (by decide +kernel))
    (List.all_eq_true.mp (by decide))
    (Lts.along_of_check (fun _ _ _ => OneWriter.completesNothing_sound) (by decide +kernel))
    hstill hcell hcell').1

/-- The second node integrates both edits on the first one's behalf, and the
first node never gets the second. -/
theorem residents_diverge :
    ∃ cell cell', (OneWriter.work overtaken).home true = some cell ∧
      (OneWriter.work overtaken).home false = some cell' ∧ (OneWriter.work overtaken).Still ∧
      Lts.exec (Cluster.step OneWriter.nodes) OneWriter.settled overtaken
        = some (OneWriter.work overtaken) ∧ (∀ l ∈ overtaken, Cluster.keepsHomes l = true) ∧
      (OneWriter.rep cell.actor.world.doc).ins OneWriter.deps
        ≠ (OneWriter.rep cell'.actor.world.doc).ins OneWriter.deps := by
  have hdocs : ∀ i, ((OneWriter.work overtaken).home i).map
      (fun cell => OneWriter.frontier cell.actor.world.doc) = some (if i then 1 else 2) := by
    decide +kernel
  obtain ⟨cell, hcell, hfrontier⟩ := Option.map_eq_some_iff.mp (hdocs true)
  obtain ⟨cell', hcell', hfrontier'⟩ := Option.map_eq_some_iff.mp (hdocs false)
  refine ⟨cell, cell', hcell, hcell', OneWriter.still_of_quiet (by decide +kernel),
    Lts.exec_reach (by decide +kernel), List.all_eq_true.mp (by decide), fun hsame => ?_⟩
  have hfirst : {c | c < OneWriter.frontier cell.actor.world.doc}
      = {c | c < OneWriter.frontier cell'.actor.world.doc} :=
    (OneWriter.ins_rep _).symm.trans (hsame.trans (OneWriter.ins_rep _))
  rw [hfrontier, hfrontier'] at hfirst
  have hmem : (1 : Nat) ∈ {c : Nat | c < 1} := hfirst.symm.subset (Nat.lt_succ_self 1)
  exact Nat.lt_irrefl 1 hmem

end Hocuspocus
