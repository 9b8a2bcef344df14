import Hocuspocus.Cluster.Replicas

/-!
# Joining a resident peer

A node loads the document from its storage while a peer has it open. The load
asks the peer for what the storage did not have, and the actor is in the
registry only later. What comes in between, the answer among it, is dropped.

While the question is unanswered nothing is lost by that: the answer will have
all the peer has by then. From the answer on, what is published is in reach of
the joiner as long as no frame is dropped that it needs. The other way there is
no such exchange. A question tells what the joiner has, and carries none of it,
so what the storage has and the peer has not stays with the joiner.
-/

namespace Hocuspocus

open Causal

variable {Y : Yrs}

/-- The frame is about a change of the document, and no answer. -/
def bringsUpdate (Y : Yrs) (frame : Bytes) : Bool :=
  match IncomingFrame.parse Y frame with
  | none => false
  | some f =>
    match f.messageType with
    | .sync | .syncReply =>
      match Y.decodeSync f.decoder with
      | some (.update _) => true
      | _ => false
    | _ => false

theorem bringsUpdate_update (hY : Y.Lib0Laws) (name : String) (update : Bytes) :
    bringsUpdate Y (RedisScaling.encodeSyncFrame Y name (.update update)) = true := by
  have hparse : IncomingFrame.parse Y (RedisScaling.encodeSyncFrame Y name (.update update))
      = some ⟨name, .sync, Y.encodeSync (.update update)⟩ := parse_envelope hY name .sync _
  rw [bringsUpdate, hparse]
  dsimp only
  rw [hY.decodeSync_encode]

section

variable {Op : Type} {R : Y.Replicated Op}

/-- What has taken effect stays in effect. -/
theorem Actor.done_step (hY : Y.Lib0Laws) (herr : Y.ErrKeepsDoc) {cfg : Configuration}
    {a b : Actor Y} {l : Label} (hstep : a.step cfg l = some b) : a.done R ⊆ b.done R :=
  Replica.done_mono ((Lore.documents hY herr R).keeps cfg a b l hstep)

/-- An answer tells what the document has; everything else that is published
of documents is an update. -/
theorem publications_edited (hY : Y.Lib0Laws) {cfg : Configuration} {a b : Actor Y} {l : Label}
    (hstep : a.step cfg l = some b) : ∀ frame ∈ Cluster.publications a b,
      frameFacts R frame ⊆ a.done R ∨ bringsUpdate Y frame = true := by
  intro frame hframe
  have hdone := publications_done (R := R) hY hstep frame hframe
  generalize hd : a.deed l = deed
  cases deed with
  | nothing =>
    rw [Cluster.publications_nothing hstep hd] at hframe
    exact absurd hframe List.not_mem_nil
  | change update origin =>
    rcases Cluster.publications_change hstep hd with h | ⟨_, u, _, _, h⟩
    · rw [h] at hframe
      exact absurd hframe List.not_mem_nil
    · rw [h] at hframe
      rw [List.mem_singleton.mp hframe]
      exact Or.inr (bringsUpdate_update hY _ _)
  | present f origin =>
    rw [(Actor.step_present hstep hd).1] at hdone
    exact Or.inl hdone
  | answer f =>
    rw [(Actor.step_answer hstep hd).2] at hdone
    exact Or.inl hdone

end

namespace Cluster

variable {Op ι : Type}

/-- What was published as an update. -/
def edited (R : Y.Replicated Op) (c : Cluster Y ι) : Set (Op ⊕ Op) :=
  {x | ∃ p ∈ c.published, bringsUpdate Y p.2 = true ∧ x ∈ frameFacts R p.2}

section

variable (S : Settings ι) (p q : ι) (A : Y.Doc)

/-- What a node asks that has loaded `A`. -/
def question : Bytes := RedisScaling.encodeSyncFrame Y S.name (.syncStep1 (Y.stateVector A))

/-- The question is on its way to the peer, or waits there. -/
def Asking (c : Cluster Y ι) : Prop :=
  question S A ∈ arriving S c p ∨ ∃ cell, c.home p = some cell ∧ question S A ∈ cell.inbox

/-- What happens while a node joins: at most once it loads the document, and
at any time after that the actor is put in its registry. -/
def Joins (c : Cluster Y ι) : Label Y ι → Prop
  | .load i doc _ => i = q ∧ doc = A ∧ c.cells q = []
  | .register i entry => i = q ∧ entry = some 0
  | .actor _ _ _ | .receive _ _ | .external _ _ _ => True

variable [DecidableEq ι] (hY : Y.Lib0Laws) (herr : Y.ErrKeepsDoc) (R : Y.Replicated Op)

/-- The peer has what is loaded; a frame that the joiner drops tells it nothing
new, or nothing the answer will not; and no frame completes an operation that
waits. -/
def Unlost (c : Cluster Y ι) : Label Y ι → Prop
  | .load _ doc _ => ∀ cell, c.home p = some cell → (R.rep doc).done R.deps ⊆ cell.actor.done R
  | .receive i n => i = q → c.registry q = none → c.cells q = [] ∨ Asking S p A c ∨
    ∀ payload frame, (c.flight q)[n]? = some payload → arrival S Y q payload = some frame →
      frameFacts R frame ⊆ reach (.documents hY herr R) S (c.taken q n) q
  | l => CompletesNothing R c l

end

/-- The peer has the document open, the other node does not, and they have said
nothing to each other yet. -/
structure Alone (S : Settings ι) (p q : ι) (c : Cluster Y ι) : Prop where
  peer : ∃ cell, c.cells p = [cell] ∧ cell.actor.world.name = S.name
  registry : c.registry p = some 0
  absent : c.cells q = []
  entry : c.registry q = none
  still : Still c
  published : c.published = []

/-! ## The question and its answer -/

section

variable {S : Settings ι} {R : Y.Replicated Op} {A : Y.Doc}

theorem parse_question (hY : Y.Lib0Laws) : IncomingFrame.parse Y (question S A)
    = some ⟨S.name, .sync, Y.encodeSync (.syncStep1 (Y.stateVector A))⟩ :=
  parse_envelope hY S.name .sync _

/-- What a load publishes tells nothing of the document. -/
theorem frameFacts_asked (hY : Y.Lib0Laws) :
    ∀ frame ∈ RedisScaling.afterLoadDocument Y S.name A, frameFacts R frame = ∅ := by
  intro frame hframe
  rcases List.mem_cons.mp hframe with rfl | hframe
  · refine frameFacts_none ?_
    have hparse : IncomingFrame.parse Y (RedisScaling.encodeSyncFrame Y S.name
        (.syncStep1 (Y.stateVector A))) = _ := parse_question hY
    rw [updateIn, hparse]
    dsimp only
    rw [hY.decodeSync_encode]
  · rw [List.mem_singleton.mp hframe, ← List.append_nil (_ ++ _)]
    exact frameFacts_none (updateIn_other hY S.name .queryAwareness ⟨by decide, by decide⟩ [])

/-- The answer has all that the peer has and the joiner had not. -/
theorem question_answered (hY : Y.Lib0Laws) (herr : Y.ErrKeepsDoc) {cfg : Configuration}
    {a b : Actor Y} {o : Ambient}
    (hstep : a.step cfg (.command (.externalFrame (question S A) true) o) = some b) :
    b.done R ⊆ (R.rep A).all ∪ told (.documents hY herr R) (publications a b) := by
  have hdeed : a.deed (.command (.externalFrame (question S A) true) o)
      = .answer ((((OutgoingMessage.new Y a.world.name).syncReply Y).writeSyncPayload
        (Y.encodeSync (.syncStep2 (Y.encodeDiff a.world.doc (Y.stateVector A))))).intoBytes) := by
    have hexternal : a.deed (.command (.externalFrame (question S A) true) o)
        = a.world.externalDeed (question S A) true := rfl
    rw [hexternal, World.externalDeed, parse_question hY]
    dsimp only
    rw [World.externalSyncDeed]
    dsimp only
    rw [hY.decodeSync_encode]
    rfl
  have hparse := parse_envelope hY a.world.name .syncReply
    (Y.encodeSync (.syncStep2 (Y.encodeDiff a.world.doc (Y.stateVector A))))
  obtain ⟨u, hdec, hdelta, hok⟩ := R.decode_diff a.world.doc (Y.stateVector A)
  have hfacts := frameFacts_encodes (updateIn_sync hY a.world.name .syncReply (Or.inr rfl)
    (Or.inl (Eq.refl (SyncMessage.syncStep2 (Y.encodeDiff a.world.doc (Y.stateVector A))))))
    ⟨u, hdec, hdelta, hok⟩
  have hreply := publications_answer hstep hdeed
  rw [RedisScaling.replyFrame] at hreply
  have hsome : (IncomingFrame.parse Y ((((OutgoingMessage.new Y a.world.name).syncReply
      Y).writeSyncPayload (Y.encodeSync (.syncStep2 (Y.encodeDiff a.world.doc
        (Y.stateVector A))))).intoBytes)).isSome = true := by
    refine Option.isSome_iff_exists.mpr ⟨_, hparse⟩
  rw [if_pos hsome, Option.toList_some] at hreply
  rw [hreply, told_singleton, Actor.done, (Actor.step_answer hstep hdeed).2]
  refine (Replica.done_subset_diff _ (R.covers (Y.stateVector A))).trans
    (Set.union_subset_union ?_ hfacts.symm.subset)
  rw [R.covers_stateVector]
  exact both_subset.mpr ⟨Replica.ins_subset_recv _, Set.empty_subset _⟩

end

/-! ## What a join keeps -/

section

variable (hY : Y.Lib0Laws) (herr : Y.ErrKeepsDoc) (R : Y.Replicated Op) (S : Settings ι) (p q : ι)
  (A B : Y.Doc)

/-- What the peer had at the start, and all that was published since. -/
def shared (c : Cluster Y ι) : Set (Op ⊕ Op) :=
  (R.rep B).done R.deps ∪ common (.documents hY herr R) c

/-- All of it is in reach of the peer. It is in reach of the joiner too, or
will be when the peer has answered: for that, what either node has published it
has taken in itself. -/
structure Joining (c : Cluster Y ι) : Prop where
  housed : ∀ i, c.cells i = [] ∨ ∃ cell, c.cells i = [cell] ∧ cell.actor.world.name = S.name
  registry : c.registry p = some 0
  entry : c.registry q = none ∨ c.registry q = some 0
  peer : ∃ cell, c.home p = some cell ∧ (R.rep B).all ⊆ (R.rep cell.actor.world.doc).all
  joiner : ∀ cell, c.home q = some cell → (R.rep A).all ⊆ (R.rep cell.actor.world.doc).all
  author : ∀ x ∈ c.published, ∃ cell, c.home x.1 = some cell ∧ frameFacts R x.2 ⊆ cell.actor.done R
  sourced : ∀ i cell, c.home i = some cell → cell.actor.done R ⊆ shared hY herr R B c
  edits : common (.documents hY herr R) c ⊆ (R.rep B).done R.deps ∪ edited R c
  spread : shared hY herr R B c ⊆ reach (.documents hY herr R) S c p
  caught : c.cells q = [] ∨ Asking S p A c ∨
    shared hY herr R B c ⊆ reach (.documents hY herr R) S c q

end

theorem edited_publish {R : Y.Replicated Op} {S : Settings ι} (c : Cluster Y ι) (i : ι)
    (frames : List Bytes) : edited R (c.publish S i frames)
      = edited R c ∪ {x | ∃ f ∈ frames, bringsUpdate Y f = true ∧ x ∈ frameFacts R f} := by
  have hpublished : (c.publish S i frames).published = c.published ++ frames.map fun f => (i, f) :=
    rfl
  ext x
  constructor
  · rintro ⟨y, hy, hupdate, hx⟩
    rw [hpublished] at hy
    rcases List.mem_append.mp hy with hy | hy
    · exact Or.inl ⟨y, hy, hupdate, hx⟩
    · obtain ⟨f, hf, rfl⟩ := List.mem_map.mp hy
      exact Or.inr ⟨f, hf, hupdate, hx⟩
  · rintro (⟨y, hy, hupdate, hx⟩ | ⟨f, hf, hupdate, hx⟩)
    · exact ⟨y, hpublished ▸ List.mem_append_left _ hy, hupdate, hx⟩
    · exact ⟨(i, f), hpublished ▸ List.mem_append_right _ (List.mem_map_of_mem hf), hupdate, hx⟩

theorem home_of_nil {c : Cluster Y ι} {i : ι} (h : c.cells i = []) : c.home i = none := by
  rw [home, h]
  rfl

section

variable {hY : Y.Lib0Laws} {herr : Y.ErrKeepsDoc} {R : Y.Replicated Op} {S : Settings ι} {p q : ι}
  {A B : Y.Doc} {c : Cluster Y ι}

/-- The peer by itself. -/
theorem Alone.joining (hc : Alone S p q c) (htwo : ∀ i, i = p ∨ i = q) {start : Cell Y}
    (hstart : c.home p = some start) :
    Joining hY herr R S p q A start.actor.world.doc c := by
  obtain ⟨cell, hcells, hname⟩ := hc.peer
  have hcommon : common (.documents hY herr R) c = ∅ := by
    refine Set.eq_empty_iff_forall_notMem.mpr ?_
    rintro x ⟨frame, hframe, _⟩
    rw [said, hc.published] at hframe
    exact absurd hframe List.not_mem_nil
  have hshared : shared hY herr R start.actor.world.doc c = start.actor.done R := by
    rw [shared, hcommon, Set.union_empty]
    rfl
  refine ⟨fun i => ?_, hc.registry, Or.inl hc.entry, ⟨start, hstart, subset_rfl⟩, ?_, ?_, ?_, ?_, ?_,
    Or.inl hc.absent⟩
  · rcases htwo i with rfl | rfl
    · exact Or.inr ⟨cell, hcells, hname⟩
    · exact Or.inl hc.absent
  · intro cell hcell
    rw [home_of_nil hc.absent] at hcell
    cases hcell
  · intro x hx
    rw [hc.published] at hx
    exact absurd hx List.not_mem_nil
  · intro i cell hcell
    rcases htwo i with rfl | rfl
    · obtain rfl : start = cell := Option.some.inj (hstart.symm.trans hcell)
      exact hshared.symm.subset
    · rw [home_of_nil hc.absent] at hcell
      cases hcell
  · rw [hcommon]
    exact Set.empty_subset _
  · rw [hshared]
    exact fun x hx => Or.inl ⟨start, hstart, Or.inl (Replica.done_subset_all _ hx)⟩

namespace Joining

variable (hc : Joining hY herr R S p q A B c)

include hc

/-- The only actor of a node is its first. -/
theorem cell_home {i : ι} {j : Nat} {cell : Cell Y} (h : (c.cells i)[j]? = some cell) :
    j = 0 ∧ c.home i = some cell ∧ c.cells i = [cell] ∧ cell.actor.world.name = S.name := by
  rcases hc.housed i with hcells | ⟨cell₀, hcells, hname⟩
  · rw [hcells] at h
    cases h
  · rw [home, hcells]
    rw [hcells] at h
    cases j with
    | zero =>
      cases h
      exact ⟨rfl, rfl, rfl, hname⟩
    | succ j => cases h

/-- What was published the peer or the joiner has taken in. -/
theorem shared_done (htwo : ∀ i, i = p ∨ i = q) {x : Op ⊕ Op} (hx : x ∈ shared hY herr R B c) :
    (∃ cell, c.home p = some cell ∧ x ∈ cell.actor.done R) ∨
      ∃ cell, c.home q = some cell ∧ x ∈ cell.actor.done R := by
  rcases hx with hx | ⟨frame, hframe, hx⟩
  · obtain ⟨cell, hcell, hall⟩ := hc.peer
    exact Or.inl ⟨cell, hcell, Replica.done_mono hall hx⟩
  · obtain ⟨y, hy, rfl⟩ := List.mem_map.mp hframe
    obtain ⟨cell, hcell, hfacts⟩ := hc.author y hy
    rcases htwo y.1 with hp | hq
    · exact Or.inl ⟨cell, hp ▸ hcell, hfacts hx⟩
    · exact Or.inr ⟨cell, hq ▸ hcell, hfacts hx⟩

variable [DecidableEq ι]

/-- The joiner's actor is put in the registry. -/
theorem register (e : ι) (he : e = q) :
    Joining hY herr R S p q A B { c with registry := Function.update c.registry e (some 0) } where
  housed := hc.housed
  registry := by
    subst he
    dsimp only
    by_cases h : p = e
    · rw [h, Function.update_self]
    · rw [Function.update_of_ne h]
      exact hc.registry
  entry := Or.inr (by subst he; exact Function.update_self ..)
  peer := hc.peer
  joiner := hc.joiner
  author := hc.author
  sourced := hc.sourced
  edits := hc.edits
  spread := hc.spread
  caught := hc.caught

/-- The joiner loads what the peer has, and asks. -/
theorem load (hshort : ∀ i, RedisScaling.Short (S.identifier i))
    (hdistinct : Function.Injective S.identifier) (hclean : (parseRoutingKey S.name).1 = S.name)
    (hpq : p ≠ q) (habsent : c.cells q = []) (queues : Queues)
    (hhas : ∀ cell, c.home p = some cell → (R.rep A).done R.deps ⊆ cell.actor.done R) :
    Joining hY herr R S p q A B (({ c with
      cells := Function.update c.cells q (c.cells q ++ [⟨Actor.spawn S.name A queues, []⟩]) } :
        Cluster Y ι).publish S q (RedisScaling.afterLoadDocument Y S.name A)) := by
  generalize hd : (({ c with
      cells := Function.update c.cells q (c.cells q ++ [⟨Actor.spawn S.name A queues, []⟩]) } :
        Cluster Y ι).publish S q (RedisScaling.afterLoadDocument Y S.name A)) = d
  have hcells : ∀ i, d.cells i
      = if i = q then [⟨Actor.spawn S.name A queues, []⟩] else c.cells i := by
    intro i
    rw [← hd]
    by_cases hi : i = q
    · subst hi
      rw [if_pos rfl]
      refine (Function.update_self ..).trans ?_
      rw [habsent]
      rfl
    · rw [if_neg hi]
      exact Function.update_of_ne hi _ _
  have hnew : d.home q = some ⟨Actor.spawn S.name A queues, []⟩ := by
    rw [home, hcells, if_pos rfl]
    rfl
  have hold : ∀ i, i ≠ q → d.home i = c.home i := by
    intro i hi
    rw [home, hcells, if_neg hi]
    rfl
  -- what the joiner publishes here are questions, and they tell nobody anything
  have hnothing : told (.documents hY herr R) (RedisScaling.afterLoadDocument Y S.name A) = ∅ := by
    refine Set.eq_empty_iff_forall_notMem.mpr ?_
    rintro x ⟨frame, hframe, hx⟩
    rw [show (Lore.documents hY herr R).facts frame = ∅ from frameFacts_asked hY frame hframe] at hx
    exact hx
  have hcommon : common (.documents hY herr R) d = common (.documents hY herr R) c := by
    rw [← hd, common_publish, hnothing, Set.union_empty]
    rfl
  have hshared : shared hY herr R B d = shared hY herr R B c := by
    rw [shared, hcommon]
    rfl
  obtain ⟨cell, hcell, hall⟩ := hc.peer
  refine ⟨fun i => ?_, ?_, ?_, ⟨cell, (hold p hpq).trans hcell, hall⟩, ?_, ?_, ?_, ?_, ?_, ?_⟩
  · rw [hcells]
    split
    · exact Or.inr ⟨_, rfl, rfl⟩
    · exact hc.housed i
  · rw [← hd]
    exact hc.registry
  · rw [← hd]
    exact hc.entry
  · intro cell₀ hcell₀
    obtain rfl := Option.some.inj (hnew.symm.trans hcell₀)
    exact subset_rfl
  · intro x hx
    have hx' : x ∈ c.published ++ (RedisScaling.afterLoadDocument Y S.name A).map fun f => (q, f) := by
      rw [← hd] at hx
      exact hx
    rcases List.mem_append.mp hx' with hx | hx
    · -- published before: the joiner was not there, so it is not its author
      obtain ⟨cell₀, hcell₀, hfacts⟩ := hc.author x hx
      refine ⟨cell₀, (hold x.1 fun hq => ?_).trans hcell₀, hfacts⟩
      rw [hq, home_of_nil habsent] at hcell₀
      cases hcell₀
    · obtain ⟨f, hf, rfl⟩ := List.mem_map.mp hx
      refine ⟨_, hnew, ?_⟩
      rw [frameFacts_asked hY f hf]
      exact Set.empty_subset _
  · intro i cell₀ hcell₀
    rw [hshared]
    by_cases hi : i = q
    · subst hi
      obtain rfl := Option.some.inj (hnew.symm.trans hcell₀)
      exact (hhas cell hcell).trans (hc.sourced p cell hcell)
    · exact hc.sourced i cell₀ ((hold i hi).symm.trans hcell₀)
  · rw [hcommon, ← hd, edited_publish]
    exact hc.edits.trans (Set.union_subset_union_right _ Set.subset_union_left)
  · rw [hshared]
    refine hc.spread.trans (reach_mono (fun cell₀ hcell₀ => ?_) ?_)
    · exact ⟨cell₀, (hold p hpq).trans hcell₀, subset_rfl, Set.subset_union_right⟩
    · rw [← hd]
      exact coming_subset_publish (L := .documents hY herr R) (S := S) _ q p _
  -- the question is among the messages that the peer has yet to receive
  · refine Or.inr (Or.inl (Or.inl ?_))
    have hquestion : question S A ∈ RedisScaling.afterLoadDocument Y S.name A :=
      List.mem_cons_self
    have harrive := arrival_messagePrefix hshort (fun h => hpq (hdistinct h).symm)
      (afterLoadDocument_addressed hclean hY A _ hquestion)
    rw [← hd]
    refine List.mem_filterMap.mpr ⟨_, List.mem_append_right _ (List.mem_map_of_mem hquestion), harrive⟩

/-- A node's actor takes a step. A question it takes out of its mailbox is
answered. -/
theorem acted (hshort : ∀ i, RedisScaling.Short (S.identifier i))
    (hdistinct : Function.Injective S.identifier) (hclean : (parseRoutingKey S.name).1 = S.name)
    (hpq : p ≠ q) (htwo : ∀ i, i = p ∨ i = q) {i : ι} {cell cell' : Cell Y} {l : Label Y ι}
    {k : Hocuspocus.Label} (hcell : (c.cells i)[0]? = some cell)
    (hacted : Acted (S.configuration i) cell cell' k) (hdoing : Doing cell cell' i l k)
    (hcompletes : CompletesNothing R c l) : Joining hY herr R S p q A B
      ((c.setCell i 0 cell').publish S i (publications cell.actor cell'.actor)) := by
  obtain ⟨_, hhome, hcells, hname⟩ := hc.cell_home hcell
  have hstep := hacted.step
  have hgrows := Actor.done_step (R := R) hY herr hstep
  have hkeeps := (Lore.documents hY herr R).keeps _ _ _ _ hstep
  have hframes := publications_addressed hclean hY hstep hname
  have htells := publications_edited (R := R) hY hstep
  have htold := fun m => reach_said (L := .documents hY herr R) hshort hdistinct hhome hacted
    hframes m
  have hstays := fun m => reach_acted (L := .documents hY herr R) (S := S) hcell hacted
    (publications cell.actor cell'.actor) m
  generalize hd : (c.setCell i 0 cell').publish S i (publications cell.actor cell'.actor) = d
    at htold hstays
  have hset : ∀ m, d.home m = if m = i ∧ 0 = 0 then some cell' else c.home m := by
    intro m
    rw [← hd]
    exact home_setCell c hcell cell' m
  have hnew : d.home i = some cell' := (hset i).trans (if_pos ⟨rfl, rfl⟩)
  have hold : ∀ m, m ≠ i → d.home m = c.home m := fun m hm => (hset m).trans (if_neg fun h => hm h.1)
  have hlater : ∀ m old, c.home m = some old → ∃ new, d.home m = some new ∧
      old.actor.done R ⊆ new.actor.done R ∧
      (R.rep old.actor.world.doc).all ⊆ (R.rep new.actor.world.doc).all := by
    intro m old hm
    by_cases hmi : m = i
    · subst hmi
      obtain rfl : cell = old := Option.some.inj (hhome.symm.trans hm)
      exact ⟨cell', hnew, hgrows, hkeeps⟩
    · exact ⟨old, (hold m hmi).trans hm, subset_rfl, subset_rfl⟩
  have hcommon : common (.documents hY herr R) d = common (.documents hY herr R) c ∪
      told (.documents hY herr R) (publications cell.actor cell'.actor) := by
    rw [← hd]
    exact common_publish _ i _
  have hshared : shared hY herr R B d = shared hY herr R B c ∪
      told (.documents hY herr R) (publications cell.actor cell'.actor) := by
    rw [shared, hcommon, ← Set.union_assoc]
    rfl
  refine ⟨fun m => ?_, ?_, ?_, ?_, ?_, ?_, ?_, ?_, ?_, ?_⟩
  · by_cases hmi : m = i
    · subst hmi
      refine Or.inr ⟨cell', ?_, (Actor.step_name hstep).trans hname⟩
      rw [← hd]
      refine (Function.update_self ..).trans ?_
      rw [hcells]
      rfl
    · have hsame : d.cells m = c.cells m := by
        rw [← hd]
        exact Function.update_of_ne hmi _ _
      rw [hsame]
      exact hc.housed m
  · rw [← hd]
    exact hc.registry
  · rw [← hd]
    exact hc.entry
  · obtain ⟨old, hm, hall⟩ := hc.peer
    obtain ⟨new, hm', _, hmore⟩ := hlater p old hm
    exact ⟨new, hm', hall.trans hmore⟩
  · intro new hm
    by_cases hmi : q = i
    · subst hmi
      obtain rfl : cell' = new := Option.some.inj (hnew.symm.trans hm)
      exact (hc.joiner cell hhome).trans hkeeps
    · exact hc.joiner new ((hold q hmi).symm.trans hm)
  · intro x hx
    have hx' : x ∈ c.published ++ (publications cell.actor cell'.actor).map fun f => (i, f) := by
      rw [← hd] at hx
      exact hx
    rcases List.mem_append.mp hx' with hx | hx
    · obtain ⟨old, hm, hfacts⟩ := hc.author x hx
      obtain ⟨new, hm', hmore, _⟩ := hlater x.1 old hm
      exact ⟨new, hm', hfacts.trans hmore⟩
    · obtain ⟨f, hf, rfl⟩ := List.mem_map.mp hx
      exact ⟨cell', hnew, publications_done hY hstep f hf⟩
  · intro m new hm
    rw [hshared]
    by_cases hmi : m = i
    · subst hmi
      obtain rfl : cell' = new := Option.some.inj (hnew.symm.trans hm)
      refine (hdoing.done hY herr hhome hstep hcompletes).trans (Set.union_subset ?_ ?_)
      · exact (hc.sourced m cell hhome).trans Set.subset_union_left
      · exact Set.union_subset_union_left _ Set.subset_union_right
    · exact (hc.sourced m new ((hold m hmi).symm.trans hm)).trans Set.subset_union_left
  · have hedits : shared hY herr R B c ⊆ (R.rep B).done R.deps ∪ edited R c :=
      Set.union_subset Set.subset_union_left hc.edits
    rw [hcommon, ← hd, edited_publish, ← Set.union_assoc]
    refine Set.union_subset (hc.edits.trans Set.subset_union_left) ?_
    rintro x ⟨f, hf, hx⟩
    rcases htells f hf with hdone | hupdate
    · exact Or.inl (hedits (hc.sourced i cell hhome (hdone hx)))
    · exact Or.inr ⟨f, hf, hupdate, hx⟩
  · rw [hshared]
    exact Set.union_subset (hc.spread.trans (hstays p)) (htold p)
  · rw [hshared]
    -- What the joiner has itself taken in is in reach of it.
    have hcaught : shared hY herr R B c ⊆ reach (.documents hY herr R) S d q →
        d.cells q = [] ∨ Asking S p A d ∨ shared hY herr R B c ∪
          told (.documents hY herr R) (publications cell.actor cell'.actor)
            ⊆ reach (.documents hY herr R) S d q :=
      fun h => Or.inr (Or.inr (Set.union_subset h (htold q)))
    have hasking : question S A ∈ arriving S c p → Asking S p A d := by
      intro h
      refine Or.inl ?_
      obtain ⟨payload, hpayload, harrive⟩ := List.mem_filterMap.mp h
      rw [← hd]
      exact List.mem_filterMap.mpr ⟨payload, List.mem_append_left _ hpayload, harrive⟩
    rcases hc.caught with habsent | (hway | ⟨peer, hpeer, hmail⟩) | hreach
    · refine Or.inl ?_
      have hqi : q ≠ i := by
        rintro rfl
        rw [habsent] at hcells
        cases hcells
      rw [← hd]
      exact (Function.update_of_ne hqi _ _).trans habsent
    · exact Or.inr (Or.inl (hasking hway))
    · by_cases hpi : p = i
      · subst hpi
        obtain rfl : cell = peer := Option.some.inj (hhome.symm.trans hpeer)
        have hkept : question S A ∈ cell'.inbox → Asking S p A d := fun h => Or.inr ⟨cell', hnew, h⟩
        cases hdoing with
        | own k hown =>
          refine Or.inr (Or.inl (hkept ?_))
          cases hacted with
          | own k hown hstep' hmail' => exact hmail' ▸ hmail
          | mail frame o hstep' hmail' => cases hown
        | mail frame o hmail' =>
          rw [hmail'] at hmail
          rcases List.mem_cons.mp hmail with rfl | hrest
          · rcases hc.housed q with habsent | ⟨joiner, hjoiner, _⟩
            · refine Or.inl ?_
              rw [← hd]
              exact (Function.update_of_ne (Ne.symm hpq) _ _).trans habsent
            · have hq : d.home q = some joiner := by
                rw [hold q (Ne.symm hpq), home, hjoiner]
                rfl
              have hq' : c.home q = some joiner := (hold q (Ne.symm hpq)).symm.trans hq
              refine hcaught fun x hx => ?_
              rcases hc.shared_done htwo hx with ⟨old, hm, hx⟩ | ⟨old, hm, hx⟩
              · obtain rfl : cell = old := Option.some.inj (hhome.symm.trans hm)
                rcases question_answered hY herr hstep (hgrows hx) with hA | htold'
                · exact Or.inl ⟨joiner, hq, Or.inl (hc.joiner joiner hq' hA)⟩
                · exact htold q htold'
              · obtain rfl : joiner = old := Option.some.inj (hq'.symm.trans hm)
                exact Or.inl ⟨joiner, hq, Or.inl (Replica.done_subset_all _ hx)⟩
          · exact Or.inr (Or.inl (hkept hrest))
      · exact Or.inr (Or.inl (Or.inr ⟨peer, (hold p hpi).trans hpeer, hmail⟩))
    · exact hcaught (hreach.trans (hstays q))

/-- A question that comes in is passed on to the peer's actor. -/
theorem asking_receive {i : ι} {n : Nat} {payload : Bytes} (hpayload : (c.flight i)[n]? = some payload)
    (hasking : Asking S p A c) :
    Asking S p A ((arrival S Y i payload).elim (c.taken i n) ((c.taken i n).route i)) := by
  obtain ⟨cell, hcell, _⟩ := hc.peer
  have hflight : ((arrival S Y i payload).elim (c.taken i n) ((c.taken i n).route i)).flight
      = (c.taken i n).flight := by
    cases arrival S Y i payload with
    | none => rfl
    | some frame =>
      rcases (c.taken i n).route_cases i frame with h | ⟨_, _, _, _, h⟩ <;> rw [Option.elim_some, h]
      rfl
  have hway : question S A ∈ arriving S (c.taken i n) p →
      Asking S p A ((arrival S Y i payload).elim (c.taken i n) ((c.taken i n).route i)) := by
    intro h
    refine Or.inl ?_
    rwa [arriving, hflight]
  -- a message for the other node leaves the question where it is
  by_cases hpi : p = i
  · subst hpi
    cases harrive : arrival S Y p payload with
    | none =>
      rcases hasking with h | h
      · rcases (mem_arriving_taken c hpayload).mp h with h | h
        · exact Or.inl h
        · rw [harrive] at h
          cases h
      · exact Or.inr h
    | some frame =>
      obtain ⟨hget, hroute⟩ := route_home (c := c.taken p n) hc.registry hcell frame
      have hnew : ((c.taken p n).route p frame).home p
          = some { cell with inbox := cell.inbox ++ [frame] } := by
        rw [hroute, home_setCell _ hget, if_pos ⟨rfl, rfl⟩]
      rw [harrive] at hway
      rcases hasking with h | ⟨cell₀, hcell₀, h⟩
      · rcases (mem_arriving_taken c hpayload).mp h with h | h
        · exact hway h
        · rw [harrive, Option.toList_some] at h
          exact Or.inr ⟨_, hnew, List.mem_append_right _ h⟩
      · obtain rfl : cell = cell₀ := Option.some.inj (hcell.symm.trans hcell₀)
        exact Or.inr ⟨_, hnew, List.mem_append_left _ h⟩
  · rcases hasking with h | ⟨cell₀, hcell₀, h⟩
    · refine hway ?_
      have hother : (c.taken i n).flight p = c.flight p := Function.update_of_ne hpi _ _
      rwa [arriving, hother]
    · refine Or.inr ⟨cell₀, ?_, h⟩
      cases arrival S Y i payload with
      | none => exact hcell₀
      | some frame =>
        rw [Option.elim_some]
        rcases (c.taken i n).route_cases i frame with hsame | ⟨j, old, _, hold, hset⟩
        · rw [hsame]
          exact hcell₀
        · rw [hset, home_setCell _ hold, if_neg fun h => hpi h.1]
          exact hcell₀

/-- A message comes in. The joiner may drop it. -/
theorem receive {d : Cluster Y ι} {i : ι} {n : Nat} (htwo : ∀ i, i = p ∨ i = q)
    (h : step S c (.receive i n) = some d) (hunlost : Unlost S p q A hY herr R c (.receive i n)) :
    Joining hY herr R S p q A B d := by
  have hpeer : ∃ cell, c.home p = some cell := hc.peer.imp fun _ h => h.1
  have hspread : ∀ k, (i = p ∨ k ≠ i) → reach (.documents hY herr R) S c k
      ⊆ reach (.documents hY herr R) S d k := by
    rintro k (rfl | hk)
    · exact reach_receive h (Or.inl ⟨hpeer, hc.registry⟩) k
    · exact reach_receive_other h hk
  have hreach := reach_receive (L := .documents hY herr R) h
  obtain ⟨payload, hpayload, hd⟩ := step_receive h
  have hasked := fun h : Asking S p A c => hd ▸ hc.asking_receive hpayload h
  have hactor := fun m => hd ▸ actor_receive c i m n (arrival S Y i payload)
  have hpublished : d.published = c.published ∧ d.registry = c.registry := by
    rw [hd]
    cases arrival S Y i payload with
    | none => exact ⟨rfl, rfl⟩
    | some frame =>
      rcases (c.taken i n).route_cases i frame with h | ⟨_, _, _, _, h⟩ <;> rw [Option.elim_some, h]
      · exact ⟨rfl, rfl⟩
      · exact ⟨rfl, rfl⟩
  -- a message that comes in changes an inbox and no actor
  have hcells : ∀ m, (d.cells m).map Cell.actor = (c.cells m).map Cell.actor := by
    intro m
    rw [hd]
    cases arrival S Y i payload with
    | none => rfl
    | some frame =>
      rcases (c.taken i n).route_cases i frame with h | ⟨j, cell, _, hcell, h⟩ <;>
        rw [Option.elim_some, h]
      · rfl
      · by_cases hmi : m = i
        · subst hmi
          have hset : ((c.taken m n).setCell m j { cell with inbox := cell.inbox ++ [frame] }).cells m
              = (c.cells m).set j { cell with inbox := cell.inbox ++ [frame] } :=
            Function.update_self ..
          have hget : (c.cells m)[j]? = some cell := hcell
          obtain ⟨hlt, hj⟩ := List.getElem?_eq_some_iff.mp hget
          rw [hset, List.map_set, ← hj, ← List.getElem_map Cell.actor, List.set_getElem_self]
          rwa [List.length_map]
        · have hset : ((c.taken i n).setCell i j { cell with inbox := cell.inbox ++ [frame] }).cells m
              = c.cells m := Function.update_of_ne hmi _ _
          rw [hset]
  -- the author of what was published has taken in no less than before
  have hlater : ∀ m old, c.home m = some old → ∃ new, d.home m = some new ∧ new.actor = old.actor := by
    intro m old hm
    have h := hactor m
    rw [hm] at h
    exact Option.map_eq_some_iff.mp h
  have hcommon : common (.documents hY herr R) d = common (.documents hY herr R) c := by
    rw [common, said, hpublished.1]
    rfl
  have hshared : shared hY herr R B d = shared hY herr R B c := by
    rw [shared, hcommon]
    rfl
  refine ⟨fun m => ?_, ?_, ?_, ?_, ?_, ?_, ?_, ?_, ?_, ?_⟩
  · have h := hcells m
    rcases hc.housed m with hnil | ⟨cell, hone, hname⟩
    · rw [hnil, List.map_nil, List.map_eq_nil_iff] at h
      exact Or.inl h
    · rw [hone, List.map_cons, List.map_nil, List.map_eq_singleton_iff] at h
      obtain ⟨cell', hone', hactor'⟩ := h
      exact Or.inr ⟨cell', hone', hactor' ▸ hname⟩
  · rw [hpublished.2]
    exact hc.registry
  · rw [hpublished.2]
    exact hc.entry
  · obtain ⟨old, hm, hall⟩ := hc.peer
    obtain ⟨new, hm', hsame⟩ := hlater p old hm
    exact ⟨new, hm', hsame ▸ hall⟩
  · intro new hm
    obtain ⟨old, hold, hsame⟩ := home_receive (hd ▸ hm)
    exact hsame ▸ hc.joiner old hold
  · intro x hx
    rw [hpublished.1] at hx
    obtain ⟨old, hm, hfacts⟩ := hc.author x hx
    obtain ⟨new, hm', hsame⟩ := hlater x.1 old hm
    exact ⟨new, hm', hsame ▸ hfacts⟩
  · intro m new hm
    rw [hshared]
    obtain ⟨old, hold, hsame⟩ := home_receive (hd ▸ hm)
    exact hsame ▸ hc.sourced m old hold
  · rw [hcommon, edited, hpublished.1]
    exact hc.edits
  · rw [hshared]
    refine hc.spread.trans (hspread p ?_)
    by_cases hi : i = p
    · exact Or.inl hi
    · exact Or.inr (Ne.symm hi)
  · rw [hshared]
    rcases hc.caught with habsent | hasking | hcaught
    · refine Or.inl ?_
      have h := hcells q
      rwa [habsent, List.map_nil, List.map_eq_nil_iff] at h
    · exact Or.inr (Or.inl (hasked hasking))
    · by_cases hi : q = i
      · subst hi
        rcases hc.housed q with habsent | ⟨cell, hone, _⟩
        · refine Or.inl ?_
          have h := hcells q
          rwa [habsent, List.map_nil, List.map_eq_nil_iff] at h
        · have hhome : ∃ cell, c.home q = some cell := ⟨cell, by rw [home, hone]; rfl⟩
          -- a node drops what comes in until its registry has the actor
          rcases hc.entry with hentry | hentry
          · rcases hunlost rfl hentry with habsent | hasking | hdropped
            · rw [habsent] at hone
              cases hone
            · exact Or.inr (Or.inl (hasked hasking))
            · exact Or.inr (Or.inr (hcaught.trans (hreach (Or.inr hdropped) q)))
          · exact Or.inr (Or.inr (hcaught.trans (hreach (Or.inl ⟨hhome, hentry⟩) q)))
      · exact Or.inr (Or.inr (hcaught.trans (hspread q (Or.inr hi))))

/-- **The step lemma.** -/
theorem step (hshort : ∀ i, RedisScaling.Short (S.identifier i))
    (hdistinct : Function.Injective S.identifier) (hclean : (parseRoutingKey S.name).1 = S.name)
    (hpq : p ≠ q) (htwo : ∀ i, i = p ∨ i = q) {d : Cluster Y ι} {l : Label Y ι}
    (h : Cluster.step S c l = some d) (hjoins : Joins q A c l)
    (hunlost : Unlost S p q A hY herr R c l) : Joining hY herr R S p q A B d := by
  cases l with
  | load i doc queues =>
    obtain ⟨rfl, rfl, habsent⟩ := hjoins
    rw [Cluster.step, Option.some.injEq] at h
    subst h
    exact hc.load hshort hdistinct hclean hpq habsent queues hunlost
  | register i entry =>
    obtain ⟨rfl, rfl⟩ := hjoins
    rw [Cluster.step, Option.some.injEq] at h
    subst h
    exact hc.register i rfl
  | receive i n => exact hc.receive htwo h hunlost
  | actor i j k =>
    obtain ⟨hown, cell, cell', hcell, hacted, rfl⟩ := step_actor h
    obtain ⟨rfl, _⟩ := hc.cell_home hcell
    exact hc.acted hshort hdistinct hclean hpq htwo hcell hacted (.own k hown) hunlost
  | external i j o =>
    obtain ⟨cell, cell', frame, hcell, hmail, hacted, rfl⟩ := step_external h
    obtain ⟨rfl, _⟩ := hc.cell_home hcell
    exact hc.acted hshort hdistinct hclean hpq htwo hcell hacted (.mail frame o hmail) hunlost

omit [DecidableEq ι] in
/-- Once all is quiet the question is answered, and each node has what was
shared. -/
theorem still (hstill : Still c) {cell : Cell Y} (hcell : c.home q = some cell) :
    shared hY herr R B c ⊆ (R.rep cell.actor.world.doc).all ∧
      ∀ peer, c.home p = some peer → shared hY herr R B c ⊆ (R.rep peer.actor.world.doc).all := by
  have hknown : ∀ k cell, c.home k = some cell →
      reach (.documents hY herr R) S c k ⊆ (R.rep cell.actor.world.doc).all := by
    rintro k cell hcell x (⟨cell₀, hcell₀, hx | ⟨frame, hframe, _⟩⟩ | ⟨frame, hframe, _⟩)
    · obtain rfl : cell = cell₀ := Option.some.inj (hcell.symm.trans hcell₀)
      exact hx
    · rw [(hstill k).2 cell₀ (List.mem_of_getElem? hcell₀)] at hframe
      exact absurd hframe List.not_mem_nil
    · rw [arriving, (hstill k).1] at hframe
      exact absurd hframe List.not_mem_nil
  refine ⟨?_, fun peer hpeer => hc.spread.trans (hknown p peer hpeer)⟩
  rcases hc.caught with habsent | (hway | ⟨peer, hpeer, hmail⟩) | hcaught
  · rw [home_of_nil habsent] at hcell
    cases hcell
  · rw [arriving, (hstill p).1] at hway
    cases hway
  · rw [(hstill p).2 peer (List.mem_of_getElem? hpeer)] at hmail
    cases hmail
  · exact hcaught.trans (hknown q cell hcell)

end Joining

end

end Cluster

open Cluster in
/-- **Joining converges** in every run in which nothing is lost to the joiner
or to the peer: once all is quiet, each of them has integrated what there is in
the document that was loaded, in the peer's, and in the updates published. -/
theorem joining_converges {Op ι : Type} [DecidableEq ι] (hY : Y.Lib0Laws) (herr : Y.ErrKeepsDoc)
    (R : Y.Replicated Op) (S : Settings ι) (hshort : ∀ i, RedisScaling.Short (S.identifier i))
    (hdistinct : Function.Injective S.identifier) (hclean : (parseRoutingKey S.name).1 = S.name)
    {p q : ι} (hpq : p ≠ q) (htwo : ∀ i, i = p ∨ i = q) (A : Y.Doc) {c d : Cluster Y ι}
    {ls : List (Cluster.Label Y ι)} (halone : Alone S p q c)
    (hrun : Lts.exec (step S) c ls = some d)
    (hjoins : Lts.Along (step S) (fun c l _ => Joins q A c l) c ls)
    (hunlost : Lts.Along (step S) (fun c l _ => Unlost S p q A hY herr R c l) c ls)
    (hstill : Still d) {start peer joiner : Cell Y} (hstart : c.home p = some start)
    (hpeer : d.home p = some peer) (hjoiner : d.home q = some joiner) :
    peer.actor.done R = (Replica.holding
      ((R.rep A).all ∪ (R.rep start.actor.world.doc).all ∪ edited R d)).done R.deps ∧
    joiner.actor.done R = (Replica.holding
      ((R.rep A).all ∪ (R.rep start.actor.world.doc).all ∪ edited R d)).done R.deps := by
  have hend : Joining hY herr R S p q A start.actor.world.doc d := by
    refine Lts.exec_invariant_along ?_ (Lts.along_and hjoins hunlost) hrun
      (halone.joining htwo hstart)
    intro s l t hstep hl hs
    exact hs.step hshort hdistinct hclean hpq htwo hstep hl.1 hl.2
  obtain ⟨hjoiner', hpeer'⟩ := hend.still hstill hjoiner
  -- all is quiet, so each has what the other has
  have hsame : peer.actor.done R = joiner.actor.done R := by
    refine subset_antisymm ?_ ?_
    · exact Replica.done_of_contains
        (Replica.contains_of_all ((hend.sourced p peer hpeer).trans hjoiner'))
    · exact Replica.done_of_contains
        (Replica.contains_of_all ((hend.sourced q joiner hjoiner).trans (hpeer' peer hpeer)))
  have hupper : (R.rep A).all ∪ (R.rep start.actor.world.doc).all ∪ edited R d
      ⊆ (R.rep peer.actor.world.doc).all ∪ (R.rep joiner.actor.world.doc).all := by
    obtain ⟨cell, hcell, hB⟩ := hend.peer
    obtain rfl : peer = cell := Option.some.inj (hpeer.symm.trans hcell)
    have hedited : edited R d ⊆ common (.documents hY herr R) d := by
      rintro x ⟨y, hy, _, hx⟩
      exact ⟨y.2, List.mem_map_of_mem hy, hx⟩
    refine Set.union_subset (Set.union_subset ?_ ?_) ?_
    · exact (hend.joiner joiner hjoiner).trans Set.subset_union_right
    · exact hB.trans Set.subset_union_left
    · exact (hedited.trans Set.subset_union_right).trans
        ((hpeer' peer hpeer).trans Set.subset_union_left)
  have hlower : peer.actor.done R
      ⊆ (R.rep A).all ∪ (R.rep start.actor.world.doc).all ∪ edited R d := by
    have hB : (R.rep start.actor.world.doc).done R.deps ⊆ (R.rep start.actor.world.doc).all :=
      Replica.done_subset_all _
    have hshared : shared hY herr R start.actor.world.doc d
        ⊆ (R.rep start.actor.world.doc).done R.deps ∪ edited R d :=
      Set.union_subset Set.subset_union_left hend.edits
    refine ((hend.sourced p peer hpeer).trans hshared).trans (Set.union_subset ?_ ?_)
    · exact hB.trans (Set.subset_union_right.trans Set.subset_union_left)
    · exact Set.subset_union_right
  have hjoin : (Replica.holding _).done R.deps = _ := Replica.done_holding hsame hupper hlower
  exact ⟨hjoin.symm, hsame.symm.trans hjoin.symm⟩

/-! ## On documents of one writer -/

namespace OneWriter

/-- The node `a` has the empty document, and `b` has none. -/
def alone : Cluster yrs Bool where
  cells := fun i => if i then [⟨start 8, []⟩] else []
  registry := fun i => if i then some 0 else none
  flight := fun _ => []
  published := []

theorem alone_alone : Cluster.Alone nodes true false alone where
  peer := ⟨_, rfl, rfl⟩
  registry := rfl
  absent := rfl
  entry := rfl
  still := still_of_quiet (by decide)
  published := rfl

/-- Where the labels lead from there. -/
def join (ls : List (Cluster.Label yrs Bool)) : Cluster yrs Bool :=
  Lts.reach (Cluster.step nodes) alone ls

/-- The document in the storage: the first edit. -/
def stored : Doc := ⟨[0], []⟩

def isStored (doc : Doc) : Bool := decide (doc = stored)

theorem isStored_sound {doc : Doc} (h : isStored doc = true) : doc = stored := of_decide_eq_true h

def joins (c : Cluster yrs Bool) : Cluster.Label yrs Bool → Bool
  | .load i doc _ => !i && isStored doc && (c.cells false).isEmpty
  | .register i entry => !i && decide (entry = some 0)
  | _ => true

theorem joins_sound {c : Cluster yrs Bool} {l : Cluster.Label yrs Bool} (h : joins c l = true) :
    Cluster.Joins false stored c l := by
  cases l with
  | load i doc queues =>
    rw [joins, Bool.and_eq_true, Bool.and_eq_true] at h
    exact ⟨Bool.not_eq_true' _ |>.mp h.1.1, isStored_sound h.1.2, List.isEmpty_iff.mp h.2⟩
  | register i entry =>
    rw [joins, Bool.and_eq_true] at h
    exact ⟨Bool.not_eq_true' _ |>.mp h.1, of_decide_eq_true h.2⟩
  | _ => trivial

/-- The peer has what is loaded, and the joiner drops a frame only before it
loads or while its question is on the way. -/
def unlost (c : Cluster yrs Bool) : Cluster.Label yrs Bool → Bool
  | .load _ doc _ => (c.home true).all fun cell =>
    decide (frontier doc ≤ frontier cell.actor.world.doc) && (Doc.gone doc).isEmpty
  | .receive i _ => i || (c.registry false).isSome || (c.cells false).isEmpty ||
    decide (@Cluster.question yrs _ nodes stored ∈ Cluster.arriving nodes c true)
  | l => completesNothing c l

theorem unlost_sound {c : Cluster yrs Bool} {l : Cluster.Label yrs Bool} (h : unlost c l = true) :
    Cluster.Unlost nodes true false stored lib0Laws errKeepsDoc replicated c l := by
  cases l with
  | load i doc queues =>
    intro cell hcell
    rw [unlost, hcell, Option.all_some, Bool.and_eq_true] at h
    obtain ⟨hle, hgone⟩ := h
    have hle : frontier doc ≤ frontier cell.actor.world.doc := of_decide_eq_true hle
    have hnone : Doc.gone doc = [] := List.isEmpty_iff.mp hgone
    have hins := ins_rep doc
    have hgone := gone_rep doc
    rw [hnone] at hgone
    refine Causal.both_subset.mpr ⟨?_, ?_⟩
    · refine hins.subset.trans (subset_trans ?_ (ins_rep cell.actor.world.doc).symm.subset)
      intro o (ho : o < frontier doc)
      exact Nat.lt_of_lt_of_le ho hle
    · refine hgone.subset.trans ?_
      intro o ho
      exact absurd ho List.not_mem_nil
  | receive i n =>
    intro hi hentry
    subst hi
    rw [unlost, hentry, Bool.or_eq_true, Bool.or_eq_true, Bool.or_eq_true] at h
    rcases h with ((h | h) | h) | h
    · cases h
    · cases h
    · exact Or.inl (List.isEmpty_iff.mp h)
    · exact Or.inr (Or.inl (Or.inl (of_decide_eq_true h)))
  | register i entry => trivial
  | actor i j k => trivial
  | external i j o =>
    have hcheck : completesNothing c (.external i j o) = true := h
    exact completesNothing_sound hcheck

def receives (i : Bool) (n : Nat) : List (Cluster.Label yrs Bool) := List.replicate n (.receive i 0)

end OneWriter

/-- The peer has two edits, of which the storage has one, and makes another one
while the joiner asks; then the joiner makes one. What the joiner gets before
it is in the registry is lost. -/
def joined : List (Cluster.Label OneWriter.yrs Bool) :=
  [OneWriter.edits true 0, OneWriter.edits true 1,
    .load false OneWriter.stored (OneWriter.queues 8), OneWriter.edits true 2] ++
  OneWriter.receives false 2 ++ [.receive false 2, .register false (some 0)] ++
  OneWriter.receives true 2 ++ OneWriter.hears true 0 ++ OneWriter.hears true 0 ++
  OneWriter.receives true 3 ++ OneWriter.receives false 2 ++
  OneWriter.hears false 0 ++ OneWriter.hears false 0 ++
  [OneWriter.edits false 3] ++ OneWriter.hears true 0 ++ [.receive false 0]

/-- The storage has an edit that the peer has not. -/
def storedAhead : List (Cluster.Label OneWriter.yrs Bool) :=
  [.load false OneWriter.stored (OneWriter.queues 8), .register false (some 0)] ++
  OneWriter.hears true 0 ++ OneWriter.hears true 0 ++ OneWriter.receives true 2 ++
  OneWriter.receives false 2 ++ OneWriter.hears false 0 ++ OneWriter.hears false 0

/-- The peer's answer comes in before the joiner is in its registry. -/
def answeredEarly : List (Cluster.Label OneWriter.yrs Bool) :=
  [OneWriter.edits true 0, OneWriter.edits true 1,
    .load false OneWriter.stored (OneWriter.queues 8)] ++
  OneWriter.receives true 2 ++ OneWriter.hears true 0 ++ OneWriter.hears true 0 ++
  OneWriter.receives true 2 ++ OneWriter.receives false 6 ++ [.register false (some 0)]

theorem joining_converges_joined :
    (OneWriter.join joined).Still ∧
    ((OneWriter.join joined).home false).map (fun cell => OneWriter.frontier cell.actor.world.doc)
      = some 4 ∧
    ∀ peer joiner, (OneWriter.join joined).home true = some peer →
      (OneWriter.join joined).home false = some joiner →
      peer.actor.done OneWriter.replicated = joiner.actor.done OneWriter.replicated := by
  have hstill : (OneWriter.join joined).Still := OneWriter.still_of_quiet (by decide +kernel)
  refine ⟨hstill, by decide +kernel, fun peer joiner hpeer hjoiner => ?_⟩
  obtain ⟨hp, hq⟩ := joining_converges OneWriter.lib0Laws OneWriter.errKeepsDoc OneWriter.replicated
    OneWriter.nodes OneWriter.nodes_short OneWriter.nodes_distinct (by decide) (by decide)
    (by decide) OneWriter.stored OneWriter.alone_alone (Lts.exec_reach (by decide +kernel))
    (Lts.along_of_check (fun _ _ _ => OneWriter.joins_sound) (by decide +kernel))
    (Lts.along_of_check (fun _ _ _ => OneWriter.unlost_sound) (by decide +kernel))
    hstill rfl hpeer hjoiner
  exact hp.trans hq.symm

/-- All is quiet after such a join, and one of the two has less than the
other. -/
def OneWriter.Apart (ls : List (Cluster.Label OneWriter.yrs Bool)) : Prop :=
  ∃ peer joiner, (OneWriter.join ls).home true = some peer ∧
    (OneWriter.join ls).home false = some joiner ∧ (OneWriter.join ls).Still ∧
    Lts.exec (Cluster.step OneWriter.nodes) OneWriter.alone ls = some (OneWriter.join ls) ∧
    Lts.Along (Cluster.step OneWriter.nodes)
      (fun c l _ => Cluster.Joins false OneWriter.stored c l) OneWriter.alone ls ∧
    peer.actor.done OneWriter.replicated ≠ joiner.actor.done OneWriter.replicated

theorem OneWriter.apart_of_frontiers {ls : List (Cluster.Label OneWriter.yrs Bool)}
    (hquiet : quiet (join ls) = true)
    (hrun : (Lts.exec (Cluster.step nodes) alone ls).isSome = true)
    (hjoins : Lts.check (Cluster.step nodes) joins alone ls = true) {m n : Nat} (hmn : m ≠ n)
    (hdocs : ∀ i, ((join ls).home i).map (fun cell => frontier cell.actor.world.doc)
      = some (if i then m else n)) : Apart ls := by
  obtain ⟨peer, hpeer, hm⟩ := Option.map_eq_some_iff.mp (hdocs true)
  obtain ⟨joiner, hjoiner, hn⟩ := Option.map_eq_some_iff.mp (hdocs false)
  refine ⟨peer, joiner, hpeer, hjoiner, still_of_quiet hquiet, Lts.exec_reach hrun,
    Lts.along_of_check (fun _ _ _ => joins_sound) hjoins, fun hsame => ?_⟩
  have hins : (rep peer.actor.world.doc).ins deps = (rep joiner.actor.world.doc).ins deps :=
    subset_antisymm (Causal.both_subset.mp hsame.subset).1
      (Causal.both_subset.mp hsame.symm.subset).1
  have hbelow : {c | c < m} = {c | c < n} := by
    have h := (ins_rep _).symm.trans (hins.trans (ins_rep _))
    rwa [hm, hn] at h
  rcases Nat.lt_or_gt_of_ne hmn with hlt | hlt
  · exact Nat.lt_irrefl m (hbelow.symm.subset hlt)
  · exact Nat.lt_irrefl n (hbelow.subset hlt)

/-- Neither what only the storage had reaches the peer, nor what the peer
answers too early the joiner. -/
theorem joining_diverges : OneWriter.Apart storedAhead ∧ OneWriter.Apart answeredEarly :=
  ⟨OneWriter.apart_of_frontiers (m := 0) (n := 1) (by decide +kernel) (by decide +kernel)
      (by decide +kernel) (by decide) (by decide +kernel),
    OneWriter.apart_of_frontiers (m := 2) (n := 1) (by decide +kernel) (by decide +kernel)
      (by decide +kernel) (by decide) (by decide +kernel)⟩

end Hocuspocus
