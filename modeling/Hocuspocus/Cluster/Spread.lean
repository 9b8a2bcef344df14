import Mathlib.Data.Set.Lattice
import Hocuspocus.Cluster.Questions
import Hocuspocus.OneWriter.Nodes

/-!
# How facts spread over the nodes

A frame tells facts, and an actor knows some: operations it has received, say,
or versions of presence entries. `Lore` is a reading of this kind. It asks for
little: an actor never forgets, it knows what a frame has told it, and it
knows what it publishes.

What a node knows, together with what waits in its mailbox or is on its way to
it, is its `reach`. No step takes anything from it, except that a frame is
lost for which the registry has no entry; and what a node publishes is at once
in reach of every other. So all that was ever published is in reach of every
resident node, and known to it once nothing is on the way.
-/

namespace Hocuspocus

variable {Y : Yrs}

/-- A reading of frames and actors as sets of facts. -/
structure Lore (Y : Yrs) (F : Type) where
  facts : Bytes → Set F
  known : Actor Y → Set F
  keeps : ∀ cfg (a b : Actor Y) l, a.step cfg l = some b → known a ⊆ known b
  heard : ∀ cfg (a b : Actor Y) frame o,
    a.step cfg (.command (.externalFrame frame true) o) = some b → facts frame ⊆ known b
  said : ∀ cfg (a b : Actor Y) l, a.step cfg l = some b →
    ∀ frame ∈ Cluster.publications a b, facts frame ⊆ known b

namespace Cluster

variable {F ι : Type} (L : Lore Y F) (S : Settings ι)

/-- What a list of frames tells. -/
def told (frames : List Bytes) : Set F := {x | ∃ frame ∈ frames, x ∈ L.facts frame}

/-- What the subscriber of a node passes on of a payload. -/
def arrival (Y : Yrs) (i : ι) (payload : Bytes) : Option Bytes :=
  match RedisScaling.subscriber Y (S.identifier i) payload with
  | none => none
  | some (documentName, frame) => if documentName = S.name then some frame else none

/-- The first actor of a node, with its mailbox. -/
def home (c : Cluster Y ι) (i : ι) : Option (Cell Y) := (c.cells i)[0]?

/-- The frames on their way to a node, and what they tell. -/
def arriving (c : Cluster Y ι) (i : ι) : List Bytes := (c.flight i).filterMap (arrival S Y i)

def coming (c : Cluster Y ι) (i : ι) : Set F := told L (arriving S c i)

/-- What a node knows or will be told. -/
def reach (c : Cluster Y ι) (i : ι) : Set F :=
  {x | ∃ cell, c.home i = some cell ∧ (x ∈ L.known cell.actor ∨ x ∈ told L cell.inbox)} ∪
    coming L S c i

/-- What was ever published. -/
def said (c : Cluster Y ι) : List Bytes := c.published.map Prod.snd

def common (c : Cluster Y ι) : Set F := told L c.said

/-- The frame is for the document, by its address. -/
def Addressed (Y : Yrs) (frame : Bytes) : Prop :=
  ∃ parsed, IncomingFrame.parse Y frame = some parsed ∧ (parseRoutingKey parsed.routingKey).1 = S.name

variable {L S}

theorem told_append (frames frames' : List Bytes) :
    told L (frames ++ frames') = told L frames ∪ told L frames' := by
  ext x
  constructor
  · rintro ⟨frame, hmem, hx⟩
    exact (List.mem_append.mp hmem).imp (fun h => ⟨frame, h, hx⟩) fun h => ⟨frame, h, hx⟩
  · rintro (⟨frame, hmem, hx⟩ | ⟨frame, hmem, hx⟩)
    · exact ⟨frame, List.mem_append_left _ hmem, hx⟩
    · exact ⟨frame, List.mem_append_right _ hmem, hx⟩

theorem told_singleton (frame : Bytes) : told L [frame] = L.facts frame := by
  ext x
  constructor
  · rintro ⟨f, hmem, hx⟩
    exact List.mem_singleton.mp hmem ▸ hx
  · exact fun hx => ⟨frame, List.mem_singleton_self frame, hx⟩

/-- A message reaches the other nodes as it was sent. -/
theorem arrival_messagePrefix (hshort : ∀ i, RedisScaling.Short (S.identifier i)) {i k : ι}
    (hid : S.identifier i ≠ S.identifier k) {frame : Bytes} (hframe : Addressed S Y frame) :
    arrival S Y k (RedisScaling.messagePrefix (S.identifier i) ++ frame) = some frame := by
  obtain ⟨parsed, hparse, hname⟩ := hframe
  unfold arrival RedisScaling.subscriber
  rw [RedisScaling.foreignFrame_messagePrefix (hshort i), if_neg hid, Option.bind_some, hparse]
  exact if_pos hname

/-- What a node can reach grows with what its home knows and what is on the
way. -/
theorem reach_mono {c d : Cluster Y ι} {i : ι}
    (hhome : ∀ cell, c.home i = some cell → ∃ cell', d.home i = some cell' ∧
      L.known cell.actor ⊆ L.known cell'.actor ∧
      told L cell.inbox ⊆ L.known cell'.actor ∪ told L cell'.inbox)
    (hcoming : coming L S c i ⊆ coming L S d i) : reach L S c i ⊆ reach L S d i := by
  rintro x (⟨cell, hcell, hx⟩ | hx)
  · obtain ⟨cell', hcell', hknown, htold⟩ := hhome cell hcell
    refine Or.inl ⟨cell', hcell', ?_⟩
    rcases hx with hx | hx
    · exact Or.inl (hknown hx)
    · exact htold hx
  · exact Or.inr (hcoming hx)

/-- What is published is on its way to the others. -/
theorem coming_publish [DecidableEq ι] (hshort : ∀ i, RedisScaling.Short (S.identifier i))
    {i k : ι} (hid : S.identifier i ≠ S.identifier k) (c : Cluster Y ι) {frames : List Bytes}
    (hframes : ∀ frame ∈ frames, Addressed S Y frame) :
    coming L S (c.publish S i frames) k = coming L S c k ∪ told L frames := by
  have hflight : (c.publish S i frames).flight k = c.flight k ++ frames.map fun f =>
      RedisScaling.messagePrefix (S.identifier i) ++ f := rfl
  rw [coming, arriving, hflight, List.filterMap_append, told_append, List.filterMap_map]
  have harrive : List.filterMap (arrival S Y k ∘ fun f =>
      RedisScaling.messagePrefix (S.identifier i) ++ f) frames = frames :=
    (List.filterMap_congr fun f hf => arrival_messagePrefix hshort hid (hframes f hf)).trans
      List.filterMap_some
  rw [harrive]
  rfl

theorem coming_subset_publish [DecidableEq ι] (c : Cluster Y ι) (i k : ι) (frames : List Bytes) :
    coming L S c k ⊆ coming L S (c.publish S i frames) k := by
  have hflight : (c.publish S i frames).flight k = c.flight k ++ frames.map fun f =>
      RedisScaling.messagePrefix (S.identifier i) ++ f := rfl
  rw [coming, coming, arriving, arriving, hflight, List.filterMap_append, told_append]
  exact Set.subset_union_left

/-! ## Single steps -/

section

variable [DecidableEq ι]

/-- A message is off the line. -/
def taken (c : Cluster Y ι) (i : ι) (n : Nat) : Cluster Y ι :=
  { c with flight := Function.update c.flight i ((c.flight i).eraseIdx n) }

theorem step_receive {c d : Cluster Y ι} {i : ι} {n : Nat} (h : step S c (.receive i n) = some d) :
    ∃ payload, (c.flight i)[n]? = some payload ∧
      d = (arrival S Y i payload).elim (c.taken i n) ((c.taken i n).route i) := by
  rw [step] at h
  split at h
  next => cases h
  next payload hpayload =>
    refine ⟨payload, hpayload, ?_⟩
    unfold arrival
    dsimp only at h
    cases hsub : RedisScaling.subscriber Y (S.identifier i) payload with
    | none =>
      rw [hsub] at h
      exact (Option.some.inj h).symm
    | some found =>
      rw [hsub] at h
      dsimp only at h ⊢
      split at h
      next hname =>
        rw [if_pos hname]
        exact (Option.some.inj h).symm
      next hname =>
        rw [if_neg hname]
        exact (Option.some.inj h).symm

/-- Of what was on the way to a node, the rest and the one that arrives. -/
theorem mem_arriving_taken (c : Cluster Y ι) {i : ι} {n : Nat} {payload : Bytes}
    (h : (c.flight i)[n]? = some payload) {frame : Bytes} : frame ∈ arriving S c i ↔
      frame ∈ arriving S (c.taken i n) i ∨ frame ∈ (arrival S Y i payload).toList := by
  obtain ⟨hlt, rfl⟩ := List.getElem?_eq_some_iff.mp h
  have hflight : (c.taken i n).flight i = (c.flight i).eraseIdx n := Function.update_self ..
  have hsplit : (c.flight i).take n ++ (c.flight i)[n] :: (c.flight i).drop (n + 1) = c.flight i := by
    rw [List.getElem_cons_drop, List.take_append_drop]
  have hone : ∀ l : List Bytes, frame ∈ List.filterMap (arrival S Y i) ((c.flight i)[n] :: l) ↔
      frame ∈ (arrival S Y i (c.flight i)[n]).toList ∨ frame ∈ List.filterMap (arrival S Y i) l := by
    intro l
    rw [← List.mem_append, List.filterMap_cons]
    cases arrival S Y i (c.flight i)[n] <;> rfl
  rw [arriving, arriving, hflight, List.eraseIdx_eq_take_drop_succ]
  conv_lhs => rw [← hsplit]
  rw [List.filterMap_append, List.filterMap_append, List.mem_append, List.mem_append, hone]
  exact ⟨fun h => h.elim (fun h => Or.inl (Or.inl h)) fun h => h.elim Or.inr fun h => Or.inl (Or.inr h),
    fun h => h.elim (fun h => h.imp id Or.inr) fun h => Or.inr (Or.inl h)⟩

theorem coming_taken (c : Cluster Y ι) {i : ι} {n : Nat} {payload : Bytes}
    (h : (c.flight i)[n]? = some payload) : coming L S c i
      = coming L S (c.taken i n) i ∪ told L (arrival S Y i payload).toList := by
  ext x
  constructor
  · rintro ⟨frame, hframe, hx⟩
    exact ((mem_arriving_taken c h).mp hframe).imp (fun h => ⟨frame, h, hx⟩) fun h => ⟨frame, h, hx⟩
  · rintro (⟨frame, hframe, hx⟩ | ⟨frame, hframe, hx⟩)
    · exact ⟨frame, (mem_arriving_taken c h).mpr (Or.inl hframe), hx⟩
    · exact ⟨frame, (mem_arriving_taken c h).mpr (Or.inr hframe), hx⟩

theorem coming_taken_other (c : Cluster Y ι) {i k : ι} (hk : k ≠ i) (n : Nat) :
    coming L S (c.taken i n) k = coming L S c k := by
  have hflight : (c.taken i n).flight k = c.flight k := Function.update_of_ne hk _ _
  rw [coming, coming, arriving, arriving, hflight]

/-- A frame that is passed on lands in a mailbox; nothing else changes. -/
theorem route_cases (c : Cluster Y ι) (i : ι) (frame : Bytes) :
    c.route i frame = c ∨ ∃ j cell, c.registry i = some j ∧ (c.cells i)[j]? = some cell ∧
      c.route i frame = c.setCell i j { cell with inbox := cell.inbox ++ [frame] } := by
  unfold route
  split
  next => exact Or.inl rfl
  next j hj =>
    split
    next => exact Or.inl rfl
    next cell hcell => exact Or.inr ⟨j, cell, hj, hcell, rfl⟩

/-- With an entry for its home a node passes a frame on. -/
theorem route_home {c : Cluster Y ι} {i : ι} {cell : Cell Y} (hregistry : c.registry i = some 0)
    (hcell : c.home i = some cell) (frame : Bytes) : (c.cells i)[0]? = some cell ∧
      c.route i frame = c.setCell i 0 { cell with inbox := cell.inbox ++ [frame] } := by
  have hget : (c.cells i)[0]? = some cell := hcell
  refine ⟨hget, ?_⟩
  unfold route
  rw [hregistry]
  dsimp only
  rw [hget]

theorem home_setCell (c : Cluster Y ι) {i : ι} {j : Nat} {cell : Cell Y}
    (hcell : (c.cells i)[j]? = some cell) (cell' : Cell Y) (k : ι) :
    (c.setCell i j cell').home k = if k = i ∧ j = 0 then some cell' else c.home k := by
  by_cases hk : k = i
  · subst hk
    have hcells : (c.setCell k j cell').cells k = (c.cells k).set j cell' := Function.update_self ..
    obtain ⟨hlt, _⟩ := List.getElem?_eq_some_iff.mp hcell
    rw [home, hcells, List.getElem?_set]
    by_cases hj : j = 0
    · rw [if_pos hj, if_pos (hj ▸ hlt), if_pos ⟨rfl, hj⟩]
    · rw [if_neg hj, if_neg fun h => hj h.2]
      rfl
  · have hcells : (c.setCell i j cell').cells k = c.cells k := Function.update_of_ne hk _ _
    rw [home, hcells, if_neg fun h => hk h.1]
    rfl

/-- One mailbox or actor changes, and no fact is lost by it. -/
theorem reach_setCell {c : Cluster Y ι} {i : ι} {j : Nat} {cell : Cell Y}
    (hcell : (c.cells i)[j]? = some cell) (cell' : Cell Y)
    (hknown : L.known cell.actor ⊆ L.known cell'.actor)
    (htold : told L cell.inbox ⊆ L.known cell'.actor ∪ told L cell'.inbox) (k : ι) :
    reach L S c k ⊆ reach L S (c.setCell i j cell') k := by
  refine reach_mono ?_ subset_rfl
  intro cell₀ hhome
  rw [home_setCell c hcell]
  by_cases hk : k = i ∧ j = 0
  · obtain ⟨rfl, rfl⟩ := hk
    obtain rfl : cell = cell₀ := Option.some.inj (hcell.symm.trans hhome)
    exact ⟨cell', if_pos ⟨rfl, rfl⟩, hknown, htold⟩
  · exact ⟨cell₀, by rw [if_neg hk]; exact hhome, subset_rfl, Set.subset_union_right⟩

theorem reach_publish (c : Cluster Y ι) (i k : ι) (frames : List Bytes) :
    reach L S c k ⊆ reach L S (c.publish S i frames) k :=
  reach_mono (fun cell h => ⟨cell, h, subset_rfl, Set.subset_union_right⟩)
    (coming_subset_publish c i k frames)

theorem reach_route (c : Cluster Y ι) (i k : ι) (frame : Bytes) :
    reach L S c k ⊆ reach L S (c.route i frame) k := by
  rcases c.route_cases i frame with h | ⟨j, cell, _, hcell, h⟩
  · rw [h]
  · rw [h]
    refine reach_setCell hcell { cell with inbox := cell.inbox ++ [frame] } subset_rfl ?_ k
    dsimp only
    rw [told_append]
    exact Set.subset_union_left.trans Set.subset_union_right

/-- The rest of the messages do not get lost. -/
theorem reach_passed (c : Cluster Y ι) (i : ι) (n : Nat) (arrived : Option Bytes) (k : ι) :
    reach L S (c.taken i n) k ⊆ reach L S (arrived.elim (c.taken i n) ((c.taken i n).route i)) k := by
  cases arrived with
  | none => exact subset_rfl
  | some frame => exact reach_route (c.taken i n) i k frame

/-- A message that comes in elsewhere takes nothing from a node. -/
theorem reach_receive_other {c d : Cluster Y ι} {i : ι} {n : Nat}
    (h : step S c (.receive i n) = some d) {k : ι} (hk : k ≠ i) :
    reach L S c k ⊆ reach L S d k := by
  obtain ⟨payload, hpayload, rfl⟩ := step_receive h
  refine subset_trans ?_ (reach_passed c i n _ k)
  rintro x (hx | hx)
  · exact Or.inl hx
  · refine Or.inr ?_
    rw [coming_taken_other c hk]
    exact hx

/-- What reached a node still does when a message comes in, unless there is no
entry for it; then the facts of that one frame must be in reach without it. -/
theorem reach_receive {c d : Cluster Y ι} {i : ι} {n : Nat} (h : step S c (.receive i n) = some d)
    (hpassed : (∃ cell, c.home i = some cell) ∧ c.registry i = some 0 ∨
      ∀ payload frame, (c.flight i)[n]? = some payload → arrival S Y i payload = some frame →
        L.facts frame ⊆ reach L S (c.taken i n) i) (k : ι) :
    reach L S c k ⊆ reach L S d k := by
  by_cases hk : k = i
  · subst hk
    obtain ⟨payload, hpayload, rfl⟩ := step_receive h
    have hrest := reach_passed (L := L) (S := S) c k n (arrival S Y k payload) k
    have hcoming := coming_taken (L := L) (S := S) c hpayload
    rintro x (hx | hx)
    · exact hrest (Or.inl hx)
    · rw [hcoming] at hx
      rcases hx with hx | ⟨frame, hframe, hx⟩
      · exact hrest (Or.inr hx)
      · have harrive : arrival S Y k payload = some frame := Option.mem_toList.mp hframe
        rcases hpassed with ⟨⟨cell, hcell⟩, hregistry⟩ | hdropped
        · rw [harrive, Option.elim_some]
          obtain ⟨hget, hroute⟩ := route_home (c := c.taken k n) hregistry hcell frame
          refine Or.inl ⟨{ cell with inbox := cell.inbox ++ [frame] }, ?_, Or.inr ⟨frame, ?_, hx⟩⟩
          · rw [hroute, home_setCell _ hget, if_pos ⟨rfl, rfl⟩]
          · exact List.mem_append_right _ (List.mem_singleton_self frame)
        · exact hrest (hdropped payload frame hpayload harrive hx)
  · exact reach_receive_other h hk

end

/-! ## Steps of an actor -/

/-- A step of an actor, with its mailbox. -/
inductive Acted (cfg : Configuration) (cell cell' : Cell Y) : Hocuspocus.Label → Prop
  | own (l : Hocuspocus.Label) (hown : fromPeer l = false)
    (hstep : cell.actor.step cfg l = some cell'.actor) (hmail : cell'.inbox = cell.inbox) :
    Acted cfg cell cell' l
  | mail (frame : Bytes) (o : Ambient)
    (hstep : cell.actor.step cfg (.command (.externalFrame frame true) o) = some cell'.actor)
    (hmail : cell.inbox = frame :: cell'.inbox) :
    Acted cfg cell cell' (.command (.externalFrame frame true) o)

theorem Acted.step {cfg : Configuration} {cell cell' : Cell Y} {l : Hocuspocus.Label}
    (h : Acted cfg cell cell' l) : cell.actor.step cfg l = some cell'.actor := by
  cases h with
  | own l hown hstep hmail => exact hstep
  | mail frame o hstep hmail => exact hstep

/-- Of what the mailbox tells, the actor learns what is taken out. -/
theorem Acted.told {cfg : Configuration} {cell cell' : Cell Y} {l : Hocuspocus.Label}
    (h : Acted cfg cell cell' l) :
    told L cell.inbox ⊆ L.known cell'.actor ∪ told L cell'.inbox := by
  cases h with
  | own l hown hstep hmail =>
    rw [hmail]
    exact Set.subset_union_right
  | mail frame o hstep hmail =>
    rw [hmail, ← List.singleton_append, told_append, told_singleton]
    exact Set.union_subset_union_left _ (L.heard _ _ _ _ _ hstep)

section

variable [DecidableEq ι]

theorem step_actor {c d : Cluster Y ι} {i : ι} {j : Nat} {l : Hocuspocus.Label}
    (h : step S c (.actor i j l) = some d) :
    fromPeer l = false ∧ ∃ cell cell', (c.cells i)[j]? = some cell ∧
      Acted (S.configuration i) cell cell' l ∧
      d = (c.setCell i j cell').publish S i (publications cell.actor cell'.actor) := by
  rw [step] at h
  split at h
  next => cases h
  next hown =>
    have hown := Bool.eq_false_iff.mpr hown
    refine ⟨hown, ?_⟩
    split at h
    next => cases h
    next cell hcell =>
      obtain ⟨b, hstep, rfl⟩ := Option.map_eq_some_iff.mp h
      exact ⟨cell, { cell with actor := b }, hcell, .own l hown hstep rfl, rfl⟩

theorem step_external {c d : Cluster Y ι} {i : ι} {j : Nat} {o : Ambient}
    (h : step S c (.external i j o) = some d) :
    ∃ cell cell' frame, (c.cells i)[j]? = some cell ∧ cell.inbox = frame :: cell'.inbox ∧
      Acted (S.configuration i) cell cell' (.command (.externalFrame frame true) o) ∧
      d = (c.setCell i j cell').publish S i (publications cell.actor cell'.actor) := by
  rw [step] at h
  split at h
  next actor frame rest hcell =>
    obtain ⟨b, hstep, rfl⟩ := Option.map_eq_some_iff.mp h
    exact ⟨⟨actor, frame :: rest⟩, ⟨b, rest⟩, frame, hcell, rfl, .mail frame o hstep rfl, rfl⟩
  next => cases h

variable {c : Cluster Y ι} {i : ι} {j : Nat} {cell cell' : Cell Y} {l : Hocuspocus.Label}

theorem reach_acted (hcell : (c.cells i)[j]? = some cell)
    (hacted : Acted (S.configuration i) cell cell' l) (frames : List Bytes) (k : ι) :
    reach L S c k ⊆ reach L S ((c.setCell i j cell').publish S i frames) k :=
  (reach_setCell hcell cell' (L.keeps _ _ _ _ hacted.step) hacted.told k).trans
    (reach_publish _ i k frames)

/-- What a resident actor publishes is in reach of all. -/
theorem reach_said (hshort : ∀ i, RedisScaling.Short (S.identifier i))
    (hdistinct : Function.Injective S.identifier) (hcell : c.home i = some cell)
    (hacted : Acted (S.configuration i) cell cell' l)
    (hframes : ∀ frame ∈ publications cell.actor cell'.actor, Addressed S Y frame) (k : ι) :
    told L (publications cell.actor cell'.actor)
      ⊆ reach L S ((c.setCell i 0 cell').publish S i (publications cell.actor cell'.actor)) k := by
  by_cases hk : i = k
  · subst hk
    rintro x ⟨frame, hframe, hx⟩
    refine Or.inl ⟨cell', ?_, Or.inl (L.said _ _ _ _ hacted.step frame hframe hx)⟩
    exact (home_setCell c hcell cell' i).trans (if_pos ⟨rfl, rfl⟩)
  · intro x hx
    refine Or.inr ?_
    rw [coming_publish hshort (fun h => hk (hdistinct h)) _ hframes]
    exact Or.inr hx

end

/-! ## Addresses -/

/-- The frames an actor publishes: sync messages, and presence updates. -/
inductive Publishable (Y : Yrs) (name : String) : Bytes → Prop
  | sync (ty : MessageType) (hty : ty = .sync ∨ ty = .syncReply) (payload : Bytes) :
    Publishable Y name (((OutgoingMessage.new Y name).writeOpcode Y ty).encoder ++ payload)
  | presence (u : Y.AwarenessUpdate) :
    Publishable Y name (Y.writeString name ++ Y.writeVar 1 ++ Y.writeBuf (Y.encodeAwareness u))

theorem publications_publishable {cfg : Configuration} {a b : Actor Y} {l : Hocuspocus.Label}
    (hstep : a.step cfg l = some b) :
    ∀ frame ∈ publications a b, Publishable Y a.world.name frame := by
  intro frame hframe
  generalize hd : a.deed l = deed
  cases deed with
  | nothing =>
    rw [publications_nothing hstep hd] at hframe
    exact absurd hframe List.not_mem_nil
  | change update origin =>
    rcases publications_change hstep hd with h | ⟨_, u, _, _, h⟩
    · rw [h] at hframe
      exact absurd hframe List.not_mem_nil
    · rw [h] at hframe
      rw [List.mem_singleton.mp hframe]
      exact .sync .sync (Or.inl rfl) _
  | present f origin =>
    rcases publications_present hstep hd with h | ⟨_, out, h⟩
    · rw [h] at hframe
      exact absurd hframe List.not_mem_nil
    · rw [h] at hframe
      rw [List.mem_singleton.mp hframe]
      exact .presence out
  | answer f =>
    rw [publications_answer hstep hd, RedisScaling.replyFrame] at hframe
    obtain rfl : f = frame := by
      split at hframe
      · exact (Option.some.inj (Option.mem_toList.mp hframe))
      · cases Option.mem_toList.mp hframe
    obtain ⟨data, hforeign⟩ := Actor.deed_answer hd
    cases hforeign with
    | state sv hq => exact .sync .syncReply (Or.inr rfl) _
    | table u hu hq => exact .presence u

section

variable (hclean : (parseRoutingKey S.name).1 = S.name)

include hclean

theorem addressed_envelope (hY : Y.Lib0Laws) (ty : MessageType) (payload : Bytes) :
    Addressed S Y (((OutgoingMessage.new Y S.name).writeOpcode Y ty).encoder ++ payload) :=
  ⟨_, parse_envelope hY S.name ty payload, hclean⟩

theorem afterLoadDocument_addressed (hY : Y.Lib0Laws) (doc : Y.Doc) :
    ∀ frame ∈ RedisScaling.afterLoadDocument Y S.name doc, Addressed S Y frame := by
  intro frame hframe
  rcases List.mem_cons.mp hframe with rfl | hframe
  · exact addressed_envelope hclean hY .sync _
  · rw [List.mem_singleton.mp hframe, ← List.append_nil (_ ++ _)]
    exact addressed_envelope hclean hY .queryAwareness []

/-- An actor of the document publishes frames for the document. -/
theorem publications_addressed (hY : Y.Lib0Laws) {cfg : Configuration} {a b : Actor Y}
    {l : Hocuspocus.Label} (hstep : a.step cfg l = some b) (hname : a.world.name = S.name) :
    ∀ frame ∈ publications a b, Addressed S Y frame := by
  intro frame hframe
  cases publications_publishable hstep frame hframe with
  | sync ty hty payload =>
    rw [hname]
    exact addressed_envelope hclean hY ty payload
  | presence u =>
    rw [hname]
    exact addressed_envelope hclean hY .awareness _

end

/-! ## Resident nodes -/

/-- What a label makes an actor do. -/
inductive Doing (cell cell' : Cell Y) (i : ι) : Label Y ι → Hocuspocus.Label → Prop
  | own (k : Hocuspocus.Label) (hown : fromPeer k = false) : Doing cell cell' i (.actor i 0 k) k
  | mail (frame : Bytes) (o : Ambient) (hmail : cell.inbox = frame :: cell'.inbox) :
    Doing cell cell' i (.external i 0 o) (.command (.externalFrame frame true) o)

/-- No node loads the document anew, or loses its entry. -/
def keepsHomes : Label Y ι → Bool
  | .load _ _ _ | .register _ _ => false
  | .actor _ _ _ | .receive _ _ | .external _ _ _ => true

/-- Every node has one actor of the document, which is in its registry. -/
structure Resident (S : Settings ι) (c : Cluster Y ι) : Prop where
  registry : ∀ i, c.registry i = some 0
  cells : ∀ i, ∃ cell, c.cells i = [cell] ∧ cell.actor.world.name = S.name

/-- Resident nodes that have said nothing to each other yet. -/
structure Fresh (S : Settings ι) (c : Cluster Y ι) : Prop extends Resident S c where
  still : Still c
  published : c.published = []

namespace Resident

variable {c : Cluster Y ι} (hc : Resident S c)

include hc

theorem home_some (i : ι) : ∃ cell, c.home i = some cell ∧ cell.actor.world.name = S.name := by
  obtain ⟨cell, hcells, hname⟩ := hc.cells i
  exact ⟨cell, by rw [home, hcells]; rfl, hname⟩

/-- The only actor of a node is its first. -/
theorem cell_home {i : ι} {j : Nat} {cell : Cell Y} (h : (c.cells i)[j]? = some cell) :
    j = 0 ∧ c.home i = some cell ∧ cell.actor.world.name = S.name := by
  obtain ⟨cell₀, hcells, hname⟩ := hc.cells i
  rw [hcells] at h
  cases j with
  | zero =>
    rw [List.getElem?_cons_zero, Option.some.injEq] at h
    subst h
    exact ⟨rfl, by rw [home, hcells]; rfl, hname⟩
  | succ j => cases h

variable [DecidableEq ι]

theorem setCell {i : ι} {j : Nat} {cell : Cell Y} (h : (c.cells i)[j]? = some cell)
    {cell' : Cell Y} (hname : cell'.actor.world.name = cell.actor.world.name) :
    Resident S (c.setCell i j cell') where
  registry := hc.registry
  cells := by
    intro k
    obtain ⟨rfl, _, hcell⟩ := hc.cell_home h
    by_cases hk : k = i
    · subst hk
      obtain ⟨cell₀, hcells, _⟩ := hc.cells k
      refine ⟨cell', ?_, hname.trans hcell⟩
      have hset : (c.setCell k 0 cell').cells k = (c.cells k).set 0 cell' :=
        Function.update_self ..
      rw [hset, hcells]
      rfl
    · obtain ⟨cell₀, hcells, hname₀⟩ := hc.cells k
      refine ⟨cell₀, ?_, hname₀⟩
      exact (Function.update_of_ne hk _ _).trans hcells

omit [DecidableEq ι] in
theorem publish (i : ι) (frames : List Bytes) : Resident S (c.publish S i frames) :=
  ⟨hc.registry, hc.cells⟩

theorem route (i : ι) (frame : Bytes) : Resident S (c.route i frame) := by
  rcases c.route_cases i frame with h | ⟨j, cell, _, hcell, h⟩
  · rw [h]
    exact hc
  · rw [h]
    exact hc.setCell hcell rfl

/-- The steps of resident nodes: an actor's, or a message that arrives. -/
theorem step_cases {d : Cluster Y ι} {l : Label Y ι} (h : step S c l = some d)
    (hl : keepsHomes l = true) :
    (∃ i n, l = .receive i n) ∨ ∃ i cell cell' k, c.home i = some cell ∧
      cell.actor.world.name = S.name ∧ Acted (S.configuration i) cell cell' k ∧
      Doing cell cell' i l k ∧
      d = (c.setCell i 0 cell').publish S i (publications cell.actor cell'.actor) := by
  cases l with
  | load i doc queues => cases hl
  | register i entry => cases hl
  | receive i n => exact Or.inl ⟨i, n, rfl⟩
  | actor i j k =>
    obtain ⟨hown, cell, cell', hcell, hacted, hd⟩ := step_actor h
    obtain ⟨rfl, hhome, hname⟩ := hc.cell_home hcell
    exact Or.inr ⟨i, cell, cell', k, hhome, hname, hacted, .own k hown, hd⟩
  | external i j o =>
    obtain ⟨cell, cell', frame, hcell, hmail, hacted, hd⟩ := step_external h
    obtain ⟨rfl, hhome, hname⟩ := hc.cell_home hcell
    exact Or.inr ⟨i, cell, cell', _, hhome, hname, hacted, .mail frame o hmail, hd⟩

theorem step {d : Cluster Y ι} {l : Label Y ι} (h : step S c l = some d) (hl : keepsHomes l = true) :
    Resident S d := by
  rcases hc.step_cases h hl with ⟨i, n, rfl⟩ | ⟨i, cell, cell', k, hhome, _, hacted, _, rfl⟩
  · obtain ⟨payload, _, rfl⟩ := step_receive h
    have htaken : Resident S (c.taken i n) := ⟨hc.registry, hc.cells⟩
    cases arrival S Y i payload with
    | none => exact htaken
    | some frame => exact htaken.route i frame
  · exact (hc.setCell hhome (Actor.step_name hacted.step)).publish i _

end Resident

/-! ## Only what was published -/

theorem said_publish (c : Cluster Y ι) (i : ι) (frames : List Bytes) :
    (c.publish S i frames).said = c.said ++ frames := by
  have hpublished : (c.publish S i frames).published = c.published ++ frames.map fun f => (i, f) :=
    rfl
  have hframes : List.map (Prod.snd ∘ fun f => (i, f)) frames = frames := List.map_id _
  rw [said, hpublished, List.map_append, List.map_map, hframes]
  rfl

theorem common_publish (c : Cluster Y ι) (i : ι) (frames : List Bytes) :
    common L (c.publish S i frames) = common L c ∪ told L frames := by
  rw [common, said_publish, told_append]
  rfl

/-- What waits or is on its way has been published. -/
structure Posted (S : Settings ι) (c : Cluster Y ι) : Prop where
  waiting : ∀ i, ∀ cell ∈ c.cells i, cell.inbox ⊆ c.said
  transit : ∀ i, arriving S c i ⊆ c.said

theorem Posted.of_still {c : Cluster Y ι} (h : Still c) : Posted S c where
  waiting i cell hcell := by
    rw [(h i).2 cell hcell]
    exact List.nil_subset _
  transit i := by
    rw [arriving, (h i).1]
    exact List.nil_subset _

/-- A payload says no more than was published. -/
theorem arriving_publish (hshort : ∀ i, RedisScaling.Short (S.identifier i)) (c : Cluster Y ι)
    (i k : ι) (frames : List Bytes) :
    arriving S (c.publish S i frames) k ⊆ arriving S c k ++ frames := by
  have hflight : (c.publish S i frames).flight k = c.flight k ++ frames.map fun f =>
      RedisScaling.messagePrefix (S.identifier i) ++ f := rfl
  rw [arriving, hflight, List.filterMap_append]
  refine List.append_subset.mpr ⟨List.subset_append_left _ _, fun frame hframe => ?_⟩
  obtain ⟨payload, hpayload, harrive⟩ := List.mem_filterMap.mp hframe
  obtain ⟨f, hf, rfl⟩ := List.mem_map.mp hpayload
  unfold arrival RedisScaling.subscriber at harrive
  rw [RedisScaling.foreignFrame_messagePrefix (hshort i)] at harrive
  refine List.mem_append_right _ ?_
  by_cases hid : S.identifier i = S.identifier k
  · rw [if_pos hid] at harrive
    cases harrive
  · rw [if_neg hid, Option.bind_some] at harrive
    cases hparse : IncomingFrame.parse Y f with
    | none =>
      rw [hparse] at harrive
      cases harrive
    | some parsed =>
      rw [hparse, Option.map_some] at harrive
      dsimp only at harrive
      split at harrive
      · exact Option.some.inj harrive ▸ hf
      · cases harrive

theorem Posted.publish (hshort : ∀ i, RedisScaling.Short (S.identifier i)) {c : Cluster Y ι}
    (hc : Posted S c) (i : ι) (frames : List Bytes) : Posted S (c.publish S i frames) where
  waiting k cell hcell := by
    rw [said_publish]
    exact List.Subset.trans (hc.waiting k cell hcell) (List.subset_append_left _ _)
  transit k := by
    rw [said_publish]
    refine List.Subset.trans (arriving_publish hshort c i k frames) ?_
    exact List.append_subset.mpr ⟨List.Subset.trans (hc.transit k) (List.subset_append_left _ _),
      List.subset_append_right _ _⟩

section

variable [DecidableEq ι]

theorem Posted.setCell {c : Cluster Y ι} (hc : Posted S c) (i : ι) (j : Nat) {cell : Cell Y}
    (hmail : cell.inbox ⊆ c.said) : Posted S (c.setCell i j cell) where
  waiting k cell₀ hcell₀ := by
    by_cases hk : k = i
    · subst hk
      have hcells : (c.setCell k j cell).cells k = (c.cells k).set j cell := Function.update_self ..
      rw [hcells] at hcell₀
      rcases List.mem_or_eq_of_mem_set hcell₀ with h | rfl
      · exact hc.waiting k cell₀ h
      · exact hmail
    · have hcells : (c.setCell i j cell).cells k = c.cells k := Function.update_of_ne hk _ _
      rw [hcells] at hcell₀
      exact hc.waiting k cell₀ hcell₀
  transit := hc.transit

/-- A new actor has no mail. -/
theorem Posted.spawn {c : Cluster Y ι} (hc : Posted S c) (i : ι) (actor : Actor Y) :
    Posted S { c with cells := Function.update c.cells i (c.cells i ++ [⟨actor, []⟩]) } where
  waiting k cell hcell := by
    dsimp only at hcell
    by_cases hk : k = i
    · subst hk
      rw [Function.update_self] at hcell
      rcases List.mem_append.mp hcell with hcell | hcell
      · exact hc.waiting k cell hcell
      · rw [List.mem_singleton.mp hcell]
        exact List.nil_subset _
    · rw [Function.update_of_ne hk] at hcell
      exact hc.waiting k cell hcell
  transit := hc.transit

theorem Posted.acted (hshort : ∀ i, RedisScaling.Short (S.identifier i)) {c : Cluster Y ι}
    (hc : Posted S c) {i : ι} {j : Nat} {cell cell' : Cell Y} {l : Hocuspocus.Label}
    (hcell : (c.cells i)[j]? = some cell) (hacted : Acted (S.configuration i) cell cell' l)
    (frames : List Bytes) : Posted S ((c.setCell i j cell').publish S i frames) := by
  refine (hc.setCell i j ?_).publish hshort i frames
  have hold := hc.waiting i cell (List.mem_of_getElem? hcell)
  cases hacted with
  | own l hown hstep hmail =>
    rw [hmail]
    exact hold
  | mail frame o hstep hmail =>
    rw [hmail] at hold
    exact List.Subset.trans (List.subset_cons_self _ _) hold

/-- The rest of the messages, and the one that has arrived. -/
theorem arriving_taken (c : Cluster Y ι) {i : ι} {n : Nat} {payload : Bytes}
    (h : (c.flight i)[n]? = some payload) (k : ι) : arriving S (c.taken i n) k ⊆ arriving S c k ∧
      (arrival S Y i payload).toList ⊆ arriving S c i := by
  refine ⟨fun frame hframe => ?_, fun frame hframe => (mem_arriving_taken c h).mpr (Or.inr hframe)⟩
  by_cases hk : k = i
  · subst hk
    exact (mem_arriving_taken c h).mpr (Or.inl hframe)
  · have hflight : (c.taken i n).flight k = c.flight k := Function.update_of_ne hk _ _
    rwa [arriving, hflight] at hframe

/-- Nothing is made up on the way. -/
theorem Posted.step (hshort : ∀ i, RedisScaling.Short (S.identifier i)) {c d : Cluster Y ι}
    {l : Label Y ι} (hc : Posted S c) (h : Cluster.step S c l = some d) : Posted S d := by
  cases l with
  | load i doc queues =>
    rw [Cluster.step, Option.some.injEq] at h
    subst h
    exact (hc.spawn i (Actor.spawn S.name doc queues)).publish hshort i _
  | register i entry =>
    rw [Cluster.step, Option.some.injEq] at h
    subst h
    exact ⟨hc.waiting, hc.transit⟩
  | actor i j k =>
    obtain ⟨_, cell, cell', hcell, hacted, rfl⟩ := step_actor h
    exact hc.acted hshort hcell hacted _
  | external i j o =>
    obtain ⟨cell, cell', frame, hcell, _, hacted, rfl⟩ := step_external h
    exact hc.acted hshort hcell hacted _
  | receive i n =>
    obtain ⟨payload, hpayload, rfl⟩ := step_receive h
    have htaken : Posted S (c.taken i n) := ⟨hc.waiting, fun k =>
      List.Subset.trans (arriving_taken c hpayload k).1 (hc.transit k)⟩
    cases harrive : arrival S Y i payload with
    | none => exact htaken
    | some frame =>
      rw [Option.elim_some]
      rcases (c.taken i n).route_cases i frame with hroute | ⟨j, cell, _, hcell, hroute⟩
      · rw [hroute]
        exact htaken
      · rw [hroute]
        refine htaken.setCell i j ?_
        refine List.append_subset.mpr ⟨htaken.waiting i cell (List.mem_of_getElem? hcell), ?_⟩
        have hnew := List.Subset.trans (arriving_taken c hpayload i).2 (hc.transit i)
        rw [harrive] at hnew
        exact hnew

end

/-! ## What resident nodes share -/

/-- `held` is what an actor has taken in; it has it from the common start or
from what was published, and all of that is in reach of every node. -/
structure Shared (L : Lore Y F) (S : Settings ι) (held : Actor Y → Set F) (base : Set F)
    (c : Cluster Y ι) : Prop where
  resident : Resident S c
  spread : ∀ i, base ∪ common L c ⊆ reach L S c i
  sourced : ∀ i cell, c.home i = some cell → held cell.actor ⊆ base ∪ common L c

variable {held : Actor Y → Set F} {base : Set F}

theorem Fresh.shared {c : Cluster Y ι} (hc : Fresh S c)
    (hknown : ∀ i cell, c.home i = some cell → base ⊆ L.known cell.actor)
    (hheld : ∀ i cell, c.home i = some cell → held cell.actor ⊆ base) :
    Shared L S held base c where
  resident := hc.toResident
  spread := by
    intro i
    obtain ⟨cell, hcell, _⟩ := hc.toResident.home_some i
    refine Set.union_subset (fun x hx => Or.inl ⟨cell, hcell, Or.inl (hknown i cell hcell hx)⟩) ?_
    rintro x ⟨frame, hframe, _⟩
    rw [said, hc.published] at hframe
    exact absurd hframe List.not_mem_nil
  sourced := fun i cell hcell => (hheld i cell hcell).trans Set.subset_union_left

section

variable [DecidableEq ι]

theorem common_route (c : Cluster Y ι) (i : ι) (frame : Bytes) :
    common L (c.route i frame) = common L c := by
  rcases c.route_cases i frame with h | ⟨j, cell, _, _, h⟩
  · rw [h]
  · rw [h]
    rfl

/-- After a message has come in the actors are as they were. -/
theorem actor_receive (c : Cluster Y ι) (i m : ι) (n : Nat) (arrived : Option Bytes) :
    ((arrived.elim (c.taken i n) ((c.taken i n).route i)).home m).map Cell.actor
      = (c.home m).map Cell.actor := by
  cases arrived with
  | none => rfl
  | some frame =>
    rw [Option.elim_some]
    rcases (c.taken i n).route_cases i frame with hsame | ⟨j, old, _, hold, hset⟩
    · rw [hsame]
      rfl
    · rw [hset, home_setCell _ hold]
      split
      next hmi =>
        obtain ⟨rfl, rfl⟩ := hmi
        have hhome : c.home m = some old := hold
        rw [hhome]
        rfl
      next => rfl

theorem home_receive {c : Cluster Y ι} {i m : ι} {n : Nat} {arrived : Option Bytes} {cell : Cell Y}
    (h : (arrived.elim (c.taken i n) ((c.taken i n).route i)).home m = some cell) :
    ∃ cell₀, c.home m = some cell₀ ∧ cell.actor = cell₀.actor := by
  have hsame := actor_receive c i m n arrived
  rw [h] at hsame
  obtain ⟨cell₀, hcell₀, hactor⟩ := Option.map_eq_some_iff.mp hsame.symm
  exact ⟨cell₀, hcell₀, hactor.symm⟩

/-- A message arrives: it leaves the line for the mailbox. -/
theorem Shared.receive {c d : Cluster Y ι} {i : ι} {n : Nat} (hc : Shared L S held base c)
    (h : step S c (.receive i n) = some d) : Shared L S held base d := by
  obtain ⟨cell, hcell, _⟩ := hc.resident.home_some i
  have hreach := reach_receive (L := L) h (Or.inl ⟨⟨cell, hcell⟩, hc.resident.registry i⟩)
  have hresident := hc.resident.step h rfl
  obtain ⟨payload, _, rfl⟩ := step_receive h
  have hcommon : common L ((arrival S Y i payload).elim (c.taken i n) ((c.taken i n).route i))
      = common L c := by
    cases arrival S Y i payload with
    | none => rfl
    | some frame => exact common_route (c.taken i n) i frame
  refine ⟨hresident, fun m => ?_, fun m cell₀ hm => ?_⟩
  · rw [hcommon]
    exact (hc.spread m).trans (hreach m)
  · rw [hcommon]
    obtain ⟨old, hold, hactor⟩ := home_receive hm
    rw [hactor]
    exact hc.sourced m old hold

/-- An actor takes a step, and has published what it has taken in. -/
theorem Shared.acted (hshort : ∀ i, RedisScaling.Short (S.identifier i))
    (hdistinct : Function.Injective S.identifier) {c : Cluster Y ι} (hc : Shared L S held base c)
    {i : ι} {cell cell' : Cell Y} {k : Hocuspocus.Label} (hcell : c.home i = some cell)
    (hacted : Acted (S.configuration i) cell cell' k)
    (hframes : ∀ frame ∈ publications cell.actor cell'.actor, Addressed S Y frame)
    (htells : held cell'.actor ⊆
      held cell.actor ∪ (common L c ∪ told L (publications cell.actor cell'.actor))) :
    Shared L S held base
      ((c.setCell i 0 cell').publish S i (publications cell.actor cell'.actor)) := by
  have hcommon : common L ((c.setCell i 0 cell').publish S i (publications cell.actor cell'.actor))
      = common L c ∪ told L (publications cell.actor cell'.actor) := common_publish _ i _
  refine ⟨(hc.resident.setCell hcell (Actor.step_name hacted.step)).publish i _,
    fun m => ?_, fun m cell₀ hm => ?_⟩
  · rw [hcommon, ← Set.union_assoc]
    exact Set.union_subset ((hc.spread m).trans (reach_acted hcell hacted _ m))
      (reach_said hshort hdistinct hcell hacted hframes m)
  · have hset := (home_setCell c hcell cell' m).symm.trans hm
    rw [hcommon, ← Set.union_assoc]
    split at hset
    next hmi =>
      obtain rfl : cell' = cell₀ := Option.some.inj hset
      refine htells.trans (Set.union_subset ((hc.sourced i cell hcell).trans ?_) ?_)
      · exact Set.subset_union_left
      · rw [Set.union_assoc]
        exact Set.subset_union_right
    next => exact (hc.sourced m cell₀ hset).trans Set.subset_union_left

/-- **The step lemma**: whatever an actor takes in must have been published, by
itself at the latest. -/
theorem Shared.step (hY : Y.Lib0Laws) (hshort : ∀ i, RedisScaling.Short (S.identifier i))
    (hdistinct : Function.Injective S.identifier) (hclean : (parseRoutingKey S.name).1 = S.name)
    {c d : Cluster Y ι} {l : Label Y ι} (hc : Shared L S held base c)
    (h : Cluster.step S c l = some d) (hl : keepsHomes l = true)
    (htells : ∀ i cell cell' k, c.home i = some cell → Acted (S.configuration i) cell cell' k →
      Doing cell cell' i l k → held cell'.actor ⊆
        held cell.actor ∪ (common L c ∪ told L (publications cell.actor cell'.actor))) :
    Shared L S held base d := by
  rcases hc.resident.step_cases h hl with ⟨i, n, rfl⟩ |
    ⟨i, cell, cell', k, hcell, hname, hacted, hdoing, rfl⟩
  · exact hc.receive h
  · exact hc.acted hshort hdistinct hcell hacted
      (publications_addressed hclean hY hacted.step hname)
      (htells i cell cell' k hcell hacted hdoing)

omit [DecidableEq ι] in
/-- Once all is quiet every node knows what any node has taken in. -/
theorem Shared.still {c : Cluster Y ι} (hc : Shared L S held base c) (hstill : Still c)
    {i k : ι} {cell cell' : Cell Y} (hcell : c.home i = some cell) (hcell' : c.home k = some cell') :
    held cell.actor ⊆ L.known cell'.actor := by
  intro x hx
  rcases hc.spread k (hc.sourced i cell hcell hx) with ⟨cell₀, hcell₀, hx | ⟨frame, hframe, _⟩⟩ |
    ⟨frame, hframe, _⟩
  · obtain rfl : cell' = cell₀ := Option.some.inj (hcell'.symm.trans hcell₀)
    exact hx
  · rw [(hstill k).2 cell₀ (List.mem_of_getElem? hcell₀)] at hframe
    exact absurd hframe List.not_mem_nil
  · rw [arriving, (hstill k).1] at hframe
    exact absurd hframe List.not_mem_nil

end

end Cluster

theorem OneWriter.settled_fresh : Cluster.Fresh OneWriter.nodes OneWriter.settled where
  registry := fun _ => rfl
  cells := fun _ => ⟨_, rfl, rfl⟩
  still := fun _ => ⟨rfl, fun cell hcell => by rw [List.mem_singleton.mp hcell]⟩
  published := rfl

end Hocuspocus
