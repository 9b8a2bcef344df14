import Mathlib.Algebra.BigOperators.Group.Finset.Basic
import Hocuspocus.Cluster.State
import Hocuspocus.OneWriter.Nodes

/-!
# Questions and answers

Of the frames that nodes exchange only questions are answered: `SyncStep1`
and `QueryAwareness`, which a load publishes and nothing else does. An answer
is no question, and neither is an update or a presence frame. So there is a
potential: what was published so far, and one for every node a question has
yet to reach. A load raises it by two questions with an answer from every
other node, a step about an edit by one, and nothing else raises it.

`replication_bounded` puts both together: what a peer's frame can bring about,
and the bound on the messages of a run.
-/

namespace Hocuspocus

variable {Y : Yrs}

/-- A peer that gets the frame answers it. -/
def isQuestion (Y : Yrs) (data : Bytes) : Bool :=
  match IncomingFrame.parse Y data with
  | none => false
  | some frame =>
    match frame.messageType with
    | .sync | .syncReply =>
      match Y.decodeSync frame.decoder with
      | some (.syncStep1 _) => true
      | _ => false
    | .queryAwareness => true
    | _ => false

/-- The frame carries an update of the document or of the presence table. -/
def carriesEdit (Y : Yrs) (data : Bytes) : Bool :=
  match IncomingFrame.parse Y data with
  | none => false
  | some frame =>
    match frame.messageType with
    | .sync | .syncReply =>
      match Y.decodeSync frame.decoder with
      | some (.syncStep2 _) | some (.update _) => true
      | _ => false
    | .awareness => true
    | _ => false

/-- An update or a presence frame from a client, or a `direct_apply`. -/
def isEdit (Y : Yrs) : Label → Bool
  | .command (.clientFrame _ data) _ => carriesEdit Y data
  | .command (.directApply _ _) _ => true
  | _ => false

def Event.isReply : Event Y → Bool
  | .reply _ => true
  | _ => false

/-! ## What is no question -/

theorem isQuestion_sync (hY : Y.Lib0Laws) (address : String) (ty : MessageType)
    (msg : SyncMessage Y.StateVector) (hty : ty = .sync ∨ ty = .syncReply)
    (hmsg : ∀ sv, msg ≠ .syncStep1 sv) :
    isQuestion Y (((OutgoingMessage.new Y address).writeOpcode Y ty).encoder ++ Y.encodeSync msg)
      = false := by
  unfold isQuestion
  rw [parse_envelope hY]
  cases msg with
  | syncStep1 sv => exact absurd rfl (hmsg sv)
  | syncStep2 update => rcases hty with rfl | rfl <;> simp only [hY.decodeSync_encode]
  | update update => rcases hty with rfl | rfl <;> simp only [hY.decodeSync_encode]

theorem isQuestion_presence (hY : Y.Lib0Laws) (address : String) (payload : Bytes) :
    isQuestion Y (((OutgoingMessage.new Y address).writeOpcode Y .awareness).encoder ++ payload)
      = false := by
  unfold isQuestion
  rw [parse_envelope hY]

/-- What a frame from a peer can be about. -/
inductive World.Foreign (w : World Y) (data : Bytes) : Deed → Prop
  | nothing : w.Foreign data .nothing
  | change (update : Bytes) : w.Foreign data (.change update .redis)
  | present (frame : IncomingFrame) : w.Foreign data (.present frame .redis)
  | state (sv : Y.StateVector) (hq : isQuestion Y data = true) :
    w.Foreign data (.answer ((((OutgoingMessage.new Y w.name).syncReply Y).writeSyncPayload
      (Y.encodeSync (.syncStep2 (Y.encodeDiff w.doc sv)))).intoBytes))
  | table (u : Y.AwarenessUpdate) (hu : Y.awarenessUpdate w.awareness = some u)
    (hq : isQuestion Y data = true) :
    w.Foreign data (.answer (awarenessFrame Y (Y.encodeAwareness u) w.name))

theorem World.externalDeed_foreign (w : World Y) (data : Bytes) (reply : Bool) :
    w.Foreign data (w.externalDeed data reply) := by
  have hsync : ∀ frame : IncomingFrame, IncomingFrame.parse Y data = some frame →
      (frame.messageType = .sync ∨ frame.messageType = .syncReply) →
      w.Foreign data (w.externalSyncDeed frame reply) := by
    intro frame hparse hty
    unfold externalSyncDeed
    split
    next sv hdec =>
      split
      · refine .state _ ?_
        unfold isQuestion
        rw [hparse]
        dsimp only
        rcases hty with hty | hty <;> rw [hty] <;> dsimp only <;> rw [hdec]
      · exact .nothing
    next update hdec => exact .change update
    next update hdec => exact .change update
    next hdec => exact .nothing
  unfold externalDeed
  cases hparse : IncomingFrame.parse Y data with
  | none => exact .nothing
  | some frame =>
    dsimp only
    cases hty : frame.messageType with
    | sync => exact hsync frame hparse (Or.inl hty)
    | syncReply => exact hsync frame hparse (Or.inr hty)
    | awareness => exact .present frame
    | queryAwareness =>
      dsimp only
      split
      · split
        next update hupdate =>
          refine .table update hupdate ?_
          unfold isQuestion
          rw [hparse]
          dsimp only
          rw [hty]
        · exact .nothing
      · exact .nothing
    | _ => exact .nothing

/-- Questions are answered, and the answers are no questions. -/
theorem World.Foreign.answer (hY : Y.Lib0Laws) {w : World Y} {data frame : Bytes}
    (h : w.Foreign data (.answer frame)) :
    isQuestion Y data = true ∧ isQuestion Y frame = false := by
  cases h with
  | state sv hq =>
    exact ⟨hq, isQuestion_sync hY w.name .syncReply _ (Or.inr rfl) fun sv hmsg => by cases hmsg⟩
  | table u hu hq => exact ⟨hq, isQuestion_presence hY w.name _⟩

/-- A client's frame is about an edit it carries, or about nothing. -/
theorem World.frameDeed_cases (o : Ambient) (w : World Y) (connId : Nat) (data : Bytes) :
    w.frameDeed o connId data = .nothing ∨ carriesEdit Y data = true ∧
      ((∃ update id, w.frameDeed o connId data = .change update (.connection id)) ∨
        ∃ frame, w.frameDeed o connId data = .present frame (.connection connId)) := by
  have hsync : ∀ (conn : ConnHandle) (frame : IncomingFrame),
      IncomingFrame.parse Y data = some frame →
      (frame.messageType = .sync ∨ frame.messageType = .syncReply) →
      syncDeed Y o conn frame = .nothing ∨ carriesEdit Y data = true ∧
        ∃ update id, syncDeed Y o conn frame = .change update (.connection id) := by
    intro conn frame hparse hty
    have hedit : ∀ update : Bytes, (Y.decodeSync frame.decoder = some (.syncStep2 update) ∨
        Y.decodeSync frame.decoder = some (.update update)) → carriesEdit Y data = true := by
      intro update hdec
      unfold carriesEdit
      rw [hparse]
      dsimp only
      rcases hty with hty | hty <;> rw [hty] <;> dsimp only <;>
        rcases hdec with hdec | hdec <;> rw [hdec]
    unfold syncDeed
    split
    next update hdec =>
      split
      · exact Or.inl rfl
      · exact Or.inr ⟨hedit update (Or.inl hdec), update, _, rfl⟩
    next update hdec =>
      split
      · exact Or.inl rfl
      · exact Or.inr ⟨hedit update (Or.inr hdec), update, _, rfl⟩
    next => exact Or.inl rfl
  unfold frameDeed
  split
  next => exact Or.inl rfl
  next conn hconn =>
    split
    next => exact Or.inl rfl
    next frame hparse =>
      split
      next hty => exact (hsync conn frame hparse (Or.inl hty)).imp id (And.imp id Or.inl)
      next hty => exact (hsync conn frame hparse (Or.inr hty)).imp id (And.imp id Or.inl)
      next hty =>
        refine Or.inr ⟨?_, Or.inr ⟨frame, rfl⟩⟩
        unfold carriesEdit
        rw [hparse]
        dsimp only
        rw [hty]
      next => exact Or.inl rfl

/-- Only a peer is answered. -/
theorem Actor.deed_answer {a : Actor Y} {l : Label} {frame : Bytes}
    (h : a.deed l = .answer frame) : ∃ data, a.world.Foreign data (.answer frame) := by
  cases l with
  | command cmd o =>
    cases cmd with
    | clientFrame connId data =>
      have hdeed : a.world.frameDeed o connId data = .answer frame := h
      rcases a.world.frameDeed_cases o connId data with hd | ⟨_, ⟨update, id, hd⟩ | ⟨f, hd⟩⟩
      · rw [hd] at hdeed
        cases hdeed
      · rw [hd] at hdeed
        cases hdeed
      · rw [hd] at hdeed
        cases hdeed
    | externalFrame data reply => exact ⟨data, h ▸ a.world.externalDeed_foreign data reply⟩
    | directApply update ack => cases h
    | addConnection handle ack => cases h
    | removeConnection connId => cases h
  | flush | storeResult | deadline | mailboxClosed | storeTask | queues => cases h

/-! ## What the steps publish -/

/-- What is said about a frame from a peer. -/
inductive Said (data : Bytes) : List (Event Y) → Prop
  | nothing : Said data []
  | change (update : Bytes) (clients : Nat) : Said data [.onChange update .redis clients]
  | present (update : Bytes) (ids : List Nat) : Said data [.onAwarenessUpdate update ids .redis]
  | answer (frame : Bytes) (hq : isQuestion Y data = true) (hno : isQuestion Y frame = false) :
    Said data [.reply frame]

section

variable {cfg : Configuration} {a b : Actor Y} {l : Label} (hstep : a.step cfg l = some b)

include hstep

theorem foreign_said (hY : Y.Lib0Laws) {data : Bytes} {reply : Bool} {o : Ambient}
    (hl : l = .command (.externalFrame data reply) o) : Said data (a.publics b) := by
  have hforeign := a.world.externalDeed_foreign data reply
  have hdeed : a.deed l = a.world.externalDeed data reply := by rw [hl]; rfl
  rw [← hdeed] at hforeign
  generalize hd : a.deed l = deed at hforeign
  cases deed with
  | nothing =>
    rw [(Actor.step_nothing hstep hd).1]
    exact .nothing
  | change update origin =>
    cases hforeign
    obtain ⟨clients, hpublics⟩ := (Actor.step_change hstep hd).1
    rw [hpublics, changeEvents]
    split
    · exact .nothing
    · split
      · exact .change _ clients
      · exact .nothing
  | present frame origin =>
    cases hforeign
    rcases (Actor.step_present hstep hd).2 with ⟨hpublics, _⟩ | ⟨update, out, _, _, _, hpublics⟩
    · rw [hpublics]
      exact .nothing
    · rw [hpublics]
      exact .present _ _
  | answer frame =>
    rw [(Actor.step_answer hstep hd).1]
    obtain ⟨hq, hno⟩ := hforeign.answer hY
    exact .answer frame hq hno

/-- The one thing a frame from a peer can publish is an answer, and only a
question is answered. -/
theorem foreign_publications (hY : Y.Lib0Laws) {data : Bytes} {reply : Bool} {o : Ambient}
    (hl : l = .command (.externalFrame data reply) o) :
    Cluster.publications a b = [] ∨ isQuestion Y data = true ∧ ∃ frame,
      isQuestion Y frame = false ∧ Cluster.publications a b = [frame] := by
  rw [Cluster.publications_eq]
  have hsaid := foreign_said hstep hY hl
  generalize a.publics b = events at hsaid
  cases hsaid with
  | nothing => exact Or.inl rfl
  | change update clients => exact Or.inl rfl
  | present update ids => exact Or.inl rfl
  | answer frame hq hno =>
    rw [List.filterMap_cons, RedisScaling.publication, RedisScaling.replyFrame]
    split
    next hnone => exact Or.inl rfl
    next answer hsome =>
      split at hsome
      · cases hsome
        exact Or.inr ⟨hq, frame, hno, rfl⟩
      · cases hsome

/-- Every event of such a step is an answer or stays unpublished; there is at
most one answer, to a question, and it is no question. -/
theorem foreign_events (hY : Y.Lib0Laws) {data : Bytes} {reply : Bool} {o : Ambient}
    (hl : l = .command (.externalFrame data reply) o) :
    (∀ e ∈ a.sent b, e.isReply = false → RedisScaling.publication Y a.world.name e = none) ∧
    ((a.sent b).filter Event.isReply).length ≤ 1 ∧
    ∀ answer, .reply answer ∈ a.sent b → isQuestion Y data = true ∧ isQuestion Y answer = false := by
  have hsaid := foreign_said hstep hY hl
  have hpublic : ∀ e ∈ a.sent b, e.isPublic = true → e ∈ a.publics b := fun e he hp =>
    List.mem_filter.mpr ⟨he, hp⟩
  have hreplies : (a.sent b).filter Event.isReply = (a.publics b).filter Event.isReply := by
    rw [Actor.publics, List.filter_filter]
    refine List.filter_congr fun e _ => ?_
    cases e <;> rfl
  rw [hreplies]
  generalize a.publics b = events at hsaid hpublic
  refine ⟨?_, ?_, ?_⟩
  · intro e he hreply
    cases hp : e.isPublic with
    | false =>
      cases e with
      | onChange | onAwarenessUpdate | reply => cases hp
      | _ => rfl
    | true =>
      have hmem := hpublic e he hp
      cases hsaid with
      | nothing => exact absurd hmem List.not_mem_nil
      | change update clients =>
        obtain rfl := List.mem_singleton.mp hmem
        rfl
      | present update ids =>
        obtain rfl := List.mem_singleton.mp hmem
        rfl
      | answer frame hq hno =>
        obtain rfl := List.mem_singleton.mp hmem
        cases hreply
  · cases hsaid with
    | answer => exact le_refl 1
    | _ => exact Nat.zero_le 1
  · intro answer he
    have hmem := hpublic _ he rfl
    cases hsaid with
    | nothing => exact absurd hmem List.not_mem_nil
    | change update clients => cases List.mem_singleton.mp hmem
    | present update ids => cases List.mem_singleton.mp hmem
    | answer frame hq hno =>
      cases List.mem_singleton.mp hmem
      exact ⟨hq, hno⟩

/-- What is no question is met with silence. -/
theorem foreign_silent (hY : Y.Lib0Laws) {data : Bytes} {reply : Bool} {o : Ambient}
    (hl : l = .command (.externalFrame data reply) o) (hno : isQuestion Y data = false) :
    Cluster.publications a b = [] ∧ ∀ answer, .reply answer ∉ a.sent b := by
  constructor
  · rcases foreign_publications hstep hY hl with h | ⟨hq, _⟩
    · exact h
    · rw [hno] at hq
      cases hq
  · intro answer he
    have hq := ((foreign_events hstep hY hl).2.2 answer he).1
    rw [hno] at hq
    cases hq

/-- A step about an edit says it in one frame, and asks nothing. -/
theorem edit_publications (hY : Y.Lib0Laws)
    (hdeed : (∃ update origin, a.deed l = .change update origin) ∨
      ∃ frame origin, a.deed l = .present frame origin) :
    Cluster.publications a b = [] ∨ ∃ frame,
      isQuestion Y frame = false ∧ Cluster.publications a b = [frame] := by
  rcases hdeed with ⟨update, origin, hd⟩ | ⟨frame, origin, hd⟩
  · rcases Cluster.publications_change hstep hd with h | ⟨_, u, _, _, h⟩
    · exact Or.inl h
    · refine Or.inr ⟨_, ?_, h⟩
      exact isQuestion_sync hY a.world.name .sync _ (Or.inl rfl) fun sv hmsg => by cases hmsg
  · rcases Cluster.publications_present hstep hd with h | ⟨_, out, h⟩
    · exact Or.inl h
    · exact Or.inr ⟨_, isQuestion_presence hY a.world.name _, h⟩

/-- A step of the node's own publishes at most one frame, which is no
question, and only about an edit. -/
theorem own_publications (hY : Y.Lib0Laws) (hown : Cluster.fromPeer l = false) :
    Cluster.publications a b = [] ∨ isEdit Y l = true ∧ ∃ frame,
      isQuestion Y frame = false ∧ Cluster.publications a b = [frame] := by
  cases l with
  | command cmd o =>
    cases cmd with
    | clientFrame connId data =>
      rcases a.world.frameDeed_cases o connId data with hd | ⟨hedit, hd⟩
      · exact Or.inl (Cluster.publications_nothing hstep hd)
      · refine (edit_publications hstep hY ?_).imp id fun h => ⟨hedit, h⟩
        rcases hd with ⟨update, id, hd⟩ | ⟨frame, hd⟩
        · exact Or.inl ⟨update, _, hd⟩
        · exact Or.inr ⟨frame, _, hd⟩
    | directApply update ack =>
      exact (edit_publications hstep hY (Or.inl ⟨update, .local, rfl⟩)).imp id fun h => ⟨rfl, h⟩
    | externalFrame data reply => cases hown
    | addConnection handle ack => exact Or.inl (Cluster.publications_nothing hstep rfl)
    | removeConnection connId => exact Or.inl (Cluster.publications_nothing hstep rfl)
  | flush => exact Or.inl (Cluster.publications_nothing hstep rfl)
  | storeResult => exact Or.inl (Cluster.publications_nothing hstep rfl)
  | deadline => exact Or.inl (Cluster.publications_nothing hstep rfl)
  | mailboxClosed => exact Or.inl (Cluster.publications_nothing hstep rfl)
  | storeTask => exact Or.inl (Cluster.publications_nothing hstep rfl)
  | queues => exact Or.inl (Cluster.publications_nothing hstep rfl)

end

/-! ## Counting -/

theorem countP_eraseIdx {α : Type} (p : α → Bool) {l : List α} {n : Nat} {x : α}
    (h : l[n]? = some x) : (l.eraseIdx n).countP p + [x].countP p = l.countP p := by
  obtain ⟨hlt, rfl⟩ := List.getElem?_eq_some_iff.mp h
  have hsplit : l.take n ++ l[n] :: l.drop (n + 1) = l := by
    rw [List.getElem_cons_drop, List.take_append_drop]
  rw [List.eraseIdx_eq_take_drop_succ, List.countP_append, List.countP_singleton]
  conv_rhs => rw [← hsplit, List.countP_append, List.countP_cons]
  omega

theorem sum_map_set {α : Type} (f : α → Nat) {l : List α} {n : Nat} {x : α} (h : l[n]? = some x)
    (y : α) : ((l.set n y).map f).sum + f x = (l.map f).sum + f y := by
  induction l generalizing n with
  | nil => cases h
  | cons z l ih =>
    cases n with
    | zero =>
      rw [List.getElem?_cons_zero, Option.some.injEq] at h
      subst h
      simp only [List.set_cons_zero, List.map_cons, List.sum_cons]
      omega
    | succ n =>
      rw [List.getElem?_cons_succ] at h
      have htail := ih h
      simp only [List.set_cons_succ, List.map_cons, List.sum_cons]
      omega

/-- A sum in which one term changes. -/
theorem sum_change {ι : Type} [Fintype ι] [DecidableEq ι] {f g : ι → Nat} (i : ι)
    (h : ∀ k, k ≠ i → g k = f k) : ∑ k, g k + f i = ∑ k, f k + g i := by
  rw [← Finset.add_sum_erase _ g (Finset.mem_univ i), ← Finset.add_sum_erase _ f (Finset.mem_univ i)]
  have hrest : ∑ k ∈ Finset.univ.erase i, g k = ∑ k ∈ Finset.univ.erase i, f k :=
    Finset.sum_congr rfl fun k hk => h k (Finset.ne_of_mem_erase hk)
  omega

namespace Cluster

variable {ι : Type} [DecidableEq ι]

/-- The subscriber of the node hands the payload over, and it is a question. -/
def asks (Y : Yrs) (S : Settings ι) (i : ι) (payload : Bytes) : Bool :=
  match RedisScaling.subscriber Y (S.identifier i) payload with
  | none => false
  | some (documentName, frame) => decide (documentName = S.name) && isQuestion Y frame

/-- The questions in the mailboxes of a node. -/
def waiting (cells : List (Cell Y)) : Nat :=
  (cells.map fun cell => cell.inbox.countP (isQuestion Y)).sum

/-- The questions a node has yet to answer. -/
def unanswered (S : Settings ι) (c : Cluster Y ι) (i : ι) : Nat :=
  (c.flight i).countP (asks Y S i) + waiting (c.cells i)

/-- What was published, and what is yet to be answered. -/
def debt [Fintype ι] (S : Settings ι) (c : Cluster Y ι) : Nat :=
  c.published.length + ∑ i, unanswered S c i

/-- A load costs two questions and their answers from the others, a step
about an edit one message. -/
def cost [Fintype ι] : Label Y ι → Nat
  | .load _ _ _ => 2 + 2 * (Fintype.card ι - 1)
  | .actor _ _ l => if isEdit Y l then 1 else 0
  | .register _ _ | .receive _ _ | .external _ _ _ => 0

section

variable {S : Settings ι}

/-- A node's own questions do not come back to it. -/
theorem countP_asks (hshort : ∀ i, RedisScaling.Short (S.identifier i)) (i k : ι)
    (frames : List Bytes) :
    (frames.map fun f => RedisScaling.messagePrefix (S.identifier i) ++ f).countP (asks Y S k)
      ≤ if k = i then 0 else frames.countP (isQuestion Y) := by
  rw [List.countP_map]
  have hasks : ∀ f, asks Y S k (RedisScaling.messagePrefix (S.identifier i) ++ f) = true →
      k ≠ i ∧ isQuestion Y f = true := by
    intro f
    unfold asks RedisScaling.subscriber
    rw [RedisScaling.foreignFrame_messagePrefix (hshort i)]
    by_cases hid : S.identifier i = S.identifier k
    · rw [if_pos hid]
      intro h
      cases h
    · rw [if_neg hid, Option.bind_some]
      cases IncomingFrame.parse Y f with
      | none =>
        intro h
        cases h
      | some frame =>
        intro h
        exact ⟨fun heq => hid (heq ▸ rfl), (Bool.and_eq_true_iff.mp h).2⟩
  split
  next heq =>
    refine le_of_eq (List.countP_eq_zero.mpr fun f _ hf => ?_)
    exact (hasks f hf).1 heq
  next hne => exact List.countP_mono_left fun f _ hf => (hasks f hf).2

variable [Fintype ι]

theorem debt_publish (hshort : ∀ i, RedisScaling.Short (S.identifier i)) (c : Cluster Y ι) (i : ι)
    (frames : List Bytes) : debt S (c.publish S i frames)
      ≤ debt S c + frames.length + (Fintype.card ι - 1) * frames.countP (isQuestion Y) := by
  have hnode : ∀ k, unanswered S (c.publish S i frames) k
      ≤ unanswered S c k + if k = i then 0 else frames.countP (isQuestion Y) := by
    intro k
    have hnew := countP_asks (Y := Y) hshort i k frames
    have hflight : (c.publish S i frames).flight k = c.flight k ++ frames.map fun f =>
        RedisScaling.messagePrefix (S.identifier i) ++ f := rfl
    have hcells : (c.publish S i frames).cells = c.cells := rfl
    rw [unanswered, unanswered, hflight, hcells, List.countP_append]
    omega
  have hsum := Finset.sum_le_sum fun k (_ : k ∈ Finset.univ) => hnode k
  have hothers : ∑ k, (if k = i then 0 else frames.countP (isQuestion Y))
      = (Fintype.card ι - 1) * frames.countP (isQuestion Y) := by
    rw [Finset.sum_ite, Finset.sum_const_zero, Nat.zero_add, Finset.sum_const, smul_eq_mul,
      Finset.filter_ne', Finset.card_erase_of_mem (Finset.mem_univ i), Finset.card_univ]
  rw [Finset.sum_add_distrib, hothers] at hsum
  have hpublished : (c.publish S i frames).published.length = c.published.length + frames.length := by
    have h : (c.publish S i frames).published = c.published ++ frames.map fun f => (i, f) := rfl
    rw [h, List.length_append, List.length_map]
  rw [debt, debt, hpublished]
  omega

omit [Fintype ι] in
theorem waiting_set {cells : List (Cell Y)} {j : Nat} {cell : Cell Y} (h : cells[j]? = some cell)
    (cell' : Cell Y) : waiting (cells.set j cell') + cell.inbox.countP (isQuestion Y)
      = waiting cells + cell'.inbox.countP (isQuestion Y) :=
  sum_map_set (fun cell => cell.inbox.countP (isQuestion Y)) h cell'

/-- What a step changes at one node only, the sum feels there only. -/
theorem debt_change (c c' : Cluster Y ι) (i : ι) (hpublished : c'.published = c.published)
    (hflight : ∀ k, k ≠ i → c'.flight k = c.flight k) (hcells : ∀ k, k ≠ i → c'.cells k = c.cells k) :
    debt S c' + unanswered S c i = debt S c + unanswered S c' i := by
  have hsum := sum_change (f := unanswered S c) (g := unanswered S c') i fun k hk => by
    rw [unanswered, unanswered, hflight k hk, hcells k hk]
  rw [debt, debt, hpublished]
  omega

theorem debt_setCell {c : Cluster Y ι} {i : ι} {j : Nat} {cell : Cell Y}
    (h : (c.cells i)[j]? = some cell) (cell' : Cell Y) :
    debt S (c.setCell i j cell') + cell.inbox.countP (isQuestion Y)
      = debt S c + cell'.inbox.countP (isQuestion Y) := by
  have hsum := debt_change (S := S) c (c.setCell i j cell') i rfl (fun _ _ => rfl)
    fun k hk => Function.update_of_ne hk _ _
  have hset := waiting_set h cell'
  have hcells : (c.setCell i j cell').cells i = (c.cells i).set j cell' := Function.update_self ..
  have hflight : (c.setCell i j cell').flight = c.flight := rfl
  rw [unanswered, unanswered, hcells, hflight] at hsum
  omega

theorem debt_route (c : Cluster Y ι) (i : ι) (frame : Bytes) :
    debt S (c.route i frame) ≤ debt S c + [frame].countP (isQuestion Y) := by
  unfold route
  split
  next => exact Nat.le_add_right _ _
  next j hj =>
    split
    next => exact Nat.le_add_right _ _
    next cell hcell =>
      have hset := debt_setCell (S := S) hcell { cell with inbox := cell.inbox ++ [frame] }
      dsimp only at hset
      rw [List.countP_append] at hset
      omega

/-- An actor without mail adds nothing. -/
theorem debt_spawn (c : Cluster Y ι) (i : ι) (actor : Actor Y) :
    debt S { c with cells := Function.update c.cells i (c.cells i ++ [⟨actor, []⟩]) } = debt S c := by
  have hsum := debt_change (S := S) c
    ({ c with cells := Function.update c.cells i (c.cells i ++ [⟨actor, []⟩]) })
    i rfl (fun _ _ => rfl) fun k hk => Function.update_of_ne hk _ _
  have hsame : unanswered S
      { c with cells := Function.update c.cells i (c.cells i ++ [⟨actor, []⟩]) } i
      = unanswered S c i := by
    rw [unanswered, unanswered]
    dsimp only
    rw [Function.update_self, waiting, waiting, List.map_append, List.sum_append]
    rfl
  omega

/-- A message that is taken off the line is no longer waited for. -/
theorem debt_take {c : Cluster Y ι} {i : ι} {n : Nat} {payload : Bytes}
    (h : (c.flight i)[n]? = some payload) :
    debt S { c with flight := Function.update c.flight i ((c.flight i).eraseIdx n) }
      + [payload].countP (asks Y S i) = debt S c := by
  have hsum := debt_change (S := S) c
    ({ c with flight := Function.update c.flight i ((c.flight i).eraseIdx n) })
    i rfl (fun k hk => Function.update_of_ne hk _ _) fun _ _ => rfl
  have hcount := countP_eraseIdx (asks Y S i) h
  rw [unanswered, unanswered] at hsum
  dsimp only at hsum
  rw [Function.update_self] at hsum
  omega

/-- An actor takes a step, with the mail it has afterwards. -/
theorem debt_act (hshort : ∀ i, RedisScaling.Short (S.identifier i)) {c : Cluster Y ι} {i : ι}
    {j : Nat} {cell : Cell Y} (hcell : (c.cells i)[j]? = some cell) (cell' : Cell Y)
    (frames : List Bytes) (hquiet : frames.countP (isQuestion Y) = 0) :
    debt S ((c.setCell i j cell').publish S i frames) + cell.inbox.countP (isQuestion Y)
      ≤ debt S c + cell'.inbox.countP (isQuestion Y) + frames.length := by
  have hset := debt_setCell (S := S) hcell cell'
  have hpublish := debt_publish hshort (c.setCell i j cell') i frames
  rw [hquiet, Nat.mul_zero] at hpublish
  omega

/-- **The step lemma.** -/
theorem debt_step (hY : Y.Lib0Laws) (hshort : ∀ i, RedisScaling.Short (S.identifier i))
    {c d : Cluster Y ι} {l : Label Y ι} (h : step S c l = some d) :
    debt S d ≤ debt S c + cost l := by
  cases l with
  | load i doc queues =>
    rw [step, Option.some.injEq] at h
    subst h
    refine le_trans (debt_publish hshort _ i _) ?_
    rw [debt_spawn, cost]
    have hquestions : (RedisScaling.afterLoadDocument Y S.name doc).countP (isQuestion Y) ≤ 2 :=
      List.countP_le_length
    have hlength : (RedisScaling.afterLoadDocument Y S.name doc).length = 2 := rfl
    have hothers := Nat.mul_le_mul_left (Fintype.card ι - 1) hquestions
    omega
  | register i entry =>
    rw [step, Option.some.injEq] at h
    subst h
    exact Nat.le_add_right _ _
  | actor i j l =>
    rw [step] at h
    split at h
    next => cases h
    next hown =>
      split at h
      next => cases h
      next cell hcell =>
        obtain ⟨b, hstep, rfl⟩ := Option.map_eq_some_iff.mp h
        rw [cost]
        rcases own_publications hstep hY (Bool.eq_false_iff.mpr hown) with hnone |
          ⟨hedit, frame, hno, hone⟩
        · rw [hnone]
          have hact := debt_act hshort hcell { cell with actor := b } [] rfl
          dsimp only [List.length_nil] at hact ⊢
          omega
        · rw [hone, if_pos hedit]
          have hact := debt_act hshort hcell { cell with actor := b } [frame]
            (by rw [List.countP_singleton, hno]; rfl)
          dsimp only [List.length_singleton] at hact ⊢
          omega
  | receive i n =>
    rw [step] at h
    split at h
    next => cases h
    next payload hpayload =>
      have htaken := debt_take (S := S) hpayload
      rw [List.countP_singleton, asks] at htaken
      dsimp only at h
      rw [cost]
      split at h
      next hsub =>
        cases h
        omega
      next documentName frame hsub =>
        rw [hsub] at htaken
        split at h
        next hname =>
          cases h
          refine le_trans (debt_route _ i frame) ?_
          simp only [hname, decide_true, Bool.true_and] at htaken
          rw [List.countP_singleton]
          omega
        next hname =>
          cases h
          omega
  | external i j o =>
    rw [step] at h
    split at h
    next actor frame rest hcell =>
      obtain ⟨b, hstep, rfl⟩ := Option.map_eq_some_iff.mp h
      rw [cost]
      rcases foreign_publications hstep hY rfl with hnone | ⟨hq, answer, hno, hone⟩
      · rw [hnone]
        have hact := debt_act hshort hcell ⟨b, rest⟩ [] rfl
        dsimp only [List.length_nil] at hact
        rw [List.countP_cons] at hact
        omega
      · rw [hone]
        -- the question is answered, and its answer is what the debt was for
        have hact := debt_act hshort hcell ⟨b, rest⟩ [answer]
          (by rw [List.countP_singleton, hno]; rfl)
        dsimp only [List.length_singleton] at hact
        rw [List.countP_cons, if_pos hq] at hact
        omega
    next => cases h

end

/-! ## The bound -/

/-- The number of loads, and of steps about an edit. -/
def loads (ls : List (Label Y ι)) : Nat :=
  ls.countP fun
    | .load _ _ _ => true
    | _ => false

def edits (ls : List (Label Y ι)) : Nat :=
  ls.countP fun
    | .actor _ _ l => isEdit Y l
    | _ => false

omit [DecidableEq ι] in
theorem sum_cost [Fintype ι] (ls : List (Label Y ι)) :
    (ls.map cost).sum = edits ls + loads ls * (2 + 2 * (Fintype.card ι - 1)) := by
  induction ls with
  | nil => rw [edits, loads, List.countP_nil, List.countP_nil, Nat.zero_mul]; rfl
  | cons l ls ih =>
    rw [List.map_cons, List.sum_cons, ih]
    unfold edits loads
    rw [List.countP_cons, List.countP_cons, Nat.add_mul]
    cases l with
    | load i doc queues =>
      simp only [cost, if_true, Nat.one_mul, Bool.false_eq_true, if_false]
      omega
    | actor i j l =>
      simp only [cost, Bool.false_eq_true, if_false]
      omega
    | register | receive | external =>
      simp only [cost, Bool.false_eq_true, if_false]
      omega

end Cluster

/-- **Replication does not loop.** A frame from a peer publishes nothing
through the hooks, and at most the one answer to a question, and to an answer
no node has anything to say. So the messages of a run are bounded by its edits
and its loads. -/
theorem replication_bounded {ι : Type} [Fintype ι] [DecidableEq ι] (hY : Y.Lib0Laws)
    (S : Settings ι) (hshort : ∀ i, RedisScaling.Short (S.identifier i)) :
    (∀ (cfg : Configuration) (a b : Actor Y) (frame : Bytes) (reply : Bool) (o : Ambient),
      a.step cfg (.command (.externalFrame frame reply) o) = some b →
        (∀ e ∈ a.sent b, e.isReply = false → RedisScaling.publication Y a.world.name e = none) ∧
        ((a.sent b).filter Event.isReply).length ≤ 1 ∧
        ∀ answer, .reply answer ∈ a.sent b → isQuestion Y frame = true ∧
          ∀ (cfg' : Configuration) (a' b' : Actor Y) (reply' : Bool) (o' : Ambient),
            a'.step cfg' (.command (.externalFrame answer reply') o') = some b' →
            Cluster.publications a' b' = [] ∧ ∀ again, .reply again ∉ a'.sent b') ∧
    ∀ (ls : List (Cluster.Label Y ι)) (c : Cluster Y ι),
      Lts.exec (Cluster.step S) (Cluster.empty Y ι) ls = some c →
      c.published.length
        ≤ Cluster.edits ls + Cluster.loads ls * (2 + 2 * (Fintype.card ι - 1)) := by
  constructor
  · intro cfg a b frame reply o hstep
    obtain ⟨hhooks, hone, hanswers⟩ := foreign_events hstep hY rfl
    refine ⟨hhooks, hone, fun answer he => ?_⟩
    obtain ⟨hq, hno⟩ := hanswers answer he
    exact ⟨hq, fun _ _ _ _ _ hstep' => foreign_silent hstep' hY rfl hno⟩
  · intro ls c hrun
    have hstep : ∀ (c : Cluster Y ι) l d, Cluster.step S c l = some d →
        Cluster.debt S d ≤ Cluster.debt S c + Cluster.cost l :=
      fun _ _ _ h => Cluster.debt_step hY hshort h
    have hledger := Lts.exec_ledger hstep hrun
    have hnothing : Cluster.debt S (Cluster.empty Y ι) = 0 := by
      rw [Cluster.debt]
      exact Nat.add_eq_zero_iff.mpr ⟨rfl, Finset.sum_eq_zero fun _ _ => rfl⟩
    rw [hnothing, Cluster.sum_cost, Nat.zero_add] at hledger
    exact le_trans (Nat.le_add_right _ _) hledger

/-- Two nodes load the document and answer each other's questions, and one of
them edits it: as many messages as there may be. -/
def greeting : List (Cluster.Label OneWriter.yrs Bool) :=
  OneWriter.opens true ++ OneWriter.opens false ++ OneWriter.hears true 2 ++
    OneWriter.hears true 2 ++ OneWriter.hears false 0 ++ OneWriter.hears false 0 ++
    [.actor false 0 (.command (.directApply (OneWriter.edit 0) 7) {})]

theorem replication_bounded_pair : (OneWriter.meet greeting).published.length = 9 ∧
    (OneWriter.meet greeting).published.length
      ≤ Cluster.edits greeting + Cluster.loads greeting * (2 + 2 * (Fintype.card Bool - 1)) ∧
    Cluster.edits greeting = 1 ∧ Cluster.loads greeting = 2 :=
  ⟨by decide +kernel,
    (replication_bounded OneWriter.lib0Laws OneWriter.nodes OneWriter.nodes_short).2 greeting _
      (Lts.exec_reach (by decide +kernel)),
    by decide +kernel, by decide +kernel⟩

end Hocuspocus
