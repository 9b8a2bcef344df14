import Hocuspocus.Document.Peers
import Hocuspocus.Extensions.Redis

/-!
# Nodes on one Redis

Several nodes that run the Redis extension, seen from one document. Each has
the actors it has spawned for the document, with the external frames waiting
in their mailboxes, and its entry in `documents`, which says to which of them
the subscriber passes what comes in. `flight` holds for each node the messages
on their way to its subscriber. A publish puts a message on its way to every
node, the publisher included; they arrive in any order, and none is lost.

A load publishes its questions before the actor is in the registry, and the
registry changes by steps of its own, at any time: what is lost on the way in
is lost because there is no entry. The frames of a node's own clients, its
timers and its stores are the steps of `Document/Run.lean`.
-/

namespace Hocuspocus

/-- What the nodes are configured with; `name` is the document. -/
structure Settings (ι : Type) where
  name : String
  identifier : ι → String
  configuration : ι → Configuration

/-- An actor, and the external frames in its mailbox. -/
structure Cell (Y : Yrs) where
  actor : Actor Y
  inbox : List Bytes

/-- `published` is all that was ever published, with its publishers. -/
structure Cluster (Y : Yrs) (ι : Type) where
  cells : ι → List (Cell Y)
  registry : ι → Option Nat
  flight : ι → List Bytes
  published : List (ι × Bytes)

namespace Cluster

variable {Y : Yrs} {ι : Type}

/-- What the extension publishes of a step of an actor. -/
def publications (a b : Actor Y) : List Bytes :=
  (a.sent b).filterMap (RedisScaling.publication Y a.world.name)

inductive Label (Y : Yrs) (ι : Type)
  /-- A node loads the document: the hooks run, and the actor is spawned. -/
  | load (i : ι) (doc : Y.Doc) (queues : Queues)
  /-- The node's entry in `documents` is set or removed. -/
  | register (i : ι) (entry : Option Nat)
  /-- An actor takes a step of its own. -/
  | actor (i : ι) (j : Nat) (l : Hocuspocus.Label)
  /-- The subscriber of a node gets one of the messages on their way to it. -/
  | receive (i : ι) (n : Nat)
  /-- An actor handles the next external frame in its mailbox. -/
  | external (i : ι) (j : Nat) (o : Ambient)

/-- Frames come from peers through the mailbox only. -/
def fromPeer : Hocuspocus.Label → Bool
  | .command (.externalFrame _ _) _ => true
  | _ => false

variable [DecidableEq ι]

def setCell (c : Cluster Y ι) (i : ι) (j : Nat) (cell : Cell Y) : Cluster Y ι :=
  { c with cells := Function.update c.cells i ((c.cells i).set j cell) }

/-- The messages go to every node. -/
def publish (S : Settings ι) (c : Cluster Y ι) (i : ι) (frames : List Bytes) : Cluster Y ι :=
  { c with
    flight := fun k =>
      c.flight k ++ frames.map fun f => RedisScaling.messagePrefix (S.identifier i) ++ f
    published := c.published ++ frames.map fun f => (i, f) }

/-- Pass a frame to the actor that is in the registry. -/
def route (c : Cluster Y ι) (i : ι) (frame : Bytes) : Cluster Y ι :=
  match c.registry i with
  | none => c
  | some j =>
    match (c.cells i)[j]? with
    | none => c
    | some cell => c.setCell i j { cell with inbox := cell.inbox ++ [frame] }

def step (S : Settings ι) (c : Cluster Y ι) : Label Y ι → Option (Cluster Y ι)
  | .load i doc queues =>
    let spawned : Cell Y := ⟨Actor.spawn S.name doc queues, []⟩
    some (({ c with cells := Function.update c.cells i (c.cells i ++ [spawned]) } :
      Cluster Y ι).publish S i (RedisScaling.afterLoadDocument Y S.name doc))
  | .register i entry => some { c with registry := Function.update c.registry i entry }
  | .actor i j l =>
    if fromPeer l then none
    else
      match (c.cells i)[j]? with
      | none => none
      | some cell =>
        (cell.actor.step (S.configuration i) l).map fun b =>
          (c.setCell i j { cell with actor := b }).publish S i (publications cell.actor b)
  | .receive i n =>
    match (c.flight i)[n]? with
    | none => none
    | some payload =>
      let c := { c with flight := Function.update c.flight i ((c.flight i).eraseIdx n) }
      match RedisScaling.subscriber Y (S.identifier i) payload with
      | none => some c
      | some (documentName, frame) =>
        if documentName = S.name then some (c.route i frame) else some c
  | .external i j o =>
    match (c.cells i)[j]? with
    | some ⟨actor, frame :: rest⟩ =>
      (actor.step (S.configuration i) (.command (.externalFrame frame true) o)).map fun b =>
        (c.setCell i j ⟨b, rest⟩).publish S i (publications actor b)
    | _ => none

/-- Nothing is loaded, and nothing was ever said. -/
def empty (Y : Yrs) (ι : Type) : Cluster Y ι := ⟨fun _ => [], fun _ => none, fun _ => [], []⟩

/-- No message is on its way or waits in a mailbox. -/
def Still (c : Cluster Y ι) : Prop :=
  ∀ i, c.flight i = [] ∧ ∀ cell ∈ c.cells i, cell.inbox = []

/-! ## The frames that are published -/

theorem publications_eq (a b : Actor Y) :
    publications a b = (a.publics b).filterMap (RedisScaling.publication Y a.world.name) := by
  rw [Actor.publics, List.filterMap_filter, publications]
  refine List.filterMap_congr fun e _ => ?_
  cases e with
  | onChange | onAwarenessUpdate | reply => rfl
  | _ => rfl

section

variable {cfg : Configuration} {a b : Actor Y} {l : Hocuspocus.Label}
  (hstep : a.step cfg l = some b)

include hstep

theorem publications_nothing (hdeed : a.deed l = .nothing) : publications a b = [] := by
  rw [publications_eq, (Actor.step_nothing hstep hdeed).1]
  rfl

/-- A change is published as what its transaction brought about, if it is not
from Redis. -/
theorem publications_change {update : Bytes} {origin : Origin}
    (hdeed : a.deed l = .change update origin) :
    publications a b = [] ∨ origin.isRedis = false ∧ ∃ u, Y.decodeUpdate update = some u ∧
      (Y.applyUpdate a.world.doc u).2 = true ∧ publications a b
        = [RedisScaling.encodeSyncFrame Y a.world.name (.update (Y.encodeTxn a.world.doc u))] := by
  obtain ⟨clients, hpublics⟩ := (Actor.step_change hstep hdeed).1
  rw [publications_eq, hpublics, changeEvents]
  cases hdec : Y.decodeUpdate update with
  | none => exact Or.inl rfl
  | some u =>
    dsimp only
    split
    next hsaid =>
      cases horigin : origin.isRedis with
      | true =>
        refine Or.inl ?_
        rw [List.filterMap_cons, RedisScaling.publication, RedisScaling.onChange, horigin]
        rfl
      | false =>
        refine Or.inr ⟨rfl, u, rfl, (Bool.and_eq_true_iff.mp hsaid).1, ?_⟩
        rw [List.filterMap_cons, RedisScaling.publication, RedisScaling.onChange, horigin]
        rfl
    next => exact Or.inl rfl

/-- Presence is published as the entries the table now has, if it is not from
Redis. -/
theorem publications_present {frame : IncomingFrame} {origin : Origin}
    (hdeed : a.deed l = .present frame origin) :
    publications a b = [] ∨ origin.isRedis = false ∧ ∃ out, publications a b
      = [Y.writeString a.world.name ++ Y.writeVar 1 ++ Y.writeBuf (Y.encodeAwareness out)] := by
  rw [publications_eq]
  rcases (Actor.step_present hstep hdeed).2 with ⟨hpublics, _⟩ | ⟨update, out, _, _, _, hpublics⟩
  · rw [hpublics]
    exact Or.inl rfl
  · rw [hpublics, List.filterMap_cons, RedisScaling.publication, RedisScaling.onAwarenessUpdate]
    cases origin.isRedis with
    | true => exact Or.inl rfl
    | false => exact Or.inr ⟨rfl, out, rfl⟩

theorem publications_answer {frame : Bytes} (hdeed : a.deed l = .answer frame) :
    publications a b = (RedisScaling.replyFrame Y frame).toList := by
  rw [publications_eq, (Actor.step_answer hstep hdeed).1, List.filterMap_cons,
    RedisScaling.publication]
  cases RedisScaling.replyFrame Y frame <;> rfl

end

end Cluster

end Hocuspocus
