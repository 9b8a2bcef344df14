import Hocuspocus.Lib.Run
import Hocuspocus.Document.Handlers

/-!
# `Document::run`

The `select!` loop as a labelled step function. A label says which branch is
taken and carries what the environment supplies to it. A batch is a sequence
of `command` labels, at most `maxCoalesceBatch` of them, closed by `flush`;
the store-result and deadline branches are only open between batches, which
is what `Phase` records. Commands that were drained into a batch and not
handled because an earlier one unloaded the document are never handled, so
they have no label.

A spawned store task finishes (`storeTask`) and the other holders of the
queues act (`queues`) at any moment, also after the actor has stopped.
-/

namespace Hocuspocus

variable {Y : Yrs}

/-- `MAX_COALESCE_BATCH`. -/
def maxCoalesceBatch : Nat := 512

/-- Where the loop stands: waiting in `select!`, inside a batch of which `n`
commands have been handled, past a command that asked to exit, or done. -/
inductive Phase
  | select
  | batch (n : Nat)
  | exiting
  | stopped
  deriving DecidableEq, Repr

/-- The place of the next command in the open batch, if one may still join. -/
def Phase.next : Phase → Option Nat
  | .select => some 1
  | .batch n => if n < maxCoalesceBatch then some (n + 1) else none
  | .exiting | .stopped => none

structure Actor (Y : Yrs) where
  world : World Y
  phase : Phase

inductive Label
  | command (cmd : DocCommand) (o : Ambient)
  | flush (sched : List (List QueueAct))
  | storeResult (o : Ambient)
  | deadline (o : Ambient)
  | mailboxClosed
  | storeTask (i : Nat) (results : List HookResult)
  | queues (acts : List QueueAct)

namespace World

def withSched (w : World Y) (sched : List (List QueueAct)) : World Y := { w with sched := sched }

/-- The `store_result_rx` branch, up to `maybe_unload`. -/
def takeResult (o : Ambient) (w : World Y) (ok : Bool) (rest : List Bool) : World Y :=
  let w := { w with storeResults := rest, storing := false }
  if ok then w else w.markDirty o.now w.lastOrigin

/-- The deadline branch. -/
def tick (cfg : Configuration) (o : Ambient) (w : World Y) : World Y × Bool :=
  if w.connections.isEmpty then (w.runStore o.onStore).maybeUnload cfg o
  else (w.spawnStore, false)

end World

/-- What follows a branch that may have asked to exit. -/
def Phase.after (exit : Bool) (stay leave : Phase) : Phase := if exit then leave else stay

def Actor.step (cfg : Configuration) (a : Actor Y) : Label → Option (Actor Y)
  | .command cmd o =>
    match a.phase.next with
    | none => none
    | some n =>
      let r := (a.world.withSched o.sched).handleCommand cfg o cmd
      some ⟨r.1, Phase.after r.2 (.batch n) .exiting⟩
  | .flush sched =>
    match a.phase with
    | .batch _ => some ⟨(a.world.withSched sched).flushBroadcast, .select⟩
    | .exiting => some ⟨(a.world.withSched sched).flushBroadcast, .stopped⟩
    | _ => none
  | .storeResult o =>
    match a.phase, a.world.storeResults with
    | .select, ok :: rest =>
      let r := ((a.world.withSched o.sched).takeResult o ok rest).maybeUnload cfg o
      some ⟨r.1, Phase.after r.2 .select .stopped⟩
    | _, _ => none
  | .deadline o =>
    match a.phase, a.world.storeDeadline cfg with
    | .select, some d =>
      if d ≤ o.now then
        let r := (a.world.withSched o.sched).tick cfg o
        some ⟨r.1, Phase.after r.2 .select .stopped⟩
      else none
    | _, _ => none
  | .mailboxClosed =>
    match a.phase with
    | .select => some { a with phase := .stopped }
    | _ => none
  | .storeTask i results =>
    if i < a.world.storeTasks.length then some { a with world := a.world.finishStore i results }
    else none
  | .queues acts =>
    some { a with world := { a.world with queues := runQueueActs a.world.queues acts } }

/-- `Document::spawn` once the load hooks have run on the document. -/
def Actor.spawn (name : String) (doc : Y.Doc) (queues : Queues) : Actor Y where
  world :=
    { doc, dirty := false, firstDirtyAt := none, lastChangeAt := none, lastOrigin := .local,
      storing := false, storeTasks := [], storeResults := [], broadcastBase := none,
      broadcastPending := false, name, awareness := Y.newAwareness, connections := Keyed.empty,
      queues, sched := [], trace := [] }
  phase := .select

/-- A run of the actor of a loaded document. -/
abbrev Actor.Run (cfg : Configuration) (a : Actor Y) (ls : List Label) (b : Actor Y) : Prop :=
  Lts.exec (Actor.step cfg) a ls = some b

end Hocuspocus
