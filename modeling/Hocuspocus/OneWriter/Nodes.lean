import Hocuspocus.Cluster.State
import Hocuspocus.OneWriter

/-!
# Two nodes with documents of one writer

The nodes `a` (`true`) and `b` of runs on the instance.
-/

namespace Hocuspocus.OneWriter

def nodes : Settings Bool where
  name := "doc"
  identifier := fun i => if i then "a" else "b"
  configuration := fun _ => {}

theorem nodes_short (i : Bool) : RedisScaling.Short (nodes.identifier i) := by
  revert i
  unfold RedisScaling.Short
  decide

theorem nodes_distinct : Function.Injective nodes.identifier := by
  decide

/-- Where the labels lead from nothing. -/
def meet (ls : List (Cluster.Label yrs Bool)) : Cluster yrs Bool :=
  Lts.reach (Cluster.step nodes) (Cluster.empty yrs Bool) ls

/-- A node loads the document, which the storage does not know, and puts it
in its registry. -/
def opens (i : Bool) : List (Cluster.Label yrs Bool) :=
  [.load i yrs.newDoc (queues 8), .register i (some 0)]

/-- Both nodes have the empty document. -/
def settled : Cluster yrs Bool := ⟨fun _ => [⟨start 8, []⟩], fun _ => some 0, fun _ => [], []⟩

/-- Where the labels lead from there. -/
def work (ls : List (Cluster.Label yrs Bool)) : Cluster yrs Bool :=
  Lts.reach (Cluster.step nodes) settled ls

/-- Nothing is on its way or waits. -/
def quiet (c : Cluster yrs Bool) : Bool :=
  [true, false].all fun i => (c.flight i).isEmpty && (c.cells i).all fun cell => cell.inbox.isEmpty

theorem still_of_quiet {c : Cluster yrs Bool} (h : quiet c = true) : c.Still := by
  intro i
  have hi := List.all_eq_true.mp h i (by cases i <;> decide)
  obtain ⟨hflight, hcells⟩ := Bool.and_eq_true_iff.mp hi
  exact ⟨List.isEmpty_iff.mp hflight, fun cell hcell =>
    List.isEmpty_iff.mp (List.all_eq_true.mp hcells cell hcell)⟩

/-- A node's clients, or its host, edit. -/
def edits (i : Bool) (c : Nat) : Cluster.Label yrs Bool :=
  .actor i 0 (.command (.directApply (edit c) 0) {})

/-- A node gets the `n`-th of the messages on their way to it, and handles it. -/
def hears (i : Bool) (n : Nat) : List (Cluster.Label yrs Bool) := [.receive i n, .external i 0 {}]

end Hocuspocus.OneWriter
