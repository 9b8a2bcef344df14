import Mathlib.Order.BoundedOrder.Lattice
import Hocuspocus.Lib.Causal
import Hocuspocus.Lib.Clocked
import Hocuspocus.Yrs

/-!
# What is assumed about `yrs`

Two readings of its documents. `Crdt` is the coarse one, for the results
about persistence: a document holds a content, an update carries one,
contents form a join-semilattice, and applying an update joins the two.
`Replicated` is the finer one, for the results about broadcasts, with
operations and deletions and with operations that wait for their
dependencies. `ErrKeepsDoc` stands by itself. `Presence` reads the awareness
tables by the clock rules of y-protocols.
-/

namespace Hocuspocus

open Causal

/-- `yrs` documents and updates, read in a join-semilattice of contents. -/
structure Yrs.Crdt (Y : Yrs) (L : Type) [SemilatticeSup L] [OrderBot L] where
  held : Y.Doc → L
  carried : Y.Update → L
  held_new : held Y.newDoc = ⊥
  held_apply : ∀ d u, (Y.applyUpdate d u).2 = true →
    held (Y.applyUpdate d u).1 = held d ⊔ carried u
  /-- An update that errs half way takes nothing away. -/
  held_mono : ∀ d u, held d ≤ held (Y.applyUpdate d u).1
  /-- The full state decodes, and carries all of the document. -/
  decode_state : ∀ d, ∃ u, Y.decodeUpdate (Y.encodeState d) = some u ∧ carried u = held d
  /-- A v1 update is never empty: it opens with the number of its clients. -/
  encodeTxn_ne_nil : ∀ d u, Y.encodeTxn d u ≠ []

/-- `apply_update` leaves the document alone when it errs. -/
def Yrs.ErrKeepsDoc (Y : Yrs) : Prop :=
  ∀ d u, (Y.applyUpdate d u).2 = false → (Y.applyUpdate d u).1 = d

namespace Yrs.Crdt

variable {Y : Yrs} {L : Type} [SemilatticeSup L] [OrderBot L] (C : Y.Crdt L)

/-- The content of encoded bytes; bytes that do not decode have none. -/
def bytes (b : Bytes) : L :=
  match Y.decodeUpdate b with
  | some u => C.carried u
  | none => ⊥

theorem bytes_of_decode {b : Bytes} {u : Y.Update} (h : Y.decodeUpdate b = some u) :
    C.bytes b = C.carried u := by
  rw [bytes, h]

@[simp] theorem bytes_state (d : Y.Doc) : C.bytes (Y.encodeState d) = C.held d := by
  obtain ⟨u, hdec, hu⟩ := C.decode_state d
  rw [C.bytes_of_decode hdec, hu]

end Yrs.Crdt

/-- `yrs` documents as causal replicas. -/
structure Yrs.Replicated (Y : Yrs) (Op : Type) where
  deps : Op → Op → Prop
  rep : Y.Doc → Replica Op
  delta : Y.Update → Delta Op
  covers : Y.StateVector → Set Op
  rep_apply : ∀ d u, (Y.applyUpdate d u).2 = true →
    rep (Y.applyUpdate d u).1 = (rep d).apply (delta u)
  /-- Pending operations stay outside the state vector. -/
  covers_stateVector : ∀ d, covers (Y.stateVector d) = (rep d).ins deps
  /-- `encode_diff_v1` carries all blocks the state vector does not cover and
  the whole delete set. -/
  decode_diff : ∀ d sv, ∃ u, Y.decodeUpdate (Y.encodeDiff d sv) = some u ∧
    delta u = (rep d).diff deps (covers sv) ∧ ∀ c, (Y.applyUpdate c u).2 = true
  /-- `encode_update_v1` carries what the transaction brought about. -/
  decode_txn : ∀ d u, (Y.applyUpdate d u).2 = true →
    ∃ u', Y.decodeUpdate (Y.encodeTxn d u) = some u' ∧
      delta u' = Replica.change deps (rep d) (rep (Y.applyUpdate d u).1) ∧
      ∀ c, (Y.applyUpdate c u').2 = true
  encodeTxn_ne_nil : ∀ d u, Y.encodeTxn d u ≠ []
  encodeDiff_ne_nil : ∀ d sv, Y.encodeDiff d sv ≠ []

open Clocked in
/-- `yrs` awareness by the clock rules of y-protocols: an update merges entry
by entry, a removal takes the state away, and what is encoded are the current
entries. -/
structure Yrs.Presence (Y : Yrs) (σ : Type) where
  table : Y.Awareness → Table Nat σ
  entries : Y.AwarenessUpdate → Table Nat σ
  table_new : ∀ k, table Y.newAwareness k = none
  mem_clients : ∀ u k, k ∈ Y.clients u ↔ entries u k ≠ none
  table_apply : ∀ a u, (Y.applyAwareness a u).2 = true →
    table (Y.applyAwareness a u).1 = (table a).merge (entries u)
  table_err : ∀ a u, (Y.applyAwareness a u).2 = false → table (Y.applyAwareness a u).1 = table a
  /-- A removal concerns its client only. Its entry gets a later clock, also if it
  had no state, or none at all. -/
  remove_other : ∀ a j k, k ≠ j → table (Y.removeState a j) k = table a k
  remove_present : ∀ a k, present (table (Y.removeState a k) k) = false
  remove_rank : ∀ a k, rank (table a k) ≤ rank (table (Y.removeState a k) k)
  /-- The current entries of known clients, those of no others. -/
  updateWith : ∀ a ids, (∀ k ∈ ids, table a k ≠ none) → ∃ u, Y.updateWithClients a ids = some u ∧
    ∀ k, (k ∈ ids ∧ entries u k = table a k) ∨ (k ∉ ids ∧ entries u k = none)
  /-- The whole table, clients without a state perhaps left out. -/
  updateAll : ∀ a, ∃ u, Y.awarenessUpdate a = some u ∧
    ∀ k, entries u k = table a k ∨ (entries u k = none ∧ present (table a k) = false)
  noStates : ∀ a, Y.hasStates a = false → ∀ k, present (table a k) = false
  /-- What was encoded is read back, and accepted. -/
  decode_encode : ∀ u, ∃ u', Y.decodeAwareness (Y.encodeAwareness u) = some u' ∧
    entries u' = entries u ∧ ∀ a, (Y.applyAwareness a u').2 = true

end Hocuspocus
