import Mathlib.Logic.Function.Basic
import Hocuspocus.Lib.Table
import Hocuspocus.Extensions.Database

/-!
# The bundled storages (`extensions/database.rs`, `extensions/sqlite.rs`)

`Storage` is the trait, over the backend's own state and over the way its calls
come out. What a server relies on is `Storage.Keeps`: the backend is a map from
names to states, `fetch` reads it and a `store` that is not refused writes it. The
`DashMap` of `MemoryStorage` is such a map, and the `documents` table of
`SqliteStorage` is one while its statements do not fail: an upsert and a select by
the unique column.
-/

namespace Hocuspocus

/-- The trait `Storage`; `ε` is how the calls to the backend come out. -/
structure Storage (ε σ : Type) where
  fetch : ε → σ → String → Fetched
  store : ε → σ → String → Bytes → σ × Except String Unit

/-- The backend holds one state a name. Calls that are `sound` fetch what it holds,
a store replaces it, and a store that is refused leaves it. -/
structure Storage.Keeps {ε σ : Type} (S : Storage ε σ) (sound : ε → Prop)
    (held : σ → String → Option Bytes) : Prop where
  fetch : ∀ e s name, sound e → S.fetch e s name = .ok (held s name)
  stored : ∀ e s name state, (S.store e s name state).2 = .ok () →
    held (S.store e s name state).1 = Function.update (held s) name (some state)
  refused : ∀ e s name state error, (S.store e s name state).2 = .error error →
    held (S.store e s name state).1 = held s

/-! ## In memory -/

/-- `MemoryStorage`: what its `DashMap` holds. -/
abbrev MemoryStorage := String → Option Bytes

namespace MemoryStorage

/-- `impl Storage for MemoryStorage`; nothing can fail. -/
def storage : Storage Unit MemoryStorage where
  fetch _ inner name := .ok (inner name)
  store _ inner name state := (Function.update inner name (some state), .ok ())

theorem keeps : storage.Keeps (fun _ => True) (fun inner name => inner name) where
  fetch _ _ _ _ := rfl
  stored _ _ _ _ _ := rfl
  refused _ _ _ _ _ h := by cases h

end MemoryStorage

/-! ## In SQLite -/

namespace SqliteStorage

/-- The outcomes of `prepare_cached`, `query_row` and `execute` when the backend
itself fails them. -/
structure Calls where
  prepared : Except String Unit := .ok ()
  queried : Except String Unit := .ok ()
  executed : Except String Unit := .ok ()

/-- `query_row` of `SELECT`; a query without a row is an error. -/
def queryRow (calls : Calls) (conn : Sql.Table String Bytes) (name : String) :
    Except String Bytes :=
  calls.queried.bind fun _ => (conn.select name).elim (.error "Query returned no rows") .ok

/-- `impl Storage for SqliteStorage`, over the rows of `documents`. -/
def storage : Storage Calls (Sql.Table String Bytes) where
  fetch calls conn name := SqliteStorage.fetch calls.prepared (queryRow calls conn name)
  store calls conn name state :=
    match calls.executed with
    | .error e => (conn, .error e)
    | .ok () => (conn.upsert name state, .ok ())

/-- The statements of a fetch do not fail. -/
def Sound (calls : Calls) : Prop := calls.prepared = .ok () ∧ calls.queried = .ok ()

theorem keeps : storage.Keeps Sound Sql.Table.select where
  fetch calls conn name hsound := by
    obtain ⟨hprepared, hqueried⟩ := hsound
    show SqliteStorage.fetch calls.prepared (queryRow calls conn name) = _
    rw [hprepared, queryRow, hqueried]
    cases conn.select name <;> rfl
  stored calls conn name state hstored := by
    cases hexecuted : calls.executed with
    | error e =>
      simp only [storage, hexecuted] at hstored
      cases hstored
    | ok u =>
      simp only [storage, hexecuted]
      funext other
      rw [Sql.Table.select_upsert, Function.update_apply]
  refused calls conn name state error hrefused := by
    cases hexecuted : calls.executed with
    | error e => simp only [storage, hexecuted]
    | ok u =>
      simp only [storage, hexecuted] at hrefused
      cases hrefused

end SqliteStorage

/-! ## The stores of a step -/

namespace Storage

variable {ε σ : Type}

/-- Stores of a name's state and how they came out, one after the other; `none` if
the backend answers differently. -/
def storeAll (S : Storage ε σ) (e : ε) : σ → List (String × Bytes × Bool) → Option σ
  | s, [] => some s
  | s, (name, state, ok) :: rest =>
    if (S.store e s name state).2.isOk = ok then S.storeAll e (S.store e s name state).1 rest
    else none

/-- The states of the name that were not refused. -/
def acceptedOf (name : String) (stores : List (String × Bytes × Bool)) : List Bytes :=
  stores.filterMap fun (n, state, ok) => if n = name ∧ ok = true then some state else none

/-- A name has what was stored last, or what it had. -/
theorem Keeps.storeAll {S : Storage ε σ} {sound : ε → Prop} {held : σ → String → Option Bytes}
    (hkeeps : S.Keeps sound held) {e : ε} : ∀ {stores : List (String × Bytes × Bool)} {s s' : σ},
    S.storeAll e s stores = some s' →
      ∀ name, held s' name = (acceptedOf name stores).getLast?.or (held s name) := by
  intro stores
  induction stores with
  | nil =>
    intro s s' h name
    cases h
    rfl
  | cons first rest ih =>
    obtain ⟨n, state, ok⟩ := first
    intro s s' h name
    rw [Storage.storeAll] at h
    split at h
    next hok =>
      rw [ih h name]
      have hcons : acceptedOf name ((n, state, ok) :: rest)
          = (if n = name ∧ ok = true then [state] else []) ++ acceptedOf name rest := by
        unfold acceptedOf
        rw [List.filterMap_cons]
        split <;> simp_all
      rw [hcons, List.getLast?_append, Option.or_assoc]
      congr 1
      cases hcalled : (S.store e s n state).2 with
      | ok u =>
        rw [hcalled] at hok
        rw [hkeeps.stored e s n state hcalled, Function.update_apply]
        by_cases hn : name = n
        · rw [if_pos hn, if_pos ⟨hn.symm, hok.symm⟩]
          rfl
        · rw [if_neg hn, if_neg fun hboth => hn hboth.1.symm]
          rfl
      | error msg =>
        rw [hcalled] at hok
        rw [hkeeps.refused e s n state msg hcalled, if_neg fun hboth => ?_]
        · rfl
        · rw [← hok] at hboth
          cases hboth.2
    next => cases h

end Storage

end Hocuspocus
