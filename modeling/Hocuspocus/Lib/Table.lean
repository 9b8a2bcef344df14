import Mathlib.Data.List.Sort

/-!
# A table with a unique column

Rows as a database keeps them, each with its rowid, and no two with one key.
`select` is a query on the key, newest row first and one row at most; `upsert` is
an insertion that turns into an update where the key is there. Together they are a
map (`select_upsert`), whatever the rowids are.
-/

namespace Sql

universe u v

/-- A row of a table, with the id the database gave it. -/
structure Row (κ : Type u) (ν : Type v) where
  rowid : Nat
  key : κ
  data : ν

/-- A table whose keys are `UNIQUE`. -/
structure Table (κ : Type u) (ν : Type v) where
  rows : List (Row κ ν)
  unique : (rows.map Row.key).Nodup

namespace Table

variable {κ : Type u} {ν : Type v}

def empty : Table κ ν := ⟨[], List.nodup_nil⟩

variable [DecidableEq κ]

/-- `SELECT data … WHERE key = ?1 ORDER BY rowid DESC LIMIT 1`. -/
def select (t : Table κ ν) (k : κ) : Option ν :=
  (((t.rows.filter fun r => r.key = k).insertionSort fun r s => s.rowid ≤ r.rowid).head?).map
    Row.data

/-- One more than the greatest rowid. -/
def nextRowid (t : Table κ ν) : Nat := (t.rows.map Row.rowid).foldr max 0 + 1

theorem keys_update (rows : List (Row κ ν)) (k : κ) (v : ν) :
    (rows.map fun r => if r.key = k then { r with data := v } else r).map Row.key
      = rows.map Row.key := by
  rw [List.map_map]
  refine List.map_congr_left fun r _ => ?_
  rw [Function.comp_apply]
  split <;> rfl

/-- `INSERT … VALUES (?1, ?2) ON CONFLICT(key) DO UPDATE SET data = ?2`. -/
def upsert (t : Table κ ν) (k : κ) (v : ν) : Table κ ν :=
  if h : k ∈ t.rows.map Row.key then
    { rows := t.rows.map fun r => if r.key = k then { r with data := v } else r
      unique := (keys_update t.rows k v).symm ▸ t.unique }
  else
    { rows := t.rows ++ [⟨t.nextRowid, k, v⟩]
      unique := by
        rw [List.map_append]
        refine List.nodup_append.mpr ⟨t.unique, List.nodup_singleton _, ?_⟩
        rintro a ha b hb rfl
        have hkey : a = k := List.mem_singleton.mp hb
        exact h (hkey ▸ ha) }

/-- A key has one row at most. -/
theorem filter_unique : ∀ {rows : List (Row κ ν)}, (rows.map Row.key).Nodup → ∀ k : κ,
    rows.filter (fun r => r.key = k) = (rows.find? fun r => r.key = k).toList := by
  intro rows
  induction rows with
  | nil => exact fun _ _ => rfl
  | cons r rest ih =>
    intro hunique k
    obtain ⟨hnew, hrest⟩ := List.nodup_cons.mp hunique
    by_cases hkey : r.key = k
    · have hnone : rest.filter (fun s => s.key = k) = [] := by
        refine List.filter_eq_nil_iff.mpr fun s hs hsame => hnew ?_
        rw [hkey, ← of_decide_eq_true hsame]
        exact List.mem_map_of_mem hs
      rw [List.filter_cons_of_pos (by simpa using hkey), hnone,
        List.find?_cons_of_pos (by simpa using hkey)]
      rfl
    · rw [List.filter_cons_of_neg (by simpa using hkey),
        List.find?_cons_of_neg (by simpa using hkey), ih hrest]

/-- The order of the rowids does not matter. -/
theorem select_eq (t : Table κ ν) (k : κ) :
    t.select k = (t.rows.find? fun r => r.key = k).map Row.data := by
  rw [select, filter_unique t.unique]
  cases t.rows.find? fun r => r.key = k <;> rfl

/-- An upsert is an update of the map. -/
theorem select_upsert (t : Table κ ν) (k : κ) (v : ν) (k' : κ) :
    (t.upsert k v).select k' = if k' = k then some v else t.select k' := by
  rw [select_eq, select_eq]
  unfold upsert
  split
  next hmem =>
    -- the row that is there, or another one that stays
    rw [List.find?_map]
    have hkeys : ((fun r : Row κ ν => decide (r.key = k')) ∘
        fun r => if r.key = k then { r with data := v } else r)
          = fun r : Row κ ν => decide (r.key = k') := by
      funext r
      rw [Function.comp_apply]
      split <;> rfl
    rw [hkeys, Option.map_map]
    by_cases hk : k' = k
    · subst hk
      rw [if_pos rfl]
      obtain ⟨r, hr, hkey⟩ := List.mem_map.mp hmem
      have hsome : (t.rows.find? fun r => r.key = k').isSome = true :=
        List.find?_isSome.mpr ⟨r, hr, by simpa using hkey⟩
      obtain ⟨found, hfound⟩ := Option.isSome_iff_exists.mp hsome
      have hsame : found.key = k' := by simpa using List.find?_some hfound
      rw [hfound, Option.map_some, Function.comp_apply, if_pos hsame]
    · rw [if_neg hk]
      cases hfound : t.rows.find? fun r => r.key = k' with
      | none => rfl
      | some found =>
        have hsame : found.key = k' := by simpa using List.find?_some hfound
        rw [Option.map_some, Option.map_some, Function.comp_apply,
          if_neg fun heq => hk (hsame.symm.trans heq)]
  next hmem =>
    rw [List.find?_append]
    by_cases hk : k' = k
    · subst hk
      have hnone : (t.rows.find? fun r => r.key = k') = none := by
        refine List.find?_eq_none.mpr fun r hr hkey => hmem ?_
        rw [← of_decide_eq_true hkey]
        exact List.mem_map_of_mem hr
      rw [if_pos rfl, hnone, Option.none_or, List.find?_cons_of_pos (by simp)]
      rfl
    · have hnew : ([⟨t.nextRowid, k, v⟩] : List (Row κ ν)).find? (fun r => r.key = k') = none :=
        List.find?_eq_none.mpr fun r hr hkey => hk (by
          rw [← of_decide_eq_true hkey, List.mem_singleton.mp hr])
      rw [if_neg hk, hnew, Option.or_none]

end Table

end Sql
