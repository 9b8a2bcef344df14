import Mathlib.Data.List.Nodup
import Mathlib.Data.List.Perm.Basic

/-!
# Finite maps whose values carry their key

A hash map from keys to records that name their own key: the table is the
list of records, in whatever order iteration meets them, and the field
`nodup` says that no key occurs twice. Everything below is stated through
`get?`, and `mem_iff_get?` makes it independent of the order of the list, so
an insertion may reorder the table as it likes (`Reorder`).
-/

/-- How an insertion rearranges the table: any permutation. -/
structure Reorder (α : Type) where
  apply : List α → List α
  perm : ∀ l, (apply l).Perm l

/-- The table keeps its order. -/
def Reorder.keep {α : Type} : Reorder α := ⟨id, fun _ => List.Perm.refl _⟩

structure Keyed {κ α : Type} (key : α → κ) where
  vals : List α
  nodup : (vals.map key).Nodup

namespace Keyed

variable {κ α : Type} [DecidableEq κ] {key : α → κ}

def empty : Keyed key := ⟨[], List.nodup_nil⟩

def get? (m : Keyed key) (k : κ) : Option α := m.vals.find? fun v => key v = k

def contains (m : Keyed key) (k : κ) : Bool := (m.get? k).isSome

def isEmpty (m : Keyed key) : Bool := m.vals.isEmpty

def size (m : Keyed key) : Nat := m.vals.length

def erase (m : Keyed key) (k : κ) : Keyed key :=
  { vals := m.vals.filter fun v => key v ≠ k
    nodup := (List.filter_sublist.map key).nodup m.nodup }

theorem insert_nodup (m : Keyed key) (r : Reorder α) (v : α) :
    ((r.apply (v :: (m.erase (key v)).vals)).map key).Nodup := by
  refine (((r.perm _).map key).nodup_iff).mpr ?_
  rw [List.map_cons, List.nodup_cons]
  refine ⟨?_, (m.erase (key v)).nodup⟩
  intro hmem
  obtain ⟨u, hu, hkey⟩ := List.mem_map.mp hmem
  have := (List.mem_filter.mp hu).2
  simp [hkey] at this

/-- Insert under the record's own key, replacing what was there. -/
def insert (m : Keyed key) (r : Reorder α) (v : α) : Keyed key :=
  { vals := r.apply (v :: (m.erase (key v)).vals)
    nodup := m.insert_nodup r v }

/-- Rewrite the record under `k` in place; its key stays. -/
def modify (m : Keyed key) (k : κ) (f : α → α) (hf : ∀ v, key (f v) = key v) : Keyed key :=
  { vals := m.vals.map fun v => if key v = k then f v else v
    nodup := by
      have hcomp : (key ∘ fun v => if key v = k then f v else v) = key := by
        funext v
        simp only [Function.comp_apply]
        split
        · exact hf v
        · rfl
      rw [List.map_map, hcomp]
      exact m.nodup }

/-- Membership is lookup under the record's key. -/
theorem mem_iff_get? {m : Keyed key} {k : κ} {v : α} :
    m.get? k = some v ↔ v ∈ m.vals ∧ key v = k := by
  unfold get?
  constructor
  · intro h
    exact ⟨List.mem_of_find?_eq_some h, by simpa using List.find?_some h⟩
  · rintro ⟨hmem, hkey⟩
    cases hfind : m.vals.find? (fun u => decide (key u = k)) with
    | none =>
      have := List.find?_eq_none.mp hfind v hmem
      simp [hkey] at this
    | some u =>
      have hu := List.mem_of_find?_eq_some hfind
      have hku : key u = k := by simpa using List.find?_some hfind
      rw [List.inj_on_of_nodup_map m.nodup hu hmem (hku.trans hkey.symm)]

theorem get?_eq_none {m : Keyed key} {k : κ} :
    m.get? k = none ↔ ∀ v ∈ m.vals, key v ≠ k := by
  unfold get?
  simp

@[simp] theorem contains_eq_true {m : Keyed key} {k : κ} :
    m.contains k = true ↔ ∃ v, m.get? k = some v := by
  unfold contains
  exact Option.isSome_iff_exists

theorem get?_key {m : Keyed key} {k : κ} {v : α} (h : m.get? k = some v) : key v = k :=
  (mem_iff_get?.mp h).2

@[simp] theorem get?_empty (k : κ) : (empty : Keyed key).get? k = none := rfl

theorem get?_insert (m : Keyed key) (r : Reorder α) (v : α) (k : κ) :
    (m.insert r v).get? k = if k = key v then some v else m.get? k := by
  have hmem : ∀ u, u ∈ (m.insert r v).vals ↔ u = v ∨ (u ∈ m.vals ∧ key u ≠ key v) := by
    intro u
    rw [insert, (r.perm _).mem_iff]
    simp [erase]
  split
  next hk => exact mem_iff_get?.mpr ⟨(hmem v).mpr (Or.inl rfl), hk.symm⟩
  next hk =>
    cases hg : m.get? k with
    | none =>
      refine get?_eq_none.mpr fun u hu => ?_
      rcases (hmem u).mp hu with rfl | ⟨hu', _⟩
      · exact fun he => hk he.symm
      · exact get?_eq_none.mp hg u hu'
    | some u =>
      obtain ⟨hu, hku⟩ := mem_iff_get?.mp hg
      exact mem_iff_get?.mpr
        ⟨(hmem u).mpr (Or.inr ⟨hu, fun he => hk (hku ▸ he)⟩), hku⟩

theorem get?_erase (m : Keyed key) (j k : κ) :
    (m.erase j).get? k = if k = j then none else m.get? k := by
  split
  next hk =>
    refine get?_eq_none.mpr fun u hu => ?_
    simpa [hk] using (List.mem_filter.mp hu).2
  next hk =>
    cases hg : m.get? k with
    | none =>
      exact get?_eq_none.mpr fun u hu => get?_eq_none.mp hg u (List.mem_filter.mp hu).1
    | some u =>
      obtain ⟨hu, hku⟩ := mem_iff_get?.mp hg
      exact mem_iff_get?.mpr
        ⟨List.mem_filter.mpr ⟨hu, by simpa [hku] using hk⟩, hku⟩

theorem erase_of_get?_none {m : Keyed key} {k : κ} (h : m.get? k = none) : m.erase k = m := by
  have hvals : m.vals.filter (fun v => key v ≠ k) = m.vals :=
    List.filter_eq_self.mpr fun v hv => by simpa using get?_eq_none.mp h v hv
  cases m
  unfold erase
  congr

/-- A table is an entry and the rest of it. -/
theorem perm_erase {m : Keyed key} {k : κ} {v : α} (h : m.get? k = some v) :
    m.vals.Perm (v :: (m.erase k).vals) := by
  obtain ⟨hmem, hkey⟩ := mem_iff_get?.mp h
  refine (List.perm_ext_iff_of_nodup (List.Nodup.of_map key m.nodup) ?_).mpr fun u => ?_
  · refine List.nodup_cons.mpr ⟨fun hin => ?_, List.Nodup.of_map key (m.erase k).nodup⟩
    have hother := (List.mem_filter.mp hin).2
    simp [hkey] at hother
  · rw [List.mem_cons]
    constructor
    · intro hu
      by_cases hku : key u = k
      · exact Or.inl (List.inj_on_of_nodup_map m.nodup hu hmem (hku.trans hkey.symm))
      · exact Or.inr (List.mem_filter.mpr ⟨hu, by simpa using hku⟩)
    · rintro (rfl | hu)
      · exact hmem
      · exact (List.mem_filter.mp hu).1

theorem get?_modify (m : Keyed key) (j : κ) (f : α → α) (hf : ∀ v, key (f v) = key v) (k : κ) :
    (m.modify j f hf).get? k = if k = j then (m.get? k).map f else m.get? k := by
  have hmem : ∀ u, u ∈ (m.modify j f hf).vals ↔
      ∃ v ∈ m.vals, (if key v = j then f v else v) = u := by
    intro u
    exact List.mem_map
  cases hg : m.get? k with
  | none =>
    have hnone : (m.modify j f hf).get? k = none := by
      refine get?_eq_none.mpr fun u hu => ?_
      obtain ⟨v, hv, rfl⟩ := (hmem u).mp hu
      have := get?_eq_none.mp hg v hv
      split
      · rw [hf]; exact this
      · exact this
    rw [hnone]
    split <;> rfl
  | some v =>
    obtain ⟨hv, hkv⟩ := mem_iff_get?.mp hg
    split
    next hk =>
      exact mem_iff_get?.mpr
        ⟨(hmem _).mpr ⟨v, hv, if_pos (hkv.trans hk)⟩, (hf v).trans hkv⟩
    next hk =>
      exact mem_iff_get?.mpr
        ⟨(hmem _).mpr ⟨v, hv, if_neg fun he => hk (hkv ▸ he)⟩, hkv⟩

theorem isEmpty_iff {m : Keyed key} : m.isEmpty = true ↔ ∀ k, m.get? k = none := by
  unfold isEmpty
  rw [List.isEmpty_iff]
  constructor
  · intro h k
    refine get?_eq_none.mpr fun v hv => ?_
    rw [h] at hv
    cases hv
  · intro h
    refine List.eq_nil_iff_forall_not_mem.mpr fun v hv => ?_
    exact get?_eq_none.mp (h (key v)) v hv rfl

end Keyed
