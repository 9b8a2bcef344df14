import Hocuspocus.OneWriter

/-!
# The instance follows the clock rules

The presence tables of `OneWriter.yrs`, read as tables of clocked entries. An
update is merged entry by entry, in its order; by `pick_assoc` that is one
merge with what the whole update says about each client.
-/

namespace Hocuspocus.OneWriter

open Codec Clocked

def entryOf (p : Presence) : Entry String := ⟨p.clock, if p.absent then none else some p.json⟩

def tableOf (table : List Presence) : Table Nat String := fun k =>
  (table.find? fun p => p.client = k).map entryOf

/-- What an update says about a client, the newest of its entries. -/
def entriesOf : List Presence → Table Nat String
  | [], _ => none
  | p :: u, k => pick (if p.client = k then some (entryOf p) else none) (entriesOf u k)

theorem rank_entryOf (p : Presence) :
    rank (some (entryOf p)) = 2 * p.clock + (if p.absent then 2 else 1) := by
  unfold rank entryOf
  cases p.absent <;> rfl

theorem present_entryOf (p : Presence) : present (some (entryOf p)) = !p.absent := by
  unfold present entryOf
  cases p.absent <;> rfl

theorem tableOf_set (table : List Presence) (p : Presence) (k : Nat) :
    tableOf (setPresence table p) k = if p.client = k then some (entryOf p) else tableOf table k := by
  unfold tableOf setPresence
  rw [List.find?_cons]
  by_cases hk : p.client = k
  · rw [decide_eq_true hk, if_pos hk]
    rfl
  · rw [decide_eq_false hk, if_neg hk, List.find?_filter]
    have hpred : ∀ q : Presence,
        decide (decide (q.client ≠ p.client) = true ∧ decide (q.client = k) = true)
          = decide (q.client = k) := by
      intro q
      by_cases hq : q.client = k
      · simp [hq, Ne.symm hk]
      · simp [hq]
    simp only [hpred]

theorem find?_client {table : List Presence} {k : Nat} {p : Presence}
    (h : table.find? (fun p => p.client = k) = some p) : p.client = k := by
  simpa using List.find?_some h

/-- The rule of `applyPresence` is the one of `pick`. Two entries without a
state and with the same clock are the same. -/
theorem pick_entryOf (p q : Presence) :
    pick (some (entryOf q)) (some (entryOf p))
      = if q.clock < p.clock ∨ (q.clock = p.clock ∧ p.absent = true) then some (entryOf p)
        else some (entryOf q) := by
  unfold pick
  rw [rank_entryOf, rank_entryOf]
  by_cases hsame : q.clock = p.clock ∧ p.absent = true ∧ q.absent = true
  · obtain ⟨hclock, hp, hq⟩ := hsame
    have hentry : entryOf q = entryOf p := by
      unfold entryOf
      rw [hp, hq, hclock]
      rfl
    rw [hentry, ite_self, ite_self]
  · have hiff : (2 * q.clock + (if q.absent = true then 2 else 1)
        < 2 * p.clock + (if p.absent = true then 2 else 1)) ↔
        (q.clock < p.clock ∨ (q.clock = p.clock ∧ p.absent = true)) := by
      cases hp : p.absent <;> cases hq : q.absent <;> simp [hp, hq] at hsame ⊢ <;> omega
    simp only [hiff]

theorem tableOf_apply (table : List Presence) (p : Presence) (k : Nat) :
    tableOf (applyPresence table p) k
      = pick (tableOf table k) (if p.client = k then some (entryOf p) else none) := by
  by_cases hk : p.client = k
  · subst hk
    rw [if_pos rfl]
    unfold applyPresence
    cases hfind : table.find? (fun q => q.client = p.client) with
    | none =>
      have hempty : tableOf table p.client = none := by
        unfold tableOf
        rw [hfind]
        rfl
      have hpos : rank (none : Option (Entry String)) < rank (some (entryOf p)) := by
        rw [rank_entryOf, show rank (none : Option (Entry String)) = 0 from rfl]
        split <;> omega
      rw [hempty, tableOf_set, if_pos rfl, pick, if_pos hpos]
    | some q =>
      have hold : tableOf table p.client = some (entryOf q) := by
        unfold tableOf
        rw [hfind]
        rfl
      rw [hold, pick_entryOf]
      dsimp only
      split
      · rw [tableOf_set, if_pos rfl]
      · exact hold
  · rw [if_neg hk, pick_none]
    unfold applyPresence
    split
    · rw [tableOf_set, if_neg hk]
    · split
      · rw [tableOf_set, if_neg hk]
      · rfl

theorem tableOf_foldl (u table : List Presence) (k : Nat) :
    tableOf (u.foldl applyPresence table) k = pick (tableOf table k) (entriesOf u k) := by
  induction u generalizing table with
  | nil => exact (pick_none _).symm
  | cons p u ih => rw [List.foldl_cons, ih, tableOf_apply, pick_assoc, entriesOf]

theorem pick_eq_none {e f : Option (Entry String)} : pick e f = none ↔ e = none ∧ f = none := by
  rw [← rank_eq_zero, ← rank_eq_zero, ← rank_eq_zero, rank_pick]
  omega

theorem mem_clients (u : List Presence) (k : Nat) :
    k ∈ u.map Presence.client ↔ entriesOf u k ≠ none := by
  induction u with
  | nil => simp [entriesOf]
  | cons p u ih =>
    rw [List.map_cons, List.mem_cons, ih, entriesOf]
    by_cases hk : p.client = k
    · simp [hk, pick_eq_none]
    · simp [hk, Ne.symm hk, pick_eq_none]

/-- All entries of the client are the same one. -/
theorem entriesOf_eq {u : List Presence} {k : Nat} {e : Entry String}
    (h : ∀ p ∈ u, p.client = k → entryOf p = e) :
    (k ∈ u.map Presence.client ∧ entriesOf u k = some e) ∨
    (k ∉ u.map Presence.client ∧ entriesOf u k = none) := by
  induction u with
  | nil => exact Or.inr ⟨List.not_mem_nil, rfl⟩
  | cons p u ih =>
    have hrest := ih fun q hq => h q (List.mem_cons_of_mem _ hq)
    rw [List.map_cons, entriesOf]
    by_cases hk : p.client = k
    · rw [if_pos hk, h p (List.mem_cons_self ..) hk]
      refine Or.inl ⟨List.mem_cons.mpr (Or.inl hk.symm), ?_⟩
      rcases hrest with ⟨_, hu⟩ | ⟨_, hu⟩
      · rw [hu, pick, if_neg (Nat.lt_irrefl _)]
      · rw [hu, pick_none]
    · have hpick : pick none (entriesOf u k) = entriesOf u k := by
        unfold pick
        split
        next => rfl
        next hzero =>
          have : rank (entriesOf u k) = 0 := by
            have hnone : rank (none : Option (Entry String)) = 0 := rfl
            omega
          exact (rank_eq_zero.mp this).symm
      rw [if_neg hk, hpick]
      rcases hrest with ⟨hmem, hu⟩ | ⟨hmem, hu⟩
      · exact Or.inl ⟨List.mem_cons_of_mem _ hmem, hu⟩
      · refine Or.inr ⟨fun hin => ?_, hu⟩
        rcases List.mem_cons.mp hin with he | hin
        · exact hk he.symm
        · exact hmem hin

theorem tableOf_remove (table : List Presence) (j k : Nat) :
    tableOf (removePresence table j) k = if k = j then
      some ⟨(tableOf table j).elim 1 fun e => e.clock + 1, none⟩ else tableOf table k := by
  unfold removePresence
  cases hfind : table.find? fun q => q.client = j with
  | none =>
    have hnone : tableOf table j = none := by
      unfold tableOf
      rw [hfind]
      rfl
    dsimp only
    rw [tableOf_set, hnone]
    by_cases hk : k = j
    · rw [if_pos hk, if_pos hk.symm]
      rfl
    · rw [if_neg hk, if_neg (Ne.symm hk)]
  | some q =>
    have hclient := find?_client hfind
    have hsome : tableOf table j = some (entryOf q) := by
      unfold tableOf
      rw [hfind]
      rfl
    dsimp only
    rw [tableOf_set, hsome]
    by_cases hk : k = j
    · rw [if_pos hk, if_pos (hclient.trans hk.symm)]
      rfl
    · rw [if_neg hk, if_neg fun heq => hk (heq.symm.trans hclient)]

theorem remove_other (table : List Presence) (j k : Nat) (h : k ≠ j) :
    tableOf (removePresence table j) k = tableOf table k := by
  rw [tableOf_remove, if_neg h]

theorem remove_present (table : List Presence) (k : Nat) :
    present (tableOf (removePresence table k) k) = false := by
  rw [tableOf_remove, if_pos rfl]
  rfl

theorem remove_rank (table : List Presence) (k : Nat) :
    rank (tableOf table k) ≤ rank (tableOf (removePresence table k) k) := by
  rw [tableOf_remove, if_pos rfl]
  cases tableOf table k with
  | none => exact Nat.zero_le _
  | some e =>
    show 2 * e.clock + (if e.state.isSome then 1 else 2) ≤ 2 * (e.clock + 1) + 2
    split <;> omega

theorem updateWith (table : List Presence) (ids : List Nat)
    (h : ∀ k ∈ ids, tableOf table k ≠ none) :
    ∃ u, ids.mapM (fun id => table.find? fun p => p.client = id) = some u ∧
      u.map Presence.client = ids ∧
      ∀ p ∈ u, table.find? (fun q => q.client = p.client) = some p := by
  induction ids with
  | nil => exact ⟨[], rfl, rfl, nofun⟩
  | cons id ids ih =>
    obtain ⟨u, hu, hclients, hall⟩ := ih fun k hk => h k (List.mem_cons_of_mem _ hk)
    cases hfind : table.find? (fun p => p.client = id) with
    | none =>
      refine absurd ?_ (h id (List.mem_cons_self ..))
      unfold tableOf
      rw [hfind]
      rfl
    | some p =>
      have hp := find?_client hfind
      refine ⟨p :: u, ?_, by rw [List.map_cons, hclients, hp], ?_⟩
      · rw [List.mapM_cons, hfind, hu]
        rfl
      · intro q hq
        rcases List.mem_cons.mp hq with rfl | hq
        · rw [hp, hfind]
        · exact hall q hq

theorem reads_presence : Reads readPresence writePresence := by
  intro p rest
  simp only [writePresence, List.append_assoc]
  rw [readPresence, Read.bind_of_eq (reads_var p.client _), Read.bind_of_eq (reads_var p.clock _),
    Read.bind_of_eq (reads_string p.json _)]
  rfl

theorem tableOf_of_find? {table : List Presence} {p : Presence}
    (h : table.find? (fun q => q.client = p.client) = some p) :
    tableOf table p.client = some (entryOf p) := by
  unfold tableOf
  rw [h]
  rfl

def presence : yrs.Presence String where
  table := tableOf
  entries := entriesOf
  table_new _ := rfl
  mem_clients := mem_clients
  table_apply table u _ := funext fun k => tableOf_foldl u table k
  table_err _ _ h := Bool.noConfusion h
  remove_other := remove_other
  remove_present := remove_present
  remove_rank := remove_rank
  updateWith table ids h := by
    obtain ⟨u, hu, hclients, hall⟩ := updateWith table ids h
    refine ⟨u, hu, fun k => ?_⟩
    by_cases hk : k ∈ ids
    · obtain ⟨p, hp, hpk⟩ := List.mem_map.mp (hclients ▸ hk)
      have hsame : ∀ q ∈ u, q.client = k → entryOf q = entryOf p := by
        intro q hq hqk
        have hfind := hall q hq
        rw [hqk, ← hpk, hall p hp] at hfind
        rw [Option.some.inj hfind]
      rcases entriesOf_eq hsame with ⟨_, hentry⟩ | ⟨hmem, _⟩
      · refine Or.inl ⟨hk, hentry.trans ?_⟩
        rw [← hpk]
        exact (tableOf_of_find? (hall p hp)).symm
      · exact absurd (hclients ▸ hk) hmem
    · refine Or.inr ⟨hk, ?_⟩
      by_contra hentry
      exact hk (hclients ▸ (mem_clients u k).mpr hentry)
  updateAll table := by
    refine ⟨shownStates table, rfl, fun k => ?_⟩
    have hshown : ∀ p ∈ shownStates table, p.absent = false ∧
        table.find? (fun q => q.client = p.client) = some p := by
      intro p hp
      simpa using (List.mem_filter.mp hp).2
    by_cases hk : k ∈ (shownStates table).map Presence.client
    · obtain ⟨p, hp, hpk⟩ := List.mem_map.mp hk
      have hsame : ∀ q ∈ shownStates table, q.client = k → entryOf q = entryOf p := by
        intro q hq hqk
        have hfind := (hshown q hq).2
        rw [hqk, ← hpk, (hshown p hp).2] at hfind
        rw [Option.some.inj hfind]
      rcases entriesOf_eq hsame with ⟨_, hentry⟩ | ⟨hmem, _⟩
      · refine Or.inl (hentry.trans ?_)
        rw [← hpk]
        exact (tableOf_of_find? (hshown p hp).2).symm
      · exact absurd hk hmem
    · refine Or.inr ⟨?_, ?_⟩
      · by_contra hentry
        exact hk ((mem_clients _ k).mpr hentry)
      · show present (tableOf table k) = false
        cases hfind : table.find? (fun p => p.client = k) with
        | none =>
          unfold tableOf
          rw [hfind]
          rfl
        | some p =>
          unfold tableOf
          rw [hfind, Option.map_some, present_entryOf]
          by_contra hstate
          have hpk := find?_client hfind
          refine hk (List.mem_map.mpr ⟨p, List.mem_filter.mpr ⟨List.mem_of_find?_eq_some hfind, ?_⟩,
            hpk⟩)
          rw [hpk, hfind]
          simpa using hstate
  noStates table hnone k := by
    show present (tableOf table k) = false
    cases hfind : table.find? (fun p => p.client = k) with
    | none =>
      unfold tableOf
      rw [hfind]
      rfl
    | some p =>
      have habsent : p.absent = true := by
        have hall := List.any_eq_false.mp hnone p (List.mem_of_find?_eq_some hfind)
        simpa using hall
      unfold tableOf
      rw [hfind, Option.map_some, present_entryOf, habsent]
      rfl
  decode_encode u := by
    have h := reads_presence.list u []
    rw [List.append_nil] at h
    refine ⟨u, ?_, rfl, fun _ => rfl⟩
    exact congrArg Prod.fst h

/-- The frame in which a client shows itself. -/
def showFrame (client clock : Nat) : Bytes :=
  ((OutgoingMessage.new yrs "doc").awarenessUpdate yrs
    (yrs.encodeAwareness [⟨client, clock, "{}"⟩])).intoBytes

/-- The frame in which it takes its state away. -/
def hideFrame (client clock : Nat) : Bytes :=
  ((OutgoingMessage.new yrs "doc").awarenessUpdate yrs
    (yrs.encodeAwareness [⟨client, clock, "null"⟩])).intoBytes

end Hocuspocus.OneWriter
