import Mathlib.Order.Bounds.Basic
import Hocuspocus.Server.Durable

/-!
# What the server serves and stores is what was edited

`Server/Durable.lean` is the lower bound: nothing that was applied is missing. Here
is the upper one. Whatever contains the row the server began with and every update
applied under a name contains the document of each of its actors, what they are
storing and every row they have written (`Within`). That needs neither faithful
loads nor one actor a name: a load that fails begins with less, not with more. It
does need a storage that makes nothing up (`Honest`), and an `apply_update` that
leaves the document alone when it errs.

Together they say what the content of a name is: the least upper bound of the first
row and the edits (`content_is_edits`).
-/

namespace Hocuspocus

variable {Y : Yrs}

section

variable {L : Type} [SemilatticeSup L] [OrderBot L] (C : Y.Crdt L)

/-! ## One actor -/

/-- If the updates applied are contained in `c`, so are the document, the snapshots
on their way and the states accepted after the `old` ones. -/
def Within (c : L) (old : List Bytes) (v : View Y) : Prop :=
  (∀ update ∈ appliedUpdates v.history, C.bytes update ≤ c) →
    C.held v.content.doc ≤ c ∧ Snapshots (fun state => C.bytes state ≤ c) old v

variable {C} {c : L} {old : List Bytes} {v v' : View Y}

/-- A document that has applied an update contains no more than this brings. -/
theorem held_applied_le {update : Bytes} {u : Y.Update} {doc : Y.Doc}
    (hdec : Y.decodeUpdate update = some u) (hok : (Y.applyUpdate doc u).2 = true)
    (hdoc : C.held doc ≤ c) (hupdate : C.bytes update ≤ c) :
    C.held (Y.applyUpdate doc u).1 ≤ c := by
  rw [C.held_apply _ _ hok]
  rw [C.bytes_of_decode hdec] at hupdate
  exact sup_le hdoc hupdate

/-- **The step lemma.** -/
theorem Within.move (herr : Y.ErrKeepsDoc) (hmove : Move v v') (h : Within C c old v) :
    Within C c old v' := by
  intro hupdates
  have hbefore : ∀ update ∈ appliedUpdates v.history, C.bytes update ≤ c := by
    intro update hmem
    rcases hmove.appliedUpdates_eq C with heq | ⟨new, heq, _⟩
    · exact hupdates update (heq ▸ hmem)
    · exact hupdates update (heq ▸ List.mem_append_left _ hmem)
  obtain ⟨hdoc, hsnapshots⟩ := h hbefore
  refine ⟨?_, hsnapshots.move ((C.bytes_state _).le.trans hdoc) hmove⟩
  cases hmove with
  | failed u hfails => exact (herr _ _ hfails).symm ▸ hdoc
  | absorbed update u origin hdec hok hempty | changed update u origin now clients hdec hok hne =>
    exact held_applied_le hdec hok hdoc (hupdates update (by simp [appliedUpdates]))
  | reported ok | stored ok => cases ok <;> exact hdoc
  | _ => exact hdoc

/-- What an actor holds, is storing and newly has stored after a step. -/
theorem Within.step (herr : Y.ErrKeepsDoc) {cfg : Configuration} {a b : Actor Y} {l : Label}
    (hstep : a.step cfg l = some b) (hdoc : C.held a.world.doc ≤ c)
    (htasks : ∀ state ∈ a.world.storeTasks, C.bytes state ≤ c)
    (hupdates : ∀ update ∈ appliedUpdates b.world.history, C.bytes update ≤ c) :
    C.held b.world.doc ≤ c ∧ (∀ state ∈ b.world.storeTasks, C.bytes state ≤ c) ∧
      ∀ state ∈ a.accepted b, C.bytes state ≤ c := by
  have hend : Within C c (acceptedStates a.world.history) b.world.view := by
    refine Actor.step_preserve (P := Within C c (acceptedStates a.world.history))
      (fun _ _ hmove => Within.move herr hmove) (fun _ h => h) hstep fun _ => ?_
    exact ⟨hdoc, htasks, [], (List.append_nil _).symm, fun state hstate => by cases hstate⟩
  obtain ⟨hheld, hstoring, new, hnew, haccepted⟩ := hend hupdates
  have heq : a.accepted b = new :=
    List.append_cancel_left ((Actor.accepted_eq hstep).symm.trans hnew)
  exact ⟨hheld, hstoring, heq ▸ haccepted⟩

/-- A document that has been loaded holds what was found, or nothing. -/
theorem held_load_le (herr : Y.ErrKeepsDoc) {answer : Fetched}
    (h : ∀ state, answer = .ok (some state) → C.bytes state ≤ c) :
    C.held (Database.load answer) ≤ c := by
  have hnew : C.held Y.newDoc ≤ c := C.held_new.le.trans bot_le
  rw [Database.load_eq]
  unfold Database.onLoadDocument
  split
  next state =>
    split
    next => exact hnew
    next update hdec =>
      cases hok : (Y.applyUpdate Y.newDoc update).2 with
      | true => exact held_applied_le hdec hok hnew (h state rfl)
      | false => exact (congrArg C.held (herr _ _ hok)).le.trans hnew
  next => exact hnew
  next => exact hnew

end

/-! ## The server and its storage -/

namespace Persisted

/-- An actor of the name has applied the update. -/
def Applied (p : Persisted Y) (name : String) (update : Bytes) : Prop :=
  ∃ (j : Nat) (a : Spawned Y), p.server.actors[j]? = some a ∧ a.actor.world.name = name ∧
    update ∈ appliedUpdates a.actor.world.history

/-- What a fetch finds is the row; it may fail, or find nothing. -/
def Honest (p : Persisted Y) (l : Label Y) : Prop :=
  ∀ τ name state, l = .fetch τ (.ok (some state)) → p.server.spawning τ = some name →
    p.row name = some state

variable {L : Type} [SemilatticeSup L] [OrderBot L] (C : Y.Crdt L)

/-- What the name began with, and what was applied under it. -/
def sources (rows : String → Option Bytes) (p : Persisted Y) (name : String) : Set L :=
  insert (C.row (rows name)) {c | ∃ update, p.Applied name update ∧ C.bytes update = c}

/-- The rows, the actors and what has been fetched contain nothing else. -/
structure Sourced (rows : String → Option Bytes) (p : Persisted Y) : Prop where
  stored : ∀ name, ∀ state ∈ p.rows name, ∀ c ∈ upperBounds (p.sources C rows name),
    C.bytes state ≤ c
  held : ∀ (j : Nat) (a : Spawned Y), p.server.actors[j]? = some a →
    ∀ c ∈ upperBounds (p.sources C rows a.actor.world.name), C.held a.actor.world.doc ≤ c ∧
      ∀ state ∈ a.actor.world.storeTasks, C.bytes state ≤ c
  fetched : ∀ τ answer, p.fetched τ = some answer → ∃ name, p.server.spawning τ = some name ∧
    ∀ c ∈ upperBounds (p.sources C rows name), C.held (Database.load answer) ≤ c

variable {C} {rows : String → Option Bytes}

/-- What was applied stays applied. -/
theorem Applied.step {p q : Persisted Y} {cfg : Configuration} {l : Server.Label Y}
    (h : Server.step cfg p.server l = some q.server) {name : String} {update : Bytes}
    (happlied : p.Applied name update) : q.Applied name update := by
  obtain ⟨j, a, ha, hname, hupdate⟩ := happlied
  obtain ⟨b, hb, hround⟩ := Server.step_round h ha
  exact ⟨j, b, hb, hround.name.trans hname, (hround.history.filterMap _).subset hupdate⟩

theorem sources_subset {p q : Persisted Y} {cfg : Configuration} {l : Server.Label Y}
    (h : Server.step cfg p.server l = some q.server) (name : String) :
    p.sources C rows name ⊆ q.sources C rows name := by
  rintro c (hrow | ⟨update, happlied, hc⟩)
  · exact Or.inl hrow
  · exact Or.inr ⟨update, happlied.step h, hc⟩

/-- What an actor has applied is among the sources of its name. -/
theorem bytes_le {p : Persisted Y} {j : Nat} {a : Spawned Y} (ha : p.server.actors[j]? = some a)
    {c : L} (hc : c ∈ upperBounds (p.sources C rows a.actor.world.name)) {update : Bytes}
    (hupdate : update ∈ appliedUpdates a.actor.world.history) : C.bytes update ≤ c :=
  hc (Or.inr ⟨update, ⟨j, a, ha, rfl, hupdate⟩, rfl⟩)

/-- What a round has done to an actor comes from the sources. -/
theorem Sourced.round (herr : Y.ErrKeepsDoc) {p q : Persisted Y} (hp : p.Sourced C rows)
    {cfg : Configuration} {l : Server.Label Y}
    (h : Server.step cfg p.server l = some q.server) {j : Nat} {a b : Spawned Y}
    (ha : p.server.actors[j]? = some a) (hb : q.server.actors[j]? = some b) {c : L}
    (hc : c ∈ upperBounds (q.sources C rows b.actor.world.name)) :
    C.held b.actor.world.doc ≤ c ∧ (∀ state ∈ b.actor.world.storeTasks, C.bytes state ≤ c) ∧
      ∀ state ∈ a.actor.accepted b.actor, C.bytes state ≤ c := by
  obtain ⟨b', hb', hround⟩ := Server.step_round h ha
  obtain rfl : b' = b := Option.some.inj (hb'.symm.trans hb)
  have hbefore := hc
  rw [hround.name] at hbefore
  obtain ⟨hdoc, htasks⟩ := hp.held j a ha c (upperBounds_mono_set (sources_subset h _) hbefore)
  have hupdates : ∀ update ∈ appliedUpdates b'.actor.world.history, C.bytes update ≤ c :=
    fun update hupdate => bytes_le hb hc hupdate
  rcases hround.acts with hsame | ⟨al, hstep⟩
  · rw [hsame, Actor.accepted_self]
    exact ⟨hdoc, htasks, fun state hstate => by cases hstate⟩
  · exact Within.step herr hstep hdoc htasks hupdates

/-- What is accepted under a name is accepted from an actor of it. -/
theorem mem_accepted {s t : Server Y} {l : Server.Label Y} {name : String} {state : Bytes}
    (h : state ∈ s.accepted t name l) :
    ∃ (j : Nat) (a b : Spawned Y), s.actors[j]? = some a ∧ t.actors[j]? = some b ∧
      a.actor.world.name = name ∧ state ∈ a.actor.accepted b.actor := by
  have hactor : ∀ j o, state ∈ s.accepted t name (.command j o) →
      ∃ (j : Nat) (a b : Spawned Y), s.actors[j]? = some a ∧ t.actors[j]? = some b ∧
        a.actor.world.name = name ∧ state ∈ a.actor.accepted b.actor := by
    intro j o h
    unfold Server.accepted at h
    dsimp only at h
    split at h
    next a b ha hb =>
      split at h
      next hname => exact ⟨j, a, b, ha, hb, hname, h⟩
      next => cases h
    next => cases h
  cases l with
  | command j o => exact hactor j o h
  | actor j al => exact hactor j {} h
  | _ => cases h

theorem Sourced.fetch (herr : Y.ErrKeepsDoc) {p : Persisted Y} (hp : p.Sourced C rows)
    {τ : Server.Task} {answer : Fetched} (hhonest : p.Honest (.fetch τ answer)) {name : String}
    (hspawning : p.server.spawning τ = some name) {c : L}
    (hc : c ∈ upperBounds (p.sources C rows name)) : C.held (Database.load answer) ≤ c := by
  refine held_load_le herr fun state hfound => ?_
  have hrow := hhonest τ name state (congrArg (Label.fetch τ) hfound) hspawning
  exact hp.stored name state (List.mem_of_getLast? hrow) c hc

/-- **The step lemma.** -/
theorem Sourced.step (herr : Y.ErrKeepsDoc) {p q : Persisted Y} (hp : p.Sourced C rows)
    {cfg : Configuration} {l : Label Y} (h : p.step cfg l = some q) (hhonest : p.Honest l) :
    q.Sourced C rows := by
  cases l with
  | fetch τ answer =>
    rw [Persisted.step] at h
    split at h
    next hloads =>
      cases h
      obtain ⟨name, hspawning⟩ := Option.isSome_iff_exists.mp (Bool.and_eq_true_iff.mp hloads).1
      refine ⟨hp.stored, hp.held, fun τ' answer' hanswer => ?_⟩
      have hupdated : Function.update p.fetched τ (some answer) τ' = some answer' := hanswer
      by_cases hτ : τ' = τ
      · subst hτ
        rw [Function.update_self] at hupdated
        cases hupdated
        exact ⟨name, hspawning, fun c hc => hp.fetch herr hhonest hspawning hc⟩
      · rw [Function.update_of_ne hτ] at hupdated
        exact hp.fetched τ' answer' hupdated
    next => cases h
  | load τ queues =>
    rw [Persisted.step] at h
    split at h
    next name answer hspawning hfetched =>
      obtain ⟨t, hstep, rfl⟩ := Option.map_eq_some_iff.mp h
      let q : Persisted Y := { p with server := t, fetched := Function.update p.fetched τ none }
      have hmono : ∀ n, upperBounds (q.sources C rows n) ⊆ upperBounds (p.sources C rows n) :=
        fun n => upperBounds_mono_set (sources_subset (p := p) (q := q) hstep n)
      refine ⟨fun n state hstate c hc => hp.stored n state hstate c (hmono n hc),
        fun j b hb c hc => ?_, fun τ' answer' hanswer => ?_⟩
      · have hb' : t.actors[j]? = some b := hb
        rw [Server.resume_actors hspawning hstep] at hb'
        rcases Server.getElem?_snoc hb' with hold | ⟨_, rfl⟩
        · exact hp.held j b hold c (hmono _ hc)
        · obtain ⟨name', hspawning', hbound⟩ := hp.fetched τ answer hfetched
          obtain rfl := Option.some.inj (hspawning.symm.trans hspawning')
          exact ⟨hbound c (hmono _ hc), fun state hstate => by cases hstate⟩
      · have hupdated : Function.update p.fetched τ none τ' = some answer' := hanswer
        have hne : τ' ≠ τ := by
          rintro rfl
          rw [Function.update_self] at hupdated
          cases hupdated
        rw [Function.update_of_ne hne] at hupdated
        obtain ⟨name', hspawning', hbound⟩ := hp.fetched τ' answer' hupdated
        refine ⟨name', Server.step_spawning hstep (fun heq => hne ?_) hspawning',
          fun c hc => hbound c (hmono _ hc)⟩
        exact Option.some.inj (heq.symm.trans (Server.resume_task _ _ τ))
    next => cases h
  | other sl =>
    rw [Persisted.step] at h
    split at h
    next => cases h
    next hload =>
      obtain ⟨t, hstep, rfl⟩ := Option.map_eq_some_iff.mp h
      let q : Persisted Y :=
        { p with server := t, rows := fun name => p.rows name ++ p.server.accepted t name sl }
      have hmono : ∀ n, upperBounds (q.sources C rows n) ⊆ upperBounds (p.sources C rows n) :=
        fun n => upperBounds_mono_set (sources_subset (p := p) (q := q) hstep n)
      have hnone : sl.task.bind p.server.spawning = none := Option.not_isSome_iff_eq_none.mp hload
      refine ⟨fun n state hstate c hc => ?_, fun j b hb c hc => ?_, fun τ answer hanswer => ?_⟩
      · rcases List.mem_append.mp hstate with hold | hnew
        · exact hp.stored n state hold c (hmono n hc)
        · obtain ⟨j, a, b, ha, hb, rfl, hstored⟩ := mem_accepted hnew
          obtain ⟨b', hb', hround⟩ := Server.step_round hstep ha
          obtain rfl : b' = b := Option.some.inj (hb'.symm.trans hb)
          rw [← hround.name] at hc
          exact (hp.round (q := q) herr hstep ha hb hc).2.2 state hstored
      · have hthere : t.actors[j]? = some b := hb
        obtain ⟨hlt, _⟩ := List.getElem?_eq_some_iff.mp hthere
        have hbefore : j < p.server.actors.length := Server.step_length hstep hnone ▸ hlt
        have ha : p.server.actors[j]? = some p.server.actors[j] := List.getElem?_eq_getElem hbefore
        obtain ⟨hdoc, htasks, _⟩ := hp.round (q := q) herr hstep ha hb hc
        exact ⟨hdoc, htasks⟩
      · obtain ⟨name, hspawning, hbound⟩ := hp.fetched τ answer hanswer
        have htask : sl.task ≠ some τ := by
          intro heq
          rw [heq, Option.bind_some, hspawning] at hnone
          cases hnone
        exact ⟨name, Server.step_spawning hstep htask hspawning, fun c hc => hbound c (hmono _ hc)⟩

theorem build_sourced (rows : String → Option Bytes) :
    Sourced C rows (build rows : Persisted Y) where
  stored name state hstate c hc := by
    have hrow : rows name = some state := Option.mem_toList.mp hstate
    have hfirst : C.row (rows name) ≤ c := hc (Set.mem_insert _ _)
    rw [hrow] at hfirst
    exact hfirst
  held j a ha := by cases ha
  fetched τ answer hanswer := by cases hanswer

/-- The first row stays the first. -/
theorem step_rows {p q : Persisted Y} {cfg : Configuration} {l : Label Y}
    (h : p.step cfg l = some q) (name : String) : p.rows name <+: q.rows name := by
  cases l with
  | fetch τ answer =>
    rw [Persisted.step] at h
    split at h
    next =>
      cases h
      exact List.prefix_refl _
    next => cases h
  | load τ queues =>
    rw [Persisted.step] at h
    split at h
    next =>
      obtain ⟨t, _, rfl⟩ := Option.map_eq_some_iff.mp h
      exact List.prefix_refl _
    next => cases h
  | other sl =>
    rw [Persisted.step] at h
    split at h
    next => cases h
    next =>
      obtain ⟨t, _, rfl⟩ := Option.map_eq_some_iff.mp h
      exact List.prefix_append _ _

/-- The least upper bound of the sources is what has all of them and no more. -/
theorem isLUB_sources {p : Persisted Y}
    (hfirst : ∀ name, (rows name).toList <+: p.rows name) {name : String} {c : L}
    (hrows : Covers C c (p.rows name))
    (happlied : ∀ update, p.Applied name update → C.bytes update ≤ c)
    (hleast : c ∈ lowerBounds (upperBounds (p.sources C rows name))) :
    IsLUB (p.sources C rows name) c := by
  refine ⟨?_, hleast⟩
  rintro d (rfl | ⟨update, hupdate, rfl⟩)
  · cases hrow : rows name with
    | none => exact bot_le
    | some state =>
      have hmem := (hfirst name).subset (Option.mem_toList.mpr hrow)
      exact hrows state hmem
  · exact happlied update hupdate

/-- What the actors serve under the name, and what the row has. -/
theorem isLUB_content {p : Persisted Y} (hdurable : p.Durable C) (hsourced : p.Sourced C rows)
    (hfirst : ∀ name, (rows name).toList <+: p.rows name) (name : String) :
    (∀ (j : Nat) (a : Spawned Y), p.server.actors[j]? = some a → a.actor.world.name = name →
      a.Live → IsLUB (p.sources C rows name) (C.held a.actor.world.doc)) ∧
    ((∀ (j : Nat) (a : Spawned Y), p.server.actors[j]? = some a → a.actor.world.name = name →
      a.Live → a.actor.world.dirty = false ∧ a.actor.world.storing = false) →
      IsLUB (p.sources C rows name) (C.row (p.row name))) := by
  refine ⟨fun j a ha hname hlive => ?_, fun hsaved => ?_⟩
  · subst hname
    refine isLUB_sources hfirst (hdurable.safe.live j a ha hlive).held ?_
      fun c hc => (hsourced.held j a ha c hc).1
    rintro update ⟨k, b, hb, hname, hupdate⟩
    exact hdurable.held hb hupdate ha hlive hname.symm
  · have hrows : Covers C (C.row (p.row name)) (p.rows name) := by
      cases hrow : p.row name with
      | none =>
        rw [List.getLast?_eq_none_iff.mp hrow]
        intro state hstate
        cases hstate
      | some state => exact (hdurable.safe.growing name).covers hrow
    refine isLUB_sources hfirst hrows ?_ fun c hc => ?_
    · rintro update ⟨k, b, hb, rfl, hupdate⟩
      obtain ⟨state, hrow, hle⟩ := hdurable.kept hb hupdate (hsaved k b hb rfl)
      rw [hrow]
      exact hle
    · cases hrow : p.row name with
      | none => exact bot_le
      | some state => exact hsourced.stored name state (List.mem_of_getLast? hrow) c hc

/-- The end of a run from these rows. -/
theorem content_invariants (herr : Y.ErrKeepsDoc) {cfg : Configuration} {ls : List (Label Y)}
    {p : Persisted Y} (hrun : Lts.exec (step cfg) (build rows) ls = some p)
    (hkeeping : Lts.Along (step cfg) (fun p l _ => p.Keeping cfg l) (build rows) ls)
    (hhonest : Lts.Along (step cfg) (fun p l _ => p.Honest l) (build rows) ls) :
    p.Durable C ∧ p.Sourced C rows ∧ ∀ name, (rows name).toList <+: p.rows name := by
  refine ⟨?_, ?_, ?_⟩
  · exact Lts.exec_invariant_along (I := fun q : Persisted Y => q.Durable C)
      (fun _ _ _ hstep hc hq => hq.step hstep hc) hkeeping hrun (build_durable rows)
  · exact Lts.exec_invariant_along (I := fun q : Persisted Y => q.Sourced C rows)
      (fun _ _ _ hstep hc hq => hq.step herr hstep hc) hhonest hrun (build_sourced rows)
  · exact Lts.exec_invariant (I := fun q : Persisted Y => ∀ n, (rows n).toList <+: q.rows n)
      (fun _ _ _ hstep hq n => (hq n).trans (step_rows hstep n)) hrun fun n => List.prefix_refl _

end Persisted

/-- **The content of a name is what was edited.** In a run whose loads are faithful,
where no actor that unloads has its last store refused and nothing is found that was
not stored, the document an actor serves under a name is the least upper bound of
the row the server began with and all updates that were ever applied under the name;
and so is the row, when nobody has unsaved changes. -/
theorem content_is_edits {L : Type} [SemilatticeSup L] [OrderBot L] (C : Y.Crdt L)
    (herr : Y.ErrKeepsDoc) {cfg : Configuration} {rows : String → Option Bytes}
    {ls : List (Persisted.Label Y)} {p : Persisted Y}
    (hrun : Lts.exec (Persisted.step cfg) (Persisted.build rows) ls = some p)
    (hkeeping : Lts.Along (Persisted.step cfg) (fun p l _ => p.Keeping cfg l)
      (Persisted.build rows) ls)
    (hhonest : Lts.Along (Persisted.step cfg) (fun p l _ => p.Honest l)
      (Persisted.build rows) ls) (name : String) :
    (∀ (j : Nat) (a : Spawned Y), p.server.actors[j]? = some a → a.actor.world.name = name →
      a.Live → IsLUB (p.sources C rows name) (C.held a.actor.world.doc)) ∧
    ((∀ (j : Nat) (a : Spawned Y), p.server.actors[j]? = some a → a.actor.world.name = name →
      a.Live → a.actor.world.dirty = false ∧ a.actor.world.storing = false) →
      IsLUB (p.sources C rows name) (C.row (p.row name))) := by
  obtain ⟨hdurable, hsourced, hfirst⟩ :=
    Persisted.content_invariants (C := C) herr hrun hkeeping hhonest
  exact Persisted.isLUB_content hdurable hsourced hfirst name

namespace Persisted

open OneWriter

/-- What the fetch finds is the row. -/
def findsRow (p : Persisted yrs) : Label yrs → Bool
  | .fetch τ (.ok (some state)) =>
    (p.server.spawning τ).all fun name => decide (p.row name = some state)
  | _ => true

theorem findsRow_honest {p : Persisted yrs} {l : Label yrs} (h : findsRow p l = true) :
    p.Honest l := by
  rintro τ name state rfl hspawning
  rw [findsRow, hspawning, Option.all_some] at h
  exact of_decide_eq_true h

/-- Two clients have edited the document, one after the other, and left. -/
def visitedTwice : Persisted yrs := keep (fun _ => none) (reopened ++ parts 1 1)

end Persisted

open OneWriter in
theorem content_is_edits_twice :
    Persisted.visitedTwice.row "doc" = some (encodeUpdate ⟨[0, 1], []⟩) ∧
      IsLUB (Persisted.visitedTwice.sources crdt (fun _ => none) "doc")
        (crdt.bytes (encodeUpdate ⟨[0, 1], []⟩)) := by
  have hruns : (Lts.exec (Persisted.step {}) (Persisted.build fun _ => none)
      (Persisted.reopened ++ Persisted.parts 1 1)).isSome = true := by decide +kernel
  have hkeeps : Lts.check (Persisted.step {}) Persisted.keepsRow (Persisted.build fun _ => none)
      (Persisted.reopened ++ Persisted.parts 1 1) = true := by decide +kernel
  have hfinds : Lts.check (Persisted.step {}) Persisted.findsRow (Persisted.build fun _ => none)
      (Persisted.reopened ++ Persisted.parts 1 1) = true := by decide +kernel
  have hrow : Persisted.visitedTwice.row "doc" = some (encodeUpdate ⟨[0, 1], []⟩) := by
    decide +kernel
  have hgone : (Persisted.visitedTwice.server.actors.all
      fun a => decide (a.actor.phase = .stopped)) = true := by decide +kernel
  have hlub := (content_is_edits crdt errKeepsDoc (Lts.exec_reach hruns)
    (Lts.along_of_check (fun _ _ _ => Persisted.keepsRow_keeping) hkeeps)
    (Lts.along_of_check (fun _ _ _ => Persisted.findsRow_honest) hfinds) "doc").2
      fun j a ha _ hlive => absurd
        (Or.inr (of_decide_eq_true (List.all_eq_true.mp hgone a (List.mem_of_getElem? ha)))) hlive
  have hsame : crdt.row (Persisted.visitedTwice.row "doc")
      = crdt.bytes (encodeUpdate ⟨[0, 1], []⟩) := by rw [hrow, Yrs.Crdt.row]
  exact ⟨hrow, hsame ▸ hlub⟩

end Hocuspocus
