import Hocuspocus.Document.Provenance
import Hocuspocus.Server.Persisted
import Hocuspocus.Server.Rounds

/-!
# What is applied outlives its actor

An actor is gone once it has unloaded, and with it whatever was not stored. The
next actor of the name starts from the row. `Recorded` says of one actor how far
the rows of its name speak for it: the states it had accepted are among them, and
once it has left they contain every update it applied. While it is there its
document does. Where no last store is refused (`KeepsUnsaved`) and loads are
faithful, an edit is therefore never lost, however often the document is unloaded
and opened again.
-/

namespace Hocuspocus

variable {Y : Yrs}

/-! ## One actor and the rows of its name -/

/-- Past its last command an actor applies nothing. -/
theorem Spawned.Left.applies {cfg : Configuration} {a : Spawned Y} {b : Actor Y} {l : Label}
    (h : a.Left) (hstep : a.actor.step cfg l = some b) {update : Bytes}
    (hupdate : update ∈ appliedUpdates b.world.history) :
    update ∈ appliedUpdates a.actor.world.history := by
  obtain ⟨e, he, hsome⟩ := List.mem_filterMap.mp hupdate
  cases e with
  | applied u origin doc =>
    cases hsome
    rcases Actor.step_applied hstep update origin doc he with hold | hbrings
    · exact List.mem_filterMap.mpr ⟨_, hold, rfl⟩
    · have hcommand := (h.step hstep).2
      cases hbrings with
      | client | external | direct => exact absurd rfl (hcommand _ _)
  | _ => cases hsome

section Recorded

variable {L : Type} [SemilatticeSup L] [OrderBot L] (C : Y.Crdt L)

variable {C} in
/-- A document has what was applied to it. -/
theorem Settled.holds {v : View Y} (h : Settled (updateMeasure C) v) {update : Bytes}
    (hupdate : update ∈ appliedUpdates v.history) : C.bytes update ≤ C.held v.content.doc := by
  obtain ⟨s, _, htracks⟩ := h
  have hle : C.bytes update ≤ C.bytes (Y.encodeState v.content.doc) := htracks.snap update hupdate
  rw [C.bytes_state] at hle
  exact hle

/-- The rows have what the actor had accepted, and once it has left all that it
applied. -/
structure Spawned.Recorded (rows : List Bytes) (a : Spawned Y) : Prop where
  accepted : ∀ state ∈ acceptedStates a.actor.world.history, state ∈ rows
  left : a.Left → ∀ update ∈ appliedUpdates a.actor.world.history,
    ∃ state ∈ rows, C.bytes update ≤ C.bytes state

namespace Spawned.Recorded

variable {C} {rows rows' : List Bytes} {a b : Spawned Y}

theorem born (name : String) (doc : Y.Doc) (queues : Queues) :
    Recorded C rows (Server.born name doc queues) := by
  refine ⟨fun state hstate => ?_, fun _ update hupdate => ?_⟩
  · cases hstate
  · cases hupdate

/-- The actor does nothing. -/
theorem same (h : a.Recorded C rows) (hactor : b.actor = a.actor) (hrows : rows ⊆ rows') :
    b.Recorded C rows' := by
  refine ⟨fun state hstate => ?_, fun hleft update hupdate => ?_⟩
  · rw [hactor] at hstate
    exact hrows (h.accepted state hstate)
  · rw [Spawned.Left, hactor] at hleft
    rw [hactor] at hupdate
    obtain ⟨state, hstate, hle⟩ := h.left hleft update hupdate
    exact ⟨state, hrows hstate, hle⟩

/-- **The step lemma.** An actor that leaves has stored what it applied. -/
theorem step (h : a.Recorded C rows) {cfg : Configuration} {l : Label}
    (hstep : a.actor.step cfg l = some b.actor)
    (hsettled : a.Live → Settled (updateMeasure C) b.actor.world.view)
    (hclosed : a.Live → l ≠ .mailboxClosed) (hkeep : a.actor.KeepsUnsaved cfg l) :
    b.Recorded C (rows ++ a.actor.accepted b.actor) := by
  have haccepted : ∀ state ∈ acceptedStates b.actor.world.history,
      state ∈ rows ++ a.actor.accepted b.actor := by
    intro state hstate
    rw [Actor.accepted_eq hstep] at hstate
    rcases List.mem_append.mp hstate with hold | hnew
    · exact List.mem_append_left _ (h.accepted state hold)
    · exact List.mem_append_right _ hnew
  refine ⟨haccepted, fun hleft update hupdate => ?_⟩
  by_cases hwas : a.Left
  · obtain ⟨state, hstate, hle⟩ := h.left hwas update (hwas.applies hstep hupdate)
    exact ⟨state, List.mem_append_left _ hstate, hle⟩
  · rcases Spawned.left_cases hstep hleft with hwas' | hexit | hmailbox
    · exact absurd hwas' hwas
    · -- it unloads, and its last store has not been refused
      have hunloads := Actor.unloadedBy_unloads hstep hexit
      have hkept := Actor.unloadKeeps_of_settled C hstep hkeep (hsettled hwas) hunloads
      obtain ⟨state, hstate, hle⟩ := hkept update hupdate
      exact ⟨state, haccepted state hstate, hle⟩
    · exact absurd hmailbox (hclosed hwas)

end Spawned.Recorded

end Recorded

/-! ## The server -/

namespace Server

/-- If the step is that of an actor which unloads, its last store is not refused. -/
def KeepsUnsaved (cfg : Configuration) (s : Server Y) : Label Y → Prop
  | .command j o => ∀ a cmd batch, s.actors[j]? = some a → a.batch = cmd :: batch →
      a.actor.KeepsUnsaved cfg (.command cmd o)
  | .actor j l => ∀ a, s.actors[j]? = some a → a.actor.KeepsUnsaved cfg l
  | _ => True

section

variable {L : Type} [SemilatticeSup L] [OrderBot L] {C : Y.Crdt L}

/-- What a round has done to an actor is recorded. -/
theorem recorded_round {s t : Server Y} {cfg : Configuration} {l : Label Y}
    {sends : List (Nat × DocCommand)} {j : Nat} {a b : Spawned Y} {rows : List Bytes}
    (ha : s.actors[j]? = some a) (hb : t.actors[j]? = some b)
    (hround : a.Round cfg s sends j l b) (hkeep : s.KeepsUnsaved cfg l)
    (hsender : a.Live → s.hasSender j a = true)
    (hahead : a.Live → Ahead C rows a.actor.world.view) (h : a.Recorded C rows) :
    b.Recorded C (rows ++ s.accepted t a.actor.world.name l) := by
  have hwas : b.actor = a.actor → b.Recorded C (rows ++ s.accepted t a.actor.world.name l) :=
    fun hactor => h.same hactor (List.subset_append_left _ _)
  have hsettled : ∀ {al : Hocuspocus.Label}, a.actor.step cfg al = some b.actor → a.Live →
      Hocuspocus.Settled (updateMeasure C) b.actor.world.view :=
    fun hstep hlive => ((hahead hlive).step hstep).settled
  have hown : (∃ o, l = .command j o) ∨ (∃ al, l = .actor j al) →
      s.accepted t a.actor.world.name l = a.actor.accepted b.actor := by
    rintro (⟨o, rfl⟩ | ⟨al, rfl⟩) <;> rw [accepted, ha, hb] <;> exact if_pos rfl
  cases hround with
  | told hturns => exact hwas (by unfold Spawned.receives; split <;> rfl)
  | recv | drop => exact hwas rfl
  | command o cmd batch b' hbatch hstep =>
    rw [hown (Or.inl ⟨o, rfl⟩)]
    exact h.step hstep (hsettled hstep) (fun _ hl => by cases hl) (hkeep a cmd batch ha hbatch)
  | actor al b' hplain hbetween hclosed hstep =>
    rw [hown (Or.inr ⟨al, rfl⟩)]
    refine h.step hstep (hsettled hstep) (fun hlive hl => ?_) (hkeep a ha)
    -- somebody has a sender of an actor that is live
    have hnone := (hclosed hl).2
    rw [hsender hlive] at hnone
    cases hnone

end

end Server

/-! ## The server and its storage -/

namespace Persisted

/-- Loads are faithful, and an actor that unloads has its last store accepted. -/
structure Keeping (cfg : Configuration) (p : Persisted Y) (l : Label Y) : Prop where
  faithful : p.Faithful l
  unsaved : ∀ sl, l = .other sl → p.server.KeepsUnsaved cfg sl

variable {L : Type} [SemilatticeSup L] [OrderBot L] (C : Y.Crdt L)

/-- Who is there is ahead of the rows, and who has been there is recorded. -/
structure Durable (p : Persisted Y) : Prop where
  safe : p.Safe C
  recorded : ∀ (j : Nat) (a : Spawned Y), p.server.actors[j]? = some a →
    a.Recorded C (p.rows a.actor.world.name)

variable {C}

theorem Durable.step {p q : Persisted Y} (hp : p.Durable C) {cfg : Configuration} {l : Label Y}
    (h : p.step cfg l = some q) (hkeeping : p.Keeping cfg l) : q.Durable C := by
  refine ⟨hp.safe.step h hkeeping.faithful, fun j b hb => ?_⟩
  cases l with
  | fetch τ answer =>
    rw [Persisted.step] at h
    split at h
    next hloads =>
      cases h
      exact hp.recorded j b hb
    next => cases h
  | load τ queues =>
    rw [Persisted.step] at h
    split at h
    next name answer hspawning hfetched =>
      obtain ⟨t, hstep, rfl⟩ := Option.map_eq_some_iff.mp h
      rw [Server.resume_actors hspawning hstep] at hb
      rcases Server.getElem?_snoc hb with hold | ⟨_, rfl⟩
      · exact hp.recorded j b hold
      · exact .born _ _ _
    next => cases h
  | other sl =>
    rw [Persisted.step] at h
    split at h
    next => cases h
    next hload =>
      obtain ⟨t, hstep, rfl⟩ := Option.map_eq_some_iff.mp h
      have hlength := Server.step_length hstep (Option.not_isSome_iff_eq_none.mp hload)
      obtain ⟨hlt, _⟩ := List.getElem?_eq_some_iff.mp hb
      have ha : p.server.actors[j]? = some p.server.actors[j] :=
        List.getElem?_eq_getElem (hlength ▸ hlt)
      obtain ⟨b', hb', hround⟩ := Server.step_round hstep ha
      obtain rfl : b' = b := Option.some.inj (hb'.symm.trans hb)
      rw [hround.name]
      exact Server.recorded_round ha hb hround (hkeeping.unsaved sl rfl)
        (hp.safe.exclusive.hasSender ha) (hp.safe.live j _ ha) (hp.recorded j _ ha)

theorem build_durable (rows : String → Option Bytes) : Durable C (build rows : Persisted Y) :=
  ⟨build_safe rows, fun j a ha => by cases ha⟩

/-- The actor of the name that is there holds all that was ever applied under it. -/
theorem Durable.held {p : Persisted Y} (hp : p.Durable C) {j k : Nat} {a b : Spawned Y}
    (ha : p.server.actors[j]? = some a) {update : Bytes}
    (hupdate : update ∈ appliedUpdates a.actor.world.history) (hb : p.server.actors[k]? = some b)
    (hlive : b.Live) (hname : b.actor.world.name = a.actor.world.name) :
    C.bytes update ≤ C.held b.actor.world.doc := by
  by_cases hleft : a.Left
  · obtain ⟨state, hstate, hle⟩ := (hp.recorded j a ha).left hleft update hupdate
    exact hle.trans ((hp.safe.live k b hb hlive).held state (hname ▸ hstate))
  · obtain rfl := hp.safe.exclusive.one ha hb hleft hlive hname.symm
    obtain rfl : a = b := Option.some.inj (ha.symm.trans hb)
    exact (hp.safe.live j a ha hleft).settled.holds hupdate

/-- Where nobody has unsaved changes, the row does. -/
theorem Durable.kept {p : Persisted Y} (hp : p.Durable C) {j : Nat} {a : Spawned Y}
    (ha : p.server.actors[j]? = some a) {update : Bytes}
    (hupdate : update ∈ appliedUpdates a.actor.world.history)
    (hsaved : a.Live → a.actor.world.dirty = false ∧ a.actor.world.storing = false) :
    ∃ state, p.row a.actor.world.name = some state ∧ C.bytes update ≤ C.bytes state := by
  have hrecorded := hp.recorded j a ha
  have hrow : ∃ state ∈ p.rows a.actor.world.name, C.bytes update ≤ C.bytes state := by
    by_cases hleft : a.Left
    · exact hrecorded.left hleft update hupdate
    · obtain ⟨hdirty, hstoring⟩ := hsaved hleft
      obtain ⟨state, hstate, hle⟩ :=
        (hp.safe.live j a ha hleft).settled.kept hdirty hstoring update hupdate
      exact ⟨state, hrecorded.accepted state hstate, hle⟩
  obtain ⟨state, hstate, hle⟩ := hrow
  -- the last row contains them all
  cases hlast : p.row a.actor.world.name with
  | none =>
    rw [List.getLast?_eq_none_iff.mp hlast] at hstate
    cases hstate
  | some last => exact ⟨last, rfl, hle.trans ((hp.safe.growing _).covers hlast state hstate)⟩

end Persisted

/-- **No edit is lost.** In a run whose loads are faithful and where no actor that
unloads has its last store refused, an update that was ever applied under a name is
held by the actor of the name that is there, however many have left since. Where
the actor that applied it has left, or has nothing unsaved, the row contains it. -/
theorem edits_outlive_actors {L : Type} [SemilatticeSup L] [OrderBot L] (C : Y.Crdt L)
    {cfg : Configuration} {rows : String → Option Bytes} {ls : List (Persisted.Label Y)}
    {p : Persisted Y}
    (hrun : Lts.exec (Persisted.step cfg) (Persisted.build rows) ls = some p)
    (hkeeping : Lts.Along (Persisted.step cfg) (fun p l _ => p.Keeping cfg l)
      (Persisted.build rows) ls) {j : Nat} {a : Spawned Y}
    (ha : p.server.actors[j]? = some a) {update : Bytes}
    (hupdate : update ∈ appliedUpdates a.actor.world.history) :
    (∀ (k : Nat) (b : Spawned Y), p.server.actors[k]? = some b → b.Live →
      b.actor.world.name = a.actor.world.name → C.bytes update ≤ C.held b.actor.world.doc) ∧
    ((a.Live → a.actor.world.dirty = false ∧ a.actor.world.storing = false) →
      ∃ state, p.row a.actor.world.name = some state ∧ C.bytes update ≤ C.bytes state) := by
  have hend : p.Durable C := Lts.exec_invariant_along (I := fun q : Persisted Y => q.Durable C)
    (fun _ _ _ hstep hc hq => hq.step hstep hc) hkeeping hrun (Persisted.build_durable rows)
  exact ⟨fun k b hb hlive hname => hend.held ha hupdate hb hlive hname, hend.kept ha hupdate⟩

namespace Persisted

open OneWriter

/-- If the actor unloads, its last store is accepted. -/
def keepsUnsaved (a : Spawned yrs) (l : Hocuspocus.Label) : Bool :=
  match a.actor.unloadCall l with
  | some (o, _) => (firstError o.onStoreUnload).isNone
  | none => true

/-- Loads read the row, and the last stores are accepted. -/
def keepsRow (p : Persisted yrs) : Label yrs → Bool
  | .other (.command j o) => (p.server.actors[j]?).all fun a =>
      match a.batch with
      | cmd :: _ => keepsUnsaved a (.command cmd o)
      | [] => true
  | .other (.actor j al) => (p.server.actors[j]?).all fun a => keepsUnsaved a al
  | .other sl => p.server.orderly sl
  | l => readsRow p l

theorem keepsUnsaved_spec {cfg : Configuration} {a : Spawned yrs} {l : Hocuspocus.Label}
    (h : keepsUnsaved a l = true) : a.actor.KeepsUnsaved cfg l := by
  intro o w hcall _ _ _ _ _
  rw [keepsUnsaved, hcall] at h
  exact Option.isNone_iff_eq_none.mp h

theorem keepsRow_keeping {cfg : Configuration} {p : Persisted yrs} {l : Label yrs}
    (h : keepsRow p l = true) : p.Keeping cfg l := by
  have hother : ∀ {sl}, p.server.orderly sl = true → p.Faithful (.other sl) := by
    intro sl horderly
    refine ⟨fun τ answer name state hl => ?_, fun sl' hl => ?_⟩
    · cases hl
    · cases hl
      exact Server.orderly_sound horderly
  cases l with
  | fetch | load =>
    refine ⟨readsRow_faithful h, fun sl hl => ?_⟩
    cases hl
  | other sl =>
    refine ⟨hother ?_, fun sl' hl => ?_⟩
    · cases sl <;> first | rfl | exact h
    cases hl
    cases sl with
    | command j o =>
      intro a cmd batch ha hbatch
      rw [keepsRow, ha, Option.all_some, hbatch] at h
      exact keepsUnsaved_spec h
    | actor j al =>
      intro a ha
      rw [keepsRow, ha, Option.all_some] at h
      exact keepsUnsaved_spec h
    | _ => trivial

/-- A client edits a document and leaves; another one opens it again and edits. -/
def reopened : List (Label yrs) :=
  others [.connect 0, .connect 0] ++ (joins 0 0 (.ok none) ++ edits 0 0 0 ++ parts 0 0) ++
    (joins 1 1 (.ok (some (edit 0))) ++ edits 1 1 1)

end Persisted

open OneWriter in
/-- The second actor has the edit of the first one, which has left. -/
theorem edits_outlive_actors_reopened :
    ∃ a b : Spawned yrs,
      (Persisted.keep (fun _ => none) Persisted.reopened).server.actors[0]? = some a ∧
      (Persisted.keep (fun _ => none) Persisted.reopened).server.actors[1]? = some b ∧
      a.Left ∧ b.Live ∧ appliedUpdates a.actor.world.history = [edit 0] ∧
      crdt.bytes (edit 0) ≤ crdt.held b.actor.world.doc ∧
      ∃ state, (Persisted.keep (fun _ => none) Persisted.reopened).row "doc" = some state ∧
        crdt.bytes (edit 0) ≤ crdt.bytes state := by
  have hruns : (Lts.exec (Persisted.step {}) (Persisted.build fun _ => none)
      Persisted.reopened).isSome = true := by decide +kernel
  have hcheck : Lts.check (Persisted.step {}) Persisted.keepsRow (Persisted.build fun _ => none)
      Persisted.reopened = true := by decide +kernel
  have hfirst : ((Persisted.keep (fun _ => none) Persisted.reopened).server.actors[0]?).map
      (fun a => (a.actor.world.name, a.actor.phase, appliedUpdates a.actor.world.history))
        = some ("doc", .stopped, [edit 0]) := by decide +kernel
  have hsecond : ((Persisted.keep (fun _ => none) Persisted.reopened).server.actors[1]?).map
      (fun b => (b.actor.world.name, b.actor.phase)) = some ("doc", .select) := by decide +kernel
  obtain ⟨a, ha, hdid⟩ := Option.map_eq_some_iff.mp hfirst
  obtain ⟨hname, hphase, happlied⟩ : _ ∧ _ ∧ _ := by simpa only [Prod.mk.injEq] using hdid
  obtain ⟨b, hb, hdoes⟩ := Option.map_eq_some_iff.mp hsecond
  obtain ⟨hname', hphase'⟩ := Prod.mk.inj hdoes
  have hleft : a.Left := Or.inr hphase
  have hlive : b.Live := by
    intro h
    rw [Spawned.Left, hphase'] at h
    rcases h with h | h <;> cases h
  have hkept := edits_outlive_actors crdt (Lts.exec_reach hruns)
    (Lts.along_of_check (fun _ _ _ => Persisted.keepsRow_keeping) hcheck) ha
    (happlied ▸ List.mem_singleton_self (edit 0))
  obtain ⟨state, hrow, hle⟩ := hkept.2 fun hlive => absurd hleft hlive
  exact ⟨a, b, ha, hb, hleft, hlive, happlied, hkept.1 1 b hb hlive (hname'.trans hname.symm),
    state, hname ▸ hrow, hle⟩

end Hocuspocus
