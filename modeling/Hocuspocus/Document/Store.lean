import Hocuspocus.Lib.WriteBehind
import Hocuspocus.Extensions.Database
import Hocuspocus.Document.Frame
import Hocuspocus.OneWriter

/-!
# The stores of an actor as write-behind persistence

The actor's store bookkeeping (`dirty`, `storing`, the spawned tasks and the
results they report) is the machine of `WriteBehind`, whichever way one
measures what a snapshot shows of the document. A `Measure` fixes one such
reading; `Tracks` relates a view of the actor to a state of the machine, and
`Tracks.move` is the simulation: every move of the actor is at most one step
of the machine. The machine's invariant is then an invariant of the actor
(`Kept`), used here with two measures: the encoded state itself
(`stateMeasure`), and the list of updates applied so far (`updateMeasure`).
-/

namespace Hocuspocus

variable {Y : Yrs}

/-! ## What a history says about the stores -/

/-- The updates `apply_and_broadcast` has integrated. -/
def appliedUpdates (h : List (Event Y)) : List Bytes :=
  h.filterMap fun | .applied update _ _ => some update | _ => none

/-- The states handed to the store hooks. -/
def handedStates (h : List (Event Y)) : List Bytes :=
  h.filterMap fun | .snapshot state => some state | _ => none

/-- The store attempts that have ended. -/
def endedStores (h : List (Event Y)) : List Bool :=
  h.filterMap fun | .stored _ ok => some ok | _ => none

/-- The states all store hooks accepted. -/
def acceptedStates (h : List (Event Y)) : List Bytes :=
  h.filterMap fun | .stored state true => some state | _ => none

section History

variable (h k : List (Event Y))

@[simp] theorem appliedUpdates_append :
    appliedUpdates (h ++ k) = appliedUpdates h ++ appliedUpdates k := List.filterMap_append

@[simp] theorem handedStates_append :
    handedStates (h ++ k) = handedStates h ++ handedStates k := List.filterMap_append

@[simp] theorem endedStores_append :
    endedStores (h ++ k) = endedStores h ++ endedStores k := List.filterMap_append

@[simp] theorem acceptedStates_append :
    acceptedStates (h ++ k) = acceptedStates h ++ acceptedStates k := List.filterMap_append

end History

/-! ## The simulation -/

/-- A way to measure how much of the document a state shows. `kept a l` says
that the accepted states `l` keep all of `a`. -/
structure Measure (Y : Yrs) (α : Type) where
  le : α → α → Prop
  cur : View Y → α
  shows : α → Bytes → Prop
  kept : α → List Bytes → Prop

structure Measure.Sound {α : Type} (m : Measure Y α) : Prop where
  flush : ∀ v, m.cur v.flush = m.cur v
  refl : ∀ a, m.le a a
  trans : ∀ a b c, m.le a b → m.le b c → m.le a c
  grow : ∀ v v', Move v v' → m.le (m.cur v) (m.cur v')
  /-- Only an applied update changes the measure. -/
  same : ∀ v v', Move v v' → appliedUpdates v'.history = appliedUpdates v.history →
    m.cur v' = m.cur v
  /-- A snapshot shows the current measure, and goes on doing so. -/
  snap : ∀ v v', Move v v' → m.shows (m.cur v) (Y.encodeState v.content.doc) →
    m.shows (m.cur v') (Y.encodeState v'.content.doc)
  kept_snoc : ∀ a l state, m.shows a state → m.kept a (l ++ [state])

variable {α : Type} {m : Measure Y α}

structure Tracks (m : Measure Y α) (v : View Y) (s : WriteBehind.State α) : Prop where
  cur : s.cur = m.cur v
  unsaved : s.unsaved = v.content.dirty
  busy : s.busy = v.content.storing
  reports : s.reports = v.content.storeResults
  flight : List.Forall₂ m.shows s.flight v.content.storeTasks
  handed : List.Forall₂ m.shows s.handed (handedStates v.history)
  saved : m.kept s.saved (acceptedStates v.history)
  snap : m.shows (m.cur v) (Y.encodeState v.content.doc)

theorem forall₂_snoc {β : Type} {R : α → β → Prop} {l : List α} {k : List β} {a : α} {b : β}
    (h : List.Forall₂ R l k) (hab : R a b) : List.Forall₂ R (l ++ [a]) (k ++ [b]) :=
  List.rel_append h (.cons hab .nil)

theorem forall₂_eraseIdx {β : Type} {R : α → β → Prop} {l : List α} {k : List β}
    (h : List.Forall₂ R l k) (i : Nat) : List.Forall₂ R (l.eraseIdx i) (k.eraseIdx i) := by
  induction h generalizing i with
  | nil => exact .nil
  | cons hab hrest ih =>
    cases i with
    | zero => exact hrest
    | succ i => exact .cons hab (ih i)

/-- A move that neither applies nor stores leaves the machine where it is. -/
theorem Tracks.stay {v v' : View Y} {s : WriteBehind.State α} (hm : m.Sound) (hmove : Move v v')
    (h : Tracks m v s) (happlied : appliedUpdates v'.history = appliedUpdates v.history)
    (hdirty : v'.content.dirty = v.content.dirty)
    (hstoring : v'.content.storing = v.content.storing)
    (hresults : v'.content.storeResults = v.content.storeResults)
    (htasks : v'.content.storeTasks = v.content.storeTasks)
    (hhanded : handedStates v'.history = handedStates v.history)
    (haccepted : acceptedStates v'.history = acceptedStates v.history) : Tracks m v' s where
  cur := h.cur.trans (hm.same v v' hmove happlied).symm
  unsaved := h.unsaved.trans hdirty.symm
  busy := h.busy.trans hstoring.symm
  reports := h.reports.trans hresults.symm
  flight := htasks ▸ h.flight
  handed := hhanded ▸ h.handed
  saved := haccepted ▸ h.saved
  snap := hm.snap v v' hmove h.snap

/-- **The simulation**: a move of the actor is a step of the write-behind
machine, or leaves it where it is. An absorbed update would change the
document behind the flag's back; the law on `encodeTxn` excludes it. -/
theorem Tracks.move (hne : ∀ d u, Y.encodeTxn d u ≠ []) {v v' : View Y}
    {s : WriteBehind.State α} (hm : m.Sound) (hmove : Move v v') (h : Tracks m v s) :
    Tracks m v' s ∨ ∃ s', WriteBehind.Step m.le s s' ∧ Tracks m v' s' := by
  have hsnap := hm.snap v v' hmove h.snap
  have hsame := hm.same v v' hmove
  have hgrow := hm.grow v v' hmove
  have hshow : m.shows s.cur (Y.encodeState v.content.doc) := h.cur ▸ h.snap
  cases hmove with
  | checked update origin clients =>
    exact Or.inl (h.stay hm (.checked v update origin clients) (by simp [appliedUpdates])
      rfl rfl rfl rfl (by simp [handedStates]) (by simp [acceptedStates]))
  | failed u herr => exact Or.inl (h.stay hm (.failed v u herr) rfl rfl rfl rfl rfl rfl rfl)
  | absorbed update u origin hdec hok hempty => exact absurd hempty (hne _ _)
  | changed update u origin now clients hdec hok htxn =>
    -- the flag and the document change together: a write
    refine Or.inr ⟨_, .write s _ (h.cur ▸ hgrow), rfl, rfl, h.busy, h.reports, h.flight, ?_, ?_,
      hsnap⟩
    · simpa [handedStates] using h.handed
    · simpa [acceptedStates] using h.saved
  | spawned hdirty hstoring =>
    refine Or.inr ⟨_, .begin s (h.unsaved.trans hdirty) (h.busy.trans hstoring),
      h.cur.trans (hsame (by simp [appliedUpdates])).symm, rfl, rfl, h.reports,
      forall₂_snoc h.flight hshow, ?_, ?_, hsnap⟩
    · simpa [handedStates] using forall₂_snoc h.handed hshow
    · simpa [acceptedStates] using h.saved
  | finished i state ok htask =>
    -- task `i` carries the snapshot that the machine has at `i` in flight
    have hlen := h.flight.length_eq
    obtain ⟨hlt, hstate⟩ := List.getElem?_eq_some_iff.mp htask
    have hi : s.flight[i]? = some s.flight[i] := List.getElem?_eq_getElem (hlen ▸ hlt)
    have hshown : m.shows s.flight[i] state := hstate ▸ (List.forall₂_iff_get.mp h.flight).2 i _ hlt
    refine Or.inr ⟨_, .land s i _ ok hi, h.cur.trans (hsame ?_).symm, h.unsaved, h.busy, ?_,
      forall₂_eraseIdx h.flight i, ?_, ?_, hsnap⟩
    · cases ok <;> simp [appliedUpdates]
    · exact congrArg (· ++ [ok]) h.reports
    · have hhanded := h.handed
      cases ok <;> simpa [handedStates] using hhanded
    · cases ok with
      | true => simpa [acceptedStates] using hm.kept_snoc _ (acceptedStates v.history) _ hshown
      | false => simpa [acceptedStates] using h.saved
  | reported ok rest now hresult =>
    refine Or.inr ⟨_, .report s ok rest (h.reports.trans hresult),
      h.cur.trans (hsame rfl).symm, ?_, ?_, ?_, ?_, h.handed, h.saved, hsnap⟩
    · cases ok with
      | true => simpa using h.unsaved
      | false => simp [Content.markDirty]
    · cases ok <;> rfl
    · cases ok <;> rfl
    · cases ok <;> exact h.flight
  | stored ok hdirty hstoring =>
    refine Or.inr ⟨_, .sync s ok (h.unsaved.trans hdirty) (h.busy.trans hstoring),
      h.cur.trans (hsame ?_).symm, ?_, ?_, ?_, ?_, ?_, ?_, hsnap⟩
    · cases ok <;> simp [appliedUpdates]
    · cases ok with
      | true => rfl
      | false => exact hdirty.symm
    · cases ok <;> exact h.busy
    · cases ok <;> exact h.reports
    · cases ok <;> exact h.flight
    · have hhanded := forall₂_snoc h.handed hshow
      cases ok <;> simpa [handedStates] using hhanded
    · cases ok with
      | true => simpa [acceptedStates] using hm.kept_snoc _ (acceptedStates v.history) _ hshow
      | false => simpa [acceptedStates] using h.saved
  | unloading =>
    exact Or.inl (h.stay hm (.unloading v) (by simp [appliedUpdates]) rfl rfl rfl rfl
      (by simp [handedStates]) (by simp [acceptedStates]))
  | unloaded =>
    exact Or.inl (h.stay hm (.unloaded v) (by simp [appliedUpdates]) rfl rfl rfl rfl
      (by simp [handedStates]) (by simp [acceptedStates]))

/-- The actor's bookkeeping is that of a write-behind machine in a state its
invariant allows. -/
def Settled (m : Measure Y α) (v : View Y) : Prop :=
  ∃ s, WriteBehind.Inv m.le s ∧ Tracks m v s

theorem Settled.move (hne : ∀ d u, Y.encodeTxn d u ≠ []) (hm : m.Sound) {v v' : View Y}
    (hmove : Move v v') (h : Settled m v) : Settled m v' := by
  obtain ⟨s, hinv, htracks⟩ := h
  rcases htracks.move hne hm hmove with hstay | ⟨s', hstep, hs'⟩
  · exact ⟨s, hinv, hstay⟩
  · exact ⟨s', hstep.inv hm.refl hm.trans hinv, hs'⟩

theorem Settled.flush (hm : m.Sound) {v : View Y} (h : Settled m v) : Settled m v.flush := by
  obtain ⟨s, hinv, htracks⟩ := h
  have hcur := hm.flush v
  exact ⟨s, hinv, { htracks with cur := htracks.cur.trans hcur.symm, snap := hcur ▸ htracks.snap }⟩

/-- Nothing unsaved, no store running: the accepted states keep the current
measure. -/
theorem Settled.kept {v : View Y} (h : Settled m v) (hdirty : v.content.dirty = false)
    (hstoring : v.content.storing = false) : m.kept (m.cur v) (acceptedStates v.history) := by
  obtain ⟨s, hinv, htracks⟩ := h
  have hsaved := hinv.saved_eq (htracks.unsaved.trans hdirty) (htracks.busy.trans hstoring)
  rw [← htracks.cur, ← hsaved]
  exact htracks.saved

theorem Settled.one_task {v : View Y} (h : Settled m v) : v.content.storeTasks.length ≤ 1 := by
  obtain ⟨s, hinv, htracks⟩ := h
  exact htracks.flight.length_eq ▸ hinv.one_flight

theorem Settled.no_task {v : View Y} (h : Settled m v) (hstoring : v.content.storing = false) :
    v.content.storeTasks = [] := by
  obtain ⟨s, hinv, htracks⟩ := h
  have hflight := htracks.flight
  rw [(hinv.quiet (htracks.busy.trans hstoring)).1] at hflight
  exact List.forall₂_nil_left_iff.mp hflight

/-- What a spawned actor starts from. -/
theorem Settled.spawn (hm : m.Sound) {name : String} {doc : Y.Doc} {queues : Queues}
    (hsnap : m.shows (m.cur (Actor.spawn name doc queues).world.view) (Y.encodeState doc))
    (hkept : m.kept (m.cur (Actor.spawn name doc queues).world.view) []) :
    Settled m (Actor.spawn name doc queues).world.view :=
  ⟨.start _, WriteBehind.inv_start hm.refl _,
    ⟨rfl, rfl, rfl, rfl, .nil, .nil, hkept, hsnap⟩⟩

/-! ## The two measures -/

/-- The last accepted state, `init` before there is one. -/
def lastAccepted (init : Option Bytes) (h : List (Event Y)) : Option Bytes :=
  (acceptedStates h).getLast?.or init

/-- A state shows exactly itself, and only the last accepted one is kept:
what a store replaces is gone. `init` stands in before the first store. -/
def stateMeasure {L : Type} [SemilatticeSup L] [OrderBot L] (C : Y.Crdt L) (init : Bytes) :
    Measure Y Bytes where
  le a b := C.bytes a ≤ C.bytes b
  cur v := Y.encodeState v.content.doc
  shows a state := a = state
  kept a l := l.getLast?.getD init = a

/-- A state shows the updates it contains, and they are kept by any accepted
state containing them. -/
def updateMeasure {L : Type} [SemilatticeSup L] [OrderBot L] (C : Y.Crdt L) :
    Measure Y (List Bytes) where
  le a b := a <+: b
  cur v := appliedUpdates v.history
  shows a state := ∀ update ∈ a, C.bytes update ≤ C.bytes state
  kept a l := ∀ update ∈ a, ∃ state ∈ l, C.bytes update ≤ C.bytes state

section Measures

variable {L : Type} [SemilatticeSup L] [OrderBot L] (C : Y.Crdt L)

/-- A move takes nothing away from the document. -/
theorem Move.held_le {v v' : View Y} (h : Move v v') :
    C.held v.content.doc ≤ C.held v'.content.doc := by
  cases h with
  | failed u herr => exact C.held_mono _ _
  | absorbed update u origin hdec hok hempty => exact C.held_mono _ _
  | changed update u origin now clients hdec hok hne => exact C.held_mono _ _
  | reported ok rest now hresult => cases ok <;> exact le_rfl
  | stored ok hdirty hstoring => cases ok <;> exact le_rfl
  | _ => exact le_rfl

/-- A move that applies nothing and does not fail keeps the document. -/
theorem Move.doc_eq (herr : Y.ErrKeepsDoc) {v v' : View Y} (h : Move v v')
    (happlied : appliedUpdates v'.history = appliedUpdates v.history) :
    v'.content.doc = v.content.doc := by
  cases h with
  | failed u hfail => exact herr _ _ hfail
  | absorbed update u origin hdec hok hempty => simp [appliedUpdates] at happlied
  | changed update u origin now clients hdec hok hne => simp [appliedUpdates] at happlied
  | reported ok rest now hresult => cases ok <;> rfl
  | stored ok hdirty hstoring => cases ok <;> rfl
  | _ => rfl

/-- A move applies one update at most, and the document then holds it. -/
theorem Move.appliedUpdates_eq {v v' : View Y} (h : Move v v') :
    appliedUpdates v'.history = appliedUpdates v.history ∨
    ∃ update, appliedUpdates v'.history = appliedUpdates v.history ++ [update] ∧
      C.bytes update ≤ C.held v'.content.doc := by
  have happly : ∀ {update : Bytes} {u : Y.Update}, Y.decodeUpdate update = some u →
      (Y.applyUpdate v.content.doc u).2 = true →
      C.bytes update ≤ C.held (Y.applyUpdate v.content.doc u).1 := by
    intro update u hdec hok
    rw [C.held_apply _ _ hok, C.bytes_of_decode hdec]
    exact le_sup_right
  cases h with
  | absorbed update u origin hdec hok hempty =>
    exact Or.inr ⟨update, by simp [appliedUpdates], happly hdec hok⟩
  | changed update u origin now clients hdec hok hne =>
    exact Or.inr ⟨update, by simp [appliedUpdates], happly hdec hok⟩
  | finished i state ok htask => exact Or.inl (by cases ok <;> simp [appliedUpdates])
  | stored ok hdirty hstoring => exact Or.inl (by cases ok <;> simp [appliedUpdates])
  | _ => exact Or.inl (by simp [appliedUpdates])

theorem stateMeasure_sound (herr : Y.ErrKeepsDoc) (init : Bytes) : (stateMeasure C init).Sound where
  flush _ := rfl
  refl _ := le_refl (C.bytes _)
  trans _ _ _ hab hbc := le_trans (α := L) hab hbc
  grow v v' hmove := by
    show C.bytes (Y.encodeState _) ≤ C.bytes (Y.encodeState _)
    rw [C.bytes_state, C.bytes_state]
    exact hmove.held_le C
  same v v' hmove happlied := congrArg Y.encodeState (hmove.doc_eq herr happlied)
  snap _ _ _ _ := rfl
  kept_snoc a l state hshow := by
    show (l ++ [state]).getLast?.getD init = a
    rw [List.getLast?_append]
    exact hshow.symm

theorem updateMeasure_sound : (updateMeasure C).Sound where
  flush _ := rfl
  refl a := List.prefix_refl a
  trans _ _ _ hab hbc := hab.trans hbc
  grow v v' hmove := by
    show appliedUpdates v.history <+: appliedUpdates v'.history
    rcases hmove.appliedUpdates_eq C with heq | ⟨update, heq, _⟩
    · exact heq.symm ▸ List.prefix_refl _
    · exact heq.symm ▸ List.prefix_append _ _
  same v v' _ happlied := happlied
  snap v v' hmove hshow := by
    -- older updates stay below the growing document, a new one is in it
    have hold : ∀ update ∈ appliedUpdates v.history, C.bytes update ≤ C.held v'.content.doc := by
      intro update hmem
      have hle := hshow update hmem
      rw [C.bytes_state] at hle
      exact hle.trans (hmove.held_le C)
    intro update hmem
    rw [C.bytes_state]
    rcases hmove.appliedUpdates_eq C with heq | ⟨new, heq, hnew⟩
    · exact hold update (heq ▸ hmem)
    · change update ∈ appliedUpdates v'.history at hmem
      rw [heq] at hmem
      rcases List.mem_append.mp hmem with hmem | hmem
      · exact hold update hmem
      · exact List.mem_singleton.mp hmem ▸ hnew
  kept_snoc a l state hshow := fun update hmem =>
    ⟨state, List.mem_append.mpr (Or.inr (List.mem_singleton.mpr rfl)), hshow update hmem⟩

end Measures

/-! ## At most one attempt

Counting alone decides it: `handedStates` are the attempts begun and
`endedStores` those that came back. -/

/-- The attempts begun and not ended are the spawned tasks, and at no point
of the history was a second one open. -/
structure OneAttempt (v : View Y) : Prop where
  open_eq : (handedStates v.history).length
    = (endedStores v.history).length + v.content.storeTasks.length
  single : ∀ h, h <+: v.history → (handedStates h).length ≤ (endedStores h).length + 1

theorem prefix_append_cases {β : Type} {h k j : List β} (hj : j <+: h ++ k) :
    j <+: h ∨ ∃ j', j = h ++ j' ∧ j' <+: k := by
  obtain ⟨t, ht⟩ := hj
  rcases List.append_eq_append_iff.mp ht with ⟨c, rfl, _⟩ | ⟨j', rfl, hk⟩
  · exact Or.inl ⟨c, rfl⟩
  · exact Or.inr ⟨j', rfl, ⟨t, hk.symm⟩⟩

/-- The history grows by `k`, with at most one attempt open in its course. -/
theorem OneAttempt.extend {v v' : View Y} {k : List (Event Y)} (h : OneAttempt v)
    (hhist : v'.history = v.history ++ k)
    (hopen : (handedStates k).length + v.content.storeTasks.length
      = (endedStores k).length + v'.content.storeTasks.length)
    (hsingle : ∀ j, j <+: k →
      (handedStates j).length + v.content.storeTasks.length ≤ (endedStores j).length + 1) :
    OneAttempt v' := by
  have hopen' := h.open_eq
  refine ⟨?_, ?_⟩
  · rw [hhist, handedStates_append, endedStores_append, List.length_append, List.length_append]
    omega
  · intro j hj
    rw [hhist] at hj
    rcases prefix_append_cases hj with hj | ⟨j', rfl, hj'⟩
    · exact h.single j hj
    · have := hsingle j' hj'
      rw [handedStates_append, endedStores_append, List.length_append, List.length_append]
      omega

/-- `k` neither begins nor ends an attempt. -/
theorem OneAttempt.quiet {v v' : View Y} {k : List (Event Y)} (h : OneAttempt v)
    (hhist : v'.history = v.history ++ k) (htasks : v'.content.storeTasks = v.content.storeTasks)
    (hone : v.content.storeTasks.length ≤ 1) (hk : handedStates k = []) (hk' : endedStores k = []) :
    OneAttempt v' := by
  refine h.extend hhist (by rw [hk, hk', htasks]; rfl) ?_
  rintro j ⟨t, rfl⟩
  rw [handedStates_append, List.append_eq_nil_iff] at hk
  rw [hk.1, List.length_nil]
  omega

theorem OneAttempt.move {v v' : View Y} (hmove : Move v v')
    (hone : v.content.storeTasks.length ≤ 1)
    (hidle : v.content.storing = false → v.content.storeTasks = []) (h : OneAttempt v) :
    OneAttempt v' := by
  cases hmove with
  | checked update origin clients => exact h.quiet rfl rfl hone rfl rfl
  | failed u herr => exact h.quiet (List.append_nil _).symm rfl hone rfl rfl
  | absorbed update u origin hdec hok hempty => exact h.quiet rfl rfl hone rfl rfl
  | changed update u origin now clients hdec hok hne => exact h.quiet rfl rfl hone rfl rfl
  | spawned hdirty hstoring =>
    -- no task runs, so there is room for one
    have htasks := hidle hstoring
    refine h.extend rfl (by simp [htasks, handedStates, endedStores]) ?_
    intro j hj
    rcases List.prefix_cons_iff.mp hj with rfl | ⟨t, rfl, ht⟩
    · simp [htasks, handedStates]
    · rw [List.prefix_nil.mp ht]
      simp [htasks, handedStates]
  | finished i state ok htask =>
    have hlt := (List.getElem?_eq_some_iff.mp htask).1
    have hlen : (v.content.storeTasks.eraseIdx i).length = v.content.storeTasks.length - 1 :=
      List.length_eraseIdx_of_lt hlt
    have hnone : handedStates [Event.stored (Y := Y) state ok] = [] := rfl
    have hended : (endedStores [Event.stored (Y := Y) state ok]).length = 1 := rfl
    refine h.extend rfl ?_ ?_
    · rw [hnone, hended, hlen, List.length_nil]
      omega
    · rintro j ⟨t, ht⟩
      rw [← ht, handedStates_append, List.append_eq_nil_iff] at hnone
      rw [hnone.1, List.length_nil]
      omega
  | reported ok rest now hresult =>
    refine h.quiet (k := []) (List.append_nil _).symm ?_ hone rfl rfl
    cases ok <;> rfl
  | stored ok hdirty hstoring =>
    have htasks := hidle hstoring
    have htasks' : (if ok = true then v.content.clean else v.content).storeTasks = [] := by
      cases ok <;> exact htasks
    refine h.extend rfl ?_ ?_
    · rw [htasks, htasks']
      cases ok <;> rfl
    · intro j hj
      rw [htasks]
      rcases List.prefix_cons_iff.mp hj with rfl | ⟨t, rfl, ht⟩
      · exact Nat.zero_le _
      · have hnone : handedStates t = [] := by
          obtain ⟨s, hs⟩ := ht
          have hall : handedStates [Event.stored (Y := Y) (Y.encodeState v.content.doc) ok] = [] :=
            rfl
          rw [← hs, handedStates_append, List.append_eq_nil_iff] at hall
          exact hall.1
        have hcons : handedStates (Event.snapshot (Y := Y) (Y.encodeState v.content.doc) :: t)
            = Y.encodeState v.content.doc :: handedStates t := rfl
        rw [hcons, hnone]
        exact Nat.le_add_left 1 _
  | unloading => exact h.quiet rfl rfl hone rfl rfl
  | unloaded => exact h.quiet rfl rfl hone rfl rfl

theorem OneAttempt.spawn (name : String) (doc : Y.Doc) (queues : Queues) :
    OneAttempt (Actor.spawn name doc queues).world.view :=
  ⟨rfl, fun h hh => by rw [List.prefix_nil.mp hh]; exact Nat.zero_le _⟩

/-! ## The bookkeeping of a loaded actor -/

namespace Yrs.Crdt

variable {L : Type} [SemilatticeSup L] [OrderBot L] (C : Y.Crdt L)

/-- The content of a row that may be missing. -/
def row : Option Bytes → L
  | some state => C.bytes state
  | none => ⊥

/-- A document whose single `Database` extension loaded it holds the row. -/
theorem held_load {fetched : Fetched} {doc : Y.Doc}
    (h : Database.onLoadDocument fetched Y.newDoc = (doc, .ok ())) :
    ∃ row, fetched = .ok row ∧ C.held doc = C.row row := by
  rcases Database.onLoadDocument_ok h with ⟨hf, hdoc⟩ | ⟨state, update, hf, hdec, hok, hdoc⟩
  · exact ⟨none, hf, by rw [hdoc]; exact C.held_new⟩
  · refine ⟨some state, hf, ?_⟩
    rw [hdoc, C.held_apply _ _ hok, C.held_new, bot_sup_eq]
    exact (C.bytes_of_decode hdec).symm

end Yrs.Crdt

/-- What the store bookkeeping of an actor loaded from `row` guarantees in
every state. -/
structure Bookkeeping {L : Type} [SemilatticeSup L] [OrderBot L] (C : Y.Crdt L)
    (row : Option Bytes) (w : World Y) : Prop where
  /-- Nothing unsaved and no store running: the last accepted state is the
  current one. -/
  saved : w.dirty = false → w.storing = false →
    C.row (lastAccepted row w.history) = C.held w.doc
  /-- Byte for byte, if the actor has stored at all. -/
  verbatim : w.dirty = false → w.storing = false →
    ∀ state, (acceptedStates w.history).getLast? = some state → state = Y.encodeState w.doc
  one_task : w.storeTasks.length ≤ 1
  one_attempt : ∀ h, h <+: w.history → (handedStates h).length ≤ (endedStores h).length + 1
  monotone : (handedStates w.history).Pairwise fun a b => C.bytes a ≤ C.bytes b

section Loaded

variable {L : Type} [SemilatticeSup L] [OrderBot L] (C : Y.Crdt L)

/-- The two invariants of every run, `init` standing for the state the actor
was spawned with. -/
theorem Actor.settled_run (hne : ∀ d u, Y.encodeTxn d u ≠ []) {α : Type} {m : Measure Y α}
    (hm : m.Sound) {cfg : Configuration} {name : String} {doc : Y.Doc} {queues : Queues}
    {ls : List Label} {b : Actor Y}
    (hstart : Settled m (Actor.spawn name doc queues).world.view)
    (hrun : Actor.Run cfg (Actor.spawn name doc queues) ls b) :
    Settled m b.world.view ∧ OneAttempt b.world.view := by
  refine Actor.run_invariant (P := fun v => Settled m v ∧ OneAttempt v) ?_ ?_ hrun
    ⟨hstart, OneAttempt.spawn name doc queues⟩
  · rintro v v' hmove ⟨hsettled, hone⟩
    exact ⟨hsettled.move hne hm hmove,
      hone.move hmove hsettled.one_task hsettled.no_task⟩
  · rintro v ⟨hsettled, hone⟩
    exact ⟨hsettled.flush hm, ⟨hone.open_eq, hone.single⟩⟩

theorem Bookkeeping.of_settled {doc : Y.Doc} {row : Option Bytes} {w : World Y}
    (hrow : C.held doc = C.row row) (hsettled : Settled (stateMeasure C (Y.encodeState doc)) w.view)
    (hone : OneAttempt w.view) : Bookkeeping C row w := by
  have hkept : w.dirty = false → w.storing = false →
      (acceptedStates w.history).getLast?.getD (Y.encodeState doc) = Y.encodeState w.doc :=
    hsettled.kept
  have hlast : w.dirty = false → w.storing = false →
      ∀ state, (acceptedStates w.history).getLast? = some state → state = Y.encodeState w.doc := by
    intro hdirty hstoring state hstate
    have heq := hkept hdirty hstoring
    rw [hstate] at heq
    exact heq
  refine ⟨?_, hlast, hsettled.one_task, hone.single, ?_⟩
  · intro hdirty hstoring
    unfold lastAccepted
    cases hstate : (acceptedStates w.history).getLast? with
    | some state =>
      rw [hlast hdirty hstoring state hstate]
      exact C.bytes_state w.doc
    | none =>
      have heq := hkept hdirty hstoring
      rw [hstate] at heq
      rw [Option.none_or, ← hrow, ← C.bytes_state doc, ← C.bytes_state w.doc]
      exact congrArg C.bytes heq
  · obtain ⟨s, hinv, htracks⟩ := hsettled
    have hhanded : s.handed = handedStates w.history := by
      have hall : List.Forall₂ Eq s.handed (handedStates w.history) := htracks.handed
      rwa [List.forall₂_eq_eq_eq] at hall
    exact hhanded ▸ hinv.mono

/-- **Persistence bookkeeping**: whatever an actor whose load succeeded from
its single `Database` extension goes through, it keeps its books right. -/
theorem Actor.persistence_bookkeeping (herr : Y.ErrKeepsDoc) {fetched : Fetched} {doc : Y.Doc}
    (hload : Database.onLoadDocument fetched Y.newDoc = (doc, .ok ())) {cfg : Configuration}
    {name : String} {queues : Queues} {ls : List Label} {b : Actor Y}
    (hrun : Actor.Run cfg (Actor.spawn name (Database.load fetched) queues) ls b) :
    ∃ row, fetched = .ok row ∧ Bookkeeping C row b.world := by
  obtain ⟨row, hfetched, hrow⟩ := C.held_load hload
  rw [Database.load_eq, hload] at hrun
  obtain ⟨hsettled, hone⟩ := Actor.settled_run C.encodeTxn_ne_nil
    (stateMeasure_sound C herr (Y.encodeState doc)) (Settled.spawn
      (stateMeasure_sound C herr _) rfl rfl) hrun
  exact ⟨row, hfetched, Bookkeeping.of_settled C hrow hsettled hone⟩

end Loaded

/-- A client joins a loaded document and edits it; the debounced store runs,
is accepted and reported. -/
def editAndStore : List Label :=
  [.command (.addConnection (OneWriter.conn 1) 0) {},
    .command (.clientFrame 1 (OneWriter.editFrame 1)) { now := 5 },
    .flush [], .deadline { now := 2005 }, .storeTask 0 [.ok ()], .storeResult { now := 2010 }]

theorem Actor.persistence_bookkeeping_edit :
    ∃ (b : Actor OneWriter.yrs) (row : Option Bytes),
      Actor.Run {} (Actor.spawn "doc" (Database.load (.ok (some (OneWriter.edit 0))))
        (OneWriter.queues 8)) editAndStore b ∧
      b.world.dirty = false ∧ b.world.storing = false ∧
      handedStates b.world.history = [OneWriter.encodeUpdate ⟨[0, 1], []⟩] ∧
      Bookkeeping OneWriter.crdt row b.world := by
  have hrun : Actor.Run {} (Actor.spawn "doc" (Database.load (.ok (some (OneWriter.edit 0))))
      (OneWriter.queues 8)) editAndStore _ := OneWriter.run_after (by decide +kernel)
  have hload : Database.onLoadDocument (Y := OneWriter.yrs) (.ok (some (OneWriter.edit 0)))
      OneWriter.yrs.newDoc = (⟨[0], []⟩, .ok ()) := rfl
  obtain ⟨row, _, hbook⟩ := Actor.persistence_bookkeeping OneWriter.crdt OneWriter.errKeepsDoc
    hload hrun
  exact ⟨_, row, hrun, by decide +kernel, by decide +kernel, by decide +kernel, hbook⟩

end Hocuspocus
