import Hocuspocus.Document.Unload

/-!
# What an actor stores contains what was stored before it

A store replaces the row of a name whole. `Ahead` says of an actor that its
document, and a snapshot that is on its way to the storage, contain every row
stored under its name so far: what is accepted next then contains them too
(`Ahead.step`). A document that has been loaded from the last row is ahead of
all of them, as long as the rows grow.
-/

namespace Hocuspocus

variable {Y : Yrs}

section Growth

variable {L : Type} [SemilatticeSup L] [OrderBot L] (C : Y.Crdt L)

/-- A row contains those before it. -/
def Growing (rows : List Bytes) : Prop := rows.Pairwise fun a b => C.bytes a ≤ C.bytes b

/-- The content is all that the rows contain, or more. -/
def Covers (c : L) (rows : List Bytes) : Prop := ∀ row ∈ rows, C.bytes row ≤ c

variable {C}

theorem Covers.mono {c c' : L} {rows : List Bytes} (h : Covers C c rows) (hle : c ≤ c') :
    Covers C c' rows := fun row hrow => (h row hrow).trans hle

/-- The last row contains all rows. -/
theorem Growing.covers {rows : List Bytes} (h : Growing C rows) {state : Bytes}
    (hlast : rows.getLast? = some state) : Covers C (C.bytes state) rows := by
  intro row hrow
  obtain ⟨before, rfl⟩ := List.getLast?_eq_some_iff.mp hlast
  rcases List.mem_append.mp hrow with hrow | hrow
  · exact (List.pairwise_append.mp h).2.2 row hrow state (List.mem_singleton_self state)
  · rw [List.mem_singleton.mp hrow]

theorem Growing.snoc {rows : List Bytes} {state : Bytes} (h : Growing C rows)
    (hcovers : Covers C (C.bytes state) rows) : Growing C (rows ++ [state]) :=
  WriteBehind.pairwise_snoc h hcovers

theorem Covers.snoc {c : L} {rows : List Bytes} {state : Bytes} (h : Covers C c rows)
    (hstate : C.bytes state ≤ c) : Covers C c (rows ++ [state]) := by
  intro row hrow
  rcases List.mem_append.mp hrow with hrow | hrow
  · exact h row hrow
  · rw [List.mem_singleton.mp hrow]
    exact hstate

variable (C)

/-- The rows of its name grow, and are contained in what the actor holds and in
what it is storing. -/
structure Ahead (rows : List Bytes) (v : View Y) : Prop where
  settled : Settled (updateMeasure C) v
  growing : Growing C rows
  held : Covers C (C.held v.content.doc) rows
  tasks : ∀ state ∈ v.content.storeTasks,
    C.bytes state ≤ C.held v.content.doc ∧ Covers C (C.bytes state) rows

variable {C} {rows : List Bytes} {v v' : View Y}

/-- A document that contains the rows, when its actor is spawned. -/
theorem Ahead.spawn {name : String} {doc : Y.Doc} {queues : Queues} (hgrowing : Growing C rows)
    (hdoc : Covers C (C.held doc) rows) :
    Ahead C rows (Actor.spawn name doc queues).world.view where
  settled := Settled.spawn (updateMeasure_sound C) nofun nofun
  growing := hgrowing
  held := hdoc
  tasks := nofun

/-- Nothing is accepted, and no task ends or begins. -/
theorem Ahead.quiet (hmove : Move v v') (h : Ahead C rows v)
    (htasks : v'.content.storeTasks = v.content.storeTasks) : Ahead C rows v' := by
  have hgrows := hmove.held_le C
  refine ⟨h.settled.move C.encodeTxn_ne_nil (updateMeasure_sound C) hmove, h.growing,
    h.held.mono hgrows, fun state hstate => ?_⟩
  obtain ⟨hheld, hcovers⟩ := h.tasks state (htasks ▸ hstate)
  exact ⟨hheld.trans hgrows, hcovers⟩

/-- A state that contains the rows is accepted, and no task is left. -/
theorem Ahead.accept (hmove : Move v v') (h : Ahead C rows v) {state : Bytes}
    (hheld : C.bytes state ≤ C.held v.content.doc) (hcovers : Covers C (C.bytes state) rows)
    (htasks : v'.content.storeTasks = []) : Ahead C (rows ++ [state]) v' := by
  have hgrows := hmove.held_le C
  refine ⟨h.settled.move C.encodeTxn_ne_nil (updateMeasure_sound C) hmove, h.growing.snoc hcovers,
    (h.held.mono hgrows).snoc (hheld.trans hgrows), fun other hother => ?_⟩
  rw [htasks] at hother
  cases hother

/-- **The step lemma**: the states a move has accepted are further rows. -/
theorem Ahead.move (hmove : Move v v') (h : Ahead C rows v) :
    ∃ new, acceptedStates v'.history = acceptedStates v.history ++ new ∧
      Ahead C (rows ++ new) v' := by
  have hsame : acceptedStates v'.history = acceptedStates v.history →
      v'.content.storeTasks = v.content.storeTasks →
      ∃ new, acceptedStates v'.history = acceptedStates v.history ++ new ∧
        Ahead C (rows ++ new) v' := by
    intro haccepted htasks
    refine ⟨[], by rw [haccepted, List.append_nil], ?_⟩
    rw [List.append_nil]
    exact h.quiet hmove htasks
  have hmove' := hmove
  cases hmove with
  | checked | failed | absorbed | changed | unloading | unloaded =>
    exact hsame (by simp [acceptedStates]) rfl
  | reported ok => cases ok <;> exact hsame rfl rfl
  | spawned hdirty hstoring =>
    refine ⟨[], by simp [acceptedStates], ?_⟩
    rw [List.append_nil]
    refine ⟨h.settled.move C.encodeTxn_ne_nil (updateMeasure_sound C) hmove', h.growing, h.held,
      fun state hstate => ?_⟩
    -- a new task has the document as it is now
    rcases List.mem_append.mp hstate with hstate | hstate
    · exact h.tasks state hstate
    · rw [List.mem_singleton.mp hstate, C.bytes_state]
      exact ⟨le_rfl, h.held⟩
  | finished i state ok htask =>
    obtain ⟨hlt, hstate⟩ := List.getElem?_eq_some_iff.mp htask
    obtain ⟨hheld, hcovers⟩ := h.tasks state (hstate ▸ List.getElem_mem hlt)
    -- it was the only task
    have hnone : v.content.storeTasks.eraseIdx i = [] := by
      have hone := h.settled.one_task
      have hlength := List.length_eraseIdx_of_lt hlt
      exact List.length_eq_zero_iff.mp (by omega)
    cases ok with
    | true =>
      exact ⟨[state], by simp [acceptedStates], h.accept hmove' hheld hcovers hnone⟩
    | false =>
      refine ⟨[], by simp [acceptedStates], ?_⟩
      rw [List.append_nil]
      refine ⟨h.settled.move C.encodeTxn_ne_nil (updateMeasure_sound C) hmove', h.growing, h.held,
        fun other hother => ?_⟩
      have hother' : other ∈ v.content.storeTasks.eraseIdx i := hother
      rw [hnone] at hother'
      cases hother'
  | stored ok hdirty hstoring =>
    have hnone := h.settled.no_task hstoring
    cases ok with
    | true =>
      have hbytes := C.bytes_state v.content.doc
      exact ⟨[Y.encodeState v.content.doc], by simp [acceptedStates],
        h.accept hmove' hbytes.le (hbytes ▸ h.held) hnone⟩
    | false => exact hsame (by simp [acceptedStates]) rfl

theorem Ahead.flush (h : Ahead C rows v) : Ahead C rows v.flush :=
  ⟨h.settled.flush (updateMeasure_sound C), h.growing, h.held, h.tasks⟩

end Growth

/-! ## What a step has accepted -/

/-- The states accepted in a step from `a` to `b`. -/
def Actor.accepted (a b : Actor Y) : List Bytes :=
  acceptedStates (b.world.trace.drop a.world.trace.length)

@[simp] theorem Actor.accepted_self (a : Actor Y) : a.accepted a = [] := by
  rw [Actor.accepted, List.drop_length]
  rfl

theorem acceptedStates_filter (h : List (Event Y)) :
    acceptedStates (h.filter Event.isContent) = acceptedStates h := by
  unfold acceptedStates
  rw [List.filterMap_filter]
  refine List.filterMap_congr fun e _ => ?_
  cases e <;> rfl

theorem Actor.accepted_eq {cfg : Configuration} {a b : Actor Y} {l : Label}
    (hstep : a.step cfg l = some b) :
    acceptedStates b.world.history = acceptedStates a.world.history ++ a.accepted b := by
  obtain ⟨more, hmore⟩ := Actor.step_trace hstep
  rw [World.history, World.history, acceptedStates_filter, acceptedStates_filter, accepted, ← hmore,
    List.drop_left, acceptedStates_append]

/-- **What an actor stores contains the rows before it.** -/
theorem Ahead.step {L : Type} [SemilatticeSup L] [OrderBot L] {C : Y.Crdt L} {rows : List Bytes}
    {cfg : Configuration} {a b : Actor Y} {l : Label} (hstep : a.step cfg l = some b)
    (h : Ahead C rows a.world.view) : Ahead C (rows ++ a.accepted b) b.world.view := by
  let P : View Y → Prop := fun v => ∃ new,
    acceptedStates v.history = acceptedStates a.world.history ++ new ∧ Ahead C (rows ++ new) v
  have hend : P b.world.view := by
    refine Actor.step_preserve ?_ ?_ hstep ?_
    · rintro v v' hmove ⟨new, haccepted, hahead⟩
      obtain ⟨more, hmore, hahead'⟩ := hahead.move hmove
      refine ⟨new ++ more, ?_, ?_⟩
      · rw [hmore, haccepted, List.append_assoc]
      · rw [← List.append_assoc]
        exact hahead'
    · rintro v ⟨new, haccepted, hahead⟩
      exact ⟨new, haccepted, hahead.flush⟩
    · refine ⟨[], (List.append_nil _).symm, ?_⟩
      rw [List.append_nil]
      exact h
  obtain ⟨new, haccepted, hahead⟩ := hend
  have hnew : a.accepted b = new :=
    List.append_cancel_left ((Actor.accepted_eq hstep).symm.trans haccepted)
  rw [hnew]
  exact hahead

/-! ## Whose states they are -/

/-- The snapshots on their way and the states accepted after the `old` ones. -/
def Snapshots (P : Bytes → Prop) (old : List Bytes) (v : View Y) : Prop :=
  (∀ state ∈ v.content.storeTasks, P state) ∧
    ∃ new, acceptedStates v.history = old ++ new ∧ ∀ state ∈ new, P state

/-- A new one is the encoding of the document. -/
theorem Snapshots.move {P : Bytes → Prop} {old : List Bytes} {v v' : View Y}
    (hencoded : P (Y.encodeState v.content.doc)) (hmove : Move v v') (h : Snapshots P old v) :
    Snapshots P old v' := by
  obtain ⟨htasks, new, hnew, haccepted⟩ := h
  have hsame : ∀ {states : List Bytes}, states = acceptedStates v.history →
      ∃ new, states = old ++ new ∧ ∀ state ∈ new, P state :=
    fun heq => ⟨new, heq.trans hnew, haccepted⟩
  have hsnoc : ∀ {states : List Bytes} {state : Bytes}, P state →
      states = acceptedStates v.history ++ [state] →
      ∃ new, states = old ++ new ∧ ∀ state ∈ new, P state := by
    rintro states state hstate rfl
    refine ⟨new ++ [state], by rw [hnew, List.append_assoc], fun s hs => ?_⟩
    rcases List.mem_append.mp hs with hs | hs
    · exact haccepted s hs
    · exact List.mem_singleton.mp hs ▸ hstate
  cases hmove with
  | checked | failed | absorbed | changed | unloading | unloaded =>
    exact ⟨htasks, hsame (by simp [acceptedStates])⟩
  | reported ok => cases ok <;> exact ⟨htasks, hsame rfl⟩
  | spawned hdirty hstoring =>
    refine ⟨fun state hstate => ?_, hsame (by simp [acceptedStates])⟩
    rcases List.mem_append.mp hstate with hstate | hstate
    · exact htasks state hstate
    · rw [List.mem_singleton.mp hstate]
      exact hencoded
  | finished i state ok htask =>
    have hstate := htasks state (List.mem_of_getElem? htask)
    refine ⟨fun other hother => htasks other (List.mem_of_mem_eraseIdx hother), ?_⟩
    cases ok with
    | true => exact hsnoc hstate (by simp [acceptedStates])
    | false => exact hsame (by simp [acceptedStates])
  | stored ok hdirty hstoring =>
    cases ok with
    | true => exact ⟨htasks, hsnoc hencoded (by simp [acceptedStates])⟩
    | false => exact ⟨htasks, hsame (by simp [acceptedStates])⟩

/-- What is on its way to the storage, and what has got there, are encodings. -/
theorem Actor.snapshots_step {P : Bytes → Prop} (hencoded : ∀ d, P (Y.encodeState d))
    {cfg : Configuration} {a b : Actor Y} {l : Label} (hstep : a.step cfg l = some b)
    (htasks : ∀ state ∈ a.world.storeTasks, P state) :
    (∀ state ∈ b.world.storeTasks, P state) ∧ ∀ state ∈ a.accepted b, P state := by
  have hend : Snapshots P (acceptedStates a.world.history) b.world.view := by
    refine Actor.step_preserve (P := Snapshots P (acceptedStates a.world.history))
      (fun v _ hmove => Snapshots.move (hencoded v.content.doc) hmove) (fun _ h => h) hstep ?_
    exact ⟨htasks, [], (List.append_nil _).symm, fun state hstate => by cases hstate⟩
  obtain ⟨hstoring, new, hnew, haccepted⟩ := hend
  have heq : a.accepted b = new :=
    List.append_cancel_left ((Actor.accepted_eq hstep).symm.trans hnew)
  exact ⟨hstoring, heq ▸ haccepted⟩

end Hocuspocus
