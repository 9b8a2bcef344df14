import Hocuspocus.Lib.Trace
import Hocuspocus.Document.Unload
import Hocuspocus.Document.Provenance

/-!
# The lifecycle a document goes through (`extension.rs`, `document.rs`)

The record of an actor is not an arbitrary list of entries. `Told` is the protocol
of what the actor does itself, read off the order of its awaits: an update of a
connection is applied right after the hooks were asked about that very update; a
change is announced right after the update that made it; an inline store is over
before anything else happens; `before_unload_document` is asked when no store
runs, and after the removal from the registry nothing follows, no frame either.

A store on a task of its own shows twice in the record, when the actor takes the
snapshot and when the task reports. `Written` puts the two beside `Told`: there is
one such store at a time, what is reported is what was taken, and the report may
come between any two entries of the actor. `Document/Hooks.lean` has the calls the
task makes in between.

The record is also complete: whoever replays the applied updates on the document
that was loaded has the document. `Lives` says that the actor is where its record
leads to; each handler keeps it (`Proceeds`, `Concludes`), and so does every step
(`Actor.Follows.acts`, `Actor.Follows.reports`).
-/

namespace Hocuspocus

variable {Y : Yrs}

/-- How far the actor has got, where that binds what it does next. -/
inductive HookStage
  | resident
  /-- `before_handle_message` was called. -/
  | asked (update : Bytes) (origin : Origin)
  /-- An update is applied, and `on_change` is due. -/
  | changing (computed : Bytes) (origin : Origin)
  /-- An inline store runs. -/
  | saving (state : Bytes)
  /-- `before_unload_document` was called. -/
  | leaving
  | unloaded
  deriving DecidableEq

/-- Nothing is due, and the document is still there. -/
def HookStage.isOpen : HookStage → Bool
  | .resident | .asked .. | .leaving => true
  | .changing .. | .saving _ | .unloaded => false

/-- What is known from the record so far: the document, the state that a task is
storing, and the stage. -/
structure Lifecycle (Y : Yrs) where
  doc : Y.Doc
  store : Option Bytes
  stage : HookStage

namespace Lifecycle

/-- The document is loaded. -/
def loaded (doc : Y.Doc) : Lifecycle Y := ⟨doc, none, .resident⟩

/-- The update of a connection must have been asked about. -/
def Permits (s : Lifecycle Y) (update : Bytes) (origin : Origin) : Prop :=
  ∀ connId, origin = .connection connId → s.stage = .asked update origin

/-- Nobody asks about the updates of peers and of the server itself. -/
theorem permits_redis (s : Lifecycle Y) (update : Bytes) : s.Permits update .redis :=
  fun _ h => by cases h

theorem permits_local (s : Lifecycle Y) (update : Bytes) : s.Permits update .local :=
  fun _ h => by cases h

end Lifecycle

/-- What the actor may do next. Whatever it does beside a store on a task leaves
that store alone. -/
inductive Told : Lifecycle Y → Event Y → Lifecycle Y → Prop
  | asked (s : Lifecycle Y) (update : Bytes) (origin : Origin) (clients : Nat)
    (hopen : s.stage.isOpen = true) :
    Told s (.beforeHandleMessage update origin clients) { s with stage := .asked update origin }
  | absorbed (s : Lifecycle Y) (update : Bytes) (u : Y.Update) (origin : Origin)
    (hopen : s.stage.isOpen = true) (hpermits : s.Permits update origin)
    (hdec : Y.decodeUpdate update = some u) (hok : (Y.applyUpdate s.doc u).2 = true)
    (hempty : Y.encodeTxn s.doc u = []) :
    Told s (.applied update origin (Y.applyUpdate s.doc u).1)
      ⟨(Y.applyUpdate s.doc u).1, s.store, .resident⟩
  | applied (s : Lifecycle Y) (update : Bytes) (u : Y.Update) (origin : Origin)
    (hopen : s.stage.isOpen = true) (hpermits : s.Permits update origin)
    (hdec : Y.decodeUpdate update = some u) (hok : (Y.applyUpdate s.doc u).2 = true)
    (hne : Y.encodeTxn s.doc u ≠ []) :
    Told s (.applied update origin (Y.applyUpdate s.doc u).1)
      ⟨(Y.applyUpdate s.doc u).1, s.store, .changing (Y.encodeTxn s.doc u) origin⟩
  | onChange (doc : Y.Doc) (store : Option Bytes) (computed : Bytes) (origin : Origin)
    (clients : Nat) :
    Told ⟨doc, store, .changing computed origin⟩ (.onChange computed origin clients)
      ⟨doc, store, .resident⟩
  /-- An inline store. -/
  | saving (doc : Y.Doc) (stage : HookStage) (hopen : stage.isOpen = true) :
    Told ⟨doc, none, stage⟩ (.snapshot (Y.encodeState doc))
      ⟨doc, none, .saving (Y.encodeState doc)⟩
  | saved (doc : Y.Doc) (state : Bytes) (ok : Bool) :
    Told ⟨doc, none, .saving state⟩ (.stored state ok) ⟨doc, none, .resident⟩
  | beforeUnload (doc : Y.Doc) (stage : HookStage) (hopen : stage.isOpen = true) :
    Told ⟨doc, none, stage⟩ .beforeUnload ⟨doc, none, .leaving⟩
  | unloaded (doc : Y.Doc) :
    Told ⟨doc, none, .leaving⟩ .unloaded ⟨doc, none, .unloaded⟩
  /-- Frames, presence, connections and answers go on as long as nothing is due. -/
  | other (s : Lifecycle Y) (e : Event Y) (he : e.isContent = false)
    (hopen : s.stage.isOpen = true) :
    Told s e { s with stage := .resident }

/-- What may come next in the record: an entry of the actor, or one of the two that
a store on a task has. -/
inductive Written : Lifecycle Y → Event Y → Lifecycle Y → Prop
  | told {s s' : Lifecycle Y} {e : Event Y} (h : Told s e s') : Written s e s'
  | spawned (doc : Y.Doc) (stage : HookStage) (hopen : stage.isOpen = true) :
    Written ⟨doc, none, stage⟩ (.snapshot (Y.encodeState doc))
      ⟨doc, some (Y.encodeState doc), .resident⟩
  | reported (doc : Y.Doc) (state : Bytes) (stage : HookStage) (ok : Bool) :
    Written ⟨doc, some state, stage⟩ (.stored state ok) ⟨doc, none, stage⟩

/-- The actor leaves the store of a task alone. -/
theorem Told.store_eq {s s' : Lifecycle Y} {e : Event Y} (h : Told s e s') : s'.store = s.store := by
  cases h <;> rfl

/-- What the actor does while a task stores does not depend on it. -/
theorem Told.beside {s s' : Lifecycle Y} {e : Event Y} (h : Told s e s') (hstore : s.store ≠ none)
    (store : Option Bytes) : Told { s with store := store } e { s' with store := store } := by
  cases h with
  | asked s update origin clients hopen => exact .asked _ update origin clients hopen
  | absorbed s update u origin hopen hpermits hdec hok hempty =>
    exact .absorbed { s with store := store } update u origin hopen hpermits hdec hok hempty
  | applied s update u origin hopen hpermits hdec hok hne =>
    exact .applied { s with store := store } update u origin hopen hpermits hdec hok hne
  | onChange doc store' computed origin clients => exact .onChange doc store computed origin clients
  | saving | saved | beforeUnload | unloaded => exact absurd rfl hstore
  | other s e he hopen => exact .other _ e he hopen

theorem written_told {s s' : Lifecycle Y} {es : List (Event Y)} (h : Lts.Traced Told s es s') :
    Lts.Traced Written s es s' := by
  induction h with
  | nil s => exact .nil s
  | cons hnext _ ih => exact .cons (.told hnext) ih

/-- The record of `w'` is that of `w` and entries of the actor that lead from `s` to
`s'`. -/
def Tells (s : Lifecycle Y) (w w' : World Y) (s' : Lifecycle Y) : Prop :=
  ∃ es, w'.trace = w.trace ++ es ∧ Lts.Traced Told s es s'

/-- The actor is where its record says: the document, and at most one store, with
a task of its own or a result that is still to be taken. -/
structure Lives (s : Lifecycle Y) (w : World Y) : Prop where
  doc : w.doc = s.doc
  stage : s.stage.isOpen = true
  store : w.storeTasks = s.store.toList
  attempt : w.storeTasks.length + w.storeResults.length = if w.storing then 1 else 0

/-- From where the record stands before, it goes on to where it stands after. -/
def Proceeds (s : Lifecycle Y) (w w' : World Y) : Prop :=
  ∃ s', Tells s w w' s' ∧ Lives s' w'

namespace Tells

variable {s s₁ s₂ s₃ : Lifecycle Y} {w w₁ w₂ w₃ : World Y}

theorem of_eq (h : w₂.trace = w₁.trace) : Tells s w₁ w₂ s :=
  ⟨[], by rw [h, List.append_nil], .nil s⟩

theorem trans (h : Tells s₁ w₁ w₂ s₂) (h' : Tells s₂ w₂ w₃ s₃) : Tells s₁ w₁ w₃ s₃ := by
  obtain ⟨es, hes, htold⟩ := h
  obtain ⟨fs, hfs, htold'⟩ := h'
  exact ⟨es ++ fs, by rw [hfs, hes, List.append_assoc], htold.append htold'⟩

theorem emit {e : Event Y} (h : Told s₁ e s₂) : Tells s₁ w (w.emit e) s₂ :=
  ⟨[e], rfl, .single h⟩

end Tells

namespace Lives

variable {s : Lifecycle Y} {w w' : World Y}

/-- While a result is due no store runs, and there is no other. -/
theorem no_store (h : Lives s w) (hstoring : w.storing = false) :
    s.store = none ∧ w.storeTasks = [] ∧ w.storeResults = [] := by
  have hattempt := h.attempt
  rw [hstoring, if_neg Bool.false_ne_true] at hattempt
  have htasks : w.storeTasks = [] := List.length_eq_zero_iff.mp (by omega)
  have hresults : w.storeResults = [] := List.length_eq_zero_iff.mp (by omega)
  refine ⟨?_, htasks, hresults⟩
  have hstore := h.store
  rw [htasks] at hstore
  cases hs : s.store with
  | none => rfl
  | some state =>
    rw [hs] at hstore
    cases hstore

theorem one_task (h : Lives s w) : w.storeTasks.length ≤ 1 := by
  have hattempt := h.attempt
  split at hattempt <;> omega

/-- Without a store the lifecycle is its document and its stage. -/
theorem eq_of_none (h : Lives s w) (hstoring : w.storing = false) : s = ⟨w.doc, none, s.stage⟩ := by
  rw [h.doc, ← (h.no_store hstoring).1]

end Lives

/-! ## What tells nothing that binds -/

/-- Entries about clients leave everything but the stage. -/
theorem traced_other {s : Lifecycle Y} : ∀ {es : List (Event Y)},
    (∀ e ∈ es, e.isContent = false) → s.stage.isOpen = true →
    ∃ stage, stage.isOpen = true ∧ Lts.Traced Told s es { s with stage := stage } := by
  intro es
  induction es generalizing s with
  | nil => exact fun _ hopen => ⟨s.stage, hopen, .nil s⟩
  | cons e es ih =>
    intro hes hopen
    obtain ⟨stage, hstage, htraced⟩ := ih (s := { s with stage := .resident })
      (fun e' he' => hes e' (List.mem_cons_of_mem _ he')) rfl
    exact ⟨stage, hstage, .cons (.other s e (hes e List.mem_cons_self) hopen) htraced⟩

/-- The document and the stores are as they were, and so is the history. -/
theorem Lives.still {s : Lifecycle Y} {w w' : World Y} (h : Lives s w)
    (htrace : w.trace <+: w'.trace) (hhistory : w'.history = w.history) (hdoc : w'.doc = w.doc)
    (htasks : w'.storeTasks = w.storeTasks) (hresults : w'.storeResults = w.storeResults)
    (hstoring : w'.storing = w.storing) : Proceeds s w w' := by
  obtain ⟨es, hes⟩ := htrace
  have hquiet : ∀ e ∈ es, e.isContent = false := by
    have hfilter : (w.trace ++ es).filter Event.isContent = w.trace.filter Event.isContent := by
      rw [hes]
      exact hhistory
    rw [List.filter_append, List.append_right_eq_self, List.filter_eq_nil_iff] at hfilter
    exact fun e he => Bool.eq_false_iff.mpr (hfilter e he)
  obtain ⟨stage, hstage, htraced⟩ := traced_other hquiet h.stage
  refine ⟨{ s with stage := stage }, ⟨es, hes.symm, htraced⟩, hdoc.trans h.doc, hstage,
    htasks.trans h.store, ?_⟩
  rw [htasks, hresults, hstoring]
  exact h.attempt

theorem Lives.quiet {s : Lifecycle Y} {w w' : World Y} (h : Lives s w) (hquiet : Quiet w w') :
    Proceeds s w w' := by
  have hcontent : w'.toContent = w.toContent := congrArg View.content hquiet.view
  exact h.still hquiet.trace (congrArg View.history hquiet.view) (congrArg Content.doc hcontent)
    (congrArg Content.storeTasks hcontent) (congrArg Content.storeResults hcontent)
    (congrArg Content.storing hcontent)

/-- A first part, then what follows wherever the log stands by then. -/
theorem Proceeds.trans {s : Lifecycle Y} {w₁ w₂ w₃ : World Y} (h : Proceeds s w₁ w₂)
    (h' : ∀ {s'}, Lives s' w₂ → Proceeds s' w₂ w₃) : Proceeds s w₁ w₃ := by
  obtain ⟨s', htells, hlives⟩ := h
  obtain ⟨s'', htells', hlives'⟩ := h' hlives
  exact ⟨s'', htells.trans htells', hlives'⟩

theorem Proceeds.quiet {s : Lifecycle Y} {w₁ w₂ w₃ : World Y} (h : Proceeds s w₁ w₂)
    (hquiet : Quiet w₂ w₃) : Proceeds s w₁ w₃ := h.trans fun hs => hs.quiet hquiet

/-! ## Updates -/

section Updates

variable (herr : Y.ErrKeepsDoc) {s : Lifecycle Y} {w : World Y}
include herr

/-- An update that was let through is applied and announced, or leaves no
trace. -/
theorem Lives.apply (o : Ambient) (h : Lives s w) {update : Bytes} {origin : Origin}
    (hpermits : s.Permits update origin) :
    Proceeds s w (w.applyAndBroadcast o update origin) := by
  obtain ⟨doc, store, stage⟩ := s
  obtain rfl : w.doc = doc := h.doc
  unfold World.applyAndBroadcast
  dsimp only
  split
  next => exact ⟨_, .of_eq rfl, h⟩
  next u hdec =>
    cases hok : (Y.applyUpdate w.doc u).2 with
    | false => exact ⟨_, .of_eq rfl, herr _ _ hok, h.stage, h.store, h.attempt⟩
    | true =>
      rw [if_neg (by simp)]
      by_cases hcomp : Y.encodeTxn w.doc u = []
      · rw [World.noteChange_empty _ _ _ _ hcomp]
        exact ⟨_, .trans (.of_eq rfl) (.emit (.absorbed _ update u origin h.stage hpermits hdec hok hcomp)),
          rfl, rfl, h.store, h.attempt⟩
      · rw [World.noteChange_cons _ _ _ _ hcomp]
        have happlied : Tells ⟨w.doc, store, stage⟩ w
            (World.emit { w with doc := (Y.applyUpdate w.doc u).1 }
              (.applied update origin (Y.applyUpdate w.doc u).1)) _ :=
          .trans (.of_eq rfl) (.emit (.applied _ update u origin h.stage hpermits hdec hok hcomp))
        exact ⟨_, happlied.trans (.trans (.of_eq rfl) (.emit (.onChange _ _ _ _ _))), rfl, rfl,
          h.store, h.attempt⟩

/-- The update of a writable connection: the hooks are asked, and what they let
through is applied next. -/
theorem Lives.receive (o : Ambient) (h : Lives s w) (connId : Nat) (address : String)
    (update : Bytes) : Proceeds s w (w.receiveUpdate o connId address update) := by
  have hasked : Tells s w (w.emit (.beforeHandleMessage update (.connection connId)
      w.connections.size)) { s with stage := .asked update (.connection connId) } :=
    .emit (.asked s update (.connection connId) _ h.stage)
  have hlives : Lives { s with stage := .asked update (.connection connId) }
      (w.emit (.beforeHandleMessage update (.connection connId) w.connections.size)) :=
    ⟨h.doc, rfl, h.store, h.attempt⟩
  unfold World.receiveUpdate World.beforeHandleMessage
  dsimp only
  cases firstError o.beforeHandleMessage with
  | some e =>
    dsimp only
    rw [if_neg Bool.false_ne_true]
    exact Proceeds.quiet ⟨_, hasked, hlives⟩ (World.rejectMessage_quiet _ _ _)
  | none =>
    dsimp only
    rw [if_pos rfl]
    obtain ⟨s', htells, hlives'⟩ := hlives.apply herr o
      (fun _ _ => rfl : Lifecycle.Permits _ update (.connection connId))
    exact Proceeds.quiet ⟨s', hasked.trans htells, hlives'⟩ (World.sendSyncStatus_quiet _ _ _ _)

end Updates

namespace World

/-- A client's frame is about clients only, or brings the update it carries. -/
theorem handleClientFrame_brings (o : Ambient) (w : World Y) (connId : Nat) (data : Bytes) :
    Quiet w (w.handleClientFrame o connId data) ∨
    ∃ address update, w.handleClientFrame o connId data = w.receiveUpdate o connId address update := by
  have hacts := w.handleClientFrame_acts o connId data
  cases hupdate : carriedUpdate Y data with
  | none => exact Or.inl ⟨handleClientFrame_plain o w connId hupdate, hacts.name, hacts.trace⟩
  | some update =>
    by_cases hreadOnly : ∀ conn, w.connections.get? connId = some conn → conn.readOnly = true
    · exact Or.inl ⟨readOnly_quiet hreadOnly, hacts.name, hacts.trace⟩
    · obtain ⟨conn, hnot⟩ := not_forall.mp hreadOnly
      obtain ⟨hconn, hwrites⟩ := Classical.not_imp.mp hnot
      exact Or.inr ⟨_, update,
        handleClientFrame_update o hconn (Bool.eq_false_iff.mpr hwrites) hupdate⟩

/-- ... and so is a peer's, whose update the hooks are not asked about. -/
theorem handleExternalFrame_brings (o : Ambient) (w : World Y) (data : Bytes) (reply : Bool) :
    Quiet w (w.handleExternalFrame o data reply) ∨
    ∃ update, w.handleExternalFrame o data reply = w.applyAndBroadcast o update .redis := by
  have hsync : ∀ frame, Quiet w (w.handleExternalSync o frame .redis reply) ∨
      ∃ update, w.handleExternalSync o frame .redis reply = w.applyAndBroadcast o update .redis := by
    intro frame
    unfold handleExternalSync
    split
    next => exact Or.inl (Quiet.refl w)
    next =>
      split
      · exact Or.inl (emit_quiet w rfl)
      · exact Or.inl (Quiet.refl w)
    next update _ => exact Or.inr ⟨update, rfl⟩
    next update _ => exact Or.inr ⟨update, rfl⟩
  unfold handleExternalFrame
  split
  next => exact Or.inl (Quiet.refl w)
  next frame _ =>
    dsimp only
    cases frame.messageType with
    | sync | syncReply => exact hsync frame
    | awareness => exact Or.inl (w.handleAwareness_quiet _ _)
    | queryAwareness =>
      dsimp only
      split
      · split
        · exact Or.inl (emit_quiet w rfl)
        · exact Or.inl (Quiet.refl w)
      · exact Or.inl (Quiet.refl w)
    | broadcastStateless =>
      dsimp only
      split
      · exact Or.inl (w.broadcastWith_quiet _)
      · exact Or.inl (Quiet.refl w)
    | auth | stateless | close | syncStatus | ping | pong => exact Or.inl (Quiet.refl w)

end World

/-! ## Stores -/

section Stores

variable {s : Lifecycle Y} {w : World Y}

theorem Lives.runStore (h : Lives s w) (hstoring : w.storing = false) (results : List HookResult) :
    Proceeds s w (w.runStore results) := by
  obtain ⟨hnone, htasks, hresults⟩ := h.no_store hstoring
  have hs := h.eq_of_none hstoring
  have hstage := h.stage
  unfold World.runStore
  split
  next => exact ⟨s, .of_eq rfl, h⟩
  next =>
    rw [hs]
    have hstored : ∀ ok, Tells ⟨w.doc, none, s.stage⟩ w
        ((w.emit (.snapshot (Y.encodeState w.doc))).emit (.stored (Y.encodeState w.doc) ok))
        ⟨w.doc, none, .resident⟩ := fun ok =>
      (Tells.emit (.saving w.doc s.stage hstage)).trans (.emit (.saved _ _ ok))
    have hattempt : w.storeTasks.length + w.storeResults.length = if w.storing then 1 else 0 :=
      h.attempt
    dsimp only
    cases (firstError results).isNone with
    | false => exact ⟨_, hstored false, rfl, rfl, htasks, hattempt⟩
    | true => exact ⟨_, (hstored true).trans (.of_eq rfl), rfl, rfl, htasks, hattempt⟩

/-- A store gets a task of its own, with the document as it is. -/
structure Spawns (s : Lifecycle Y) (w w' : World Y) (s' : Lifecycle Y) : Prop where
  idle : s.store = none
  stage : s.stage.isOpen = true
  trace : w'.trace = w.trace ++ [.snapshot (Y.encodeState s.doc)]
  next : s' = ⟨s.doc, some (Y.encodeState s.doc), .resident⟩

/-- The task reports, and nothing else has happened. -/
structure Reports (s : Lifecycle Y) (state : Bytes) (ok : Bool) (w w' : World Y)
    (s' : Lifecycle Y) : Prop where
  store : s.store = some state
  trace : w'.trace = w.trace ++ [.stored state ok]
  next : s' = ⟨s.doc, none, s.stage⟩

theorem Lives.spawnStore (h : Lives s w) :
    ∃ s', (Tells s w w.spawnStore s' ∨ Spawns s w w.spawnStore s') ∧ Lives s' w.spawnStore := by
  unfold World.spawnStore
  split
  next => exact ⟨s, Or.inl (.of_eq rfl), h⟩
  next hc =>
    have hstoring : w.storing = false := by
      simp only [Bool.or_eq_true, Bool.not_eq_true', not_or, Bool.not_eq_true] at hc
      exact hc.2
    obtain ⟨hnone, htasks, hresults⟩ := h.no_store hstoring
    refine ⟨_, Or.inr ⟨hnone, h.stage, by rw [← h.doc]; rfl, rfl⟩, h.doc, rfl, ?_, ?_⟩
    · show w.storeTasks ++ [_] = _
      rw [htasks, ← h.doc]
      rfl
    · show (w.storeTasks ++ [_]).length + w.storeResults.length = 1
      rw [htasks, hresults]
      rfl

theorem Lives.finishStore (h : Lives s w) {i : Nat} (hi : i < w.storeTasks.length)
    (results : List HookResult) :
    ∃ state, i = 0 ∧ w.storeTasks = [state] ∧
      Reports s state (firstError results).isNone w (w.finishStore i results)
        ⟨s.doc, none, s.stage⟩ ∧
      Lives ⟨s.doc, none, s.stage⟩ (w.finishStore i results) := by
  have hone := h.one_task
  obtain rfl : i = 0 := by omega
  obtain ⟨state, htasks⟩ : ∃ state, w.storeTasks = [state] :=
    List.length_eq_one_iff.mp (by omega)
  have hstore : s.store = some state := by
    have hlist := h.store
    rw [htasks] at hlist
    cases hs : s.store with
    | none =>
      rw [hs] at hlist
      cases hlist
    | some state' =>
      rw [hs] at hlist
      cases hlist
      rfl
  have hattempt := h.attempt
  rw [htasks] at hattempt
  unfold World.finishStore
  rw [htasks]
  refine ⟨state, rfl, rfl, ⟨hstore, rfl, rfl⟩, h.doc, h.stage,
    congrArg (List.eraseIdx · 0) htasks, ?_⟩
  show (w.storeTasks.eraseIdx 0).length + (w.storeResults ++ [(firstError results).isNone]).length
    = if w.storing then 1 else 0
  rw [htasks, ← hattempt, List.length_append]
  exact (Nat.zero_add _).trans (Nat.add_comm _ _)

end Stores

/-- The record of `w'` is that of `w` and entries that lead from `s` to `s'`, those of
a store on a task included. -/
def Writes (s : Lifecycle Y) (w w' : World Y) (s' : Lifecycle Y) : Prop :=
  ∃ es, w'.trace = w.trace ++ es ∧ Lts.Traced Written s es s'

section Writes

variable {s s' : Lifecycle Y} {w w' : World Y}

theorem Tells.writes (h : Tells s w w' s') : Writes s w w' s' := by
  obtain ⟨es, hes, htraced⟩ := h
  exact ⟨es, hes, written_told htraced⟩

theorem Spawns.writes (h : Spawns s w w' s') : Writes s w w' s' := by
  obtain ⟨doc, store, stage⟩ := s
  obtain rfl : store = none := h.idle
  rw [h.next]
  exact ⟨_, h.trace, .single (.spawned doc stage h.stage)⟩

theorem Reports.writes {state : Bytes} {ok : Bool} (h : Reports s state ok w w' s') :
    Writes s w w' s' := by
  obtain ⟨doc, store, stage⟩ := s
  obtain rfl : store = some state := h.store
  rw [h.next]
  exact ⟨_, h.trace, .single (.reported doc state stage ok)⟩

end Writes

/-- Taking a result tells nothing. -/
theorem Lives.takeResult {s : Lifecycle Y} {w : World Y} (h : Lives s w) (o : Ambient) {ok : Bool}
    {rest : List Bool} (hresults : w.storeResults = ok :: rest) :
    Proceeds s w (w.takeResult o ok rest) := by
  have hattempt := h.attempt
  rw [hresults, List.length_cons] at hattempt
  have hnone : w.storeTasks.length + rest.length = 0 := by split at hattempt <;> omega
  unfold World.takeResult
  cases ok <;> exact ⟨s, .of_eq rfl, h.doc, h.stage, h.store, hnone⟩

/-! ## The end -/

/-- The document has left: `after_unload_document` was the last that was told,
and there is neither a client nor a store left that could bring up anything. -/
structure Departed (s : Lifecycle Y) (w : World Y) : Prop where
  doc : w.doc = s.doc
  stage : s.stage = .unloaded
  store : s.store = none
  tasks : w.storeTasks = []
  alone : w.connections.vals = []

/-- The log goes on; if the document leaves, up to where it has left. -/
def Concludes (s : Lifecycle Y) (w : World Y) (r : World Y × Bool) : Prop :=
  ∃ s', Tells s w r.1 s' ∧ if r.2 then Departed s' r.1 else Lives s' r.1

theorem Proceeds.concludes {s : Lifecycle Y} {w : World Y} {r : World Y × Bool}
    (h : Proceeds s w r.1) (hr : r.2 = false) : Concludes s w r := by
  obtain ⟨s', htells, hlives⟩ := h
  exact ⟨s', htells, by rw [hr]; exact hlives⟩

theorem Proceeds.then_concludes {s : Lifecycle Y} {w₁ w₂ : World Y} {r : World Y × Bool}
    (h : Proceeds s w₁ w₂) (h' : ∀ {s'}, Lives s' w₂ → Concludes s' w₂ r) : Concludes s w₁ r := by
  obtain ⟨s', htells, hlives⟩ := h
  obtain ⟨s'', htells', hend⟩ := h' hlives
  exact ⟨s'', htells.trans htells', hend⟩

theorem Lives.maybeUnload {s : Lifecycle Y} {w : World Y} (h : Lives s w) (cfg : Configuration)
    (o : Ambient) : Concludes s w (w.maybeUnload cfg o) := by
  rcases w.maybeUnload_cases cfg o with hstay | ⟨hempty, hstoring, _, heq⟩
  · rw [hstay]
    exact Proceeds.concludes ⟨s, .of_eq rfl, h⟩ rfl
  · have hstored : Proceeds s w (w.storeIfDirty o.onStoreUnload) := by
      unfold World.storeIfDirty
      split
      · exact h.runStore hstoring _
      · exact ⟨s, .of_eq rfl, h⟩
    have hidle : (w.storeIfDirty o.onStoreUnload).storing = false :=
      (World.storeIfDirty_storing _ w).trans hstoring
    have halone : (w.storeIfDirty o.onStoreUnload).connections.vals = [] := by
      have hconns : (w.storeIfDirty o.onStoreUnload).connections = w.connections := by
        unfold World.storeIfDirty
        split
        · exact World.runStore_connections _ w
        · rfl
      rw [hconns]
      exact List.isEmpty_iff.mp hempty
    rw [heq]
    generalize w.storeIfDirty o.onStoreUnload = v at hstored hidle halone
    refine hstored.then_concludes fun {s'} h' => ?_
    obtain ⟨_, htasks, _⟩ := h'.no_store hidle
    rw [h'.eq_of_none hidle]
    have hasked : Tells ⟨v.doc, none, s'.stage⟩ v (v.emit .beforeUnload) ⟨v.doc, none, .leaving⟩ :=
      .emit (.beforeUnload _ _ h'.stage)
    split
    · exact ⟨_, hasked, rfl, rfl, htasks, h'.attempt⟩
    · exact ⟨_, hasked.trans (.emit (.unloaded _)), rfl, rfl, rfl, htasks, halone⟩

/-! ## Steps -/

section Steps

variable (herr : Y.ErrKeepsDoc) {s : Lifecycle Y} {w : World Y}
include herr

theorem Lives.handleCommand (h : Lives s w) (cfg : Configuration) (o : Ambient)
    (cmd : DocCommand) : Concludes s w (w.handleCommand cfg o cmd) := by
  cases cmd with
  | addConnection handle ack =>
    exact Proceeds.concludes
      (h.quiet ((w.addConnection_quiet _ _).trans (World.emit_quiet _ rfl))) rfl
  | clientFrame connId data =>
    refine Proceeds.concludes ?_ rfl
    rcases World.handleClientFrame_brings o w connId data with hquiet | ⟨address, update, heq⟩
    · exact h.quiet hquiet
    · have hreceived := h.receive herr o connId address update
      rw [← heq] at hreceived
      exact hreceived
  | removeConnection connId =>
    exact (h.quiet (w.removeConnection_quiet connId)).then_concludes fun h' => h'.maybeUnload cfg o
  | externalFrame data reply =>
    refine Proceeds.concludes ?_ rfl
    rcases World.handleExternalFrame_brings o w data reply with hquiet | ⟨update, heq⟩
    · exact h.quiet hquiet
    · have happlied := h.apply herr o (s.permits_redis update)
      rw [← heq] at happlied
      exact happlied
  | directApply update ack =>
    have happlied := h.apply herr o (s.permits_local update)
    exact (happlied.quiet (World.emit_quiet _ rfl)).concludes rfl

end Steps

/-- A flush with nobody there sends nothing. -/
theorem World.flushBroadcast_alone {w : World Y} (h : w.connections.vals = []) :
    w.flushBroadcast.trace = w.trace ∧ w.flushBroadcast.connections = w.connections := by
  have hsent : ∀ (v : World Y) (build : String → Bytes), v.connections.vals = [] →
      (v.broadcastWith build).trace = v.trace ∧
        (v.broadcastWith build).connections = v.connections := by
    intro v build hv
    unfold World.broadcastWith
    rw [hv]
    exact ⟨rfl, rfl⟩
  unfold World.flushBroadcast
  split
  · exact ⟨rfl, rfl⟩
  · dsimp only
    split
    · exact ⟨rfl, rfl⟩
    · split
      · exact ⟨rfl, rfl⟩
      · exact hsent _ _ h

/-- Where an actor stands: its loop goes on, or the document has left. -/
def Actor.Stands (a : Actor Y) (s : Lifecycle Y) : Prop :=
  ¬ (a.phase = .exiting ∨ a.phase = .stopped) ∧ Lives s a.world ∨
    (a.phase = .exiting ∨ a.phase = .stopped) ∧ Departed s a.world

theorem Actor.stands_of_concludes {s : Lifecycle Y} {w : World Y} {r : World Y × Bool}
    {stay leave : Phase} (h : Concludes s w r) (hstay : ¬ (stay = .exiting ∨ stay = .stopped))
    (hleave : leave = .exiting ∨ leave = .stopped) :
    ∃ s', Tells s w r.1 s' ∧ (Actor.mk r.1 (Phase.after r.2 stay leave)).Stands s' := by
  obtain ⟨s', htells, hend⟩ := h
  refine ⟨s', htells, ?_⟩
  cases hr : r.2 with
  | true =>
    rw [hr, if_pos rfl] at hend
    exact Or.inr ⟨hleave, hend⟩
  | false =>
    rw [hr, if_neg Bool.false_ne_true] at hend
    exact Or.inl ⟨hstay, hend⟩

/-- What the actor does next keeps to the protocol, and the actor stays where its
record says it is. -/
theorem Lives.acts (herr : Y.ErrKeepsDoc) {cfg : Configuration} {a b : Actor Y} {l : Label}
    {s : Lifecycle Y} (h : Lives s a.world) (hphase : ¬ (a.phase = .exiting ∨ a.phase = .stopped))
    (hopen : l ≠ .mailboxClosed) (htask : ∀ i results, l ≠ .storeTask i results)
    (hstep : a.step cfg l = some b) :
    ∃ s', (Tells s a.world b.world s' ∨ Spawns s a.world b.world s') ∧ b.Stands s' := by
  have hsched : ∀ sched, Lives s (a.world.withSched sched) :=
    fun _ => ⟨h.doc, h.stage, h.store, h.attempt⟩
  have hown : ∀ {b : Actor Y}, (∃ s', Tells s a.world b.world s' ∧ b.Stands s') →
      ∃ s', (Tells s a.world b.world s' ∨ Spawns s a.world b.world s') ∧ b.Stands s' :=
    fun ⟨s', htells, hstands⟩ => ⟨s', Or.inl htells, hstands⟩
  cases Actor.step_cases hstep with
  | command cmd o n hnext =>
    exact hown (Actor.stands_of_concludes ((hsched o.sched).handleCommand herr cfg o cmd) (by simp)
      (Or.inl rfl))
  | flush sched phase hflush =>
    have hflushes := World.flushBroadcast_flushes (a.world.withSched sched)
    have hcontent : (a.world.withSched sched).flushBroadcast.toContent
        = a.world.view.flush.content := congrArg View.content hflushes.view
    obtain ⟨s', htells, hlives⟩ := h.still hflushes.trace (congrArg View.history hflushes.view)
      (congrArg Content.doc hcontent :) (congrArg Content.storeTasks hcontent :)
      (congrArg Content.storeResults hcontent :) (congrArg Content.storing hcontent :)
    refine hown ⟨s', htells, Or.inl ⟨?_, hlives⟩⟩
    rcases hflush with ⟨_, rfl⟩ | ⟨hexiting, _⟩
    · simp
    · exact absurd (Or.inl hexiting) hphase
  | storeResult o ok rest hselect hresults =>
    have htaken := (hsched o.sched).takeResult o hresults
    exact hown (Actor.stands_of_concludes (htaken.then_concludes fun h' => h'.maybeUnload cfg o)
      (by simp) (Or.inr rfl))
  | deadline o hselect hdirty hstoring =>
    have hinline := ((hsched o.sched).runStore hstoring o.onStore).then_concludes
      fun h' => h'.maybeUnload cfg o
    unfold World.tick
    split
    · exact hown (Actor.stands_of_concludes hinline (by simp) (Or.inr rfl))
    · obtain ⟨s', hspawned, hlives⟩ := (hsched o.sched).spawnStore
      refine ⟨s', hspawned.imp_right fun hs => ⟨hs.idle, hs.stage, hs.trace, hs.next⟩, Or.inl ⟨?_, hlives⟩⟩
      simp [Phase.after]
  | mailboxClosed hselect => exact absurd rfl hopen
  | storeTask i results hi => exact absurd rfl (htask i results)
  | queues acts => exact hown ⟨s, .of_eq rfl, Or.inl ⟨hphase, h.doc, h.stage, h.store, h.attempt⟩⟩

/-- A task reports to an actor whatever its phase. -/
theorem Lives.reports {cfg : Configuration} {a b : Actor Y} {i : Nat} {results : List HookResult}
    {s : Lifecycle Y} (h : Lives s a.world) (hstep : a.step cfg (.storeTask i results) = some b) :
    ∃ state, i = 0 ∧ a.world.storeTasks = [state] ∧
      Reports s state (firstError results).isNone a.world b.world ⟨s.doc, none, s.stage⟩ ∧
      Lives ⟨s.doc, none, s.stage⟩ b.world ∧ b.phase = a.phase := by
  cases Actor.step_cases hstep with
  | storeTask i results hi =>
    obtain ⟨state, hzero, htasks, hreports, hlives⟩ := h.finishStore hi results
    exact ⟨state, hzero, htasks, hreports, hlives, rfl⟩

/-- **The step lemma for the record**: whatever the step, it writes what may come
next. -/
theorem Lives.step (herr : Y.ErrKeepsDoc) {cfg : Configuration} {a b : Actor Y} {l : Label}
    {s : Lifecycle Y} (h : Lives s a.world) (hphase : ¬ (a.phase = .exiting ∨ a.phase = .stopped))
    (hopen : l ≠ .mailboxClosed) (hstep : a.step cfg l = some b) :
    ∃ s', Writes s a.world b.world s' ∧ b.Stands s' := by
  by_cases htask : ∃ i results, l = .storeTask i results
  · obtain ⟨i, results, rfl⟩ := htask
    obtain ⟨state, _, _, hreports, hlives, hsame⟩ := h.reports hstep
    exact ⟨_, hreports.writes, Or.inl ⟨by rw [hsame]; exact hphase, hlives⟩⟩
  · obtain ⟨s', hacts, hstands⟩ :=
      h.acts herr hphase hopen (fun i results he => htask ⟨i, results, he⟩) hstep
    exact ⟨s', hacts.elim Tells.writes Spawns.writes, hstands⟩

/-- A departed actor adds nothing to its record. -/
theorem Departed.step {cfg : Configuration} {a b : Actor Y} {l : Label} {s : Lifecycle Y}
    (h : Departed s a.world) (hphase : a.phase = .exiting ∨ a.phase = .stopped)
    (hstep : a.step cfg l = some b) :
    b.world.trace = a.world.trace ∧ (b.phase = .exiting ∨ b.phase = .stopped) ∧
      Departed s b.world := by
  have hselect : a.phase ≠ .select := by
    rintro hselect
    rcases hphase with h | h <;> rw [h] at hselect <;> cases hselect
  cases Actor.step_cases hstep with
  | command cmd o n hnext => rcases hphase with h | h <;> rw [h] at hnext <;> cases hnext
  | flush sched phase hflush =>
    obtain ⟨htrace, hconns⟩ :=
      World.flushBroadcast_alone (w := a.world.withSched sched) h.alone
    have hcontent : (a.world.withSched sched).flushBroadcast.toContent = a.world.view.flush.content :=
      congrArg View.content (World.flushBroadcast_flushes (a.world.withSched sched)).view
    have hstopped : phase = .stopped := by
      rcases hflush with ⟨⟨n, hn⟩, _⟩ | ⟨_, hstopped⟩
      · rcases hphase with h | h <;> rw [h] at hn <;> cases hn
      · exact hstopped
    refine ⟨htrace, Or.inr hstopped, ?_, h.stage, h.store, ?_, hconns ▸ h.alone⟩
    · exact (congrArg Content.doc hcontent).trans h.doc
    · exact (congrArg Content.storeTasks hcontent).trans h.tasks
  | storeResult o ok rest hopen hresults => exact absurd hopen hselect
  | deadline o hopen hdirty hstoring => exact absurd hopen hselect
  | mailboxClosed hopen => exact absurd hopen hselect
  | storeTask i results hi =>
    rw [h.tasks] at hi
    cases hi
  | queues acts => exact ⟨rfl, hphase, h.doc, h.stage, h.store, h.tasks, h.alone⟩

/-! ## Every actor -/

/-- An actor stands somewhere, or has stopped without leaving. -/
def Actor.Follows (a : Actor Y) (s : Lifecycle Y) : Prop :=
  a.Stands s ∨ Lives s a.world ∧ a.phase = .stopped

/-- **The step lemma for the actor**: it goes on as the protocol says, or gives a
store a task of its own. -/
theorem Actor.Follows.acts (herr : Y.ErrKeepsDoc) {cfg : Configuration} {a b : Actor Y} {l : Label}
    {s : Lifecycle Y} (h : a.Follows s) (htask : ∀ i results, l ≠ .storeTask i results)
    (hstep : a.step cfg l = some b) :
    ∃ s', (Tells s a.world b.world s' ∨ Spawns s a.world b.world s') ∧ b.Follows s' := by
  rcases h with (⟨hphase, h⟩ | ⟨hphase, h⟩) | ⟨h, hphase⟩
  · by_cases hclosed : l = .mailboxClosed
    · subst hclosed
      cases Actor.step_cases hstep with
      | mailboxClosed hselect => exact ⟨s, Or.inl (.of_eq rfl), Or.inr ⟨h, rfl⟩⟩
    · obtain ⟨s', htells, hstands⟩ := h.acts herr hphase hclosed htask hstep
      exact ⟨s', htells, Or.inl hstands⟩
  · obtain ⟨htrace, hdeparted⟩ := h.step hphase hstep
    exact ⟨s, Or.inl (.of_eq htrace), Or.inl (Or.inr hdeparted)⟩
  · -- nobody has a sender any more, and the loop is over
    have hselect : a.phase ≠ .select := by
      rw [hphase]
      exact Phase.noConfusion
    cases Actor.step_cases hstep with
    | command cmd o n hnext =>
      rw [hphase] at hnext
      cases hnext
    | flush sched phase hflush =>
      rcases hflush with ⟨⟨n, hn⟩, _⟩ | ⟨hn, _⟩ <;> rw [hphase] at hn <;> cases hn
    | storeResult o ok rest hopen hresults => exact absurd hopen hselect
    | deadline o hopen hdirty hstoring => exact absurd hopen hselect
    | mailboxClosed hopen => exact absurd hopen hselect
    | storeTask i results hi => exact absurd rfl (htask i results)
    | queues acts =>
      exact ⟨s, Or.inl (.of_eq rfl), Or.inr ⟨⟨h.doc, h.stage, h.store, h.attempt⟩, hphase⟩⟩

/-- **The step lemma for its store task**. -/
theorem Actor.Follows.reports {cfg : Configuration} {a b : Actor Y} {i : Nat}
    {results : List HookResult} {s : Lifecycle Y} (h : a.Follows s)
    (hstep : a.step cfg (.storeTask i results) = some b) :
    ∃ state, i = 0 ∧ a.world.storeTasks = [state] ∧
      Reports s state (firstError results).isNone a.world b.world ⟨s.doc, none, s.stage⟩ ∧
      b.Follows ⟨s.doc, none, s.stage⟩ := by
  rcases h with (⟨hphase, h⟩ | ⟨hphase, h⟩) | ⟨h, hphase⟩
  · obtain ⟨state, hzero, htasks, hreports, hlives, hsame⟩ := h.reports hstep
    exact ⟨state, hzero, htasks, hreports, Or.inl (Or.inl ⟨by rw [hsame]; exact hphase, hlives⟩)⟩
  · cases Actor.step_cases hstep with
    | storeTask i results hi =>
      rw [h.tasks] at hi
      cases hi
  · obtain ⟨state, hzero, htasks, hreports, hlives, hsame⟩ := h.reports hstep
    exact ⟨state, hzero, htasks, hreports, Or.inr ⟨hlives, hsame.trans hphase⟩⟩

theorem Actor.spawn_follows (name : String) (doc : Y.Doc) (queues : Queues) :
    (Actor.spawn name doc queues).Follows (.loaded doc) :=
  Or.inl (Or.inl ⟨by simp [Actor.spawn], rfl, rfl, rfl, rfl⟩)

end Hocuspocus
