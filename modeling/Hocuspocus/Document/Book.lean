import Hocuspocus.Lib.Debounce
import Hocuspocus.Document.Unload

/-!
# The book of an actor

The timers and the stores of an actor depend on a few fields: whether the document
is dirty, since when and until when, whether a store is running, its report. A
`Book` has these and the stores so far. Here is what each handler does to it:
nothing but for a change, which marks it (`Edited`), and a store.
-/

namespace Hocuspocus

variable {Y : Yrs}

/-- What a store in progress shows of itself. -/
def Event.attempt? : Event Y → Option Debounce.Event
  | .snapshot _ => some .begun
  | .stored _ ok => some (.ended ok)
  | _ => none

def World.attempts (w : World Y) : List Debounce.Event := w.trace.filterMap Event.attempt?

/-- The clock of the branch that is taken. -/
def Label.now? : Label → Option Nat
  | .command _ o => some o.now
  | .storeResult o => some o.now
  | .deadline o => some o.now
  | _ => none

/-- What the timers and the stores of a world depend on. -/
structure Book where
  dirty : Bool
  first : Option Nat
  last : Option Nat
  storing : Bool
  tasks : Nat
  results : List Bool
  attempts : List Debounce.Event

def World.book (w : World Y) : Book where
  dirty := w.dirty
  first := w.firstDirtyAt
  last := w.lastChangeAt
  storing := w.storing
  tasks := w.storeTasks.length
  results := w.storeResults
  attempts := w.attempts

namespace Book

def mark (b : Book) (now : Nat) : Book :=
  { b with dirty := true, first := some (b.first.getD now), last := some now }

def note (b : Book) (e : Debounce.Event) : Book := { b with attempts := b.attempts ++ [e] }

def clean (b : Book) : Book := { b with dirty := false, first := none, last := none }

end Book

/-- An attempt is an event about the content. -/
theorem World.attempts_history (w : World Y) :
    w.attempts = w.history.filterMap Event.attempt? := by
  unfold World.attempts World.history
  rw [List.filterMap_filter]
  refine congrArg (fun f => w.trace.filterMap f) (funext fun e => ?_)
  cases e <;> rfl

theorem Quiet.book {w w' : World Y} (h : Quiet w w') : w'.book = w.book := by
  have hattempts : w'.attempts = w.attempts := by
    rw [World.attempts_history, World.attempts_history]
    exact congrArg (fun v : View Y => v.history.filterMap Event.attempt?) h.view
  have hcontent : w'.toContent = w.toContent := congrArg View.content h.view
  unfold World.book
  rw [hattempts, hcontent]

namespace World

/-- An event that is no attempt. -/
theorem emit_book (w : World Y) {e : Event Y} (he : e.attempt? = none) :
    (w.emit e).book = w.book := by
  simp [book, attempts, emit, List.filterMap_append, he]

/-- An attempt. -/
theorem emit_attempt (w : World Y) {e : Event Y} {a : Debounce.Event} (he : e.attempt? = some a) :
    (w.emit e).book = w.book.note a := by
  simp [book, attempts, emit, List.filterMap_append, he, Book.note]

theorem clean_book (w : World Y) : w.clean.book = w.book.clean := rfl

theorem flushBroadcast_book (w : World Y) : w.flushBroadcast.book = w.book := by
  unfold flushBroadcast
  split
  · rfl
  · dsimp only
    split
    · rfl
    · split
      · rfl
      · exact (broadcastWith_quiet _ _).book

theorem spawnStore_book {w : World Y} (hdirty : w.dirty = true) (hstoring : w.storing = false) :
    w.spawnStore.book = Book.note
      { w.book.clean with storing := true, tasks := w.book.tasks + 1 } .begun := by
  unfold spawnStore
  rw [hdirty, hstoring]
  refine (emit_attempt _ rfl).trans ?_
  simp [book, clean, Book.clean, List.length_append, attempts]

theorem finishStore_book {w : World Y} {i : Nat} (results : List HookResult)
    (hi : i < w.storeTasks.length) :
    (w.finishStore i results).book = Book.note
      { w.book with
        tasks := w.book.tasks - 1
        results := w.book.results ++ [(firstError results).isNone] }
      (.ended (firstError results).isNone) := by
  unfold finishStore
  rw [List.getElem?_eq_getElem hi]
  dsimp only
  cases (firstError results).isNone <;>
    simp [book, Book.note, attempts, emit, Event.attempt?, List.length_eraseIdx, hi]

theorem takeResult_book (o : Ambient) (w : World Y) (ok : Bool) (rest : List Bool) :
    (w.takeResult o ok rest).book =
      if ok then { w.book with storing := false, results := rest }
      else Book.mark { w.book with storing := false, results := rest } o.now := by
  cases ok <;> rfl

/-- An inline store; one that is refused leaves the timers. -/
theorem runStore_attempt (results : List HookResult) {w : World Y} (hdirty : w.dirty = true) :
    (w.runStore results).book = Book.note (Book.note
      (if (firstError results).isNone then w.book.clean else w.book) .begun)
      (.ended (firstError results).isNone) := by
  have hnoted : ((w.emit (.snapshot (Y.encodeState w.doc))).emit
      (.stored (Y.encodeState w.doc) (firstError results).isNone)).book
        = (w.book.note .begun).note (.ended (firstError results).isNone) :=
    (emit_attempt _ rfl).trans (congrArg (Book.note · _) (emit_attempt w rfl))
  unfold runStore
  rw [hdirty]
  cases hok : (firstError results).isNone with
  | true =>
    rw [hok] at hnoted
    refine (clean_book _).trans ?_
    rw [hnoted]
    rfl
  | false =>
    rw [hok] at hnoted
    exact hnoted

/-- An inline store that is not refused. -/
theorem runStore_book {results : List HookResult} {w : World Y} (hdirty : w.dirty = true)
    (hok : firstError results = none) :
    (w.runStore results).book = (w.book.clean.note .begun).note (.ended true) := by
  rw [runStore_attempt results hdirty, hok]
  rfl

/-- `maybe_unload` stores what is unsaved, or nothing happens to the book. -/
theorem maybeUnload_book (cfg : Configuration) (o : Ambient) (w : World Y) :
    (w.maybeUnload cfg o).1.book = w.book ∨
      w.dirty = true ∧ w.connections.isEmpty = true ∧ w.storing = false ∧
        cfg.unloadImmediately = true ∧
        (w.maybeUnload cfg o).1.book = (w.runStore o.onStoreUnload).book := by
  rcases w.maybeUnload_cases cfg o with hstay | ⟨hempty, hstoring, himm, heq⟩
  · exact Or.inl (congrArg (fun r => World.book r.1) hstay)
  · have hbook : (w.maybeUnload cfg o).1.book = (w.storeIfDirty o.onStoreUnload).book := by
      rw [heq]
      split
      · exact emit_book _ rfl
      · exact (emit_book _ rfl).trans (emit_book _ rfl)
    unfold storeIfDirty at hbook
    by_cases hdirty : w.dirty = true
    · rw [if_pos hdirty] at hbook
      exact Or.inr ⟨hdirty, hempty, hstoring, himm hdirty, hbook⟩
    · rw [if_neg hdirty] at hbook
      exact Or.inl hbook

end World

/-! ## Changes -/

/-- The book is the same, or has been marked. -/
def Edited (now : Nat) (w w' : World Y) : Prop :=
  w'.book = w.book ∨ w'.book = w.book.mark now

namespace Edited

variable {now : Nat} {w w₁ w₂ : World Y}

theorem refl (w : World Y) : Edited now w w := Or.inl rfl

/-- Nothing happens to the book before. -/
theorem after (h : w₁.book = w.book) (h' : Edited now w₁ w₂) : Edited now w w₂ := by
  unfold Edited at h' ⊢
  rw [← h]
  exact h'

/-- Nothing happens to it afterwards. -/
theorem before (h : Edited now w w₁) (h' : w₂.book = w₁.book) : Edited now w w₂ := by
  unfold Edited
  rw [h']
  exact h

end Edited

theorem Quiet.edited {now : Nat} {w w' : World Y} (h : Quiet w w') : Edited now w w' :=
  Or.inl h.book

namespace World

theorem applyAndBroadcast_edited (o : Ambient) (w : World Y) (update : Bytes) (origin : Origin) :
    Edited o.now w (w.applyAndBroadcast o update origin) := by
  unfold applyAndBroadcast
  dsimp only
  split
  next => exact .refl w
  next u hdec =>
    split
    next => exact Or.inl rfl
    next =>
      have happlied : (World.emit { w with doc := (Y.applyUpdate w.doc u).1 }
          (.applied update origin (Y.applyUpdate w.doc u).1)).book = w.book := emit_book _ rfl
      refine Edited.after happlied ?_
      unfold noteChange
      split
      · exact .refl _
      · exact Edited.before (Or.inr rfl) (emit_book _ rfl)

theorem beforeHandleMessage_book (o : Ambient) (w : World Y) (connId : Nat) (update : Bytes)
    (origin : Origin) : (w.beforeHandleMessage o connId update origin).1.book = w.book := by
  unfold beforeHandleMessage
  dsimp only
  split
  · exact emit_book _ rfl
  · exact (rejectMessage_quiet _ _ _).book.trans (emit_book _ rfl)

theorem handleSync_edited (o : Ambient) (w : World Y) (conn : ConnHandle) (address : String)
    (origin : Origin) (frame : IncomingFrame) :
    Edited o.now w (w.handleSync o conn address origin frame) := by
  -- both update messages take the same way
  have hupdate : ∀ update : Bytes, Edited o.now w
      (if conn.readOnly then w.sendSyncStatus conn.connId address false
        else
          let checked := w.beforeHandleMessage o conn.connId update origin
          if checked.2 then
            (checked.1.applyAndBroadcast o update origin).sendSyncStatus conn.connId address true
          else checked.1) := by
    intro update
    split
    · exact (w.sendSyncStatus_quiet _ _ _).edited
    · have hchecked := beforeHandleMessage_book o w conn.connId update origin
      dsimp only
      split
      · exact (Edited.after hchecked (applyAndBroadcast_edited o _ update origin)).before
          (sendSyncStatus_quiet _ _ _ _).book
      · exact Or.inl hchecked
  unfold handleSync
  split
  next => exact .refl w
  next => exact ((w.sendFrame_quiet _ _).trans (sendFrame_quiet _ _ _)).edited
  next update _ => exact hupdate update
  next update _ => exact hupdate update

theorem handleClientFrame_edited (o : Ambient) (w : World Y) (connId : Nat) (data : Bytes) :
    Edited o.now w (w.handleClientFrame o connId data) := by
  unfold handleClientFrame
  split
  next => exact .refl w
  next conn _ =>
    split
    next => exact .refl w
    next frame _ =>
      dsimp only
      split
      · exact w.handleSync_edited o conn _ _ frame
      · exact w.handleSync_edited o conn _ _ frame
      · exact (w.handleAwareness_quiet frame _).edited
      · exact (w.replyQueryAwareness_quiet _ _).edited
      · exact (w.handleStateless_quiet conn frame).edited
      · exact (w.closeConnection_quiet connId _).edited
      · exact .refl w
      · exact (w.closeConnection_quiet connId _).edited
      all_goals exact .refl w

theorem handleExternalFrame_edited (o : Ambient) (w : World Y) (data : Bytes) (reply : Bool) :
    Edited o.now w (w.handleExternalFrame o data reply) := by
  have hsync : ∀ frame : IncomingFrame,
      Edited o.now w (w.handleExternalSync o frame .redis reply) := by
    intro frame
    unfold handleExternalSync
    split
    · exact .refl w
    · split
      · exact Or.inl (emit_book _ rfl)
      · exact .refl w
    · exact w.applyAndBroadcast_edited o _ _
    · exact w.applyAndBroadcast_edited o _ _
  unfold handleExternalFrame
  split
  next => exact .refl w
  next frame _ =>
    dsimp only
    split
    · exact hsync frame
    · exact hsync frame
    · exact (w.handleAwareness_quiet frame _).edited
    · split
      · split
        · exact Or.inl (emit_book _ rfl)
        · exact .refl w
      · exact .refl w
    · split
      · exact (w.broadcastWith_quiet _).edited
      · exact .refl w
    · exact .refl w

end World

end Hocuspocus
