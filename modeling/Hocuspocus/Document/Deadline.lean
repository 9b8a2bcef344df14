import Hocuspocus.Document.Book
import Hocuspocus.OneWriter

/-!
# The store deadline is armed

`store_deadline` takes the deadline from two instants, when the document became
dirty and when it was changed last; if they disagreed with `dirty`, there would be
no deadline and the change would stay in memory. The fields are set in
`mark_dirty` and cleared in `spawn_store` and `run_store`. `Ticks` is what a step
does to the three together, `Since` what a run has done: the document is dirty since
a step at the first of the two instants, and was not before.
-/

namespace Hocuspocus

variable {Y : Yrs}

/-- The clock does not go back. -/
def ClockMonotone (ls : List Label) : Prop := (ls.filterMap Label.now?).Pairwise (· ≤ ·)

instance (ls : List Label) : Decidable (ClockMonotone ls) :=
  inferInstanceAs (Decidable (List.Pairwise _ _))

/-- The fields the deadline is taken from. -/
structure Timers where
  dirty : Bool
  first : Option Nat
  last : Option Nat

def World.timers (w : World Y) : Timers := ⟨w.dirty, w.firstDirtyAt, w.lastChangeAt⟩

def Book.timers (b : Book) : Timers := ⟨b.dirty, b.first, b.last⟩

namespace Timers

def clean : Timers := ⟨false, none, none⟩

def mark (t : Timers) (now : Nat) : Timers := ⟨true, some (t.first.getD now), some now⟩

/-- They agree. -/
structure Agree (t : Timers) : Prop where
  first : t.dirty = t.first.isSome
  last : t.dirty = t.last.isSome

end Timers

/-- What a step at this instant does to the timers. -/
inductive Ticks (now : Option Nat) : Timers → Timers → Prop
  | same (t : Timers) : Ticks now t t
  | marked (t : Timers) (time : Nat) (hnow : now = some time) : Ticks now t (t.mark time)
  | cleaned (t : Timers) : Ticks now t .clean

/-! ## One step -/

/-- The timers stand in the book. -/
theorem timers_of_book {w w' : World Y} (h : w'.book = w.book) : w'.timers = w.timers :=
  congrArg Book.timers h

theorem timers_of_mark {w w' : World Y} {now : Nat} (h : w'.book = w.book.mark now) :
    w'.timers = w.timers.mark now :=
  congrArg Book.timers h

theorem Edited.ticks {now : Nat} {w w' : World Y} (h : Edited now w w') :
    Ticks (some now) w.timers w'.timers := by
  rcases h with hsame | hmarked
  · rw [timers_of_book hsame]
    exact .same _
  · rw [timers_of_mark hmarked]
    exact .marked _ now rfl

namespace World

/-- The timers are left alone or cleared. -/
def Stored (w w' : World Y) : Prop := w'.timers = w.timers ∨ w'.timers = .clean

theorem Stored.trans {w₁ w₂ w₃ : World Y} (h : Stored w₁ w₂) (h' : Stored w₂ w₃) :
    Stored w₁ w₃ := by
  rcases h' with hsame | hclean
  · unfold Stored
    rw [hsame]
    exact h
  · exact Or.inr hclean

theorem Stored.ticks {now : Option Nat} {w w' : World Y} (h : Stored w w') :
    Ticks now w.timers w'.timers := by
  rcases h with hsame | hclean
  · rw [hsame]
    exact .same _
  · rw [hclean]
    exact .cleaned _

theorem runStore_stored (results : List HookResult) (w : World Y) :
    Stored w (w.runStore results) := by
  by_cases hdirty : w.dirty = true
  · have hbook := runStore_attempt results hdirty
    cases hok : (firstError results).isNone with
    | true =>
      rw [hok] at hbook
      exact Or.inr (congrArg Book.timers hbook)
    | false =>
      rw [hok] at hbook
      exact Or.inl (congrArg Book.timers hbook)
  · refine Or.inl ?_
    unfold runStore
    rw [Bool.not_eq_true] at hdirty
    rw [hdirty]
    rfl

theorem maybeUnload_stored (cfg : Configuration) (o : Ambient) (w : World Y) :
    Stored w (w.maybeUnload cfg o).1 := by
  rcases w.maybeUnload_book cfg o with hsame | ⟨_, _, _, _, hbook⟩
  · exact Or.inl (timers_of_book hsame)
  · unfold Stored
    rw [timers_of_book hbook]
    exact w.runStore_stored o.onStoreUnload

theorem tick_stored (cfg : Configuration) (o : Ambient) {w : World Y} (hdirty : w.dirty = true)
    (hstoring : w.storing = false) : Stored w (w.tick cfg o).1 := by
  unfold tick
  split
  · exact (w.runStore_stored o.onStore).trans (maybeUnload_stored cfg o _)
  · refine Or.inr ?_
    exact congrArg Book.timers
      (spawnStore_book hdirty hstoring)

theorem handleCommand_ticks (cfg : Configuration) (o : Ambient) (w : World Y) (cmd : DocCommand) :
    Ticks (some o.now) w.timers (w.handleCommand cfg o cmd).1.timers := by
  cases cmd with
  | addConnection handle ack =>
    exact ((w.addConnection_quiet o.order handle).trans (emit_quiet _ rfl)).edited.ticks
  | clientFrame connId data => exact (w.handleClientFrame_edited o connId data).ticks
  | removeConnection connId =>
    have hremoved := (w.removeConnection_quiet connId).book
    have hunload := maybeUnload_stored cfg o (w.removeConnection connId)
    unfold Stored at hunload
    rw [timers_of_book hremoved] at hunload
    exact Stored.ticks hunload
  | externalFrame data reply => exact (w.handleExternalFrame_edited o data reply).ticks
  | directApply update ack =>
    exact ((w.applyAndBroadcast_edited o update .local).before (emit_quiet _ rfl).book).ticks

theorem takeResult_ticks (o : Ambient) (w : World Y) (ok : Bool) (rest : List Bool) :
    (w.takeResult o ok rest).timers = w.timers ∨
      (w.takeResult o ok rest).timers = w.timers.mark o.now := by
  cases ok with
  | true => exact Or.inl rfl
  | false => exact Or.inr rfl

end World

/-- **What a step does to the timers.** -/
theorem Actor.step_ticks {cfg : Configuration} {a b : Actor Y} {l : Label}
    (hstep : a.step cfg l = some b) : Ticks l.now? a.world.timers b.world.timers := by
  cases Actor.step_cases hstep with
  | command cmd o n hphase => exact World.handleCommand_ticks cfg o (a.world.withSched o.sched) cmd
  | flush sched phase hphase =>
    rw [timers_of_book (World.flushBroadcast_book (a.world.withSched sched))]
    exact .same _
  | storeResult o ok rest hphase hresults =>
    have hunload := World.maybeUnload_stored cfg o
      ((a.world.withSched o.sched).takeResult o ok rest)
    -- a failed store marks the document, and an unload may store it at once
    rcases hunload with hsame | hclean
    · rw [hsame]
      rcases World.takeResult_ticks o (a.world.withSched o.sched) ok rest with hkept | hmarked
      · rw [hkept]
        exact .same _
      · rw [hmarked]
        exact .marked _ o.now rfl
    · rw [hclean]
      exact .cleaned _
  | deadline o hphase hdirty hstoring =>
    exact (World.tick_stored cfg o (w := a.world.withSched o.sched) hdirty hstoring).ticks
  | mailboxClosed hphase => exact .same _
  | storeTask i results hi =>
    have hbook := World.finishStore_book results hi
    have hsame : (a.world.finishStore i results).timers = a.world.timers :=
      congrArg Book.timers hbook
    rw [hsame]
    exact .same _
  | queues acts => exact .same _

theorem Timers.Agree.step {now : Option Nat} {t t' : Timers} (ht : t.Agree) (h : Ticks now t t') :
    t'.Agree := by
  cases h with
  | same => exact ht
  | marked time hnow => exact ⟨rfl, rfl⟩
  | cleaned => exact ⟨rfl, rfl⟩

/-! ## Runs -/

/-- The document is dirty since a step at that instant, and was not before it. -/
structure Since (cfg : Configuration) (a : Actor Y) (ls : List Label) (first : Nat)
    (before : List Label) (l : Label) (after : List Label) (u v : Actor Y) : Prop where
  run : ls = before ++ l :: after
  reached : Actor.Run cfg a before u
  clean : u.world.dirty = false
  step : u.step cfg l = some v
  now : l.now? = some first
  dirty : v.world.dirty = true
  stays : Lts.Along (Actor.step cfg) (fun _ _ b => b.world.dirty = true) v after

/-- There is such a step. -/
def DirtySince (cfg : Configuration) (a : Actor Y) (ls : List Label) (first : Nat) : Prop :=
  ∃ before l after u v, Since cfg a ls first before l after u v

section Runs

variable {cfg : Configuration} {a u b : Actor Y} {ls : List Label} {l : Label} {first : Nat}

/-- It stays dirty in one more step. -/
theorem DirtySince.snoc (h : DirtySince cfg a ls first) (hrun : Actor.Run cfg a ls u)
    (hstep : u.step cfg l = some b) (hdirty : b.world.dirty = true) :
    DirtySince cfg a (ls ++ [l]) first := by
  obtain ⟨before, k, after, v, w, hs⟩ := h
  refine ⟨before, k, after ++ [l], v, w, ?_, hs.reached, hs.clean, hs.step, hs.now, hs.dirty, ?_⟩
  · rw [hs.run, List.append_assoc]
    rfl
  · have hafter : Lts.exec (Actor.step cfg) w after = some u := by
      unfold Actor.Run at hrun
      rw [hs.run] at hrun
      obtain ⟨v', hv', hrest⟩ := Lts.exec_append.mp hrun
      obtain rfl : v = v' := Option.some.inj (hs.reached.symm.trans hv')
      obtain ⟨w', hw', hend⟩ := Lts.exec_cons.mp hrest
      obtain rfl : w = w' := Option.some.inj (hs.step.symm.trans hw')
      exact hend
    refine (Lts.along_append hafter).mpr ⟨hs.stays, ?_⟩
    exact Lts.along_step hstep hdirty trivial

theorem DirtySince.mem (h : DirtySince cfg a ls first) : first ∈ ls.filterMap Label.now? := by
  obtain ⟨before, k, after, v, w, hs⟩ := h
  refine List.mem_filterMap.mpr ⟨k, ?_, hs.now⟩
  rw [hs.run]
  exact List.mem_append_right _ (List.mem_cons_self ..)

theorem ClockMonotone.of_snoc (h : ClockMonotone (ls ++ [l])) : ClockMonotone ls := by
  unfold ClockMonotone at h ⊢
  rw [List.filterMap_append] at h
  exact (List.pairwise_append.mp h).1

/-- An instant of the run is not later than its last step. -/
theorem ClockMonotone.le_last (h : ClockMonotone (ls ++ [l])) {time now : Nat}
    (htime : time ∈ ls.filterMap Label.now?) (hnow : l.now? = some now) : time ≤ now := by
  unfold ClockMonotone at h
  rw [List.filterMap_append] at h
  refine (List.pairwise_append.mp h).2.2 time htime now ?_
  exact List.mem_filterMap.mpr ⟨l, List.mem_singleton_self l, hnow⟩

/-- **The timers along a run**: they agree, and the first instant is that of the step
the document is dirty since. -/
theorem Actor.timers_run (ha : a.world.timers = .clean) :
    ∀ {ls : List Label} {b : Actor Y}, Actor.Run cfg a ls b →
      b.world.timers.Agree ∧ ∀ first last, b.world.timers.first = some first →
        b.world.timers.last = some last →
        DirtySince cfg a ls first ∧ (ClockMonotone ls → first ≤ last) := by
  intro ls
  induction ls using List.reverseRecOn with
  | nil =>
    intro b hrun
    obtain rfl : a = b := Option.some.inj hrun
    rw [ha]
    exact ⟨⟨rfl, rfl⟩, fun first last hfirst => by cases hfirst⟩
  | append_singleton ls l ih =>
    intro b hrun
    obtain ⟨u, hu, hstep⟩ := Lts.exec_snoc.mp hrun
    obtain ⟨hagree, hsince⟩ := ih hu
    have hticks := Actor.step_ticks hstep
    refine ⟨hagree.step hticks, fun first last hfirst hlast => ?_⟩
    -- the document was dirty before and is so afterwards
    have hgoes : ∀ last', u.world.timers.first = some first → u.world.timers.last = some last' →
        b.world.dirty = true → DirtySince cfg a (ls ++ [l]) first := by
      intro last' hfirst' hlast' hdirty
      exact (hsince first last' hfirst' hlast').1.snoc hu hstep hdirty
    generalize ht' : b.world.timers = t' at hticks hfirst hlast
    have hdirty' : b.world.dirty = t'.dirty := congrArg Timers.dirty ht'
    cases hticks with
    | same =>
      have hdirty : b.world.dirty = true := by
        rw [hdirty', hagree.first, hfirst]
        rfl
      exact ⟨hgoes last hfirst hlast hdirty, fun hclock =>
        (hsince first last hfirst hlast).2 hclock.of_snoc⟩
    | marked time hnow =>
      cases hlast
      -- either the first change since the document was clean, or one more
      cases hold : u.world.timers.first with
      | none =>
        rw [Timers.mark, hold] at hfirst
        cases hfirst
        have hclean : u.world.dirty = false := by
          have h := hagree.first
          rw [hold] at h
          exact h
        exact ⟨⟨ls, l, [], u, b, rfl, hu, hclean, hstep, hnow, hdirty', trivial⟩, fun _ =>
          Nat.le_refl _⟩
      | some old =>
        rw [Timers.mark, hold] at hfirst
        cases hfirst
        obtain ⟨last', hlast'⟩ : ∃ last', u.world.timers.last = some last' := by
          refine Option.isSome_iff_exists.mp ?_
          rw [← hagree.last, hagree.first, hold]
          rfl
        have hstill := hgoes last' hold hlast' hdirty'
        exact ⟨hstill, fun hclock => hclock.le_last (hsince _ last' hold hlast').1.mem hnow⟩
    | cleaned => cases hfirst

/-! ## The deadline -/

theorem World.storeDeadline_eq {w : World Y} (hw : w.timers.Agree) (d : Nat) :
    w.storeDeadline cfg = some d ↔ w.dirty = true ∧ w.storing = false ∧
      ∃ first last, w.firstDirtyAt = some first ∧ w.lastChangeAt = some last ∧
        d = min (last + cfg.debounce) (first + cfg.maxDebounce) := by
  constructor
  · intro hd
    obtain ⟨hdirty, hstoring⟩ := storeDeadline_some hd
    obtain ⟨first, hfirst⟩ : ∃ first, w.firstDirtyAt = some first := by
      exact Option.isSome_iff_exists.mp (hw.first.symm.trans hdirty)
    obtain ⟨last, hlast⟩ : ∃ last, w.lastChangeAt = some last := by
      exact Option.isSome_iff_exists.mp (hw.last.symm.trans hdirty)
    unfold World.storeDeadline at hd
    rw [hdirty, hstoring, hfirst, hlast] at hd
    exact ⟨hdirty, hstoring, first, last, hfirst, hlast, (Option.some.inj hd).symm⟩
  · intro ⟨hdirty, hstoring, first, last, hfirst, hlast, hd⟩
    unfold World.storeDeadline
    rw [hdirty, hstoring, hfirst, hlast, hd]
    rfl

theorem World.storeDeadline_isSome {w : World Y} (hw : w.timers.Agree) :
    (w.storeDeadline cfg).isSome = true ↔ w.dirty = true ∧ w.storing = false := by
  constructor
  · intro hsome
    obtain ⟨d, hd⟩ := Option.isSome_iff_exists.mp hsome
    exact storeDeadline_some hd
  · intro ⟨hdirty, hstoring⟩
    obtain ⟨first, hfirst⟩ := Option.isSome_iff_exists.mp (hw.first.symm.trans hdirty)
    obtain ⟨last, hlast⟩ := Option.isSome_iff_exists.mp (hw.last.symm.trans hdirty)
    rw [(storeDeadline_eq hw _).mpr ⟨hdirty, hstoring, first, last, hfirst, hlast, rfl⟩]
    rfl

/-- A document that stays dirty keeps the first instant, whatever else is changed. -/
theorem Actor.first_stays (ha : a.world.timers.Agree) (hfirst : a.world.firstDirtyAt = some first)
    (hdirty : Lts.Along (Actor.step cfg) (fun _ _ b => b.world.dirty = true) a ls)
    (hrun : Actor.Run cfg a ls b) :
    b.world.timers.Agree ∧ b.world.firstDirtyAt = some first := by
  refine Lts.exec_invariant_along
    (I := fun s => s.world.timers.Agree ∧ s.world.firstDirtyAt = some first)
    (fun s l t hstep hstill hs => ?_) hdirty hrun ⟨ha, hfirst⟩
  have hticks := Actor.step_ticks hstep
  refine ⟨hs.1.step hticks, ?_⟩
  have hold : s.world.timers.first = some first := hs.2
  show t.world.timers.first = some first
  have hdirty' : t.world.timers.dirty = true := hstill
  clear hstill
  generalize t.world.timers = t' at hticks hdirty' ⊢
  cases hticks with
  | same => exact hold
  | marked time hnow =>
    -- a later change finds the first instant set
    rw [Timers.mark, hold]
    rfl
  | cleaned => cases hdirty'

/-- The timers of an actor after a run, and its deadline. -/
structure Armed (cfg : Configuration) (a : Actor Y) (ls : List Label) (b : Actor Y) : Prop where
  first : b.world.dirty = true ↔ b.world.firstDirtyAt.isSome = true
  last : b.world.dirty = true ↔ b.world.lastChangeAt.isSome = true
  ordered : ∀ first last, b.world.firstDirtyAt = some first → b.world.lastChangeAt = some last →
    first ≤ last
  since : ∀ first, b.world.firstDirtyAt = some first → DirtySince cfg a ls first
  armed : (b.world.storeDeadline cfg).isSome = true ↔
    b.world.dirty = true ∧ b.world.storing = false
  deadline : ∀ d, b.world.storeDeadline cfg = some d ↔
    b.world.dirty = true ∧ b.world.storing = false ∧
      ∃ first last, b.world.firstDirtyAt = some first ∧ b.world.lastChangeAt = some last ∧
        d = min (last + cfg.debounce) (first + cfg.maxDebounce)
  bounded : ∀ first ls' c, b.world.firstDirtyAt = some first → Actor.Run cfg b ls' c →
    Lts.Along (Actor.step cfg) (fun _ _ v => v.world.dirty = true) b ls' →
      c.world.firstDirtyAt = some first ∧
        ∀ d, c.world.storeDeadline cfg = some d → d ≤ first + cfg.maxDebounce

end Runs

/-- **The deadline is armed**: a dirty document has one unless it is being stored, and
however long it is edited on, it is not later than `maxDebounce` after the first
change. -/
theorem Actor.deadline_armed {cfg : Configuration} {name : String} {doc : Y.Doc} {queues : Queues}
    {ls : List Label} {b : Actor Y} (hclock : ClockMonotone ls)
    (hrun : Actor.Run cfg (Actor.spawn name doc queues) ls b) :
    Armed cfg (Actor.spawn name doc queues) ls b := by
  obtain ⟨hagree, hsince⟩ := Actor.timers_run rfl hrun
  have hboth : b.world.firstDirtyAt.isSome = b.world.lastChangeAt.isSome :=
    hagree.first.symm.trans hagree.last
  constructor
  case first => exact Bool.eq_iff_iff.mp hagree.first
  case last => exact Bool.eq_iff_iff.mp hagree.last
  case ordered =>
    intro first last hfirst hlast
    exact (hsince first last hfirst hlast).2 hclock
  case since =>
    intro first hfirst
    obtain ⟨last, hlast⟩ : ∃ last, b.world.lastChangeAt = some last := by
      refine Option.isSome_iff_exists.mp ?_
      rw [← hboth, hfirst]
      rfl
    exact (hsince first last hfirst hlast).1
  case armed => exact World.storeDeadline_isSome hagree
  case deadline => exact World.storeDeadline_eq hagree
  case bounded =>
    intro first ls' c hfirst hon hdirty
    obtain ⟨hagree', hstays⟩ := Actor.first_stays hagree hfirst hdirty hon
    refine ⟨hstays, fun d hd => ?_⟩
    obtain ⟨_, _, first', last, hfirst', _, hmin⟩ := (World.storeDeadline_eq hagree' d).mp hd
    obtain rfl : first = first' := Option.some.inj (hstays.symm.trans hfirst')
    rw [hmin]
    exact Nat.min_le_right _ _

/-- A client joins, and changes the document twice. -/
def editedTwice : List Label :=
  [.command (.addConnection (OneWriter.conn 1) 0) {},
    .command (.clientFrame 1 (OneWriter.editFrame 0)) { now := 1 }, .flush [],
    .command (.clientFrame 1 (OneWriter.editFrame 1)) { now := 9500 }, .flush []]

theorem Actor.deadline_armed_twice :
    ∃ b : Actor OneWriter.yrs, Actor.Run {} (OneWriter.start 8) editedTwice b ∧
      b.world.storeDeadline {} = some 10001 ∧ Armed {} (OneWriter.start 8) editedTwice b := by
  have hrun : Actor.Run {} (OneWriter.start 8) editedTwice
      (Lts.reach (Actor.step {}) (OneWriter.start 8) editedTwice) :=
    Lts.exec_reach (by decide +kernel)
  exact ⟨_, hrun, by decide +kernel, Actor.deadline_armed (by decide) hrun⟩

end Hocuspocus
