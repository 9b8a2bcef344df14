import Hocuspocus.Document.Book
import Hocuspocus.OneWriter

/-!
# Retrying a failed store

A store that fails leaves the document dirty, so that the deadline has it made
again. When that is depends on where the failure is noticed: the result of a
store task re-arms the timers (`takeResult`), while `run_store` leaves them as
they were, in the past. And `maybe_unload` stores without looking at them.

`Timed` runs an actor along a clock and logs when its stores begin and end. All
that the timers depend on is the `Book` of a world, and the books of a run are
those of the debounced saves of `Lib/Debounce.lean` as long as the run is
`Patient`.
-/

namespace Hocuspocus

variable {Y : Yrs}

/-! ## The log of a run -/

/-- An actor at a time, and the log of its stores. -/
structure Timed (Y : Yrs) where
  now : Nat
  actor : Actor Y
  log : List (Nat × Debounce.Event)

namespace Timed

def spawn (now : Nat) (name : String) (doc : Y.Doc) (queues : Queues) : Timed Y :=
  ⟨now, .spawn name doc queues, []⟩

/-- A step of the actor, at a time. -/
def step (cfg : Configuration) (s : Timed Y) (l : Nat × Label) : Option (Timed Y) :=
  if s.now ≤ l.1 ∧ l.2.now?.getD l.1 = l.1 then
    (s.actor.step cfg l.2).map fun b =>
      ⟨l.1, b, s.log ++
        (b.world.attempts.drop s.actor.world.attempts.length).map fun e => (l.1, e)⟩
  else none

end Timed

def Configuration.limits (cfg : Configuration) : Debounce.Limits := ⟨cfg.debounce, cfg.maxDebounce⟩

/-- A step that leaves every failed store its debounce: the deadline's own store is
not refused; an unload that stores does so long enough after every failure, and is
not refused either; and when a store task reports a failure, what was edited
meanwhile may wait for long enough. -/
structure Timed.Patient (cfg : Configuration) (s : Timed Y) (l : Nat × Label) : Prop where
  inline : ∀ o, l.2 = .deadline o → s.actor.world.connections.isEmpty = true →
    firstError o.onStore = none
  unload : ∀ o w, s.actor.unloadCall l.2 = some (o, w) → cfg.unloadImmediately = true →
    w.dirty = true → w.connections.isEmpty = true → w.storing = false →
    firstError o.onStoreUnload = none ∧
      ∀ t, (t, .ended false) ∈ s.log → t + cfg.limits.gap ≤ l.1
  report : ∀ o rest first, l.2 = .storeResult o → s.actor.world.storeResults = false :: rest →
    s.actor.world.firstDirtyAt = some first →
    ∀ t, (t, .ended false) ∈ s.log → t + cfg.limits.gap ≤ first + cfg.maxDebounce

/-! ## Books -/

/-- The book of debounced saves. -/
def Book.of (d : Debounce.State) : Book where
  dirty := d.marks.isSome
  first := d.marks.map Prod.fst
  last := d.marks.map Prod.snd
  storing := d.job.isSome
  tasks := if d.job = some none then 1 else 0
  results := d.job.join.toList
  attempts := d.log.map Prod.snd

namespace Book

theorem of_mark (d : Debounce.State) : Book.of d.mark = (Book.of d).mark d.now := by
  cases h : d.marks <;> simp [Book.of, mark, Debounce.State.mark, h]

theorem of_note (d : Debounce.State) (e : Debounce.Event) :
    Book.of (d.note e) = (Book.of d).note e := by
  have hlog : (d.note e).log.map Prod.snd = d.log.map Prod.snd ++ [e] := List.map_append
  unfold Book.of note
  rw [hlog]
  rfl

end Book

/-! ## The book goes on as debounced saves -/

section Debounced

variable {c : Debounce.Limits} {now : Nat}

/-- What follows `d` at once has the book of `w`. -/
def Onward (c : Debounce.Limits) (d : Debounce.State) (w : World Y) : Prop :=
  ∃ d', Debounce.During c d d' ∧ w.book = Book.of d'

/-- Debounced saves can go along from `w` to `w'`. -/
def Debounces (c : Debounce.Limits) (now : Nat) (w w' : World Y) : Prop :=
  ∀ d : Debounce.State, d.now = now → w.book = Book.of d → Onward c d w'

/-- A change is a step of debounced saves. -/
theorem Edited.debounces {w w' : World Y} (h : Edited now w w') : Debounces c now w w' := by
  intro d hnow hbook
  rcases h with hsame | hmarked
  · exact ⟨d, .refl c d, hsame.trans hbook⟩
  · refine ⟨d.mark, .single (k := []) (.change d) rfl (List.append_nil _).symm, ?_⟩
    rw [hmarked, hbook, Book.of_mark, hnow]

namespace World

/-! ### Stores -/

theorem job_none {w : World Y} {d : Debounce.State} (h : w.book = Book.of d)
    (hstoring : w.storing = false) : d.job = none := by
  have hjob : d.job.isSome = false := (congrArg Book.storing h).symm.trans hstoring
  simpa using hjob

theorem storeDeadline_due {cfg : Configuration} {w : World Y} {d : Debounce.State}
    (h : w.book = Book.of d) {t : Nat} (ht : w.storeDeadline cfg = some t) :
    d.due cfg.limits = some t := by
  obtain ⟨hdirty, hstoring⟩ := storeDeadline_some ht
  have hlast : w.lastChangeAt = d.marks.map Prod.snd := congrArg Book.last h
  have hfirst : w.firstDirtyAt = d.marks.map Prod.fst := congrArg Book.first h
  unfold storeDeadline at ht
  rw [hdirty, hstoring, hlast, hfirst] at ht
  unfold Debounce.State.due
  cases hmarks : d.marks with
  | none =>
    rw [hmarks] at ht
    cases ht
  | some m =>
    rw [hmarks] at ht
    exact ht

theorem spawnStore_onward {w : World Y} {d : Debounce.State} (h : w.book = Book.of d)
    (hdirty : w.dirty = true) (hstoring : w.storing = false) (hready : d.Ready c) :
    Onward c d w.spawnStore := by
  have hjob := job_none h hstoring
  refine ⟨_, .single (k := [.begun]) (.begin d hjob hready) rfl rfl, ?_⟩
  rw [spawnStore_book hdirty hstoring, Book.of_note, h]
  simp [Book.of, Book.clean, hjob]

theorem runStore_onward {results : List HookResult} {w : World Y} {d : Debounce.State}
    (h : w.book = Book.of d) (hdirty : w.dirty = true) (hstoring : w.storing = false)
    (hok : firstError results = none) (hready : d.Ready c) : Onward c d (w.runStore results) := by
  refine ⟨_, .single (k := [.begun, .ended true]) (.save d (job_none h hstoring) hready) rfl
    (List.append_assoc _ _ _), ?_⟩
  rw [runStore_book hdirty hok, Book.of_note, Book.of_note, h]
  rfl

theorem finishStore_onward {w : World Y} {d : Debounce.State} (h : w.book = Book.of d) {i : Nat}
    (results : List HookResult) (hi : i < w.storeTasks.length) :
    Onward c d (w.finishStore i results) := by
  have htasks : w.storeTasks.length = if d.job = some none then 1 else 0 := congrArg Book.tasks h
  have hjob : d.job = some none := by
    by_contra hne
    rw [htasks, if_neg hne] at hi
    exact Nat.not_lt_zero i hi
  refine ⟨_, .single (k := [.ended (firstError results).isNone])
    (.land d (firstError results).isNone hjob) rfl rfl, ?_⟩
  rw [finishStore_book results hi, Book.of_note, h]
  simp [Book.of, hjob]

theorem takeResult_onward {o : Ambient} {w : World Y} {d : Debounce.State} (hnow : d.now = o.now)
    (h : w.book = Book.of d) {ok : Bool} {rest : List Bool} (hresults : w.storeResults = ok :: rest)
    (hfirst : ok = false → ∀ first t, w.firstDirtyAt = some first →
      (t, .ended false) ∈ d.log → t + c.gap ≤ first + c.max) :
    ∃ d', Debounce.During c d d' ∧ (w.takeResult o ok rest).book = Book.of d' ∧
      d'.log = d.log := by
  have hreport : d.job.join.toList = ok :: rest := (congrArg Book.results h).symm.trans hresults
  obtain ⟨hjob, rfl⟩ : d.job = some (some ok) ∧ rest = [] := by
    match hd : d.job, hreport with
    | some (some ok'), heq =>
      cases heq
      exact ⟨rfl, rfl⟩
  have hbook :
      Book.of { d with job := none } = { w.book with storing := false, results := [] } := by
    rw [h]
    simp [Book.of, hjob]
  cases ok with
  | true =>
    refine ⟨{ d with job := none }, .single (k := []) (.report d hjob) rfl
      (List.append_nil _).symm, ?_, rfl⟩
    rw [takeResult_book, hbook, if_pos rfl]
  | false =>
    have hmarks : ∀ first last t, d.marks = some (first, last) → (t, .ended false) ∈ d.log →
        t + c.gap ≤ first + c.max := by
      intro first last t hmarks
      refine hfirst rfl first t ?_
      have hw : w.firstDirtyAt = d.marks.map Prod.fst := congrArg Book.first h
      rw [hw, hmarks]
      rfl
    refine ⟨_, .single (k := []) (.rearm d hjob hmarks) rfl (List.append_nil _).symm, ?_, rfl⟩
    rw [takeResult_book, Book.of_mark, hbook, ← hnow]
    rfl

/-- The store of an unload, if there is one, does not look at the timers. -/
theorem maybeUnload_onward {cfg : Configuration} {o : Ambient} {w : World Y} {d : Debounce.State}
    (h : w.book = Book.of d)
    (hstore : cfg.unloadImmediately = true → w.dirty = true → w.connections.isEmpty = true →
      w.storing = false → firstError o.onStoreUnload = none ∧ d.Rested c) :
    Onward c d (w.maybeUnload cfg o).1 := by
  rcases w.maybeUnload_book cfg o with hsame | ⟨hdirty, hempty, hstoring, himm, hbook⟩
  · exact ⟨d, .refl c d, hsame.trans h⟩
  · obtain ⟨hok, hrested⟩ := hstore himm hdirty hempty hstoring
    obtain ⟨d', hd', hbook'⟩ := runStore_onward h hdirty hstoring hok (Or.inr hrested)
    exact ⟨d', hd', hbook.trans hbook'⟩

end World

end Debounced

/-! ## Steps of the actor -/

/-- The deadline branch is open only once the deadline has come. -/
theorem Actor.step_deadline {cfg : Configuration} {a b : Actor Y} {o : Ambient}
    (h : a.step cfg (.deadline o) = some b) :
    ∃ t, a.world.storeDeadline cfg = some t ∧ t ≤ o.now := by
  simp only [Actor.step] at h
  split at h
  next t hphase ht =>
    split at h
    next hle => exact ⟨t, ht, hle⟩
    next => cases h
  next => cases h

/-- The log and the clock of debounced saves with the book of the actor. -/
structure Timed.Shows (s : Timed Y) (d : Debounce.State) : Prop where
  now : d.now = s.now
  log : d.log = s.log
  book : s.actor.world.book = Book.of d

section Step

variable {cfg : Configuration} {s : Timed Y} {b : Actor Y}

theorem Timed.handleCommand_onward {o : Ambient} {cmd : DocCommand} {d : Debounce.State}
    (hnow : d.now = o.now) (hlog : d.log = s.log) (hbook : s.actor.world.book = Book.of d)
    (hpatient : s.Patient cfg (o.now, .command cmd o)) :
    Onward cfg.limits d ((s.actor.world.withSched o.sched).handleCommand cfg o cmd).1 := by
  have hsched : (s.actor.world.withSched o.sched).book = Book.of d := hbook
  cases cmd with
  | addConnection handle ack =>
    exact ((World.addConnection_quiet _ _ _).trans (World.emit_quiet _ rfl)).edited.debounces d hnow
      hsched
  | clientFrame connId data =>
    exact (World.handleClientFrame_edited o _ connId data).debounces d hnow hsched
  | removeConnection connId =>
    refine World.maybeUnload_onward ((World.removeConnection_quiet _ connId).book.trans hsched) ?_
    intro himm hdirty hempty hstoring
    obtain ⟨hok, hrested⟩ := hpatient.unload o _ rfl himm hdirty hempty hstoring
    refine ⟨hok, fun t ht => ?_⟩
    rw [hnow]
    exact hrested t (hlog ▸ ht)
  | externalFrame data reply =>
    exact (World.handleExternalFrame_edited o _ data reply).debounces d hnow hsched
  | directApply update ack =>
    exact ((World.applyAndBroadcast_edited o _ update .local).before
      (World.emit_quiet _ rfl).book).debounces d hnow hsched

theorem Timed.storeResult_onward {o : Ambient} {d : Debounce.State} {ok : Bool} {rest : List Bool}
    (hnow : d.now = o.now) (hlog : d.log = s.log) (hbook : s.actor.world.book = Book.of d)
    (hresults : s.actor.world.storeResults = ok :: rest)
    (hpatient : s.Patient cfg (o.now, .storeResult o)) :
    Onward cfg.limits d
      (((s.actor.world.withSched o.sched).takeResult o ok rest).maybeUnload cfg o).1 := by
  have hsched : (s.actor.world.withSched o.sched).book = Book.of d := hbook
  have hfirst : ok = false → ∀ first t,
      (s.actor.world.withSched o.sched).firstDirtyAt = some first → (t, .ended false) ∈ d.log →
        t + cfg.limits.gap ≤ first + cfg.limits.max := by
    intro hfailed first t hfirst ht
    subst hfailed
    exact hpatient.report o rest first rfl hresults hfirst t (hlog ▸ ht)
  obtain ⟨d₁, hd₁, hbook₁, hlog₁⟩ := World.takeResult_onward hnow hsched hresults hfirst
  have hcall : s.actor.unloadCall (.storeResult o)
      = some (o, (s.actor.world.withSched o.sched).takeResult o ok rest) := by
    rw [Actor.unloadCall, hresults]
  have hunload : Onward cfg.limits d₁
      (((s.actor.world.withSched o.sched).takeResult o ok rest).maybeUnload cfg o).1 := by
    refine World.maybeUnload_onward hbook₁ fun himm hdirty hempty hstoring => ?_
    obtain ⟨hok, hrested⟩ := hpatient.unload o _ hcall himm hdirty hempty hstoring
    refine ⟨hok, fun t ht => ?_⟩
    rw [hd₁.now, hnow]
    exact hrested t (hlog ▸ hlog₁ ▸ ht)
  obtain ⟨d₂, hd₂, hbook₂⟩ := hunload
  exact ⟨d₂, hd₁.trans hd₂, hbook₂⟩

theorem Timed.tick_onward {o : Ambient} {d : Debounce.State} {t : Nat}
    (hnow : d.now = o.now) (hbook : s.actor.world.book = Book.of d)
    (hdeadline : s.actor.world.storeDeadline cfg = some t) (ht : t ≤ o.now)
    (hpatient : s.Patient cfg (o.now, .deadline o)) :
    Onward cfg.limits d ((s.actor.world.withSched o.sched).tick cfg o).1 := by
  have hsched : (s.actor.world.withSched o.sched).book = Book.of d := hbook
  obtain ⟨hdirty, hstoring⟩ := World.storeDeadline_some hdeadline
  have hready : d.Ready cfg.limits :=
    Or.inl ⟨t, World.storeDeadline_due hbook hdeadline, hnow ▸ ht⟩
  unfold World.tick
  split
  next hempty =>
    have hok := hpatient.inline o rfl hempty
    obtain ⟨d₁, hd₁, hbook₁⟩ := World.runStore_onward hsched hdirty hstoring hok hready
    -- nothing is left to store at an unload
    have hclean : ((s.actor.world.withSched o.sched).runStore o.onStore).dirty = false :=
      congrArg Book.dirty
        (World.runStore_book (w := s.actor.world.withSched o.sched) hdirty hok)
    have hunload : Onward cfg.limits d₁
        (((s.actor.world.withSched o.sched).runStore o.onStore).maybeUnload cfg o).1 := by
      refine World.maybeUnload_onward hbook₁ fun _ hd => ?_
      rw [hclean] at hd
      cases hd
    obtain ⟨d₂, hd₂, hbook₂⟩ := hunload
    exact ⟨d₂, hd₁.trans hd₂, hbook₂⟩
  next => exact World.spawnStore_onward hsched hdirty hstoring hready

theorem Timed.actor_onward {time : Nat} {l : Label} {d : Debounce.State}
    (hstep : s.actor.step cfg l = some b) (htime : l.now?.getD time = time) (hnow : d.now = time)
    (hlog : d.log = s.log) (hbook : s.actor.world.book = Book.of d)
    (hpatient : s.Patient cfg (time, l)) : Onward cfg.limits d b.world := by
  cases l with
  | command cmd o =>
    have ho : o.now = time := htime
    subst ho
    cases Actor.step_cases hstep with
    | command _ _ n hphase => exact Timed.handleCommand_onward hnow hlog hbook hpatient
  | flush sched =>
    cases Actor.step_cases hstep with
    | flush _ phase hphase =>
      exact ⟨d, .refl _ d, (World.flushBroadcast_book (s.actor.world.withSched sched)).trans hbook⟩
  | storeResult o =>
    have ho : o.now = time := htime
    subst ho
    cases Actor.step_cases hstep with
    | storeResult _ ok rest hphase hresults =>
      exact Timed.storeResult_onward hnow hlog hbook hresults hpatient
  | deadline o =>
    have ho : o.now = time := htime
    subst ho
    obtain ⟨t, hdeadline, ht⟩ := Actor.step_deadline hstep
    cases Actor.step_cases hstep with
    | deadline _ hphase hdirty hstoring =>
      exact Timed.tick_onward hnow hbook hdeadline ht hpatient
  | mailboxClosed =>
    cases Actor.step_cases hstep with
    | mailboxClosed hphase => exact ⟨d, .refl _ d, hbook⟩
  | storeTask i results =>
    cases Actor.step_cases hstep with
    | storeTask _ _ hi => exact World.finishStore_onward hbook results hi
  | queues acts =>
    cases Actor.step_cases hstep with
    | queues _ => exact ⟨d, .refl _ d, hbook⟩

end Step

/-- **A patient step is debounced**: the clock goes on, and what the actor does then
are steps of debounced saves. -/
theorem Timed.step_shows {cfg : Configuration} {s s' : Timed Y} {l : Nat × Label}
    {d : Debounce.State} (hstep : s.step cfg l = some s') (hpatient : s.Patient cfg l)
    (h : s.Shows d) :
    ∃ d', Relation.ReflTransGen (Debounce.Step cfg.limits) d d' ∧ s'.Shows d' := by
  obtain ⟨time, label⟩ := l
  unfold Timed.step at hstep
  split at hstep
  next hclock =>
    obtain ⟨hle, htime⟩ := hclock
    obtain ⟨b, hb, rfl⟩ := Option.map_eq_some_iff.mp hstep
    have hwait : Debounce.Step cfg.limits d { d with now := time } := by
      have hadd : d.now + (time - s.now) = time := by
        have hnow := h.now
        omega
      have hw := Debounce.Step.wait (c := cfg.limits) d (time - s.now)
      rwa [hadd] at hw
    obtain ⟨d', hd', hbook⟩ := Timed.actor_onward (d := { d with now := time }) hb htime rfl h.log
      h.book hpatient
    refine ⟨d', .head hwait hd'.steps, hd'.now, ?_, hbook⟩
    obtain ⟨k, hk⟩ := hd'.log
    have hbefore : s.actor.world.attempts = d.log.map Prod.snd := congrArg Book.attempts h.book
    have hafter : b.world.attempts = d.log.map Prod.snd ++ k := by
      have hmap : (k.map fun e => (time, e)).map Prod.snd = k := by
        rw [List.map_map]
        exact List.map_id k
      have hall : b.world.attempts = d'.log.map Prod.snd := congrArg Book.attempts hbook
      rw [hall, hk, List.map_append, hmap]
    rw [hk, hbefore, hafter, List.drop_left, ← h.log]
  next => cases hstep

/-- **A store that failed is made again only after its debounce**, in every patient run
of a document. -/
theorem Timed.failed_store_waits {cfg : Configuration} {now : Nat} {name : String} {doc : Y.Doc}
    {queues : Queues} {ls : List (Nat × Label)} {s : Timed Y}
    (hrun : Lts.exec (Timed.step cfg) (Timed.spawn now name doc queues) ls = some s)
    (hpatient : Lts.Along (Timed.step cfg) (fun s l _ => s.Patient cfg l)
      (Timed.spawn now name doc queues) ls) :
    Debounce.Spaced (min cfg.debounce cfg.maxDebounce) s.log := by
  have hstep : ∀ (a : Timed Y) (l : Nat × Label) (b : Timed Y), a.step cfg l = some b →
      a.Patient cfg l → (∃ d, a.Shows d ∧ Debounce.Inv cfg.limits d) →
      ∃ d, b.Shows d ∧ Debounce.Inv cfg.limits d := by
    intro a l b hl hp hi
    obtain ⟨d, hshows, hinv⟩ := hi
    obtain ⟨d', hsteps, hshows'⟩ := Timed.step_shows hl hp hshows
    exact ⟨d', hshows', hinv.steps hsteps⟩
  obtain ⟨d, hshows, hinv⟩ := Lts.exec_invariant_along hstep hpatient hrun
    ⟨⟨now, none, none, []⟩, ⟨rfl, rfl, rfl⟩, Debounce.inv_start now⟩
  exact hshows.log ▸ hinv.spaced

/-- Somebody is connected where a store or its report is due, and nothing was edited
during a store that reports. -/
def Timed.calm (s : Timed Y) (l : Nat × Label) : Bool :=
  match l.2 with
  | .command (.removeConnection _) _ => false
  | .storeResult _ => !s.actor.world.connections.isEmpty && s.actor.world.firstDirtyAt.isNone
  | .deadline _ => !s.actor.world.connections.isEmpty
  | _ => true

theorem World.takeResult_connections (o : Ambient) (w : World Y) (ok : Bool) (rest : List Bool) :
    (w.takeResult o ok rest).connections = w.connections := by
  cases ok <;> rfl

/-- A label that neither stores nor reports. -/
theorem Timed.patient_of_none {cfg : Configuration} {s : Timed Y} {l : Nat × Label}
    (hcall : s.actor.unloadCall l.2 = none) (hdeadline : ∀ o, l.2 ≠ .deadline o)
    (hresult : ∀ o, l.2 ≠ .storeResult o) : s.Patient cfg l where
  inline o ho _ := absurd ho (hdeadline o)
  unload o w hw := by
    rw [hcall] at hw
    cases hw
  report o _ _ ho := absurd ho (hresult o)

theorem Timed.patient_of_calm {cfg : Configuration} {s : Timed Y} {l : Nat × Label}
    (h : s.calm l = true) : s.Patient cfg l := by
  obtain ⟨time, label⟩ := l
  cases label with
  | storeResult o =>
    obtain ⟨hconns, hfirst⟩ := Bool.and_eq_true_iff.mp h
    refine ⟨fun _ heq _ => Label.noConfusion heq, fun o' w hcall _ _ hempty => ?_,
      fun _ _ first _ _ hsome => ?_⟩
    · rw [Actor.unloadCall] at hcall
      split at hcall
      next ok rest _ =>
        cases hcall
        rw [World.takeResult_connections] at hempty
        have hstill : s.actor.world.connections.isEmpty = true := hempty
        rw [hstill] at hconns
        cases hconns
      next => cases hcall
    · rw [hsome] at hfirst
      cases hfirst
  | deadline o =>
    have hconns : s.actor.world.connections.isEmpty = false := by simpa [Timed.calm] using h
    refine ⟨fun _ _ hempty => ?_, fun _ _ hcall => ?_, fun _ _ _ heq => Label.noConfusion heq⟩
    · rw [hconns] at hempty
      cases hempty
    · rw [Actor.unloadCall, hconns] at hcall
      cases hcall
  | command cmd o =>
    refine Timed.patient_of_none ?_ (by simp) (by simp)
    cases cmd with
    | removeConnection connId => cases h
    | _ => rfl
  | _ => exact Timed.patient_of_none rfl (by simp) (by simp)

/-- A document on one writer's interface. -/
def fresh : Timed OneWriter.yrs := Timed.spawn 0 "doc" OneWriter.yrs.newDoc (OneWriter.queues 8)

/-- A client joins, and edits. -/
def editsAt (time clock : Nat) : List (Nat × Label) :=
  [(time, .command (.clientFrame 1 (OneWriter.editFrame clock)) { now := time }),
    (time, .flush [])]

def joinsAt (time : Nat) : List (Nat × Label) :=
  [(time, .command (.addConnection (OneWriter.conn 1) 0) { now := time })]

def refused : List HookResult := [.error ⟨"database is locked", none⟩]

/-- The edit is stored after the debounce; the store fails, and is made again. -/
def retried : List (Nat × Label) :=
  joinsAt 0 ++ editsAt 1 0 ++
    [(2001, .deadline { now := 2001 }), (2500, .storeTask 0 refused),
      (2500, .storeResult { now := 2500 }), (4500, .deadline { now := 4500 })]

theorem Timed.failed_store_waits_retried :
    ∃ s : Timed OneWriter.yrs, Lts.exec (Timed.step {}) fresh retried = some s ∧
      s.log = [(2001, .begun), (2500, .ended false), (4500, .begun)] ∧
      Debounce.Spaced 2000 s.log := by
  have hrun : Lts.exec (Timed.step {}) fresh retried
      = some (Lts.reach (Timed.step {}) fresh retried) := Lts.exec_reach (by decide +kernel)
  have hpatient : Lts.Along (Timed.step {}) (fun s l _ => s.Patient {} l) fresh retried :=
    Lts.along_of_check (fun _ _ _ => Timed.patient_of_calm) (by decide +kernel)
  exact ⟨_, hrun, by decide +kernel, Timed.failed_store_waits hrun hpatient⟩

/-- The client leaves, the document stays, and its store fails: the deadline, which
is over, stays where it was. -/
def spins : List (Nat × Label) :=
  joinsAt 0 ++ editsAt 1 0 ++
    [(2, .command (.removeConnection 1) { now := 2 }), (2, .flush []),
      (2001, .deadline { now := 2001, onStore := refused }),
      (2001, .deadline { now := 2001, onStore := refused })]

theorem Timed.failed_store_spins :
    ¬ ∀ cfg : Configuration, 0 < cfg.debounce → 0 < cfg.maxDebounce →
      ∀ (ls : List (Nat × Label)) (s : Timed OneWriter.yrs),
        Lts.exec (Timed.step cfg) fresh ls = some s → s.actor.phase = .select →
          Debounce.Spaced (min cfg.debounce cfg.maxDebounce) s.log := by
  intro hall
  let cfg : Configuration := { unloadImmediately := false }
  have hrun : Lts.exec (Timed.step cfg) fresh spins
      = some (Lts.reach (Timed.step cfg) fresh spins) := Lts.exec_reach (by decide +kernel)
  have hspaced := hall cfg (by decide) (by decide) spins _ hrun (by decide +kernel)
  exact absurd hspaced (by decide +kernel)

/-- Edited while it is stored, and refused after more than `maxDebounce`: the first
edit of the two is as old, and the deadline over when the result is taken. -/
example : (Lts.exec (Timed.step {}) fresh (joinsAt 0 ++ editsAt 1 0 ++
    [(2001, .deadline { now := 2001 })] ++ editsAt 2002 1 ++
    [(20000, .storeTask 0 refused), (20000, .storeResult { now := 20000 }),
      (20000, .deadline { now := 20000 })])).map Timed.log
    = some [(2001, .begun), (20000, .ended false), (20000, .begun)] := by
  decide +kernel

end Hocuspocus
