import Hocuspocus.Document.Lifecycle

/-!
# The hook calls of one document (`document.rs`, `extension.rs`)

The actor awaits most hooks itself, but `spawn_store` leaves the two loops of a
store to a task of its own. The runtime lets that task go on whenever it likes,
also between two awaits of the actor, so what the extensions see is an
interleaving: `on_store_document` of one extension may well come between
`before_handle_message` and the update it was about.

`Hooked` is the actor with its calls as steps. A step of the actor leaves the calls
it makes in `due`, to be made one by one before its next step; the store task asks
the extensions one by one (`onStore`, `afterStore`) and then reports. Any of these
may come next. A loop of the actor over the extensions is one entry, which stands
where the loop begins.

`Called` is the protocol of the interleaving. Of the actor's own calls it says what
`Told` says, and the calls of the task leave the actor's stage alone; of the task it
says that every extension in turn is handed the one state the actor took, until one
refuses, that `after_store_document` follows only if all have accepted, and that the
report comes last. After the removal from the registry the `after_unload_document`
calls follow, and nothing else.

`Ahead` is the invariant: the log leads to where the calls that are still due begin,
and these lead to where the actor is. A call of the task slips in before what is due
because the two do not depend on each other (`due_beside`, `Told.beside`).
-/

namespace Hocuspocus

variable {Y : Yrs}

/-- How far the task of a store has got with its two loops over the extensions. -/
structure Progress where
  answers : List HookResult
  thanked : Nat

namespace Progress

def begun : Progress := ⟨[], 0⟩

variable (n : Nat) (p : Progress)

/-- No extension has refused, and one was not asked yet. -/
def asks : Bool := (firstError p.answers).isNone && decide (p.answers.length < n)

def asked (answer : HookResult) : Progress := { p with answers := p.answers ++ [answer] }

/-- All have accepted, and one was not told yet. -/
def thanks : Bool :=
  (firstError p.answers).isNone && decide (p.answers.length = n) && decide (p.thanked < n)

def thank : Progress := { p with thanked := p.thanked + 1 }

/-- One has refused, or all were told. -/
def finished : Bool :=
  (firstError p.answers).isSome || decide (p.answers.length = n) && decide (p.thanked = n)

end Progress

/-- What the extensions see of a document. A loop that the actor awaits is one
entry, and so is what it does in between; of the loops of a task every call is one,
with the position of the extension. -/
inductive Call (Y : Yrs)
  | actor (e : Event Y)
  | afterUnload (ext : Nat)
  | onStore (ext : Nat) (state : Bytes) (answer : HookResult)
  | afterStore (ext : Nat)
  | reported (state : Bytes) (ok : Bool)

namespace Call

/-- The actor makes the call, and not a task. -/
def isOwn : Call Y → Bool
  | .actor _ | .afterUnload _ => true
  | _ => false

def isSnapshot : Call Y → Bool
  | .actor (.snapshot _) => true
  | _ => false

end Call

/-- What an entry of the record comes to: the actor that has left the registry still
awaits the `after_unload_document` hooks. -/
def Event.calls (n : Nat) : Event Y → List (Call Y)
  | .unloaded => .actor .unloaded :: (List.range n).map .afterUnload
  | e => [.actor e]

/-- An actor, the calls it has still to make, its store tasks, and the calls that
were made. -/
structure Hooked (Y : Yrs) where
  actor : Actor Y
  due : List (Call Y)
  tasks : List Progress
  log : List (Call Y)

namespace Hooked

inductive Label
  /-- The actor goes on; what it calls is due. -/
  | act (l : Hocuspocus.Label)
  /-- It makes the next call. -/
  | call
  /-- A store task asks the next extension, which answers. -/
  | onStore (task : Nat) (answer : HookResult)
  | afterStore (task : Nat)
  /-- A store task sends its result to the actor. -/
  | report (task : Nat)

def isStoreTask : Hocuspocus.Label → Bool
  | .storeTask .. => true
  | _ => false

/-- The state and the progress of a task that has been spawned, which is after the
snapshot was taken. -/
def running (h : Hooked Y) (task : Nat) : Option (Bytes × Progress) :=
  if h.due.any Call.isSnapshot then none else (h.actor.world.storeTasks.zip h.tasks)[task]?

def step (cfg : Configuration) (n : Nat) (h : Hooked Y) : Label → Option (Hooked Y)
  | .act l =>
    if h.due.isEmpty && !isStoreTask l then
      (h.actor.step cfg l).map fun b =>
        { h with
          actor := b
          due := (h.actor.sent b).flatMap (Event.calls n)
          tasks := h.tasks ++ (b.world.storeTasks.drop h.actor.world.storeTasks.length).map fun _ => .begun }
    else none
  | .call =>
    match h.due with
    | [] => none
    | c :: rest => some { h with due := rest, log := h.log ++ [c] }
  | .onStore task answer =>
    match h.running task with
    | none => none
    | some (state, p) =>
      if p.asks n then
        some { h with
          tasks := h.tasks.set task (p.asked answer)
          log := h.log ++ [.onStore p.answers.length state answer] }
      else none
  | .afterStore task =>
    match h.running task with
    | none => none
    | some (_, p) =>
      if p.thanks n then
        some { h with tasks := h.tasks.set task p.thank, log := h.log ++ [.afterStore p.thanked] }
      else none
  | .report task =>
    match h.running task with
    | none => none
    | some (state, p) =>
      if p.finished n then
        (h.actor.step cfg (.storeTask task p.answers)).map fun b =>
          { h with
            actor := b
            tasks := h.tasks.eraseIdx task
            log := h.log ++ [.reported state (firstError p.answers).isNone] }
      else none

def spawn (name : String) (doc : Y.Doc) (queues : Queues) : Hooked Y :=
  ⟨Actor.spawn name doc queues, [], [], []⟩

end Hooked

/-! ## The protocol -/

/-- Where the calls stand: the lifecycle, the task of its store, and how many
extensions know that the document has left. -/
structure Course (Y : Yrs) where
  life : Lifecycle Y
  task : Option Progress
  told : Nat

/-- The calls that may come next, of `n` extensions. -/
inductive Called (n : Nat) : Course Y → Call Y → Course Y → Prop
  | actor {s s' : Lifecycle Y} {e : Event Y} (task : Option Progress) (told : Nat)
    (h : Told s e s') : Called n ⟨s, task, told⟩ (.actor e) ⟨s', task, told⟩
  | spawned (doc : Y.Doc) (stage : HookStage) (told : Nat) (hopen : stage.isOpen = true) :
    Called n ⟨⟨doc, none, stage⟩, none, told⟩ (.actor (.snapshot (Y.encodeState doc)))
      ⟨⟨doc, some (Y.encodeState doc), .resident⟩, some .begun, told⟩
  | onStore (doc : Y.Doc) (state : Bytes) (stage : HookStage) (p : Progress) (told : Nat)
    (answer : HookResult) (hasks : p.asks n = true) :
    Called n ⟨⟨doc, some state, stage⟩, some p, told⟩ (.onStore p.answers.length state answer)
      ⟨⟨doc, some state, stage⟩, some (p.asked answer), told⟩
  | afterStore (doc : Y.Doc) (state : Bytes) (stage : HookStage) (p : Progress) (told : Nat)
    (hthanks : p.thanks n = true) :
    Called n ⟨⟨doc, some state, stage⟩, some p, told⟩ (.afterStore p.thanked)
      ⟨⟨doc, some state, stage⟩, some p.thank, told⟩
  | reported (doc : Y.Doc) (state : Bytes) (stage : HookStage) (p : Progress) (told : Nat)
    (hfinished : p.finished n = true) :
    Called n ⟨⟨doc, some state, stage⟩, some p, told⟩
      (.reported state (firstError p.answers).isNone) ⟨⟨doc, none, stage⟩, none, told⟩
  | afterUnload (s : Lifecycle Y) (told : Nat) (hgone : s.stage = .unloaded) (hlt : told < n) :
    Called n ⟨s, none, told⟩ (.afterUnload told) ⟨s, none, told + 1⟩

/-! ## The calls of the actor -/

section Actor

variable {n : Nat}

/-- Entries of the actor are calls, whatever its task is at. -/
theorem called_told {s s' : Lifecycle Y} {es : List (Event Y)} (h : Lts.Traced Told s es s')
    (task : Option Progress) (told : Nat) :
    Lts.Traced (Called n) ⟨s, task, told⟩ (es.map .actor) ⟨s', task, told⟩ := by
  induction h with
  | nil s => exact .nil _
  | cons hnext _ ih => exact .cons (.actor task told hnext) ih

/-- The actor leaves the store of its task alone, and what it does meanwhile does
not depend on it. -/
theorem told_store_eq {s s' : Lifecycle Y} {es : List (Event Y)} (h : Lts.Traced Told s es s') :
    s'.store = s.store := by
  induction h with
  | nil => rfl
  | cons hnext _ ih => rw [ih, hnext.store_eq]

theorem told_beside {s s' : Lifecycle Y} {es : List (Event Y)} (h : Lts.Traced Told s es s')
    (hstore : s.store ≠ none) (store : Option Bytes) :
    Lts.Traced Told { s with store := store } es { s' with store := store } := by
  induction h with
  | nil s => exact .nil _
  | cons hnext _ ih =>
    exact .cons (hnext.beside hstore store) (ih (by rw [hnext.store_eq]; exact hstore))

/-- The extensions are told one after the other that the document has left. -/
theorem called_farewells {s : Lifecycle Y} (hgone : s.stage = .unloaded) {k : Nat} (hk : k ≤ n) :
    Lts.Traced (Called n) ⟨s, none, 0⟩ ((List.range k).map .afterUnload) ⟨s, none, k⟩ := by
  induction k with
  | zero => exact .nil _
  | succ k ih =>
    rw [List.range_succ, List.map_append]
    exact (ih (by omega)).append (.single (.afterUnload s k hgone hk))

/-- What the actor has to call for the entries of a step. -/
theorem called_step {s s' : Lifecycle Y} {es : List (Event Y)} (h : Lts.Traced Told s es s')
    {task : Option Progress} {told : Nat} (htask : task.isSome = s.store.isSome)
    (htold : s.stage ≠ .unloaded → told = 0) :
    ∃ told', Lts.Traced (Called n) ⟨s, task, told⟩ (es.flatMap (Event.calls n)) ⟨s', task, told'⟩ ∧
      (s'.stage ≠ .unloaded → told' = 0) := by
  induction h generalizing told with
  | nil s => exact ⟨told, .nil _, htold⟩
  | @cons s s₁ s' e es hnext _ ih =>
    have htask₁ : task.isSome = s₁.store.isSome := by rw [hnext.store_eq, htask]
    -- what the entry itself calls
    have hcalls : ∃ told₁, Lts.Traced (Called n) ⟨s, task, told⟩ (e.calls n) ⟨s₁, task, told₁⟩ ∧
        (s₁.stage ≠ .unloaded → told₁ = 0) := by
      have hone : e.calls n = [.actor e] → s.stage ≠ .unloaded →
          ∃ told₁, Lts.Traced (Called n) ⟨s, task, told⟩ (e.calls n) ⟨s₁, task, told₁⟩ ∧
            (s₁.stage ≠ .unloaded → told₁ = 0) := by
        intro hcalls hthere
        rw [hcalls]
        exact ⟨told, .single (.actor task told hnext), fun _ => htold hthere⟩
      have hopened : ∀ {stage : HookStage}, stage.isOpen = true → stage ≠ .unloaded := by
        rintro stage hopen rfl
        cases hopen
      cases hnext with
      | asked _ _ _ _ hopen => exact hone rfl (hopened hopen)
      | absorbed _ _ _ _ hopen => exact hone rfl (hopened hopen)
      | applied _ _ _ _ hopen => exact hone rfl (hopened hopen)
      | onChange => exact hone rfl HookStage.noConfusion
      | saving _ _ hopen => exact hone rfl (hopened hopen)
      | saved => exact hone rfl HookStage.noConfusion
      | beforeUnload _ _ hopen => exact hone rfl (hopened hopen)
      | unloaded doc =>
        obtain rfl : task = none := Option.not_isSome_iff_eq_none.mp (by rw [htask]; simp)
        obtain rfl : told = 0 := htold HookStage.noConfusion
        exact ⟨n, .cons (.actor none 0 (.unloaded doc)) (called_farewells rfl (Nat.le_refl n)),
          fun hthere => absurd rfl hthere⟩
      | other _ _ he hopen => exact hone (by cases e <;> first | rfl | cases he) (hopened hopen)
    obtain ⟨told₁, htraced₁, htold₁⟩ := hcalls
    obtain ⟨told', htraced', htold'⟩ := ih htask₁ htold₁
    exact ⟨told', htraced₁.append htraced', htold'⟩

/-- While a task stores, what the actor has still to call are entries of its own, and
none of them touches the task. -/
theorem due_beside {due : List (Call Y)} {c c' : Course Y} {p : Progress}
    (h : Lts.Traced (Called n) c due c') (hown : ∀ d ∈ due, d.isOwn = true)
    (hspawned : due.any Call.isSnapshot = false) (htask : c'.task = some p) :
    ∃ es, due = es.map .actor ∧ Lts.Traced Told c.life es c'.life ∧
      c.task = some p ∧ c.told = c'.told := by
  induction h with
  | nil c => exact ⟨[], rfl, .nil _, htask, rfl⟩
  | cons hnext _ ih =>
    rw [List.any_cons, Bool.or_eq_false_iff] at hspawned
    obtain ⟨es, rfl, htraced, htask₁, htold⟩ :=
      ih (fun d hd => hown d (List.mem_cons_of_mem _ hd)) hspawned.2 htask
    have hfirst := hown _ List.mem_cons_self
    cases hnext with
    | actor task told h => exact ⟨_ :: es, rfl, .cons h htraced, htask₁, htold⟩
    | spawned => cases hspawned.1
    | onStore | afterStore | reported => cases hfirst
    | afterUnload => cases htask₁

end Actor

/-! ## Steps -/

theorem Actor.Follows.tasks {a : Actor Y} {s : Lifecycle Y} (h : a.Follows s) :
    a.world.storeTasks = s.store.toList := by
  rcases h with (⟨_, h⟩ | ⟨_, h⟩) | ⟨h, _⟩
  · exact h.store
  · rw [h.tasks, h.store]
    rfl
  · exact h.store

theorem Actor.Follows.doc {a : Actor Y} {s : Lifecycle Y} (h : a.Follows s) :
    s.doc = a.world.doc := by
  rcases h with (⟨_, h⟩ | ⟨_, h⟩) | ⟨h, _⟩
  · exact h.doc.symm
  · exact h.doc.symm
  · exact h.doc.symm

theorem Actor.Follows.exits {a : Actor Y} {s : Lifecycle Y} (h : a.Follows s)
    (hphase : a.phase = .exiting) : s.stage = .unloaded := by
  rcases h with (⟨hthere, _⟩ | ⟨_, h⟩) | ⟨_, hstopped⟩
  · exact absurd (Or.inl hphase) hthere
  · exact h.stage
  · rw [hphase] at hstopped
    cases hstopped

namespace Hooked

/-- The branches of a step. -/
inductive StepCases (cfg : Configuration) (n : Nat) (h : Hooked Y) : Label → Hooked Y → Prop
  | act (l : Hocuspocus.Label) (b : Actor Y) (hdue : h.due = [])
    (hplain : ∀ i results, l ≠ .storeTask i results) (hb : h.actor.step cfg l = some b) :
    StepCases cfg n h (.act l) { h with
      actor := b
      due := (h.actor.sent b).flatMap (Event.calls n)
      tasks := h.tasks ++ (b.world.storeTasks.drop h.actor.world.storeTasks.length).map fun _ => .begun }
  | call (c : Call Y) (rest : List (Call Y)) (hdue : h.due = c :: rest) :
    StepCases cfg n h .call { h with due := rest, log := h.log ++ [c] }
  | onStore (task : Nat) (answer : HookResult) (state : Bytes) (p : Progress)
    (hrunning : h.running task = some (state, p)) (hasks : p.asks n = true) :
    StepCases cfg n h (.onStore task answer) { h with
      tasks := h.tasks.set task (p.asked answer)
      log := h.log ++ [.onStore p.answers.length state answer] }
  | afterStore (task : Nat) (state : Bytes) (p : Progress)
    (hrunning : h.running task = some (state, p)) (hthanks : p.thanks n = true) :
    StepCases cfg n h (.afterStore task)
      { h with tasks := h.tasks.set task p.thank, log := h.log ++ [.afterStore p.thanked] }
  | report (task : Nat) (state : Bytes) (p : Progress) (b : Actor Y)
    (hrunning : h.running task = some (state, p)) (hfinished : p.finished n = true)
    (hb : h.actor.step cfg (.storeTask task p.answers) = some b) :
    StepCases cfg n h (.report task) { h with
      actor := b
      tasks := h.tasks.eraseIdx task
      log := h.log ++ [.reported state (firstError p.answers).isNone] }

/-- **Inversion of `step`.** -/
theorem step_cases {cfg : Configuration} {n : Nat} {h h' : Hooked Y} {l : Label}
    (hstep : h.step cfg n l = some h') : StepCases cfg n h l h' := by
  unfold step at hstep
  cases l with
  | act l =>
    dsimp only at hstep
    split at hstep
    next hcond =>
      simp only [Bool.and_eq_true, List.isEmpty_iff, Bool.not_eq_true'] at hcond
      obtain ⟨b, hb, rfl⟩ := Option.map_eq_some_iff.mp hstep
      refine .act l b hcond.1 ?_ hb
      rintro i results rfl
      cases hcond.2
    next => cases hstep
  | call =>
    dsimp only at hstep
    split at hstep
    next => cases hstep
    next c rest hdue =>
      cases hstep
      exact .call c rest hdue
  | onStore task answer =>
    dsimp only at hstep
    split at hstep
    next => cases hstep
    next state p hrunning =>
      split at hstep <;> cases hstep
      next hasks => exact .onStore task answer state p hrunning hasks
  | afterStore task =>
    dsimp only at hstep
    split at hstep
    next => cases hstep
    next state p hrunning =>
      split at hstep <;> cases hstep
      next hthanks => exact .afterStore task state p hrunning hthanks
  | report task =>
    dsimp only at hstep
    split at hstep
    next => cases hstep
    next state p hrunning =>
      split at hstep
      next hfinished =>
        obtain ⟨b, hb, rfl⟩ := Option.map_eq_some_iff.mp hstep
        exact .report task state p b hrunning hfinished hb
      next => cases hstep

/-- The calls that are due lead from `c`, where the log ends, to `c'`, where the
actor and its task are. -/
structure Ahead (n : Nat) (h : Hooked Y) (c c' : Course Y) : Prop where
  due : Lts.Traced (Called n) c h.due c'
  own : ∀ d ∈ h.due, d.isOwn = true
  follows : h.actor.Follows c'.life
  tasks : h.tasks = c'.task.toList
  store : c'.task.isSome = c'.life.store.isSome
  told : c'.life.stage ≠ .unloaded → c'.told = 0

theorem calls_own (n : Nat) (es : List (Event Y)) :
    ∀ d ∈ es.flatMap (Event.calls n), d.isOwn = true := by
  intro d hd
  obtain ⟨e, _, hd⟩ := List.mem_flatMap.mp hd
  cases e with
  | unloaded =>
    rcases List.mem_cons.mp hd with rfl | hd
    · rfl
    · obtain ⟨ext, _, rfl⟩ := List.mem_map.mp hd
      rfl
  | _ =>
    rw [List.mem_singleton.mp hd]
    rfl

section Steps

variable {cfg : Configuration} {n : Nat} {h h' : Hooked Y} {c c' : Course Y}

/-- The actor goes on: what it calls is due. -/
theorem Ahead.act (herr : Y.ErrKeepsDoc) (hahead : h.Ahead n c c') (hdue : h.due = [])
    {l : Hocuspocus.Label} (hplain : ∀ i results, l ≠ .storeTask i results) {b : Actor Y}
    (hb : h.actor.step cfg l = some b) :
    ∃ c'', Ahead n { h with
      actor := b
      due := (h.actor.sent b).flatMap (Event.calls n)
      tasks := h.tasks ++ (b.world.storeTasks.drop h.actor.world.storeTasks.length).map fun _ => .begun }
      c c'' := by
  have hstart := hahead.due
  rw [hdue] at hstart
  obtain rfl : c = c' := by cases hstart; rfl
  obtain ⟨s', hacts, hfollows⟩ := hahead.follows.acts herr hplain hb
  have hbefore := hahead.follows.tasks
  have hafter := hfollows.tasks
  obtain ⟨life, task, told⟩ := c
  rcases hacts with ⟨es, hes, htraced⟩ | hspawns
  · -- no store is given a task
    have hstore : s'.store = life.store := told_store_eq htraced
    obtain ⟨told', hcalls, htold'⟩ := called_step htraced hahead.store hahead.told
    refine ⟨⟨s', task, told'⟩, ?_, calls_own n _, hfollows, ?_, ?_, htold'⟩
    · show Lts.Traced (Called n) _ ((h.actor.sent b).flatMap (Event.calls n)) _
      rw [Actor.sent_eq hes]
      exact hcalls
    · show h.tasks ++ (b.world.storeTasks.drop h.actor.world.storeTasks.length).map (fun _ => .begun) = _
      rw [hafter, hbefore, hstore, List.drop_length, List.map_nil, List.append_nil]
      exact hahead.tasks
    · rw [hstore]
      exact hahead.store
  · have hidle : life.store = none := hspawns.idle
    obtain rfl : task = none := Option.not_isSome_iff_eq_none.mp (by
      rw [hahead.store, hidle]
      exact Bool.false_ne_true)
    obtain rfl : told = 0 := hahead.told fun hgone => by
      have hopen := hspawns.stage
      rw [hgone] at hopen
      cases hopen
    obtain ⟨doc, store, stage⟩ := life
    obtain rfl : store = none := hidle
    refine ⟨⟨s', some .begun, 0⟩, ?_, calls_own n _, hfollows, ?_, ?_, fun _ => rfl⟩
    · show Lts.Traced (Called n) _ ((h.actor.sent b).flatMap (Event.calls n)) _
      rw [Actor.sent_eq hspawns.trace, hspawns.next]
      exact .single (.spawned doc stage 0 hspawns.stage)
    · show h.tasks ++ (b.world.storeTasks.drop h.actor.world.storeTasks.length).map (fun _ => .begun) = _
      rw [hafter, hbefore, hspawns.next, hahead.tasks]
      rfl
    · rw [hspawns.next]
      rfl

/-- A store is with the task, and has been since before what is due. -/
structure Storing (h : Hooked Y) (c c' : Course Y) (task : Nat) (state : Bytes) (p : Progress) :
    Prop where
  only : task = 0
  tasks : h.tasks = [p]
  due : ∃ es, h.due = es.map .actor ∧ Lts.Traced Told c.life es c'.life
  before : c.task = some p ∧ c.life.store = some state
  after : c'.task = some p ∧ c'.life.store = some state
  told : c.told = c'.told

/-- The one task there is, when all calls before it were made. -/
theorem Ahead.running (hahead : h.Ahead n c c') {i : Nat} {state : Bytes} {p : Progress}
    (hrunning : h.running i = some (state, p)) : h.Storing c c' i state p := by
  unfold Hooked.running at hrunning
  split at hrunning
  next => cases hrunning
  next hspawned =>
    rw [hahead.follows.tasks, hahead.tasks] at hrunning
    obtain ⟨hstore, htask, hzero⟩ : c'.life.store = some state ∧ c'.task = some p ∧ i = 0 := by
      cases hs : c'.life.store with
      | none =>
        rw [hs] at hrunning
        cases hrunning
      | some state' =>
        cases ht : c'.task with
        | none =>
          rw [hs, ht] at hrunning
          cases hrunning
        | some p' =>
          rw [hs, ht] at hrunning
          cases i with
          | succ i => cases hrunning
          | zero =>
            cases hrunning
            exact ⟨rfl, rfl, rfl⟩
    obtain ⟨es, hdue, htraced, hstart, htold⟩ :=
      due_beside hahead.due hahead.own (Bool.not_eq_true _ ▸ hspawned) htask
    have htasks : h.tasks = [p] := by
      rw [hahead.tasks, htask]
      rfl
    exact ⟨hzero, htasks, ⟨es, hdue, htraced⟩, ⟨hstart, (told_store_eq htraced).symm.trans hstore⟩,
      ⟨htask, hstore⟩, htold⟩

/-- A call of the task slips in before what the actor has still to call. -/
theorem Ahead.slips (hahead : h.Ahead n c c') {i : Nat} {state : Bytes} {p p' : Progress}
    {call : Call Y} (hrunning : h.running i = some (state, p))
    (hcall : Called n ⟨c.life, some p, c.told⟩ call ⟨c.life, some p', c.told⟩) :
    Lts.Traced (Called n) c [call] ⟨c.life, some p', c.told⟩ ∧
      Ahead n { h with tasks := h.tasks.set i p', log := h.log ++ [call] }
        ⟨c.life, some p', c.told⟩ ⟨c'.life, some p', c'.told⟩ := by
  have hstoring := hahead.running hrunning
  obtain ⟨es, hdue, htraced⟩ := hstoring.due
  obtain rfl := hstoring.only
  refine ⟨?_, ?_, hahead.own, hahead.follows, ?_, ?_, hahead.told⟩
  · refine .single ?_
    rw [← hstoring.before.1] at hcall
    exact hcall
  · show Lts.Traced (Called n) _ h.due _
    rw [hdue, ← hstoring.told]
    exact called_told htraced _ _
  · show h.tasks.set 0 p' = _
    rw [hstoring.tasks]
    rfl
  · rw [hstoring.after.2]
    rfl

/-- **The step lemma.** -/
theorem Ahead.step (herr : Y.ErrKeepsDoc) (hahead : h.Ahead n c c') {l : Label}
    (hstep : h.step cfg n l = some h') :
    ∃ calls c₁, h'.log = h.log ++ calls ∧ Lts.Traced (Called n) c calls c₁ ∧
      ∃ c₂, h'.Ahead n c₁ c₂ := by
  cases step_cases hstep with
  | act l b hdue hplain hb =>
    exact ⟨[], c, (List.append_nil _).symm, .nil c, hahead.act herr hdue hplain hb⟩
  | call d rest hdue =>
    have htraced := hahead.due
    have hown := hahead.own
    rw [hdue] at htraced hown
    cases htraced with
    | cons hnext hrest =>
      exact ⟨[d], _, rfl, .single hnext, c', hrest,
        fun d' hd' => hown d' (List.mem_cons_of_mem _ hd'), hahead.follows, hahead.tasks,
        hahead.store, hahead.told⟩
  | onStore task answer state p hrunning hasks =>
    have hstore := (hahead.running hrunning).before.2
    have hcall : Called n ⟨c.life, some p, c.told⟩ (.onStore p.answers.length state answer)
        ⟨c.life, some (p.asked answer), c.told⟩ := by
      obtain ⟨⟨doc, store, stage⟩, _, told⟩ := c
      obtain rfl : store = some state := hstore
      exact .onStore doc state stage p told answer hasks
    obtain ⟨htraced, hnext⟩ := hahead.slips hrunning hcall
    exact ⟨_, _, rfl, htraced, _, hnext⟩
  | afterStore task state p hrunning hthanks =>
    have hstore := (hahead.running hrunning).before.2
    have hcall : Called n ⟨c.life, some p, c.told⟩ (.afterStore p.thanked)
        ⟨c.life, some p.thank, c.told⟩ := by
      obtain ⟨⟨doc, store, stage⟩, _, told⟩ := c
      obtain rfl : store = some state := hstore
      exact .afterStore doc state stage p told hthanks
    obtain ⟨htraced, hnext⟩ := hahead.slips hrunning hcall
    exact ⟨_, _, rfl, htraced, _, hnext⟩
  | report task state p b hrunning hfinished hb =>
    have hstoring := hahead.running hrunning
    obtain ⟨es, hdue, htraced⟩ := hstoring.due
    obtain rfl := hstoring.only
    obtain ⟨_, _, _, _, hfollows⟩ := hahead.follows.reports hb
    obtain ⟨⟨doc, store, stage⟩, ctask, told⟩ := c
    obtain ⟨⟨doc', store', stage'⟩, ctask', told'⟩ := c'
    obtain rfl : store = some state := hstoring.before.2
    obtain rfl : ctask = some p := hstoring.before.1
    obtain rfl : store' = some state := hstoring.after.2
    obtain rfl : told = told' := hstoring.told
    refine ⟨_, _, rfl, .single (.reported doc state stage p told hfinished),
      ⟨⟨doc', none, stage'⟩, none, told⟩, ?_, hahead.own, hfollows, ?_, rfl, hahead.told⟩
    · -- what is due does not depend on the store that is over
      show Lts.Traced (Called n) _ h.due _
      rw [hdue]
      exact called_told (told_beside htraced nofun none) none told
    · show h.tasks.eraseIdx 0 = _
      rw [hstoring.tasks]
      rfl

end Steps

/-! ## Runs -/

/-- The actor of a run of calls is the actor of a run of its own. -/
theorem exec_actor {cfg : Configuration} {n : Nat} {name : String} {doc : Y.Doc} {queues : Queues}
    {ls : List Label} {h : Hooked Y}
    (hrun : Lts.exec (step cfg n) (spawn name doc queues) ls = some h) :
    ∃ ls', Actor.Run cfg (Actor.spawn name doc queues) ls' h.actor := by
  have hone : ∀ (h : Hooked Y) (l : Label) (h' : Hooked Y), h.step cfg n l = some h' →
      h'.actor = h.actor ∨ ∃ l', h.actor.step cfg l' = some h'.actor := by
    intro h l h' hstep
    cases step_cases hstep with
    | act l b _ _ hb => exact Or.inr ⟨l, hb⟩
    | call | onStore | afterStore => exact Or.inl rfl
    | report task state p b _ _ hb => exact Or.inr ⟨_, hb⟩
  refine Lts.exec_invariant (I := fun h : Hooked Y => ∃ ls', Actor.Run cfg
    (Actor.spawn name doc queues) ls' h.actor) ?_ hrun ⟨[], rfl⟩
  rintro h l h' hstep ⟨ls', hrun'⟩
  rcases hone h l h' hstep with hsame | ⟨l', hl'⟩
  · exact ⟨ls', by rw [hsame]; exact hrun'⟩
  · exact ⟨ls' ++ [l'], Lts.exec_snoc.mpr ⟨h.actor, hrun', hl'⟩⟩

theorem spawn_ahead (n : Nat) (name : String) (doc : Y.Doc) (queues : Queues) :
    (spawn name doc queues).Ahead n ⟨.loaded doc, none, 0⟩ ⟨.loaded doc, none, 0⟩ where
  due := .nil _
  own := nofun
  follows := Actor.spawn_follows name doc queues
  tasks := rfl
  store := rfl
  told _ := rfl

/-- **The hook calls of a document keep to one protocol.** In every run of the actor
of a loaded document and of its store tasks, with `n` extensions, for every order of
commands, ticks, hook calls and store results and whatever the hooks answer, the log
of the calls is one the protocol allows. It leads, with the calls that are still due,
from the loaded document to the document as it is, the store task there is and how
far it has got. The actor exits only after the removal from the registry. -/
theorem hooks_keep_protocol (herr : Y.ErrKeepsDoc) {cfg : Configuration} {n : Nat} {name : String}
    {doc : Y.Doc} {queues : Queues} {ls : List Label} {h : Hooked Y}
    (hrun : Lts.exec (step cfg n) (spawn name doc queues) ls = some h) :
    ∃ c c', Lts.Traced (Called n) ⟨.loaded doc, none, 0⟩ h.log c ∧
      Lts.Traced (Called n) c h.due c' ∧ c'.life.doc = h.actor.world.doc ∧
      c'.life.store.toList = h.actor.world.storeTasks ∧ c'.task.toList = h.tasks ∧
      (h.actor.phase = .exiting → c'.life.stage = .unloaded) ∧
      ∃ ls', Actor.Run cfg (Actor.spawn name doc queues) ls' h.actor := by
  have hstep : ∀ (h : Hooked Y) (l : Label) (h' : Hooked Y) (c : Course Y),
      h.step cfg n l = some h' → (∃ c', h.Ahead n c c') →
      ∃ calls c₁, h'.log = h.log ++ calls ∧ Lts.Traced (Called n) c calls c₁ ∧
        ∃ c₂, h'.Ahead n c₁ c₂ := fun h l h' c hstep ⟨_, hahead⟩ => hahead.step herr hstep
  obtain ⟨calls, c, hlog, htraced, c', hahead⟩ :=
    Lts.exec_traced hstep hrun ⟨_, spawn_ahead n name doc queues⟩
  obtain rfl : h.log = calls := hlog
  refine ⟨c, c', htraced, hahead.due, hahead.follows.doc, hahead.follows.tasks.symm,
    hahead.tasks.symm, hahead.follows.exits, exec_actor hrun⟩

/-- A client edits. The edit is stored, and while the task asks the two extensions,
the actor asks them about a second edit; each call of the one comes between two calls
of the other. When the client has left, the second edit is stored inline, and the
document goes. -/
def editsWhileStored : List Label :=
  let calls (k : Nat) : List Label := List.replicate k .call
  (joinAndEdit.zip [2, 4, 1]).flatMap (fun (l, k) => .act l :: calls k) ++
    [.act (.deadline { now := 2005 }), .call,
      .act (.command (.clientFrame 1 (OneWriter.editFrame 1)) { now := 2006 }), .call,
      .onStore 0 (.ok ()), .call, .onStore 0 (.ok ()), .afterStore 0, .call, .afterStore 0, .call,
      .report 0, .act (.flush []), .call, .act (.storeResult { now := 2010 }),
      .act (leave [.ok ()])] ++ calls 7

/-- The hooks of a log: what is called, and by whom. -/
def hookNames (log : List (Call Y)) : List String :=
  log.filterMap fun
    | .actor (.beforeHandleMessage ..) => some "before_handle_message"
    | .actor (.onChange ..) => some "on_change"
    | .actor .beforeUnload => some "before_unload_document"
    | .actor (.stored ..) => some "run_store"
    | .onStore .. => some "on_store_document"
    | .afterStore _ => some "after_store_document"
    | .afterUnload _ => some "after_unload_document"
    | _ => none

theorem hooks_keep_protocol_interleaved :
    ∃ (h : Hooked OneWriter.yrs) (c : Course OneWriter.yrs),
      hookNames h.log = ["before_handle_message", "on_change", "before_handle_message",
        "on_store_document", "on_store_document", "after_store_document", "on_change",
        "after_store_document", "run_store", "before_unload_document", "after_unload_document",
        "after_unload_document"] ∧
      Lts.Traced (Called 2) ⟨.loaded OneWriter.yrs.newDoc, none, 0⟩ h.log c ∧
      OneWriter.yrs.encodeState c.life.doc = OneWriter.encodeUpdate ⟨[0, 1], []⟩ ∧
      c.life.stage = .unloaded := by
  have hrun : Lts.exec (step {} 2) (spawn "doc" OneWriter.yrs.newDoc (OneWriter.queues 8))
      editsWhileStored = some _ := Lts.exec_reach (by decide +kernel)
  obtain ⟨c, c', htraced, hdue, hdoc, _, _, hexits, _⟩ :=
    hooks_keep_protocol OneWriter.errKeepsDoc hrun
  -- nothing is due any more
  have hnone : (Lts.reach (step {} 2) (spawn "doc" OneWriter.yrs.newDoc (OneWriter.queues 8))
      editsWhileStored).due = [] := List.isEmpty_iff.mp (by decide +kernel)
  rw [hnone] at hdue
  obtain rfl : c = c' := by cases hdue; rfl
  exact ⟨_, c, by decide +kernel, htraced,
    (congrArg OneWriter.yrs.encodeState hdoc).trans (by decide +kernel), hexits (by decide +kernel)⟩

end Hooked

end Hocuspocus
