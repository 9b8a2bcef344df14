import Hocuspocus.Document.Deadline
import Hocuspocus.Document.Disconnect

/-!
# When an actor finds itself idle

An actor is idle when nobody is connected, nothing is unsaved and no store is
running (`World.Idle`). It does not watch for that: `maybe_unload` is called when
a `RemoveConnection` was handled, when a store has reported, and when the
deadline has stored for nobody, and only there. `Actor.step_idle` says what
follows for a step that leaves it idle and resident: if the `before_unload` hooks
agree wherever they are asked, it was none of these. So nothing was unsaved or
running before the step either, and what it lacked for being idle was at most an
empty map of connections: the step has taken the last one out by the way, by a
`Close` frame or an eviction.
-/

namespace Hocuspocus

variable {Y : Yrs}

/-- Nobody is connected, nothing is unsaved, no store is running. -/
structure World.Idle (w : World Y) : Prop where
  empty : w.connections.isEmpty = true
  clean : w.dirty = false
  stored : w.storing = false

/-- A client has been connected, or a store was begun. -/
def World.Touched (w : World Y) : Prop :=
  (∃ handle, .added handle ∈ w.trace) ∨ .begun ∈ w.attempts

/-- The `before_unload` hooks agree if the label asks them. -/
def Actor.Agrees (a : Actor Y) (l : Label) : Prop :=
  ∀ o w, a.unloadCall l = some (o, w) → firstError o.beforeUnload = none

/-- The actor handles its last command, or is past it. -/
def Phase.leaves : Phase → Bool
  | .exiting | .stopped => true
  | .select | .batch _ => false

/-! ## Nobody joins -/

/-- No client is connected on the way. -/
def NobodyAdded (w w' : World Y) : Prop := ∀ handle, .added handle ∈ w'.trace → .added handle ∈ w.trace

theorem NobodyAdded.trans {w₁ w₂ w₃ : World Y} (h₁ : NobodyAdded w₁ w₂) (h₂ : NobodyAdded w₂ w₃) :
    NobodyAdded w₁ w₃ :=
  fun handle h => h₁ handle (h₂ handle h)

/-- What a method appends to the trace tells who has joined. -/
theorem NobodyAdded.of_append {w w' : World Y} {k : List (Event Y)} (htrace : w'.trace = w.trace ++ k)
    (hk : ∀ e ∈ k, ∀ handle, e ≠ .added handle) : NobodyAdded w w' := by
  intro handle h
  rw [htrace] at h
  rcases List.mem_append.mp h with hold | hnew
  · exact hold
  · exact absurd rfl (hk _ hnew handle)

theorem NobodyAdded.of_eq {w w' : World Y} (htrace : w'.trace = w.trace) : NobodyAdded w w' :=
  fun _ h => htrace ▸ h

/-- The inert parts of a step connect nobody ... -/
theorem Inert.nobodyAdded {w w' : World Y} (h : Inert w w') : NobodyAdded w w' := by
  obtain ⟨k, htrace, hk⟩ := h.trace
  refine .of_append htrace fun e he handle heq => ?_
  subst heq
  cases hk _ he with
  | other hpersonal => cases hpersonal

namespace World

theorem emit_nobodyAdded (w : World Y) {e : Event Y} (he : ∀ handle, e ≠ .added handle) :
    NobodyAdded w (w.emit e) :=
  .of_append rfl fun _ hmem => List.mem_singleton.mp hmem ▸ he

theorem broadcastWith_nobodyAdded (w : World Y) (build : String → Bytes) :
    NobodyAdded w (w.broadcastWith build) := by
  obtain ⟨rs, k, _, htrace, hclose, _⟩ := w.broadcastWith_spec build
  refine .of_append htrace fun e he handle heq => ?_
  subst heq
  rcases List.mem_append.mp he with h | h
  · obtain ⟨r, _, heq⟩ := List.mem_map.mp h
    cases heq
  · cases hclose _ h

theorem sendFrame_nobodyAdded (w : World Y) (conn : ConnHandle) (frame : Bytes) :
    NobodyAdded w (w.sendFrame conn frame).1 :=
  .of_append (sendFrame_trace w conn frame) fun _ hmem handle heq => by
    rw [List.mem_singleton.mp hmem] at heq
    cases heq

theorem relayAwareness_nobodyAdded (w : World Y) (changed : List Nat) (origin : Origin) :
    NobodyAdded w (w.relayAwareness changed origin) := by
  unfold relayAwareness
  split
  · exact .of_eq rfl
  · exact (w.broadcastWith_nobodyAdded _).trans (emit_nobodyAdded _ nofun)

theorem handleAwareness_nobodyAdded (w : World Y) (frame : IncomingFrame) (origin : Origin) :
    NobodyAdded w (w.handleAwareness frame origin) := by
  unfold handleAwareness
  split
  · exact .of_eq rfl
  · split
    · exact .of_eq rfl
    · dsimp only
      split
      · exact .of_eq rfl
      · refine NobodyAdded.trans (.of_eq ?_) (relayAwareness_nobodyAdded _ _ _)
        cases origin <;> rfl

theorem removeConnection_nobodyAdded (w : World Y) (connId : Nat) :
    NobodyAdded w (w.removeConnection connId) := by
  unfold removeConnection
  split
  · exact .of_eq rfl
  · dsimp only
    refine NobodyAdded.trans ?_ (emit_nobodyAdded _ nofun)
    split
    · exact .of_eq rfl
    · split
      · refine NobodyAdded.trans (.of_eq ?_) (broadcastWith_nobodyAdded _ _)
        rfl
      · exact .of_eq rfl

theorem replyQueryAwareness_nobodyAdded (w : World Y) (address : String) (connId : Nat) :
    NobodyAdded w (w.replyQueryAwareness address connId) := by
  unfold replyQueryAwareness
  split
  · exact .of_eq rfl
  · split
    · exact .of_eq rfl
    · exact w.sendFrame_nobodyAdded _ _

end World

/-- ... and of the acts only the join does. -/
theorem Act.run_nobodyAdded (w : World Y) {act : Act} (hjoin : ∀ order handle, act ≠ .join order handle) :
    NobodyAdded w (act.run w) := by
  cases act with
  | idle => exact .of_eq rfl
  | join order handle => exact absurd rfl (hjoin order handle)
  | answer connId address => exact w.replyQueryAwareness_nobodyAdded address connId
  | present frame origin => exact w.handleAwareness_nobodyAdded frame origin
  | leave connId => exact w.removeConnection_nobodyAdded connId
  | cast build => exact w.broadcastWith_nobodyAdded build

/-- Only an `AddConnection` connects a client. -/
theorem Actor.step_nobodyAdded {cfg : Configuration} {a b : Actor Y} {l : Label}
    (hstep : a.step cfg l = some b) (hplain : ∀ handle ack o, l ≠ .command (.addConnection handle ack) o) :
    NobodyAdded a.world b.world := by
  obtain ⟨v, hbefore, _, _, hafter⟩ := Actor.step_turn hstep
  refine (hbefore.nobodyAdded.trans (Act.run_nobodyAdded v fun order handle heq => ?_)).trans
    hafter.nobodyAdded
  have hjoiner := a.act_joiner l
  rw [heq] at hjoiner
  -- the only label with a joiner is that of an `AddConnection`
  cases l with
  | command cmd o =>
    cases cmd with
    | addConnection handle' ack => exact hplain handle' ack o rfl
    | clientFrame | removeConnection | externalFrame | directApply => cases hjoiner
  | flush | storeResult | deadline | mailboxClosed | storeTask | queues => cases hjoiner

/-! ## The steps that leave it idle -/

namespace World

/-- Where the hooks agree, `maybe_unload` leaves no idle actor behind. -/
theorem maybeUnload_leaves {cfg : Configuration} {o : Ambient} {w : World Y}
    (hagree : firstError o.beforeUnload = none) (hidle : (w.maybeUnload cfg o).1.Idle) :
    (w.maybeUnload cfg o).2 = true := by
  have hnone : ¬ (firstError o.beforeUnload).isSome = true := by
    rw [hagree]
    exact Bool.false_ne_true
  rcases w.maybeUnload_cases cfg o with hstay | ⟨_, _, _, heq⟩
  · -- it has changed nothing, so it was idle before, and had no reason to stay
    rw [hstay] at hidle
    have hunloads : w.connections.isEmpty = true ∧ w.storing = false ∧
        (w.dirty = true → cfg.unloadImmediately = true) :=
      ⟨hidle.empty, hidle.stored, fun hdirty => by
        rw [hidle.clean] at hdirty
        cases hdirty⟩
    rw [maybeUnload_eq, if_pos hunloads, if_neg hnone]
  · rw [heq, if_neg hnone]

/-- A join leaves somebody in the map. -/
theorem addConnection_occupied (w : World Y) (order : Reorder ConnHandle) (handle : ConnHandle) :
    ¬ (w.addConnection order handle).connections.isEmpty = true := by
  intro hempty
  have hnone := Keyed.isEmpty_iff.mp hempty handle.connId
  rw [addConnection_get?, if_pos rfl] at hnone
  cases hnone

end World

/-- A change leaves the document dirty. -/
theorem Edited.idle {now : Nat} {w w' : World Y} (h : Edited now w w') (hclean : w'.dirty = false)
    (hstored : w'.storing = false) :
    w.dirty = false ∧ w.storing = false ∧ w'.attempts = w.attempts := by
  rcases h with hsame | hmarked
  · have hdirty : w'.dirty = w.dirty := congrArg Book.dirty hsame
    have hstoring : w'.storing = w.storing := congrArg Book.storing hsame
    exact ⟨hdirty.symm.trans hclean, hstoring.symm.trans hstored, congrArg Book.attempts hsame⟩
  · have hdirty : w'.dirty = true := congrArg Book.dirty hmarked
    rw [hclean] at hdirty
    cases hdirty

/-- **A step that leaves an actor idle and resident**, where the hooks agree: it is
no `RemoveConnection`, and before it nothing was unsaved and no store was running. -/
theorem Actor.step_idle {cfg : Configuration} {a b : Actor Y} {l : Label}
    (hstep : a.step cfg l = some b) (hagrees : a.Agrees l) (hlive : b.phase.leaves = false)
    (hidle : b.world.Idle) :
    (∀ connId o, l ≠ .command (.removeConnection connId) o) ∧ a.world.dirty = false ∧
      a.world.storing = false ∧ (b.world.Touched → a.world.Touched) := by
  -- a step that asks the hooks would have left
  have hleaves : ∀ (stay : Phase) {leave : Phase} {o : Ambient} {w : World Y},
      a.unloadCall l = some (o, w) → b.world = (w.maybeUnload cfg o).1 →
      b.phase = Phase.after (w.maybeUnload cfg o).2 stay leave → leave.leaves = true → False := by
    intro stay leave o w hcall hworld hphase hleave
    rw [hworld] at hidle
    rw [hphase, World.maybeUnload_leaves (hagrees o w hcall) hidle] at hlive
    exact Bool.false_ne_true (hlive.symm.trans hleave)
  have hadded : (∀ handle ack o, l ≠ .command (.addConnection handle ack) o) →
      (∀ e, e = Debounce.Event.begun → e ∈ b.world.attempts → e ∈ a.world.attempts) →
      b.world.Touched → a.world.Touched := by
    rintro hplain hattempts (⟨handle, h⟩ | hbegun)
    · exact Or.inl ⟨handle, Actor.step_nobodyAdded hstep hplain handle h⟩
    · exact Or.inr (hattempts _ rfl hbegun)
  have hedited : ∀ {o : Ambient} {w : World Y}, Edited o.now (a.world.withSched o.sched) w →
      b.world.book = w.book → a.world.dirty = false ∧ a.world.storing = false ∧
        b.world.attempts = a.world.attempts := by
    intro o w h hbook
    have hchanged : Edited o.now (a.world.withSched o.sched) b.world := h.before hbook
    exact hchanged.idle hidle.clean hidle.stored
  cases Actor.step_cases hstep with
  | command cmd o n hphase =>
    cases cmd with
    | addConnection handle ack =>
      exact absurd hidle.empty (World.addConnection_occupied _ o.order handle)
    | removeConnection connId => exact (hleaves (.batch n) rfl rfl rfl rfl).elim
    | clientFrame connId data =>
      obtain ⟨hclean, hstored, hsame⟩ := hedited
        ((a.world.withSched o.sched).handleClientFrame_edited o connId data) rfl
      exact ⟨(fun _ _ h => by cases h), hclean, hstored,
        hadded (fun _ _ _ h => by cases h) fun e _ he => hsame ▸ he⟩
    | externalFrame data reply =>
      obtain ⟨hclean, hstored, hsame⟩ := hedited
        ((a.world.withSched o.sched).handleExternalFrame_edited o data reply) rfl
      exact ⟨(fun _ _ h => by cases h), hclean, hstored,
        hadded (fun _ _ _ h => by cases h) fun e _ he => hsame ▸ he⟩
    | directApply update ack =>
      obtain ⟨hclean, hstored, hsame⟩ := hedited
        ((a.world.withSched o.sched).applyAndBroadcast_edited o update .local)
        (World.emit_book _ rfl)
      exact ⟨(fun _ _ h => by cases h), hclean, hstored,
        hadded (fun _ _ _ h => by cases h) fun e _ he => hsame ▸ he⟩
  | flush sched phase hphase =>
    have hbook : (a.world.withSched sched).flushBroadcast.book = a.world.book :=
      (a.world.withSched sched).flushBroadcast_book
    refine ⟨(fun _ _ h => by cases h), ?_, ?_,
      hadded (fun _ _ _ h => by cases h) fun e _ he => ?_⟩
    · exact (congrArg Book.dirty hbook).symm.trans hidle.clean
    · exact (congrArg Book.storing hbook).symm.trans hidle.stored
    · have hsame : (a.world.withSched sched).flushBroadcast.attempts = a.world.attempts :=
        congrArg Book.attempts hbook
      exact hsame ▸ he
  | storeResult o ok rest hphase hresults =>
    have hcall : a.unloadCall (.storeResult o)
        = some (o, (a.world.withSched o.sched).takeResult o ok rest) := by
      rw [Actor.unloadCall, hresults]
    exact (hleaves .select hcall rfl rfl rfl).elim
  | deadline o hphase hdirty hstoring =>
    by_cases hempty : a.world.connections.isEmpty = true
    · have htick : (a.world.withSched o.sched).tick cfg o
          = ((a.world.withSched o.sched).runStore o.onStore).maybeUnload cfg o := if_pos hempty
      have hcall : a.unloadCall (.deadline o)
          = some (o, (a.world.withSched o.sched).runStore o.onStore) := if_pos hempty
      have hphase' := congrArg (fun r : World Y × Bool => Phase.after r.2 .select .stopped) htick
      exact (hleaves .select hcall (congrArg Prod.fst htick) hphase' rfl).elim
    · -- somebody is connected: the store runs
      have htick : (a.world.withSched o.sched).tick cfg o
          = ((a.world.withSched o.sched).spawnStore, false) := if_neg hempty
      have hstored : ((a.world.withSched o.sched).tick cfg o).1.storing = false := hidle.stored
      have hbook := World.spawnStore_book (w := a.world.withSched o.sched) hdirty hstoring
      have hruns : (a.world.withSched o.sched).spawnStore.storing = true :=
        congrArg Book.storing hbook
      rw [htick, hruns] at hstored
      cases hstored
  | mailboxClosed hphase => cases hlive
  | storeTask i results hi =>
    have hbook := World.finishStore_book results hi
    refine ⟨(fun _ _ h => by cases h), ?_, ?_,
      hadded (fun _ _ _ h => by cases h) fun e hbegun he => ?_⟩
    · exact (congrArg Book.dirty hbook).symm.trans hidle.clean
    · exact (congrArg Book.storing hbook).symm.trans hidle.stored
    · have hmore : (a.world.finishStore i results).attempts
          = a.world.attempts ++ [.ended (firstError results).isNone] := congrArg Book.attempts hbook
      rw [hmore] at he
      rcases List.mem_append.mp he with hold | hnew
      · exact hold
      · rw [List.mem_singleton.mp hnew] at hbegun
        cases hbegun
  | queues acts => exact ⟨(fun _ _ h => by cases h), hidle.clean, hidle.stored,
      hadded (fun _ _ _ h => by cases h) fun e _ he => he⟩

/-! ## What the fields of an actor say -/

/-- A store that is running has a task, or a report that waits. -/
def View.Running (v : View Y) : Prop :=
  v.content.storing = true → v.content.storeTasks ≠ [] ∨ v.content.storeResults ≠ []

/-- A change that was announced is unsaved, or a store was begun. -/
def View.Noted (v : View Y) : Prop :=
  ∀ update origin clients, .onChange update origin clients ∈ v.history →
    v.content.dirty = true ∨ ∃ state, .snapshot state ∈ v.history

/-- What begins a store gives it a task, and only its report ends it. -/
theorem View.Running.move {v v' : View Y} (h : Move v v') (hv : v.Running) : v'.Running := by
  cases h with
  | checked | failed | absorbed | changed | unloading | unloaded => exact hv
  | spawned => exact fun _ => Or.inl (List.append_ne_nil_of_right_ne_nil _ (List.cons_ne_nil _ _))
  | finished => exact fun _ => Or.inr (List.append_ne_nil_of_right_ne_nil _ (List.cons_ne_nil _ _))
  | reported ok rest now hresult => cases ok <;> exact fun h => by cases h
  | stored ok hdirty hstoring =>
    intro hruns
    cases ok <;> exact absurd (hstoring.symm.trans hruns) Bool.false_ne_true

theorem View.Noted.more {v v' : View Y} (hv : v.Noted) {k : List (Event Y)}
    (hhistory : v'.history = v.history ++ k)
    (hk : ∀ update origin clients, .onChange update origin clients ∉ k)
    (hdirty : v'.content.dirty = v.content.dirty ∨ ∃ state, .snapshot state ∈ k) : v'.Noted := by
  intro update origin clients hmem
  rw [hhistory] at hmem ⊢
  rcases List.mem_append.mp hmem with hold | hnew
  · rcases hdirty with hsame | ⟨state, hstate⟩
    · rw [hsame]
      rcases hv update origin clients hold with hstill | ⟨state, hstate⟩
      · exact Or.inl hstill
      · exact Or.inr ⟨state, List.mem_append_left _ hstate⟩
    · exact Or.inr ⟨state, List.mem_append_right _ hstate⟩
  · exact absurd hnew (hk update origin clients)

/-- A change marks the document, and only a store that has taken its state clears the
mark. -/
theorem View.Noted.move {v v' : View Y} (h : Move v v') (hv : v.Noted) : v'.Noted := by
  cases h with
  | checked | absorbed | unloading | unloaded =>
    exact hv.more rfl (fun _ _ _ hmem => by cases List.mem_singleton.mp hmem) (Or.inl rfl)
  | failed => exact hv
  | changed => exact fun _ _ _ _ => Or.inl rfl
  | spawned =>
    exact hv.more rfl (fun _ _ _ hmem => by cases List.mem_singleton.mp hmem)
      (Or.inr ⟨_, List.mem_singleton_self _⟩)
  | finished i state ok => exact hv.more rfl (fun _ _ _ hmem => by cases ok <;> simp at hmem) (Or.inl rfl)
  | reported ok rest now hresult =>
    cases ok with
    | true => exact hv
    | false => exact fun _ _ _ _ => Or.inl rfl
  | stored ok =>
    exact hv.more rfl (fun _ _ _ hmem => by cases ok <;> simp at hmem)
      (Or.inr ⟨_, List.mem_cons_self ..⟩)

theorem World.begun_of_snapshot {w : World Y} {state : Bytes} (h : .snapshot state ∈ w.history) :
    .begun ∈ w.attempts :=
  List.mem_filterMap.mpr ⟨_, (List.mem_filter.mp h).1, rfl⟩

end Hocuspocus
