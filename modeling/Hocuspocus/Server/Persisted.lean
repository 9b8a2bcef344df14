import Hocuspocus.Document.Growth
import Hocuspocus.Server.Registry

/-!
# A server with a database

The server of `Server/State.lean` with its one extension, a `Database`. `rows`
lists what the storage has held under a name; a store replaces the row, so the
last one is the row there is. A call that loads a name gets the answer of
`Storage::fetch` first; `Document::spawn` runs the load hooks on it, logs their
errors and spawns the actor on whatever document there is then.

A row that could not be read, decoded or applied is therefore overwritten by what
is edited next. `Faithful` excludes this and two actors of one name; then the rows
grow. Every live actor is ahead of the rows of its name (`Safe`), and an actor
that has left stores nothing.
-/

namespace Hocuspocus

variable {Y : Yrs}

/-- The server, its storage, and what `Storage::fetch` has answered to the calls
that load. -/
structure Persisted (Y : Yrs) where
  server : Server Y
  rows : String → List Bytes
  fetched : Server.Task → Option Fetched

namespace Server

/-- The name a task loads: its call is in `Document::spawn`. -/
def spawning (s : Server Y) (τ : Task) : Option String :=
  match s.call τ with
  | some (name, .spawn _) => some name
  | _ => none

/-- The task goes on with its call; a load finds `doc`. -/
def resume (doc : Y.Doc) (queues : Queues) : Task → Label Y
  | .inl i => .register i doc queues
  | .inr k => .direct k doc queues

/-- The states accepted under the name in a step. -/
def accepted (s t : Server Y) (name : String) : Label Y → List Bytes
  | .command j _ | .actor j _ =>
    match s.actors[j]?, t.actors[j]? with
    | some a, some b => if a.actor.world.name = name then a.actor.accepted b.actor else []
    | _, _ => []
  | _ => []

end Server

namespace Persisted

/-- The row of a name. -/
def row (p : Persisted Y) (name : String) : Option Bytes := (p.rows name).getLast?

/-- A server that has just been built, over a storage with some rows. -/
def build (rows : String → Option Bytes) : Persisted Y :=
  ⟨Server.build Y, fun name => (rows name).toList, fun _ => none⟩

inductive Label (Y : Yrs)
  /-- `Storage::fetch` answers a call that loads. -/
  | fetch (τ : Server.Task) (answer : Fetched)
  /-- The load hooks have run, and the actor is spawned. -/
  | load (τ : Server.Task) (queues : Queues)
  /-- Any other step of the server. -/
  | other (l : Server.Label Y)

def step (cfg : Configuration) (p : Persisted Y) : Label Y → Option (Persisted Y)
  | .fetch τ answer =>
    if (p.server.spawning τ).isSome && (p.fetched τ).isNone then
      some { p with fetched := Function.update p.fetched τ (some answer) }
    else none
  | .load τ queues =>
    match p.server.spawning τ, p.fetched τ with
    | some _, some answer =>
      (p.server.step cfg (Server.resume (Database.load answer) queues τ)).map fun t =>
        { p with server := t, fetched := Function.update p.fetched τ none }
    | _, _ => none
  | .other l =>
    if (l.task.bind p.server.spawning).isSome then none
    else (p.server.step cfg l).map fun t =>
      { p with server := t, rows := fun name => p.rows name ++ p.server.accepted t name l }

/-- A load of a name that has a row reads it, and the row decodes and applies; the
steps of the server are orderly. -/
structure Faithful (p : Persisted Y) (l : Label Y) : Prop where
  reads : ∀ τ answer name state, l = .fetch τ answer → p.server.spawning τ = some name →
    p.row name = some state → answer = .ok (some state) ∧
      ∃ update, Y.decodeUpdate state = some update ∧ (Y.applyUpdate Y.newDoc update).2 = true
  orderly : ∀ sl, l = .other sl → p.server.Orderly sl

end Persisted

/-! ## Steps of an actor that stores -/

namespace Spawned

/-- An actor that has left begins and ends no store. -/
theorem Left.idle {cfg : Configuration} {a : Spawned Y} {b : Actor Y} {l : Label} (h : a.Left)
    (htasks : a.actor.world.storeTasks = []) (hstep : a.actor.step cfg l = some b) :
    b.world.storeTasks = [] ∧ a.actor.accepted b = [] := by
  have hselect : a.actor.phase ≠ .select := by
    intro hphase
    rcases h with h | h <;> rw [h] at hphase <;> cases hphase
  have hsame : b.world.history = a.actor.world.history → a.actor.accepted b = [] := by
    intro hhistory
    have haccepted := Actor.accepted_eq hstep
    rw [hhistory] at haccepted
    exact List.self_eq_append_right.mp haccepted
  cases Actor.step_cases hstep with
  | command cmd o n hphase => rcases h with h | h <;> rw [h] at hphase <;> cases hphase
  | flush sched phase hphase =>
    have hview := (World.flushBroadcast_flushes (a.actor.world.withSched sched)).view
    refine ⟨?_, hsame (congrArg View.history hview)⟩
    exact (congrArg (fun v => v.content.storeTasks) hview).trans htasks
  | storeResult o ok rest hphase hresults => exact absurd hphase hselect
  | deadline o hphase hdirty hstoring => exact absurd hphase hselect
  | mailboxClosed hphase => exact absurd hphase hselect
  | storeTask i results hi =>
    rw [htasks] at hi
    cases hi
  | queues acts => exact ⟨htasks, hsame rfl⟩

end Spawned

/-! ## Steps of the server -/

namespace Server

theorem spawning_iff {s : Server Y} {τ : Task} {name : String} :
    s.spawning τ = some name ↔ ∃ k, s.call τ = some (name, .spawn k) := by
  unfold spawning
  constructor
  · intro h
    split at h
    next k hcall =>
      cases h
      exact ⟨k, hcall⟩
    next => cases h
  · rintro ⟨k, hcall⟩
    rw [hcall]

/-- A load goes on until its task does. -/
theorem step_spawning {s t : Server Y} {cfg : Configuration} {l : Label Y}
    (h : Server.step cfg s l = some t) {τ : Task} (htask : l.task ≠ some τ) {name : String}
    (hspawning : s.spawning τ = some name) : t.spawning τ = some name := by
  obtain ⟨k, hcall⟩ := spawning_iff.mp hspawning
  refine spawning_iff.mpr ⟨k, ?_⟩
  have hbegins : s.Begins t → t.call τ = some (name, .spawn k) := by
    intro hcalls
    rcases hcalls τ with hsame | ⟨hnone, _⟩
    · exact hsame.trans hcall
    · rw [hnone] at hcall
      cases hcall
  cases registry_cases h with
  | quiet hdocuments hlocks hcalls => exact hbegins hcalls
  | removes name hdocuments hlocks hcalls => exact hbegins hcalls
  | calls τ' name' c doc queues u next htask' hcall' hstep hdocuments hlocks hactors hcalls =>
    have hne : τ ≠ τ' := fun heq => htask (heq ▸ htask')
    rw [hcalls, if_neg hne]
    exact hcall

/-- Only a load spawns an actor. -/
theorem step_length {s t : Server Y} {cfg : Configuration} {l : Label Y}
    (h : Server.step cfg s l = some t) (hload : l.task.bind s.spawning = none) :
    t.actors.length = s.actors.length := by
  cases registry_cases h with
  | quiet hdocuments hlocks hcalls hlength => exact hlength
  | removes name hdocuments hlocks hcalls hlength => exact hlength
  | calls τ name c doc queues u next htask hcall hstep hdocuments hlocks hactors hcalls =>
    rw [hactors]
    cases documentStep_cases hstep with
    | spawns k =>
      rw [htask, Option.bind_some, spawning_iff.mpr ⟨k, hcall⟩] at hload
      cases hload
    | found | missing | joins | creates | locks | late | loads | inserts | forgets => rfl

theorem unloading_actor {s : Server Y} {k : Nat} {a : Spawned Y} (ha : s.actors[k]? = some a)
    (b : Spawned Y) (unloaded : Bool) (name : String) :
    ((s.setActor k b).unloading unloaded name).actors[k]? = some b := by
  rw [(unloading_parts _ _ _).1]
  exact (getElem?_set_of_some ha b k).trans (if_pos rfl)

/-- What a step that is no load does to the actors: nothing to any of them but
one, which has accepted what is accepted. -/
inductive StoreStep (cfg : Configuration) (s t : Server Y) (l : Label Y) : Prop
  | quiet (hactors : ∀ (j : Nat) (b : Spawned Y), t.actors[j]? = some b →
      ∃ a, s.actors[j]? = some a ∧ b.actor = a.actor)
    (haccepted : ∀ name, s.accepted t name l = [])
  | acts (k : Nat) (a b : Spawned Y) (al : Hocuspocus.Label) (ha : s.actors[k]? = some a)
    (hb : t.actors[k]? = some b) (hstep : a.actor.step cfg al = some b.actor)
    (hclosed : al = .mailboxClosed → s.hasSender k a = false)
    (hothers : ∀ (j : Nat) (b' : Spawned Y), j ≠ k → t.actors[j]? = some b' →
      ∃ a', s.actors[j]? = some a' ∧ b'.actor = a'.actor)
    (haccepted : ∀ name, s.accepted t name l
      = if a.actor.world.name = name then a.actor.accepted b.actor else [])

theorem store_cases {s t : Server Y} {cfg : Configuration} {l : Label Y}
    (h : Server.step cfg s l = some t) (hload : l.task.bind s.spawning = none) :
    StoreStep cfg s t l := by
  have hlength := step_length h hload
  -- an actor that takes no step of its own stays as it is
  have hwas : ∀ (j : Nat) (b : Spawned Y), t.actors[j]? = some b →
      (∀ o, l ≠ .command j o) → (∀ al, l ≠ .actor j al) →
      ∃ a, s.actors[j]? = some a ∧ b.actor = a.actor := by
    intro j b hb hcommand hactor
    obtain ⟨hlt, _⟩ := List.getElem?_eq_some_iff.mp hb
    have ha : s.actors[j]? = some s.actors[j] := List.getElem?_eq_getElem (hlength ▸ hlt)
    obtain ⟨b', hb', hturn⟩ := step_turn h ha
    obtain rfl : b' = b := Option.some.inj (hb'.symm.trans hb)
    refine ⟨_, ha, ?_⟩
    cases hturn with
    | told | recv | drop => rfl
    | command o => exact absurd rfl (hcommand o)
    | actor al => exact absurd rfl (hactor al)
  have hothers : ∀ k, (∃ o, l = .command k o) ∨ (∃ al, l = .actor k al) →
      ∀ (j : Nat) (b : Spawned Y), j ≠ k → t.actors[j]? = some b →
        ∃ a, s.actors[j]? = some a ∧ b.actor = a.actor := by
    rintro k hlabel j b hne hb
    refine hwas j b hb (fun o ho => hne ?_) (fun al hal => hne ?_)
    · rcases hlabel with ⟨o', rfl⟩ | ⟨al', rfl⟩ <;> cases ho
      rfl
    · rcases hlabel with ⟨o', rfl⟩ | ⟨al', rfl⟩ <;> cases hal
      rfl
  cases l with
  | command k o =>
    cases step_cases h with
    | command _ _ a cmd batch b ha hbatch hstep =>
      refine .acts k a _ _ ha (unloading_actor ha _ _ _) hstep (fun hl => by cases hl)
        (hothers k (Or.inl ⟨o, rfl⟩)) fun name => ?_
      rw [accepted, ha, unloading_actor ha]
  | actor k al =>
    cases step_cases h with
    | actor _ _ a b ha hplain hclosed hstep =>
      refine .acts k a { a with actor := b } al ha (unloading_actor ha _ _ _) hstep
        (fun hl => (hclosed hl).2.2) (hothers k (Or.inr ⟨al, rfl⟩)) fun name => ?_
      rw [accepted, ha, unloading_actor ha]
  | _ =>
    refine .quiet (fun j b hb => hwas j b hb ?_ ?_) fun name => rfl
    · intro o ho
      cases ho
    · intro al hal
      cases hal

/-- The registry, or a task that inserts it, has a sender of a live actor. -/
theorem Exclusive.hasSender {s : Server Y} (hs : s.Exclusive) {j : Nat} {a : Spawned Y}
    (ha : s.actors[j]? = some a) (hlive : a.Live) : s.hasSender j a = true := by
  unfold Server.hasSender
  rw [Bool.or_eq_true, Bool.or_eq_true]
  rcases hs.live j a ha hlive with hentry | ⟨τ, k, hcall⟩
  · exact Or.inl (Or.inl (decide_eq_true hentry))
  · cases τ with
    | inl i =>
      obtain ⟨sock, hsock, hcalled⟩ := Option.bind_eq_some_iff.mp hcall
      obtain ⟨r, htask, hstage, _⟩ := Socket.call_spec hcalled
      refine Or.inl (Or.inr (List.any_eq_true.mpr ⟨sock, List.mem_of_getElem? hsock, ?_⟩))
      rw [Socket.holds, htask]
      dsimp only
      rw [hstage, Bool.or_eq_true]
      exact Or.inr (decide_eq_true rfl)
    | inr m =>
      obtain ⟨e, he, hcalled⟩ := Option.bind_eq_some_iff.mp hcall
      obtain ⟨hreturned, hstage, _⟩ := DirectApply.call_spec hcalled
      refine Or.inr (List.any_eq_true.mpr ⟨e, List.mem_of_getElem? he, ?_⟩)
      rw [hreturned, hstage, Bool.and_eq_true]
      exact ⟨rfl, decide_eq_true rfl⟩

theorem resume_task (doc : Y.Doc) (queues : Queues) (τ : Task) :
    (resume doc queues τ).task = some τ := by
  cases τ <;> rfl

/-- A step of a load is orderly. -/
theorem resume_orderly {s : Server Y} {τ : Task} {name : String}
    (hspawning : s.spawning τ = some name) (doc : Y.Doc) (queues : Queues) :
    s.Orderly (resume doc queues τ) := by
  obtain ⟨k, hcall⟩ := spawning_iff.mp hspawning
  have htask := resume_task doc queues τ
  refine ⟨fun τ' n k' htask' hcall' => ?_, fun i sock r htask' hsock hregisters hfails => ?_⟩
  · obtain rfl := Option.some.inj (htask.symm.trans htask')
    rw [hcall] at hcall'
    cases hcall'
  · obtain rfl := Option.some.inj (htask.symm.trans htask')
    rw [call, hsock] at hcall
    obtain ⟨r', hregisters', hstage, _⟩ := Socket.call_spec hcall
    rw [hregisters] at hregisters'
    cases hregisters'
    rw [Fails, hstage] at hfails
    cases hfails

/-- A load spawns the actor. -/
theorem resume_actors {s t : Server Y} {cfg : Configuration} {τ : Task} {name : String}
    (hspawning : s.spawning τ = some name) {doc : Y.Doc} {queues : Queues}
    (h : Server.step cfg s (resume doc queues τ) = some t) :
    t.actors = s.actors ++ [born name doc queues] := by
  obtain ⟨k, hcall⟩ := spawning_iff.mp hspawning
  have hspawned : ∀ {u : Server Y} {n : String} {c : DocumentCall} {next : DocumentCall ⊕ Nat},
      n = name → c = .spawn k → s.documentStep n doc queues c = some (u, next) →
      u.actors = s.actors ++ [born name doc queues] := by
    rintro u n c next rfl rfl hstep
    cases hstep
    rfl
  cases τ with
  | inl i =>
    have h' : Server.step cfg s (.register i doc queues) = some t := h
    cases step_cases h' with
    | register _ _ _ sock r _ hsock htask hregister =>
      rw [call, hsock] at hcall
      obtain ⟨r', htask', hstage, hname⟩ := Socket.call_spec hcall
      rw [htask] at htask'
      cases htask'
      cases registerStep_cases hregister with
      | calls c next u hstage' hstep | finds c next u hstage' hstep =>
        rw [hstage] at hstage'
        cases hstage'
        have hactors := hspawned hname rfl hstep
        exact hactors
      | sends _ hstage' | refused _ hstage' | acked _ _ hstage' | lost _ _ hstage' =>
        rw [hstage] at hstage'
        cases hstage'
  | inr m =>
    have h' : Server.step cfg s (.direct m doc queues) = some t := h
    cases step_cases h' with
    | direct _ _ _ e _ he hdirect =>
      rw [call, he] at hcall
      obtain ⟨_, hstage, hname⟩ := DirectApply.call_spec hcall
      cases directStep_cases hdirect with
      | calls c next u _ hstage' hstep | finds c next u _ hstage' hstep =>
        rw [hstage] at hstage'
        cases hstage'
        have hactors := hspawned hname rfl hstep
        exact hactors
      | sends _ _ _ hstage' | answered _ _ _ _ hstage' =>
        rw [hstage] at hstage'
        cases hstage'

end Server

/-! ## The invariant -/

namespace Persisted

section

variable {L : Type} [SemilatticeSup L] [OrderBot L] (C : Y.Crdt L)

/-- The rows grow, and who may store or load is ahead of them. -/
structure Safe (p : Persisted Y) : Prop where
  exclusive : p.server.Exclusive
  growing : ∀ name, Growing C (p.rows name)
  live : ∀ (j : Nat) (a : Spawned Y), p.server.actors[j]? = some a → a.Live →
    Ahead C (p.rows a.actor.world.name) a.actor.world.view
  left : ∀ (j : Nat) (a : Spawned Y), p.server.actors[j]? = some a → a.Left →
    a.actor.world.storeTasks = []
  fetched : ∀ τ answer, p.fetched τ = some answer → ∃ name, p.server.spawning τ = some name ∧
    Covers C (C.held (Database.load answer)) (p.rows name)

variable {C}

/-- While a task loads a name, no actor of it is live. -/
theorem Safe.not_live {p : Persisted Y} (hp : Safe C p) {τ : Server.Task} {name : String}
    (hspawning : p.server.spawning τ = some name) {j : Nat} {a : Spawned Y}
    (ha : p.server.actors[j]? = some a) (hlive : a.Live) : name ≠ a.actor.world.name := by
  rintro rfl
  obtain ⟨k, hcall⟩ := Server.spawning_iff.mp hspawning
  rcases hp.exclusive.live j a ha hlive with hentry | ⟨τ', k', hcall'⟩
  · rw [hp.exclusive.absent τ _ _ hcall rfl] at hentry
    cases hentry
  · obtain rfl := hp.exclusive.loading τ τ' _ _ _ hcall hcall' rfl rfl
    rw [hcall] at hcall'
    cases hcall'

/-- What was fetched faithfully covers the rows. -/
theorem Safe.fetch {p : Persisted Y} (hp : Safe C p) {τ : Server.Task} {answer : Fetched}
    (hfaithful : p.Faithful (.fetch τ answer)) {name : String}
    (hspawning : p.server.spawning τ = some name) :
    Covers C (C.held (Database.load answer)) (p.rows name) := by
  cases hrow : p.row name with
  | none =>
    have hnone : p.rows name = [] := List.getLast?_eq_none_iff.mp hrow
    rw [hnone]
    intro row hmem
    cases hmem
  | some state =>
    obtain ⟨rfl, update, hdecode, happly⟩ :=
      hfaithful.reads τ answer name state rfl hspawning hrow
    have hload : Database.onLoadDocument (.ok (some state)) Y.newDoc
        = ((Y.applyUpdate Y.newDoc update).1, .ok ()) := by
      rw [Database.onLoadDocument]
      dsimp only
      rw [hdecode]
      dsimp only
      rw [happly]
      rfl
    obtain ⟨row, hfetched, hheld⟩ := C.held_load hload
    cases hfetched
    -- the document is the last row, and the last row contains the others
    rw [Database.load_eq, hload, hheld]
    exact (hp.growing name).covers hrow

/-- The actor of a load is ahead of the rows. -/
theorem Safe.load {p : Persisted Y} (hp : Safe C p) {cfg : Configuration} {τ : Server.Task}
    {name : String} {answer : Fetched} {queues : Queues} {t : Server Y}
    (hspawning : p.server.spawning τ = some name) (hfetched : p.fetched τ = some answer)
    (h : p.server.step cfg (Server.resume (Database.load answer) queues τ) = some t) :
    Safe C { p with server := t, fetched := Function.update p.fetched τ none } := by
  have hactors := Server.resume_actors hspawning h
  have hnew : ∀ (j : Nat) (b : Spawned Y), t.actors[j]? = some b →
      p.server.actors[j]? = some b ∨ b = Server.born name (Database.load answer) queues := by
    intro j b hb
    rw [hactors] at hb
    rcases Server.getElem?_snoc hb with hold | ⟨_, rfl⟩
    · exact Or.inl hold
    · exact Or.inr rfl
  refine ⟨hp.exclusive.step h (Server.resume_orderly hspawning _ _), hp.growing,
    fun j b hb hlive => ?_, fun j b hb hleft => ?_, fun τ' answer' hanswer => ?_⟩
  · rcases hnew j b hb with hold | rfl
    · exact hp.live j b hold hlive
    · obtain ⟨name', hspawning', hcovers⟩ := hp.fetched τ answer hfetched
      obtain rfl := Option.some.inj (hspawning.symm.trans hspawning')
      exact Ahead.spawn (hp.growing name) hcovers
  · rcases hnew j b hb with hold | rfl
    · exact hp.left j b hold hleft
    · rfl
  · have hupdated : Function.update p.fetched τ none τ' = some answer' := hanswer
    have hne : τ' ≠ τ := by
      rintro rfl
      rw [Function.update_self] at hupdated
      cases hupdated
    rw [Function.update_of_ne hne] at hupdated
    obtain ⟨name', hspawning', hcovers⟩ := hp.fetched τ' answer' hupdated
    refine ⟨name', Server.step_spawning h (fun heq => hne ?_) hspawning', hcovers⟩
    exact Option.some.inj (heq.symm.trans (Server.resume_task _ _ τ))

/-- The server goes on, and the rows of a name that is being loaded stay. -/
theorem Safe.next {p : Persisted Y} (hp : Safe C p) {cfg : Configuration} {l : Server.Label Y}
    {t : Server Y} (h : p.server.step cfg l = some t) (hload : l.task.bind p.server.spawning = none)
    (horderly : p.server.Orderly l) {rows : String → List Bytes}
    (hgrowing : ∀ name, Growing C (rows name))
    (hloading : ∀ τ name, p.server.spawning τ = some name → rows name = p.rows name)
    (hlive : ∀ (j : Nat) (b : Spawned Y), t.actors[j]? = some b → b.Live →
      Ahead C (rows b.actor.world.name) b.actor.world.view)
    (hleft : ∀ (j : Nat) (b : Spawned Y), t.actors[j]? = some b → b.Left →
      b.actor.world.storeTasks = []) :
    Safe C { p with server := t, rows := rows } := by
  refine ⟨hp.exclusive.step h horderly, hgrowing, hlive, hleft, fun τ answer hanswer => ?_⟩
  obtain ⟨name, hspawning, hcovers⟩ := hp.fetched τ answer hanswer
  have htask : l.task ≠ some τ := by
    intro heq
    rw [heq, Option.bind_some, hspawning] at hload
    cases hload
  refine ⟨name, Server.step_spawning h htask hspawning, ?_⟩
  show Covers C _ (rows name)
  rw [hloading τ name hspawning]
  exact hcovers

/-- Nothing is accepted, and every actor does what it did, or has left. -/
theorem Safe.still {p : Persisted Y} (hp : Safe C p) {cfg : Configuration} {l : Server.Label Y}
    {t : Server Y} (h : p.server.step cfg l = some t) (hload : l.task.bind p.server.spawning = none)
    (horderly : p.server.Orderly l)
    (hactors : ∀ (j : Nat) (b : Spawned Y), t.actors[j]? = some b →
      (∃ a, p.server.actors[j]? = some a ∧ b.actor = a.actor) ∨
        b.Left ∧ b.actor.world.storeTasks = []) :
    Safe C { p with server := t } := by
  refine hp.next h hload horderly hp.growing (fun _ _ _ => rfl) (fun j b hb hlive => ?_)
    fun j b hb hleft => ?_
  · rcases hactors j b hb with ⟨a, ha, hsame⟩ | ⟨hleft, _⟩
    · rw [Spawned.Live, Spawned.Left, hsame] at hlive
      rw [hsame]
      exact hp.live j a ha hlive
    · exact absurd hleft hlive
  · rcases hactors j b hb with ⟨a, ha, hsame⟩ | ⟨_, htasks⟩
    · rw [Spawned.Left, hsame] at hleft
      rw [hsame]
      exact hp.left j a ha hleft
    · exact htasks

/-- A live actor takes a turn: what it has accepted are rows of its name. -/
theorem Safe.turn {p : Persisted Y} (hp : Safe C p) {cfg : Configuration} {l : Server.Label Y}
    {t : Server Y} (h : p.server.step cfg l = some t) (hload : l.task.bind p.server.spawning = none)
    (horderly : p.server.Orderly l) {k : Nat} {a b : Spawned Y} {al : Hocuspocus.Label}
    (ha : p.server.actors[k]? = some a) (hlive : a.Live) (hb : t.actors[k]? = some b)
    (hstep : a.actor.step cfg al = some b.actor)
    (hclosed : al = .mailboxClosed → p.server.hasSender k a = false)
    (hothers : ∀ (j : Nat) (b' : Spawned Y), j ≠ k → t.actors[j]? = some b' →
      ∃ a', p.server.actors[j]? = some a' ∧ b'.actor = a'.actor) :
    Safe C { p with
      server := t
      rows := fun name => p.rows name ++
        if a.actor.world.name = name then a.actor.accepted b.actor else [] } := by
  have hahead := (hp.live k a ha hlive).step hstep
  have hname := Actor.step_name hstep
  have hother : ∀ name, a.actor.world.name ≠ name → (p.rows name ++
      if a.actor.world.name = name then a.actor.accepted b.actor else []) = p.rows name := by
    intro name hne
    rw [if_neg hne, List.append_nil]
  refine hp.next h hload horderly (fun name => ?_) (fun τ name hspawning => ?_)
    (fun j b' hb' hlive' => ?_) fun j b' hb' hleft' => ?_
  · by_cases hn : a.actor.world.name = name
    · subst hn
      rw [if_pos rfl]
      exact hahead.growing
    · rw [hother name hn]
      exact hp.growing name
  · exact hother name (hp.not_live hspawning ha hlive).symm
  · by_cases hj : j = k
    · subst hj
      obtain rfl : b = b' := Option.some.inj (hb.symm.trans hb')
      rw [if_pos hname.symm, hname]
      exact hahead
    · obtain ⟨a', ha', hsame⟩ := hothers j b' hj hb'
      rw [Spawned.Live, Spawned.Left, hsame] at hlive'
      -- an actor that is live as well has another name
      have hne : a.actor.world.name ≠ a'.actor.world.name := fun heq =>
        hj (hp.exclusive.one ha' ha hlive' hlive heq.symm)
      rw [hsame, hother _ hne]
      exact hp.live j a' ha' hlive'
  · by_cases hj : j = k
    · subst hj
      obtain rfl : b = b' := Option.some.inj (hb.symm.trans hb')
      -- somebody has its sender, so it has unloaded, which it does only while it is not storing
      rcases Spawned.left_cases hstep hleft' with hwas | hexit | hmailbox
      · exact absurd hwas hlive
      · obtain ⟨o, w, hcall, hagreed⟩ := Actor.unloadedBy_unloads hstep hexit
        have hidle := World.maybeUnload_idle hagreed
        rw [← Actor.unloadCall_world hstep hcall] at hidle
        exact hahead.settled.no_task hidle
      · have hsender := hp.exclusive.hasSender ha hlive
        rw [hclosed hmailbox] at hsender
        cases hsender
    · obtain ⟨a', ha', hsame⟩ := hothers j b' hj hb'
      rw [Spawned.Left, hsame] at hleft'
      rw [hsame]
      exact hp.left j a' ha' hleft'

/-- Any other step. -/
theorem Safe.other {p : Persisted Y} (hp : Safe C p) {cfg : Configuration} {l : Server.Label Y}
    {t : Server Y} (h : p.server.step cfg l = some t) (hload : l.task.bind p.server.spawning = none)
    (horderly : p.server.Orderly l) :
    Safe C { p with
      server := t
      rows := fun name => p.rows name ++ p.server.accepted t name l } := by
  have hsame : (∀ name, p.server.accepted t name l = []) →
      (fun name => p.rows name ++ p.server.accepted t name l) = p.rows := by
    intro hnone
    funext name
    rw [hnone, List.append_nil]
  cases Server.store_cases h hload with
  | quiet hactors haccepted =>
    rw [hsame haccepted]
    exact hp.still h hload horderly fun j b hb => Or.inl (hactors j b hb)
  | acts k a b al ha hb hstep hclosed hothers haccepted =>
    by_cases hleft : a.Left
    · obtain ⟨htasks, hnone⟩ := hleft.idle (hp.left k a ha hleft) hstep
      have hnothing : ∀ name, p.server.accepted t name l = [] := by
        intro name
        rw [haccepted, hnone, ite_self]
      rw [hsame hnothing]
      refine hp.still h hload horderly fun j b' hb' => ?_
      by_cases hj : j = k
      · subst hj
        obtain rfl : b = b' := Option.some.inj (hb.symm.trans hb')
        refine Or.inr ⟨?_, htasks⟩
        rcases (hleft.step hstep).1 with hphase | hphase
        · rw [Spawned.Left, hphase]
          exact hleft
        · exact Or.inr hphase
      · exact Or.inl (hothers j b' hj hb')
    · simp only [haccepted]
      exact hp.turn h hload horderly ha hleft hb hstep hclosed hothers

/-- **The step lemma.** -/
theorem Safe.step {p q : Persisted Y} (hp : Safe C p) {cfg : Configuration} {l : Label Y}
    (h : p.step cfg l = some q) (hfaithful : p.Faithful l) : Safe C q := by
  cases l with
  | fetch τ answer =>
    rw [Persisted.step] at h
    split at h
    next hloads =>
      cases h
      obtain ⟨name, hspawning⟩ := Option.isSome_iff_exists.mp (Bool.and_eq_true_iff.mp hloads).1
      refine ⟨hp.exclusive, hp.growing, hp.live, hp.left, fun τ' answer' hanswer => ?_⟩
      have hupdated : Function.update p.fetched τ (some answer) τ' = some answer' := hanswer
      by_cases hτ : τ' = τ
      · subst hτ
        rw [Function.update_self] at hupdated
        cases hupdated
        exact ⟨name, hspawning, hp.fetch hfaithful hspawning⟩
      · rw [Function.update_of_ne hτ] at hupdated
        exact hp.fetched τ' answer' hupdated
    next => cases h
  | load τ queues =>
    rw [Persisted.step] at h
    split at h
    next name answer hspawning hfetched =>
      obtain ⟨t, hstep, rfl⟩ := Option.map_eq_some_iff.mp h
      exact hp.load hspawning hfetched hstep
    next => cases h
  | other sl =>
    rw [Persisted.step] at h
    split at h
    next => cases h
    next hload =>
      obtain ⟨t, hstep, rfl⟩ := Option.map_eq_some_iff.mp h
      exact hp.other hstep (Option.not_isSome_iff_eq_none.mp hload) (hfaithful.orderly sl rfl)

theorem build_safe (rows : String → Option Bytes) : Safe C (build rows : Persisted Y) where
  exclusive := Server.build_exclusive Y
  growing name := by
    show Growing C (rows name).toList
    cases rows name with
    | none => exact List.Pairwise.nil
    | some state => exact List.pairwise_singleton _ state
  live j a ha := by cases ha
  left j a ha := by cases ha
  fetched τ answer hanswer := by cases hanswer

end

end Persisted

/-- **Persisted content never shrinks**: in every state of a run whose loads are
faithful and whose steps are orderly, a state stored under a name contains those
stored under it before. -/
theorem persisted_content_grows {L : Type} [SemilatticeSup L] [OrderBot L] (C : Y.Crdt L)
    {cfg : Configuration} {rows : String → Option Bytes} {ls : List (Persisted.Label Y)}
    {p : Persisted Y}
    (hrun : Lts.exec (Persisted.step cfg) (Persisted.build rows) ls = some p)
    (hfaithful : Lts.Along (Persisted.step cfg) (fun p l _ => p.Faithful l)
      (Persisted.build rows) ls) (name : String) : Growing C (p.rows name) := by
  have hend : p.Safe C := Lts.exec_invariant_along (I := fun q : Persisted Y => q.Safe C)
    (fun _ _ _ hstep hc hq => hq.step hstep hc) hfaithful hrun (Persisted.build_safe rows)
  exact hend.growing name

namespace Persisted

open OneWriter

def others (ls : List (Server.Label yrs)) : List (Label yrs) := ls.map .other

/-- A socket is registered with a document that was not resident. -/
def joins (i j : Nat) (answer : Fetched) : List (Label yrs) :=
  others (authenticates i "doc" ++ registers i 4) ++
    [.fetch (.inl i) answer, .load (.inl i) (queues 16)] ++
    others (registers i 3 ++ handles j ++ registers i 1)

/-- It edits the document. -/
def edits (i j clock : Nat) : List (Label yrs) :=
  others (.receive i (editFrame clock) 0 :: handles j)

/-- It hangs up; the actor has nobody left, stores and unloads. -/
def parts (i j : Nat) : List (Label yrs) :=
  others [.hangup i, .leave i "doc", .clean i, .recv j,
    .command j { onStoreUnload := [.ok ()] }, .actor j (.flush []), .drop j]

/-- Where the labels lead from a storage with these rows. -/
def keep (rows : String → Option Bytes) (ls : List (Label yrs)) : Persisted yrs :=
  Lts.reach (Persisted.step {}) (Persisted.build rows) ls

/-- Steps are orderly, and loads read the row. -/
def readsRow (p : Persisted yrs) : Label yrs → Bool
  | .fetch τ answer =>
    match p.server.spawning τ with
    | none => true
    | some name =>
      match p.row name, answer with
      | none, _ => true
      | some state, .ok (some found) => decide (found = state) && (yrs.decodeUpdate state).isSome
      | some _, _ => false
  | .load _ _ => true
  | .other l => p.server.orderly l

theorem readsRow_faithful {p : Persisted yrs} {l : Label yrs} (h : readsRow p l = true) :
    p.Faithful l := by
  refine ⟨fun τ answer name state hl hspawning hrow => ?_, fun sl hl => ?_⟩
  · rw [hl, readsRow, hspawning] at h
    dsimp only at h
    rw [hrow] at h
    split at h
    next hnone => cases hnone
    next state' found hsome =>
      obtain ⟨hfound, hdecode⟩ := Bool.and_eq_true_iff.mp h
      obtain ⟨update, hupdate⟩ := Option.isSome_iff_exists.mp hdecode
      cases hsome
      rw [of_decide_eq_true hfound]
      exact ⟨rfl, update, hupdate, rfl⟩
    next => cases h
  · rw [hl, readsRow] at h
    exact Server.orderly_sound h

end Persisted

open OneWriter in
/-- A client edits a document that had a row. -/
theorem persisted_content_grows_edit :
    (Persisted.keep (fun _ => some (edit 0)) (.other (.connect 0) ::
      (Persisted.joins 0 0 (.ok (some (edit 0))) ++ Persisted.edits 0 0 1 ++
        Persisted.parts 0 0))).rows "doc" = [edit 0, encodeUpdate ⟨[0, 1], []⟩] ∧
    Growing crdt ((Persisted.keep (fun _ => some (edit 0)) (.other (.connect 0) ::
      (Persisted.joins 0 0 (.ok (some (edit 0))) ++ Persisted.edits 0 0 1 ++
        Persisted.parts 0 0))).rows "doc") := by
  have hcheck : Lts.check (Persisted.step {}) Persisted.readsRow
      (Persisted.build fun _ => some (edit 0)) (.other (.connect 0) ::
        (Persisted.joins 0 0 (.ok (some (edit 0))) ++ Persisted.edits 0 0 1 ++
          Persisted.parts 0 0)) = true := by
    decide +kernel
  refine ⟨by decide +kernel, ?_⟩
  exact persisted_content_grows crdt (Lts.exec_reach (by decide +kernel))
    (Lts.along_of_check (fun _ _ _ => Persisted.readsRow_faithful) hcheck) "doc"

/-- A client edits a document and leaves; the next load answers `answer`, and
another client edits. -/
def overwritten (answer : Fetched) : List (Persisted.Label OneWriter.yrs) :=
  Persisted.others [.connect 0, .connect 0] ++ (Persisted.joins 0 0 (.ok none) ++
    Persisted.edits 0 0 0 ++ Persisted.parts 0 0) ++ (Persisted.joins 1 1 answer ++
    Persisted.edits 1 1 1 ++ Persisted.parts 1 1)

/-- The run `hijacked`, where both actors are edited and store. -/
def divided : List (Persisted.Label OneWriter.yrs) :=
  Persisted.others [.connect 0, .connect 0, .connect 0] ++ Persisted.joins 0 0 (.ok none) ++
    Persisted.others (OneWriter.authenticates 1 "doc" ++ OneWriter.registers 1 1 ++ leaves 0 0) ++
    Persisted.joins 2 1 (.ok none) ++ Persisted.others (OneWriter.registers 1 5) ++
    [.fetch (.inl 1) (.ok none), .load (.inl 1) (OneWriter.queues 16)] ++
    Persisted.others (OneWriter.registers 1 3 ++ OneWriter.handles 2 ++ OneWriter.registers 1 1) ++
    Persisted.edits 2 1 0 ++ Persisted.edits 1 2 1 ++ Persisted.parts 2 1 ++ Persisted.parts 1 2

/-- The second row has lost the first edit. -/
theorem overwritten_spec {rows : List Bytes} (h : rows = [OneWriter.edit 0, OneWriter.edit 1]) :
    ¬ Growing OneWriter.crdt rows := by
  intro hgrowing
  have hbytes : ∀ c, OneWriter.crdt.bytes (OneWriter.edit c)
      = ({a | a ∈ [c]}, {a | a ∈ ([] : List Nat)}) := by
    intro c
    have hdecode : OneWriter.yrs.decodeUpdate (OneWriter.edit c)
        = some (⟨[c], []⟩ : OneWriter.Update) := OneWriter.decode_encode _
    exact OneWriter.crdt.bytes_of_decode hdecode
  rw [h] at hgrowing
  have hle := List.rel_of_pairwise_cons hgrowing (List.mem_singleton_self _)
  rw [hbytes 0, hbytes 1] at hle
  have hmem : 0 ∈ [1] := hle.1 (List.mem_singleton_self 0)
  exact absurd hmem (by decide)

/-- A fetch that fails, a row that `SqliteStorage::fetch` could not read, and two
actors of one name. -/
theorem persisted_content_shrinks :
    (¬ ∀ p, Lts.exec (Persisted.step {}) (Persisted.build fun _ => none)
        (overwritten (.error "disk I/O error")) = some p → Growing OneWriter.crdt (p.rows "doc")) ∧
    (¬ ∀ p, Lts.exec (Persisted.step {}) (Persisted.build fun _ => none)
        (overwritten (SqliteStorage.fetch (.ok ()) (.error "disk I/O error"))) = some p →
          Growing OneWriter.crdt (p.rows "doc")) ∧
    ¬ ∀ p, Lts.exec (Persisted.step {}) (Persisted.build fun _ => none) divided = some p →
      Growing OneWriter.crdt (p.rows "doc") := by
  have hshrinks : ∀ ls,
      (Lts.exec (Persisted.step {}) (Persisted.build fun _ => none) ls).isSome = true →
      (Persisted.keep (fun _ => none) ls).rows "doc" = [OneWriter.edit 0, OneWriter.edit 1] →
      ¬ ∀ p, Lts.exec (Persisted.step {}) (Persisted.build fun _ => none) ls = some p →
        Growing OneWriter.crdt (p.rows "doc") :=
    fun ls hruns hrows hall => overwritten_spec hrows (hall _ (Lts.exec_reach hruns))
  refine ⟨hshrinks _ (by decide +kernel) (by decide +kernel),
    hshrinks _ (by decide +kernel) (by decide +kernel),
    hshrinks _ (by decide +kernel) (by decide +kernel)⟩

end Hocuspocus
