import Hocuspocus.Extensions.Storage
import Hocuspocus.Server.Content

/-!
# A server over a storage

`Server/Persisted.lean` keeps the list of all rows a name has had, and lets a fetch
answer anything. Here the storage is a backend with a state of its own: a fetch is
answered by it, and the stores of a step are calls to it. Its runs are runs of the
server with a database (`storage_refines`), with loads that are faithful, because
what an actor stores is the full state of a document, and those can be read back.

So what is known about the rows holds of the backend, a `DashMap` or the `documents`
table: it has under a name what was edited under it (`storage_is_edits`).
-/

namespace Hocuspocus

variable {Y : Yrs} {ε σ : Type}

/-- The state decodes, and applies to a new document. -/
def Yrs.Loads (Y : Yrs) (state : Bytes) : Prop :=
  ∃ update, Y.decodeUpdate state = some update ∧ (Y.applyUpdate Y.newDoc update).2 = true

/-- What `encode_state_as_update_v1` writes can be loaded. -/
def Yrs.StateLoads (Y : Yrs) : Prop := ∀ d, Y.Loads (Y.encodeState d)

/-- The server, the backend of its `Storage`, and what `Storage::fetch` has answered
to the calls that load. -/
structure Stored (Y : Yrs) (σ : Type) where
  server : Server Y
  storage : σ
  fetched : Server.Task → Option Fetched

/-- The stores that end in a step from `a` to `b`, and whether they succeed. -/
def Actor.stores (a b : Actor Y) : List (Bytes × Bool) :=
  (b.world.trace.drop a.world.trace.length).filterMap
    fun | .stored state ok => some (state, ok) | _ => none

namespace Server

/-- The calls of `Storage::store` in a step. -/
def stores (s t : Server Y) : Label Y → List (String × Bytes × Bool)
  | .command j _ | .actor j _ =>
    match s.actors[j]?, t.actors[j]? with
    | some a, some b => (a.actor.stores b.actor).map fun called => (a.actor.world.name, called)
    | _, _ => []
  | _ => []

end Server

namespace Stored

/-- A server that has just been built, over a backend. -/
def build (storage : σ) : Stored Y σ := ⟨Server.build Y, storage, fun _ => none⟩

inductive Label (Y : Yrs) (ε : Type)
  /-- `Storage::fetch` answers a call that loads. -/
  | fetch (τ : Server.Task) (e : ε)
  /-- The load hooks have run, and the actor is spawned. -/
  | load (τ : Server.Task) (queues : Queues)
  /-- Any other step of the server, and how its calls of the backend come out. -/
  | other (l : Server.Label Y) (e : ε)

def step (S : Storage ε σ) (cfg : Configuration) (q : Stored Y σ) : Label Y ε → Option (Stored Y σ)
  | .fetch τ e =>
    match q.server.spawning τ, q.fetched τ with
    | some name, none =>
      some { q with fetched := Function.update q.fetched τ (some (S.fetch e q.storage name)) }
    | _, _ => none
  | .load τ queues =>
    match q.server.spawning τ, q.fetched τ with
    | some _, some answer =>
      (q.server.step cfg (Server.resume (Database.load answer) queues τ)).map fun t =>
        { q with server := t, fetched := Function.update q.fetched τ none }
    | _, _ => none
  | .other l e =>
    if (l.task.bind q.server.spawning).isSome then none
    else (q.server.step cfg l).bind fun t =>
      (S.storeAll e q.storage (q.server.stores t l)).map fun storage =>
        { q with server := t, storage := storage }

/-- The backend answers a fetch; the steps of the server are orderly, and no actor
that unloads has its last store refused. -/
structure Regular (sound : ε → Prop) (cfg : Configuration) (q : Stored Y σ) (l : Label Y ε) :
    Prop where
  sound : ∀ τ e, l = .fetch τ e → sound e
  orderly : ∀ sl e, l = .other sl e → q.server.Orderly sl
  unsaved : ∀ sl e, l = .other sl e → q.server.KeepsUnsaved cfg sl

end Stored

/-! ## The stores of a step, and what is accepted -/

theorem Actor.accepted_stores (a b : Actor Y) :
    a.accepted b = (a.stores b).filterMap fun called =>
      if called.2 = true then some called.1 else none := by
  rw [Actor.accepted, Actor.stores, acceptedStates, List.filterMap_filterMap]
  refine List.filterMap_congr fun e _ => ?_
  cases e with
  | stored state ok => cases ok <;> rfl
  | _ => rfl

theorem Server.accepted_stores (s t : Server Y) (name : String) (l : Server.Label Y) :
    s.accepted t name l = Storage.acceptedOf name (s.stores t l) := by
  have hactor : ∀ j, s.accepted t name (.actor j .mailboxClosed)
      = Storage.acceptedOf name (s.stores t (.actor j .mailboxClosed)) := by
    intro j
    unfold Server.accepted Server.stores
    dsimp only
    cases s.actors[j]? with
    | none => rfl
    | some a =>
      cases t.actors[j]? with
      | none => rfl
      | some b =>
        dsimp only
        rw [Storage.acceptedOf, List.filterMap_map, Actor.accepted_stores]
        split
        next hname =>
          refine List.filterMap_congr fun called _ => ?_
          simp [hname]
        next hname =>
          refine (List.filterMap_eq_nil_iff.mpr fun called _ => ?_).symm
          simp [hname]
  cases l with
  | command j o => exact hactor j
  | actor j al => exact hactor j
  | _ => rfl

namespace Stored

/-! ## The simulation -/

variable {S : Storage ε σ} {sound : ε → Prop} {held : σ → String → Option Bytes}

/-- The last rows are what the backend holds, and all rows and snapshots can be
loaded. -/
structure Mirrors (held : σ → String → Option Bytes) (q : Stored Y σ) (p : Persisted Y) :
    Prop where
  server : p.server = q.server
  fetched : p.fetched = q.fetched
  row : ∀ name, p.row name = held q.storage name
  rows : ∀ name, ∀ state ∈ p.rows name, Y.Loads state
  tasks : ∀ (j : Nat) (a : Spawned Y), q.server.actors[j]? = some a →
    ∀ state ∈ a.actor.world.storeTasks, Y.Loads state

/-- A snapshot is the full state of a document. -/
theorem loads_round (hloads : Y.StateLoads) {cfg : Configuration} {s t : Server Y}
    {l : Server.Label Y} (h : Server.step cfg s l = some t) {j : Nat} {a b : Spawned Y}
    (ha : s.actors[j]? = some a) (hb : t.actors[j]? = some b)
    (htasks : ∀ state ∈ a.actor.world.storeTasks, Y.Loads state) :
    (∀ state ∈ b.actor.world.storeTasks, Y.Loads state) ∧
      ∀ state ∈ a.actor.accepted b.actor, Y.Loads state := by
  obtain ⟨b', hb', hround⟩ := Server.step_round h ha
  obtain rfl : b' = b := Option.some.inj (hb'.symm.trans hb)
  rcases hround.acts with hsame | ⟨al, hstep⟩
  · rw [hsame, Actor.accepted_self]
    exact ⟨htasks, fun state hstate => by cases hstate⟩
  · exact Actor.snapshots_step hloads hstep htasks

/-- A fetch that answers with the last row is faithful, if that can be loaded. -/
theorem keeping_fetch {cfg : Configuration} {p : Persisted Y} {τ : Server.Task} {name : String}
    (hspawning : p.server.spawning τ = some name)
    (hrow : ∀ state, p.row name = some state → Y.Loads state) :
    p.Keeping cfg (.fetch τ (.ok (p.row name))) ∧ p.Honest (.fetch τ (.ok (p.row name))) := by
  refine ⟨⟨⟨?_, ?_⟩, ?_⟩, ?_⟩
  · intro τ' answer name' state hl hspawning' hfound
    cases hl
    obtain rfl := Option.some.inj (hspawning.symm.trans hspawning')
    exact ⟨congrArg Except.ok hfound, hrow state hfound⟩
  · intro sl hl
    cases hl
  · intro sl hl
    cases hl
  · intro τ' name' state hl hspawning'
    injection hl with hτ hanswer
    subst hτ
    obtain rfl := Option.some.inj (hspawning.symm.trans hspawning')
    exact Except.ok.inj hanswer

/-- Of a load nothing is asked. -/
theorem keeping_load (cfg : Configuration) (p : Persisted Y) (τ : Server.Task) (queues : Queues) :
    p.Keeping cfg (.load τ queues) ∧ p.Honest (.load τ queues) := by
  refine ⟨⟨⟨?_, ?_⟩, ?_⟩, ?_⟩
  · intro τ' answer name state hl
    cases hl
  · intro sl hl
    cases hl
  · intro sl hl
    cases hl
  · intro τ' name state hl
    cases hl

theorem keeping_other {cfg : Configuration} {p : Persisted Y} {sl : Server.Label Y}
    (horderly : p.server.Orderly sl) (hunsaved : p.server.KeepsUnsaved cfg sl) :
    p.Keeping cfg (.other sl) ∧ p.Honest (.other sl) := by
  refine ⟨⟨⟨?_, ?_⟩, ?_⟩, ?_⟩
  · intro τ answer name state hl
    cases hl
  · intro sl' hl
    cases hl
    exact horderly
  · intro sl' hl
    cases hl
    exact hunsaved
  · intro τ name state hl
    cases hl

/-- The fetch finds the last row. -/
theorem Mirrors.fetch (hkeeps : S.Keeps sound held) {q : Stored Y σ} {p : Persisted Y}
    (h : Mirrors held q p) {cfg : Configuration} {τ : Server.Task} {e : ε} (he : sound e)
    {q' : Stored Y σ} (hstep : q.step S cfg (.fetch τ e) = some q') :
    ∃ l p', p.step cfg l = some p' ∧ (p.Keeping cfg l ∧ p.Honest l) ∧ Mirrors held q' p' := by
  rw [Stored.step] at hstep
  split at hstep
  next name hspawning hfetched =>
    cases hstep
    rw [hkeeps.fetch e q.storage name he, ← h.row name]
    have hname : p.server.spawning τ = some name := h.server ▸ hspawning
    have hfree : p.fetched τ = none := h.fetched ▸ hfetched
    refine ⟨.fetch τ (.ok (p.row name)),
      { p with fetched := Function.update p.fetched τ (some (.ok (p.row name))) },
      ?_, keeping_fetch hname fun state hrow => ?_, ?_⟩
    · rw [Persisted.step, hname, hfree]
      rfl
    · exact h.rows name state (List.mem_of_getLast? hrow)
    · exact ⟨h.server, by rw [h.fetched], h.row, h.rows, h.tasks⟩
  next => cases hstep

/-- The actor of a load has stored nothing yet. -/
theorem Mirrors.load {q : Stored Y σ} {p : Persisted Y} (h : Mirrors held q p)
    {cfg : Configuration} {τ : Server.Task} {queues : Queues} {q' : Stored Y σ}
    (hstep : q.step S cfg (.load τ queues) = some q') :
    ∃ l p', p.step cfg l = some p' ∧ (p.Keeping cfg l ∧ p.Honest l) ∧ Mirrors held q' p' := by
  rw [Stored.step] at hstep
  split at hstep
  next name answer hspawning hfetched =>
    obtain ⟨t, ht, rfl⟩ := Option.map_eq_some_iff.mp hstep
    refine ⟨.load τ queues, { p with server := t, fetched := Function.update p.fetched τ none },
      ?_, keeping_load cfg p τ queues, ?_⟩
    · rw [Persisted.step, h.server, h.fetched, hspawning, hfetched]
      dsimp only
      rw [ht]
      rfl
    · refine ⟨rfl, by rw [h.fetched], h.row, h.rows, fun j b hb => ?_⟩
      have hb' : t.actors[j]? = some b := hb
      rw [Server.resume_actors hspawning ht] at hb'
      rcases Server.getElem?_snoc hb' with hold | ⟨_, rfl⟩
      · exact h.tasks j b hold
      · intro state hstate
        cases hstate
  next => cases hstep

/-- What the backend has been given are the rows that are new. -/
theorem Mirrors.other (hkeeps : S.Keeps sound held) (hloads : Y.StateLoads) {q : Stored Y σ}
    {p : Persisted Y} (h : Mirrors held q p) {cfg : Configuration} {sl : Server.Label Y} {e : ε}
    {q' : Stored Y σ} (hregular : q.Regular sound cfg (.other sl e))
    (hstep : q.step S cfg (.other sl e) = some q') :
    ∃ l p', p.step cfg l = some p' ∧ (p.Keeping cfg l ∧ p.Honest l) ∧ Mirrors held q' p' := by
  rw [Stored.step] at hstep
  split at hstep
  next => cases hstep
  next hload =>
    obtain ⟨t, ht, hstored⟩ := Option.bind_eq_some_iff.mp hstep
    obtain ⟨storage, hall, rfl⟩ := Option.map_eq_some_iff.mp hstored
    have hnone := Option.not_isSome_iff_eq_none.mp hload
    have horderly : p.server.Orderly sl := h.server ▸ hregular.orderly sl e rfl
    have hunsaved : p.server.KeepsUnsaved cfg sl := h.server ▸ hregular.unsaved sl e rfl
    refine ⟨.other sl, { p with
        server := t
        rows := fun name => p.rows name ++ p.server.accepted t name sl },
      ?_, keeping_other horderly hunsaved, ?_⟩
    · rw [Persisted.step, h.server, if_neg hload, ht]
      rfl
    · refine ⟨rfl, h.fetched, fun name => ?_, fun name state hstate => ?_, fun j b hb => ?_⟩
      · show (p.rows name ++ p.server.accepted t name sl).getLast? = held storage name
        rw [hkeeps.storeAll hall name, ← h.row name, h.server, Server.accepted_stores,
          List.getLast?_append]
        rfl
      · rcases List.mem_append.mp hstate with hold | hnew
        · exact h.rows name state hold
        · rw [h.server] at hnew
          obtain ⟨j, a, b, ha, hb, _, hmem⟩ := Persisted.mem_accepted hnew
          exact (loads_round hloads ht ha hb (h.tasks j a ha)).2 state hmem
      · have hthere : t.actors[j]? = some b := hb
        obtain ⟨hlt, _⟩ := List.getElem?_eq_some_iff.mp hthere
        have hbefore : j < q.server.actors.length := Server.step_length ht hnone ▸ hlt
        have ha : q.server.actors[j]? = some q.server.actors[j] := List.getElem?_eq_getElem hbefore
        exact (loads_round hloads ht ha hb (h.tasks j _ ha)).1

/-- **The step lemma.** -/
theorem Mirrors.step (hkeeps : S.Keeps sound held) (hloads : Y.StateLoads) {q : Stored Y σ}
    {p : Persisted Y} (h : Mirrors held q p) {cfg : Configuration} {l : Label Y ε}
    {q' : Stored Y σ} (hregular : q.Regular sound cfg l) (hstep : q.step S cfg l = some q') :
    ∃ l' p', p.step cfg l' = some p' ∧ (p.Keeping cfg l' ∧ p.Honest l') ∧ Mirrors held q' p' := by
  cases l with
  | fetch τ e => exact h.fetch hkeeps (hregular.sound τ e rfl) hstep
  | load τ queues => exact h.load hstep
  | other sl e => exact h.other hkeeps hloads hregular hstep

theorem build_mirrors {storage : σ}
    (hrows : ∀ name state, held storage name = some state → Y.Loads state) :
    Mirrors held (build storage : Stored Y σ) (Persisted.build (held storage)) where
  server := rfl
  fetched := rfl
  row name := by
    show (held storage name).toList.getLast? = held storage name
    cases held storage name <;> rfl
  rows name state hstate := hrows name state (Option.mem_toList.mp hstate)
  tasks j a ha := by cases ha

/-- A run over the backend is a run over its rows. -/
theorem exec_mirrors (hkeeps : S.Keeps sound held) (hloads : Y.StateLoads) {cfg : Configuration}
    {storage : σ} (hrows : ∀ name state, held storage name = some state → Y.Loads state)
    {ls : List (Label Y ε)} {q : Stored Y σ}
    (hrun : Lts.exec (step S cfg) (build storage) ls = some q)
    (hregular : Lts.Along (step S cfg) (fun q l _ => q.Regular sound cfg l) (build storage) ls) :
    ∃ ls' p, Lts.exec (Persisted.step cfg) (Persisted.build (held storage)) ls' = some p ∧
      Lts.Along (Persisted.step cfg) (fun p l _ => p.Keeping cfg l ∧ p.Honest l)
        (Persisted.build (held storage)) ls' ∧ Mirrors held q p :=
  Lts.exec_simulated (fun _ _ _ _ hstep hc h => h.step hkeeps hloads hc hstep) hregular hrun
    (build_mirrors hrows)

end Stored

/-- **A server over a storage refines the server with a database.** Over a backend
that keeps what is stored, a run in which no fetch fails is one of
`Server/Persisted.lean` whose loads are faithful and find nothing that was not
stored: the server is the same, and the backend holds the last rows. -/
theorem storage_refines {S : Storage ε σ} {sound : ε → Prop} {held : σ → String → Option Bytes}
    (hkeeps : S.Keeps sound held) (hloads : Y.StateLoads) {cfg : Configuration} {storage : σ}
    (hrows : ∀ name state, held storage name = some state → Y.Loads state)
    {ls : List (Stored.Label Y ε)} {q : Stored Y σ}
    (hrun : Lts.exec (Stored.step S cfg) (Stored.build storage) ls = some q)
    (hregular : Lts.Along (Stored.step S cfg) (fun q l _ => q.Regular sound cfg l)
      (Stored.build storage) ls) :
    ∃ ls' p, Lts.exec (Persisted.step cfg) (Persisted.build (held storage)) ls' = some p ∧
      Lts.Along (Persisted.step cfg) (fun p l _ => p.Keeping cfg l ∧ p.Honest l)
        (Persisted.build (held storage)) ls' ∧
      p.server = q.server ∧ ∀ name, p.row name = held q.storage name := by
  obtain ⟨ls', p, hexec, halong, hmirrors⟩ := Stored.exec_mirrors hkeeps hloads hrows hrun hregular
  exact ⟨ls', p, hexec, halong, hmirrors.server, hmirrors.row⟩

namespace Stored

/-- The server, and as rows what the backend holds. -/
def persisted (held : σ → String → Option Bytes) (q : Stored Y σ) : Persisted Y :=
  ⟨q.server, fun name => (held q.storage name).toList, q.fetched⟩

open OneWriter

theorem stateLoads : yrs.StateLoads := fun d =>
  ⟨⟨d.recv, d.dels⟩, decode_encode ⟨d.recv, d.dels⟩, rfl⟩

/-- The same step over a database whose statements do not fail. -/
def overTable : Persisted.Label yrs → Label yrs SqliteStorage.Calls
  | .fetch τ _ => .fetch τ {}
  | .load τ queues => .load τ queues
  | .other l => .other l {}

/-- A table with one row. -/
def oneRow : Sql.Table String Bytes := Sql.Table.empty.upsert "doc" (edit 0)

theorem oneRow_loads : ∀ name state, oneRow.select name = some state → yrs.Loads state := by
  intro name state hrow
  rw [oneRow, Sql.Table.select_upsert] at hrow
  split at hrow
  next =>
    cases hrow
    exact ⟨⟨[0], []⟩, decode_encode ⟨[0], []⟩, rfl⟩
  next => cases hrow

/-- No fetch fails, and the last stores are accepted. -/
def keepsTable (q : Stored yrs (Sql.Table String Bytes)) : Label yrs SqliteStorage.Calls → Bool
  | .fetch _ calls => calls.prepared.isOk && calls.queried.isOk
  | .load _ _ => true
  | .other l _ => Persisted.keepsRow (q.persisted Sql.Table.select) (.other l)

theorem isOk_unit {ε : Type} {x : Except ε Unit} (h : x.isOk = true) : x = .ok () := by
  cases x with
  | error e => cases h
  | ok u => rfl

theorem keepsTable_regular {cfg : Configuration} {q : Stored yrs (Sql.Table String Bytes)}
    {l : Label yrs SqliteStorage.Calls} (h : keepsTable q l = true) :
    q.Regular SqliteStorage.Sound cfg l := by
  refine ⟨fun τ calls hl => ?_, fun sl calls hl => ?_, fun sl calls hl => ?_⟩
  · rw [hl] at h
    obtain ⟨hprepared, hqueried⟩ := Bool.and_eq_true_iff.mp h
    exact ⟨isOk_unit hprepared, isOk_unit hqueried⟩
  · rw [hl] at h
    have hkeeping : (q.persisted Sql.Table.select).Keeping cfg (.other sl) :=
      Persisted.keepsRow_keeping h
    exact hkeeping.faithful.orderly sl rfl
  · rw [hl] at h
    have hkeeping : (q.persisted Sql.Table.select).Keeping cfg (.other sl) :=
      Persisted.keepsRow_keeping h
    exact hkeeping.unsaved sl rfl

/-- Two clients edit the document, one after the other. -/
def visits : List (Label yrs SqliteStorage.Calls) :=
  (Persisted.others [.connect 0, .connect 0] ++
    (Persisted.joins 0 0 (.ok none) ++ Persisted.edits 0 0 1 ++ Persisted.parts 0 0) ++
    (Persisted.joins 1 1 (.ok none) ++ Persisted.edits 1 1 2 ++ Persisted.parts 1 1)).map overTable

def visited : Stored yrs (Sql.Table String Bytes) :=
  Lts.reach (step SqliteStorage.storage {}) (build oneRow) visits

theorem visits_regular : Lts.Along (step SqliteStorage.storage {})
    (fun q l _ => q.Regular SqliteStorage.Sound {} l) (build oneRow) visits :=
  Lts.along_of_check (fun _ _ _ => keepsTable_regular) (by decide +kernel)

theorem visits_exec :
    Lts.exec (step SqliteStorage.storage {}) (build oneRow) visits = some visited :=
  Lts.exec_reach (by decide +kernel)

theorem visited_row : visited.storage.select "doc" = some (encodeUpdate ⟨[0, 1, 2], []⟩) := by
  decide +kernel

end Stored

open OneWriter in
/-- The table has the edits of both, and so has the last row of a run over rows. -/
theorem storage_refines_table :
    Stored.visited.storage.select "doc" = some (encodeUpdate ⟨[0, 1, 2], []⟩) ∧
    ∃ (ls : List (Persisted.Label yrs)) (p : Persisted yrs),
      Lts.exec (Persisted.step {}) (Persisted.build Stored.oneRow.select) ls = some p ∧
      p.row "doc" = some (encodeUpdate ⟨[0, 1, 2], []⟩) := by
  obtain ⟨ls, p, hexec, _, _, hrows⟩ := storage_refines SqliteStorage.keeps Stored.stateLoads
    Stored.oneRow_loads Stored.visits_exec Stored.visits_regular
  exact ⟨Stored.visited_row, ls, p, hexec, (hrows "doc").trans Stored.visited_row⟩

/-- **The storage holds what was edited.** Over a backend that keeps what is stored,
in a run in which no fetch fails and no actor that unloads has its last store
refused, the document an actor serves under a name is the least upper bound of what
the backend held at first and all updates applied under the name since; and so is
what the backend holds, when nobody has unsaved changes. -/
theorem storage_is_edits {L : Type} [SemilatticeSup L] [OrderBot L] (C : Y.Crdt L)
    (herr : Y.ErrKeepsDoc) (hloads : Y.StateLoads) {S : Storage ε σ} {sound : ε → Prop}
    {held : σ → String → Option Bytes} (hkeeps : S.Keeps sound held) {cfg : Configuration}
    {storage : σ} (hrows : ∀ name state, held storage name = some state → Y.Loads state)
    {ls : List (Stored.Label Y ε)} {q : Stored Y σ}
    (hrun : Lts.exec (Stored.step S cfg) (Stored.build storage) ls = some q)
    (hregular : Lts.Along (Stored.step S cfg) (fun q l _ => q.Regular sound cfg l)
      (Stored.build storage) ls) (name : String) :
    (∀ (j : Nat) (a : Spawned Y), q.server.actors[j]? = some a → a.actor.world.name = name →
      a.Live → IsLUB ((q.persisted held).sources C (held storage) name)
        (C.held a.actor.world.doc)) ∧
    ((∀ (j : Nat) (a : Spawned Y), q.server.actors[j]? = some a → a.actor.world.name = name →
      a.Live → a.actor.world.dirty = false ∧ a.actor.world.storing = false) →
      IsLUB ((q.persisted held).sources C (held storage) name)
        (C.row (held q.storage name))) := by
  obtain ⟨ls', p, hexec, halong, hmirrors⟩ := Stored.exec_mirrors hkeeps hloads hrows hrun hregular
  have hkeeping := Lts.along_of_invariant (P := fun p l _ => p.Keeping cfg l)
    (I := fun _ => True) (fun _ _ _ _ _ _ => trivial) (fun _ _ _ _ hc _ => hc.1) halong trivial
  have hhonest := Lts.along_of_invariant (P := fun p l _ => p.Honest l)
    (I := fun _ => True) (fun _ _ _ _ _ _ => trivial) (fun _ _ _ _ hc _ => hc.2) halong trivial
  obtain ⟨hdurable, hsourced, hfirst⟩ :=
    Persisted.content_invariants (C := C) herr hexec hkeeping hhonest
  have hsources : p.sources C (held storage) name
      = (q.persisted held).sources C (held storage) name := by
    unfold Persisted.sources Persisted.Applied
    rw [hmirrors.server]
    rfl
  rw [← hsources, ← hmirrors.row name, ← hmirrors.server]
  exact Persisted.isLUB_content hdurable hsourced hfirst name

open OneWriter in
theorem storage_is_edits_table :
    IsLUB ((Stored.visited.persisted Sql.Table.select).sources crdt Stored.oneRow.select "doc")
      (crdt.bytes (encodeUpdate ⟨[0, 1, 2], []⟩)) := by
  have hgone : (Stored.visited.server.actors.all
      fun a => decide (a.actor.phase = .stopped)) = true := by decide +kernel
  have hlub := (storage_is_edits crdt errKeepsDoc Stored.stateLoads SqliteStorage.keeps
    Stored.oneRow_loads Stored.visits_exec Stored.visits_regular "doc").2
      fun j a ha _ hlive => absurd
        (Or.inr (of_decide_eq_true (List.all_eq_true.mp hgone a (List.mem_of_getElem? ha)))) hlive
  rw [Stored.visited_row] at hlub
  exact hlub

end Hocuspocus
