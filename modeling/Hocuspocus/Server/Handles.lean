import Hocuspocus.Server.Registry
import Hocuspocus.Server.Rounds

/-!
# Who has a handle of an actor

`ServerShared::document` spawns an actor, then inserts it. In between only the
task that has spawned it knows the actor (`Secret`), so nothing is sent to it and
it does not leave. From then on the registry, a task on its way to the actor, or
an established routing key has the handle (`Knows`), and an actor that unloads
removes the entry of its name. Together: the entry of a name is an actor of that
name that has not left, in every state and whatever the order of the steps.
-/

namespace Hocuspocus

variable {Y : Yrs}

/-- It has a handle that others may have too. -/
def Stage.knows (j : Nat) : Stage → Bool
  | .document (.forget _ h) | .send h | .await h _ => h = j
  | .document _ => false

def SocketTask.stage : SocketTask → Option Stage
  | .registering r => some r.stage
  | _ => none

/-- An actor that was sent nothing yet. -/
structure Spawned.Untouched (a : Spawned Y) : Prop where
  pending : a.pending = []
  phase : a.actor.phase = .select
  dirty : a.actor.world.dirty = false
  tasks : a.actor.world.storeTasks = []
  results : a.actor.world.storeResults = []

namespace Server

/-- Where the task stands on its way to an actor. -/
def stage (s : Server Y) : Task → Option Stage
  | .inl i => (s.sockets[i]?).bind fun sock => sock.task.stage
  | .inr k => (s.edits[k]?).bind fun e => if e.returned.isSome then none else some e.stage

/-- Somebody can send to the actor. -/
inductive Knows (s : Server Y) (j : Nat) : Prop
  | entry (name : String) (hentry : s.documents name = some j)
  | established (i : Nat) (sock : Socket) (est : Established) (hsock : s.sockets[i]? = some sock)
    (hest : est ∈ sock.client.established.vals) (hdoc : est.doc = j)
  | stage (τ : Task) (st : Stage) (hstage : s.stage τ = some st) (hknows : st.knows j = true)

/-- Of an actor that is about to be inserted only its task knows. -/
structure Secret (s : Server Y) : Prop where
  untouched : ∀ τ name l j, s.call τ = some (name, .insert l j) →
    ∃ a, s.actors[j]? = some a ∧ a.Untouched
  unknown : ∀ τ name l j, s.call τ = some (name, .insert l j) → ¬ s.Knows j
  once : ∀ τ τ' name name' l l' j, s.call τ = some (name, .insert l j) →
    s.call τ' = some (name', .insert l' j) → τ = τ'

theorem stage_of_call {s : Server Y} {τ : Task} {name : String} {c : DocumentCall}
    (h : s.call τ = some (name, c)) : s.stage τ = some (.document c) := by
  cases τ with
  | inl i =>
    obtain ⟨sock, hsock, hcall⟩ := Option.bind_eq_some_iff.mp h
    obtain ⟨r, htask, hstage, _⟩ := Socket.call_spec hcall
    rw [stage, hsock, Option.bind_some, htask, SocketTask.stage, hstage]
  | inr k =>
    obtain ⟨e, he, hcall⟩ := Option.bind_eq_some_iff.mp h
    obtain ⟨hreturned, hstage, _⟩ := DirectApply.call_spec hcall
    rw [stage, he, Option.bind_some, hreturned, hstage]
    rfl

theorem call_of_stage {s : Server Y} {τ : Task} {c : DocumentCall}
    (h : s.stage τ = some (.document c)) : ∃ name, s.call τ = some (name, c) := by
  cases τ with
  | inl i =>
    obtain ⟨sock, hsock, hstage⟩ := Option.bind_eq_some_iff.mp h
    unfold SocketTask.stage at hstage
    split at hstage
    next r htask =>
      refine ⟨r.request.documentName, ?_⟩
      rw [call, hsock]
      exact call_registering htask (Option.some.inj hstage)
    next => cases hstage
  | inr k =>
    obtain ⟨e, he, hstage⟩ := Option.bind_eq_some_iff.mp h
    split at hstage
    next => cases hstage
    next hreturned =>
      refine ⟨e.name, ?_⟩
      rw [call, he]
      exact edit_call (by simpa using hreturned) (Option.some.inj hstage)

/-- What the stage of a task is after a step. -/
inductive StageStep (s : Server Y) (τ : Task) : Option Stage → Prop
  | same : StageStep s τ (s.stage τ)
  | ends : StageStep s τ none
  | begins : StageStep s τ (some (.document .lookup))
  | calls (name : String) (doc : Y.Doc) (queues : Queues) (c next : DocumentCall) (u : Server Y)
    (hstage : s.stage τ = some (.document c))
    (hcall : s.documentStep name doc queues c = some (u, .inl next)) :
    StageStep s τ (some (.document next))
  | finds (name : String) (doc : Y.Doc) (queues : Queues) (c : DocumentCall) (h : Nat)
    (u : Server Y) (hstage : s.stage τ = some (.document c))
    (hcall : s.documentStep name doc queues c = some (u, .inr h)) : StageStep s τ (some (.send h))
  | sends (h : Nat) (hstage : s.stage τ = some (.send h)) :
    StageStep s τ (some (.await h s.nextAck))

theorem SocketTurn.stage {cfg : Configuration} {s t : Server Y} {i : Nat} {sock sock' : Socket}
    {l : Label Y} (hsock : s.sockets[i]? = some sock) (h : SocketTurn cfg s t i sock l sock') :
    StageStep s (.inl i) sock'.task.stage := by
  have hold : s.stage (.inl i) = sock.task.stage := by
    rw [Server.stage, hsock]
    rfl
  have hnone : ∀ {task : SocketTask}, (∀ r, task ≠ .registering r) →
      StageStep s (.inl i) task.stage := by
    intro task htask
    cases task with
    | registering r => exact absurd rfl (htask r)
    | reading | connecting | authenticating | cleaning | ended => exact .ends
  have hfailed : ∀ (sock₀ : Socket) (r : Registration),
      StageStep s (.inl i) (sock₀.failed r).task.stage := by
    intro sock₀ r
    rcases sock₀.failed_task r with htask | htask
    · rw [htask]
      exact .begins
    · rw [htask]
      exact .ends
  have hreading : ∀ {r : Registration}, sock.task = .registering r →
      s.stage (.inl i) = some r.stage := by
    intro r htask
    rw [hold, htask]
    rfl
  cases h with
  | idle => exact hold ▸ .same
  | receive data now htask =>
    refine hnone fun r heq => ?_
    rcases sock.handleFrame_task (Y := Y) cfg now htask data with hnext | ⟨request, hnext, _⟩ <;>
      rw [hnext] at heq <;> cases heq
  | hangup | timeout | clean => exact .ends
  | connected request results htask =>
    refine hnone fun r heq => ?_
    rcases sock.connected_task (Y := Y) request results with hnext | hnext <;>
      rw [hnext] at heq <;> cases heq
  | authenticated request results readOnly htask =>
    rcases sock.authenticated_task (Y := Y) request results readOnly s.nextConnId with
      hnext | hnext
    · rw [hnext]
      exact .begins
    · rw [hnext]
      exact .ends
  | calls doc queues r c next htask hstage hcall =>
    obtain ⟨u, hcall, _⟩ := hcall
    exact .calls _ doc queues c next u ((hreading htask).trans (congrArg some hstage)) hcall
  | finds doc queues r c h htask hstage hcall =>
    obtain ⟨u, hcall, _⟩ := hcall
    exact .finds _ doc queues c h u ((hreading htask).trans (congrArg some hstage)) hcall
  | sends doc queues r h htask hstage =>
    exact .sends h ((hreading htask).trans (congrArg some hstage))
  | refused doc queues r h htask => exact hfailed _ r
  | lost doc queues r h ack htask => exact hfailed _ r
  | acked doc queues r h ack htask =>
    rw [(sock.register_spec r h).2.1]
    exact .ends
  | leave key est htask => exact hnone fun r heq => by rw [sock.leave_task est htask] at heq; cases heq

/-- **What a step does to the way of a task.** -/
theorem step_stage {s t : Server Y} {cfg : Configuration} {l : Label Y}
    (h : Server.step cfg s l = some t) (τ : Task) : StageStep s τ (t.stage τ) := by
  cases τ with
  | inl i =>
    cases hsock' : t.sockets[i]? with
    | none =>
      rw [stage, hsock']
      exact .ends
    | some sock' =>
      rw [stage, hsock', Option.bind_some]
      rcases step_socket h hsock' with ⟨sock, hsock, hturn⟩ | ⟨_, now, _, rfl⟩
      · exact hturn.stage hsock
      · exact .ends
  | inr k =>
    cases he' : t.edits[k]? with
    | none =>
      rw [stage, he']
      exact .ends
    | some e' =>
      rw [stage, he', Option.bind_some]
      rcases step_edit h he' with ⟨e, he, hturn⟩ | ⟨_, name, update, _, rfl⟩
      · have hold : s.stage (.inr k) = if e.returned.isSome then none else some e.stage := by
          rw [stage, he, Option.bind_some]
        cases hturn with
        | idle => exact hold ▸ .same
        | calls doc queues c next hreturned hstage hcall =>
          obtain ⟨u, hcall, _⟩ := hcall
          rw [hreturned, hstage] at hold
          rw [hreturned]
          exact .calls _ doc queues c next u hold hcall
        | finds doc queues c j hreturned hstage hcall =>
          obtain ⟨u, hcall, _⟩ := hcall
          rw [hreturned, hstage] at hold
          rw [hreturned]
          exact .finds _ doc queues c j u hold hcall
        | sends doc queues j hreturned hstage =>
          rw [hreturned, hstage] at hold
          rw [hreturned]
          exact .sends j hold
        | refused | answered => exact .ends
      · exact .begins

/-- Who is told of an actor knew it, unless the task that has spawned it inserts it. -/
theorem stage_known {s t : Server Y} {cfg : Configuration} {l : Label Y}
    (h : Server.step cfg s l = some t) {τ : Task} {st : Stage} {j : Nat}
    (hstage : t.stage τ = some st) (hknows : st.knows j = true) :
    s.Knows j ∨ ∃ k, s.stage τ = some (.document (.insert k j)) := by
  have hstep := step_stage h τ
  rw [hstage] at hstep
  generalize hst : some st = next at hstep
  cases hstep with
  | same => exact Or.inl (.stage τ st hst.symm hknows)
  | ends => cases hst
  | begins =>
    cases hst
    cases hknows
  | calls name doc queues c next u hold hcall =>
    cases hst
    cases documentStep_cases hcall with
    | missing | joins | creates | locks | loads | spawns => cases hknows
    | inserts k h' =>
      obtain rfl : h' = j := of_decide_eq_true hknows
      exact Or.inr ⟨k, hold⟩
  | finds name doc queues c h' u hold hcall =>
    cases hst
    obtain rfl : h' = j := of_decide_eq_true hknows
    cases documentStep_cases hcall with
    | found h' hentry | late k h' hentry => exact Or.inl (.entry name hentry)
    | forgets k h' => exact Or.inl (.stage τ _ hold (decide_eq_true rfl))
  | sends h' hold =>
    cases hst
    exact Or.inl (.stage τ _ hold hknows)

/-- An entry was there, or its task inserts it now. -/
theorem entry_known {s t : Server Y} {cfg : Configuration} {l : Label Y}
    (h : Server.step cfg s l = some t) {name : String} {j : Nat}
    (hentry : t.documents name = some j) :
    s.documents name = some j ∨ ∃ τ k, s.call τ = some (name, .insert k j) ∧
      t.call τ = some (name, .forget k j) ∧ t.actors = s.actors := by
  cases registry_cases h with
  | quiet hdocuments => exact Or.inl (hdocuments ▸ hentry)
  | removes removed hdocuments =>
    left
    rw [hdocuments] at hentry
    by_cases hname : name = removed
    · rw [hname, Function.update_self] at hentry
      cases hentry
    · rwa [Function.update_of_ne hname] at hentry
  | calls τ called c doc queues u next htask hcall hstep hdocuments hlocks hactors hcalls =>
    rw [hdocuments] at hentry
    rcases documentStep_entry hstep name with hsame | ⟨rfl, k, j', rfl, rfl, hnew⟩
    · exact Or.inl (hsame ▸ hentry)
    · rw [hnew] at hentry
      cases hentry
      refine Or.inr ⟨τ, k, hcall, ?_, ?_⟩
      · rw [hcalls, if_pos rfl]
        rfl
      · rw [hactors]
        cases documentStep_cases hstep with
        | inserts => rfl

theorem Knows.was {s t : Server Y} {cfg : Configuration} {l : Label Y}
    (h : Server.step cfg s l = some t) {j : Nat} (hknows : t.Knows j) :
    s.Knows j ∨ ∃ τ name k, s.call τ = some (name, .insert k j) ∧
      ∀ name' k', t.call τ ≠ some (name', .insert k' j) := by
  cases hknows with
  | entry name hentry =>
    rcases entry_known h hentry with hold | ⟨τ, k, hcall, hcall', _⟩
    · exact Or.inl (.entry name hold)
    · refine Or.inr ⟨τ, name, k, hcall, fun name' k' heq => ?_⟩
      rw [hcall'] at heq
      cases heq
  | established i sock' est hsock' hest hdoc =>
    left
    rcases step_socket h hsock' with ⟨sock, hsock, hturn⟩ | ⟨_, now, _, rfl⟩
    · rcases hturn.established hest with hold | ⟨r, j', ack, htask, hstage, _, rfl, _⟩
      · exact .established i sock est hsock hold hdoc
      · refine .stage (.inl i) (.await j' ack) ?_ (decide_eq_true hdoc)
        rw [Server.stage, hsock, Option.bind_some, htask, SocketTask.stage, hstage]
    · cases hest
  | stage τ st hstage hknows =>
    rcases stage_known h hstage hknows with hold | ⟨k, hinsert⟩
    · exact Or.inl hold
    · obtain ⟨name, hcall⟩ := call_of_stage hinsert
      refine Or.inr ⟨τ, name, k, hcall, fun name' k' heq => ?_⟩
      rw [stage_of_call heq] at hstage
      cases hstage
      cases hknows

/-- Whoever is known is there. -/
theorem Named.knows {s : Server Y} (hs : s.Named) {j : Nat} (h : s.Knows j) :
    ∃ a, s.actors[j]? = some a := by
  cases h with
  | entry name hentry =>
    obtain ⟨a, ha, _⟩ := hs.documents name j hentry
    exact ⟨a, ha⟩
  | established i sock est hsock hest hdoc =>
    obtain ⟨a, ha, _⟩ := hs.established i sock hsock est hest
    exact ⟨a, hdoc ▸ ha⟩
  | stage τ st hstage hknows =>
    have hholds : st.holds j = true := by
      unfold Stage.knows at hknows
      unfold Stage.holds
      split at hknows
      · exact hknows
      · exact hknows
      · exact hknows
      · cases hknows
    cases τ with
    | inl i =>
      obtain ⟨sock, hsock, hst⟩ := Option.bind_eq_some_iff.mp hstage
      unfold SocketTask.stage at hst
      split at hst
      next r htask =>
        obtain ⟨a, ha, _⟩ := hs.registering i sock hsock r j htask ((Option.some.inj hst) ▸ hholds)
        exact ⟨a, ha⟩
      next => cases hst
    | inr k =>
      obtain ⟨e, he, hst⟩ := Option.bind_eq_some_iff.mp hstage
      split at hst
      next => cases hst
      next =>
        obtain ⟨a, ha, _⟩ := hs.edits k e he j ((Option.some.inj hst) ▸ hholds)
        exact ⟨a, ha⟩

/-- What a step sends, it sends to an actor somebody knows. -/
theorem sends_known {s t : Server Y} {cfg : Configuration} {l : Label Y}
    (h : Server.step cfg s l = some t) {c : Nat × DocCommand} (hc : c ∈ s.sends cfg l) :
    s.Knows c.1 := by
  cases step_cases h with
  | connect | hangup | timeout | connected | authenticated | clean | apply | recv | command | actor
  | drop => cases hc
  | unknown name data hdoc =>
    rw [sends, hdoc] at hc
    cases hc
  | external name data j hdoc =>
    rw [sends, hdoc] at hc
    rw [List.mem_singleton.mp hc]
    exact .entry name hdoc
  | receive i data now sock hsock htask =>
    simp only [sends, hsock] at hc
    obtain ⟨est, hest, hdoc, _⟩ := (Socket.handleFrame_steady Y cfg now htask data).2 c hc
    exact .established i sock est hsock hest hdoc.symm
  | leave i key sock est hsock htask hest =>
    simp only [sends, hsock, hest, Option.elim_some] at hc
    have hone : c = (est.doc, .removeConnection est.connId) := List.mem_singleton.mp hc
    rw [hone]
    exact .established i sock est hsock (Keyed.mem_iff_get?.mp hest).1 rfl
  | register i doc queues sock r t hsock htask h =>
    have hstage : ∀ {st : Stage}, r.stage = st → s.stage (.inl i) = some st := by
      rintro st rfl
      rw [stage, hsock, Option.bind_some, htask]
      rfl
    obtain ⟨client, task, trace⟩ := sock
    cases htask
    simp only [sends, hsock] at hc
    split at hc
    next => cases hc
    next j hsend =>
      rw [List.mem_singleton.mp hc]
      exact .stage _ _ (hstage hsend) (decide_eq_true rfl)
    next j ack hawait =>
      split at hc
      next =>
        refine .stage _ _ (hstage hawait) (decide_eq_true ?_)
        exact ((Socket.register_spec _ r j).2.2 c hc).1.symm
      next => cases hc
  | direct k doc queues e t he h =>
    obtain ⟨name, update, st, returned⟩ := e
    simp only [sends, he] at hc
    split at hc
    next heq =>
      cases heq
      rw [List.mem_singleton.mp hc]
      refine .stage (.inr k) (.send _) ?_ (decide_eq_true rfl)
      rw [stage, he]
      rfl
    next => cases hc

end Server

/-! ## Before it is inserted -/

theorem Spawned.Untouched.live {a : Spawned Y} (ha : a.Untouched) : a.Live := by
  rintro (h | h) <;> rw [ha.phase] at h <;> cases h

theorem Spawned.untouched_born (name : String) (doc : Y.Doc) (queues : Queues) :
    (Server.born name doc queues).Untouched :=
  ⟨rfl, rfl, rfl, rfl, rfl⟩

/-- As long as nothing is sent to it, and somebody holds a sender. -/
theorem Spawned.Untouched.round {cfg : Configuration} {s : Server Y}
    {sends : List (Nat × DocCommand)} {j : Nat} {a b : Spawned Y} {l : Server.Label Y}
    (hround : a.Round cfg s sends j l b) (ha : a.Untouched) (hnone : commandsFor j sends = [])
    (hheld : s.hasSender j a = true) : b.Untouched := by
  obtain ⟨hbatch, hmail⟩ := List.append_eq_nil_iff.mp ha.pending
  cases hround with
  | told =>
    rw [Spawned.receives, hnone, Spawned.told_nil, ite_self]
    exact ha
  | recv _ _ _ hsome => exact absurd hmail hsome
  | command o cmd batch b hsome =>
    rw [hbatch] at hsome
    cases hsome
  | drop hstopped =>
    rw [ha.phase] at hstopped
    cases hstopped
  | actor l b hplain hbetween hclosed hstep =>
    cases Actor.step_cases hstep with
    | command cmd o => exact absurd rfl (hplain cmd o)
    | flush sched phase hphase =>
      rcases hphase with ⟨⟨n, hn⟩, _⟩ | ⟨hexiting, _⟩
      · rw [ha.phase] at hn
        cases hn
      · rw [ha.phase] at hexiting
        cases hexiting
    | storeResult o ok rest hphase hresults =>
      rw [ha.results] at hresults
      cases hresults
    | deadline o hphase hdirty =>
      rw [ha.dirty] at hdirty
      cases hdirty
    | mailboxClosed =>
      rw [hheld] at hclosed
      exact absurd (hclosed rfl).2 (Bool.noConfusion ·)
    | storeTask i results hi =>
      rw [ha.tasks] at hi
      exact absurd hi (Nat.not_lt_zero i)
    | queues acts => exact ⟨ha.pending, ha.phase, ha.dirty, ha.tasks, ha.results⟩

namespace Server

/-- The task that is about to insert an actor holds a sender of it. -/
theorem inserting_sender {s : Server Y} {τ : Task} {name : String} {l j : Nat}
    (hcall : s.call τ = some (name, .insert l j)) (a : Spawned Y) : s.hasSender j a = true := by
  rw [hasSender, Bool.or_eq_true, Bool.or_eq_true]
  cases τ with
  | inl i =>
    obtain ⟨sock, hsock, hcall⟩ := Option.bind_eq_some_iff.mp hcall
    obtain ⟨r, htask, hstage, _⟩ := Socket.call_spec hcall
    refine Or.inl (Or.inr (List.any_eq_true.mpr ⟨sock, List.mem_of_getElem? hsock, ?_⟩))
    rw [Socket.holds, htask, Bool.or_eq_true]
    refine Or.inr ?_
    show Stage.holds j r.stage = true
    rw [hstage]
    exact decide_eq_true rfl
  | inr k =>
    obtain ⟨e, he, hcall⟩ := Option.bind_eq_some_iff.mp hcall
    obtain ⟨hreturned, hstage, _⟩ := DirectApply.call_spec hcall
    refine Or.inr (List.any_eq_true.mpr ⟨e, List.mem_of_getElem? he, ?_⟩)
    rw [hreturned, hstage, Option.isNone_none, Bool.true_and]
    exact decide_eq_true rfl

/-- Who is about to insert an actor was so before, or has just spawned it. -/
theorem insert_was {s t : Server Y} {cfg : Configuration} {l : Label Y}
    (h : Server.step cfg s l = some t) {τ : Task} {name : String} {k j : Nat}
    (hcall : t.call τ = some (name, .insert k j)) :
    s.call τ = some (name, .insert k j) ∨ j = s.actors.length ∧
      (∃ doc queues, t.actors = s.actors ++ [born name doc queues]) ∧
      ∀ τ', τ' ≠ τ → t.call τ' = s.call τ' := by
  cases registry_cases h with
  | quiet hdocuments hlocks hcalls =>
    rcases hcalls τ with hsame | ⟨_, hlookup⟩
    · exact Or.inl (hsame ▸ hcall)
    · cases hlookup name _ hcall
  | removes removed hdocuments hlocks hcalls =>
    rcases hcalls τ with hsame | ⟨_, hlookup⟩
    · exact Or.inl (hsame ▸ hcall)
    · cases hlookup name _ hcall
  | calls τ' called c doc queues u next htask hold hstep hdocuments hlocks hactors hcalls =>
    rw [hcalls] at hcall
    split at hcall
    next hτ =>
      subst hτ
      obtain ⟨c', hc', heq⟩ := Option.map_eq_some_iff.mp hcall
      cases heq
      cases documentStep_cases hstep with
      | spawns k' =>
        cases hc'
        refine Or.inr ⟨rfl, ⟨doc, queues, hactors⟩, fun τ' hne => ?_⟩
        rw [hcalls, if_neg hne]
      | missing | joins | creates | locks | loads | inserts => cases hc'
      | found | late | forgets => cases hc'
    next => exact Or.inl hcall

theorem Secret.step {s t : Server Y} (hs : s.Secret) (hnamed : s.Named) {cfg : Configuration}
    {l : Label Y} (h : Server.step cfg s l = some t) : t.Secret := by
  have hlength : ∀ τ name k j, s.call τ = some (name, .insert k j) → j < s.actors.length := by
    intro τ name k j hcall
    obtain ⟨a, ha, _⟩ := hs.untouched τ name k j hcall
    exact (List.getElem?_eq_some_iff.mp ha).1
  have hfresh : ¬ s.Knows s.actors.length := fun hknows => by
    obtain ⟨a, ha⟩ := hnamed.knows hknows
    exact Nat.lt_irrefl _ (List.getElem?_eq_some_iff.mp ha).1
  refine ⟨fun τ name k j hcall => ?_, fun τ name k j hcall hknows => ?_,
    fun τ τ' name name' k k' j hcall hcall' => ?_⟩
  · rcases insert_was h hcall with hold | ⟨rfl, ⟨doc, queues, hactors⟩, _⟩
    · obtain ⟨a, ha, huntouched⟩ := hs.untouched τ name k j hold
      obtain ⟨b, hb, hround⟩ := step_round h ha
      refine ⟨b, hb, huntouched.round hround ?_ (inserting_sender hold a)⟩
      -- nobody knows it, so nobody sends to it
      refine List.filterMap_eq_nil_iff.mpr fun c hc => if_neg ?_
      rintro rfl
      exact hs.unknown τ name k _ hold (sends_known h hc)
    · rw [hactors]
      exact ⟨_, List.getElem?_concat_length, Spawned.untouched_born name doc queues⟩
  · rcases insert_was h hcall with hold | ⟨rfl, _, hothers⟩
    · rcases hknows.was h with hknew | ⟨τ', name', k', hinsert, hgone⟩
      · exact hs.unknown τ name k j hold hknew
      · obtain rfl := hs.once τ τ' name name' k k' j hold hinsert
        exact hgone name k hcall
    · rcases hknows.was h with hknew | ⟨τ', name', k', hinsert, _⟩
      · exact hfresh hknew
      · exact Nat.lt_irrefl _ (hlength τ' name' k' _ hinsert)
  · rcases insert_was h hcall with hold | ⟨rfl, _, hothers⟩
    · rcases insert_was h hcall' with hold' | ⟨rfl, _, _⟩
      · exact hs.once τ τ' name name' k k' j hold hold'
      · exact absurd (hlength τ name k _ hold) (Nat.lt_irrefl _)
    · by_contra hne
      have hold' := hcall'
      rw [hothers τ' (fun heq => hne heq.symm)] at hold'
      exact Nat.lt_irrefl _ (hlength τ' name' k' _ hold')

theorem build_secret (Y : Yrs) : (build Y).Secret := by
  have hnone : ∀ τ name c, (build Y).call τ ≠ some (name, c) := by
    intro τ name c hcall
    cases τ <;> cases hcall
  exact ⟨fun τ name _ _ hcall => absurd hcall (hnone τ name _),
    fun τ name _ _ hcall => absurd hcall (hnone τ name _),
    fun τ _ name _ _ _ _ hcall => absurd hcall (hnone τ name _)⟩

/-! ## Entries -/

/-- An actor that leaves has no entry under its name, or nobody had a sender. -/
theorem leaves_entry {s t : Server Y} {cfg : Configuration} {l : Label Y}
    (h : Server.step cfg s l = some t) {j : Nat} {a b : Spawned Y} (ha : s.actors[j]? = some a)
    (hb : t.actors[j]? = some b) (hlive : a.Live) (hleft : b.Left) :
    t.documents a.actor.world.name = none ∨ s.hasSender j a = false := by
  obtain ⟨b', hb', hround⟩ := step_round h ha
  obtain rfl : b' = b := Option.some.inj (hb'.symm.trans hb)
  cases hround with
  | told =>
    refine absurd ?_ hlive
    unfold Spawned.receives at hleft
    split at hleft
    · exact hleft
    · exact hleft
  | recv => exact absurd hleft hlive
  | drop hstopped => exact absurd (Or.inr hstopped) hlive
  | command o cmd batch b hbatch hstep =>
    cases step_cases h with
    | command _ _ a' cmd' batch' c ha' hbatch' hstep' =>
      obtain rfl : a = a' := Option.some.inj (ha.symm.trans ha')
      rw [hbatch] at hbatch'
      cases hbatch'
      obtain rfl : b = c := Option.some.inj (hstep.symm.trans hstep')
      have hexit : b.unloadedBy (.command cmd o) = true := decide_eq_true hleft
      left
      rw [hexit, ← Actor.step_name hstep]
      exact Function.update_self ..
  | actor k b hplain hbetween hclosed hstep =>
    cases step_cases h with
    | actor _ _ a' c ha' _ _ hstep' =>
      obtain rfl : a = a' := Option.some.inj (ha.symm.trans ha')
      obtain rfl : b = c := Option.some.inj (hstep.symm.trans hstep')
      have hsame : b.phase = a.actor.phase → False := fun hphase => hlive <| by
        rcases hleft with hleft | hleft
        · exact Or.inl (hphase.symm.trans hleft)
        · exact Or.inr (hphase.symm.trans hleft)
      have hremoved : b.unloadedBy k = true →
          ((s.setActor j { a with actor := b }).unloading (b.unloadedBy k) b.world.name).documents
            a.actor.world.name = none := by
        intro hexit
        rw [hexit, ← Actor.step_name hstep]
        exact Function.update_self ..
      cases k with
      | command cmd o => exact absurd rfl (hplain cmd o)
      | storeResult o => exact Or.inl (hremoved (decide_eq_true hleft))
      | deadline o => exact Or.inl (hremoved (decide_eq_true hleft))
      | mailboxClosed => exact Or.inr (hclosed rfl).2
      | flush sched =>
        cases Actor.step_cases hstep with
        | flush _ phase hphase =>
          rcases hphase with ⟨_, rfl⟩ | ⟨hexiting, _⟩
          · rcases hleft with hleft | hleft <;> cases hleft
          · exact absurd (Or.inl hexiting) hlive
      | storeTask i results =>
        cases Actor.step_cases hstep with
        | storeTask => exact (hsame rfl).elim
      | queues acts =>
        cases Actor.step_cases hstep with
        | queues => exact (hsame rfl).elim

/-- Every entry is an actor that has not left. -/
def Entered (s : Server Y) : Prop :=
  ∀ name j, s.documents name = some j → ∃ a, s.actors[j]? = some a ∧ a.Live

theorem Entered.step {s t : Server Y} (hs : s.Entered) (hnamed : s.Named) (hsecret : s.Secret)
    {cfg : Configuration} {l : Label Y} (h : Server.step cfg s l = some t) : t.Entered := by
  intro name j hentry
  rcases entry_known h hentry with hold | ⟨τ, k, hcall, _, hactors⟩
  · obtain ⟨a, ha, hlive⟩ := hs name j hold
    obtain ⟨b, hb, _⟩ := step_round h ha
    refine ⟨b, hb, fun hleft => ?_⟩
    obtain ⟨a', ha', hname⟩ := hnamed.documents name j hold
    obtain rfl : a = a' := Option.some.inj (ha.symm.trans ha')
    rcases leaves_entry h ha hb hlive hleft with hremoved | hnobody
    · rw [hname, hentry] at hremoved
      cases hremoved
    · rw [hasSender, hname, decide_eq_true hold] at hnobody
      cases hnobody
  · obtain ⟨a, ha, huntouched⟩ := hsecret.untouched τ name k j hcall
    exact ⟨a, hactors ▸ ha, huntouched.live⟩

/-- Who has handles, and where they lead. -/
structure Handles (s : Server Y) : Prop where
  named : s.Named
  secret : s.Secret
  entered : s.Entered

theorem handles_of_run {cfg : Configuration} {ls : List (Label Y)} {s : Server Y}
    (hrun : Lts.exec (Server.step cfg) (build Y) ls = some s) : s.Handles :=
  Lts.exec_invariant (fun _ _ _ hstep (hs : Handles _) =>
      ⟨hs.named.step hstep, hs.secret.step hs.named hstep,
        hs.entered.step hs.named hs.secret hstep⟩) hrun
    ⟨build_named Y, build_secret Y, fun name j hentry => by cases hentry⟩

/-- The receiver of an actor that has not left is there. -/
theorem Accounted.there {s : Server Y} (hs : s.Accounted) {j : Nat} {a : Spawned Y}
    (ha : s.actors[j]? = some a) (hlive : a.Live) : a.gone = false := by
  cases hgone : a.gone with
  | false => rfl
  | true => exact absurd (Or.inr (hs.gone j a ha hgone)) hlive

end Server

/-- **An entry of the registry leads somewhere.** Whatever the order of steps, it is an
actor that was spawned for this name and has not left, so what is sent to it now
is accepted. -/
theorem registry_live {cfg : Configuration} {ls : List (Server.Label Y)} {s : Server Y}
    (hrun : Lts.exec (Server.step cfg) (Server.build Y) ls = some s) {name : String} {j : Nat}
    (hentry : s.documents name = some j) :
    ∃ a, s.actors[j]? = some a ∧ a.actor.world.name = name ∧ a.Live ∧
      ∀ cmd, (s.send j cmd).2 = true := by
  have hhandles := Server.handles_of_run hrun
  have haccounted : s.Accounted := Lts.exec_invariant
    (fun _ _ _ hstep hs => hs.step hstep) hrun (Server.build_accounted Y)
  obtain ⟨a, ha, hlive⟩ := hhandles.entered name j hentry
  obtain ⟨a', ha', hname⟩ := hhandles.named.documents name j hentry
  obtain rfl : a = a' := Option.some.inj (ha.symm.trans ha')
  refine ⟨a, ha, hname, hlive, fun cmd => ?_⟩
  unfold Server.send
  rw [ha]
  dsimp only
  rw [haccounted.there ha hlive]
  rfl

/-- A document that is resident. -/
theorem registry_live_entered :
    let s := OneWriter.serve {} (.connect 0 :: OneWriter.enters 0 0 "doc")
    s.documents "doc" = some 0 ∧ ∃ a, s.actors[0]? = some a ∧ a.actor.world.name = "doc" ∧
      a.Live ∧ ∀ cmd, (s.send 0 cmd).2 = true := by
  intro s
  have hrun : (Lts.exec (Server.step {}) (Server.build OneWriter.yrs)
      (.connect 0 :: OneWriter.enters 0 0 "doc")).isSome = true := by decide +kernel
  have hentry : s.documents "doc" = some 0 := by decide +kernel
  exact ⟨hentry, registry_live (Lts.exec_reach hrun) hentry⟩

end Hocuspocus
