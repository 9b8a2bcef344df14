import Hocuspocus.Document.Idle
import Hocuspocus.Server.Handles
import Hocuspocus.Server.Commands

/-!
# No document stays without a reason

A document stays in memory for a connection, for a store that is running or due, or
for a command that is still to come; when the last of these goes, somebody has to
notice. `maybe_unload` is not called where the last connection goes by the way (an
eviction, a `Close` frame), so the invariant `Owed` says who will: the connection is
still established at its socket, or its `ack` is there, or its `RemoveConnection` is
pending, and each of these ends in a `RemoveConnection` to this actor
(`Kept.step`). It has to be carried along with the connections of `Accounted`, which
speak of the map of the actor only.

An actor that never had a connection and was never changed is left by nobody:
`maybe_unload` is not called for it. `Courted` says that a socket that has loaded a
document adds its connection, so the documents `idle_documents_leave` has to leave
out are those that a call of `direct_apply` has loaded for an update that changed
nothing.
-/

namespace Hocuspocus

variable {Y : Yrs}

namespace Spawned

/-! ## What was sent to an actor -/

theorem Live.phase {a : Spawned Y} (h : a.Live) : a.actor.phase.leaves = false := by
  cases hphase : a.actor.phase with
  | select | batch n => rfl
  | exiting => exact absurd (Or.inl hphase) h
  | stopped => exact absurd (Or.inr hphase) h

theorem Round.live {cfg : Configuration} {s : Server Y} {sends : List (Nat × DocCommand)} {j : Nat}
    {a b : Spawned Y} {l : Server.Label Y} (hround : a.Round cfg s sends j l b) (hlive : b.Live) :
    a.Live := by
  intro hleft
  have hstays : ∀ {c : Actor Y} {k : Hocuspocus.Label}, a.actor.step cfg k = some c →
      c.phase = .exiting ∨ c.phase = .stopped := by
    intro c k hstep
    rcases (hleft.step hstep).1 with hsame | hstopped
    · rw [hsame]
      exact hleft
    · exact Or.inr hstopped
  rcases hround.acts with hsame | ⟨al, hstep⟩
  · rw [Spawned.Live, Spawned.Left, hsame] at hlive
    exact hlive hleft
  · exact hlive (hstays hstep)

theorem Round.acked {cfg : Configuration} {s : Server Y} {sends : List (Nat × DocCommand)} {j : Nat}
    {a b : Spawned Y} {l : Server.Label Y} (hround : a.Round cfg s sends j l b) {ack : Nat}
    (hack : ack ∈ a.acked) : ack ∈ b.acked := by
  cases hround with
  | told =>
    unfold Spawned.receives
    split
    · exact hack
    · exact hack
  | recv | actor | drop => exact hack
  | command o cmd batch b hbatch hstep =>
    show ack ∈ cmd.ack?.elim a.acked fun ack => a.acked ++ [ack]
    cases cmd.ack? with
    | none => exact hack
    | some new => exact List.mem_append_left _ hack

/-- What was sent to an actor waits until it comes to it, or leaves. -/
theorem Round.pending {cfg : Configuration} {s : Server Y} {sends : List (Nat × DocCommand)}
    {j : Nat} {a b : Spawned Y} {l : Server.Label Y} (hround : a.Round cfg s sends j l b)
    (hlive : b.Live) {cmd : DocCommand} (hcmd : cmd ∈ a.pending) :
    cmd ∈ b.pending ∨ ∃ o batch, l = .command j o ∧ a.batch = cmd :: batch := by
  cases hround with
  | told =>
    left
    unfold Spawned.receives
    split
    · exact hcmd
    · rw [Spawned.pending, Spawned.told, ← List.append_assoc]
      exact List.mem_append_left _ hcmd
  | recv hbatch =>
    left
    rw [Spawned.pending, hbatch, List.nil_append] at hcmd
    rw [Spawned.pending, List.take_append_drop]
    exact hcmd
  | command o first batch b hbatch hstep =>
    rw [Spawned.pending, hbatch, List.cons_append] at hcmd
    have hstays : ¬ b.unloadedBy (.command first o) = true := fun hexit =>
      hlive (Actor.unloadedBy_phase hexit)
    rcases List.mem_cons.mp hcmd with rfl | hrest
    · exact Or.inr ⟨o, batch, rfl, hbatch⟩
    · left
      rw [Spawned.pending, if_neg hstays]
      exact hrest
  | actor => exact Or.inl hcmd
  | drop hstopped => exact absurd (Or.inr hstopped) hlive

/-- What is sent to an actor that has not left is pending. -/
theorem Round.sent {cfg : Configuration} {s : Server Y} {sends : List (Nat × DocCommand)} {j : Nat}
    {a b : Spawned Y} {l : Server.Label Y} (hround : a.Round cfg s sends j l b)
    (hturns : l.turns ≠ some j) (hgone : a.gone = false) {cmd : DocCommand}
    (hcmd : (j, cmd) ∈ sends) : cmd ∈ b.pending := by
  cases hround with
  | told =>
    rw [Spawned.receives, hgone, if_neg Bool.false_ne_true]
    refine List.mem_append_right _ (List.mem_append_right _ ?_)
    exact List.mem_filterMap.mpr ⟨(j, cmd), hcmd, if_pos rfl⟩
  | recv | command | actor | drop => exact absurd rfl hturns

end Spawned

namespace Server

/-! ## The way of a connection -/

/-- A socket takes a turn, or another task does. -/
theorem socket_goes {s t : Server Y} {cfg : Configuration} {l : Label Y}
    (h : Server.step cfg s l = some t) {i : Nat} {sock : Socket} (hsock : s.sockets[i]? = some sock) :
    ∃ sock', t.sockets[i]? = some sock' ∧ SocketTurn cfg s t i sock l sock' := by
  cases sockets_cases h with
  | same hsockets => exact ⟨sock, hsockets ▸ hsock, .idle l⟩
  | turn k old new hold hturn hsockets =>
    have hget := getElem?_set_of_some hold new i
    rw [hsockets]
    by_cases hki : k = i
    · subst hki
      obtain rfl : old = sock := Option.some.inj (hold.symm.trans hsock)
      exact ⟨new, hget.trans (if_pos rfl), hturn⟩
    · exact ⟨sock, (hget.trans (if_neg hki)).trans hsock, .idle l⟩
  | connect now hlabel hsockets =>
    refine ⟨sock, ?_, .idle l⟩
    rw [hsockets, List.getElem?_append_left (List.getElem?_eq_some_iff.mp hsock).1]
    exact hsock

/-- What a socket has established it keeps until `cleanup` drains it. -/
theorem SocketTurn.keeps {cfg : Configuration} {s t : Server Y} {i : Nat} {sock sock' : Socket}
    {l : Label Y} (hfresh : ∀ key, sock.task.key = some key →
      sock.client.established.get? key = none)
    (h : SocketTurn cfg s t i sock l sock') {est : Established}
    (hest : est ∈ sock.client.established.vals) :
    est ∈ sock'.client.established.vals ∨
      ∃ key, l = .leave i key ∧ sock.client.established.get? key = some est := by
  have hsteady : ∀ {sock' : Socket}, sock.Steady sock' → est ∈ sock'.client.established.vals :=
    fun hsteady => hsteady.established.symm ▸ hest
  cases h with
  | idle | hangup | timeout | calls | finds | sends | clean => exact Or.inl hest
  | receive data now htask =>
    exact Or.inl (hsteady (Socket.handleFrame_steady Y cfg now htask data).1)
  | connected request results htask =>
    exact Or.inl (hsteady (Socket.connected_steady Y htask results))
  | authenticated request results readOnly htask =>
    exact Or.inl (hsteady (Socket.authenticated_steady Y htask results readOnly s.nextConnId))
  | refused doc queues r h htask hstage =>
    left
    rw [(Socket.failed_spec _ r).1]
    exact hest
  | lost doc queues r h ack htask hstage =>
    left
    rw [(Socket.failed_spec _ r).1]
    exact hest
  | acked doc queues r h ack htask hstage =>
    left
    have hnone : sock.client.established.get? r.request.key = none :=
      hfresh _ (by rw [htask]; rfl)
    have hself : sock.client.established.get? est.key = some est :=
      Keyed.mem_iff_get?.mpr ⟨hest, rfl⟩
    -- the key that is established now was free
    have hne : est.key ≠ r.request.key := by
      intro heq
      rw [heq, hnone] at hself
      cases hself
    refine (Keyed.mem_iff_get? (k := est.key)).mp ?_ |>.1
    rw [(sock.register_spec r h).1, Keyed.get?_insert, if_neg hne]
    exact hself
  | leave key drained htask hdrained =>
    by_cases hkey : est.key = drained.key
    · right
      refine ⟨key, rfl, ?_⟩
      have hsame : est = drained :=
        List.inj_on_of_nodup_map sock.client.established.nodup hest
          (Keyed.mem_iff_get?.mp hdrained).1 hkey
      exact hsame ▸ hdrained
    · exact Or.inl (List.mem_filter.mpr ⟨hest, by simpa using hkey⟩)

/-- An `ack` that has come in is not lost. -/
theorem awaited_acked {s : Server Y} {j : Nat} {a : Spawned Y} (ha : s.actors[j]? = some a)
    {ack : Nat} (hack : ack ∈ a.acked) : s.awaited j ack = some true := by
  rw [awaited, ha]
  exact if_pos hack

/-- A socket that has its `ack` establishes the connection. -/
theorem SocketTurn.awaits {cfg : Configuration} {s t : Server Y} {i : Nat} {sock sock' : Socket}
    {l : Label Y} (h : SocketTurn cfg s t i sock l sock') {connId j ack : Nat}
    (hawaits : sock.awaits = some (connId, j, ack)) (hacked : s.awaited j ack = some true) :
    sock'.awaits = some (connId, j, ack) ∨
      ∃ est ∈ sock'.client.established.vals, est.doc = j ∧ est.connId = connId := by
  have hin : ∀ {task : SocketTask}, sock.task = task → (∀ r, task ≠ .registering r) → False := by
    intro task htask hout
    rw [Socket.awaits_out fun r hr => hout r (htask.symm.trans hr)] at hawaits
    cases hawaits
  have hstaged : ∀ {r : Registration}, sock.task = .registering r →
      (∀ j ack, r.stage ≠ .await j ack) → False := by
    intro r htask hnot
    rw [Socket.awaits_none htask hnot] at hawaits
    cases hawaits
  have hthis : ∀ {r : Registration} {k m : Nat}, sock.task = .registering r →
      r.stage = .await k m → r.connId = connId ∧ k = j ∧ m = ack := by
    intro r k m htask hstage
    rw [Socket.awaits_some htask hstage] at hawaits
    cases hawaits
    exact ⟨rfl, rfl, rfl⟩
  cases h with
  | idle => exact Or.inl hawaits
  | receive data now htask | hangup htask | timeout now htask | leave key est htask | clean htask =>
    exact (hin htask fun r hr => by cases hr).elim
  | connected request results htask | authenticated request results readOnly htask =>
    exact (hin htask fun r hr => by cases hr).elim
  | calls doc queues r call next htask hstage | finds doc queues r call k htask hstage
  | sends doc queues r k htask hstage | refused doc queues r k htask hstage =>
    refine (hstaged htask fun k m heq => ?_).elim
    rw [hstage] at heq
    cases heq
  | lost doc queues r k m htask hstage hlost =>
    obtain ⟨_, rfl, rfl⟩ := hthis htask hstage
    rw [hacked] at hlost
    cases hlost
  | acked doc queues r k m htask hstage =>
    obtain ⟨hconn, rfl, rfl⟩ := hthis htask hstage
    refine Or.inr ⟨⟨r.request.key, k, r.connId⟩, ?_, rfl, hconn⟩
    refine (Keyed.mem_iff_get? (k := r.request.key)).mp ?_ |>.1
    rw [(sock.register_spec r k).1, Keyed.get?_insert, if_pos rfl]

/-- **A connection is kept** as long as the actor stays and its `RemoveConnection` is
not handled. -/
theorem Accounted.kept_step {s t : Server Y} (hs : s.Accounted) {cfg : Configuration} {l : Label Y}
    (h : Server.step cfg s l = some t) {j : Nat} {a b : Spawned Y} (ha : s.actors[j]? = some a)
    (hround : a.Round cfg s (s.sends cfg l) j l b) (hlive : b.Live)
    (hstays : ∀ o connId batch, l = .command j o → a.batch ≠ .removeConnection connId :: batch)
    {conn : ConnHandle} (hkept : Kept s.sockets j a conn) : Kept t.sockets j b conn := by
  cases hkept with
  | established sock est hsock hest hdoc hconn =>
    obtain ⟨sock', hsock', hturn⟩ := socket_goes h hsock
    rcases hturn.keeps (hs.fresh conn.outbound sock hsock) hest with hstill | ⟨key, rfl, hget⟩
    · exact .established sock' est hsock' hstill hdoc hconn
    · -- drained by `cleanup`, which tells the actor
      refine .leaving (hround.sent (fun heq => by cases heq) (hs.there ha (hround.live hlive)) ?_)
      simp only [sends, hsock, hget, Option.elim_some]
      rw [← hdoc, ← hconn]
      exact List.mem_singleton_self _
  | acked sock ack hsock hawaits hack =>
    obtain ⟨sock', hsock', hturn⟩ := socket_goes h hsock
    rcases hturn.awaits hawaits (awaited_acked ha hack) with hstill | ⟨est, hest, hdoc, hconn⟩
    · exact .acked sock' ack hsock' hstill (hround.acked hack)
    · exact .established sock' est hsock' hest hdoc hconn
  | leaving hpending =>
    rcases hround.pending hlive hpending with hstill | ⟨o, batch, hl, hbatch⟩
    · exact .leaving hstill
    · exact absurd hbatch (hstays o conn.connId batch hl)

/-! ## Whoever is idle is owed a `RemoveConnection` -/

/-- The `before_unload` hooks agree if the step asks them. -/
def Agrees (s : Server Y) : Label Y → Prop
  | .command j o => ∀ a cmd batch, s.actors[j]? = some a → a.batch = cmd :: batch →
      a.actor.Agrees (.command cmd o)
  | .actor j l => ∀ a, s.actors[j]? = some a → a.actor.Agrees l
  | _ => True

/-- An idle actor that is still there has a connection on its way out. -/
def Owed (s : Server Y) : Prop :=
  ∀ (j : Nat) (a : Spawned Y), s.actors[j]? = some a → a.Live → a.actor.world.Idle →
    a.actor.world.Touched → ∃ conn, Kept s.sockets j a conn

/-- Where nothing is unsaved and nobody is owed, somebody is connected. -/
theorem Owed.keeps {s : Server Y} (hs : s.Owed) (haccounted : s.Accounted) {j : Nat} {a : Spawned Y}
    (ha : s.actors[j]? = some a) (hlive : a.Live) (hclean : a.actor.world.dirty = false)
    (hstored : a.actor.world.storing = false) (htouched : a.actor.world.Touched) :
    ∃ conn, Kept s.sockets j a conn := by
  by_cases hempty : a.actor.world.connections.isEmpty = true
  · exact hs j a ha hlive ⟨hempty, hclean, hstored⟩ htouched
  · have hsome : ∃ id, a.actor.world.connections.get? id ≠ none := by
      by_contra hnone
      exact hempty (Keyed.isEmpty_iff.mpr fun id => Classical.not_not.mp (not_exists.mp hnone id))
    obtain ⟨id, hid⟩ := hsome
    obtain ⟨conn, hconn⟩ := Option.ne_none_iff_exists'.mp hid
    exact ⟨conn, haccounted.kept j a ha id conn hconn⟩

theorem Owed.step {s t : Server Y} (hs : s.Owed) (haccounted : s.Accounted) {cfg : Configuration}
    {l : Label Y} (hagrees : s.Agrees l) (h : Server.step cfg s l = some t) : t.Owed := by
  intro j b hb hlive hidle htouched
  rcases step_known h hb with ⟨a, ha⟩ | ⟨_, name, doc, queues, rfl⟩
  · obtain ⟨b', hb', hround⟩ := step_round h ha
    obtain rfl : b' = b := Option.some.inj (hb'.symm.trans hb)
    have hwas := hround.live hlive
    suffices hold : (∃ conn, Kept s.sockets j a conn) ∧
        ∀ o connId batch, l = .command j o → a.batch ≠ .removeConnection connId :: batch by
      obtain ⟨⟨conn, hkept⟩, hstays⟩ := hold
      exact ⟨conn, haccounted.kept_step h ha hround hlive hstays hkept⟩
    cases hround with
    | told l hturns =>
      have hsame : (a.receives j (s.sends cfg l)).actor = a.actor := by
        unfold Spawned.receives
        split <;> rfl
      rw [hsame] at hidle htouched
      refine ⟨hs j a ha hwas hidle htouched, fun o connId batch hl => ?_⟩
      subst hl
      exact absurd rfl hturns
    | recv =>
      exact ⟨hs j a ha hwas hidle htouched, fun o connId batch hl => by cases hl⟩
    | drop hstopped => exact absurd (Or.inr hstopped) hwas
    | command o cmd batch b hbatch hstep =>
      obtain ⟨hnot, hclean, hstored, hbefore⟩ :=
        Actor.step_idle hstep (hagrees a cmd batch ha hbatch) hlive.phase hidle
      refine ⟨hs.keeps haccounted ha hwas hclean hstored (hbefore htouched),
        fun o' connId rest hl heq => ?_⟩
      rw [hbatch] at heq
      cases heq
      exact hnot connId o rfl
    | actor k b hplain hbetween hclosed hstep =>
      obtain ⟨_, hclean, hstored, hbefore⟩ :=
        Actor.step_idle hstep (hagrees a ha) hlive.phase hidle
      exact ⟨hs.keeps haccounted ha hwas hclean hstored (hbefore htouched),
        fun o connId batch hl => by cases hl⟩
  · -- a new actor has done nothing yet
    rcases htouched with ⟨handle, hadded⟩ | hbegun
    · cases hadded
    · cases hbegun

/-! ## Whoever was never connected is courted -/

/-- A socket is on its way to add a connection to the actor. -/
inductive Courts (s : Server Y) (j : Nat) (a : Spawned Y) : Prop
  | comes (i : Nat) (st : Stage) (hstage : s.stage (.inl i) = some st) (hholds : st.holds j = true)
    (hnot : ∀ ack, st ≠ .await j ack)
  | waits (i ack : Nat) (handle : ConnHandle) (hstage : s.stage (.inl i) = some (.await j ack))
    (hpending : .addConnection handle ack ∈ a.pending)

def Courted (s : Server Y) : Prop :=
  ∀ (j : Nat) (a : Spawned Y), s.actors[j]? = some a → a.Live →
    (∀ handle, .added handle ∉ a.actor.world.trace) → s.Courts j a

theorem stage_inl {s : Server Y} {i : Nat} {st : Stage} (h : s.stage (.inl i) = some st) :
    ∃ sock r, s.sockets[i]? = some sock ∧ sock.task = .registering r ∧ r.stage = st := by
  obtain ⟨sock, hsock, hstage⟩ := Option.bind_eq_some_iff.mp h
  unfold SocketTask.stage at hstage
  split at hstage
  next r htask => exact ⟨sock, r, hsock, htask, Option.some.inj hstage⟩
  next => cases hstage

theorem stage_registering {s : Server Y} {i : Nat} {sock : Socket} {r : Registration}
    (hsock : s.sockets[i]? = some sock) (htask : sock.task = .registering r) :
    s.stage (.inl i) = some r.stage := by
  rw [stage, hsock, Option.bind_some, htask]
  rfl

/-- A registration that sends to an actor whose receiver is there is not refused. -/
theorem introduce_accepted {s : Server Y} {j : Nat} {a : Spawned Y} (ha : s.actors[j]? = some a)
    (hgone : a.gone = false) (i : Nat) (sock : Socket) (r : Registration) :
    (s.introduce i sock r j).2 = true := by
  unfold introduce Server.send
  rw [ha]
  dsimp only
  rw [hgone]
  rfl

theorem register_sends {s t : Server Y} {cfg : Configuration} {i : Nat} {doc : Y.Doc}
    {queues : Queues} (h : Server.step cfg s (.register i doc queues) = some t) {sock : Socket}
    {r : Registration} (hsock : s.sockets[i]? = some sock) (htask : sock.task = .registering r)
    {j : Nat} (hstage : r.stage = .send j) {a : Spawned Y} (ha : s.actors[j]? = some a)
    (hgone : a.gone = false) :
    t.stage (.inl i) = some (.await j s.nextAck) ∧
      (j, .addConnection (sock.connHandle i r) s.nextAck) ∈ s.sends cfg (.register i doc queues) := by
  have hsends : (j, .addConnection (sock.connHandle i r) s.nextAck)
      ∈ s.sends cfg (.register i doc queues) := by
    obtain ⟨client, task, trace⟩ := sock
    cases htask
    simp only [sends, hsock, hstage]
    exact List.mem_singleton_self _
  refine ⟨?_, hsends⟩
  cases step_cases h with
  | register _ _ _ sock₁ r₁ _ hsock₁ htask₁ hregister =>
    obtain rfl : sock = sock₁ := Option.some.inj (hsock.symm.trans hsock₁)
    obtain rfl : r = r₁ := by
      rw [htask] at htask₁
      cases htask₁
      rfl
    have hother : ∀ {st : Stage}, r.stage = st → st = .send j := fun heq => heq.symm.trans hstage
    cases registerStep_cases hregister with
    | sends k hsend =>
      cases hother hsend
      have hsame : (s.introduce i sock r j).1.sockets = s.sockets := send_sockets _ j _
      have hnew := (getElem?_set_of_some (hsame.symm ▸ hsock) { s.introduced i sock r j with
        task := .registering { r with stage := .await j s.nextAck } } i).trans (if_pos rfl)
      exact stage_registering (s := setSocket _ i _) (r := { r with stage := .await j s.nextAck })
        hnew rfl
    | refused k hsend hrefused =>
      cases hother hsend
      exact absurd (introduce_accepted ha hgone i sock r) hrefused
    | calls call next u hcalls | finds call k u hcalls => cases hother hcalls
    | acked k ack hawaits | lost k ack hawaits => cases hother hawaits

/-- **The step lemma.** -/
theorem Courts.step {s t : Server Y} {cfg : Configuration} {l : Label Y} (haccounted : s.Accounted)
    (h : Server.step cfg s l = some t) {j : Nat} {a b : Spawned Y} (ha : s.actors[j]? = some a)
    (hround : a.Round cfg s (s.sends cfg l) j l b) (hlive : b.Live)
    (hnever : ∀ handle, .added handle ∉ b.actor.world.trace) (hs : s.Courts j a) :
    t.Courts j b := by
  have hgone : a.gone = false := haccounted.there ha (hround.live hlive)
  cases hs with
  | comes i st hstage hholds hnot =>
    obtain ⟨sock, r, hsock, htask, rfl⟩ := stage_inl hstage
    obtain ⟨sock', hsock', hturn⟩ := socket_goes h hsock
    have hout : ∀ {task : SocketTask}, sock.task = task → task = .registering r :=
      fun heq => heq.symm.trans htask
    have hthis : ∀ {r' : Registration}, sock.task = .registering r' → r' = r := by
      intro r' heq
      cases hout heq
      rfl
    cases hturn with
    | idle => exact .comes i r.stage (stage_registering hsock' htask) hholds hnot
    | receive data now htask' | hangup htask' | timeout now htask' | leave key est htask'
    | clean htask' => cases hout htask'
    | connected request results htask' | authenticated request results readOnly htask' =>
      cases hout htask'
    | calls doc queues r' call next htask' hcalls hcall =>
      obtain rfl := hthis htask'
      obtain ⟨u, hcall, _⟩ := hcall
      rw [hcalls] at hholds
      have hcomes := stage_registering hsock' (r := { r' with stage := .document next }) rfl
      cases documentStep_cases hcall with
      | inserts k m => exact .comes i _ hcomes hholds fun ack heq => by cases heq
      | missing | joins | creates | locks | loads | spawns => cases hholds
    | finds doc queues r' call m htask' hcalls hcall =>
      obtain rfl := hthis htask'
      obtain ⟨u, hcall, _⟩ := hcall
      rw [hcalls] at hholds
      have hcomes := stage_registering hsock' (r := { r' with stage := .send m }) rfl
      cases documentStep_cases hcall with
      | forgets k => exact .comes i _ hcomes hholds fun ack heq => by cases heq
      | found | late => cases hholds
    | sends doc queues r' m htask' hsends =>
      obtain rfl := hthis htask'
      rw [hsends] at hholds
      obtain rfl : m = j := of_decide_eq_true hholds
      obtain ⟨hawaits, hsent⟩ := register_sends h hsock htask hsends ha hgone
      exact .waits i s.nextAck _ hawaits (hround.sent (fun heq => by cases heq) hgone hsent)
    | refused doc queues r' m htask' hsends =>
      obtain rfl := hthis htask'
      rw [hsends] at hholds
      obtain rfl : m = j := of_decide_eq_true hholds
      obtain ⟨hawaits, hsent⟩ := register_sends h hsock htask hsends ha hgone
      exact .waits i s.nextAck _ hawaits (hround.sent (fun heq => by cases heq) hgone hsent)
    | acked doc queues r' m ack htask' hawaits | lost doc queues r' m ack htask' hawaits =>
      obtain rfl := hthis htask'
      rw [hawaits] at hholds
      obtain rfl : m = j := of_decide_eq_true hholds
      exact absurd hawaits (hnot ack)
  | waits i ack handle hstage hpending =>
    obtain ⟨sock, r, hsock, htask, hawaits⟩ := stage_inl hstage
    obtain ⟨sock', hsock', hturn⟩ := socket_goes h hsock
    -- the command is there, so the `ack` is neither sent nor lost
    have hnone : ∀ acked, s.awaited j ack ≠ some acked := by
      intro acked heq
      cases acked with
      | false => exact (awaited_false heq ha).2 _ hpending rfl
      | true =>
        obtain ⟨a', ha', hacked⟩ := awaited_true heq
        obtain rfl : a = a' := Option.some.inj (ha.symm.trans ha')
        have hnodup := (haccounted.acks j a ha).1
        refine (List.nodup_append.mp hnodup).2.2 ack ?_ ack hacked rfl
        exact List.mem_filterMap.mpr ⟨_, hpending, rfl⟩
    have hwaits : t.stage (.inl i) = some (.await j ack) := by
      have hnew : t.stage (.inl i) = sock'.task.stage := by
        rw [Server.stage, hsock']
        rfl
      have hout : ∀ {task : SocketTask}, sock.task = task → task = .registering r :=
        fun heq => heq.symm.trans htask
      have hthis : ∀ {r' : Registration} {st : Stage}, sock.task = .registering r' →
          r'.stage = st → st = .await j ack := by
        intro r' st heq hst
        cases hout heq
        exact hst.symm.trans hawaits
      cases hturn with
      | idle => rw [hnew, htask, SocketTask.stage, hawaits]
      | receive data now htask' | hangup htask' | timeout now htask' | leave key est htask'
      | clean htask' => cases hout htask'
      | connected request results htask' | authenticated request results readOnly htask' =>
        cases hout htask'
      | calls doc queues r' call next htask' hst | finds doc queues r' call m htask' hst
      | sends doc queues r' m htask' hst | refused doc queues r' m htask' hst =>
        cases hthis htask' hst
      | acked doc queues r' m ack' htask' hst hacked =>
        cases hthis htask' hst
        exact absurd hacked (hnone true)
      | lost doc queues r' m ack' htask' hst hlost =>
        cases hthis htask' hst
        exact absurd hlost (hnone false)
    refine .waits i ack handle hwaits ?_
    rcases hround.pending hlive hpending with hstill | ⟨o, batch, rfl, hbatch⟩
    · exact hstill
    · cases hround with
      | told _ hturns => exact absurd rfl hturns
      | command _ cmd rest b hbatch' hstep =>
        rw [hbatch] at hbatch'
        cases hbatch'
        exact absurd (Actor.step_added hstep) (hnever handle)

/-- Calls of `direct_apply` are not forgotten. -/
theorem edits_grow {s t : Server Y} {cfg : Configuration} {l : Label Y}
    (h : Server.step cfg s l = some t) : s.edits.length ≤ t.edits.length := by
  have hsame : t.edits = s.edits → s.edits.length ≤ t.edits.length := fun heq => by rw [heq]
  cases step_cases h with
  | connect | hangup | timeout | connected | authenticated | clean | unknown | recv | drop =>
    exact hsame rfl
  | receive i data now sock hsock htask | leave i key sock est hsock htask hest =>
    exact hsame (sendAll_edits _ (s.setSocket i _))
  | register i doc queues sock r t hsock htask h => exact hsame (registerStep_edits h)
  | apply name update =>
    rw [List.length_append]
    exact Nat.le_add_right _ _
  | direct k doc queues e t he h =>
    refine Nat.le_of_eq ?_
    cases directStep_cases h with
    | calls call next u hreturned hstage hcall | finds call handle u hreturned hstage hcall =>
      rw [List.length_set, (documentStep_sockets hcall).2]
    | sends handle sent hreturned hstage hsent =>
      rw [List.length_set, hsent]
      exact congrArg List.length
        (send_edits { s with nextAck := s.nextAck + 1 } handle _).symm
    | answered => rw [List.length_set]
  | external name data j hdoc => exact hsame (send_edits s j _)
  | command | actor => exact hsame (unloading_parts _ _ _).2.2

/-- A new actor is about to be inserted by the task that has loaded it. -/
theorem spawned_inserting {s t : Server Y} {cfg : Configuration} {l : Label Y}
    (h : Server.step cfg s l = some t) {b : Spawned Y} (hb : t.actors[s.actors.length]? = some b) :
    ∃ τ k, t.stage τ = some (.document (.insert k s.actors.length)) := by
  have hlonger : s.actors.length < t.actors.length := (List.getElem?_eq_some_iff.mp hb).1
  have hnot : t.actors.length ≠ s.actors.length := hlonger.ne'
  cases registry_cases h with
  | quiet hdocuments hlocks hcalls hlength => exact absurd hlength hnot
  | removes name hdocuments hlocks hcalls hlength => exact absurd hlength hnot
  | calls τ name c doc queues u next htask hcall hstep hdocuments hlocks hactors hcalls =>
    rw [hactors] at hnot
    cases documentStep_cases hstep with
    | found | missing | joins | creates | locks | late | loads | inserts | forgets =>
      exact absurd rfl hnot
    | spawns k =>
      have hinserts : t.call τ = some (name, .insert k s.actors.length) := by
        rw [hcalls, if_pos rfl]
        rfl
      exact ⟨τ, k, stage_of_call hinserts⟩

theorem Courted.step {s t : Server Y} (hs : s.edits = [] → s.Courted) (haccounted : s.Accounted)
    {cfg : Configuration} {l : Label Y} (h : Server.step cfg s l = some t) :
    t.edits = [] → t.Courted := by
  intro hnone j b hb hlive hnever
  have hbefore : s.edits = [] := by
    have hgrow := edits_grow h
    rw [hnone] at hgrow
    exact List.eq_nil_of_length_eq_zero (Nat.le_zero.mp hgrow)
  rcases step_known h hb with ⟨a, ha⟩ | ⟨rfl, _⟩
  · obtain ⟨b', hb', hround⟩ := step_round h ha
    obtain rfl : b' = b := Option.some.inj (hb'.symm.trans hb)
    obtain ⟨c, hc, hturn⟩ := step_turn h ha
    obtain rfl : c = b' := Option.some.inj (hc.symm.trans hb')
    have hbefore' := hs hbefore j a ha (hround.live hlive) fun handle hadded =>
      hnever handle (hturn.grows.subset hadded)
    exact hbefore'.step haccounted h ha hround hlive hnever
  · obtain ⟨τ, k, hstage⟩ := spawned_inserting h hb
    cases τ with
    | inl i => exact .comes i _ hstage (decide_eq_true rfl) fun ack heq => by cases heq
    | inr m =>
      obtain ⟨e, he, _⟩ := Option.bind_eq_some_iff.mp hstage
      rw [hnone] at he
      cases he

/-! ## When everybody has left -/

/-- Every socket is closed, every command was handled, and no store is running or
due. -/
structure Deserted (cfg : Configuration) (s : Server Y) : Prop where
  sockets : ∀ (i : Nat) (sock : Socket), s.sockets[i]? = some sock → sock.task = .ended
  pending : ∀ (j : Nat) (a : Spawned Y), s.actors[j]? = some a → a.pending = []
  tasks : ∀ (j : Nat) (a : Spawned Y), s.actors[j]? = some a → a.actor.world.storeTasks = []
  results : ∀ (j : Nat) (a : Spawned Y), s.actors[j]? = some a → a.actor.world.storeResults = []
  due : ∀ (j : Nat) (a : Spawned Y), s.actors[j]? = some a →
    a.actor.world.storeDeadline cfg = none

theorem Deserted.unkept {cfg : Configuration} {s : Server Y} (hs : s.Deserted cfg)
    (haccounted : s.Accounted) {j : Nat} {a : Spawned Y} (ha : s.actors[j]? = some a)
    (conn : ConnHandle) : ¬ Kept s.sockets j a conn := by
  intro hkept
  cases hkept with
  | established sock est hsock hest hdoc hconn =>
    have hempty := haccounted.ended _ sock hsock (hs.sockets _ sock hsock)
    have hnone := Keyed.isEmpty_iff.mp hempty est.key
    rw [Keyed.mem_iff_get?.mpr ⟨hest, rfl⟩] at hnone
    cases hnone
  | acked sock ack hsock hawaits hack =>
    rw [Socket.awaits, hs.sockets _ sock hsock] at hawaits
    cases hawaits
  | leaving hpending =>
    rw [hs.pending j a ha] at hpending
    cases hpending

theorem Deserted.unsent {cfg : Configuration} {s : Server Y} (hs : s.Deserted cfg) {j : Nat}
    {a : Spawned Y} : ¬ s.Courts j a := by
  have hnone : ∀ {i : Nat} {st : Stage}, s.stage (.inl i) ≠ some st := by
    intro i st hstage
    obtain ⟨sock, r, hsock, htask, _⟩ := stage_inl hstage
    rw [hs.sockets i sock hsock] at htask
    cases htask
  intro hcourts
  cases hcourts with
  | comes i st hstage => exact hnone hstage
  | waits i ack handle hstage => exact hnone hstage

/-- What an actor has to remember to be stored. -/
structure Minds (a : Actor Y) : Prop where
  timers : a.world.timers.Agree
  running : a.world.view.Running
  noted : a.world.view.Noted

theorem minds_of_run {cfg : Configuration} {ls : List (Label Y)} {s : Server Y}
    (hrun : Lts.exec (Server.step cfg) (build Y) ls = some s) {j : Nat} {a : Spawned Y}
    (ha : s.actors[j]? = some a) : Minds a.actor := by
  refine actors_invariant (fun name doc queues => ⟨⟨rfl, rfl⟩, nofun, nofun⟩)
    (fun a l b hstep h => ⟨?_, ?_, ?_⟩) hrun ha
  · exact h.timers.step (Actor.step_ticks hstep)
  · exact Actor.step_preserve (fun _ _ => View.Running.move) (fun _ hv => hv) hstep h.running
  · exact Actor.step_preserve (fun _ _ => View.Noted.move) (fun _ hv => hv) hstep h.noted

theorem Deserted.idle {cfg : Configuration} {s : Server Y} (hs : s.Deserted cfg)
    (haccounted : s.Accounted) {j : Nat} {a : Spawned Y} (ha : s.actors[j]? = some a)
    (hminds : Minds a.actor) : a.actor.world.Idle := by
  have hstored : a.actor.world.storing = false := by
    cases hruns : a.actor.world.storing with
    | false => rfl
    | true =>
      rcases hminds.running hruns with htasks | hresults
      · exact absurd (hs.tasks j a ha) htasks
      · exact absurd (hs.results j a ha) hresults
  refine ⟨Keyed.isEmpty_iff.mpr fun id => ?_, ?_, hstored⟩
  · cases hconn : a.actor.world.connections.get? id with
    | none => rfl
    | some conn => exact absurd (haccounted.kept j a ha id conn hconn) (hs.unkept haccounted ha conn)
  · cases hdirty : a.actor.world.dirty with
    | false => rfl
    | true =>
      have hdue : (a.actor.world.storeDeadline cfg).isSome = true :=
        (World.storeDeadline_isSome hminds.timers).mpr ⟨hdirty, hstored⟩
      rw [hs.due j a ha] at hdue
      cases hdue

end Server

/-- **Nothing stays resident.** Where every socket is closed, every command handled
and no store running or due, and the `before_unload` hooks have agreed wherever they
were asked, a document that ever had a connection or was ever changed has left. An
entry of the registry is then an actor that is there and had neither; and if
`direct_apply` was never called there is no entry. -/
theorem deserted_documents_leave {cfg : Configuration} {ls : List (Server.Label Y)} {s : Server Y}
    (hrun : Lts.exec (Server.step cfg) (Server.build Y) ls = some s)
    (hagrees : Lts.Along (Server.step cfg) (fun s l _ => s.Agrees l) (Server.build Y) ls)
    (hdeserted : s.Deserted cfg) :
    (∀ (j : Nat) (a : Spawned Y), s.actors[j]? = some a →
      (∃ handle, .added handle ∈ a.actor.world.trace) ∨
        (∃ update origin clients, .onChange update origin clients ∈ a.actor.world.trace) →
      a.Left) ∧
    (∀ name j, s.documents name = some j → ∃ a, s.actors[j]? = some a ∧ a.Live ∧
      (∀ handle, .added handle ∉ a.actor.world.trace) ∧
      ∀ update origin clients, .onChange update origin clients ∉ a.actor.world.trace) ∧
    (s.edits = [] → ∀ name, s.documents name = none) := by
  have haccounted : s.Accounted := Lts.exec_invariant
    (fun _ _ _ hstep hs => hs.step hstep) hrun (Server.build_accounted Y)
  have hhandles := Server.handles_of_run hrun
  obtain ⟨_, howed, hcourted⟩ : s.Accounted ∧ s.Owed ∧ (s.edits = [] → s.Courted) :=
    Lts.exec_invariant_along (I := fun u : Server Y =>
        u.Accounted ∧ u.Owed ∧ (u.edits = [] → u.Courted))
      (fun _ _ _ hstep hagree hs => ⟨hs.1.step hstep, hs.2.1.step hs.1 hagree hstep,
        Server.Courted.step hs.2.2 hs.1 hstep⟩) hagrees hrun
      ⟨Server.build_accounted Y, (fun j a ha => by cases ha), fun _ j a ha => by cases ha⟩
  have hleft : ∀ (j : Nat) (a : Spawned Y), s.actors[j]? = some a →
      (∃ handle, .added handle ∈ a.actor.world.trace) ∨
        (∃ update origin clients, .onChange update origin clients ∈ a.actor.world.trace) →
      a.Left := by
    intro j a ha hsome
    by_contra hlive
    have hminds := Server.minds_of_run hrun ha
    have hidle := hdeserted.idle haccounted ha hminds
    have htouched : a.actor.world.Touched := by
      rcases hsome with hadded | ⟨update, origin, clients, hchange⟩
      · exact Or.inl hadded
      · -- a change that is saved was stored
        rcases hminds.noted update origin clients (List.mem_filter.mpr ⟨hchange, rfl⟩) with
          hdirty | ⟨state, hstore⟩
        · have hclean : a.actor.world.view.content.dirty = false := hidle.clean
          rw [hclean] at hdirty
          cases hdirty
        · exact Or.inr (World.begun_of_snapshot hstore)
    obtain ⟨conn, hkept⟩ := howed j a ha hlive hidle htouched
    exact hdeserted.unkept haccounted ha conn hkept
  refine ⟨hleft, fun name j hentry => ?_, fun hnone name => ?_⟩
  · obtain ⟨a, ha, hlive⟩ := hhandles.entered name j hentry
    exact ⟨a, ha, hlive, fun handle h => hlive (hleft j a ha (Or.inl ⟨handle, h⟩)),
      fun update origin clients h => hlive (hleft j a ha (Or.inr ⟨update, origin, clients, h⟩))⟩
  · cases hentry : s.documents name with
    | none => rfl
    | some j =>
      obtain ⟨a, ha, hlive⟩ := hhandles.entered name j hentry
      have hcourts := hcourted hnone j a ha hlive fun handle h =>
        hlive (hleft j a ha (Or.inl ⟨handle, h⟩))
      exact absurd hcourts hdeserted.unsent

namespace Server

/-- No hook the label could ask refuses. -/
def Label.agrees : Label Y → Bool
  | .command _ o | .actor _ (.command _ o) | .actor _ (.storeResult o) | .actor _ (.deadline o) =>
    (firstError o.beforeUnload).isNone
  | _ => true

theorem agrees_of_label {s : Server Y} {l : Label Y} (h : l.agrees = true) : s.Agrees l := by
  have hcall : ∀ {a : Actor Y} {k : Hocuspocus.Label} {o : Ambient} {w : World Y},
      a.unloadCall k = some (o, w) →
      (∃ cmd, k = .command cmd o) ∨ k = .storeResult o ∨ k = .deadline o := by
    intro a k o w hcall
    unfold Actor.unloadCall at hcall
    split at hcall
    next =>
      cases hcall
      exact Or.inl ⟨_, rfl⟩
    next =>
      split at hcall
      · cases hcall
        exact Or.inr (Or.inl rfl)
      · cases hcall
    next =>
      split at hcall
      · cases hcall
        exact Or.inr (Or.inr rfl)
      · cases hcall
    next => cases hcall
  cases l with
  | command j o =>
    intro a cmd batch ha hbatch o' w hunload
    rcases hcall hunload with ⟨_, heq⟩ | heq | heq
    · cases heq
      exact Option.isNone_iff_eq_none.mp h
    · cases heq
    · cases heq
  | actor j k =>
    intro a ha o w hunload
    rcases hcall hunload with ⟨cmd, rfl⟩ | rfl | rfl
    · exact Option.isNone_iff_eq_none.mp h
    · exact Option.isNone_iff_eq_none.mp h
    · exact Option.isNone_iff_eq_none.mp h
  | connect | receive | hangup | timeout | connected | authenticated | register | leave | clean
  | apply | direct | external | recv | drop => trivial

def deserted (cfg : Configuration) (s : Server Y) : Bool :=
  (s.sockets.all fun sock => decide (sock.task = .ended)) && s.actors.all fun a =>
    a.pending.isEmpty && a.actor.world.storeTasks.isEmpty && a.actor.world.storeResults.isEmpty &&
      (a.actor.world.storeDeadline cfg).isNone

theorem deserted_spec {cfg : Configuration} {s : Server Y} (h : s.deserted cfg = true) :
    s.Deserted cfg := by
  obtain ⟨hsockets, hactors⟩ := Bool.and_eq_true_iff.mp h
  have hall : ∀ (j : Nat) (a : Spawned Y), s.actors[j]? = some a → ((a.pending = [] ∧
      a.actor.world.storeTasks = []) ∧ a.actor.world.storeResults = []) ∧
      a.actor.world.storeDeadline cfg = none := by
    intro j a ha
    have hone := List.all_eq_true.mp hactors a (List.mem_of_getElem? ha)
    simpa only [Bool.and_eq_true, List.isEmpty_iff, Option.isNone_iff_eq_none] using hone
  exact ⟨fun i sock hsock => of_decide_eq_true
      (List.all_eq_true.mp hsockets sock (List.mem_of_getElem? hsock)),
    fun j a ha => (hall j a ha).1.1.1, fun j a ha => (hall j a ha).1.1.2,
    fun j a ha => (hall j a ha).1.2, fun j a ha => (hall j a ha).2⟩

end Server

def Event.adds : Event Y → Bool
  | .added _ => true
  | _ => false

/-- A client joins, edits and hangs up. -/
def visited : List (Server.Label OneWriter.yrs) :=
  .connect 0 :: (OneWriter.enters 0 0 "doc" ++ .receive 0 (OneWriter.editFrame 0) 0 ::
    OneWriter.handles 0 ++ [.hangup 0, .leave 0 "doc", .clean 0] ++ OneWriter.handles 0)

theorem deserted_documents_leave_visited :
    (∃ a, (OneWriter.serve {} visited).actors[0]? = some a ∧ a.Left) ∧
    (OneWriter.serve {} visited).documents "doc" = none := by
  have hrun : (Lts.exec (Server.step {}) (Server.build OneWriter.yrs) visited).isSome = true := by
    decide +kernel
  have hagrees : Lts.Along (Server.step {}) (fun s l _ => s.Agrees l)
      (Server.build OneWriter.yrs) visited :=
    Lts.along_of_check (fun _ l _ (h : l.agrees = true) => Server.agrees_of_label h)
      (by decide +kernel)
  have hdeserted : (OneWriter.serve {} visited).deserted {} = true := by decide +kernel
  have hall := deserted_documents_leave (Lts.exec_reach hrun) hagrees
    (Server.deserted_spec hdeserted)
  have hadded : (((OneWriter.serve {} visited).actors[0]?).map fun a =>
      a.actor.world.trace.any Event.adds) = some true := by decide +kernel
  obtain ⟨a, ha, hany⟩ := Option.map_eq_some_iff.mp hadded
  obtain ⟨e, he, hadds⟩ := List.any_eq_true.mp hany
  refine ⟨⟨a, ha, hall.1 0 a ha (Or.inl ?_)⟩, hall.2.2 (by decide +kernel) "doc"⟩
  cases e with
  | added handle => exact ⟨handle, he⟩
  | _ => cases hadds

end Hocuspocus
