import Hocuspocus.Document.Delivery
import Hocuspocus.OneWriter

/-!
# Coalesced broadcast keeps clients in sync

A document is read as a causal replica (`Yrs.Replicated`), and a client as a
document that replays the sync frames the actor sent it. Between batches such
a client has everything the server has; inside a batch it has everything up
to the batch's base (`Follows`). Three facts about the actor carry that along
a run: the base is captured before the first change of a batch and kept until
the flush (`Leads`), the base never runs ahead of the document (`Based`), and
a frame that is not refused reaches the client.

The replies to the client's own sync requests, and anything else it is sent,
only add to what it has.
-/

namespace Hocuspocus

open Causal

variable {Y : Yrs}

/-! ## The client -/

/-- Apply encoded bytes, as a provider does. -/
def applyBytes (doc : Y.Doc) (update : Bytes) : Y.Doc :=
  match Y.decodeUpdate update with
  | some u => (Y.applyUpdate doc u).1
  | none => doc

/-- A client document after a frame: the updates in SyncStep2 and Update
messages are applied, everything else passes it by. -/
def clientApply (doc : Y.Doc) (data : Bytes) : Y.Doc :=
  match IncomingFrame.parse Y data with
  | none => doc
  | some frame =>
    match frame.messageType with
    | .sync | .syncReply =>
      match Y.decodeSync frame.decoder with
      | some (.syncStep2 update) | some (.update update) => applyBytes doc update
      | _ => doc
    | _ => doc

def clientReplay (doc : Y.Doc) (frames : List Bytes) : Y.Doc := frames.foldl clientApply doc

/-- The frames a connection's queue accepted. -/
def framesTo (connId : Nat) (t : List (Event Y)) : List Bytes :=
  t.filterMap fun
    | .frame id _ bytes .accepted => if id = connId then some bytes else none
    | _ => none

/-- None of the frames to the connection was refused. -/
def NeverRefused (connId : Nat) (t : List (Event Y)) : Prop :=
  ∀ q bytes res, Event.frame connId q bytes res ∈ t → res = .accepted

instance (connId : Nat) (t : List (Event Y)) : Decidable (NeverRefused connId t) :=
  decidable_of_iff
    (t.all (fun | .frame id _ _ res => id ≠ connId || res = .accepted | _ => true) = true) (by
      rw [List.all_eq_true]
      constructor
      · intro h q bytes res hmem
        simpa using h _ hmem
      · intro h e hmem
        split
        next id q bytes res =>
          by_cases hid : id = connId
          · subst hid
            simpa using h q bytes res hmem
          · simp [hid]
        next => rfl)

theorem NeverRefused.left {connId : Nat} {t₁ t₂ : List (Event Y)}
    (h : NeverRefused connId (t₁ ++ t₂)) : NeverRefused connId t₁ :=
  fun q bytes res hmem => h q bytes res (List.mem_append_left _ hmem)

theorem NeverRefused.right {connId : Nat} {t₁ t₂ : List (Event Y)}
    (h : NeverRefused connId (t₁ ++ t₂)) : NeverRefused connId t₂ :=
  fun q bytes res hmem => h q bytes res (List.mem_append_right _ hmem)

@[simp] theorem framesTo_append (connId : Nat) (t₁ t₂ : List (Event Y)) :
    framesTo connId (t₁ ++ t₂) = framesTo connId t₁ ++ framesTo connId t₂ :=
  List.filterMap_append

/-- A frame that was offered and not refused was accepted. -/
theorem mem_framesTo {connId : Nat} {t : List (Event Y)} (h : NeverRefused connId t) {q : Nat}
    {bytes : Bytes} {res : SendResult} (hmem : Event.frame connId q bytes res ∈ t) :
    bytes ∈ framesTo connId t := by
  obtain rfl := h q bytes res hmem
  exact List.mem_filterMap.mpr ⟨_, hmem, if_pos rfl⟩

theorem clientReplay_append (doc : Y.Doc) (fs gs : List Bytes) :
    clientReplay doc (fs ++ gs) = clientReplay (clientReplay doc fs) gs :=
  List.foldl_append

section Replicas

variable {Op : Type} (R : Y.Replicated Op)

/-- `d'` has received all that `d` has. -/
def Grows (d d' : Y.Doc) : Prop := (R.rep d).recv ⊆ (R.rep d').recv ∧ (R.rep d).dels ⊆ (R.rep d').dels

theorem Grows.refl (d : Y.Doc) : Grows R d d := ⟨subset_rfl, subset_rfl⟩

variable {R}

theorem Grows.trans {d₁ d₂ d₃ : Y.Doc} (h₁ : Grows R d₁ d₂) (h₂ : Grows R d₂ d₃) : Grows R d₁ d₃ :=
  ⟨h₁.1.trans h₂.1, h₁.2.trans h₂.2⟩

theorem grows_applyUpdate (herr : Y.ErrKeepsDoc) (d : Y.Doc) (u : Y.Update) :
    Grows R d (Y.applyUpdate d u).1 := by
  cases hok : (Y.applyUpdate d u).2 with
  | true =>
    rw [Grows, R.rep_apply d u hok]
    exact ⟨Replica.recv_apply _ _, Replica.dels_apply _ _⟩
  | false =>
    rw [herr d u hok]
    exact Grows.refl R d

theorem grows_applyBytes (herr : Y.ErrKeepsDoc) (d : Y.Doc) (update : Bytes) :
    Grows R d (applyBytes d update) := by
  unfold applyBytes
  split
  · exact grows_applyUpdate herr d _
  · exact Grows.refl R d

theorem grows_clientApply (herr : Y.ErrKeepsDoc) (d : Y.Doc) (data : Bytes) :
    Grows R d (clientApply d data) := by
  unfold clientApply
  split
  · exact Grows.refl R d
  · split
    · split
      · exact grows_applyBytes herr d _
      · exact grows_applyBytes herr d _
      · exact Grows.refl R d
    · split
      · exact grows_applyBytes herr d _
      · exact grows_applyBytes herr d _
      · exact Grows.refl R d
    · exact Grows.refl R d

theorem grows_clientReplay (herr : Y.ErrKeepsDoc) (frames : List Bytes) (d : Y.Doc) :
    Grows R d (clientReplay d frames) := by
  induction frames generalizing d with
  | nil => exact Grows.refl R d
  | cons f fs ih => exact (grows_clientApply herr d f).trans (ih (clientApply d f))

variable (R)

/-- `c` has received all insertions and deletions of `s`. -/
structure Has (c s : Y.Doc) : Prop where
  ins : (R.rep s).ins R.deps ⊆ (R.rep c).recv
  gone : (R.rep s).gone R.deps ⊆ (R.rep c).dels

variable {R}

theorem Has.contains {c s : Y.Doc} (h : Has R c s) : Replica.Contains R.deps (R.rep c) (R.rep s) :=
  Replica.contains_of_recv h.ins h.gone

theorem Has.grow {c c' s : Y.Doc} (h : Has R c s) (hc : Grows R c c') : Has R c' s :=
  ⟨h.ins.trans hc.1, h.gone.trans hc.2⟩

/-- A diff catches up whoever has what its state vector covers. -/
theorem has_applyBytes_diff {c s : Y.Doc} {sv : Y.StateVector}
    (h : R.covers sv ⊆ (R.rep c).recv) : Has R (applyBytes c (Y.encodeDiff s sv)) s := by
  obtain ⟨u, hdec, hdelta, hok⟩ := R.decode_diff s sv
  have hcontains := Replica.contains_apply_diff R.deps (s := R.rep s) h
  unfold applyBytes
  rw [hdec]
  dsimp only
  refine ⟨?_, ?_⟩
  · rw [R.rep_apply c u (hok c), hdelta]
    exact hcontains.ins.trans (Replica.ins_subset_recv _)
  · rw [R.rep_apply c u (hok c), hdelta]
    exact Set.subset_union_right

/-- What a client makes of a sync frame that carries an update. -/
theorem clientApply_syncFrame (hY : Y.Lib0Laws) (doc : Y.Doc) (address : String) (update : Bytes)
    {msg : SyncMessage Y.StateVector} (hmsg : msg = .syncStep2 update ∨ msg = .update update) :
    clientApply doc (World.syncFrame Y address msg) = applyBytes doc update := by
  unfold clientApply
  rw [World.syncFrame, parse_sync_frame hY address msg]
  dsimp only
  rw [hY.decodeSync_encode]
  rcases hmsg with rfl | rfl <;> rfl

/-- A client that has what `sv` covers, and replays a diff from `sv` among
other frames, has the whole document. -/
theorem has_clientReplay (hY : Y.Lib0Laws) (herr : Y.ErrKeepsDoc) {c s : Y.Doc}
    {sv : Y.StateVector} (hsv : R.covers sv ⊆ (R.rep c).recv) {frames : List Bytes}
    {address : String} {msg : SyncMessage Y.StateVector}
    (hmsg : msg = .syncStep2 (Y.encodeDiff s sv) ∨ msg = .update (Y.encodeDiff s sv))
    (hmem : World.syncFrame Y address msg ∈ frames) : Has R (clientReplay c frames) s := by
  obtain ⟨fs, gs, rfl⟩ := List.append_of_mem hmem
  have hbefore : Grows R c (clientReplay c fs) := grows_clientReplay herr fs c
  have hdiff : Has R (clientApply (clientReplay c fs) (World.syncFrame Y address msg)) s := by
    rw [clientApply_syncFrame hY _ address _ hmsg]
    exact has_applyBytes_diff (hsv.trans hbefore.1)
  rw [clientReplay_append]
  exact hdiff.grow (grows_clientReplay herr gs _)

end Replicas

/-! ## The batch -/

section Batch

variable {Op : Type} (R : Y.Replicated Op)

/-- What the commands of a batch do to the document and the base: the
document grows, a base stays, and the first change captures one. -/
structure Leads (c c' : Content Y) : Prop where
  grows : Grows R c.doc c'.doc
  kept : ∀ base, c.broadcastBase = some base → c'.broadcastBase = some base
  fresh : c.broadcastBase = none →
    c'.broadcastBase = none ∧ c'.doc = c.doc ∨ c'.broadcastBase = some (Y.stateVector c.doc)
  pending : c.broadcastPending = c.broadcastBase.isSome →
    c'.broadcastPending = c'.broadcastBase.isSome

variable {R}

/-- The document and the broadcast fields are untouched. -/
theorem Leads.of_eq {c c' : Content Y} (hdoc : c'.doc = c.doc)
    (hbase : c'.broadcastBase = c.broadcastBase)
    (hpending : c'.broadcastPending = c.broadcastPending) : Leads R c c' where
  grows := hdoc ▸ Grows.refl R _
  kept _ h := hbase.trans h
  fresh h := Or.inl ⟨hbase.trans h, hdoc⟩
  pending h := by rw [hpending, hbase, h]

theorem Leads.trans {c₁ c₂ c₃ : Content Y} (h₁ : Leads R c₁ c₂) (h₂ : Leads R c₂ c₃) :
    Leads R c₁ c₃ where
  grows := h₁.grows.trans h₂.grows
  kept base h := h₂.kept base (h₁.kept base h)
  fresh h := by
    rcases h₁.fresh h with ⟨hnone, hdoc⟩ | hsome
    · exact hdoc ▸ h₂.fresh hnone
    · exact Or.inr (h₂.kept _ hsome)
  pending h := h₂.pending (h₁.pending h)

theorem Leads.of_move (herr : Y.ErrKeepsDoc) {v v' : View Y} (h : Move v v') :
    Leads R v.content v'.content := by
  cases h with
  | failed u hfail => exact Leads.of_eq (herr _ _ hfail) rfl rfl
  | absorbed update u origin hdec hok hempty => exact absurd hempty (R.encodeTxn_ne_nil _ _)
  | changed update u origin now clients hdec hok hne =>
    refine ⟨grows_applyUpdate herr _ u, ?_, ?_, fun _ => rfl⟩
    · intro base hbase
      show some v.content.base = _
      rw [Content.base, hbase]
      rfl
    · intro hbase
      refine Or.inr ?_
      show some v.content.base = _
      rw [Content.base, hbase]
      rfl
  | reported ok rest now hresult => cases ok <;> exact Leads.of_eq rfl rfl rfl
  | stored ok hdirty hstoring => cases ok <;> exact Leads.of_eq rfl rfl rfl
  | _ => exact Leads.of_eq rfl rfl rfl

theorem Leads.of_moves (herr : Y.ErrKeepsDoc) {v v' : View Y} (h : Moves v v') :
    Leads R v.content v'.content := by
  induction h with
  | refl => exact Leads.of_eq rfl rfl rfl
  | tail _ hm ih => exact ih.trans (Leads.of_move herr hm)

variable (R)

/-- The base is there exactly while something is pending, and is not ahead of
the document. -/
structure Based (c : Content Y) : Prop where
  pending : c.broadcastPending = c.broadcastBase.isSome
  covered : ∀ base, c.broadcastBase = some base → R.covers base ⊆ (R.rep c.doc).ins R.deps

/-- The client is in sync, up to the batch that is open. -/
structure Follows (client : Y.Doc) (c : Content Y) : Prop where
  idle : c.broadcastBase = none → Has R client c.doc
  batch : ∀ base, c.broadcastBase = some base → R.covers base ⊆ (R.rep client).recv

variable {R}

theorem Based.leads {c c' : Content Y} (h : Based R c) (hl : Leads R c c') : Based R c' := by
  refine ⟨hl.pending h.pending, ?_⟩
  intro base hbase
  have hgrow := Replica.ins_mono R.deps hl.grows.1
  cases hc : c.broadcastBase with
  | some b =>
    rw [hl.kept b hc, Option.some.injEq] at hbase
    exact (hbase ▸ h.covered b hc).trans hgrow
  | none =>
    rcases hl.fresh hc with ⟨hnone, _⟩ | hsome
    · rw [hnone] at hbase
      cases hbase
    · rw [hsome, Option.some.injEq] at hbase
      rw [← hbase, R.covers_stateVector]
      exact hgrow

theorem Based.flush {v : View Y} (h : Based R v.content) : Based R v.flush.content := by
  cases hpending : v.content.broadcastPending with
  | true =>
    refine ⟨by simp [View.flush, hpending], ?_⟩
    intro base hbase
    simp [View.flush, hpending] at hbase
  | false =>
    have hnone : v.content.broadcastBase = none := by
      have hp := h.pending
      rw [hpending] at hp
      exact Option.isNone_iff_eq_none.mp (by simpa using hp.symm)
    refine ⟨by simp [View.flush, hnone], ?_⟩
    intro base hbase
    simp [View.flush, hnone] at hbase

theorem Follows.leads {client : Y.Doc} {c c' : Content Y} (h : Follows R client c)
    (hl : Leads R c c') : Follows R client c' := by
  cases hc : c.broadcastBase with
  | some b =>
    have hkept := hl.kept b hc
    refine ⟨fun hnone => by simp [hkept] at hnone, ?_⟩
    intro base hbase
    rw [hkept, Option.some.injEq] at hbase
    exact hbase ▸ h.batch b hc
  | none =>
    have hhas := h.idle hc
    rcases hl.fresh hc with ⟨hnone, hdoc⟩ | hsome
    · refine ⟨fun _ => hdoc ▸ hhas, ?_⟩
      intro base hbase
      rw [hnone] at hbase
      cases hbase
    · refine ⟨fun hnone => by simp [hsome] at hnone, ?_⟩
      intro base hbase
      rw [hsome, Option.some.injEq] at hbase
      rw [← hbase, R.covers_stateVector]
      exact hhas.ins

theorem Follows.grow {client client' : Y.Doc} {c : Content Y} (h : Follows R client c)
    (hc : Grows R client client') : Follows R client' c :=
  ⟨fun hnone => (h.idle hnone).grow hc, fun base hbase => (h.batch base hbase).trans hc.1⟩

/-- A client that has everything follows, whatever the base. -/
theorem Follows.of_has {client : Y.Doc} {c : Content Y} (hbased : Based R c)
    (h : Has R client c.doc) : Follows R client c :=
  ⟨fun _ => h, fun base hbase => (hbased.covered base hbase).trans h.ins⟩

end Batch

/-! ## Runs -/

section Sync

variable {Op : Type} {R : Y.Replicated Op}

/-- The flush offers the merged diff to every registered connection. -/
theorem World.flushBroadcast_offers {w : World Y} {base : Y.StateVector}
    (hpending : w.broadcastPending = true) (hbase : w.broadcastBase = some base)
    (hne : Y.encodeDiff w.doc base ≠ []) {conn : ConnHandle}
    (hconn : conn ∈ w.connections.vals) :
    ∃ k res, w.flushBroadcast.trace = w.trace ++ k ∧
      Event.frame conn.connId conn.outbound
        (World.syncFrame Y conn.messageAddress (.update (Y.encodeDiff w.doc base))) res ∈ k := by
  have hflush : w.flushBroadcast =
      ({ w with broadcastPending := false, broadcastBase := none } : World Y).broadcastWith
        fun addr => World.syncFrame Y addr (.update (Y.encodeDiff w.doc base)) := by
    unfold flushBroadcast
    rw [hpending, hbase]
    dsimp only
    rw [if_neg (by simp), if_neg (by simpa using hne)]
    rfl
  obtain ⟨rs, k, hfst, htrace, _⟩ :=
    ({ w with broadcastPending := false, broadcastBase := none } : World Y).broadcastWith_spec
      fun addr => World.syncFrame Y addr (.update (Y.encodeDiff w.doc base))
  have hmem : conn ∈ rs.map Prod.fst := hfst ▸ hconn
  obtain ⟨r, hr, rfl⟩ := List.mem_map.mp hmem
  refine ⟨_, r.2, hflush ▸ htrace, ?_⟩
  exact List.mem_append_left _ (List.mem_map.mpr ⟨r, hr, rfl⟩)

/-- **One step keeps a client following.** A flush brings it the batch; every
other step is covered by `Leads`. -/
theorem Actor.step_follows (hY : Y.Lib0Laws) (herr : Y.ErrKeepsDoc) {cfg : Configuration}
    {a b : Actor Y} {l : Label} {connId : Nat} {client : Y.Doc} (hstep : a.step cfg l = some b)
    (hconn : a.Registered connId) (hrefused : NeverRefused connId (a.sent b))
    (hbased : Based R a.world.toContent) (h : Follows R client a.world.toContent) :
    Follows R (clientReplay client (framesTo connId (a.sent b))) b.world.toContent := by
  have hgrow := grows_clientReplay (R := R) herr (framesTo connId (a.sent b)) client
  cases hl : l.isFlush with
  | false =>
    exact (h.leads (Leads.of_moves herr (Actor.step_acts hstep hl).moves)).grow hgrow
  | true =>
    cases l with
    | flush sched =>
      have hflush := Actor.step_flushes hstep
      have hcontent : b.world.toContent = a.world.view.flush.content :=
        congrArg View.content hflush.view
      rw [hcontent]
      have hbased' : Based R a.world.view.flush.content := Based.flush hbased
      refine Follows.of_has hbased' ?_
      cases hbase : a.world.broadcastBase with
      | none => exact (h.idle hbase).grow hgrow
      | some base =>
        have hpending : a.world.broadcastPending = true := by
          rw [hbased.pending, hbase]
          rfl
        obtain ⟨conn, hget⟩ := hconn
        obtain ⟨hmem, hid⟩ := Keyed.mem_iff_get?.mp hget
        have hworld : b.world = (a.world.withSched sched).flushBroadcast := by
          cases Actor.step_cases hstep with
          | flush _ phase hphase => rfl
        obtain ⟨k, res, htrace, hframe⟩ :=
          World.flushBroadcast_offers (w := a.world.withSched sched) hpending hbase
            (R.encodeDiff_ne_nil _ _) hmem
        have hsent : a.sent b = k := Actor.sent_eq (hworld ▸ htrace)
        rw [hid, ← hsent] at hframe
        exact has_clientReplay hY herr (h.batch base hbase) (Or.inr rfl)
          (mem_framesTo hrefused hframe)
    | _ => cases hl

theorem Actor.step_based (herr : Y.ErrKeepsDoc) {cfg : Configuration} {a b : Actor Y} {l : Label}
    (hstep : a.step cfg l = some b) (h : Based R a.world.toContent) :
    Based R b.world.toContent :=
  Actor.step_preserve (P := fun v => Based R v.content)
    (fun _ _ hmove hv => hv.leads (Leads.of_move herr hmove)) (fun _ hv => hv.flush) hstep h

/-- ... and a whole run does, as long as the connection stays registered and
no frame to it is refused. -/
theorem Actor.run_follows (hY : Y.Lib0Laws) (herr : Y.ErrKeepsDoc) {cfg : Configuration}
    {connId : Nat} : ∀ {ls : List Label} {a b : Actor Y} {client : Y.Doc},
    Actor.Run cfg a ls b →
    Lts.Along (Actor.step cfg) (fun c _ _ => c.Registered connId) a ls →
    NeverRefused connId (a.sent b) → Based R a.world.toContent →
    Follows R client a.world.toContent →
    Follows R (clientReplay client (framesTo connId (a.sent b))) b.world.toContent := by
  intro ls
  induction ls with
  | nil =>
    intro a b client hrun _ _ _ h
    rw [Actor.Run, Lts.exec_nil, Option.some.injEq] at hrun
    subst hrun
    exact h.grow (grows_clientReplay herr _ _)
  | cons l ls ih =>
    intro a b client hrun hstays hrefused hbased h
    obtain ⟨u, hstep, hrest⟩ := Lts.exec_cons.mp hrun
    obtain ⟨hconn, hstays'⟩ := Lts.along_cons hstays hstep
    have hsplit := Actor.sent_trans (Actor.step_trace hstep) (Actor.run_trace hrest)
    rw [hsplit] at hrefused ⊢
    rw [framesTo_append, clientReplay_append]
    exact ih hrest hstays' hrefused.right (Actor.step_based herr hstep hbased)
      (Actor.step_follows hY herr hstep hconn hrefused.left hbased h)

/-! ## A sync request -/

/-- The bytes are a frame that asks to sync from `sv`. -/
def SyncRequest (Y : Yrs) (data : Bytes) (sv : Y.StateVector) : Prop :=
  ∃ frame, IncomingFrame.parse Y data = some frame ∧
    (frame.messageType = .sync ∨ frame.messageType = .syncReply) ∧
    Y.decodeSync frame.decoder = some (.syncStep1 sv)

/-- The request is answered with the diff, and nothing else happens. -/
theorem World.handleClientFrame_request {w : World Y} {connId : Nat} {conn : ConnHandle}
    (hconn : w.connections.get? connId = some conn) {data : Bytes} {sv : Y.StateVector}
    (hreq : SyncRequest Y data sv) (o : Ambient) :
    ∃ k res, (w.handleClientFrame o connId data).trace = w.trace ++ k ∧
      Event.frame connId conn.outbound
        (World.syncFrame Y conn.messageAddress (.syncStep2 (Y.encodeDiff w.doc sv))) res ∈ k ∧
      (w.handleClientFrame o connId data).view = w.view := by
  obtain ⟨frame, hparse, htype, hsync⟩ := hreq
  let step2 := World.syncFrame Y conn.messageAddress (.syncStep2 (Y.encodeDiff w.doc sv))
  let step1 := World.syncFrame Y conn.messageAddress (.syncStep1 (Y.stateVector w.doc))
  have hworld : w.handleClientFrame o connId data
      = ((w.sendFrame conn step2).1.sendFrame conn step1).1 := by
    unfold handleClientFrame
    rw [hconn, hparse]
    dsimp only
    rcases htype with htype | htype
    · rw [htype]
      dsimp only
      rw [handleSync, hsync]
    · rw [htype]
      dsimp only
      rw [handleSync, hsync]
  have htrace := World.sendFrame_trace (w.sendFrame conn step2).1 conn step1
  rw [World.sendFrame_trace w conn step2, List.append_assoc] at htrace
  rw [hworld]
  refine ⟨_, (w.trySend conn.outbound (.frame step2)).2, htrace, ?_, ?_⟩
  · rw [← Keyed.get?_key hconn]
    exact List.mem_append_left _ (List.mem_singleton.mpr rfl)
  · exact ((w.sendFrame_quiet conn step2).trans (World.sendFrame_quiet _ conn step1)).view

/-- A client that replays the answer to its request follows. -/
theorem Actor.request_follows (hY : Y.Lib0Laws) (herr : Y.ErrKeepsDoc) {cfg : Configuration}
    {a b : Actor Y} {connId : Nat} {data : Bytes} {client : Y.Doc} {o : Ambient}
    (hconn : a.Registered connId) (hreq : SyncRequest Y data (Y.stateVector client))
    (hstep : a.step cfg (.command (.clientFrame connId data) o) = some b)
    (hrefused : NeverRefused connId (a.sent b)) (hbased : Based R a.world.toContent) :
    Follows R (clientReplay client (framesTo connId (a.sent b))) b.world.toContent := by
  obtain ⟨conn, hget⟩ := hconn
  have hworld : b.world = (a.world.withSched o.sched).handleClientFrame o connId data := by
    cases Actor.step_cases hstep with
    | command _ _ n hphase => rfl
  obtain ⟨k, res, htrace, hframe, hview⟩ :=
    World.handleClientFrame_request (w := a.world.withSched o.sched) hget hreq o
  have hsent : a.sent b = k := Actor.sent_eq (hworld ▸ htrace)
  have hcontent : b.world.toContent = a.world.toContent := by
    rw [hworld]
    exact congrArg View.content hview
  rw [← hsent] at hframe
  rw [hcontent]
  refine Follows.of_has hbased (has_clientReplay hY herr ?_ (Or.inl rfl)
    (mem_framesTo hrefused hframe))
  rw [R.covers_stateVector]
  exact Replica.ins_subset_recv _

end Sync

/-! ## One merged diff for many updates -/

/-- The updates announced to `on_change`: what each applied update brought
about. -/
def announced (h : List (Event Y)) : List Bytes :=
  h.filterMap fun | .onChange update _ _ => some update | _ => none

@[simp] theorem announced_append (h k : List (Event Y)) :
    announced (h ++ k) = announced h ++ announced k := List.filterMap_append

section Merge

variable {Op : Type} (R : Y.Replicated Op)

/-- The bytes decode to an update with this delta, which applies anywhere. -/
def Encodes (update : Bytes) (δ : Delta Op) : Prop :=
  ∃ u, Y.decodeUpdate update = some u ∧ R.delta u = δ ∧ ∀ c, (Y.applyUpdate c u).2 = true

variable {R}

theorem Encodes.apply {update : Bytes} {δ : Delta Op} (h : Encodes R update δ) (c : Y.Doc) :
    R.rep (applyBytes c update) = (R.rep c).apply δ := by
  obtain ⟨u, hdec, hdelta, hok⟩ := h
  unfold applyBytes
  rw [hdec, ← hdelta]
  exact R.rep_apply c u (hok c)

theorem Encodes.applyAll {updates : List Bytes} {δs : List (Delta Op)}
    (h : List.Forall₂ (Encodes R) updates δs) (c : Y.Doc) :
    R.rep (updates.foldl applyBytes c) = (R.rep c).applyAll δs := by
  induction h generalizing c with
  | nil => rfl
  | cons hu _ ih =>
    rw [List.foldl_cons, ih, hu.apply]
    rfl

/-- The documents a sequence of moves goes through: what it announces are the
changes along them. -/
theorem Moves.chain (herr : Y.ErrKeepsDoc) {v v' : View Y} (h : Moves v v') :
    ∃ (ts : List (Replica Op)) (k : List (Event Y)), v'.history = v.history ++ k ∧
      Replica.Growing (R.rep v.content.doc) ts ∧
      Replica.last (R.rep v.content.doc) ts = R.rep v'.content.doc ∧
      List.Forall₂ (Encodes R) (announced k)
        (Replica.changes R.deps (R.rep v.content.doc) ts) := by
  induction h using Relation.ReflTransGen.head_induction_on with
  | refl => exact ⟨[], [], (List.append_nil _).symm, trivial, rfl, .nil⟩
  | @head v u hmove _ ih =>
    obtain ⟨ts, k, hhist, hgrowing, hlast, hchanges⟩ := ih
    -- a move that announces nothing and keeps the document adds nothing
    have hquiet : ∀ j, u.history = v.history ++ j → announced j = [] →
        u.content.doc = v.content.doc →
        ∃ (ts : List (Replica Op)) (k : List (Event Y)), v'.history = v.history ++ k ∧
          Replica.Growing (R.rep v.content.doc) ts ∧
          Replica.last (R.rep v.content.doc) ts = R.rep v'.content.doc ∧
          List.Forall₂ (Encodes R) (announced k)
            (Replica.changes R.deps (R.rep v.content.doc) ts) := by
      intro j hj hnone hdoc
      rw [hdoc] at hgrowing hlast hchanges
      refine ⟨ts, j ++ k, by rw [hhist, hj, List.append_assoc], hgrowing, hlast, ?_⟩
      rw [announced_append, hnone]
      exact hchanges
    cases hmove with
    | checked update origin clients => exact hquiet _ rfl rfl rfl
    | failed w hfail => exact hquiet [] (List.append_nil _).symm rfl (herr _ _ hfail)
    | absorbed update w origin hdec hok hempty => exact absurd hempty (R.encodeTxn_ne_nil _ _)
    | changed update w origin now clients hdec hok hne =>
      obtain ⟨u', hdec', hdelta, happly⟩ := R.decode_txn v.content.doc w hok
      refine ⟨_ :: ts, _, by rw [hhist, List.append_assoc], ⟨?_, hgrowing⟩, hlast, ?_⟩
      · exact grows_applyUpdate herr _ w
      · rw [announced_append]
        exact .cons ⟨u', hdec', hdelta, happly⟩ hchanges
    | spawned hdirty hstoring => exact hquiet _ rfl rfl rfl
    | finished i state ok htask => exact hquiet _ rfl (by cases ok <;> rfl) rfl
    | reported ok rest now hresult =>
      refine hquiet [] ?_ rfl ?_
      · exact (List.append_nil _).symm
      · cases ok <;> rfl
    | stored ok hdirty hstoring =>
      refine hquiet _ rfl ?_ ?_
      · cases ok <;> rfl
      · cases ok <;> rfl
    | unloading => exact hquiet _ rfl rfl rfl
    | unloaded => exact hquiet _ rfl rfl rfl

theorem Actor.run_acts {cfg : Configuration} {ls : List Label} {a b : Actor Y}
    (hls : ∀ l ∈ ls, l.isFlush = false) (hrun : Actor.Run cfg a ls b) :
    Acts a.world b.world := by
  induction ls generalizing a with
  | nil =>
    rw [Actor.Run, Lts.exec_nil, Option.some.injEq] at hrun
    exact hrun ▸ Acts.refl _
  | cons l ls ih =>
    obtain ⟨u, hstep, hrest⟩ := Lts.exec_cons.mp hrun
    have hl := hls l List.mem_cons_self
    exact (Actor.step_acts hstep hl).trans
      (ih (fun l' hl' => hls l' (List.mem_cons_of_mem _ hl')) hrest)

/-- A batch that starts at `a` and has reached `b`: to a client with the
deletions of the document before the batch, the diff the flush will send is
what the announced updates are, applied one by one. -/
theorem Actor.batch_merge (herr : Y.ErrKeepsDoc) {cfg : Configuration} {ls : List Label}
    {a b : Actor Y} (hidle : a.world.broadcastBase = none) (hls : ∀ l ∈ ls, l.isFlush = false)
    (hrun : Actor.Run cfg a ls b) {base : Y.StateVector}
    (hbase : b.world.broadcastBase = some base) {client : Y.Doc}
    (hclient : (R.rep a.world.doc).gone R.deps ⊆ (R.rep client).dels) :
    R.rep ((announced (b.world.history.drop a.world.history.length)).foldl applyBytes client)
      = R.rep (applyBytes client (Y.encodeDiff b.world.doc base)) := by
  have hacts := Actor.run_acts hls hrun
  obtain ⟨ts, k, hhist, hgrowing, hlast, hchanges⟩ := hacts.moves.chain (R := R) herr
  have hdrop : b.world.history.drop a.world.history.length = k := by
    have hhist' : b.world.history = a.world.history ++ k := hhist
    rw [hhist', List.drop_left]
  have hcovers : R.covers base = (R.rep a.world.doc).ins R.deps := by
    rcases (Leads.of_moves (R := R) herr hacts.moves).fresh hidle with ⟨hnone, _⟩ | hsome
    · have hnone' : b.world.broadcastBase = none := hnone
      rw [hnone'] at hbase
      cases hbase
    · have hsome' : b.world.broadcastBase = some (Y.stateVector a.world.doc) := hsome
      rw [hsome', Option.some.injEq] at hbase
      rw [← hbase]
      exact R.covers_stateVector a.world.doc
  obtain ⟨u, hdec, hdelta, hok⟩ := R.decode_diff b.world.doc base
  have hmerged : Encodes R (Y.encodeDiff b.world.doc base)
      ((R.rep b.world.doc).diff R.deps (R.covers base)) := ⟨u, hdec, hdelta, hok⟩
  have hlast' : Replica.last (R.rep a.world.doc) ts = R.rep b.world.doc := hlast
  rw [hdrop, Encodes.applyAll hchanges, hmerged.apply, hcovers, ← hlast']
  exact Replica.applyAll_changes hgrowing hclient

end Merge

/-! ## The two results together -/

section Result

variable {Op : Type} (R : Y.Replicated Op)

/-- From `a` on: whoever asks to sync with a document of that state vector,
stays registered and has no frame refused, has after every flush everything
the server has. -/
def Actor.KeepsInSync (cfg : Configuration) (a : Actor Y) : Prop :=
  ∀ (connId : Nat) (data : Bytes) (o : Ambient) (client : Y.Doc) (a' : Actor Y)
    (ls : List Label) (b : Actor Y) (sched : List (List QueueAct)) (b' : Actor Y),
    a.Registered connId → SyncRequest Y data (Y.stateVector client) →
    a.step cfg (.command (.clientFrame connId data) o) = some a' →
    Actor.Run cfg a' ls b → b.step cfg (.flush sched) = some b' →
    Lts.Along (Actor.step cfg) (fun c _ _ => c.Registered connId) a' (ls ++ [.flush sched]) →
    NeverRefused connId (a.sent b') →
    Replica.Contains R.deps (R.rep (clientReplay client (framesTo connId (a.sent b'))))
      (R.rep b'.world.doc)

/-- A batch that starts at `a`: its one merged diff does to a client what its
updates do one by one. -/
def Actor.Coalesces (cfg : Configuration) (a : Actor Y) : Prop :=
  ∀ (ls : List Label) (b : Actor Y) (base : Y.StateVector) (client : Y.Doc),
    a.world.broadcastBase = none → (∀ l ∈ ls, l.isFlush = false) → Actor.Run cfg a ls b →
    b.world.broadcastBase = some base →
    (R.rep a.world.doc).gone R.deps ⊆ (R.rep client).dels →
    R.rep ((announced (b.world.history.drop a.world.history.length)).foldl applyBytes client)
      = R.rep (applyBytes client (Y.encodeDiff b.world.doc base))

variable {R}

/-- After a flush no batch is open. -/
theorem Actor.flush_closes {cfg : Configuration} {a b : Actor Y} {sched : List (List QueueAct)}
    (hstep : a.step cfg (.flush sched) = some b) (hbased : Based R a.world.toContent) :
    b.world.broadcastBase = none := by
  have hcontent : b.world.toContent = a.world.view.flush.content :=
    congrArg View.content (Actor.step_flushes hstep).view
  have hbase : b.world.broadcastBase =
      if a.world.broadcastPending then none else a.world.broadcastBase :=
    congrArg Content.broadcastBase hcontent
  rw [hbase]
  split
  next => rfl
  next hpending =>
    have hp := hbased.pending
    rw [Bool.not_eq_true] at hpending
    rw [hpending] at hp
    exact Option.isNone_iff_eq_none.mp (by simpa using hp.symm)

/-- **Coalesced broadcast keeps clients in sync**, from every reachable state
of an actor. -/
theorem Actor.coalesced_broadcast (hY : Y.Lib0Laws) (herr : Y.ErrKeepsDoc) {cfg : Configuration}
    {name : String} {doc : Y.Doc} {queues : Queues} {ls : List Label} {a : Actor Y}
    (hrun : Actor.Run cfg (Actor.spawn name doc queues) ls a) :
    a.KeepsInSync R cfg ∧ a.Coalesces R cfg := by
  have hbased : Based R a.world.toContent :=
    Lts.exec_invariant (I := fun c : Actor Y => Based R c.world.toContent)
      (fun _ _ _ hstep h => Actor.step_based herr hstep h) hrun ⟨rfl, nofun⟩
  refine ⟨?_, fun ls b base client hidle hls hrun' hbase hclient =>
    Actor.batch_merge herr hidle hls hrun' hbase hclient⟩
  intro connId data o client a' ls' b sched b' hconn hreq hstep hrun' hflush hstays hrefused
  have hrun'' : Actor.Run cfg a' (ls' ++ [.flush sched]) b' :=
    Lts.exec_snoc.mpr ⟨b, hrun', hflush⟩
  have hsplit := Actor.sent_trans (Actor.step_trace hstep) (Actor.run_trace hrun'')
  rw [hsplit] at hrefused ⊢
  have hstart := Actor.request_follows (R := R) hY herr hconn hreq hstep hrefused.left hbased
  have hbased' := Actor.step_based (R := R) herr hstep hbased
  have hend := Actor.run_follows hY herr hrun'' hstays hrefused.right hbased' hstart
  have hbased'' : Based R b.world.toContent :=
    Lts.exec_invariant (I := fun c : Actor Y => Based R c.world.toContent)
      (fun _ _ _ hs h => Actor.step_based herr hs h) hrun' hbased'
  rw [framesTo_append, clientReplay_append]
  exact (hend.idle (Actor.flush_closes hflush hbased'')).contains

end Result

/-- Two clients have joined ... -/
def twoJoined : Actor OneWriter.yrs :=
  OneWriter.after {} (OneWriter.start 8)
    [.command (.addConnection (OneWriter.conn 1) 0) {},
      .command (.addConnection (OneWriter.conn 2) 1) {}]

/-- ... and one asks to sync with an empty document. -/
def askFrame : Bytes :=
  World.syncFrame OneWriter.yrs "doc" (.syncStep1 (OneWriter.yrs.stateVector OneWriter.yrs.newDoc))

/-- The other one edits in the same batch: the first has the edit after the
flush. -/
theorem Actor.coalesced_broadcast_edit :
    ∃ b : Actor OneWriter.yrs, announced b.world.history = [OneWriter.edit 0] ∧
      Replica.Contains OneWriter.deps
        (OneWriter.rep (clientReplay OneWriter.yrs.newDoc (framesTo 2 (twoJoined.sent b))))
        (OneWriter.rep b.world.doc) := by
  have hrun : Actor.Run {} (OneWriter.start 8) _ twoJoined :=
    OneWriter.run_after (by decide +kernel)
  have hall := Actor.coalesced_broadcast (R := OneWriter.replicated) OneWriter.lib0Laws
    OneWriter.errKeepsDoc hrun
  have hreq : SyncRequest OneWriter.yrs askFrame
      (OneWriter.yrs.stateVector OneWriter.yrs.newDoc) :=
    ⟨_, parse_sync_frame OneWriter.lib0Laws "doc" _, Or.inl rfl,
      OneWriter.lib0Laws.decodeSync_encode
        (.syncStep1 (OneWriter.yrs.stateVector OneWriter.yrs.newDoc))⟩
  let asked := OneWriter.after {} twoJoined [.command (.clientFrame 2 askFrame) {}]
  let edited := OneWriter.after {} asked [.command (.clientFrame 1 (OneWriter.editFrame 0)) {}]
  have hask : twoJoined.step {} (.command (.clientFrame 2 askFrame) {}) = some asked :=
    OneWriter.step_after (by decide +kernel)
  have hedit : asked.step {} (.command (.clientFrame 1 (OneWriter.editFrame 0)) {})
      = some edited := OneWriter.step_after (by decide +kernel)
  have hregistered : asked.Registered 2 ∧ edited.Registered 2 :=
    ⟨Keyed.contains_eq_true.mp (by decide +kernel), Keyed.contains_eq_true.mp (by decide +kernel)⟩
  have hstays : Lts.Along (Actor.step {}) (fun c _ _ => c.Registered 2) asked
      [.command (.clientFrame 1 (OneWriter.editFrame 0)) {}, .flush []] := by
    intro t ht
    rw [hedit, Option.some.injEq] at ht
    exact ⟨hregistered.1, fun _ _ => ⟨ht ▸ hregistered.2, trivial⟩⟩
  exact ⟨_, by decide +kernel, hall.1 2 askFrame {} OneWriter.yrs.newDoc asked
    [.command (.clientFrame 1 (OneWriter.editFrame 0)) {}] edited []
    (OneWriter.after {} edited [.flush []]) (Keyed.contains_eq_true.mp (by decide +kernel)) hreq
    hask (OneWriter.run_after (by decide +kernel)) (OneWriter.step_after (by decide +kernel))
    hstays (by decide +kernel)⟩

end Hocuspocus
