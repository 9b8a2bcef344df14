import Hocuspocus.Document.Coalesce
import Hocuspocus.Document.Presence

/-!
# The presence a client sees

A client's view of presence is what it gets by applying, in order, the
presence frames it was sent (`presenceReplay`). Between steps it mirrors the
actor's table (`Clocked.Mirrors`): whenever a frame, a disconnect or a close
changes the table, the changed entries are broadcast. An eviction is the one
change that is not: `evict_lagging` takes the states of the evicted away and
tells nobody. So `Act.run_mirrors` carries the mirror up to the evictions of
an act, and `presence_mirrored` says that the view agrees with the actor after
every step exactly if nobody who is present is evicted.
-/

namespace Hocuspocus

open Clocked

variable {Y : Yrs} {σ : Type}

/-! ## The view -/

/-- A client's presence table after a frame. -/
def presenceApply (view : Y.Awareness) (data : Bytes) : Y.Awareness :=
  match IncomingFrame.parse Y data with
  | none => view
  | some frame =>
    match frame.messageType with
    | .awareness =>
      match presenceIn Y frame with
      | some update => (Y.applyAwareness view update).1
      | none => view
    | _ => view

def presenceReplay (view : Y.Awareness) (frames : List Bytes) : Y.Awareness :=
  frames.foldl presenceApply view

theorem presenceReplay_append (view : Y.Awareness) (fs gs : List Bytes) :
    presenceReplay view (fs ++ gs) = presenceReplay (presenceReplay view fs) gs :=
  List.foldl_append

theorem presenceApply_other (hY : Y.Lib0Laws) (view : Y.Awareness) {bytes : Bytes}
    (h : OtherFrame Y bytes) : presenceApply view bytes = view := by
  obtain ⟨address, ty, payload, hty, rfl⟩ := h
  unfold presenceApply
  rw [parse_envelope hY]
  cases ty with
  | awareness => exact absurd rfl hty
  | _ => rfl

theorem presenceReplay_other (hY : Y.Lib0Laws) {frames : List Bytes}
    (h : ∀ f ∈ frames, OtherFrame Y f) (view : Y.Awareness) :
    presenceReplay view frames = view := by
  induction frames generalizing view with
  | nil => rfl
  | cons f frames ih =>
    rw [presenceReplay, List.foldl_cons, presenceApply_other hY view (h f (List.mem_cons_self ..))]
    exact ih (fun g hg => h g (List.mem_cons_of_mem _ hg)) view

/-- A presence frame merges its entries into the view. -/
theorem presenceApply_presence (hY : Y.Lib0Laws) (P : Y.Presence σ) (view : Y.Awareness)
    (u : Y.AwarenessUpdate) (address : String) :
    P.table (presenceApply view (World.awarenessFrame Y (Y.encodeAwareness u) address))
      = (P.table view).merge (P.entries u) := by
  obtain ⟨u', hdecode, hentries, hok⟩ := P.decode_encode u
  have hparse : IncomingFrame.parse Y (World.awarenessFrame Y (Y.encodeAwareness u) address)
      = some ⟨address, .awareness, Y.writeBuf (Y.encodeAwareness u)⟩ :=
    parse_envelope hY address .awareness (Y.writeBuf (Y.encodeAwareness u))
  have hread : presenceIn Y ⟨address, .awareness, Y.writeBuf (Y.encodeAwareness u)⟩ = some u' := by
    have hbuf := hY.readBuf_write (Y.encodeAwareness u) []
    rw [List.append_nil] at hbuf
    unfold presenceIn
    rw [hbuf]
    exact hdecode
  unfold presenceApply
  rw [hparse]
  dsimp only
  rw [hread]
  dsimp only
  rw [P.table_apply view u' (hok view), hentries]

/-! ## What a connection hears -/

/-- What is sent from `w` to `w'` turns the view into `view'`, if none of it
is refused. -/
def Hears (id : Nat) (view view' : Y.Awareness) (w w' : World Y) : Prop :=
  ∃ k, w'.trace = w.trace ++ k ∧
    (NeverRefused id k → presenceReplay view (framesTo id k) = view')

theorem Hears.trans {id : Nat} {view₁ view₂ view₃ : Y.Awareness} {w₁ w₂ w₃ : World Y}
    (h₁ : Hears id view₁ view₂ w₁ w₂) (h₂ : Hears id view₂ view₃ w₂ w₃) :
    Hears id view₁ view₃ w₁ w₃ := by
  obtain ⟨k₁, htrace₁, hview₁⟩ := h₁
  obtain ⟨k₂, htrace₂, hview₂⟩ := h₂
  refine ⟨k₁ ++ k₂, by rw [htrace₂, htrace₁, List.append_assoc], fun hrefused => ?_⟩
  rw [framesTo_append, presenceReplay_append, hview₁ hrefused.left, hview₂ hrefused.right]

/-- No frame to the connection. -/
theorem framesTo_eq_nil {id : Nat} {k : List (Event Y)}
    (h : ∀ q bytes res, Event.frame id q bytes res ∉ k) : framesTo id k = [] := by
  refine List.filterMap_eq_nil_iff.mpr fun e he => ?_
  cases e with
  | frame id' q bytes res =>
    cases res with
    | accepted =>
      refine if_neg fun heq => ?_
      subst heq
      exact h q bytes .accepted he
    | full => rfl
    | closed => rfl
  | _ => rfl

theorem Hears.of_frameless {id : Nat} {view : Y.Awareness} {w w' : World Y}
    (h : World.Frameless w w') : Hears id view view w w' := by
  obtain ⟨k, htrace, hk⟩ := h
  refine ⟨k, htrace, fun _ => ?_⟩
  rw [framesTo_eq_nil fun q bytes res hmem => Bool.noConfusion (hk _ hmem)]
  rfl

theorem Hears.of_inert (hY : Y.Lib0Laws) {id : Nat} {view : Y.Awareness} {w w' : World Y}
    (h : Inert w w') : Hears id view view w w' := by
  obtain ⟨k, htrace, hk⟩ := h.trace
  refine ⟨k, htrace, fun _ => presenceReplay_other hY (fun f hf => ?_) view⟩
  obtain ⟨e, he, heq⟩ := List.mem_filterMap.mp hf
  cases hk e he with
  | other hpersonal =>
    cases e with
    | frame => cases hpersonal
    | _ => cases heq
  | @frame connId q bytes res hother =>
    cases res with
    | accepted =>
      by_cases hid : connId = id
      · have hf : some bytes = some f := (if_pos hid).symm.trans heq
        cases hf
        exact hother
      · have hf : none = some f := (if_neg hid).symm.trans heq
        cases hf
    | full => cases heq
    | closed => cases heq

/-- One frame to the connection. -/
theorem Hears.of_sendFrame (id : Nat) (view : Y.Awareness) (w : World Y) (conn : ConnHandle)
    (bytes : Bytes) :
    Hears id view (if conn.connId = id then presenceApply view bytes else view) w
      (w.sendFrame conn bytes).1 := by
  refine ⟨_, w.sendFrame_trace conn bytes, fun hrefused => ?_⟩
  by_cases hid : conn.connId = id
  · rw [if_pos hid]
    have hres := hrefused conn.outbound bytes _ (by rw [← hid]; exact List.mem_singleton.mpr rfl)
    rw [hres, ← hid]
    show presenceReplay view (List.filterMap _ [_]) = _
    rw [List.filterMap_cons]
    dsimp only
    rw [if_pos rfl]
    rfl
  · rw [if_neg hid, framesTo_eq_nil fun q bytes' res hmem => ?_]
    · rfl
    · cases List.mem_singleton.mp hmem
      exact hid rfl

/-- The offers of a broadcast hold one frame for the connection. -/
theorem framesTo_offered {id : Nat} {frameFor : ConnHandle → Bytes} {conn : ConnHandle}
    {rs : List (ConnHandle × SendResult)} (hnodup : (rs.map fun r => r.1.connId).Nodup)
    (hmem : conn ∈ rs.map Prod.fst) (hid : conn.connId = id)
    (hrefused : NeverRefused (Y := Y) id (rs.map (offered frameFor))) :
    framesTo (Y := Y) id (rs.map (offered frameFor)) = [frameFor conn] := by
  induction rs with
  | nil => cases hmem
  | cons r rs ih =>
    rw [List.map_cons, List.nodup_cons] at hnodup
    rw [List.map_cons] at hmem
    have hsplit : (r :: rs).map (offered (Y := Y) frameFor)
        = [offered frameFor r] ++ rs.map (offered frameFor) := rfl
    rw [hsplit] at hrefused
    have hhead : NeverRefused (Y := Y) id [offered frameFor r] := hrefused.left
    have htail : NeverRefused (Y := Y) id (rs.map (offered frameFor)) := hrefused.right
    rw [hsplit, framesTo_append]
    rcases List.mem_cons.mp hmem with rfl | hmem
    · have hres : r.2 = .accepted :=
        hhead r.1.outbound (frameFor r.1) r.2 (by rw [← hid]; exact List.mem_singleton.mpr rfl)
      have hone : framesTo (Y := Y) id [offered frameFor r] = [frameFor r.1] := by
        unfold offered
        rw [hres, hid]
        show List.filterMap _ [_] = _
        rw [List.filterMap_cons]
        dsimp only
        rw [if_pos rfl]
        rfl
      rw [hone, framesTo_eq_nil fun q bytes res hmem => ?_]
      · rfl
      · obtain ⟨r', hr', heq⟩ := List.mem_map.mp hmem
        cases heq
        exact hnodup.1 (hid ▸ List.mem_map.mpr ⟨r', hr', rfl⟩)
    · rw [ih hnodup.2 hmem htail, framesTo_eq_nil fun q bytes res hone => ?_]
      · rfl
      · obtain ⟨r', hr', rfl⟩ := List.mem_map.mp hmem
        cases List.mem_singleton.mp hone
        exact hnodup.1 (hid ▸ List.mem_map.mpr ⟨r', hr', rfl⟩)

/-- A registered connection hears a broadcast. -/
theorem Hears.of_broadcast {id : Nat} {w : World Y} {conn : ConnHandle}
    (hconn : w.connections.get? id = some conn) (view : Y.Awareness) (build : String → Bytes) :
    Hears id view (presenceApply view (build conn.messageAddress)) w (w.broadcastWith build) := by
  obtain ⟨rs, k, hfst, htrace, hclose, _⟩ := w.broadcastWith_spec build
  obtain ⟨hmem, hid⟩ := Keyed.mem_iff_get?.mp hconn
  refine ⟨_, htrace, fun hrefused => ?_⟩
  have hnodup : (rs.map fun r => r.1.connId).Nodup := by
    have hids : rs.map (fun r => r.1.connId) = w.connections.vals.map ConnHandle.connId := by
      rw [← hfst, List.map_map]
      rfl
    rw [hids]
    exact w.connections.nodup
  rw [framesTo_append, framesTo_offered hnodup (hfst ▸ hmem) hid hrefused.left,
    framesTo_eq_nil fun q bytes res hmem => Bool.noConfusion (hclose _ hmem)]
  rfl

/-! ## Acts -/

/-- The presence table of an act before its broadcast evicts anyone. -/
def Act.shown (w : World Y) (act : Act) : Y.Awareness :=
  removeAll Y ((act.dismissed w).flatMap ConnHandle.clientIds) (act.arrived w)

/-- Clients claimed by a connection have an entry in the table. -/
def Known (P : Y.Presence σ) (w : World Y) : Prop :=
  ∀ id conn, w.connections.get? id = some conn → ∀ k ∈ conn.clientIds,
    P.table w.awareness k ≠ none

theorem known_of_rank {P : Y.Presence σ} {a b : Y.Awareness} {k : Nat}
    (h : rank (P.table a k) ≤ rank (P.table b k)) (ha : P.table a k ≠ none) :
    P.table b k ≠ none := by
  intro hb
  rw [rank_eq_zero.mpr hb] at h
  exact ha (rank_eq_zero.mp (Nat.le_zero.mp h))

/-- Arrivals only make entries newer. -/
theorem Act.arrived_rank (P : Y.Presence σ) (w : World Y) (act : Act) (k : Nat) :
    rank (P.table w.awareness k) ≤ rank (P.table (act.arrived w) k) := by
  cases act with
  | present frame origin =>
    unfold Act.arrived
    dsimp only
    cases presenceIn Y frame with
    | none => exact Nat.le_refl _
    | some u =>
      show rank (P.table w.awareness k) ≤ rank (P.table (Y.applyAwareness w.awareness u).1 k)
      cases hok : (Y.applyAwareness w.awareness u).2 with
      | false => rw [P.table_err w.awareness u hok]
      | true =>
        rw [P.table_apply w.awareness u hok, rank_merge]
        exact Nat.le_max_left _ _
  | _ => exact Nat.le_refl _

namespace World

theorem broadcastWith_registered {w : World Y} {build : String → Bytes} {id : Nat}
    (h : (w.broadcastWith build).registered id = true) :
    ∃ conn, w.connections.get? id = some conn := by
  rw [(w.broadcastWith_departs build).1 id, Bool.and_eq_true] at h
  exact Option.isSome_iff_exists.mp h.1

variable (hY : Y.Lib0Laws) (P : Y.Presence σ) {w : World Y} {id : Nat} {view : Y.Awareness}

include hY

/-- The changed entries of the table are broadcast, and reach the view. -/
theorem relay_mirrors {t : Table Nat σ} {changed : List Nat} {u : Y.AwarenessUpdate}
    {conn : ConnHandle} (hconn : w.connections.get? id = some conn)
    (hentries : ∀ k, (k ∈ changed ∧ P.entries u k = P.table w.awareness k) ∨
      (k ∉ changed ∧ P.entries u k = none))
    (hadvance : ∀ k, rank (t k) ≤ rank (P.table w.awareness k))
    (hother : ∀ k, k ∉ changed → P.table w.awareness k = t k) (h : Mirrors (P.table view) t) :
    ∃ view', Hears id view view' w
        (w.broadcastWith (awarenessFrame Y (Y.encodeAwareness u))) ∧
      Mirrors (P.table view') (P.table w.awareness) := by
  refine ⟨_, Hears.of_broadcast hconn view _, ?_⟩
  rw [presenceApply_presence hY]
  refine h.sent hadvance fun k => ?_
  rcases hentries k with ⟨_, hk⟩ | ⟨hout, hk⟩
  · exact Or.inl hk
  · exact Or.inr ⟨hk, hother k hout⟩

theorem handleAwareness_mirrors (frame : IncomingFrame) (origin : Origin)
    (hreg : (w.handleAwareness frame origin).registered id = true)
    (h : Mirrors (P.table view) (P.table w.awareness)) :
    ∃ view', Hears id view view' w (w.handleAwareness frame origin) ∧
      Mirrors (P.table view') (P.table (Act.shown w (.present frame origin))) := by
  show ∃ view', _ ∧ Mirrors (P.table view') (P.table (Act.arrived w (.present frame origin)))
  rcases w.handleAwareness_cases frame origin with hquiet | ⟨update, v, hsaid⟩
  · refine ⟨view, Hears.of_frameless ?_, ?_⟩
    · rw [hquiet.run]
      exact Frameless.of_eq rfl
    · unfold Act.arrived
      dsimp only
      cases hread : presenceIn Y frame with
      | none => exact h
      | some u =>
        show Mirrors (P.table view) (P.table (Y.applyAwareness w.awareness u).1)
        rw [P.table_err w.awareness u (hquiet.refused u hread)]
        exact h
  · have htable : P.table v.awareness = (P.table w.awareness).merge (P.entries update) := by
      rw [hsaid.awareness, Act.arrived, hsaid.read]
      exact P.table_apply w.awareness update hsaid.accepted
    have hadvance : ∀ k, rank (P.table w.awareness k) ≤ rank (P.table v.awareness k) := by
      intro k
      rw [htable, rank_merge]
      exact Nat.le_max_left _ _
    have hknown : ∀ k ∈ Y.clients update, P.table v.awareness k ≠ none := by
      intro k hk hnone
      have hzero := rank_eq_zero.mpr hnone
      rw [htable, rank_merge] at hzero
      exact (P.mem_clients update k).mp hk (rank_eq_zero.mp (by omega))
    obtain ⟨out, hout, hentries⟩ := P.updateWith v.awareness (Y.clients update) hknown
    have hrun : w.handleAwareness frame origin
        = (v.broadcastWith (awarenessFrame Y (Y.encodeAwareness out))).emit
          (.onAwarenessUpdate (Y.encodeAwareness out) (Y.clients update) origin) := by
      rw [hsaid.run, relayAwareness, hout]
      rfl
    rw [hrun] at hreg
    obtain ⟨conn, hconn⟩ := broadcastWith_registered hreg
    obtain ⟨view', hhears, hmirrors⟩ := relay_mirrors hY P hconn hentries hadvance (fun k hk => by
      rw [htable]
      exact Table.merge_of_none (not_not.mp fun hne => hk ((P.mem_clients update k).mpr hne))) h
    refine ⟨view', ?_, hsaid.awareness ▸ hmirrors⟩
    rw [hrun]
    have hsame : Hears id view view w v := Hears.of_frameless (Frameless.of_eq hsaid.trace)
    exact (hsame.trans hhears).trans (Hears.of_frameless (emit_frameless _ rfl))

theorem removeConnection_mirrors (connId : Nat)
    (hreg : (w.removeConnection connId).registered id = true) (hknown : Known P w)
    (h : Mirrors (P.table view) (P.table w.awareness)) :
    ∃ view', Hears id view view' w (w.removeConnection connId) ∧
      Mirrors (P.table view') (P.table (Act.shown w (.leave connId))) := by
  have hshown : Act.shown w (.leave connId) = removeAll Y
      ((w.connections.get? connId).toList.flatMap ConnHandle.clientIds) w.awareness := rfl
  have hone : ∀ handle, w.connections.get? connId = some handle →
      Act.shown w (.leave connId) = (w.detach connId handle).awareness := by
    intro handle hconn
    rw [hshown, hconn]
    show removeAll Y ([handle].flatMap ConnHandle.clientIds) w.awareness = _
    rw [List.flatMap_singleton]
    rfl
  have hclaimed : ∀ handle, w.connections.get? connId = some handle →
      ∀ k ∈ handle.clientIds, P.table (w.detach connId handle).awareness k ≠ none := by
    intro handle hconn k hk
    exact known_of_rank (removeAll_rank P handle.clientIds w.awareness k)
      (hknown connId handle hconn k hk)
  cases w.removeConnection_cases connId with
  | absent hconn _ hrun =>
    refine ⟨view, Hears.of_frameless ?_, ?_⟩
    · rw [hrun]
      exact Frameless.refl w
    · rw [hshown, hconn]
      exact h
  | silent handle hconn hwhy _ hrun =>
    refine ⟨view, Hears.of_frameless ?_, ?_⟩
    · rw [hrun]
      exact Frameless.trans (Frameless.of_eq rfl) (emit_frameless (w.detach connId handle) rfl)
    · -- nothing was said, so the connection had claimed no client
      have hempty : handle.clientIds = [] := by
        rcases hwhy with hempty | hnone
        · exact hempty
        · obtain ⟨u, hu, _⟩ := P.updateWith _ handle.clientIds (hclaimed handle hconn)
          rw [hu] at hnone
          cases hnone
      rw [hone handle hconn]
      show Mirrors _ (P.table (removeAll Y handle.clientIds w.awareness))
      rw [hempty]
      exact h
  | told handle hconn update hupdate _ hrun =>
    obtain ⟨u, hu, hentries⟩ := P.updateWith _ handle.clientIds (hclaimed handle hconn)
    obtain rfl : update = u := Option.some.inj (hupdate.symm.trans hu)
    rw [hrun] at hreg
    obtain ⟨conn, hconn'⟩ := broadcastWith_registered hreg
    obtain ⟨view', hhears, hmirrors⟩ := relay_mirrors hY P hconn' hentries
      (removeAll_rank P handle.clientIds w.awareness)
      (fun k hk => removeAll_other P handle.clientIds w.awareness hk) h
    refine ⟨view', ?_, (hone handle hconn) ▸ hmirrors⟩
    rw [hrun]
    have hleft : Hears id view view w (w.detach connId handle) :=
      Hears.of_frameless (Frameless.of_eq rfl)
    exact (hleft.trans hhears).trans (Hears.of_frameless (emit_frameless _ rfl))

theorem replyQueryAwareness_mirrors (connId : Nat) (address : String)
    (h : Mirrors (P.table view) (P.table w.awareness)) :
    ∃ view', Hears id view view' w (w.replyQueryAwareness address connId) ∧
      Mirrors (P.table view') (P.table w.awareness) := by
  obtain ⟨u, hu, hentries⟩ := P.updateAll w.awareness
  unfold replyQueryAwareness
  rw [hu]
  dsimp only
  cases hconn : w.connections.get? connId with
  | none => exact ⟨view, Hears.of_frameless (Frameless.refl w), h⟩
  | some conn =>
    refine ⟨_, Hears.of_sendFrame id view w conn (awarenessFrame Y (Y.encodeAwareness u) address), ?_⟩
    split
    · rw [presenceApply_presence hY]
      exact Mirrors.snapshot h.behind hentries fun k hk => h.shown k (Or.inl hk)
    · exact h

end World

section Steps

variable (hY : Y.Lib0Laws) (P : Y.Presence σ)

include hY in
theorem Act.run_mirrors {act : Act} {w : World Y} {id : Nat} {view : Y.Awareness}
    (hplain : act.Plain Y) (hother : act.joiner ≠ some id)
    (hreg : (act.run w).registered id = true) (hknown : Known P w)
    (h : Mirrors (P.table view) (P.table w.awareness)) :
    ∃ view', Hears id view view' w (act.run w) ∧
      Mirrors (P.table view') (P.table (act.shown w)) := by
  cases act with
  | idle => exact ⟨view, Hears.of_frameless (World.Frameless.refl w), h⟩
  | join order handle =>
    have hid : handle.connId ≠ id := fun he => hother (congrArg some he)
    have hadded : ∀ g : World Y, Hears id view view g
        (({ g with connections := g.connections.insert order handle } : World Y).emit
          (.added handle)) := fun g =>
      Hears.of_frameless (World.Frameless.trans (World.Frameless.of_eq rfl)
        (World.emit_frameless _ rfl))
    refine ⟨view, ?_, h⟩
    show Hears id view view w (w.addConnection order handle)
    unfold World.addConnection
    dsimp only
    split
    next =>
      split
      next update _ =>
        have hsent := Hears.of_sendFrame id view w handle
          (((OutgoingMessage.new Y handle.messageAddress).awarenessUpdate Y
            (Y.encodeAwareness update)).intoBytes)
        rw [if_neg hid] at hsent
        exact hsent.trans (hadded _)
      next => exact hadded w
    next => exact hadded w
  | answer connId address => exact World.replyQueryAwareness_mirrors hY P connId address h
  | present frame origin => exact World.handleAwareness_mirrors hY P frame origin hreg h
  | leave connId => exact World.removeConnection_mirrors hY P connId hreg hknown h
  | cast build =>
    obtain ⟨conn, hconn⟩ := World.broadcastWith_registered hreg
    refine ⟨_, Hears.of_broadcast hconn view build, ?_⟩
    rw [presenceApply_other hY view (hplain conn.messageAddress)]
    exact h

/-! ## Steps -/

/-- The presence table of a step before its broadcast evicts anyone. -/
def Actor.shown (a : Actor Y) (l : Label) : Y.Awareness := (a.act l).shown a.world

/-- Nobody the broadcast of the step evicts is present. -/
def Actor.EvictsAbsent (a : Actor Y) (l : Label) : Prop :=
  ∀ conn ∈ World.Broadcast.found (a.broadcastCall l), ∀ k ∈ conn.clientIds,
    present (P.table (a.shown l) k) = false

/-- The broadcast of the step takes away what the evicted have claimed. -/
theorem Actor.step_evicted {cfg : Configuration} {a b : Actor Y} {l : Label}
    (hstep : a.step cfg l = some b) : b.world.awareness = removeAll Y
      ((World.Broadcast.found (a.broadcastCall l)).flatMap ConnHandle.clientIds) (a.shown l) := by
  rw [(Actor.step_leaves hstep).awareness, Actor.gone, List.flatMap_append, removeAll_append]
  rfl

theorem Actor.step_rank {cfg : Configuration} {a b : Actor Y} {l : Label}
    (hstep : a.step cfg l = some b) (k : Nat) :
    rank (P.table (a.arrived l) k) ≤ rank (P.table b.world.awareness k) := by
  rw [(Actor.step_leaves hstep).awareness]
  exact removeAll_rank P _ _ k

/-- What is announced is known when it has arrived. -/
theorem Actor.announces_known {a : Actor Y} {l : Label} {id : Nat} {u : Y.AwarenessUpdate}
    (h : a.announces l = some (id, u)) {k : Nat} (hk : k ∈ Y.clients u) :
    P.table (a.arrived l) k ≠ none := by
  unfold Actor.announces at h
  unfold Actor.arrived
  cases hact : a.act l with
  | present frame origin =>
    rw [hact] at h
    cases origin with
    | connection connId =>
      obtain ⟨v, hv, heq⟩ := Option.map_eq_some_iff.mp h
      cases heq
      obtain ⟨hread, hok⟩ := Option.filter_eq_some_iff.mp hv
      have harrived : Act.arrived a.world (.present frame (.connection id))
          = (Y.applyAwareness a.world.awareness u).1 := by
        rw [Act.arrived, hread]
        rfl
      rw [harrived, P.table_apply a.world.awareness u hok]
      intro hnone
      have hzero := rank_eq_zero.mpr hnone
      rw [rank_merge] at hzero
      exact (P.mem_clients u k).mp hk (rank_eq_zero.mp (by omega))
    | redis => cases h
    | «local» => cases h
  | _ =>
    rw [hact] at h
    cases h

theorem Known.step {cfg : Configuration} {a b : Actor Y} {l : Label}
    (hstep : a.step cfg l = some b)
    (hempty : ∀ handle ack o, l = .command (.addConnection handle ack) o → handle.clientIds = [])
    (h : Known P a.world) : Known P b.world := by
  intro id conn hconn k hk
  have hbefore : ∀ old, a.world.connections.get? id = some old → k ∈ old.clientIds →
      P.table b.world.awareness k ≠ none := fun old hold hk =>
    known_of_rank (Nat.le_trans (Act.arrived_rank P a.world (a.act l) k) (Actor.step_rank P hstep k))
      (h id old hold k hk)
  obtain ⟨conn', hconn', hsettled, _⟩ :=
    Actor.registered_settled hstep (Option.isSome_iff_exists.mpr ⟨conn, hconn⟩)
  obtain rfl : conn = conn' := Option.some.inj (hconn.symm.trans hconn')
  rcases Actor.settled_cases hsettled with ⟨_, ack, o, hl⟩ | ⟨u, old, hnow, hold, rfl⟩ | hold
  · rw [hempty conn ack o hl] at hk
    cases hk
  · rcases (mem_claimClients _ _).mp hk with hk | hk
    · exact hbefore old hold hk
    · exact known_of_rank (Actor.step_rank P hstep k) (Actor.announces_known P hnow hk)
  · exact hbefore conn hold hk

include hY in
/-- A step carries the mirror up to its evictions. -/
theorem Actor.step_mirrors {cfg : Configuration} {a b : Actor Y} {l : Label} {id : Nat}
    {view : Y.Awareness} (hstep : a.step cfg l = some b) (hother : l.joiner ≠ some id)
    (hreg : b.world.registered id = true) (hrefused : NeverRefused id (a.sent b))
    (hknown : Known P a.world) (h : Mirrors (P.table view) (P.table a.world.awareness)) :
    Mirrors (P.table (presenceReplay view (framesTo id (a.sent b)))) (P.table (a.shown l)) := by
  obtain ⟨v, hbefore, _, hplain, hafter⟩ := Actor.step_turn hstep
  have hknown' : Known P v := by
    intro id' conn hconn k hk
    rw [hbefore.connections] at hconn
    rw [hbefore.awareness]
    exact hknown id' conn hconn k hk
  have hreg' : ((a.act l).run v).registered id = true := by
    rw [← hafter.registered]
    exact hreg
  have hother' : (a.act l).joiner ≠ some id := (a.act_joiner l).symm ▸ hother
  obtain ⟨view', hhears, hmirrors⟩ := Act.run_mirrors hY P hplain hother' hreg' hknown'
    (hbefore.awareness ▸ h)
  have hall : Hears id view view' a.world b.world :=
    ((Hears.of_inert hY hbefore).trans hhears).trans (Hears.of_inert hY hafter)
  obtain ⟨k, htrace, hview⟩ := hall
  rw [Actor.sent_eq htrace] at hrefused ⊢
  rw [hview hrefused]
  have hshown : (a.act l).shown v = a.shown l := by
    rw [Actor.shown, Act.shown, Act.shown, Act.dismissed_congr hbefore.connections,
      Act.arrived_congr hbefore.awareness]
  rw [← hshown]
  exact hmirrors

/-- After the evictions the view agrees exactly if nobody present was
evicted, and is a mirror again. -/
theorem Actor.evicts_mirrors {cfg : Configuration} {a b : Actor Y} {l : Label}
    {view : Y.Awareness} (hstep : a.step cfg l = some b)
    (h : Mirrors (P.table view) (P.table (a.shown l))) :
    ((∀ k, present (P.table view k) = present (P.table b.world.awareness k)) ↔
      a.EvictsAbsent P l) ∧
    (a.EvictsAbsent P l → Mirrors (P.table view) (P.table b.world.awareness)) := by
  rw [Actor.step_evicted hstep]
  generalize hids :
    (World.Broadcast.found (a.broadcastCall l)).flatMap ConnHandle.clientIds = ids
  have hmirrors : a.EvictsAbsent P l →
      Mirrors (P.table view) (P.table (removeAll Y ids (a.shown l))) := by
    intro habsent
    refine h.wiped (fun k => removeAll_rank P ids (a.shown l) k) fun k => ?_
    by_cases hk : k ∈ ids
    · -- it showed nobody, and after the removal it shows nobody under a later clock
      rw [← hids] at hk
      obtain ⟨conn, hconn, hk'⟩ := List.mem_flatMap.mp hk
      have hout := habsent conn hconn k hk'
      exact Or.inr ⟨hout, removeAll_absent P ids _ hout⟩
    · exact Or.inl (removeAll_other P _ _ hk)
  refine ⟨⟨fun hview conn hconn k hk => ?_, fun habsent k => (hmirrors habsent).present_eq k⟩,
    hmirrors⟩
  have hgone := removeAll_mem P ids (a.shown l)
    (hids ▸ List.mem_flatMap.mpr ⟨conn, hconn, hk⟩)
  rw [← h.present_eq k, hview k, hgone]

end Steps

/-! ## Runs -/

section Runs

variable (P : Y.Presence σ)

/-- The connection's view, from `a` to `b`, shows whom the actor shows. -/
def Actor.ShowsTo (id : Nat) (view : Y.Awareness) (a b : Actor Y) : Prop :=
  ∀ k, present (P.table (presenceReplay view (framesTo id (a.sent b))) k)
    = present (P.table b.world.awareness k)

variable {P} (hY : Y.Lib0Laws)

include hY

/-- A connection that joins is sent whoever is present. -/
theorem World.addConnection_mirrors (P : Y.Presence σ) (w : World Y) (order : Reorder ConnHandle)
    (handle : ConnHandle) : ∃ view', Hears handle.connId Y.newAwareness view' w
      (w.addConnection order handle) ∧ Mirrors (P.table view') (P.table w.awareness) := by
  have hadded : ∀ (g : World Y) (view : Y.Awareness), Hears handle.connId view view g
      (({ g with connections := g.connections.insert order handle } : World Y).emit
        (.added handle)) := fun g _ =>
    Hears.of_frameless (Frameless.trans (Frameless.of_eq rfl) (emit_frameless _ rfl))
  obtain ⟨u, hu, hentries⟩ := P.updateAll w.awareness
  unfold World.addConnection
  dsimp only
  split
  next =>
    rw [hu]
    have hsent := Hears.of_sendFrame handle.connId Y.newAwareness w handle
      (awarenessFrame Y (Y.encodeAwareness u) handle.messageAddress)
    rw [if_pos rfl] at hsent
    refine ⟨_, hsent.trans (hadded _ _), ?_⟩
    rw [presenceApply_presence hY]
    refine Mirrors.snapshot (fun k => ?_) hentries fun k hk => ?_
    · rw [P.table_new k]
      exact Nat.zero_le _
    · rw [P.table_new k] at hk
      cases hk
  next hnone =>
    exact ⟨_, hadded w _, mirrors_empty P.table_new (P.noStates _ (Bool.not_eq_true _ ▸ hnone))⟩

theorem Actor.join_mirrors (P : Y.Presence σ) {cfg : Configuration} {a b : Actor Y}
    {handle : ConnHandle} {ack : Nat} {o : Ambient}
    (hjoin : a.step cfg (.command (.addConnection handle ack) o) = some b)
    (hrefused : NeverRefused handle.connId (a.sent b)) :
    Mirrors (P.table (presenceReplay Y.newAwareness (framesTo handle.connId (a.sent b))))
      (P.table b.world.awareness) := by
  obtain ⟨v, hbefore, _, _, hafter⟩ := Actor.step_turn hjoin
  obtain ⟨view', hhears, hmirrors⟩ := World.addConnection_mirrors hY P v o.order handle
  have hall : Hears handle.connId Y.newAwareness view' a.world b.world :=
    ((Hears.of_inert hY hbefore).trans hhears).trans (Hears.of_inert hY hafter)
  obtain ⟨k, htrace, hview⟩ := hall
  rw [Actor.sent_eq htrace] at hrefused ⊢
  rw [hview hrefused]
  have hsame : b.world.awareness = v.awareness := by
    rw [hbefore.awareness]
    exact Actor.step_evicted hjoin
  rw [hsame]
  exact hmirrors

/-- As long as a view mirrors the table, the connection is shown who is there
after every step, exactly if no step evicts somebody present. -/
theorem Actor.run_mirrors (P : Y.Presence σ) {cfg : Configuration} {id : Nat} :
    ∀ {ls : List Label} {a b : Actor Y} {view : Y.Awareness}, Actor.Run cfg a ls b →
      (∀ l ∈ ls, ∀ handle ack o, l = .command (.addConnection handle ack) o →
        handle.clientIds = []) →
      (∀ l ∈ ls, l.joiner ≠ some id) → b.world.registered id = true →
      NeverRefused id (a.sent b) → Known P a.world →
      Mirrors (P.table view) (P.table a.world.awareness) →
      ((∀ part c, part <+: ls → Actor.Run cfg a part c → a.ShowsTo P id view c) ↔
        Lts.Along (Actor.step cfg) (fun c l _ => c.EvictsAbsent P l) a ls) := by
  intro ls
  induction ls with
  | nil =>
    intro a b view _ _ _ _ _ _ h
    refine ⟨fun _ => trivial, fun _ part c hpart hrun => ?_⟩
    obtain rfl := List.prefix_nil.mp hpart
    rw [Actor.Run, Lts.exec_nil, Option.some.injEq] at hrun
    subst hrun
    intro k
    rw [Actor.sent_eq (k := []) (List.append_nil _).symm]
    exact h.present_eq k
  | cons l ls ih =>
    intro a b view hrun hempty hunique hreg hrefused hknown h
    obtain ⟨u, hstep, hrest⟩ := Lts.exec_cons.mp hrun
    have hsplit := Actor.sent_trans (Actor.step_trace hstep) (Actor.run_trace hrest)
    rw [hsplit] at hrefused
    have hrest_unique : ∀ l' ∈ ls, l'.joiner ≠ some id := fun l' hl' =>
      hunique l' (List.mem_cons_of_mem _ hl')
    -- whoever is registered at the end was so all along
    have hreg_u : u.world.registered id = true := by
      by_contra hout
      rw [Bool.not_eq_true] at hout
      have hgone := Lts.exec_invariant_along (C := fun _ l' _ => l'.joiner ≠ some id)
        (I := fun c : Actor Y => c.world.registered id = false)
        (fun s l' t ht hl' hs => by
          by_contra hin
          rw [Bool.not_eq_false] at hin
          obtain ⟨_, _, _, hjoin | hin'⟩ := Actor.registered_settled ht hin
          · exact hl' hjoin
          · rw [hs] at hin'
            cases hin')
        (Lts.along_of_labels hrest_unique u) hrest hout
      rw [hreg] at hgone
      cases hgone
    have hmirrors := Actor.step_mirrors hY P hstep (hunique l (List.mem_cons_self ..)) hreg_u
      hrefused.left hknown h
    obtain ⟨hagree, hagain⟩ := Actor.evicts_mirrors P hstep hmirrors
    have hknown_u := hknown.step P hstep (hempty l (List.mem_cons_self ..))
    have hempty_rest : ∀ l' ∈ ls, ∀ handle ack o, l' = .command (.addConnection handle ack) o →
        handle.clientIds = [] := fun l' hl' => hempty l' (List.mem_cons_of_mem _ hl')
    have hlater : ∀ {part c}, Actor.Run cfg u part c →
        (a.ShowsTo P id view c ↔
          u.ShowsTo P id (presenceReplay view (framesTo id (a.sent u))) c) := by
      intro part c hc
      unfold Actor.ShowsTo
      rw [Actor.sent_trans (Actor.step_trace hstep) (Actor.run_trace hc), framesTo_append,
        presenceReplay_append]
    constructor
    · intro hshows
      have hnow : a.EvictsAbsent P l := hagree.mp
        (hshows [l] u ⟨ls, rfl⟩ (Lts.exec_cons.mpr ⟨u, hstep, rfl⟩))
      refine Lts.along_step hstep hnow ((ih hrest hempty_rest hrest_unique hreg hrefused.right
        hknown_u (hagain hnow)).mp fun part c hpart hc => ?_)
      exact (hlater hc).mp (hshows (l :: part) c (List.prefix_cons_iff.mpr (Or.inr ⟨part, rfl, hpart⟩))
        (Lts.exec_cons.mpr ⟨u, hstep, hc⟩))
    · intro halong part c hpart hc
      obtain ⟨hnow, halong'⟩ := Lts.along_cons halong hstep
      rcases List.prefix_cons_iff.mp hpart with rfl | ⟨part', rfl, hpart'⟩
      · rw [Actor.Run, Lts.exec_nil, Option.some.injEq] at hc
        subst hc
        intro k
        rw [Actor.sent_eq (k := []) (List.append_nil _).symm]
        exact h.present_eq k
      · obtain ⟨u', hstep', hc'⟩ := Lts.exec_cons.mp hc
        obtain rfl : u = u' := Option.some.inj (hstep.symm.trans hstep')
        exact (hlater hc').mpr ((ih hrest hempty_rest hrest_unique hreg hrefused.right hknown_u
          (hagain hnow)).mpr halong' part' c hpart' hc')

/-- **The view of a connection**, from when it joins and as long as it stays
and nothing sent to it is refused: it shows whom the actor shows after every
step, exactly if no broadcast evicts somebody who is present. -/
theorem Actor.presence_mirrored (P : Y.Presence σ) {cfg : Configuration} {name : String}
    {doc : Y.Doc} {queues : Queues} {before ls : List Label} {a b c : Actor Y}
    {handle : ConnHandle} {ack : Nat} {o : Ambient}
    (hbefore : Actor.Run cfg (Actor.spawn name doc queues) before a)
    (hjoin : a.step cfg (.command (.addConnection handle ack) o) = some b)
    (hrun : Actor.Run cfg b ls c)
    (hempty : ∀ l ∈ before ++ .command (.addConnection handle ack) o :: ls, ∀ handle' ack' o',
      l = .command (.addConnection handle' ack') o' → handle'.clientIds = [])
    (hunique : ∀ l ∈ ls, l.joiner ≠ some handle.connId)
    (hstays : c.world.registered handle.connId = true)
    (hrefused : NeverRefused handle.connId (a.sent c)) :
    (∀ part d, part <+: ls → Actor.Run cfg b part d →
      a.ShowsTo P handle.connId Y.newAwareness d) ↔
    Lts.Along (Actor.step cfg) (fun d l _ => d.EvictsAbsent P l) b ls := by
  have hsplit : ∀ {part d}, Actor.Run cfg b part d → a.sent d = a.sent b ++ b.sent d := fun hd =>
    Actor.sent_trans (Actor.step_trace hjoin) (Actor.run_trace hd)
  rw [hsplit hrun] at hrefused
  have hknown_a : Known P a.world := by
    refine Lts.exec_invariant_along (C := fun _ l _ => ∀ handle ack o,
      l = .command (.addConnection handle ack) o → handle.clientIds = [])
      (I := fun d : Actor Y => Known P d.world) (fun _ _ _ ht hl h => h.step P ht hl)
      (Lts.along_of_labels (fun l hl => hempty l (List.mem_append_left _ hl)) _) hbefore ?_
    intro id conn hconn
    cases hconn
  have hknown_b := hknown_a.step P hjoin
    (hempty _ (List.mem_append_right _ (List.mem_cons_self ..)))
  rw [← Actor.run_mirrors hY P hrun (fun l hl => hempty l (List.mem_append_right _
    (List.mem_cons_of_mem _ hl))) hunique hstays hrefused.right hknown_b
    (Actor.join_mirrors hY P hjoin hrefused.left)]
  refine forall_congr' fun part => forall_congr' fun d => forall_congr' fun _ =>
    forall_congr' fun hd => ?_
  unfold Actor.ShowsTo
  rw [hsplit hd, framesTo_append, presenceReplay_append]

end Runs

/-- One client is there, and a second joins. -/
def oneThere : List Label := [.command (.addConnection (OneWriter.conn 1) 0) {}]

def secondJoins : Label := .command (.addConnection (OneWriter.conn 2) 0) {}

/-- Both show themselves, and only the second reads what it is sent. -/
def bothShow : List Label :=
  [.command (.clientFrame 1 (OneWriter.showFrame 7 1)) {}, .queues [.drain 2],
    .command (.clientFrame 2 (OneWriter.showFrame 8 1)) {}]

/-- The one actor before, and the other after the second has joined. -/
def onesActor (cap : Nat) : Actor OneWriter.yrs := OneWriter.after {} (OneWriter.start cap) oneThere

def bothActor (cap : Nat) : Actor OneWriter.yrs := OneWriter.after {} (onesActor cap) [secondJoins]

/-- With room in the queues the second sees who is there. -/
theorem Actor.presence_mirrored_room :
    (onesActor 8).ShowsTo OneWriter.presence 2 OneWriter.yrs.newAwareness
      (OneWriter.after {} (bothActor 8) bothShow) := by
  have hrun : Actor.Run {} (bothActor 8) bothShow _ := OneWriter.run_after (by decide +kernel)
  refine (Actor.presence_mirrored OneWriter.lib0Laws OneWriter.presence
    (OneWriter.run_after (by decide +kernel)) (OneWriter.step_after (by decide +kernel))
    hrun (OneWriter.fresh_of_all (by decide)) (by decide)
    (by decide +kernel) (by decide +kernel)).mpr ?_ bothShow _ (List.prefix_refl _) hrun
  let test (a : Actor OneWriter.yrs) (l : Label) : Bool :=
    (World.Broadcast.found (a.broadcastCall l)).isEmpty
  have htest : Lts.check (Actor.step {}) test (bothActor 8) bothShow = true := by decide +kernel
  have hnobody : ∀ (a : Actor OneWriter.yrs) (l : Label) (_ : Actor OneWriter.yrs),
      test a l = true → a.EvictsAbsent OneWriter.presence l := by
    intro a l _ h conn hconn
    rw [List.isEmpty_iff.mp h] at hconn
    cases hconn
  exact Lts.along_of_check hnobody htest

/-- A queue holds one frame: the first is evicted when the second shows
itself, and the second goes on seeing it. -/
theorem Actor.presence_left_behind :
    ¬ ∀ (cfg : Configuration) (before ls : List Label) (a b c : Actor OneWriter.yrs)
      (handle : ConnHandle) (ack : Nat) (o : Ambient),
      Actor.Run cfg (OneWriter.start cfg.outboundCapacity) before a →
      a.step cfg (.command (.addConnection handle ack) o) = some b → Actor.Run cfg b ls c →
      (∀ l ∈ before ++ .command (.addConnection handle ack) o :: ls, ∀ handle' ack' o',
        l = .command (.addConnection handle' ack') o' → handle'.clientIds = []) →
      (∀ l ∈ ls, l.joiner ≠ some handle.connId) → c.world.registered handle.connId = true →
      NeverRefused handle.connId (a.sent c) → ∀ part d, part <+: ls → Actor.Run cfg b part d →
        a.ShowsTo OneWriter.presence handle.connId OneWriter.yrs.newAwareness d := by
  intro hall
  have hrun : Actor.Run {} (bothActor 1) bothShow _ := OneWriter.run_after (by decide +kernel)
  have hshows := hall { outboundCapacity := 1 } oneThere bothShow (onesActor 1) (bothActor 1) _
    (OneWriter.conn 2) 0 {} (OneWriter.run_after (by decide +kernel))
    (OneWriter.step_after (by decide +kernel)) hrun (OneWriter.fresh_of_all (by decide)) (by decide)
    (by decide +kernel) (by decide +kernel) bothShow _ (List.prefix_refl _) hrun 7
  revert hshows
  decide +kernel

end Hocuspocus
