import Hocuspocus.Document.Lifecycle
import Hocuspocus.Server.Durable

/-!
# One life of a document after the other

The log of a name is the records of the actors of that name, in the order of the
steps of the server, with an entry where one is loaded. As long as the steps are
orderly, so that two actors of a name are never live together, the log is a
sequence of lifecycles, and only the last may be unfinished: a load comes only after
the document before it was removed from the registry, and nothing of the record of
that one comes afterwards (`names_keep_lifecycle`).

What may still come from an actor that has removed itself are its
`after_unload_document` calls, which it awaits then (`Document/Hooks.lean`): the next
actor can be loaded before they are made. They are not part of the record.

An actor whose loop has ended without unloading would be an exception, since a
store task of its own goes on. A live actor has a sender in the registry or with
the task that inserts it, so there is none.
-/

namespace Hocuspocus

variable {Y : Yrs}

/-- An entry of the log of a name: a document is loaded, or its actor or a store task
of it writes an entry. -/
inductive LogEntry (Y : Yrs)
  | loaded (doc : Y.Doc)
  | written (e : Event Y)

/-- No document of the name was loaded yet. -/
def Lifecycle.absent : Lifecycle Y := ⟨Y.newDoc, none, .unloaded⟩

/-- The entries that may come next: a load where the last document has left, and
what the record of the current one may go on with. -/
inductive Logged : Lifecycle Y → LogEntry Y → Lifecycle Y → Prop
  | loaded (s : Lifecycle Y) (doc : Y.Doc) (hgone : s.stage = .unloaded) :
    Logged s (.loaded doc) (.loaded doc)
  | written {s s' : Lifecycle Y} {e : Event Y} (h : Written s e s') : Logged s (.written e) s'

theorem logged_written {s s' : Lifecycle Y} {es : List (Event Y)} (h : Lts.Traced Written s es s') :
    Lts.Traced Logged s (es.map LogEntry.written) s' := by
  induction h with
  | nil s => exact .nil s
  | cons hnext _ ih => exact .cons (.written hnext) ih

namespace Server

/-- What the actor `j` adds to the log of the name in a step. -/
def entriesOf (s t : Server Y) (name : String) (j : Nat) : List (LogEntry Y) :=
  match s.actors[j]?, t.actors[j]? with
  | some a, some b =>
    if b.actor.world.name = name then
      (b.actor.world.trace.drop a.actor.world.trace.length).map LogEntry.written
    else []
  | none, some b => if b.actor.world.name = name then [.loaded b.actor.world.doc] else []
  | _, none => []

/-- What a step adds to the log of the name. -/
def entries (cfg : Configuration) (name : String) (s : Server Y) (l : Label Y) : List (LogEntry Y) :=
  (s.step cfg l).elim [] fun t => (List.range t.actors.length).flatMap (s.entriesOf t name)

/-- Where the last document of the name stands: the live actor of the name is
where the log says, the others have departed, and without a live one the last has
departed too. -/
structure Current (s : Server Y) (name : String) (q : Lifecycle Y) : Prop where
  live : ∀ (j : Nat) (a : Spawned Y), s.actors[j]? = some a → a.actor.world.name = name →
    a.Live → Lives q a.actor.world
  left : ∀ (j : Nat) (a : Spawned Y), s.actors[j]? = some a → a.actor.world.name = name →
    a.Left → ∃ q', Departed q' a.actor.world
  idle : (∀ (j : Nat) (a : Spawned Y), s.actors[j]? = some a → a.actor.world.name = name →
    a.Left) → q.stage = .unloaded

end Server

/-! ## The entries of a step -/

/-- Only one position contributes. -/
theorem flatMap_range_one {α : Type} {f : Nat → List α} {k : Nat} (h : ∀ j, j ≠ k → f j = []) :
    ∀ {n : Nat}, k < n → (List.range n).flatMap f = f k := by
  intro n
  induction n with
  | zero => exact fun hk => absurd hk (Nat.not_lt_zero k)
  | succ n ih =>
    intro hk
    rw [List.range_succ, List.flatMap_append, List.flatMap_singleton]
    by_cases hkn : k = n
    · subst hkn
      have hnone : (List.range k).flatMap f = [] :=
        List.flatMap_eq_nil_iff.mpr fun j hj => h j (Nat.ne_of_lt (List.mem_range.mp hj))
      rw [hnone, List.nil_append]
    · rw [ih (by omega), h n (Ne.symm hkn), List.append_nil]

namespace Server

/-- An actor whose state stays adds nothing. -/
theorem entriesOf_same {s t : Server Y} {name : String} {j : Nat}
    (h : ∀ b, t.actors[j]? = some b → ∃ a, s.actors[j]? = some a ∧
      b.actor.world.trace = a.actor.world.trace) : s.entriesOf t name j = [] := by
  unfold entriesOf
  cases hb : t.actors[j]? with
  | none => cases s.actors[j]? <;> rfl
  | some b =>
    obtain ⟨a, ha, htrace⟩ := h b hb
    rw [ha]
    dsimp only
    rw [htrace, List.drop_length]
    split <;> rfl

theorem entries_step {cfg : Configuration} {name : String} {s t : Server Y} {l : Label Y}
    (h : Server.step cfg s l = some t) :
    s.entries cfg name l = (List.range t.actors.length).flatMap (s.entriesOf t name) := by
  rw [entries, h]
  rfl

/-! ## Steps -/

section Steps

variable {cfg : Configuration} {s t : Server Y} {l : Label Y} {name : String} {q : Lifecycle Y}

/-- Nothing happens to the actors of the name. -/
theorem Current.same (h : s.Current name q)
    (hback : ∀ (j : Nat) (b : Spawned Y), t.actors[j]? = some b → b.actor.world.name = name →
      ∃ a, s.actors[j]? = some a ∧ b.actor = a.actor)
    (hforth : ∀ (j : Nat) (a : Spawned Y), s.actors[j]? = some a → a.actor.world.name = name →
      ∃ b, t.actors[j]? = some b ∧ b.actor = a.actor) : t.Current name q where
  live j b hb hname hlive := by
    obtain ⟨a, ha, hactor⟩ := hback j b hb hname
    rw [Spawned.Live, Spawned.Left, hactor] at hlive
    rw [hactor] at hname ⊢
    exact h.live j a ha hname hlive
  left j b hb hname hleft := by
    obtain ⟨a, ha, hactor⟩ := hback j b hb hname
    rw [Spawned.Left, hactor] at hleft
    rw [hactor] at hname ⊢
    exact h.left j a ha hname hleft
  idle hall := by
    refine h.idle fun j a ha hname => ?_
    obtain ⟨b, hb, hactor⟩ := hforth j a ha hname
    have hleft := hall j b hb (by rw [hactor]; exact hname)
    rw [Spawned.Left, hactor] at hleft
    exact hleft

/-- While a task loads a name, no actor of it is live. -/
theorem Exclusive.not_live (hs : s.Exclusive) {τ : Task} (hspawning : s.spawning τ = some name)
    {j : Nat} {a : Spawned Y} (ha : s.actors[j]? = some a) (hname : a.actor.world.name = name) :
    a.Left := by
  obtain ⟨k, hcall⟩ := spawning_iff.mp hspawning
  by_contra hlive
  rcases hs.live j a ha hlive with hentry | ⟨τ', k', hcall'⟩
  · rw [hname, hs.absent τ _ _ hcall rfl] at hentry
    cases hentry
  · rw [hname] at hcall'
    obtain rfl := hs.loading τ τ' _ _ _ hcall hcall' rfl rfl
    rw [hcall] at hcall'
    cases hcall'

/-- A load begins a life. -/
theorem Current.load (hs : s.Exclusive) (h : s.Current name q) {τ : Task} {loads : String}
    (hspawning : s.spawning τ = some loads) {doc : Y.Doc} {queues : Queues}
    (hstep : Server.step cfg s (resume doc queues τ) = some t) :
    ∃ q', Lts.Traced Logged q (s.entries cfg name (resume doc queues τ)) q' ∧
      t.Current name q' := by
  have hactors := resume_actors hspawning hstep
  have hlast : t.actors[s.actors.length]? = some (born loads doc queues) := by
    rw [hactors]
    exact List.getElem?_concat_length
  have hold : ∀ {j : Nat} {b : Spawned Y}, t.actors[j]? = some b → j ≠ s.actors.length →
      s.actors[j]? = some b := by
    intro j b hb hne
    rw [hactors] at hb
    rcases getElem?_snoc hb with hold | ⟨hj, _⟩
    · exact hold
    · exact absurd hj hne
  have hkept : ∀ {j : Nat} {a : Spawned Y}, s.actors[j]? = some a → t.actors[j]? = some a := by
    intro j a ha
    obtain ⟨hlt, _⟩ := List.getElem?_eq_some_iff.mp ha
    rw [hactors]
    exact (List.getElem?_append_left hlt).trans ha
  have hentries : s.entries cfg name (resume doc queues τ)
      = if loads = name then [.loaded doc] else [] := by
    have hlength : s.actors.length < t.actors.length := by
      rw [hactors, List.length_append]
      exact Nat.lt_succ_self _
    rw [entries_step hstep, flatMap_range_one (k := s.actors.length) (fun j hj =>
      entriesOf_same fun b hb => ⟨b, hold hb hj, rfl⟩) hlength, entriesOf, hlast,
      List.getElem?_eq_none (Nat.le_refl _)]
    rfl
  rw [hentries]
  split
  next hname =>
    subst hname
    have hleft : ∀ (j : Nat) (a : Spawned Y), s.actors[j]? = some a →
        a.actor.world.name = loads → a.Left := fun j a ha hname => hs.not_live hspawning ha hname
    have hborn : ¬ (born loads doc queues).Left := by
      rintro (hphase | hphase) <;> cases hphase
    refine ⟨.loaded doc, .single (.loaded q doc (h.idle hleft)), fun j b hb hname hlive => ?_,
      fun j b hb hname hgone => ?_, fun hall => absurd (hall _ _ hlast rfl) hborn⟩
    · by_cases hj : j = s.actors.length
      · subst hj
        obtain rfl := Option.some.inj (hlast.symm.trans hb)
        exact ⟨rfl, rfl, rfl, rfl⟩
      · exact absurd (hleft j b (hold hb hj) hname) hlive
    · by_cases hj : j = s.actors.length
      · subst hj
        obtain rfl := Option.some.inj (hlast.symm.trans hb)
        exact absurd hgone hborn
      · exact h.left j b (hold hb hj) hname hgone
  next hname =>
    refine ⟨q, .nil q, h.same (fun j b hb hb' => ⟨b, hold hb ?_, rfl⟩)
      fun j a ha _ => ⟨a, hkept ha, rfl⟩⟩
    rintro rfl
    obtain rfl := Option.some.inj (hlast.symm.trans hb)
    exact hname hb'

/-- One actor of the name goes on, to where the log now says it is; any other one
that was to be followed is followed still. -/
theorem Current.turn {q' : Lifecycle Y} (h : s.Current name q) {k : Nat} {b : Spawned Y}
    (hb : t.actors[k]? = some b) (hname : b.actor.world.name = name)
    (hback : ∀ (j : Nat) (b' : Spawned Y), j ≠ k → t.actors[j]? = some b' →
      ∃ a', s.actors[j]? = some a' ∧ b'.actor = a'.actor)
    (hforth : ∀ (j : Nat) (a' : Spawned Y), j ≠ k → s.actors[j]? = some a' →
      ∃ b', t.actors[j]? = some b' ∧ b'.actor = a'.actor)
    (hrest : q' = q ∨ ∀ (j : Nat) (a' : Spawned Y), j ≠ k → s.actors[j]? = some a' →
      a'.actor.world.name = name → a'.Left)
    (hlive : b.Live → Lives q' b.actor.world)
    (hleft : b.Left → ∃ q₀, Departed q₀ b.actor.world)
    (hidle : b.Left → (∀ (j : Nat) (a' : Spawned Y), j ≠ k → s.actors[j]? = some a' →
      a'.actor.world.name = name → a'.Left) → q'.stage = .unloaded) : t.Current name q' where
  live j b' hb' hname' hlive' := by
    by_cases hj : j = k
    · subst hj
      obtain rfl := Option.some.inj (hb.symm.trans hb')
      exact hlive hlive'
    · obtain ⟨a', ha', hactor⟩ := hback j b' hj hb'
      rw [Spawned.Live, Spawned.Left, hactor] at hlive'
      rw [hactor] at hname' ⊢
      rcases hrest with rfl | hrest
      · exact h.live j a' ha' hname' hlive'
      · exact absurd (hrest j a' hj ha' hname') hlive'
  left j b' hb' hname' hleft' := by
    by_cases hj : j = k
    · subst hj
      obtain rfl := Option.some.inj (hb.symm.trans hb')
      exact hleft hleft'
    · obtain ⟨a', ha', hactor⟩ := hback j b' hj hb'
      rw [Spawned.Left, hactor] at hleft'
      rw [hactor] at hname' ⊢
      exact h.left j a' ha' hname' hleft'
  idle hall := by
    refine hidle (hall k b hb hname) fun j a' hj ha' hname' => ?_
    obtain ⟨b', hb', hactor⟩ := hforth j a' hj ha'
    have hleft' := hall j b' hb' (by rw [hactor]; exact hname')
    rw [Spawned.Left, hactor] at hleft'
    exact hleft'

/-- An actor goes on with its life. -/
theorem Current.acts (herr : Y.ErrKeepsDoc) (hs : s.Exclusive) (h : s.Current name q)
    (hstep : Server.step cfg s l = some t) {k : Nat} {a b : Spawned Y} {al : Hocuspocus.Label}
    (ha : s.actors[k]? = some a) (hb : t.actors[k]? = some b)
    (hact : a.actor.step cfg al = some b.actor)
    (hclosed : al = .mailboxClosed → s.hasSender k a = false)
    (hback : ∀ (j : Nat) (b' : Spawned Y), j ≠ k → t.actors[j]? = some b' →
      ∃ a', s.actors[j]? = some a' ∧ b'.actor = a'.actor) :
    ∃ q', Lts.Traced Logged q (s.entries cfg name l) q' ∧ t.Current name q' := by
  have hsame : b.actor.world.name = a.actor.world.name := Actor.step_name hact
  have hforth : ∀ (j : Nat) (a' : Spawned Y), j ≠ k → s.actors[j]? = some a' →
      ∃ b', t.actors[j]? = some b' ∧ b'.actor = a'.actor := by
    intro j a' hj ha'
    obtain ⟨b', hb', _⟩ := step_turn hstep ha'
    obtain ⟨a'', ha'', hactor⟩ := hback j b' hj hb'
    obtain rfl := Option.some.inj (ha'.symm.trans ha'')
    exact ⟨b', hb', hactor⟩
  have hentries : s.entries cfg name l = s.entriesOf t name k := by
    rw [entries_step hstep]
    refine flatMap_range_one (fun j hj => entriesOf_same fun b' hb' => ?_)
      (List.getElem?_eq_some_iff.mp hb).1
    obtain ⟨a', ha', hactor⟩ := hback j b' hj hb'
    exact ⟨a', ha', by rw [hactor]⟩
  rw [hentries, entriesOf, ha, hb]
  dsimp only
  split
  next hname =>
    have hname' : a.actor.world.name = name := hsame.symm.trans hname
    by_cases hgone : a.Left
    · -- an actor that has left adds nothing any more
      obtain ⟨q₀, hdeparted⟩ := h.left k a ha hname' hgone
      obtain ⟨htrace, hover, hdeparted'⟩ := hdeparted.step hgone hact
      rw [htrace, List.drop_length]
      refine ⟨q, .nil q, h.turn hb hname hback hforth (Or.inl rfl) (fun hlive => absurd hover hlive)
        (fun _ => ⟨q₀, hdeparted'⟩) fun _ hrest => h.idle fun j a' ha' hnamed => ?_⟩
      by_cases hj : j = k
      · subst hj
        obtain rfl := Option.some.inj (ha.symm.trans ha')
        exact hgone
      · exact hrest j a' hj ha' hnamed
    · have hopen : al ≠ .mailboxClosed := by
        intro hl
        have hsender := hs.hasSender ha hgone
        rw [hclosed hl] at hsender
        cases hsender
      obtain ⟨q', ⟨es, hes, hwritten⟩, hstands⟩ :=
        (h.live k a ha hname' hgone).step herr hgone hopen hact
      rw [hes, List.drop_left]
      have hgoes : b.Left → Departed q' b.actor.world := fun hleft =>
        hstands.elim (fun hruns => absurd hleft hruns.1) And.right
      refine ⟨q', logged_written hwritten, h.turn hb hname hback hforth (Or.inr ?_)
        (fun hlive => hstands.elim And.right fun hends => absurd hends.1 hlive)
        (fun hleft => ⟨q', hgoes hleft⟩) fun hleft _ => (hgoes hleft).stage⟩
      -- no other actor of the name is live
      intro j a' hj ha' hnamed
      by_contra hlive
      exact hj (hs.one ha' ha hlive hgone (hnamed.trans hname'.symm))
  next hname =>
    have hother : ∀ {j : Nat} {b' : Spawned Y}, t.actors[j]? = some b' →
        b'.actor.world.name = name → j ≠ k := by
      rintro j b' hb' hname' rfl
      obtain rfl := Option.some.inj (hb.symm.trans hb')
      exact hname hname'
    refine ⟨q, .nil q, h.same (fun j b' hb' hname' => hback j b' (hother hb' hname') hb')
      fun j a' ha' hname' => hforth j a' ?_ ha'⟩
    rintro rfl
    obtain rfl := Option.some.inj (ha.symm.trans ha')
    exact hname (hsame.trans hname')

/-- **The step lemma.** -/
theorem Current.step (herr : Y.ErrKeepsDoc) (hs : s.Exclusive) (h : s.Current name q)
    (hstep : Server.step cfg s l = some t) :
    ∃ q', Lts.Traced Logged q (s.entries cfg name l) q' ∧ t.Current name q' := by
  cases hload : l.task.bind s.spawning with
  | some loads =>
    obtain ⟨τ, htask, hspawning⟩ := Option.bind_eq_some_iff.mp hload
    obtain ⟨doc, queues, rfl⟩ : ∃ doc queues, l = resume doc queues τ := by
      cases l <;> cases htask
      · exact ⟨_, _, rfl⟩
      · exact ⟨_, _, rfl⟩
    exact h.load hs hspawning hstep
  | none =>
    cases store_cases hstep hload with
    | quiet hactors haccepted =>
      have hentries : s.entries cfg name l = [] := by
        rw [entries_step hstep]
        refine List.flatMap_eq_nil_iff.mpr fun j _ => entriesOf_same fun b hb => ?_
        obtain ⟨a, ha, hactor⟩ := hactors j b hb
        exact ⟨a, ha, by rw [hactor]⟩
      rw [hentries]
      refine ⟨q, .nil q, h.same (fun j b hb _ => hactors j b hb) fun j a ha _ => ?_⟩
      obtain ⟨b, hb, _⟩ := step_turn hstep ha
      obtain ⟨a', ha', hactor⟩ := hactors j b hb
      obtain rfl := Option.some.inj (ha.symm.trans ha')
      exact ⟨b, hb, hactor⟩
    | acts k a b al ha hb hact hclosed hothers =>
      exact h.acts herr hs hstep ha hb hact hclosed hothers

end Steps

end Server

/-! ## Runs -/

/-- **Every document lives one life after the other.** In every run whose steps
are orderly, the log of a name is a sequence of lifecycles: a live actor of the
name is where the log ends, and where there is none the last was removed from the
registry. -/
theorem names_keep_lifecycle (herr : Y.ErrKeepsDoc) {cfg : Configuration}
    {ls : List (Server.Label Y)} {s : Server Y}
    (hrun : Lts.exec (Server.step cfg) (Server.build Y) ls = some s)
    (horderly : Lts.Along (Server.step cfg) (fun s l _ => s.Orderly l) (Server.build Y) ls)
    (name : String) :
    ∃ q, Lts.Traced Logged .absent
        (Lts.record (Server.step cfg) (Server.entries cfg name) (Server.build Y) ls) q ∧
      (∀ (j : Nat) (a : Spawned Y), s.actors[j]? = some a → a.actor.world.name = name → a.Live →
        q.doc = a.actor.world.doc ∧ q.store.toList = a.actor.world.storeTasks ∧
          q.stage.isOpen = true) ∧
      ((∀ (j : Nat) (a : Spawned Y), s.actors[j]? = some a → a.actor.world.name = name →
        ¬ a.Live) → q.stage = .unloaded) := by
  let Keeps (u : Server Y) (log : List (LogEntry Y)) : Prop :=
    u.Exclusive ∧ ∃ q, Lts.Traced Logged .absent log q ∧ u.Current name q
  have hstep : ∀ (u : Server Y) (l : Server.Label Y) (v : Server Y) (log : List (LogEntry Y)),
      Server.step cfg u l = some v → u.Orderly l → Keeps u log →
      Keeps v (log ++ u.entries cfg name l) := by
    rintro u l v log hstep hc ⟨hs, q, htraced, hcurrent⟩
    obtain ⟨q', hentries, hnext⟩ := hcurrent.step herr hs hstep
    exact ⟨hs.step hstep hc, q', htraced.append hentries, hnext⟩
  have hend := Lts.exec_record hstep (w := []) horderly hrun ⟨Server.build_exclusive Y, .absent,
    .nil _, fun j a ha => (by cases ha), fun j a ha => (by cases ha), fun _ => rfl⟩
  obtain ⟨_, q, htraced, hcurrent⟩ := hend
  refine ⟨q, htraced, fun j a ha hname hlive => ?_, fun hnone => ?_⟩
  · have hlives := hcurrent.live j a ha hname hlive
    exact ⟨hlives.doc.symm, hlives.store.symm, hlives.stage⟩
  · exact hcurrent.idle fun j a ha hname => not_not.mp (hnone j a ha hname)

open OneWriter in
/-- A client edits a document and leaves; another one opens it again, and is
still there. -/
def livesTwice : List (Server.Label yrs) :=
  [.connect 0, .connect 0] ++ enters 0 0 "doc" ++ [.receive 0 (editFrame 0) 0] ++ handles 0 ++
    leaves 0 0 ++ enters 1 1 "doc"

/-- The positions of the loads in a log. -/
def loads (log : List (LogEntry Y)) : List Nat :=
  log.findIdxs fun
    | .loaded _ => true
    | .written _ => false

theorem names_keep_lifecycle_twice :
    ∃ q, loads (Lts.record (Server.step {}) (Server.entries {} "doc")
        (Server.build OneWriter.yrs) livesTwice) = [0, 13] ∧
      Lts.Traced Logged .absent (Lts.record (Server.step {}) (Server.entries {} "doc")
        (Server.build OneWriter.yrs) livesTwice) q ∧ q.stage.isOpen = true := by
  have hcheck : Lts.check (Server.step {}) Server.orderly (Server.build OneWriter.yrs) livesTwice
      = true := by decide +kernel
  have hsecond : ((OneWriter.serve {} livesTwice).actors[1]?).map
      (fun b => (b.actor.world.name, b.actor.phase)) = some ("doc", .select) := by decide +kernel
  obtain ⟨b, hb, hdoes⟩ := Option.map_eq_some_iff.mp hsecond
  obtain ⟨hname, hphase⟩ := Prod.mk.inj hdoes
  have hlive : b.Live := by
    intro h
    rw [Spawned.Left, hphase] at h
    rcases h with h | h <;> cases h
  obtain ⟨q, htraced, hcurrent, _⟩ := names_keep_lifecycle OneWriter.errKeepsDoc
    (Lts.exec_reach (by decide +kernel))
    (Lts.along_of_check (fun _ _ _ => Server.orderly_sound) hcheck) "doc"
  exact ⟨q, by decide +kernel, htraced, (hcurrent 1 b hb hname hlive).2.2⟩

end Hocuspocus
