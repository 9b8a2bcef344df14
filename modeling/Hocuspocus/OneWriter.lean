import Mathlib
import Hocuspocus.Lib.Codec
import Hocuspocus.Yrs.Laws
import Hocuspocus.Document.Run

/-!
# An instance of the interface: documents with one writer

A small `Yrs` that can be run. Its documents have a single client, number 1,
whose blocks are all collected (`GC`); an update is the clocks it brings and
the clocks it deletes, written as ranges. The layout is that of lib0 and of the v1
encoding, with two simplifications. The delete set of an update has the clocks that
were deleted through this interface, while yrs lists there the clocks of every `GC`
block it writes. A string is its code points, one varuint each, and their number in
front, while lib0 has the UTF-8 bytes and their number; the two agree on ASCII.

The instance satisfies every law the development assumes, which shows that the
assumptions can be met together, and the fixed runs of the development are runs of it.
-/

namespace Hocuspocus.OneWriter

open Codec

/-! ## Documents and updates -/

structure Doc where
  recv : List Nat
  dels : List Nat
  deriving DecidableEq, Repr

structure Update where
  ops : List Nat
  dels : List Nat
  deriving DecidableEq, Repr

/-- Above every received clock. -/
def bound (recv : List Nat) : Nat := recv.foldr (fun c b => max (c + 1) b) 0

def frontierFrom (recv : List Nat) : Nat → Nat → Nat
  | 0, k => k
  | fuel + 1, k => if k ∈ recv then frontierFrom recv fuel (k + 1) else k

/-- The first clock that is missing: a block is integrated once all earlier
ones are. -/
def frontier (d : Doc) : Nat := frontierFrom d.recv (bound d.recv) 0

def merge (l m : List Nat) : List Nat := l ++ m.filter fun c => c ∉ l

def Doc.apply (d : Doc) (u : Update) : Doc := ⟨merge d.recv u.ops, merge d.dels u.dels⟩

/-- The deletions of integrated blocks. -/
def Doc.gone (d : Doc) : List Nat := d.dels.filter fun c => c < frontier d

/-- The blocks from `sv` on, and all deletions. -/
def Doc.diff (d : Doc) (sv : Nat) : Update := ⟨List.range' sv (frontier d - sv), d.gone⟩

/-- What `u` brings about in `d`. -/
def Doc.change (d : Doc) (u : Update) : Update :=
  ⟨List.range' (frontier d) (frontier (d.apply u) - frontier d),
    (d.apply u).gone.filter fun c => c ∉ d.gone⟩

/-! ## Their encoding -/

/-- Consecutive clocks as ranges (start, length). -/
def ranges : List Nat → List (Nat × Nat)
  | [] => []
  | c :: cs =>
    match ranges cs with
    | [] => [(c, 1)]
    | r :: rest => if r.1 = c + 1 then (c, r.2 + 1) :: rest else (c, 1) :: r :: rest

def clocks (rs : List (Nat × Nat)) : List Nat := rs.flatMap fun r => List.range' r.1 r.2

/-- One struct of client 1, its clock, `GC` (0) and its length. -/
def writeBlock (r : Nat × Nat) : List UInt8 :=
  writeVar 1 ++ (writeVar 1 ++ (writeVar r.1 ++ (writeVar 0 ++ writeVar r.2)))

def readBlock : Read (Nat × Nat) :=
  (expect 1).bind fun _ => (expect 1).bind fun _ => readVar.bind fun c =>
    (expect 0).bind fun _ => readVar.bind fun len => .pure (c, len)

def writeRange (r : Nat × Nat) : List UInt8 := writeVar r.1 ++ writeVar r.2

def readRange : Read (Nat × Nat) := readVar.bind fun c => readVar.bind fun len => .pure (c, len)

/-- The delete set: no client, or client 1 with its ranges. -/
def writeDeletes (rs : List (Nat × Nat)) : List UInt8 :=
  if rs = [] then writeVar 0 else writeVar 1 ++ (writeVar 1 ++ writeList writeRange rs)

def readDeletes : Read (List (Nat × Nat)) :=
  readVar.bind fun clients =>
    if clients = 0 then .pure [] else (expect 1).bind fun _ => readList readRange

def encodeUpdate (u : Update) : List UInt8 :=
  writeList writeBlock (ranges u.ops) ++ writeDeletes (ranges u.dels)

def readUpdate : Read Update :=
  (readList readBlock).bind fun ops => readDeletes.bind fun dels =>
    .pure ⟨clocks ops, clocks dels⟩

def decodeUpdate (bs : List UInt8) : Option Update := (readUpdate bs).1

/-- A state vector: no client, or client 1 with its clock. -/
def writeStateVector (sv : Nat) : List UInt8 :=
  if sv = 0 then writeVar 0 else writeVar 1 ++ (writeVar 1 ++ writeVar sv)

def readStateVector : Read Nat :=
  readVar.bind fun clients =>
    if clients = 0 then .pure 0 else (expect 1).bind fun _ => readVar

def encodeSync : SyncMessage Nat → List UInt8
  | .syncStep1 sv => writeVar 0 ++ writeBuf (writeStateVector sv)
  | .syncStep2 update => writeVar 1 ++ writeBuf update
  | .update update => writeVar 2 ++ writeBuf update

/-- The message a tag and its buffer stand for. -/
def syncMessage (tag : Nat) (buf : List UInt8) : Option (SyncMessage Nat) :=
  match tag with
  | 0 => (readStateVector buf).1.map SyncMessage.syncStep1
  | 1 => some (.syncStep2 buf)
  | 2 => some (.update buf)
  | _ => none

def decodeSync (bs : List UInt8) : Option (SyncMessage Nat) :=
  match readVar bs with
  | (some tag, rest) => (readBuf rest).1.bind (syncMessage tag)
  | (none, _) => none

/-! ## Presence -/

/-- A client's clock and state, as JSON; `null` is no state. -/
structure Presence where
  client : Nat
  clock : Nat
  json : String
  deriving DecidableEq, Repr

def Presence.absent (p : Presence) : Bool := p.json = "null"

def setPresence (table : List Presence) (p : Presence) : List Presence :=
  p :: table.filter fun q => q.client ≠ p.client

/-- A newer entry replaces an older one, and `null` one of the same clock. -/
def applyPresence (table : List Presence) (p : Presence) : List Presence :=
  match table.find? fun q => q.client = p.client with
  | none => setPresence table p
  | some q =>
    if q.clock < p.clock ∨ (q.clock = p.clock ∧ p.absent) then setPresence table p else table

/-- A state is taken away under the next clock, whether there was one or not; a
client never heard of gets the first. -/
def removePresence (table : List Presence) (client : Nat) : List Presence :=
  match table.find? fun q => q.client = client with
  | none => setPresence table ⟨client, 1, "null"⟩
  | some q => setPresence table { q with clock := q.clock + 1, json := "null" }

/-- The states of a table, each client's first entry. -/
def shownStates (table : List Presence) : List Presence :=
  table.filter fun p => !p.absent && table.find? (fun q => q.client = p.client) = some p

def writePresence (p : Presence) : List UInt8 :=
  writeVar p.client ++ (writeVar p.clock ++ writeString p.json)

def readPresence : Read Presence :=
  readVar.bind fun client => readVar.bind fun clock => readString.bind fun json =>
    .pure ⟨client, clock, json⟩

/-! ## The instance -/

def yrs : Yrs where
  Doc := Doc
  StateVector := Nat
  Update := Update
  Awareness := List Presence
  AwarenessUpdate := List Presence
  readString := readString
  readVar := readVar
  readBuf := readBuf
  writeString := writeString
  writeVar := writeVar
  writeBuf := writeBuf
  decodeSync := decodeSync
  encodeSync := encodeSync
  newDoc := ⟨[], []⟩
  decodeUpdate := decodeUpdate
  applyUpdate d u := (d.apply u, true)
  encodeTxn d u := encodeUpdate (d.change u)
  stateVector := frontier
  encodeDiff d sv := encodeUpdate (d.diff sv)
  encodeState d := encodeUpdate ⟨d.recv, d.dels⟩
  newAwareness := []
  hasStates table := table.any fun p => !p.absent
  awarenessUpdate table := some (shownStates table)
  updateWithClients table ids := ids.mapM fun id => table.find? fun p => p.client = id
  removeState := removePresence
  applyAwareness table u := (u.foldl applyPresence table, true)
  decodeAwareness bs := (readList readPresence bs).1
  encodeAwareness := writeList writePresence
  clients u := u.map Presence.client

/-! ## The codes are codes -/

theorem clocks_ranges (cs : List Nat) : clocks (ranges cs) = cs := by
  induction cs with
  | nil => rfl
  | cons c cs ih =>
    rw [ranges]
    split
    next h =>
      rw [← ih, h]
      rfl
    next r rest h =>
      rw [h] at ih
      split
      next hr =>
        have hrange : List.range' c (r.2 + 1) = c :: List.range' r.1 r.2 := by
          rw [List.range'_succ, hr]
        rw [clocks, List.flatMap_cons, hrange, ← ih]
        rfl
      next => rw [← ih]; rfl

theorem reads_block : Reads readBlock writeBlock := by
  intro r rest
  simp only [writeBlock, List.append_assoc]
  rw [readBlock, Read.bind_of_eq (expect_write 1 _), Read.bind_of_eq (expect_write 1 _),
    Read.bind_of_eq (reads_var r.1 _), Read.bind_of_eq (expect_write 0 _),
    Read.bind_of_eq (reads_var r.2 _)]
  rfl

theorem reads_range : Reads readRange writeRange := by
  intro r rest
  simp only [writeRange, List.append_assoc]
  rw [readRange, Read.bind_of_eq (reads_var r.1 _), Read.bind_of_eq (reads_var r.2 _)]
  rfl

theorem reads_deletes : Reads readDeletes writeDeletes := by
  intro ds rest
  unfold writeDeletes
  split
  next h =>
    rw [readDeletes, Read.bind_of_eq (reads_var 0 _), if_pos rfl, h]
    rfl
  next h =>
    rw [List.append_assoc, List.append_assoc, readDeletes, Read.bind_of_eq (reads_var 1 _),
      if_neg (by decide), Read.bind_of_eq (expect_write 1 _)]
    exact reads_range.list ds rest

theorem reads_update : Reads readUpdate encodeUpdate := by
  intro u rest
  rw [encodeUpdate, List.append_assoc, readUpdate,
    Read.bind_of_eq (reads_block.list (ranges u.ops) _),
    Read.bind_of_eq (reads_deletes (ranges u.dels) _), clocks_ranges, clocks_ranges]
  rfl

theorem decode_encode (u : Update) : decodeUpdate (encodeUpdate u) = some u := by
  have h := reads_update u []
  rw [List.append_nil] at h
  rw [decodeUpdate, h]

theorem encodeUpdate_ne_nil (u : Update) : encodeUpdate u ≠ [] := by
  intro h
  rw [encodeUpdate, writeList, List.append_assoc] at h
  exact writeVar_ne_nil _ (List.append_eq_nil_iff.mp h).1

theorem reads_stateVector : Reads readStateVector writeStateVector := by
  intro sv rest
  unfold writeStateVector
  split
  next h =>
    rw [readStateVector, Read.bind_of_eq (reads_var 0 _), if_pos rfl, h]
    rfl
  next h =>
    rw [List.append_assoc, List.append_assoc, readStateVector, Read.bind_of_eq (reads_var 1 _),
      if_neg (by decide), Read.bind_of_eq (expect_write 1 _)]
    exact reads_var sv rest

theorem decodeSync_encode (m : SyncMessage Nat) : decodeSync (encodeSync m) = some m := by
  have hbuf : ∀ tag (b : List UInt8),
      decodeSync (writeVar tag ++ writeBuf b) = syncMessage tag b := by
    intro tag b
    have h := reads_buf b []
    rw [List.append_nil] at h
    rw [decodeSync, reads_var tag (writeBuf b)]
    dsimp only
    rw [h]
    rfl
  cases m with
  | syncStep1 sv =>
    have h := reads_stateVector sv []
    rw [List.append_nil] at h
    rw [encodeSync, hbuf, syncMessage, h]
    rfl
  | syncStep2 update => exact hbuf 1 update
  | update update => exact hbuf 2 update

theorem lib0Laws : yrs.Lib0Laws where
  readString_write := reads_string
  readVar_write n rest _ := reads_var n rest
  readBuf_write := reads_buf
  decodeSync_encode := decodeSync_encode

theorem errKeepsDoc : yrs.ErrKeepsDoc := fun _ _ h => Bool.noConfusion h

/-! ## The laws about documents -/

theorem mem_merge {l m : List Nat} {c : Nat} : c ∈ merge l m ↔ c ∈ l ∨ c ∈ m := by
  simp only [merge, List.mem_append, List.mem_filter, decide_eq_true_eq]
  constructor
  · rintro (h | ⟨h, _⟩)
    · exact Or.inl h
    · exact Or.inr h
  · rintro (h | h)
    · exact Or.inl h
    · by_cases hl : c ∈ l
      · exact Or.inl hl
      · exact Or.inr ⟨h, hl⟩

theorem lt_bound {recv : List Nat} {c : Nat} (h : c ∈ recv) : c < bound recv := by
  induction recv with
  | nil => cases h
  | cons a l ih =>
    have hb : bound (a :: l) = max (a + 1) (bound l) := rfl
    rcases List.mem_cons.mp h with rfl | h
    · omega
    · have := ih h
      omega

theorem frontierFrom_spec (recv : List Nat) : ∀ (fuel k : Nat), bound recv ≤ k + fuel →
    frontierFrom recv fuel k ∉ recv ∧ k ≤ frontierFrom recv fuel k ∧
      ∀ c, k ≤ c → c < frontierFrom recv fuel k → c ∈ recv := by
  intro fuel
  induction fuel with
  | zero =>
    intro k hk
    refine ⟨fun hmem => ?_, le_rfl, fun c h₁ h₂ => absurd h₁ (Nat.not_le.mpr h₂)⟩
    have := lt_bound hmem
    rw [frontierFrom] at this
    omega
  | succ fuel ih =>
    intro k hk
    rw [frontierFrom]
    split
    next hmem =>
      obtain ⟨hout, hle, hin⟩ := ih (k + 1) (by omega)
      refine ⟨hout, by omega, fun c h₁ h₂ => ?_⟩
      rcases Nat.eq_or_lt_of_le h₁ with rfl | hlt
      · exact hmem
      · exact hin c hlt h₂
    next hmem => exact ⟨hmem, le_rfl, fun c h₁ h₂ => absurd h₁ (Nat.not_le.mpr h₂)⟩

theorem frontier_spec (d : Doc) :
    frontier d ∉ d.recv ∧ ∀ c, c < frontier d → c ∈ d.recv := by
  obtain ⟨hout, _, hin⟩ := frontierFrom_spec d.recv (bound d.recv) 0 (by omega)
  exact ⟨hout, fun c hc => hin c (Nat.zero_le c) hc⟩

/-- Each block waits for the one before it. -/
def deps (o p : Nat) : Prop := o = p + 1

def rep (d : Doc) : Causal.Replica Nat := ⟨{c | c ∈ d.recv}, {c | c ∈ d.dels}⟩

/-- The integrated blocks are those before the frontier. -/
theorem ins_rep (d : Doc) : (rep d).ins deps = {c | c < frontier d} := by
  obtain ⟨hout, hin⟩ := frontier_spec d
  ext c
  constructor
  · intro h
    induction h with
    | intro o hmem hdeps ih =>
      have hmem' : o ∈ d.recv := hmem
      have hne : o ≠ frontier d := fun he => hout (he ▸ hmem')
      cases o with
      | zero => exact Nat.pos_of_ne_zero (Ne.symm hne)
      | succ p =>
        have hp : p < frontier d := ih p rfl
        exact lt_of_le_of_ne hp hne
  · intro h
    induction c with
    | zero => exact .intro 0 (hin 0 h) (fun p hp => absurd hp (Nat.succ_ne_zero p).symm)
    | succ c ih =>
      refine .intro _ (hin _ h) fun p hp => ?_
      obtain rfl : c = p := Nat.succ.inj hp
      exact ih (Nat.lt_of_succ_lt h)

theorem gone_rep (d : Doc) : (rep d).gone deps = {c | c ∈ d.gone} := by
  ext c
  rw [Causal.Replica.gone, ins_rep]
  simp [rep, Doc.gone]

theorem rep_apply (d : Doc) (u : Update) :
    rep (d.apply u) = (rep d).apply ⟨{c | c ∈ u.ops}, {c | c ∈ u.dels}⟩ := by
  have hset : ∀ l m : List Nat, {c | c ∈ merge l m} = {c | c ∈ l} ∪ {c | c ∈ m} :=
    fun l m => Set.ext fun c => mem_merge
  simp only [rep, Causal.Replica.apply, Doc.apply, hset]

/-- Clocks from `a` up to `b`. -/
theorem mem_range_sdiff (a b : Nat) :
    {c | c ∈ List.range' a (b - a)} = {c | c < b} \ {c | c < a} := by
  ext c
  simp only [Set.mem_ofPred_eq, List.mem_range'_1, Set.mem_sdiff]
  omega

/-- What an update brings. -/
def delta (u : Update) : Causal.Delta Nat := ⟨{c | c ∈ u.ops}, {c | c ∈ u.dels}⟩

theorem delta_diff (d : Doc) (sv : Nat) : delta (d.diff sv) = (rep d).diff deps {c | c < sv} := by
  rw [Causal.Replica.diff, ins_rep, gone_rep, ← mem_range_sdiff]
  rfl

theorem delta_change (d : Doc) (u : Update) :
    delta (d.change u) = Causal.Replica.change deps (rep d) (rep (d.apply u)) := by
  have hgone : {c | c ∈ (d.change u).dels} = {c | c ∈ (d.apply u).gone} \ {c | c ∈ d.gone} := by
    ext c
    simp [Doc.change]
  rw [Causal.Replica.change, ins_rep, ins_rep, gone_rep, gone_rep, ← mem_range_sdiff, ← hgone]
  rfl

def replicated : yrs.Replicated Nat where
  deps := deps
  rep := rep
  delta := delta
  covers sv := {c | c < sv}
  rep_apply d u _ := rep_apply d u
  covers_stateVector d := (ins_rep d).symm
  decode_diff d sv := ⟨Doc.diff d sv, decode_encode _, delta_diff d sv, fun _ => rfl⟩
  decode_txn d u _ := ⟨Doc.change d u, decode_encode _, delta_change d u, fun _ => rfl⟩
  encodeTxn_ne_nil _ _ := encodeUpdate_ne_nil _
  encodeDiff_ne_nil _ _ := encodeUpdate_ne_nil _

/-- The content of a document: the clocks it has received, and deleted. -/
def crdt : yrs.Crdt (Set Nat × Set Nat) where
  held d := ({c | c ∈ d.recv}, {c | c ∈ d.dels})
  carried u := ({c | c ∈ u.ops}, {c | c ∈ u.dels})
  held_new := by
    show ({c | c ∈ ([] : List Nat)}, {c | c ∈ ([] : List Nat)}) = (⊥ : Set Nat × Set Nat)
    simp
    rfl
  held_apply d u _ :=
    Prod.ext (Set.ext fun _ => mem_merge) (Set.ext fun _ => mem_merge)
  held_mono d u :=
    ⟨fun _ h => mem_merge.mpr (Or.inl h), fun _ h => mem_merge.mpr (Or.inl h)⟩
  decode_state d := ⟨⟨d.recv, d.dels⟩, decode_encode _, rfl⟩
  encodeTxn_ne_nil _ _ := encodeUpdate_ne_nil _

/-! ## Concrete runs

The pieces of runs on one writer's documents: a writable connection on its
own queue, fresh queues, and the frames of its edits. -/

def conn (id : Nat) : ConnHandle where
  connId := id
  outbound := id
  messageAddress := "doc"
  readOnly := false
  socketId := "ws-1"
  sessionId := none
  providerVersion := none
  clientIds := []

def queues (cap : Nat) : Queues := fun _ => Channel.fresh cap

/-- The update that brings the block of one clock. -/
def edit (c : Nat) : Bytes := encodeUpdate ⟨[c], []⟩

def editFrame (c : Nat) : Bytes := World.syncFrame yrs "doc" (.update (edit c))

/-- An actor on an empty document, with queues of the given capacity. -/
def start (cap : Nat) : Actor yrs := Actor.spawn "doc" yrs.newDoc (queues cap)

/-- The actor after a run, if the run is enabled. -/
def after (cfg : Configuration) (a : Actor yrs) (ls : List Label) : Actor yrs :=
  (Lts.exec (Actor.step cfg) a ls).getD a

theorem run_after {cfg : Configuration} {a : Actor yrs} {ls : List Label}
    (h : (Lts.exec (Actor.step cfg) a ls).isSome = true) :
    Actor.Run cfg a ls (after cfg a ls) := by
  obtain ⟨b, hb⟩ := Option.isSome_iff_exists.mp h
  rw [Actor.Run, after, hb]
  rfl

theorem step_after {cfg : Configuration} {a : Actor yrs} {l : Label}
    (h : (Lts.exec (Actor.step cfg) a [l]).isSome = true) :
    a.step cfg l = some (after cfg a [l]) := by
  obtain ⟨b, hstep, hb⟩ := Lts.exec_cons.mp (run_after h)
  rw [Lts.exec_nil] at hb
  rw [hstep, hb]

/-- Handles join without client ids. -/
def joinsFresh : Label → Bool
  | .command (.addConnection handle _) _ => handle.clientIds.isEmpty
  | _ => true

theorem fresh_of_all {ls : List Label} (h : ls.all joinsFresh = true) :
    ∀ l ∈ ls, ∀ handle ack o, l = .command (.addConnection handle ack) o →
      handle.clientIds = [] := by
  intro l hl handle ack o heq
  have hfresh := List.all_eq_true.mp h l hl
  rw [heq] at hfresh
  exact List.isEmpty_iff.mp hfresh

end Hocuspocus.OneWriter
