import Hocuspocus.Lib.Run

/-!
# The connection cap (`ws_handler`, `handle_socket`, `ConnectionGuard`, `server.rs`)

A request is checked against the counter in `ws_handler`; the counter is raised
in `handle_socket`, which a task of its own enters once the upgrade is through,
and lowered when the guard of that task is dropped. Between the two a request
has passed the check and is not counted yet, so several can pass with one place
left.

The counter itself is exact in every run (`counted_step`): it is the number of
sockets in `handle_socket`. The cap holds along the runs in which whoever passes
the check finds a place among all that have passed it (`Roomy`).
-/

namespace Hocuspocus.Capacity

/-- How far a request has come: in `ws_handler` before the check and behind it,
waiting for its upgrade, in `handle_socket` with the guard, answered without a
socket, or over. -/
inductive Visit
  | arrived
  | admitted
  | upgrading
  | inside
  | answered (status : Nat) (body : String)
  | over
  deriving DecidableEq, Repr

def Visit.isInside : Visit → Bool
  | .inside => true
  | _ => false

/-- It has passed the check. -/
def Visit.passed : Visit → Bool
  | .admitted | .upgrading | .inside => true
  | .arrived | .answered _ _ | .over => false

/-- The requests there have been, and `ServerShared::active_connections`. -/
structure Gate where
  visits : List Visit
  activeConnections : UInt64

inductive Label
  /-- A request arrives at `ws_handler`. -/
  | request
  /-- It reads the counter. -/
  | check (k : Nat)
  /-- `WebSocketUpgrade::from_request_parts` has succeeded or failed. -/
  | extract (k : Nat) (ok : Bool)
  /-- The upgrade is through, and `handle_socket` runs. -/
  | upgraded (k : Nat)
  /-- The request goes away before that. -/
  | abandon (k : Nat)
  /-- The task of the socket ends, in whatever way. -/
  | leave (k : Nat)
  deriving DecidableEq, Repr

/-- The guard of `ws_handler`. -/
def atCapacity (maxConnections activeConnections : UInt64) : Bool :=
  maxConnections > 0 && activeConnections ≥ maxConnections

/-- The answer of a server that is full, and to a request that asks for no
upgrade. -/
def Visit.unavailable : Visit := .answered 503 "server at capacity"

def Visit.welcome : Visit := .answered 200 "Welcome to Hocuspocus (Rust)!"

namespace Gate

/-- `ServerBuilder::build`. -/
def start : Gate := ⟨[], 0⟩

def enter (s : Gate) (k : Nat) (visit : Visit) : Gate := { s with visits := s.visits.set k visit }

/-- `fetch_add` and `fetch_sub` wrap. -/
def step (maxConnections : UInt64) (s : Gate) : Label → Option Gate
  | .request => some { s with visits := s.visits ++ [.arrived] }
  | .check k =>
    match s.visits[k]? with
    | some .arrived =>
      some (s.enter k
        (if atCapacity maxConnections s.activeConnections then .unavailable else .admitted))
    | _ => none
  | .extract k ok =>
    match s.visits[k]? with
    | some .admitted => some (s.enter k (if ok then .upgrading else .welcome))
    | _ => none
  | .upgraded k =>
    match s.visits[k]? with
    | some .upgrading =>
      some ({ s with activeConnections := s.activeConnections + 1 }.enter k .inside)
    | _ => none
  | .abandon k =>
    match s.visits[k]? with
    | some .arrived | some .admitted | some .upgrading => some (s.enter k .over)
    | _ => none
  | .leave k =>
    match s.visits[k]? with
    | some .inside =>
      some ({ s with activeConnections := s.activeConnections - 1 }.enter k .over)
    | _ => none

/-- The sockets that are in `handle_socket`. -/
def inside (s : Gate) : Nat := s.visits.countP Visit.isInside

/-- The requests that have passed the check and are not over. -/
def passed (s : Gate) : Nat := s.visits.countP Visit.passed

/-- Whoever passes the check is not one too many of those who have. -/
def Roomy (maxConnections : UInt64) (s : Gate) : Label → Gate → Prop
  | .check k, _ => s.visits[k]? = some .arrived →
      atCapacity maxConnections s.activeConnections = false → s.passed < maxConnections.toNat
  | _, _ => True

/-! ## What a step does -/

/-- A request arrives, or one of them enters its next stage; the counter follows
those that come into `handle_socket` and leave it. -/
inductive Step (maxConnections : UInt64) (s : Gate) : Label → Gate → Prop
  | request : Step maxConnections s .request { s with visits := s.visits ++ [.arrived] }
  | quiet (k : Nat) (old new : Visit) (l : Label) (hold : s.visits[k]? = some old)
      (hinside : old.isInside = false ∧ new.isInside = false)
      (hpassed : new.passed = true → old.passed = true ∨ (l = .check k ∧ old = .arrived ∧
        atCapacity maxConnections s.activeConnections = false)) :
      Step maxConnections s l (s.enter k new)
  | upgraded (k : Nat) (hold : s.visits[k]? = some .upgrading) : Step maxConnections s (.upgraded k)
      ({ s with activeConnections := s.activeConnections + 1 }.enter k .inside)
  | leave (k : Nat) (hold : s.visits[k]? = some .inside) : Step maxConnections s (.leave k)
      ({ s with activeConnections := s.activeConnections - 1 }.enter k .over)

variable {maxConnections : UInt64} {s t : Gate} {l : Label}

theorem step_cases (h : s.step maxConnections l = some t) : Step maxConnections s l t := by
  cases l with
  | request =>
    cases h
    exact .request
  | check k =>
    unfold step at h
    dsimp only at h
    split at h
    next hold =>
      cases h
      -- the only stage at which the counter is read
      cases hcap : atCapacity maxConnections s.activeConnections with
      | true => exact .quiet k .arrived .unavailable _ hold ⟨rfl, rfl⟩ (fun h => by cases h)
      | false =>
        exact .quiet k .arrived .admitted _ hold ⟨rfl, rfl⟩ (fun _ => Or.inr ⟨rfl, rfl, hcap⟩)
    next => cases h
  | extract k ok =>
    unfold step at h
    dsimp only at h
    split at h
    next hold =>
      cases h
      cases ok with
      | true => exact .quiet k .admitted .upgrading _ hold ⟨rfl, rfl⟩ (fun _ => Or.inl rfl)
      | false => exact .quiet k .admitted .welcome _ hold ⟨rfl, rfl⟩ (fun _ => Or.inl rfl)
    next => cases h
  | upgraded k =>
    unfold step at h
    dsimp only at h
    split at h
    next hold =>
      cases h
      exact .upgraded k hold
    next => cases h
  | abandon k =>
    unfold step at h
    dsimp only at h
    split at h
    next hold =>
      cases h
      exact .quiet k .arrived .over _ hold ⟨rfl, rfl⟩ (fun h => by cases h)
    next hold =>
      cases h
      exact .quiet k .admitted .over _ hold ⟨rfl, rfl⟩ (fun _ => Or.inl rfl)
    next hold =>
      cases h
      exact .quiet k .upgrading .over _ hold ⟨rfl, rfl⟩ (fun _ => Or.inl rfl)
    next => cases h
  | leave k =>
    unfold step at h
    dsimp only at h
    split at h
    next hold =>
      cases h
      exact .leave k hold
    next => cases h

/-- One request changes its stage: the others are counted as before. -/
theorem countP_enter (p : Visit → Bool) {k : Nat} {old : Visit} (hold : s.visits[k]? = some old)
    (new : Visit) :
    (s.enter k new).visits.countP p + (if p old = true then 1 else 0)
      = s.visits.countP p + if p new = true then 1 else 0 := by
  obtain ⟨hlt, hget⟩ := List.getElem?_eq_some_iff.mp hold
  have hset : (s.enter k new).visits.countP p
      = s.visits.countP p - (if p old = true then 1 else 0) + if p new = true then 1 else 0 := by
    show (s.visits.set k new).countP p = _
    rw [List.countP_set hlt, hget]
  have hpos : p old = true → 0 < s.visits.countP p := by
    intro hp
    exact List.countP_pos_iff.mpr ⟨old, hget ▸ List.getElem_mem hlt, hp⟩
  rw [hset]
  split
  next hp =>
    have := hpos hp
    omega
  next => omega

/-- Whoever is inside has passed the check. -/
theorem inside_le_passed (s : Gate) : s.inside ≤ s.passed :=
  List.countP_mono_left fun visit _ h => by cases visit <;> first | rfl | cases h

/-! ## The counter -/

/-- The counter is the number of sockets inside. -/
def Counted (s : Gate) : Prop := s.activeConnections = UInt64.ofNat s.inside

theorem counted_step (h : s.step maxConnections l = some t) (hs : s.Counted) : t.Counted := by
  cases step_cases h with
  | request =>
    show s.activeConnections = UInt64.ofNat ((s.visits ++ [Visit.arrived]).countP Visit.isInside)
    rw [List.countP_append]
    exact hs
  | quiet k old new _ hold hinside =>
    have hcount := countP_enter Visit.isInside hold new
    rw [hinside.1, hinside.2] at hcount
    show s.activeConnections = UInt64.ofNat ((s.enter k new).visits.countP Visit.isInside)
    rw [Nat.add_right_cancel hcount]
    exact hs
  | upgraded k hold =>
    have hcount := countP_enter Visit.isInside hold .inside
    show s.activeConnections + 1 = UInt64.ofNat ((s.enter k .inside).visits.countP Visit.isInside)
    have hone : (s.enter k .inside).visits.countP Visit.isInside = s.inside + 1 := hcount
    rw [hone, UInt64.ofNat_add, hs]
    rfl
  | leave k hold =>
    have hcount := countP_enter Visit.isInside hold .over
    show s.activeConnections - 1 = UInt64.ofNat ((s.enter k .over).visits.countP Visit.isInside)
    have hone : (s.enter k .over).visits.countP Visit.isInside + 1 = s.inside := hcount
    have hsum : s.activeConnections
        = UInt64.ofNat ((s.enter k .over).visits.countP Visit.isInside) + 1 := by
      rw [hs, ← hone, UInt64.ofNat_add]
      rfl
    rw [hsum]
    exact UInt64.add_sub_cancel _ _

/-! ## The cap -/

/-- No more have passed the check than there are places. -/
theorem passed_step (hroom : s.Roomy maxConnections l t) (h : s.step maxConnections l = some t)
    (hs : s.passed ≤ maxConnections.toNat) : t.passed ≤ maxConnections.toNat := by
  cases step_cases h with
  | request =>
    show (s.visits ++ [Visit.arrived]).countP Visit.passed ≤ _
    rw [List.countP_append]
    exact hs
  | quiet k old new _ hold _ hpassed =>
    have hcount := countP_enter Visit.passed hold new
    have hbound : (s.enter k new).visits.countP Visit.passed ≤ maxConnections.toNat := by
      by_cases hnew : new.passed = true
      · rcases hpassed hnew with hold' | ⟨hl, harrived, hcap⟩
        · rw [if_pos hnew, if_pos hold'] at hcount
          have : s.visits.countP Visit.passed ≤ maxConnections.toNat := hs
          omega
        · -- it has just passed the check, and found a place
          subst hl
          have hplace : s.visits.countP Visit.passed < maxConnections.toNat :=
            hroom (harrived ▸ hold) hcap
          rw [if_pos hnew] at hcount
          omega
      · rw [if_neg hnew] at hcount
        have : s.visits.countP Visit.passed ≤ maxConnections.toNat := hs
        omega
    exact hbound
  | upgraded k hold =>
    have hcount := countP_enter Visit.passed hold .inside
    exact le_of_eq_of_le (Nat.add_right_cancel hcount) hs
  | leave k hold =>
    have hcount := countP_enter Visit.passed hold .over
    have hone : (s.enter k .over).visits.countP Visit.passed + 1 = s.passed := hcount
    show (s.enter k .over).visits.countP Visit.passed ≤ _
    omega

/-- **The cap**: along the runs in which nobody passes the check who would be one
too many, no more sockets are open than `max_connections`, the counter is their
number, and once all have ended it is zero. -/
theorem connections_capped {maxConnections : UInt64} {ls : List Label} {s : Gate}
    (hroom : Lts.Along (step maxConnections) (Roomy maxConnections) start ls)
    (hrun : Lts.exec (step maxConnections) start ls = some s) :
    s.inside ≤ maxConnections.toNat ∧ s.activeConnections.toNat = s.inside ∧
      ((∀ visit ∈ s.visits, visit ≠ .inside) → s.activeConnections = 0) := by
  have hcounted : s.Counted :=
    Lts.exec_invariant (fun _ _ _ hstep => counted_step hstep) hrun rfl
  have hstart : start.passed ≤ maxConnections.toNat := Nat.zero_le _
  have hpassed : s.passed ≤ maxConnections.toNat :=
    Lts.exec_invariant_along (C := Roomy maxConnections)
      (I := fun u => u.passed ≤ maxConnections.toNat) (fun _ _ _ hstep hc => passed_step hc hstep)
      hroom hrun hstart
  have hinside : s.inside ≤ maxConnections.toNat :=
    Nat.le_trans s.inside_le_passed hpassed
  refine ⟨hinside, ?_, fun hempty => ?_⟩
  · have hlt : s.inside < UInt64.size := Nat.lt_of_le_of_lt hinside maxConnections.toNat_lt_size
    rw [hcounted, UInt64.toNat_ofNat_of_lt' hlt]
  · have hzero : s.inside = 0 := List.countP_eq_zero.mpr fun visit hvisit hinside => by
      have hne := hempty visit hvisit
      cases visit <;> first | exact hne rfl | cases hinside
    rw [hcounted, hzero]
    rfl

/-- A test for `Roomy`. -/
def roomy (maxConnections : UInt64) (s : Gate) : Label → Bool
  | .check _ => decide (s.passed < maxConnections.toNat)
  | _ => true

theorem roomy_sound (h : s.roomy maxConnections l = true) : s.Roomy maxConnections l t := by
  cases l with
  | check k => exact fun _ _ => of_decide_eq_true h
  | _ => trivial

/-- A request on its way into `handle_socket`. -/
def opens (k : Nat) : List Label := [.request, .check k, .extract k true, .upgraded k]

/-- One place, taken twice in turn. -/
theorem connections_capped_in_turn :
    let s := Lts.reach (step 1) start (opens 0 ++ .leave 0 :: opens 1)
    s.inside ≤ 1 ∧ s.activeConnections.toNat = s.inside ∧
      ((∀ visit ∈ s.visits, visit ≠ .inside) → s.activeConnections = 0) :=
  connections_capped (Lts.along_of_check (fun _ _ _ => roomy_sound) (by decide +kernel))
    (Lts.exec_reach (by decide +kernel))

/-- Two requests are checked before either is counted. -/
theorem connections_not_capped :
    ¬ ∀ (maxConnections : UInt64) (ls : List Label) (s : Gate), 0 < maxConnections →
      Lts.exec (step maxConnections) start ls = some s →
      s.inside ≤ maxConnections.toNat ∧ s.activeConnections.toNat = s.inside := by
  intro hall
  have hcapped := hall 1 [.request, .request, .check 0, .check 1, .extract 0 true, .extract 1 true,
    .upgraded 0, .upgraded 1] _ (by decide) (Lts.exec_reach (by decide +kernel))
  revert hcapped
  decide +kernel

end Gate

end Hocuspocus.Capacity
