import Hocuspocus.Lib.Codec
import Hocuspocus.OneWriter

/-!
# The frame format round-trips

The builders of `OutgoingMessage` and `IncomingFrame::parse` are separate
code over the same lib0 primitives. `Body` lists what the builders can put
behind an address; `Body.build` is the builder, and `Body.read` are the reads
a receiver makes for a message type. A frame has no outer length, so the two
fit only if every read takes exactly what its write put there:
`frame_round_trip` says that they do, for every builder and every payload,
and that the address inside splits into the name and session it was made of.
-/

namespace Hocuspocus

open Codec (Read)

/-- A builder with its payload. -/
inductive Body
  | sync (payload : Bytes)
  | syncReply (payload : Bytes)
  | awarenessUpdate (update : Bytes)
  | queryAwareness
  | authenticated (readOnly : Bool)
  | permissionDenied (reason : String)
  | tokenSyncRequest
  | stateless (payload : String)
  | broadcastStateless (payload : String)
  | syncStatus (updateSaved : Bool)
  | closeMessage (reason : String)
  deriving DecidableEq, Repr

namespace Body

variable (Y : Yrs)

def messageType : Body → MessageType
  | .sync _ => .sync
  | .syncReply _ => .syncReply
  | .awarenessUpdate _ => .awareness
  | .queryAwareness => .queryAwareness
  | .authenticated _ => .auth
  | .permissionDenied _ => .auth
  | .tokenSyncRequest => .auth
  | .stateless _ => .stateless
  | .broadcastStateless _ => .broadcastStateless
  | .syncStatus _ => .syncStatus
  | .closeMessage _ => .close

/-- The frame the builder makes. -/
def build (address : String) (b : Body) : Bytes :=
  let m := OutgoingMessage.new Y address
  let built :=
    match b with
    | .sync payload => (m.sync Y).writeSyncPayload payload
    | .syncReply payload => (m.syncReply Y).writeSyncPayload payload
    | .awarenessUpdate update => m.awarenessUpdate Y update
    | .queryAwareness => m.queryAwareness Y
    | .authenticated readOnly => m.authenticated Y readOnly
    | .permissionDenied reason => m.permissionDenied Y reason
    | .tokenSyncRequest => m.tokenSyncRequest Y
    | .stateless payload => m.stateless Y payload
    | .broadcastStateless payload => m.broadcastStateless Y payload
    | .syncStatus updateSaved => m.syncStatus Y updateSaved
    | .closeMessage reason => m.closeMessage Y reason
  built.intoBytes

/-- What follows the message type. -/
def payload : Body → Bytes
  | .sync payload => payload
  | .syncReply payload => payload
  | .awarenessUpdate update => Y.writeBuf update
  | .queryAwareness => []
  | .authenticated readOnly =>
    Y.writeVar AuthMessageType.authenticated.toU64 ++
      Y.writeString (if readOnly then "readonly" else "read-write")
  | .permissionDenied reason =>
    Y.writeVar AuthMessageType.permissionDenied.toU64 ++ Y.writeString reason
  | .tokenSyncRequest => Y.writeVar AuthMessageType.token.toU64
  | .stateless payload => Y.writeString payload
  | .broadcastStateless payload => Y.writeString payload
  | .syncStatus updateSaved => Y.writeVar (if updateSaved then 1 else 0)
  | .closeMessage reason => Y.writeString reason

/-- The scope string of an `Authenticated` answer. -/
def ofScope (scope : String) : Read Body :=
  if scope = "readonly" then .pure (.authenticated true)
  else if scope = "read-write" then .pure (.authenticated false)
  else .fail

/-- An `Auth` payload: the tag says what follows it. -/
def readAuth : Read Body :=
  Read.bind Y.readVar fun tag =>
    if tag = AuthMessageType.token.toU64 then .pure .tokenSyncRequest
    else if tag = AuthMessageType.permissionDenied.toU64 then
      Read.bind Y.readString fun reason => .pure (.permissionDenied reason)
    else if tag = AuthMessageType.authenticated.toU64 then Read.bind Y.readString ofScope
    else .fail

def ofSaved (saved : Nat) : Read Body :=
  if saved = 1 then .pure (.syncStatus true)
  else if saved = 0 then .pure (.syncStatus false)
  else .fail

/-- The reads of a message type. A sync message is the rest of the frame. -/
def read : MessageType → Read Body
  | .sync => fun decoder => (some (.sync decoder), [])
  | .syncReply => fun decoder => (some (.syncReply decoder), [])
  | .awareness => Read.bind Y.readBuf fun update => .pure (.awarenessUpdate update)
  | .queryAwareness => .pure .queryAwareness
  | .auth => readAuth Y
  | .stateless => Read.bind Y.readString fun payload => .pure (.stateless payload)
  | .broadcastStateless =>
    Read.bind Y.readString fun payload => .pure (.broadcastStateless payload)
  | .syncStatus => Read.bind Y.readVar ofSaved
  | .close => Read.bind Y.readString fun reason => .pure (.closeMessage reason)
  | .ping => .fail
  | .pong => .fail

variable {Y}

/-- Every builder writes the address, the message type and its payload. -/
theorem build_eq (address : String) (b : Body) :
    b.build Y address
      = ((OutgoingMessage.new Y address).writeOpcode Y b.messageType).encoder ++ b.payload Y := by
  cases b with
  | queryAwareness => exact (List.append_nil _).symm
  | authenticated readOnly => exact List.append_assoc _ _ _
  | permissionDenied reason => exact List.append_assoc _ _ _
  | _ => rfl

theorem parse_build (hY : Y.Lib0Laws) (address : String) (b : Body) :
    IncomingFrame.parse Y (b.build Y address) = some ⟨address, b.messageType, b.payload Y⟩ := by
  rw [build_eq]
  exact parse_envelope hY address b.messageType (b.payload Y)

section Reads

variable (hY : Y.Lib0Laws)

include hY

/-- A tag is read off the front of what it announces. -/
theorem read_tag (tag : AuthMessageType) (f : Nat → Read Body) (rest : Bytes) :
    Read.bind Y.readVar f (Y.writeVar tag.toU64 ++ rest) = f tag.toU64 rest :=
  Read.bind_of_eq (hY.readVar_write tag.toU64 rest (by cases tag <;> decide))

theorem read_last_string (s : String) (f : String → Read Body) :
    Read.bind Y.readString f (Y.writeString s) = f s [] := by
  have h := hY.readString_write s []
  rw [List.append_nil] at h
  exact Read.bind_of_eq h

theorem read_last_var (n : Nat) (hn : n < UInt64.size) (f : Nat → Read Body) :
    Read.bind Y.readVar f (Y.writeVar n) = f n [] := by
  have h := hY.readVar_write n [] hn
  rw [List.append_nil] at h
  exact Read.bind_of_eq h

/-- The reads of a builder's message type take its payload, and all of it. -/
theorem read_payload (b : Body) : Body.read Y b.messageType (b.payload Y) = (some b, []) := by
  cases b with
  | sync payload => rfl
  | syncReply payload => rfl
  | awarenessUpdate update =>
    have h := hY.readBuf_write update []
    rw [List.append_nil] at h
    exact Read.bind_of_eq h
  | queryAwareness => rfl
  | authenticated readOnly =>
    refine (read_tag hY .authenticated _ _).trans ?_
    refine (read_last_string hY _ _).trans ?_
    cases readOnly <;> rfl
  | permissionDenied reason =>
    refine (read_tag hY .permissionDenied _ _).trans ?_
    exact read_last_string hY reason _
  | tokenSyncRequest =>
    have h := read_tag hY .token (fun tag =>
      if tag = AuthMessageType.token.toU64 then .pure .tokenSyncRequest
      else if tag = AuthMessageType.permissionDenied.toU64 then
        Read.bind Y.readString fun reason => .pure (.permissionDenied reason)
      else if tag = AuthMessageType.authenticated.toU64 then Read.bind Y.readString ofScope
      else .fail) []
    rw [List.append_nil] at h
    exact h
  | stateless payload => exact read_last_string hY payload _
  | broadcastStateless payload => exact read_last_string hY payload _
  | syncStatus updateSaved =>
    refine (read_last_var hY _ ?_ _).trans ?_
    · cases updateSaved <;> decide
    · cases updateSaved <;> rfl
  | closeMessage reason => exact read_last_string hY reason _

/-- The bytes determine the address, the builder and the payload. -/
theorem build_injective {address address' : String} {b b' : Body}
    (h : b.build Y address = b'.build Y address') : address = address' ∧ b = b' := by
  have hparse : some (IncomingFrame.mk address b.messageType (b.payload Y))
      = some (IncomingFrame.mk address' b'.messageType (b'.payload Y)) := by
    rw [← parse_build hY address b, ← parse_build hY address' b', h]
  obtain ⟨haddress, htype, hpayload⟩ := IncomingFrame.mk.inj (Option.some.inj hparse)
  have hread := read_payload hY b
  rw [htype, hpayload, read_payload hY b'] at hread
  exact ⟨haddress, (Option.some.inj (congrArg Prod.fst hread)).symm⟩

end Reads

end Body

/-! ## Routing keys -/

/-- A name without NUL ends where its address does, or at the first NUL. -/
theorem parseRoutingKey_messageAddress {name : String} (hname : '\x00' ∉ name.toList)
    (session : Option String) : parseRoutingKey (messageAddress name session) = (name, session) := by
  have hclean : ∀ c ∈ name.toList, decide (c ≠ '\x00') = true := by
    intro c hc
    exact decide_eq_true fun heq => hname (heq ▸ hc)
  cases session with
  | none =>
    have hdrop : name.toList.dropWhile (fun c => decide (c ≠ '\x00')) = [] :=
      List.dropWhile_eq_nil_iff.mpr hclean
    unfold parseRoutingKey messageAddress
    rw [hdrop]
  | some sid =>
    have hkey : (name ++ "\x00" ++ sid).toList = name.toList ++ '\x00' :: sid.toList := by
      simp [String.toList_append]
    have hdrop : (name ++ "\x00" ++ sid).toList.dropWhile (fun c => decide (c ≠ '\x00'))
        = '\x00' :: sid.toList := by
      rw [hkey, List.dropWhile_append_of_pos hclean]
      rfl
    have htake : (name ++ "\x00" ++ sid).toList.takeWhile (fun c => decide (c ≠ '\x00'))
        = name.toList := by
      rw [hkey, List.takeWhile_append_of_pos hclean]
      exact List.append_nil _
    unfold parseRoutingKey messageAddress
    dsimp only
    rw [hdrop]
    dsimp only
    rw [htake, String.ofList_toList, String.ofList_toList]

/-- Splitting loses nothing. -/
theorem messageAddress_parseRoutingKey (key : String) :
    messageAddress (parseRoutingKey key).1 (parseRoutingKey key).2 = key := by
  have hsplit := List.takeWhile_append_dropWhile (p := fun c => decide (c ≠ '\x00'))
    (l := key.toList)
  unfold parseRoutingKey
  cases hdrop : key.toList.dropWhile (fun c => decide (c ≠ '\x00')) with
  | nil => rfl
  | cons c sid =>
    -- the character the search stopped at is the NUL
    have hc : c = '\x00' := by
      have hhead := List.head?_dropWhile_not (fun c => decide (c ≠ '\x00')) key.toList
      rw [hdrop] at hhead
      simpa using hhead
    rw [hdrop, hc] at hsplit
    refine String.toList_inj.mp ?_
    dsimp only [messageAddress]
    simp only [String.toList_append, String.toList_ofList, List.append_assoc]
    exact hsplit

/-! ## The format -/

/-- **The frame format round-trips**: every frame a builder makes for a name
and a session is parsed back to them, to the builder's type and to the
payload, with nothing left over; different frames have different bytes; and
every routing key is the address of its parts. -/
theorem frame_round_trip {Y : Yrs} (hY : Y.Lib0Laws) :
    (∀ (name : String) (session : Option String) (b : Body), '\x00' ∉ name.toList →
      ∃ frame, IncomingFrame.parse Y (b.build Y (messageAddress name session)) = some frame ∧
        parseRoutingKey frame.routingKey = (name, session) ∧
        frame.messageType = b.messageType ∧
        Body.read Y frame.messageType frame.decoder = (some b, []) ∧
        ∀ msg, (b = .sync (Y.encodeSync msg) ∨ b = .syncReply (Y.encodeSync msg)) →
          Y.decodeSync frame.decoder = some msg) ∧
    (∀ (address address' : String) (b b' : Body), b.build Y address = b'.build Y address' →
      address = address' ∧ b = b') ∧
    (∀ key, messageAddress (parseRoutingKey key).1 (parseRoutingKey key).2 = key) := by
  refine ⟨?_, fun _ _ _ _ => Body.build_injective hY, messageAddress_parseRoutingKey⟩
  intro name session b hname
  refine ⟨_, Body.parse_build hY _ b, parseRoutingKey_messageAddress hname session, rfl,
    Body.read_payload hY b, ?_⟩
  rintro msg (rfl | rfl)
  · exact hY.decodeSync_encode msg
  · exact hY.decodeSync_encode msg

/-- A denial on a session of a document. -/
theorem frame_round_trip_denied :
    ∃ frame, IncomingFrame.parse OneWriter.yrs ((Body.permissionDenied "no").build OneWriter.yrs
        (messageAddress "doc" (some "s1"))) = some frame ∧
      parseRoutingKey frame.routingKey = ("doc", some "s1") ∧
      Body.read OneWriter.yrs frame.messageType frame.decoder
        = (some (.permissionDenied "no"), []) := by
  obtain ⟨frame, hparse, hkey, _, hread, _⟩ := (frame_round_trip OneWriter.lib0Laws).1 "doc"
    (some "s1") (.permissionDenied "no") (by decide)
  exact ⟨frame, hparse, hkey, hread⟩

end Hocuspocus
