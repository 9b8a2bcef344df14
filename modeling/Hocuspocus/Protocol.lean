import Hocuspocus.Yrs

/-!
# The wire protocol (`protocol.rs`)

Every frame is `varString(address) varUint(messageType) <payload>`. The
address is a routing key, `documentName` or `documentName NUL sessionId`.
`IncomingFrame.parse` reads the envelope and leaves the decoder at the
payload; `OutgoingMessage` builds frames front to back. Encoder and decoder
are separate code in the source and stay separate here; `parse_envelope` is
the one fact that joins them, and every later statement about what a client
reads goes through it.
-/

namespace Hocuspocus

/-- Top-level message opcodes. -/
inductive MessageType
  | sync
  | awareness
  | auth
  | queryAwareness
  | syncReply
  | stateless
  | broadcastStateless
  | close
  | syncStatus
  | ping
  | pong
  deriving DecidableEq, Repr

/-- The discriminant, `ty as u64`. -/
def MessageType.toU64 : MessageType → Nat
  | .sync => 0
  | .awareness => 1
  | .auth => 2
  | .queryAwareness => 3
  | .syncReply => 4
  | .stateless => 5
  | .broadcastStateless => 6
  | .close => 7
  | .syncStatus => 8
  | .ping => 9
  | .pong => 10

def MessageType.fromU64 : Nat → Option MessageType
  | 0 => some .sync
  | 1 => some .awareness
  | 2 => some .auth
  | 3 => some .queryAwareness
  | 4 => some .syncReply
  | 5 => some .stateless
  | 6 => some .broadcastStateless
  | 7 => some .close
  | 8 => some .syncStatus
  | 9 => some .ping
  | 10 => some .pong
  | _ => none

@[simp] theorem MessageType.fromU64_toU64 (t : MessageType) :
    MessageType.fromU64 t.toU64 = some t := by
  cases t <;> rfl

theorem MessageType.toU64_lt (t : MessageType) : t.toU64 < UInt64.size := by
  cases t <;> decide

/-- Authentication sub-message tags. -/
inductive AuthMessageType
  | token
  | permissionDenied
  | authenticated
  deriving DecidableEq, Repr

def AuthMessageType.toU64 : AuthMessageType → Nat
  | .token => 0
  | .permissionDenied => 1
  | .authenticated => 2

/-- A decoded inbound frame; `decoder` is what follows the message type. -/
structure IncomingFrame where
  routingKey : String
  messageType : MessageType
  decoder : Bytes

/-- Parse the envelope of a frame. -/
def IncomingFrame.parse (Y : Yrs) (data : Bytes) : Option IncomingFrame :=
  match Y.readString data with
  | (none, _) => none
  | (some routingKey, rest) =>
    match Y.readVar rest with
    | (none, _) => none
    | (some rawType, decoder) =>
      match MessageType.fromU64 rawType with
      | none => none
      | some messageType => some { routingKey, messageType, decoder }

/-- Split a routing key at its first NUL. -/
def parseRoutingKey (key : String) : String × Option String :=
  match key.toList.dropWhile (· ≠ '\x00') with
  | [] => (key, none)
  | _ :: sid => (String.ofList (key.toList.takeWhile (· ≠ '\x00')), some (String.ofList sid))

/-- Build a routing key from a document name and optional session id. -/
def messageAddress (documentName : String) (sessionId : Option String) : String :=
  match sessionId with
  | some sid => documentName ++ "\x00" ++ sid
  | none => documentName

/-- Builder for outbound frames: what has been encoded so far. -/
structure OutgoingMessage where
  encoder : Bytes

namespace OutgoingMessage

variable (Y : Yrs)

def new (address : String) : OutgoingMessage := ⟨Y.writeString address⟩

def writeOpcode (m : OutgoingMessage) (ty : MessageType) : OutgoingMessage :=
  ⟨m.encoder ++ Y.writeVar ty.toU64⟩

def sync (m : OutgoingMessage) : OutgoingMessage := m.writeOpcode Y .sync

def syncReply (m : OutgoingMessage) : OutgoingMessage := m.writeOpcode Y .syncReply

def writeSyncPayload (m : OutgoingMessage) (payload : Bytes) : OutgoingMessage :=
  ⟨m.encoder ++ payload⟩

def awarenessUpdate (m : OutgoingMessage) (update : Bytes) : OutgoingMessage :=
  ⟨(m.writeOpcode Y .awareness).encoder ++ Y.writeBuf update⟩

def queryAwareness (m : OutgoingMessage) : OutgoingMessage := m.writeOpcode Y .queryAwareness

def authenticated (m : OutgoingMessage) (readOnly : Bool) : OutgoingMessage :=
  ⟨(m.writeOpcode Y .auth).encoder ++ Y.writeVar AuthMessageType.authenticated.toU64 ++
    Y.writeString (if readOnly then "readonly" else "read-write")⟩

def permissionDenied (m : OutgoingMessage) (reason : String) : OutgoingMessage :=
  ⟨(m.writeOpcode Y .auth).encoder ++ Y.writeVar AuthMessageType.permissionDenied.toU64 ++
    Y.writeString reason⟩

def tokenSyncRequest (m : OutgoingMessage) : OutgoingMessage :=
  ⟨(m.writeOpcode Y .auth).encoder ++ Y.writeVar AuthMessageType.token.toU64⟩

def stateless (m : OutgoingMessage) (payload : String) : OutgoingMessage :=
  ⟨(m.writeOpcode Y .stateless).encoder ++ Y.writeString payload⟩

def broadcastStateless (m : OutgoingMessage) (payload : String) : OutgoingMessage :=
  ⟨(m.writeOpcode Y .broadcastStateless).encoder ++ Y.writeString payload⟩

def syncStatus (m : OutgoingMessage) (updateSaved : Bool) : OutgoingMessage :=
  ⟨(m.writeOpcode Y .syncStatus).encoder ++ Y.writeVar (if updateSaved then 1 else 0)⟩

def closeMessage (m : OutgoingMessage) (reason : String) : OutgoingMessage :=
  ⟨(m.writeOpcode Y .close).encoder ++ Y.writeString reason⟩

def intoBytes (m : OutgoingMessage) : Bytes := m.encoder

end OutgoingMessage

/-- Whatever a builder appends, `parse` gives back the address and the opcode
and leaves the decoder at the appended bytes. -/
theorem parse_envelope {Y : Yrs} (hY : Y.Lib0Laws) (address : String) (ty : MessageType)
    (payload : Bytes) :
    IncomingFrame.parse Y (((OutgoingMessage.new Y address).writeOpcode Y ty).encoder ++ payload)
      = some ⟨address, ty, payload⟩ := by
  have hstr : Y.readString
      (((OutgoingMessage.new Y address).writeOpcode Y ty).encoder ++ payload)
      = (some address, Y.writeVar ty.toU64 ++ payload) := by
    rw [OutgoingMessage.writeOpcode, OutgoingMessage.new, List.append_assoc]
    exact hY.readString_write address _
  rw [IncomingFrame.parse, hstr]
  simp only [hY.readVar_write ty.toU64 payload ty.toU64_lt, MessageType.fromU64_toU64]

/-- A sync frame carries its message intact. -/
theorem parse_sync_frame {Y : Yrs} (hY : Y.Lib0Laws) (address : String)
    (msg : SyncMessage Y.StateVector) :
    IncomingFrame.parse Y
        (((OutgoingMessage.new Y address).sync Y).writeSyncPayload (Y.encodeSync msg)).intoBytes
      = some ⟨address, .sync, Y.encodeSync msg⟩ :=
  parse_envelope hY address .sync (Y.encodeSync msg)

end Hocuspocus
