import Hocuspocus.Document.State

/-!
# The Redis extension (`extensions/redis.rs`)

What the extension publishes: `on_change` and `on_awareness_update` forward
what did not itself come from Redis, under the document's name;
`after_load_document` asks the peers for what they have; the reply publisher
sends on the answers the actor gives to such questions. Every message goes out
behind the node's identifier, and `subscriber` is what `spawn_subscriber` makes of
one that comes in: a node's own messages and what is no frame are dropped, the
rest is for the document its address names.

`before_broadcast_stateless` is called by nothing in the repository.
-/

namespace Hocuspocus

namespace RedisScaling

variable {Y : Yrs}

/-- `identifier.as_bytes()`. -/
def identifierBytes (identifier : String) : Bytes := identifier.toUTF8.data.toList

/-- The length is cast to a byte. -/
def messagePrefix (identifier : String) : Bytes :=
  UInt8.ofNat (identifierBytes identifier).length :: identifierBytes identifier

/-- `encode_sync_frame`. -/
def encodeSyncFrame (Y : Yrs) (documentName : String) (msg : SyncMessage Y.StateVector) : Bytes :=
  Y.writeString documentName ++ Y.writeVar 0 ++ Y.encodeSync msg

/-- `RedisScaling::after_load_document`: ask for the state, and for presence. -/
def afterLoadDocument (Y : Yrs) (documentName : String) (doc : Y.Doc) : List Bytes :=
  [encodeSyncFrame Y documentName (.syncStep1 (Y.stateVector doc)),
    Y.writeString documentName ++ Y.writeVar 3]

/-- `RedisScaling::on_change`: the frame it publishes. -/
def onChange (Y : Yrs) (documentName : String) (update : Bytes) (origin : Origin) : Option Bytes :=
  if origin.isRedis then none -- already replicated by the originating node
  else some (encodeSyncFrame Y documentName (.update update))

/-- `RedisScaling::on_awareness_update`. -/
def onAwarenessUpdate (Y : Yrs) (documentName : String) (update : Bytes) (origin : Origin) :
    Option Bytes :=
  if origin.isRedis then none
  else some (Y.writeString documentName ++ Y.writeVar 1 ++ Y.writeBuf update)

/-- The document updates published in the course of the events. -/
def published (documentName : String) (h : List (Event Y)) : List Bytes :=
  h.filterMap fun
    | .onChange update origin _ => onChange Y documentName update origin
    | _ => none

/-- The reply publisher passes on what it can parse. -/
def replyFrame (Y : Yrs) (frame : Bytes) : Option Bytes :=
  if (IncomingFrame.parse Y frame).isSome then some frame else none

/-- The frame an event of the actor publishes. -/
def publication (Y : Yrs) (documentName : String) : Event Y → Option Bytes
  | .onChange update origin _ => onChange Y documentName update origin
  | .onAwarenessUpdate update _ origin => onAwarenessUpdate Y documentName update origin
  | .reply frame => replyFrame Y frame
  | _ => none

/-- The frame in a message from another node. -/
def foreignFrame (identifier : String) (payload : Bytes) : Option Bytes :=
  match payload with
  | [] => none
  | idLen :: rest =>
    if rest.length < idLen.toNat then none
    else if rest.take idLen.toNat = identifierBytes identifier then none -- our own message
    else some (rest.drop idLen.toNat)

/-- The subscriber loop: a frame, and the document it is for. -/
def subscriber (Y : Yrs) (identifier : String) (payload : Bytes) : Option (String × Bytes) :=
  (foreignFrame identifier payload).bind fun frame =>
    (IncomingFrame.parse Y frame).map fun parsed => ((parseRoutingKey parsed.routingKey).1, frame)

theorem identifierBytes_injective {a b : String} (h : identifierBytes a = identifierBytes b) :
    a = b :=
  String.toByteArray_inj.mp (ByteArray.ext (Array.toList_inj.mp h))

/-- A short identifier: its length fits the byte before it. -/
def Short (identifier : String) : Prop := (identifierBytes identifier).length ≤ 255

/-- With short identifiers a message is taken apart as it was put together. -/
theorem foreignFrame_messagePrefix {sender : String} (h : Short sender) (receiver : String)
    (frame : Bytes) :
    foreignFrame receiver (messagePrefix sender ++ frame)
      = if sender = receiver then none else some frame := by
  have hlen : (UInt8.ofNat (identifierBytes sender).length).toNat
      = (identifierBytes sender).length := by
    rw [UInt8.toNat_ofNat']
    exact Nat.mod_eq_of_lt (by unfold Short at h; omega)
  have hpayload : messagePrefix sender ++ frame = UInt8.ofNat (identifierBytes sender).length ::
      (identifierBytes sender ++ frame) := rfl
  rw [hpayload, foreignFrame]
  rw [hlen, if_neg (by rw [List.length_append]; omega), List.take_left, List.drop_left]
  by_cases heq : sender = receiver
  · rw [if_pos heq, if_pos (congrArg identifierBytes heq)]
  · rw [if_neg heq, if_neg fun hbytes => heq (identifierBytes_injective hbytes)]

/-! ## The envelope -/

/-- `payload[1..1 + id_len] == prefix_bytes[1..]`: the subscriber takes the
message for one of its node's own. -/
def OwnEcho (identifier : String) (payload : Bytes) : Prop :=
  ∃ idLen rest, payload = idLen :: rest ∧ idLen.toNat ≤ rest.length ∧
    rest.take idLen.toNat = identifierBytes identifier

/-- What the envelope is for: a node drops what it has published itself and
nothing else, and of the rest it gets the frame that was published. -/
structure Identified (sender receiver : String) (frame : Bytes) : Prop where
  echo : OwnEcho receiver (messagePrefix sender ++ frame) ↔ sender = receiver
  frame : sender ≠ receiver → foreignFrame receiver (messagePrefix sender ++ frame) = some frame

theorem OwnEcho.dropped {identifier : String} {payload : Bytes} (h : OwnEcho identifier payload) :
    foreignFrame identifier payload = none := by
  obtain ⟨idLen, rest, rfl, hlen, htake⟩ := h
  rw [foreignFrame, if_neg (Nat.not_lt.mpr hlen), if_pos htake]

/-- The byte before the identifier is its length modulo 256. -/
theorem toNat_lengthByte (identifier : String) :
    (UInt8.ofNat (identifierBytes identifier).length).toNat
      = (identifierBytes identifier).length % 256 := UInt8.toNat_ofNat'

/-- The subscriber slices by that byte, so it never finds the message too short. -/
theorem ownEcho_messagePrefix (sender receiver : String) (frame : Bytes) :
    OwnEcho receiver (messagePrefix sender ++ frame) ↔
      (identifierBytes sender).take ((identifierBytes sender).length % 256)
        = identifierBytes receiver := by
  have hle := Nat.mod_le (identifierBytes sender).length 256
  have htake : (identifierBytes sender ++ frame).take ((identifierBytes sender).length % 256)
      = (identifierBytes sender).take ((identifierBytes sender).length % 256) :=
    List.take_append_of_le_length hle
  constructor
  · intro h
    obtain ⟨idLen, rest, heq, _, hown⟩ := h
    injection heq with hhead htail
    rw [← hhead, ← htail, toNat_lengthByte] at hown
    exact htake.symm.trans hown
  · intro h
    refine ⟨_, _, rfl, ?_, ?_⟩
    · show _ ≤ (identifierBytes sender ++ frame).length
      rw [toNat_lengthByte, List.length_append]
      omega
    · show (identifierBytes sender ++ frame).take _ = _
      rw [toNat_lengthByte]
      exact htake.trans h

/-- What is taken for another node's message loses as many bytes as the byte
says. -/
theorem foreignFrame_length {sender receiver : String} {frame found : Bytes}
    (h : foreignFrame receiver (messagePrefix sender ++ frame) = some found) :
    found.length = (identifierBytes sender).length - (identifierBytes sender).length % 256
      + frame.length := by
  have hle := Nat.mod_le (identifierBytes sender).length 256
  have hpayload : messagePrefix sender ++ frame = UInt8.ofNat (identifierBytes sender).length ::
      (identifierBytes sender ++ frame) := rfl
  rw [hpayload, foreignFrame] at h
  split at h
  next => cases h
  next =>
    split at h
    next => cases h
    next =>
      rw [← Option.some.inj h, toNat_lengthByte, List.length_drop, List.length_append]
      omega

/-- **The envelope** identifies its sender and its frame exactly if the
identifier's length fits the byte before it. -/
theorem envelope_identifies (sender receiver : String) (frame : Bytes) :
    Identified sender receiver frame ↔ Short sender := by
  constructor
  · intro h
    refine Nat.le_of_not_lt fun hlong => ?_
    have hmod := Nat.mod_lt (identifierBytes sender).length (y := 256) (by omega)
    by_cases heq : sender = receiver
    · -- the node's own message: the slice is shorter than the identifier
      have hown := (ownEcho_messagePrefix sender receiver frame).mp (h.echo.mpr heq)
      have hlength := congrArg List.length hown
      rw [List.length_take, heq] at hlength
      rw [heq] at hlong hmod
      omega
    · -- another node's: the rest of the identifier is left before the frame
      have hlength := foreignFrame_length (h.frame heq)
      omega
  · intro h
    have hfound := foreignFrame_messagePrefix h receiver frame
    refine ⟨⟨fun hown => ?_, fun heq => ?_⟩, fun hne => by rw [hfound, if_neg hne]⟩
    · by_cases heq : sender = receiver
      · exact heq
      · rw [hown.dropped, if_neg heq] at hfound
        cases hfound
    · refine (ownEcho_messagePrefix sender receiver frame).mpr ?_
      have hlen : (identifierBytes sender).length % 256 = (identifierBytes sender).length :=
        Nat.mod_eq_of_lt (Nat.lt_succ_of_le h)
      rw [hlen, List.take_length, heq]

/-- 256 letters; their length byte is 0. -/
def longIdentifier : String := String.ofList (List.replicate 256 'a')

/-- A node with that identifier hears itself. -/
theorem envelope_misses_echo :
    ¬ ∀ (sender receiver : String) (frame : Bytes), Identified sender receiver frame := by
  intro hall
  have hecho := (hall longIdentifier longIdentifier []).echo.mpr rfl
  have hdropped := hecho.dropped
  revert hdropped
  decide +kernel

end RedisScaling

end Hocuspocus
