import Hocuspocus.Lib.Glob
import Hocuspocus.Lib.Utf8
import Hocuspocus.Extensions.Redis
import Hocuspocus.OneWriter

/-!
# The key namespace (`extensions/redis.rs`)

Nodes of different tenants may share a Redis; each is configured with a `prefix`, and
what it publishes goes to the channel `prefix:document`. A node subscribes to the
pattern `prefix:*` and passes what it gets to the document its frame names, not the one
the channel is for. A node hears another tenant wherever one of that tenant's channels
matches its pattern: if one of the two prefixes, with the separator, begins with the
other (`channels_apart`), or if there are special bytes in its own.
-/

namespace Hocuspocus

open Utf8

/-- What a node is configured with. -/
structure RedisConfig where
  identifier : String
  keyPrefix : String

/-- A message on a channel. -/
structure RedisMessage where
  channel : String
  payload : Bytes

namespace RedisScaling

variable {Y : Yrs}

def channel (keyPrefix documentName : String) : String := keyPrefix ++ ":" ++ documentName

/-- `format!("{prefix}:*")`. -/
def pattern (keyPrefix : String) : String := keyPrefix ++ ":*"

def publish (node : RedisConfig) (documentName : String) (frame : Bytes) : RedisMessage :=
  ⟨channel node.keyPrefix documentName, messagePrefix node.identifier ++ frame⟩

/-- The reply publisher takes the channel from the frame. -/
def publishReply (Y : Yrs) (node : RedisConfig) (frame : Bytes) : Option RedisMessage :=
  (IncomingFrame.parse Y frame).map fun parsed =>
    publish node (parseRoutingKey parsed.routingKey).1 frame

/-- `PSUBSCRIBE` delivers what its pattern matches. -/
def hears (node : RedisConfig) (channel : String) : Bool :=
  Glob.glob (encode (pattern node.keyPrefix).toList) (encode channel.toList)

/-- `spawn_subscriber`: the actor that is handed a message, and the frame. -/
def handOver (Y : Yrs) (node : RedisConfig) (documents : String → Option Nat) (m : RedisMessage) :
    Option (Nat × Bytes) :=
  if hears node m.channel then
    (subscriber Y node.identifier m.payload).bind fun routed =>
      (documents routed.1).map fun actor => (actor, routed.2)
  else none

/-- Whatever nodes with the prefix `q` publish, no actor of a node with the prefix `p`
is handed. -/
def Isolated (Y : Yrs) (p q : String) : Prop :=
  ∀ (receiver sender : RedisConfig), receiver.keyPrefix = p → sender.keyPrefix = q →
    ∀ documents : String → Option Nat,
      (∀ (documentName : String) (frame : Bytes),
        handOver Y receiver documents (publish sender documentName frame) = none) ∧
      ∀ (frame : Bytes) (m : RedisMessage), publishReply Y sender frame = some m →
        handOver Y receiver documents m = none

/-- No channel of the prefix `q` matches the pattern of the prefix `p`. -/
def Apart (p q : String) : Prop :=
  ∀ documentName : String,
    Glob.glob (encode (pattern p).toList) (encode (channel q documentName).toList) = false

/-- No special characters of a pattern. -/
def Literal (p : String) : Prop := ∀ c ∈ p.toList, c ≠ '*' ∧ c ≠ '?' ∧ c ≠ '[' ∧ c ≠ '\\'

/-! ## Channels -/

theorem channel_toList (keyPrefix documentName : String) :
    (channel keyPrefix documentName).toList = keyPrefix.toList ++ ':' :: documentName.toList := by
  simp [channel]

/-- The pattern of a literal prefix is a stem and a star. -/
theorem encode_pattern (p : String) :
    encode (pattern p).toList = encode (p.toList ++ [':']) ++ [0x2A] := by
  have hlist : (pattern p).toList = p.toList ++ [':'] ++ ['*'] := by simp [pattern]
  rw [hlist, encode_append]
  rfl

theorem ordinary_of_literal {p : String} (hp : Literal p) :
    ∀ b ∈ encode (p.toList ++ [':']), Glob.Ordinary b := by
  intro b hb
  obtain ⟨c, hc, hbyte⟩ := List.mem_flatMap.mp hb
  have hchar : c ≠ '*' ∧ c ≠ '?' ∧ c ≠ '[' ∧ c ≠ '\\' := by
    rcases List.mem_append.mp hc with hp' | hcolon
    · exact hp c hp'
    · rw [List.mem_singleton.mp hcolon]
      decide
  have hne : ∀ special : Char, special.toNat < 0x80 → c ≠ special →
      b ≠ UInt8.ofNat special.toNat := by
    intro special hascii hcs heq
    have hlow : b.toNat = special.toNat := by
      rw [heq]
      exact toNat_ofNat_lt (Nat.lt_trans hascii (by decide))
    exact hcs (Char.toNat_inj.mp (((shape c).ascii hbyte (by omega)).trans hlow))
  exact ⟨hne '*' (by decide) hchar.1, hne '?' (by decide) hchar.2.1,
    hne '[' (by decide) hchar.2.2.1, hne '\\' (by decide) hchar.2.2.2⟩

/-- **Prefixes with no special characters** are apart unless one begins with the other,
each with its separator. -/
theorem channels_apart {p : String} (hp : Literal p) (q : String) :
    Apart p q ↔ ¬ (p.toList ++ [':'] <+: q.toList ++ [':']) ∧
      ¬ (q.toList ++ [':'] <+: p.toList ++ [':']) := by
  have hmatch : ∀ documentName : String,
      Glob.glob (encode (pattern p).toList) (encode (channel q documentName).toList) = true ↔
        p.toList ++ [':'] <+: (q.toList ++ [':']) ++ documentName.toList := by
    intro documentName
    rw [encode_pattern, Glob.glob_literal (ordinary_of_literal hp), encode_prefix_encode,
      channel_toList, List.append_assoc]
    rfl
  constructor
  · intro hapart
    constructor
    · intro hstem
      have hhit := (hmatch "").mpr (hstem.trans (List.prefix_append _ _))
      rw [hapart ""] at hhit
      cases hhit
    · intro ⟨rest, hrest⟩
      -- a document whose name goes on where the other prefix does
      have hhit := (hmatch (String.ofList rest)).mpr (by
        rw [String.toList_ofList, hrest])
      rw [hapart] at hhit
      cases hhit
  · intro ⟨hleft, hright⟩ documentName
    rw [Bool.eq_false_iff]
    intro hhit
    have hstem := (hmatch documentName).mp hhit
    rcases List.prefix_or_prefix_of_prefix hstem (List.prefix_append _ _) with h | h
    · exact hleft h
    · exact hright h

/-! ## Who hears whom -/

theorem isolated_of_apart {p q : String} (h : Apart p q) : Isolated Y p q := by
  intro receiver sender hreceiver hsender documents
  have hdeaf : ∀ (documentName : String) (frame : Bytes),
      handOver Y receiver documents (publish sender documentName frame) = none := by
    intro documentName frame
    have hnot : hears receiver (publish sender documentName frame).channel = false := by
      unfold hears publish
      rw [hreceiver, hsender]
      exact h documentName
    unfold handOver
    rw [hnot]
    rfl
  refine ⟨hdeaf, fun frame m hm => ?_⟩
  obtain ⟨parsed, _, rfl⟩ := Option.map_eq_some_iff.mp hm
  exact hdeaf _ frame

/-- The question for a document's presence is for that document. -/
theorem subscriber_question (hY : Y.Lib0Laws) {sender receiver : String} (hshort : Short sender)
    (hne : sender ≠ receiver) (documentName : String) :
    subscriber Y receiver
        (messagePrefix sender ++ (Y.writeString documentName ++ Y.writeVar 3))
      = some ((parseRoutingKey documentName).1, Y.writeString documentName ++ Y.writeVar 3) := by
  have hparse := parse_envelope hY documentName .queryAwareness []
  rw [List.append_nil] at hparse
  unfold subscriber
  rw [foreignFrame_messagePrefix hshort, if_neg hne, Option.bind_some]
  show (IncomingFrame.parse Y
    ((OutgoingMessage.new Y documentName).writeOpcode Y .queryAwareness).encoder).map _ = _
  rw [hparse]
  rfl

/-- **When prefixes isolate**: exactly if no channel of the one matches the pattern of
the other, and for a prefix with no special characters if neither begins with the
other. -/
theorem isolated_iff (hY : Y.Lib0Laws) (p q : String) :
    (Isolated Y p q ↔ Apart p q) ∧
      (Literal p → (Isolated Y p q ↔ ¬ (p.toList ++ [':'] <+: q.toList ++ [':']) ∧
        ¬ (q.toList ++ [':'] <+: p.toList ++ [':']))) := by
  have hiff : Isolated Y p q ↔ Apart p q := by
    constructor
    · intro hisolated documentName
      -- the question that is asked when the document is loaded is heard
      have hnone := (hisolated ⟨"receiver", p⟩ ⟨"sender", q⟩ rfl rfl fun _ => some 0).1
        documentName (Y.writeString documentName ++ Y.writeVar 3)
      rw [Bool.eq_false_iff]
      intro hhit
      have hheard : hears ⟨"receiver", p⟩ (publish ⟨"sender", q⟩ documentName
          (Y.writeString documentName ++ Y.writeVar 3)).channel = true := hhit
      unfold handOver at hnone
      rw [if_pos hheard] at hnone
      have hshort : Short "sender" := by
        unfold Short
        decide
      have hread : subscriber Y "receiver"
          (messagePrefix "sender" ++ (Y.writeString documentName ++ Y.writeVar 3)) = _ :=
        subscriber_question hY hshort (by decide) documentName
      unfold publish at hnone
      rw [hread] at hnone
      cases hnone
    · exact isolated_of_apart
  exact ⟨hiff, fun hp => hiff.trans (channels_apart hp q)⟩

theorem isolated_iff_tenants :
    Isolated OneWriter.yrs "tenant" "tenant2" ∧ ¬ Isolated OneWriter.yrs "tenant" "tenant:eu" := by
  have hliteral : Literal "tenant" := by simp [Literal]
  have htwo := (isolated_iff OneWriter.lib0Laws "tenant" "tenant2").2 hliteral
  have heu := (isolated_iff OneWriter.lib0Laws "tenant" "tenant:eu").2 hliteral
  exact ⟨htwo.mpr ⟨by simp, by simp⟩, fun h => (heu.mp h).1 (by simp)⟩

/-- A node of `tenant` that has a document of the same name takes an edit of `tenant:eu`. -/
theorem tenants_mixed : ¬ ∀ p q : String, p ≠ q → Isolated OneWriter.yrs p q := by
  intro hall
  have hnone := (hall "tenant" "tenant:eu" (by decide) ⟨"receiver", "tenant"⟩
    ⟨"sender", "tenant:eu"⟩ rfl rfl fun name => if name = "doc" then some 0 else none).1
    "doc" (OneWriter.editFrame 0)
  have hhanded : handOver OneWriter.yrs ⟨"receiver", "tenant"⟩
      (fun name => if name = "doc" then some 0 else none)
      (publish ⟨"sender", "tenant:eu"⟩ "doc" (OneWriter.editFrame 0))
        = some (0, OneWriter.editFrame 0) := by decide +kernel
  rw [hhanded] at hnone
  cases hnone

end RedisScaling

end Hocuspocus
