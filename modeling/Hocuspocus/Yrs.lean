/-!
# The `yrs` interface

The server keeps every document, state vector and presence table inside the
`yrs` crate and talks to it through a few calls. That crate is not part of
the repository, so it enters the development as a parameter: `Yrs` lists the
types the server holds and the calls it makes, with nothing assumed about
them. What a theorem relies on is a separate structure of laws next to it
(`Yrs.Lib0Laws` here; the laws about documents stand with the results that
use them).

Reads consume a cursor, so a decoder is the list of bytes still unread and a
read returns its value (`none` on a read error) together with what is left.
-/

namespace Hocuspocus

abbrev Bytes := List UInt8

/-- `yrs::sync::SyncMessage`. -/
inductive SyncMessage (StateVector : Type)
  | syncStep1 (sv : StateVector)
  | syncStep2 (update : Bytes)
  | update (update : Bytes)

/-- The types and calls of `yrs` the server uses. -/
structure Yrs where
  Doc : Type
  StateVector : Type
  Update : Type
  Awareness : Type
  AwarenessUpdate : Type
  /-- `Read::read_string`, `read_var::<u64>`, `read_buf`. -/
  readString : Bytes → Option String × Bytes
  readVar : Bytes → Option Nat × Bytes
  readBuf : Bytes → Option Bytes × Bytes
  /-- `Write::write_string`, `write_var`, `write_buf`. -/
  writeString : String → Bytes
  writeVar : Nat → Bytes
  writeBuf : Bytes → Bytes
  /-- `SyncMessage::decode` and `encode`. -/
  decodeSync : Bytes → Option (SyncMessage StateVector)
  encodeSync : SyncMessage StateVector → Bytes
  /-- `Doc::with_options`. -/
  newDoc : Doc
  /-- `Update::decode_v1`. -/
  decodeUpdate : Bytes → Option Update
  /-- `TransactionMut::apply_update`: the document afterwards, and whether
  the call returned `Ok`. -/
  applyUpdate : Doc → Update → Doc × Bool
  /-- `TransactionMut::encode_update_v1` at the end of the transaction that
  applied the update to the document. -/
  encodeTxn : Doc → Update → Bytes
  /-- `ReadTxn::state_vector`, `encode_diff_v1`, and
  `encode_state_as_update_v1` for the empty state vector. -/
  stateVector : Doc → StateVector
  encodeDiff : Doc → StateVector → Bytes
  encodeState : Doc → Bytes
  /-- `Awareness::new`, `iter().next().is_some()`, `update`,
  `update_with_clients`, `remove_state`. -/
  newAwareness : Awareness
  hasStates : Awareness → Bool
  awarenessUpdate : Awareness → Option AwarenessUpdate
  updateWithClients : Awareness → List Nat → Option AwarenessUpdate
  removeState : Awareness → Nat → Awareness
  /-- `Awareness::apply_update_with`: the table afterwards, and whether the
  call returned `Ok`. -/
  applyAwareness : Awareness → AwarenessUpdate → Awareness × Bool
  /-- `AwarenessUpdate::decode_v1`, `encode_v1`, and the keys of `clients`. -/
  decodeAwareness : Bytes → Option AwarenessUpdate
  encodeAwareness : AwarenessUpdate → Bytes
  clients : AwarenessUpdate → List Nat

/-- lib0 coding is self-delimiting: what was written is read back, and the
cursor stands right behind it. A varuint is a `u64`. -/
structure Yrs.Lib0Laws (Y : Yrs) : Prop where
  readString_write : ∀ s rest, Y.readString (Y.writeString s ++ rest) = (some s, rest)
  readVar_write : ∀ n rest, n < UInt64.size → Y.readVar (Y.writeVar n ++ rest) = (some n, rest)
  readBuf_write : ∀ b rest, Y.readBuf (Y.writeBuf b ++ rest) = (some b, rest)
  decodeSync_encode : ∀ m, Y.decodeSync (Y.encodeSync m) = some m

end Hocuspocus
