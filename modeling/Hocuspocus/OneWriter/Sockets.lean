import Hocuspocus.OneWriter
import Hocuspocus.Server.State

/-!
# A server with documents of one writer

The frames a provider sends before it is connected, and the labels of runs on
the instance.
-/

namespace Hocuspocus.OneWriter

open Codec

/-- The `Auth` frame of a provider, with its token and its version. -/
def authFrame (key : String) : Bytes :=
  ((OutgoingMessage.new yrs key).writeOpcode yrs .auth).encoder ++
    (writeVar AuthMessageType.token.toU64 ++ (writeString "secret" ++ writeString "3.0.0"))

/-- Steps of `register_connection`; a load finds the empty document. -/
def registers (i n : Nat) : List (Server.Label yrs) :=
  List.replicate n (.register i yrs.newDoc (queues 16))

/-- A socket authenticates for the routing key. -/
def authenticates (i : Nat) (key : String) : List (Server.Label yrs) :=
  [.receive i (authFrame key) 0, .connected i [.ok ()], .authenticated i [.ok ()] false]

/-- An actor receives one command and handles it. -/
def handles (j : Nat) : List (Server.Label yrs) := [.recv j, .command j {}, .actor j (.flush [])]

/-- A socket is registered with a document that was not resident. -/
def enters (i j : Nat) (key : String) : List (Server.Label yrs) :=
  authenticates i key ++ registers i 8 ++ handles j ++ registers i 1

/-- Where the labels lead from a server that has just been built. -/
def serve (cfg : Configuration) (ls : List (Server.Label yrs)) : Server yrs :=
  Lts.reach (Server.step cfg) (Server.build yrs) ls

end Hocuspocus.OneWriter
