import Courier.Connection
import Courier.Sweeper

set_option autoImplicit false

namespace Courier.Scenario

inductive Address
  | handle (name : String)
  | id (id : SessionId)
  | group (group : String)
  | nowhere

structure Send where
  tag : String
  address : Address
  message : Message
  timeout : Option Nat
  token : Option String

structure Opening where
  name : String
  id : SessionId
  client : Client
  script : ProbeScript
  discarded : Bool

structure ClientAction where
  bytes : List UInt8
  ends : Bool
  pauses : Option Bool
  leaves : Bool

inductive Step
  | enter (o : Opening)
  | spawn (o : Opening) (config : Option Config)
  | register (name : String)
  | drop (name : String)
  | lookup (id : SessionId)
  | remove (id : SessionId) (reason : Reason)
  | removeIfSame (id : SessionId) (name : String) (reason : Reason)
  | touch (id : SessionId)
  | touchHandle (name : String)
  | sweep (maxIdle : Nat)
  | reject (subsystem : String)
  | closeAll
  | group (group : String)
  | distribution
  | config
  | close (name : String)
  | times (name : String)
  | frames (name : String)
  | watch (name tag : String)
  | send (sends : List Send)
  | abort (tag : String)
  | cancel (token : String)
  | script (name : String) (change : ProbeScript → ProbeScript)
  | advance (ms : Nat)
  | jump (ms : Nat)
  | subscribe (name : String)
  | events (name : String)
  | startSweeper (name : String) (times : Option (Nat × Nat)) (starts : Nat)
  | stopSweeper (name : String)
  | dropSweeper (name : String)
  | connect (name : String) (peer : String) (maxRequest : Nat)
  | client (name : String) (action : ClientAction)

inductive Result
  | nothing
  | ok
  | error (e : SendError)
  | noHandle
  | noTask
  | bool (b : Bool)
  | found (id : SessionId) (name : Option String) (client : Client)
  | ids (ids : List SessionId)
  | count (n : Nat)
  | json (v : Json.Value)
  | times (idle age : Nat)
  | frames (payloads : List String)
  | started
  | disabled
  | stopped (before after : Bool)
  | events (received : List Delivery)

/-- How a send, or a wait for the closing of a session, has finished. -/
inductive Reply
  | sequence (n : Nat)
  | sent
  | error (e : SendError)
  | members (results : List (SessionId × Except SendError Nat))
  | closed
  | noHandle

end Courier.Scenario
