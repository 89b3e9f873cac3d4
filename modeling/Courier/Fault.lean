import Courier.Json.Value

set_option autoImplicit false

namespace Courier

inductive StreamFault
  | peerGone (why : String)
  | closed
  | writeTimeout (ms : Nat)
  | io (why : String)
  deriving DecidableEq, Repr

def StreamFault.code : StreamFault → String
  | .peerGone _ => "peer_gone"
  | .closed => "stream_closed"
  | .writeTimeout _ => "write_timeout"
  | .io _ => "io_error"

def StreamFault.message : StreamFault → String
  | .peerGone why => "peer is gone: " ++ why
  | .closed => "stream closed"
  | .writeTimeout ms => "write timed out after " ++ toString ms ++ "ms"
  | .io why => "I/O error: " ++ why

structure SystemError where
  kind : String
  text : String
  deriving DecidableEq, Repr

/-- The kinds that mean that the other end went away. -/
def SystemError.goneKinds : List String :=
  ["BrokenPipe", "ConnectionReset", "ConnectionAborted", "NotConnected", "UnexpectedEof"]

def SystemError.fault (e : SystemError) : StreamFault :=
  if SystemError.goneKinds.contains e.kind then .peerGone e.text else .io e.text

inductive SendError
  | unknownSession (id : String)
  | backpressure (id : String)
  /-- The caller gave up waiting for a place in the queue. -/
  | timeout (id : String)
  | sendFailed (id : String) (reason : String)
  | duplicateSession (id : String)
  | invalidMessage (why : String)
  deriving DecidableEq, Repr

def SendError.ofFault (id : String) (f : StreamFault) : SendError := .sendFailed id f.message

def SendError.isFatal : SendError → Bool
  | .sendFailed _ _ => true
  | _ => false

def SendError.code : SendError → String
  | .unknownSession _ => "unknown_session"
  | .backpressure _ => "backpressure"
  | .timeout _ => "timeout"
  | .sendFailed _ _ => "send_failed"
  | .duplicateSession _ => "duplicate_session"
  | .invalidMessage _ => "invalid_message"

def SendError.message : SendError → String
  | .unknownSession id => "Unknown session: " ++ id
  | .backpressure id => "Session " ++ id ++ " is backpressured (queue full)"
  | .timeout id => "Timed out waiting to enqueue for session " ++ id
  | .sendFailed id reason => "Send to session " ++ id ++ " failed: " ++ reason
  | .duplicateSession id => "Duplicate session: " ++ id
  | .invalidMessage why => "Invalid message: " ++ why

def SendError.tagged (name details : String) : Json.Value :=
  .object [("type", .text name), ("details", .text details)]

def SendError.value : SendError → Json.Value
  | .unknownSession id => tagged "UnknownSession" id
  | .backpressure id => tagged "Backpressure" id
  | .timeout id => tagged "Timeout" id
  | .sendFailed id reason =>
    .object [("type", .text "SendFailed"),
      ("details", .object [("session_id", .text id), ("reason", .text reason)])]
  | .duplicateSession id => tagged "DuplicateSession" id
  | .invalidMessage why => tagged "InvalidMessage" why

end Courier
