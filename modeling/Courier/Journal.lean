import Courier.Client

set_option autoImplicit false

namespace Courier

inductive Reason
  | sendFailed
  | disconnected
  | idleTimeout
  | rejected
  | shutdown
  | replaced
  deriving DecidableEq, Repr

def Reason.names : List (String × Reason) := [
  ("sendFailed", .sendFailed), ("disconnected", .disconnected), ("idleTimeout", .idleTimeout),
  ("rejected", .rejected), ("shutdown", .shutdown), ("replaced", .replaced)]

def Reason.name : Reason → String
  | .sendFailed => "sendFailed"
  | .disconnected => "disconnected"
  | .idleTimeout => "idleTimeout"
  | .rejected => "rejected"
  | .shutdown => "shutdown"
  | .replaced => "replaced"

inductive Event
  | registered (id : SessionId) (client : Client)
  /-- `sent` parcels had been written. -/
  | removed (id : SessionId) (reason : Reason) (sent : Nat)
  deriving DecidableEq, Repr

def Event.id : Event → SessionId
  | .registered id _ => id
  | .removed id _ _ => id

/-- An event as JSON, with what stands for its time. -/
def Event.value (timestamp : Json.Value) : Event → Json.Value
  | .registered id client =>
    .object [("type", .text "registered"), ("sessionId", id.value), ("client", client.value),
      ("timestamp", timestamp)]
  | .removed id reason sent =>
    .object [("type", .text "removed"), ("sessionId", id.value), ("reason", .text reason.name),
      ("sent", .natural sent), ("timestamp", timestamp)]

inductive Delivery
  | event (e : Event)
  | lagged (n : Nat)
  deriving DecidableEq, Repr

def Delivery.isRemoval : Delivery → Bool
  | .event (.removed _ _ _) => true
  | _ => false

def powerAbove (n : Nat) : Nat := if n ≤ 1 then 1 else Nat.pow 2 (Nat.log2 (n - 1) + 1)

/-- What a subscriber receives that has seen the first `seen` events, when `kept` are kept. -/
def deliveries (events : List Event) (kept seen : Nat) : List Delivery :=
  let missed := events.length - kept - seen
  let rest := (events.drop (seen + missed)).map Delivery.event
  if missed = 0 then rest else .lagged missed :: rest

end Courier
