import Courier.Hub
import Courier.Lines
import Courier.Message

/-!
# Connections

A connection serves one client. Its first line says who the client is; a session is opened for it
and acknowledged. Each further line that is not blank is a request: a heartbeat keeps the session
alive, and anything else is invalid. Requests are answered one after the other.
-/

set_option autoImplicit false

namespace Courier

inductive ConnectionError
  | unreadHandshake (e : LineError)
  | noHandshake
  | invalidHandshake (e : Json.Error)
  | notRegistered (e : SendError)
  | notAcknowledged (e : SendError)
  | unreadRequest (e : LineError)
  | streamFailed (e : SendError)

inductive ErrorCause
  | text (s : String)
  | json (e : Json.Error)

def ConnectionError.causes : ConnectionError → List ErrorCause
  | .unreadHandshake e => [.text "Failed to read handshake", .text e.message]
  | .noHandshake => [.text "Connection closed before handshake"]
  | .invalidHandshake e => [.text "Invalid handshake payload", .json e]
  | .notRegistered e => [.text "Failed to register session", .text e.message]
  | .notAcknowledged e => [.text "Failed to acknowledge handshake", .text e.message]
  | .unreadRequest e => [.text "Failed to read request", .text e.message]
  | .streamFailed e => [.text "Session stream failed", .text e.message]

structure Seat where
  id : SessionId
  key : Key
  deriving DecidableEq, Repr

inductive Phase
  | greeting
  | acknowledging (seat : Seat)
  | serving (seat : Seat) (requests : Nat)
  | answering (seat : Seat) (requests : Nat)
  | over (seat : Option Seat) (error : Option ConnectionError)

namespace Phase

def seat? : Phase → Option Seat
  | .greeting => none
  | .acknowledging seat => some seat
  | .serving seat _ => some seat
  | .answering seat _ => some seat
  | .over seat _ => seat

@[simp] theorem seat?_greeting : seat? .greeting = none := rfl
@[simp] theorem seat?_acknowledging (seat : Seat) : seat? (.acknowledging seat) = some seat := rfl
@[simp] theorem seat?_serving (seat : Seat) (n : Nat) : seat? (.serving seat n) = some seat := rfl
@[simp] theorem seat?_answering (seat : Seat) (n : Nat) : seat? (.answering seat n) = some seat := rfl
@[simp] theorem seat?_over (seat : Option Seat) (error : Option ConnectionError) :
    seat? (.over seat error) = seat := rfl

def isOver : Phase → Bool
  | .over _ _ => true
  | _ => false

@[simp] theorem isOver_greeting : isOver .greeting = false := rfl
@[simp] theorem isOver_acknowledging (seat : Seat) : isOver (.acknowledging seat) = false := rfl
@[simp] theorem isOver_serving (seat : Seat) (n : Nat) : isOver (.serving seat n) = false := rfl
@[simp] theorem isOver_answering (seat : Seat) (n : Nat) : isOver (.answering seat n) = false := rfl
@[simp] theorem isOver_over (seat : Option Seat) (error : Option ConnectionError) :
    isOver (.over seat error) = true := rfl

end Phase

structure Connection where
  name : String
  host : String
  maxRequest : Nat
  incoming : Incoming
  phase : Phase

namespace Connection

@[simp]
def start (name host : String) (maxRequest : Nat) : Connection :=
  ⟨name, host, maxRequest, .empty, .greeting⟩

def heartbeat : String := "heartbeat"

def caller (c : Connection) : Caller := .connection c.name

/-- The client that a handshake describes; without a host it has the address it came from. -/
def greet (c : Connection) (line : String) : Except ConnectionError Client :=
  match Client.decode line with
  | .error e => .error (.invalidHandshake e)
  | .ok client => .ok (if client.host == "" then { client with host := c.host } else client)

def acknowledgement (id : SessionId) : Message := ⟨.correlated id.text, .success⟩

def answerHeader (id : SessionId) (n : Nat) : Header :=
  .correlated (id.text ++ "-" ++ toString n)

def finish (c : Connection) (h : Hub) (error : Option ConnectionError) : Connection × Hub :=
  let h := match c.phase.seat? with
    | some seat => (h.remove seat.id .disconnected).1
    | none => h
  ({ c with phase := .over c.phase.seat? error }, h)

def acknowledged (c : Connection) (h : Hub) (seat : Seat) (result : Except SendError Nat) :
    Connection × Hub :=
  match result with
  | .ok _ => ({ c with phase := .serving seat 0 }, h)
  | .error e => c.finish h (some (.notAcknowledged e))

/-- The answer to the `n`-th request is written, or not. Only a failed stream ends the serving with
an error, and an answer that was dropped does not end it. -/
def answered (c : Connection) (h : Hub) (seat : Seat) (n : Nat) (result : Except SendError Nat) :
    Connection × Hub :=
  match result with
  | .ok _ => ({ c with phase := .serving seat n }, h)
  | .error (.unknownSession _) => c.finish h none
  | .error e =>
    if e.isFatal then c.finish h (some (.streamFailed e))
    else ({ c with phase := .serving seat n }, h)

def notified (c : Connection) (h : Hub) (outcome : Outcome) : Connection × Hub :=
  match c.phase with
  | .acknowledging seat =>
    let (h, result) := h.conclude seat.id seat.key outcome
    c.acknowledged h seat result
  | .answering seat n =>
    let (h, result) := h.conclude seat.id seat.key outcome
    c.answered h seat n result
  | _ => (c, h)

/-- Sends a message to the session; what becomes of it is known at once or with a notice. -/
def send (c : Connection) (h : Hub) (seat : Seat) (m : Message) (now : Nat) : Connection × Hub :=
  match h.route seat.id with
  | .error e =>
    match c.phase with
    | .acknowledging seat => c.acknowledged h seat (.error e)
    | .answering seat n => c.answered h seat n (.error e)
    | _ => (c, h)
  | .ok key =>
    match h.offer key ⟨c.caller, m.encode⟩ .endless false now with
    | (h, none) => (c, h)
    | (h, some refusal) => c.notified h (.refused refusal)

def welcome (c : Connection) (h : Hub) (id : SessionId) (client : Client) (socket : Socket)
    (now : Nat) : Connection × Hub :=
  match h.enter ⟨id, client, .start h.config now, .socket socket⟩ with
  | (h, .error e) => c.finish h (some (.notRegistered e))
  | (h, .ok key) =>
    let seat : Seat := ⟨id, key⟩
    { c with phase := .acknowledging seat }.send h seat (acknowledgement id) now

def request (c : Connection) (h : Hub) (seat : Seat) (n : Nat) (text : String) (now : Nat) :
    Connection × Hub :=
  let c := { c with phase := .answering seat n }
  if text == heartbeat then
    match h.touch seat.id now with
    | (h, false) => c.finish h none
    | (h, true) => c.send h seat ⟨answerHeader seat.id n, .success⟩ now
  else c.send h seat ⟨answerHeader seat.id n, Status.invalidRequest.withDetail text⟩ now

/-- The handshake is read, if it has come. `id` is for the session to open and `socket` its
stream. -/
def readHandshake? (c : Connection) (h : Hub) (id : SessionId) (socket : Socket) (now : Nat) :
    Option (Connection × Hub) :=
  match c.incoming.next c.maxRequest with
  | .pending => none
  | .finished => some (c.finish h (some .noHandshake))
  | .error e => some (c.finish h (some (.unreadHandshake e)))
  | .line text rest =>
    let c := { c with incoming := rest }
    match c.greet text with
    | .error e => some (c.finish h (some e))
    | .ok client => some (c.welcome h id client socket now)

def seeClosing? (c : Connection) (h : Hub) (seat : Seat) : Option (Connection × Hub) :=
  if (h.lane? seat.key).any (·.session.closing) then some (c.finish h none) else none

/-- The next line is read, if it has come; `n` requests came before. -/
def readRequest? (c : Connection) (h : Hub) (seat : Seat) (n : Nat) (now : Nat) :
    Option (Connection × Hub) :=
  match c.incoming.next c.maxRequest with
  | .pending => none
  | .finished => some (c.finish h none)
  | .error e => some (c.finish h (some (.unreadRequest e)))
  | .line text rest =>
    let c := { c with incoming := rest }
    let text := Text.trim text
    if text == "" then some (c, h) else some (c.request h seat (n + 1) text now)

/-- The next thing that a connection does by itself, if there is one. That its session closes comes
before a request. -/
def act? (c : Connection) (h : Hub) (id : SessionId) (socket : Socket) (now : Nat) :
    Option (Connection × Hub) :=
  match c.phase with
  | .greeting => c.readHandshake? h id socket now
  | .serving seat n => c.seeClosing? h seat <|> c.readRequest? h seat n now
  | _ => none

end Connection

end Courier
