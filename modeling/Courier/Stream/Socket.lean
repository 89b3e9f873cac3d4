import Courier.Framing
import Courier.Stream.Probe

set_option autoImplicit false

namespace Courier

inductive Reader
  | reading
  | paused
  | gone (f : StreamFault)
  deriving DecidableEq, Repr

def Reader.isGone : Reader → Bool
  | .gone _ => true
  | _ => false

inductive SocketStage
  | idle
  | sending (s : Shipment)
  | refused (f : StreamFault)

structure Socket where
  capacity : Nat
  flushFault : Option StreamFault
  reader : Reader
  stage : SocketStage
  taken : ByteArray
  read : Nat
  shut : Bool

namespace Socket

def start (capacity : Nat) (reader : Reader) : Socket :=
  ⟨capacity, none, reader, .idle, ByteArray.empty, 0, false⟩

def room (s : Socket) (n : Nat) : Nat :=
  match s.reader with
  | .reading => n
  | .paused => min n (s.capacity - (s.taken.size - s.read))
  | .gone _ => 0

def absorb (s : Socket) : Socket :=
  match s.stage with
  | .sending shipment =>
    let n := s.room shipment.left
    { s with taken := s.taken ++ shipment.portion n, stage := .sending (shipment.advance n) }
  | _ => s

def begin (s : Socket) (payload : String) : Socket :=
  let bytes := payload.toUTF8
  match oversized? defaultFrameLimit bytes with
  | some f => { s with stage := .refused f }
  | none => { s with stage := .sending (.ofPayload bytes) }.absorb

def setReader (s : Socket) (reader : Reader) : Socket := { s with reader }.absorb

def readAll (s : Socket) : Socket := { s with read := s.taken.size }

def flush (s : Socket) : WriteEnd :=
  match s.flushFault with
  | some f => .failed f
  | none => .done

def ending? (s : Socket) : Option WriteEnd :=
  match s.stage, s.reader with
  | .refused f, _ => some (.failed f)
  | .sending shipment, .gone f => some (if shipment.isDone then s.flush else .failed f)
  | .sending shipment, _ => if shipment.isDone then some s.flush else none
  | .idle, _ => none

def abandon (s : Socket) : Socket := { s with stage := .idle }

def release (s : Socket) : Socket := { s with stage := .idle, shut := true }

end Socket

end Courier
