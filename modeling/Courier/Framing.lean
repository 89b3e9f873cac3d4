import Courier.Fault

set_option autoImplicit false

namespace Courier

def defaultFrameLimit : Nat := 16 * 1024 * 1024

def lengthBytes (n : Nat) : List UInt8 :=
  [UInt8.ofNat (n >>> 24), UInt8.ofNat (n >>> 16), UInt8.ofNat (n >>> 8), UInt8.ofNat n]

def frameBytes (payload : ByteArray) : ByteArray :=
  ⟨(lengthBytes payload.size).toArray⟩ ++ payload

/-- The parts of a frame, in the order in which a stream is offered them. -/
def frameParts (payload : ByteArray) : List ByteArray :=
  [⟨(lengthBytes payload.size).toArray⟩, payload]

/-- Why a payload is refused before any byte is sent. -/
def oversized? (limit : Nat) (payload : ByteArray) : Option StreamFault :=
  if limit < payload.size then
    some (.io ("frame of " ++ toString payload.size ++ " bytes exceeds limit of " ++
      toString limit))
  else if UInt32.size ≤ payload.size then some (.io "frame length overflows u32")
  else none

/-- A frame on its way: the first `taken` of its bytes are on the stream. -/
structure Shipment where
  bytes : ByteArray
  taken : Nat

def Shipment.ofPayload (payload : ByteArray) : Shipment := ⟨frameBytes payload, 0⟩

def Shipment.left (s : Shipment) : Nat := s.bytes.size - s.taken

def Shipment.isDone (s : Shipment) : Bool := s.left == 0

def Shipment.portion (s : Shipment) (n : Nat) : ByteArray :=
  s.bytes.extract s.taken (s.taken + n)

def Shipment.advance (s : Shipment) (n : Nat) : Shipment :=
  { s with taken := s.taken + min n s.left }

theorem Shipment.left_advance (s : Shipment) (n : Nat) : (s.advance n).left = s.left - n := by
  simp only [Shipment.left, Shipment.advance]
  omega

theorem Shipment.left_advance_lt (s : Shipment) {n : Nat} (left : 0 < s.left) (took : 0 < n) :
    (s.advance n).left < s.left := by
  rw [s.left_advance]
  omega

/-- The fault of a stream that takes no byte of those offered. -/
def noProgress : StreamFault := .io "write zero"

inductive StreamCall
  | flush
  | shutdown
  deriving DecidableEq, Repr

/-- A stream that takes bytes in portions up to a total, and then none or fails. -/
structure Outlet where
  limit : Option Nat
  /-- How many bytes it takes at once when so many are accepted and so many are offered. -/
  takes : Nat → Nat → Nat
  failure : Option SystemError
  flushFailure : Option SystemError
  accepted : ByteArray
  calls : List StreamCall

def Outlet.room (o : Outlet) (n : Nat) : Nat :=
  let n := min n (o.takes o.accepted.size n)
  match o.limit with
  | some l => min n (l - o.accepted.size)
  | none => n

def Outlet.stuck (o : Outlet) : StreamFault :=
  match o.failure with
  | some e => e.fault
  | none => noProgress

def Outlet.ship (o : Outlet) (s : Shipment) : Except StreamFault Unit × Outlet :=
  if 0 < s.left then
    let n := o.room s.left
    if 0 < n then
      ({ o with accepted := o.accepted ++ s.portion n }).ship (s.advance n)
    else (.error o.stuck, o)
  else (.ok (), o)
termination_by s.left
decreasing_by exact s.left_advance_lt (by assumption) (by assumption)

/-- Offers one part after the other until all of them are taken. -/
def Outlet.shipEach (o : Outlet) : List ByteArray → Except StreamFault Unit × Outlet
  | [] => (.ok (), o)
  | part :: parts =>
    match o.ship ⟨part, 0⟩ with
    | (.ok (), o) => o.shipEach parts
    | (.error f, o) => (.error f, o)

def Outlet.flush (o : Outlet) : Except StreamFault Unit × Outlet :=
  let result := match o.flushFailure with
    | some e => .error e.fault
    | none => .ok ()
  (result, { o with calls := o.calls ++ [.flush] })

def Outlet.shutdown (o : Outlet) : Outlet := { o with calls := o.calls ++ [.shutdown] }

def Outlet.send (o : Outlet) (limit : Nat) (payload : ByteArray) :
    Except StreamFault Unit × Outlet :=
  match oversized? limit payload with
  | some f => (.error f, o)
  | none =>
    match o.shipEach (frameParts payload) with
    | (.ok (), o) => o.flush
    | (.error f, o) => (.error f, o)

/-- The number that four bytes of a stream are, from a place on. -/
def lengthAt (bytes : ByteArray) (start : Nat) : Nat :=
  (List.range 4).foldl (fun n i => n * 256 + (bytes[start + i]?.getD 0).toNat) 0

/-- The payloads of the complete frames from a place of a stream on, and where they end. -/
def unframeFrom (bytes : ByteArray) (start : Nat) : List ByteArray × Nat :=
  let size := lengthAt bytes start
  if start + 4 + size ≤ bytes.size then
    let (payloads, stop) := unframeFrom bytes (start + 4 + size)
    (bytes.extract (start + 4) (start + 4 + size) :: payloads, stop)
  else ([], start)
termination_by bytes.size - start

end Courier
