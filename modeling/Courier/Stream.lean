import Courier.Stream.Probe
import Courier.Stream.Socket

set_option autoImplicit false

namespace Courier

inductive Stream
  | probe (p : Probe)
  | socket (s : Socket)

namespace Stream

def begin (payload : String) : Stream → Stream
  | .probe p => .probe (p.begin payload)
  | .socket s => .socket (s.begin payload)

/-- The next stage of a write that needs no time to get there. -/
def pass? (now : Nat) : Stream → Option Stream
  | .probe p => (p.pass? now).map .probe
  | .socket _ => none

def ending? : Stream → Option (WriteEnd × Stream)
  | .probe p => if p.isOver then some (p.finish.1, .probe p.finish.2) else none
  | .socket s => s.ending?.map fun e => (e, .socket s.abandon)

def isHeld : Stream → Bool
  | .probe { stage := .held _, .. } => true
  | _ => false

def due? : Stream → Option Nat
  | .probe p => p.due?
  | .socket _ => none

def finish : Stream → WriteEnd × Stream
  | .probe p => (p.finish.1, .probe p.finish.2)
  | .socket s => (.done, .socket s)

def abandon : Stream → Stream
  | .probe p => .probe p.abandon
  | .socket s => .socket s.abandon

def release (now : Nat) : Stream → Stream
  | .probe p => .probe (p.release now)
  | .socket s => .socket s.release

def isReleased : Stream → Bool
  | .probe p => p.isOver
  | .socket s => s.shut

end Stream

end Courier
