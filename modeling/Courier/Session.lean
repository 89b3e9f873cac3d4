import Courier.Config
import Courier.Fault

/-!
# Sessions

A session keeps one client's outbound stream in order. Callers offer parcels to its bounded queue,
or wait for a place in it; a single writer takes them out and writes one at a time, and each caller
gets a notice of what became of its parcel.

The functions here are the steps of a session: an offer, a turn of the writer, and the ways in which
a write or the release of the stream ends. Time and the stream itself are outside.
-/

set_option autoImplicit false

namespace Courier

inductive Caller
  | sender (n : Nat)
  | connection (name : String)
  deriving DecidableEq, Repr

structure Parcel where
  caller : Caller
  payload : String
  deriving DecidableEq, Repr

structure Patience where
  deadline : Option Nat
  token : Option String
  deriving DecidableEq, Repr

def Patience.endless : Patience := ⟨none, none⟩

structure Waiter where
  parcel : Parcel
  patience : Patience
  since : Nat
  deriving DecidableEq, Repr

inductive Life
  | active
  | draining
  | removed
  deriving DecidableEq, Repr

def Life.drain : Life → Life
  | .active => .draining
  | life => life

inductive Writer
  | idle
  | writing (p : Parcel) (since : Nat)
  | releasing (since : Nat)
  | finished
  /-- The writer died, or never ran. -/
  | dead
  deriving DecidableEq, Repr

inductive Refusal
  | failed (f : StreamFault)
  | full
  | lapsed
  deriving DecidableEq, Repr

/-- What became of a parcel; a written one is the session's `n`-th. -/
inductive Outcome
  | written (n : Nat)
  | refused (why : Refusal)
  deriving DecidableEq, Repr

structure Notice where
  caller : Caller
  outcome : Outcome
  deriving DecidableEq, Repr

@[simp]
def Outcome.closed : Outcome := .refused (.failed .closed)

structure Session where
  capacity : Nat
  backpressure : Backpressure
  writeTimeout : Nat
  createdAt : Nat
  lastActivity : Nat
  life : Life
  closing : Bool
  intake : Bool
  orphaned : Bool
  queue : List Parcel
  waiting : List Waiter
  writer : Writer
  sequence : Nat
  deriving DecidableEq, Repr

namespace Session

/-- A new session; a queue has at least one place. -/
@[simp]
def start (c : Config) (now : Nat) : Session where
  capacity := max c.queueCapacity 1
  backpressure := c.backpressure
  writeTimeout := c.writeTimeout
  createdAt := now
  lastActivity := now
  life := .active
  closing := false
  intake := true
  orphaned := false
  queue := []
  waiting := []
  writer := .idle
  sequence := 0

def isLive (s : Session) : Bool := s.life == .active

@[simp]
def touch (s : Session) (now : Nat) : Session := { s with lastActivity := now }

def idleFor (s : Session) (now : Nat) : Nat := now - s.lastActivity

/-- Nothing is offered any more, what is queued is still written. -/
def close (s : Session) : Session := { s with life := s.life.drain, closing := true }

def hasRoom (s : Session) : Bool := s.queue.length < s.capacity

/-- Offers a parcel: it is queued, or waits, or is refused at once. `spent` says that the caller's
patience has ended already. -/
def offer (s : Session) (p : Parcel) (patience : Patience) (spent : Bool) (now : Nat) :
    Session × Option Refusal :=
  if !s.isLive || !s.intake then (s, some (.failed .closed))
  else if s.hasRoom then ({ s with queue := s.queue ++ [p] }, none)
  else
    match s.backpressure with
    | .failFast => (s, some .full)
    | .block =>
      if spent then (s, some .lapsed)
      else ({ s with waiting := s.waiting ++ [⟨p, patience, now⟩] }, none)

def forget (s : Session) (caller : Caller) : Session :=
  { s with waiting := s.waiting.filter (·.parcel.caller != caller) }

/-- The caller that waited longest gets a free place. -/
def refill (s : Session) : Session :=
  match s.waiting with
  | w :: ws => if s.hasRoom then { s with queue := s.queue ++ [w.parcel], waiting := ws } else s
  | [] => s

@[simp]
def shut (s : Session) : Session × List Notice :=
  ({ s with intake := false, waiting := [] }, s.waiting.map fun w => ⟨w.parcel.caller, .closed⟩)

/-- The next step of an idle writer, if it has one: to shut the queue, to write the next parcel, or
to release the stream when the queue is shut and empty. -/
def turn? (s : Session) (now : Nat) : Option (Session × List Notice) :=
  match s.writer with
  | .idle =>
    if s.intake && (s.closing || (s.queue.isEmpty && s.orphaned)) then some s.shut
    else
      match s.queue with
      | p :: rest => some ({ s with queue := rest, writer := .writing p now }.refill, [])
      | [] => if s.intake then none else some ({ s with writer := .releasing now }, [])
  | _ => none

def wrote (s : Session) : Session × List Notice :=
  match s.writer with
  | .writing p _ =>
    ({ s with sequence := s.sequence + 1, writer := .idle },
      [⟨p.caller, .written (s.sequence + 1)⟩])
  | _ => (s, [])

/-- The write in progress failed: nothing more is written, and all that is queued is refused. -/
def failed (s : Session) (f : StreamFault) (now : Nat) : Session × List Notice :=
  match s.writer with
  | .writing p _ =>
    let (s, refused) := s.shut
    ({ s with life := s.life.drain, queue := [], writer := .releasing now },
      ⟨p.caller, .refused (.failed f)⟩ :: refused ++
        s.queue.map fun q => ⟨q.caller, .closed⟩)
  | _ => (s, [])

/-- The writer dies. Its queue is lost; the life of the session does not notice. -/
def crashed (s : Session) : Session × List Notice :=
  let inFlight : List Parcel := match s.writer with
    | .writing p _ => [p]
    | _ => []
  let (s, refused) := s.shut
  ({ s with queue := [], writer := .dead },
    inFlight.map (fun p => ⟨p.caller, .closed⟩) ++ refused ++
      s.queue.map fun q => ⟨q.caller, .closed⟩)

@[simp]
def released (s : Session) : Session := { s with life := .removed, writer := .finished }

end Session

end Courier
