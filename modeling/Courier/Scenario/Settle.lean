import Courier.Scenario.World

set_option autoImplicit false

namespace Courier.Scenario.World

def keys (w : World) : List Key := List.range w.hub.lanes.length

def laneStep? (w : World) (key : Key) : Option (Lane × List Notice) :=
  (w.hub.lane? key).bind (·.act? w.now)

/-- The id for the session of a connection; a client that has left never learns it. -/
def seatId (v : Visitor) : SessionId :=
  if v.reader.isGone then ⟨"@?"⟩ else ⟨"@" ++ v.connection.name⟩

def socketCapacity : Nat := 212992

def visitorStep? (w : World) (v : Visitor) : Option World := do
  let socket := Socket.start socketCapacity v.reader
  let (connection, hub) ← v.connection.act? w.hub (seatId v) socket w.now
  return { w with hub }.setVisitor { v with connection }

def isOver (w : World) (v : Watch) : Bool := (w.hub.lane? v.key).any (·.session.closing)

/-- Nobody holds the session any more, and it has not learnt that. -/
def isLeft (w : World) (key : Key) : Bool :=
  !w.isHeld key && (w.hub.lane? key).any (!·.session.orphaned)

inductive Bell
  | writer (key : Key)
  | waiter (key : Key) (caller : Caller)
  | sweeper (name : String) (loop : Nat)

def laneAlarms (w : World) (key : Key) : List (Alarm × Bell) :=
  match w.hub.lane? key with
  | none => []
  | some l =>
    (l.alarm?.map fun a => (a, Bell.writer key)).toList ++
      l.waiterAlarms.map fun (a, caller) => (a, .waiter key caller)

def alarms (w : World) : List (Alarm × Bell) :=
  w.keys.flatMap w.laneAlarms ++
    w.sweepers.flatMap fun (name, s) => s.alarms.map fun (a, i) => (a, .sweeper name i)

def sooner (best : Option (Alarm × Bell)) (a : Alarm × Bell) : Option (Alarm × Bell) :=
  match best with
  | none => some a
  | some b => if a.1.before b.1 then some a else some b

/-- The alarm that comes first; of equal ones it is the first in the list. -/
def earliest? (alarms : List (Alarm × Bell)) : Option (Alarm × Bell) := alarms.foldl sooner none

def ring (w : World) : Bell → World
  | .writer key =>
    match w.hub.lane? key with
    | some l => w.update key (l.ring w.now)
    | none => w
  | .waiter key caller =>
    match w.hub.lane? key with
    | some l => w.update key (l.lapse caller)
    | none => w
  | .sweeper name i =>
    match w.sweepers.lookup name with
    | some s =>
      { w with
        hub := (w.hub.sweepIdle s.maxIdle w.now).1
        sweepers := w.sweepers.map fun (n, t) => (n, if n == name then s.ticked i w.now else t) }
    | none => w

inductive Move
  | lane (key : Key)
  | visitor (v : Visitor)
  | watch (v : Watch)
  | orphan (key : Key)
  | ring (b : Bell)

def next? (w : World) : Option Move :=
  (w.keys.find? fun key => (w.laneStep? key).isSome).map .lane <|>
  (w.visitors.find? fun v => (w.visitorStep? v).isSome).map .visitor <|>
  (w.watches.find? w.isOver).map .watch <|>
  (w.keys.find? w.isLeft).map .orphan <|>
  ((earliest? w.alarms).filter (·.1.due ≤ w.now)).map fun a => .ring a.2

def make (w : World) : Move → World
  | .lane key =>
    match w.laneStep? key with
    | some moved => w.update key moved
    | none => w
  | .visitor v => (w.visitorStep? v).getD w
  | .watch v => { w with watches := w.watches.erase v }.finish v.tag (some v.id) .closed
  | .orphan key => { w with hub := w.hub.updateSession key ({ · with orphaned := true }) }
  | .ring b => w.ring b

def step? (w : World) : Option World := w.next?.map w.make

def effort (w : World) : Nat :=
  total (w.hub.lanes.map Lane.effort) + w.watches.length +
    total (w.sweepers.map (·.2.effort w.now)) +
    total (w.visitors.map fun v => 16 * (v.connection.incoming.bytes.length + 8))

def settleFor : Nat → World → World
  | 0, w => w
  | fuel + 1, w =>
    match w.step? with
    | some w => w.settleFor fuel
    | none => w

def settle (w : World) : World := w.settleFor w.effort

/-- Lets time pass up to an instant; what is due on the way happens at its own instant. -/
def advanceTo (target : Nat) : Nat → World → World
  | 0, w => { w with now := target }.settle
  | fuel + 1, w =>
    match earliest? w.alarms with
    | some (alarm, _) =>
      if alarm.due ≤ target then
        advanceTo target fuel { w with now := max w.now alarm.due }.settle
      else { w with now := target }.settle
    | none => { w with now := target }.settle

def advance (w : World) (ms : Nat) : World := advanceTo (w.now + ms) (ms + 1) w

def jump (w : World) (ms : Nat) : World := { w with now := w.now + ms }.settle

end Courier.Scenario.World
