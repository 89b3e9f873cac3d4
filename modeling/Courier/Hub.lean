import Courier.Journal
import Courier.Lane

/-!
# The hub

The directory of sessions by their ids. Every lane that was ever started has a key, its place in
`lanes`; `entries` are the registered ones. Each registration and each removal is entered into the
journal, and what is taken out is closed.
-/

set_option autoImplicit false

namespace Courier

abbrev Key := Nat

structure Entry where
  id : SessionId
  key : Key
  deriving DecidableEq, Repr

structure Hub where
  config : Config
  lanes : List Lane
  entries : List Entry
  journal : List Event

namespace Hub

@[simp]
def start (config : Config) : Hub := ⟨config, [], [], []⟩

def lane? (h : Hub) (key : Key) : Option Lane := h.lanes[key]?

def idOf? (h : Hub) (key : Key) : Option SessionId := (h.lane? key).map (·.id)

def setLane (h : Hub) (key : Key) (l : Lane) : Hub := { h with lanes := h.lanes.set key l }

def updateSession (h : Hub) (key : Key) (f : Session → Session) : Hub :=
  { h with lanes := h.lanes.modify key fun l => { l with session := f l.session } }

def addLane (h : Hub) (l : Lane) : Hub := { h with lanes := h.lanes ++ [l] }

def entry? (h : Hub) (id : SessionId) : Option Entry := h.entries.find? (·.id == id)

def ids (h : Hub) : List SessionId := h.entries.map (·.id)

def isLive (h : Hub) (key : Key) : Bool := (h.lane? key).any Lane.isLive

def log (h : Hub) (e : Event) : Hub := { h with journal := h.journal ++ [e] }

def sent (h : Hub) (key : Key) : Nat := ((h.lane? key).map (·.session.sequence)).getD 0

/-- Closes a lane's session; says whether that began its closing. -/
def close (h : Hub) (key : Key) : Hub × Bool := (h.updateSession key Session.close, h.isLive key)

def rebind (h : Hub) (id : SessionId) (key : Key) : Hub :=
  { h with entries := h.entries.map fun (e : Entry) => if e.id == id then ⟨id, key⟩ else e }

/-- Registers a lane under its id, in place of a dead one if there is one. -/
def register (h : Hub) (key : Key) : Except SendError Hub :=
  match h.lane? key with
  | none => .ok h
  | some l =>
    let entered (h : Hub) : Hub := h.log (.registered l.id l.client)
    match h.entry? l.id with
    | none => .ok (entered { h with entries := h.entries ++ [⟨l.id, key⟩] })
    | some old =>
      if h.isLive old.key then .error (.duplicateSession l.id.text)
      else
        let h := ((h.rebind l.id key).close old.key).1
        .ok (entered (h.log (.removed l.id .replaced (h.sent old.key))))

def enter (h : Hub) (l : Lane) : Hub × Except SendError Key :=
  let key := h.lanes.length
  let h := h.addLane l
  match h.register key with
  | .ok h => (h, .ok key)
  | .error e => ((h.close key).1, .error e)

def lookup (h : Hub) (id : SessionId) : Option Key :=
  ((h.entry? id).map (·.key)).filter h.isLive

/-- Takes an entry out: its session is closed and the removal entered into the journal. -/
def takeOut (h : Hub) (e : Entry) (reason : Reason) : Hub :=
  let h := { h with entries := h.entries.filter (·.id != e.id) }
  let h := (h.close e.key).1
  h.log (.removed e.id reason (h.sent e.key))

def remove (h : Hub) (id : SessionId) (reason : Reason) : Hub × Bool :=
  match h.entry? id with
  | some e => (h.takeOut e reason, true)
  | none => (h, false)

def removeIfSame (h : Hub) (id : SessionId) (key : Key) (reason : Reason) : Hub × Bool :=
  match h.entry? id with
  | some e => if e.key == key then (h.takeOut e reason, true) else (h, false)
  | none => (h, false)

def removeOne (reason? : Entry → Option Reason) (done : Hub × List SessionId) (e : Entry) :
    Hub × List SessionId :=
  match reason? e with
  | none => done
  | some reason =>
    let (h, removed) := done.1.removeIfSame e.id e.key reason
    (h, if removed then done.2 ++ [e.id] else done.2)

def removeWhere (h : Hub) (reason? : Entry → Option Reason) : Hub × List SessionId :=
  h.entries.foldl (removeOne reason?) (h, [])

/-- Dead sessions go, and those that were silent for longer than `maxIdle`. -/
def sweepReason? (h : Hub) (maxIdle now : Nat) (e : Entry) : Option Reason :=
  match h.lane? e.key with
  | none => none
  | some l =>
    if !l.isLive then some .sendFailed
    else if maxIdle < l.session.idleFor now then some .idleTimeout
    else none

def sweepIdle (h : Hub) (maxIdle now : Nat) : Hub × List SessionId :=
  h.removeWhere (h.sweepReason? maxIdle now)

def rejectBySubsystem (h : Hub) (subsystem : String) : Hub × List SessionId :=
  h.removeWhere fun e =>
    if (h.lane? e.key).any (·.client.subsystem == subsystem) then some .rejected else none

def shutOne (done : Hub × Nat) (id : SessionId) : Hub × Nat :=
  let (h, removed) := done.1.remove id .shutdown
  (h, done.2 + removed.toNat)

def closeAll (h : Hub) : Hub × Nat := h.ids.foldl shutOne (h, 0)

def touch (h : Hub) (id : SessionId) (now : Nat) : Hub × Bool :=
  match h.entry? id with
  | some e => (h.updateSession e.key (·.touch now), true)
  | none => (h, false)

def inGroup (h : Hub) (group : String) : List Entry :=
  h.entries.filter fun e => (h.lane? e.key).any fun l => l.isLive && l.client.group == group

structure GroupSize where
  publishers : Nat
  subscribers : Nat
  deriving DecidableEq, Repr

def GroupSize.value (g : GroupSize) : Json.Value :=
  .object [("pub", .natural g.publishers), ("sub", .natural g.subscribers)]

def clients (h : Hub) : List Client :=
  h.entries.filterMap fun e => (h.lane? e.key).map (·.client)

def distribution (h : Hub) : List (String × GroupSize) :=
  let groups := (h.clients.map (·.group)).eraseDups.mergeSort fun a b => decide (a ≤ b)
  groups.map fun group =>
    let members := h.clients.filter (·.group == group)
    (group, ⟨members.countP (·.purpose == .publish), members.countP (·.purpose == .subscribe)⟩)

def distributionValue (h : Hub) : Json.Value :=
  .object (h.distribution.map fun (group, size) => (group, size.value))

def offer (h : Hub) (key : Key) (p : Parcel) (patience : Patience) (spent : Bool) (now : Nat) :
    Hub × Option Refusal :=
  match h.lane? key with
  | none => (h, some (.failed .closed))
  | some l =>
    let (session, refusal) := l.session.offer p patience spent now
    (h.setLane key { l with session }, refusal)

def answer (id : SessionId) : Outcome → Except SendError Nat
  | .written n => .ok n
  | .refused (.failed f) => .error (.ofFault id.text f)
  | .refused .full => .error (.backpressure id.text)
  | .refused .lapsed => .error (.timeout id.text)

def route (h : Hub) (id : SessionId) : Except SendError Key :=
  match h.lookup id with
  | some key => .ok key
  | none => .error (.unknownSession id.text)

def conclude (h : Hub) (id : SessionId) (key : Key) (outcome : Outcome) :
    Hub × Except SendError Nat :=
  match answer id outcome with
  | .ok n => (h, .ok n)
  | .error e => (if e.isFatal then (h.removeIfSame id key .sendFailed).1 else h, .error e)

end Hub

end Courier
