import Courier.Scenario.Step

/-!
# The world of a scenario

The hub with everything around it: the clock, the handles that are held by name, sends under way,
waits for closings, subscriptions, sweepers and the clients of connections.
-/

set_option autoImplicit false

namespace Courier.Scenario

inductive Addressee
  | byHandle
  | byId
  | member

structure Call where
  sender : Nat
  tag : String
  id : SessionId
  key : Key
  addressee : Addressee

/-- A send to a group, with the results it has so far. -/
structure Gathering where
  sender : Nat
  tag : String
  results : List (SessionId × Except SendError Nat)
  /-- All results are there and were given back. -/
  complete : Bool

structure Watch where
  tag : String
  id : SessionId
  key : Key
  deriving DecidableEq, Repr

structure Finish where
  tag : String
  about : Option SessionId
  reply : Reply

structure Subscription where
  name : String
  seen : Nat

structure Visitor where
  connection : Connection
  reader : Reader
  /-- Where the next frame starts among the bytes for the client. -/
  framed : Nat
  ended : Bool

structure World where
  now : Nat
  hub : Hub
  handles : List (String × Key)
  probes : List (String × Key)
  sends : Nat
  calls : List Call
  gatherings : List Gathering
  watches : List Watch
  tags : List String
  cancelled : List String
  subscriptions : List Subscription
  sweepers : List (String × Sweeper)
  visitors : List Visitor
  finished : List Finish

namespace World

@[simp]
def start (config : Config) : World where
  now := 0
  hub := .start config
  handles := []
  probes := []
  sends := 0
  calls := []
  gatherings := []
  watches := []
  tags := []
  cancelled := []
  subscriptions := []
  sweepers := []
  visitors := []
  finished := []

def bind {α : Type} (bindings : List (String × α)) (name : String) (a : α) :
    List (String × α) :=
  bindings.filter (·.1 != name) ++ [(name, a)]

def unbind {α : Type} (bindings : List (String × α)) (name : String) : List (String × α) :=
  bindings.filter (·.1 != name)

def finish (w : World) (tag : String) (about : Option SessionId) (reply : Reply) : World :=
  { w with finished := w.finished ++ [⟨tag, about, reply⟩] }

/-- The session of a connection is found by its id, any other by the name of its handle. -/
def handle? (w : World) (name : String) : Option Key :=
  match name.toList with
  | '@' :: _ => w.hub.lookup ⟨name⟩
  | _ => w.handles.lookup name

def held? (w : World) (name : String) : Option (SessionId × Key) :=
  (w.handle? name).bind fun key => (w.hub.idOf? key).map fun id => (id, key)

def isHeld (w : World) (key : Key) : Bool :=
  w.handles.any (·.2 == key) || w.hub.entries.any (·.key == key) ||
    w.calls.any (·.key == key) || w.watches.any (·.key == key) ||
    w.visitors.any fun v => !v.connection.phase.isOver &&
      v.connection.phase.seat?.any (·.key == key)

def gather (w : World) (sender : Nat) : World :=
  if w.calls.any (·.sender == sender) then w
  else
    match w.gatherings.find? fun g => g.sender == sender && !g.complete with
    | none => w
    | some g =>
      let completed (g : Gathering) : Gathering :=
        if g.sender == sender then { g with complete := true } else g
      { w with gatherings := w.gatherings.map completed }.finish g.tag none
        (.members (g.results.mergeSort fun a b => a.1.le b.1))

def addResult (w : World) (sender : Nat) (id : SessionId) (r : Except SendError Nat) : World :=
  { w with gatherings := w.gatherings.map fun g =>
      if g.sender == sender then { g with results := g.results ++ [(id, r)] } else g }

def conclude (w : World) (c : Call) (outcome : Outcome) : World :=
  match c.addressee with
  | .byHandle =>
    match Hub.answer c.id outcome with
    | .ok n => w.finish c.tag (some c.id) (.sequence n)
    | .error e => w.finish c.tag (some c.id) (.error e)
  | .byId =>
    let (hub, result) := w.hub.conclude c.id c.key outcome
    let w := { w with hub }
    match result with
    | .ok _ => w.finish c.tag (some c.id) .sent
    | .error e => w.finish c.tag (some c.id) (.error e)
  | .member =>
    let (hub, result) := w.hub.conclude c.id c.key outcome
    { w with hub }.addResult c.sender c.id result

def setVisitor (w : World) (v : Visitor) : World :=
  { w with visitors := w.visitors.map fun u =>
      if u.connection.name == v.connection.name then v else u }

def visitor? (w : World) (name : String) : Option Visitor :=
  w.visitors.find? (·.connection.name == name)

/-- Delivers a notice of a lane. A caller that has given up does not get it. -/
def deliver (w : World) (key : Key) (n : Notice) : World :=
  match n.caller with
  | .sender sender =>
    let isMeant (c : Call) : Bool := c.sender == sender && c.key == key
    match w.calls.find? isMeant with
    | some c =>
      ({ w with calls := w.calls.filter (!isMeant ·) }.conclude c n.outcome).gather sender
    | none => w
  | .connection name =>
    match w.visitor? name with
    | some v =>
      let (connection, hub) := v.connection.notified w.hub n.outcome
      { w with hub }.setVisitor { v with connection }
    | none => w

def deliverAll (w : World) (key : Key) (notices : List Notice) : World :=
  notices.foldl (·.deliver key ·) w

def update (w : World) (key : Key) (moved : Lane × List Notice) : World :=
  { w with hub := w.hub.setLane key moved.1 }.deliverAll key moved.2

/-- Offers a parcel to a lane; the call waits unless its outcome is known at once. -/
def offer (w : World) (c : Call) (payload : String) (patience : Patience) : World :=
  let spent := patience.deadline.any (· ≤ w.now) || patience.token.any w.cancelled.contains
  match w.hub.offer c.key ⟨.sender c.sender, payload⟩ patience spent w.now with
  | (hub, none) => { w with hub, calls := w.calls ++ [c] }
  | (hub, some refusal) => { w with hub }.conclude c (.refused refusal)

def beginMember (payload : String) (sender : Nat) (tag : String) (w : World) (id : SessionId) :
    World :=
  match w.hub.route id with
  | .error e => w.addResult sender id (.error e)
  | .ok key => w.offer ⟨sender, tag, id, key, .member⟩ payload .endless

/-- Starts a send. Without the handle it wants it never becomes one that could be dropped. -/
def begin (w : World) (s : Send) : World :=
  let sender := w.sends
  let w := { w with sends := sender + 1 }
  let started : World := { w with tags := w.tags ++ [s.tag] }
  let patience : Patience := ⟨s.timeout.map (w.now + ·), s.token⟩
  let payload := s.message.encode
  match s.address with
  | .nowhere => started.finish s.tag none .sent
  | .handle name =>
    match w.held? name with
    | none => w.finish s.tag none .noHandle
    | some (id, key) => started.offer ⟨sender, s.tag, id, key, .byHandle⟩ payload patience
  | .id id =>
    match w.hub.route id with
    | .error e => started.finish s.tag (some id) (.error e)
    | .ok key => started.offer ⟨sender, s.tag, id, key, .byId⟩ payload patience
  | .group group =>
    let members := (w.hub.inGroup group).map (·.id)
    let w := { started with gatherings := w.gatherings ++ [⟨sender, s.tag, [], false⟩] }
    (members.foldl (beginMember payload sender s.tag) w).gather sender

def giveUp (w : World) (c : Call) : World :=
  { w with hub := w.hub.updateSession c.key (·.forget (.sender c.sender)) }

def abort (w : World) (tag : String) : World :=
  let w := (w.calls.filter (·.tag == tag)).foldl giveUp w
  { w with
    calls := w.calls.filter (·.tag != tag)
    gatherings := w.gatherings.filter (·.tag != tag)
    watches := w.watches.filter (·.tag != tag) }

def cancelIn (token : String) (w : World) (key : Key) : World :=
  match w.hub.lane? key with
  | none => w
  | some l =>
    let waiting := l.session.waiting.filter (·.patience.token == some token)
    waiting.foldl (fun w v =>
      match w.hub.lane? key with
      | some l => w.update key (l.lapse v.parcel.caller)
      | none => w) w

def cancel (w : World) (token : String) : World :=
  let w := { w with cancelled := token :: w.cancelled }
  (List.range w.hub.lanes.length).foldl (cancelIn token) w

end World

end Courier.Scenario
