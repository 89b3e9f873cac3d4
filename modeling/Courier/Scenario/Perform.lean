import Courier.Net.Address
import Courier.Scenario.Settle

set_option autoImplicit false

namespace Courier.Scenario.World

def lane (w : World) (o : Opening) (config : Config) : Lane :=
  let session := Session.start config w.now
  { id := o.id
    client := o.client
    session := if o.discarded then session.crashed.1 else session
    stream := .probe (.start o.script) }

def enter (w : World) (o : Opening) : World × Result :=
  let key := w.hub.lanes.length
  let (hub, result) := w.hub.enter (w.lane o w.hub.config)
  let w := { w with hub, probes := bind w.probes o.name key }
  match result with
  | .ok key => ({ w with handles := bind w.handles o.name key }, .ok)
  | .error e => (w, .error e)

def spawn (w : World) (o : Opening) (config : Config) : World × Result :=
  let key := w.hub.lanes.length
  let hub := w.hub.addLane (w.lane o config)
  let w := { w with hub, probes := bind w.probes o.name key }
  ({ w with handles := bind w.handles o.name key }, .nothing)

def withHandle (w : World) (name : String) (f : Key → World × Result) : World × Result :=
  match w.handle? name with
  | some key => f key
  | none => (w, .noHandle)

def registerLane (w : World) (key : Key) : World × Result :=
  match w.hub.register key with
  | .ok hub => ({ w with hub }, .ok)
  | .error e => (w, .error e)

def laneTimes (w : World) (key : Key) : World × Result :=
  match w.hub.lane? key with
  | some l => (w, .times (l.session.idleFor w.now) (w.now - l.session.createdAt))
  | none => (w, .noHandle)

def lookup (w : World) (id : SessionId) : Result :=
  match w.hub.lookup id with
  | none => .nothing
  | some key =>
    match w.hub.lane? key with
    | none => .nothing
    | some l => .found id ((w.handles.find? (·.2 == key)).map (·.1)) l.client

def sorted (ids : List SessionId) : List SessionId := ids.mergeSort SessionId.le

def kept (w : World) : Nat := powerAbove w.hub.config.journalCapacity

def changeScript (change : ProbeScript → ProbeScript) (l : Lane) : Lane :=
  match l.stream with
  | .probe p => { l with stream := .probe { p with script := change p.script } }
  | .socket _ => l

def brokenPipe : SystemError := ⟨"BrokenPipe", "Broken pipe (os error 32)"⟩

def nextReader (reader : Reader) (a : ClientAction) : Reader :=
  if reader.isGone then reader
  else if a.leaves then .gone brokenPipe.fault
  else
    match a.pauses with
    | some true => .paused
    | some false => .reading
    | none => reader

def changeSocket (change : Socket → Socket) (l : Lane) : Lane :=
  match l.stream with
  | .socket s => { l with stream := .socket (change s) }
  | .probe _ => l

def changeSocketOf (w : World) (c : Connection) (change : Socket → Socket) : World :=
  match c.phase.seat? with
  | none => w
  | some seat =>
    { w with hub := { w.hub with lanes := w.hub.lanes.modify seat.key (changeSocket change) } }

def act (w : World) (v : Visitor) (a : ClientAction) : World :=
  let reader := nextReader v.reader a
  let incoming := v.connection.incoming.add a.bytes
  let incoming := { incoming with ended := incoming.ended || a.ends || a.leaves }
  let w := w.setVisitor { v with connection := { v.connection with incoming }, reader }
  w.changeSocketOf v.connection (·.setReader reader)

/-- Does a step, up to what has to settle afterwards. -/
def perform (w : World) : Step → World × Result
  | .enter o => w.enter o
  | .spawn o config => w.spawn o (config.getD w.hub.config)
  | .register name => w.withHandle name w.registerLane
  | .drop name =>
    ({ w with handles := unbind w.handles name }, .bool (w.handles.lookup name).isSome)
  | .lookup id => (w, w.lookup id)
  | .remove id reason =>
    let (hub, removed) := w.hub.remove id reason
    ({ w with hub }, .bool removed)
  | .removeIfSame id name reason => w.withHandle name fun key =>
    let (hub, removed) := w.hub.removeIfSame id key reason
    ({ w with hub }, .bool removed)
  | .touch id =>
    let (hub, known) := w.hub.touch id w.now
    ({ w with hub }, .bool known)
  | .touchHandle name => w.withHandle name fun key =>
    ({ w with hub := w.hub.updateSession key (·.touch w.now) }, .nothing)
  | .sweep maxIdle =>
    let (hub, removed) := w.hub.sweepIdle maxIdle w.now
    ({ w with hub }, .ids (sorted removed))
  | .reject subsystem =>
    let (hub, removed) := w.hub.rejectBySubsystem subsystem
    ({ w with hub }, .ids (sorted removed))
  | .closeAll =>
    let (hub, n) := w.hub.closeAll
    ({ w with hub }, .count n)
  | .group group => (w, .ids (sorted ((w.hub.inGroup group).map (·.id))))
  | .distribution => (w, .json w.hub.distributionValue)
  | .config => (w, .json w.hub.config.value)
  | .close name => w.withHandle name fun key =>
    let (hub, began) := w.hub.close key
    ({ w with hub }, .bool began)
  | .times name => w.withHandle name w.laneTimes
  | .frames name =>
    match (w.probes.lookup name).bind w.hub.lane? with
    | some { stream := .probe p, .. } => (w, .frames p.recorded)
    | _ => (w, .nothing)
  | .watch name tag =>
    match w.held? name with
    | some (id, key) =>
      ({ w with watches := w.watches ++ [⟨tag, id, key⟩], tags := w.tags ++ [tag] }, .nothing)
    | none => (w, .noHandle)
  | .send sends => (sends.foldl begin w, .nothing)
  | .abort tag => (w.abort tag, if w.tags.contains tag then .nothing else .noTask)
  | .cancel token => (w.cancel token, .nothing)
  | .script name change =>
    match w.probes.lookup name with
    | some key =>
      ({ w with hub := { w.hub with lanes := w.hub.lanes.modify key (changeScript change) } },
        .nothing)
    | none => (w, .nothing)
  | .advance ms => (w.advance ms, .nothing)
  | .jump ms => (w.jump ms, .nothing)
  | .subscribe name =>
    let others := w.subscriptions.filter (·.name != name)
    ({ w with subscriptions := others ++ [⟨name, w.hub.journal.length⟩] }, .nothing)
  | .events name =>
    match w.subscriptions.find? (·.name == name) with
    | none => (w, .nothing)
    | some s =>
      let others := w.subscriptions.filter (·.name != name)
      ({ w with subscriptions := others ++ [⟨name, w.hub.journal.length⟩] },
        .events (deliveries w.hub.journal w.kept s.seen))
  | .startSweeper name times starts =>
    let sweeper := match times with
      | some (maxIdle, period) => some (Sweeper.start maxIdle period starts w.now)
      | none => Sweeper.ofConfig? w.hub.config starts w.now
    match sweeper with
    | some s => ({ w with sweepers := bind w.sweepers name s }, .started)
    | none => (w, .disabled)
  | .stopSweeper name =>
    match w.sweepers.lookup name with
    | some s => ({ w with sweepers := bind w.sweepers name s.stop }, .stopped s.stopped true)
    | none => (w, .nothing)
  | .dropSweeper name =>
    ({ w with sweepers := unbind w.sweepers name }, .bool (w.sweepers.lookup name).isSome)
  | .connect name peer maxRequest =>
    let host := ((Net.Address.ofPeer? peer).map Net.Address.text).getD ""
    let v : Visitor := ⟨.start name host maxRequest, .reading, 0, false⟩
    ({ w with visitors := w.visitors ++ [v] }, .nothing)
  | .client name action =>
    match w.visitor? name with
    | some v => (w.act v action, .nothing)
    | none => (w, .nothing)

end Courier.Scenario.World
