import Courier.Scenario.Perform

set_option autoImplicit false

namespace Courier.Scenario

structure SessionReport where
  life : Life
  sequence : Nat
  queued : Nat

structure ProbeReport where
  name : String
  started : Nat
  recorded : Nat
  closes : Nat
  session : Option SessionReport

inductive PayloadReport
  | whole (text : String)
  /-- The size of a long payload, and how it begins. -/
  | long (size : Nat) (head : String)

structure VisitorReport where
  name : String
  payloads : List PayloadReport
  ended : Bool
  phase : Phase
  session : Option (Client × SessionReport)

structure Report where
  result : Result
  finished : List (String × Reply)
  ids : List SessionId
  probes : List ProbeReport
  visitors : List VisitorReport

def correlation? (payload : String) : Option String :=
  (Message.decode payload).toOption.bind (·.header.correlationId)

def longPayload : Nat := 2000

def headLength : Nat := 150

/-- How many bytes the id of a connection's session has, whatever stands for it in a scenario. -/
def realIdSize : Nat := 36

def payloadSize (id : SessionId) (payload : String) : Nat :=
  let standsIn := (correlation? payload).any fun c =>
    c == id.text || c.startsWith (id.text ++ "-")
  if standsIn then payload.utf8ByteSize + realIdSize - id.text.utf8ByteSize
  else payload.utf8ByteSize

def PayloadReport.ofPayload (id : SessionId) (payload : String) : PayloadReport :=
  let size := payloadSize id payload
  if longPayload < size then .long size (String.ofList (payload.toList.take headLength))
  else .whole payload

def removalLe : Delivery → Delivery → Bool
  | .event (.removed a r _), .event (.removed b s _) =>
    a.text < b.text || (a.text == b.text && r.name ≤ s.name)
  | _, _ => true

/-- Removals in a row have no order among them; they are reported by id and reason. `run` holds
those of the present row. -/
def sortRemovals (run : List Delivery) : List Delivery → List Delivery
  | [] => run.mergeSort removalLe
  | d :: ds =>
    if d.isRemoval then sortRemovals (run ++ [d]) ds
    else run.mergeSort removalLe ++ d :: sortRemovals [] ds

def Result.inOrder : Result → Result
  | .events received => .events (sortRemovals [] received)
  | r => r

namespace World

def sessionReport (l : Lane) : SessionReport :=
  ⟨l.session.life, l.session.sequence, l.session.queue.length⟩

def probeReport (w : World) (name : String) (key : Key) : Option ProbeReport := do
  let l ← w.hub.lane? key
  let session := (w.handles.lookup name).bind w.hub.lane?
  match l.stream with
  | .probe p => some ⟨name, p.started, p.recorded.length, p.closes, session.map sessionReport⟩
  | .socket _ => none

def readable (w : World) (c : Connection) : ByteArray × Bool :=
  match c.phase.seat?.bind fun seat => w.hub.lane? seat.key with
  | some { stream := .socket s, .. } => (s.taken, s.shut)
  | _ => (ByteArray.empty, c.phase.isOver)

/-- A client that reads takes what there is; the complete frames are its payloads. -/
def collect (w : World) (v : Visitor) : World × List String :=
  if v.reader == .reading then
    let (bytes, shut) := w.readable v.connection
    let (payloads, framed) := unframeFrom bytes v.framed
    let w := w.changeSocketOf v.connection Socket.readAll
    (w.setVisitor { v with framed, ended := v.ended || shut },
      payloads.filterMap String.fromUTF8?)
  else (w, [])

def visitorSession (w : World) (v : Visitor) : Option (Client × SessionReport) := do
  let seat ← v.connection.phase.seat?
  let key ← w.hub.lookup seat.id
  let l ← w.hub.lane? key
  return (l.client, sessionReport l)

def visit (w : World) (v : Visitor) : World × VisitorReport :=
  let (w, payloads) := w.collect v
  let name := v.connection.name
  (w, {
    name
    payloads := payloads.map (.ofPayload (seatId v))
    ended := (w.visitor? name).any (·.ended)
    phase := v.connection.phase
    session := w.visitorSession v })

def visitAll (w : World) : World × List VisitorReport :=
  w.visitors.foldl (fun (w, reports) v =>
    let (w, report) := w.visit v
    (w, reports ++ [report])) (w, [])

def run (w : World) (s : Step) : World × Report :=
  let (w, result) := { w with finished := [] }.perform s
  let (w, visitors) := w.settle.visitAll
  (w, {
    result := result.inOrder
    finished := (w.finished.map fun f => (f.tag, f.reply)).mergeSort fun a b => decide (a.1 ≤ b.1)
    ids := sorted w.hub.ids
    probes := w.probes.filterMap fun (name, key) => w.probeReport name key
    visitors })

def runAll (w : World) (steps : List Step) : World × List Report :=
  steps.foldl (fun (w, reports) s =>
    let (w, report) := w.run s
    (w, reports ++ [report])) (w, [])

def written (w : World) : List (String × List String) :=
  w.probes.filterMap fun (name, key) => do
    let l ← w.hub.lane? key
    match l.stream with
    | .probe p => some (name, p.recorded)
    | .socket _ => none

end World

end Courier.Scenario
