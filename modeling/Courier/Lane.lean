import Courier.Client
import Courier.Session
import Courier.Stream

set_option autoImplicit false

namespace Courier

/-- Of several alarms the one that is due first comes first, then the one that is awaited longer,
then the one of lower rank. -/
structure Alarm where
  due : Nat
  since : Nat
  rank : Nat
  deriving DecidableEq, Repr

def Alarm.before (a b : Alarm) : Bool :=
  a.due < b.due || (a.due == b.due &&
    (a.since < b.since || (a.since == b.since && a.rank < b.rank)))

def total : List Nat → Nat
  | [] => 0
  | n :: ns => n + total ns

structure Lane where
  id : SessionId
  client : Client
  session : Session
  stream : Stream

namespace Lane

def isLive (l : Lane) : Bool := l.session.isLive

def engage (l : Lane) (now : Nat) : Lane :=
  match l.session.writer with
  | .writing p _ => { l with stream := l.stream.begin p.payload }
  | .releasing _ => { l with stream := l.stream.release now }
  | _ => l

def conclude (l : Lane) (e : WriteEnd) (stream : Stream) (now : Nat) : Lane × List Notice :=
  match e with
  | .done =>
    let (session, notices) := l.session.wrote
    ({ l with session, stream }, notices)
  | .failed f =>
    let (session, notices) := l.session.failed f now
    ({ l with session, stream := stream.abandon }.engage now, notices)
  | .crashed =>
    let (session, notices) := l.session.crashed
    ({ l with session, stream := stream.abandon }, notices)

def act? (l : Lane) (now : Nat) : Option (Lane × List Notice) :=
  match l.session.writer with
  | .idle => (l.session.turn? now).map fun (session, notices) =>
      ({ l with session }.engage now, notices)
  | .writing _ _ =>
    match l.stream.pass? now, l.stream.ending? with
    | some stream, _ => some ({ l with stream }, [])
    | none, some (e, stream) => some (l.conclude e stream now)
    | none, none => none
  | .releasing _ =>
    if l.stream.isReleased then some ({ l with session := l.session.released }, []) else none
  | _ => none

/-- When the writer's step ends by itself: the stream is through with it, or it takes too long. -/
def alarm? (l : Lane) : Option Alarm :=
  match l.session.writer with
  | .writing _ since =>
    let timeout := since + l.session.writeTimeout
    some ⟨(l.stream.due?.map (min timeout)).getD timeout, since, 0⟩
  | .releasing since => l.stream.due?.map fun due => ⟨due, since, 0⟩
  | _ => none

def ring (l : Lane) (now : Nat) : Lane × List Notice :=
  match l.session.writer with
  | .writing _ _ =>
    if l.stream.due?.any (· ≤ now) then l.conclude l.stream.finish.1 l.stream.finish.2 now
    else l.conclude (.failed (.writeTimeout l.session.writeTimeout)) l.stream now
  | .releasing _ => ({ l with session := l.session.released }, [])
  | _ => (l, [])

def waiterAlarms (l : Lane) : List (Alarm × Caller) :=
  l.session.waiting.filterMap fun w =>
    w.patience.deadline.map fun due => (⟨due, w.since, 1⟩, w.parcel.caller)

def lapse (l : Lane) (caller : Caller) : Lane × List Notice :=
  ({ l with session := l.session.forget caller }, [⟨caller, .refused .lapsed⟩])

/-- How much is left to do in a lane. Everything that it does by itself leaves less, and so does a
caller that stops waiting. -/
def effort (l : Lane) : Nat :=
  let writer := match l.session.writer with
    | .idle => 2
    | .writing _ _ => 3 + l.stream.isHeld.toNat
    | .releasing _ => 1
    | _ => 0
  writer + 3 * (l.session.queue.length + l.session.waiting.length) + l.session.intake.toNat +
    (!l.session.orphaned).toNat

end Lane

end Courier
