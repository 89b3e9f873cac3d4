import Courier.Proofs.Connection.Delivery
import Courier.Proofs.Connection.Serving
import Courier.Scenario.Perform

/-!
# What is said to a client

All frames that a client gets from a connection that is alone with its session, as a function of the
bytes that it sends: the acknowledgement, and the answers to its requests one after the other. The
bytes may arrive in any parts, and the client may read as slowly as it wants.
-/

set_option autoImplicit false

namespace Courier

open Relation (ReflTransGen)

/-- The requests in the lines after the handshake, up to the first line that cannot be read. -/
def requests (longest : Nat) : List (List UInt8) → List String × Option LineError
  | [] => ([], none)
  | line :: lines =>
    match readLine longest line with
    | .error e => ([], some e)
    | .ok text =>
      let (later, failure) := requests longest lines
      if Text.trim text == "" then (later, failure) else (Text.trim text :: later, failure)

section

variable {longest : Nat} {line : List UInt8} (lines : List (List UInt8))

theorem requests_error {e : LineError} (unread : readLine longest line = .error e) :
    requests longest (line :: lines) = ([], some e) := by simp only [requests, unread]

theorem requests_blank {text : String} (read : readLine longest line = .ok text)
    (blank : (Text.trim text == "") = true) :
    requests longest (line :: lines) = requests longest lines := by
  simp only [requests, read, blank, if_true]

theorem requests_line {text : String} (read : readLine longest line = .ok text)
    (some : (Text.trim text == "") = false) : requests longest (line :: lines) =
      (Text.trim text :: (requests longest lines).1, (requests longest lines).2) := by
  simp only [requests, read, some, Bool.false_eq_true, if_false]

end

namespace Connection

def answer (id : SessionId) (n : Nat) (request : String) : Message :=
  if request == heartbeat then ⟨answerHeader id n, .success⟩
  else ⟨answerHeader id n, Status.invalidRequest.withDetail request⟩

/-- The answers to requests that come after `n` others. -/
def answers (id : SessionId) (n : Nat) (requests : List String) : List Message :=
  requests.mapIdx fun k request => answer id (n + k + 1) request

theorem answers_cons (id : SessionId) (n : Nat) (request : String) (later : List String) :
    answers id n (request :: later) = answer id (n + 1) request :: answers id (n + 1) later := by
  simp only [answers, List.mapIdx_cons, Nat.add_zero, List.cons.injEq, true_and]
  congr 1
  funext k request
  congr 1
  omega

end Connection

def transcript (id : SessionId) (longest : Nat) (lines : List (List UInt8)) : List Message :=
  Connection.acknowledgement id :: Connection.answers id 0 (requests longest lines).1

theorem isSuccess_answer (id : SessionId) (n : Nat) (request : String) :
    (Connection.answer id n request).status.isSuccess = true ↔ request = Connection.heartbeat := by
  unfold Connection.answer
  by_cases beats : request = Connection.heartbeat
  · simp [beats, Status.isSuccess]
  · simp [beats, Status.isSuccess, Status.withDetail, Status.invalidRequest, Status.success]

theorem transcript_answer {id : SessionId} {longest : Nat} {lines : List (List UInt8)} {k : Nat}
    {m : Message} (there : (transcript id longest lines)[k + 1]? = some m) :
    ∃ request, (requests longest lines).1[k]? = some request ∧
      m.header = Connection.answerHeader id (k + 1) ∧
      (m.status.isSuccess = true ↔ request = Connection.heartbeat) := by
  rw [transcript, List.getElem?_cons_succ, Connection.answers, List.getElem?_mapIdx, Nat.zero_add] at there
  obtain ⟨request, asked, rfl⟩ := Option.map_eq_some_iff.mp there
  refine ⟨request, asked, ?_, isSuccess_answer id (k + 1) request⟩
  unfold Connection.answer
  split <;> rfl

/-- A connection with the hub, and the bytes of its client that have not arrived yet. -/
structure Exchange where
  connection : Connection
  hub : Hub
  coming : List UInt8

namespace Exchange

@[simp]
def start (name host : String) (longest : Nat) (h : Hub) (bytes : List UInt8) : Exchange :=
  ⟨.start name host longest, h, bytes⟩

def arrive (x : Exchange) (n : Nat) : Exchange :=
  { x with
    connection := { x.connection with incoming := x.connection.incoming.add (x.coming.take n) }
    coming := x.coming.drop n }

def ended (x : Exchange) : Exchange :=
  { x with
    connection := { x.connection with incoming := { x.connection.incoming with ended := true } } }

def hear (x : Exchange) (n : Notice) : Exchange :=
  if n.caller = x.connection.caller then
    let (connection, hub) := x.connection.notified x.hub n.outcome
    { x with connection, hub }
  else x

def move (x : Exchange) (key : Key) (l : Lane) (told : List Notice) : Exchange :=
  told.foldl hear { x with hub := x.hub.setLane key l }

def change (x : Exchange) (key : Key) (f : Socket → Socket) : Exchange :=
  { x with
    hub := { x.hub with lanes := x.hub.lanes.modify key (Scenario.World.changeSocket f) } }

/-- What brings an exchange on: bytes of the client or their end come in, the connection does what it
can do next, or the lane of its session does. -/
inductive Advance (id : SessionId) (x : Exchange) : Exchange → Prop
  | arrives (n : Nat) (some : 0 < n) (there : n ≤ x.coming.length) : Advance id x (x.arrive n)
  | ends (all : x.coming = []) (still : x.connection.incoming.ended = false) : Advance id x x.ended
  | serves (capacity : Nat) (reader : Reader) (there : reader.isGone = false) (now : Nat)
      (r : Connection × Hub) (did : x.connection.Serves x.hub id (.start capacity reader) now r) :
      Advance id x { x with connection := r.1, hub := r.2 }
  | works (seat : Seat) (own : x.connection.phase.seat? = some seat) (l : Lane)
      (lane : x.hub.lane? seat.key = some l) (now : Nat) (l' : Lane) (told : List Notice)
      (did : l.act? now = some (l', told)) : Advance id x (x.move seat.key l' told)

structure Apart (id : SessionId) (x : Exchange) (h : Hub) : Prop where
  entry : h.entry? id = x.hub.entry? id
  lane : ∀ seat, x.connection.phase.seat? = some seat → h.lane? seat.key = x.hub.lane? seat.key

inductive Step (id : SessionId) (x : Exchange) : Exchange → Prop
  | advances {y : Exchange} (advance : Advance id x y) : Step id x y
  | turns (seat : Seat) (own : x.connection.phase.seat? = some seat) (reader : Reader)
      (there : reader.isGone = false) : Step id x (x.change seat.key (·.setReader reader))
  | reads (seat : Seat) (own : x.connection.phase.seat? = some seat) :
      Step id x (x.change seat.key Socket.readAll)
  | others (h : Hub) (apart : Apart id x h) : Step id x { x with hub := h }

def effort (x : Exchange) : Nat :=
  9 * x.coming.length + 8 * x.connection.incoming.bytes.length +
    (!x.connection.incoming.ended).toNat + (!x.connection.phase.isOver).toNat +
    ((x.connection.phase.seat?.bind fun seat => x.hub.lane? seat.key).map Lane.effort).getD 0

/-- What is still to be said after the messages `before`, when `n` requests have been read. -/
structure Promises (id : SessionId) (all : List Message) (failure : Option LineError) (x : Exchange)
    (n : Nat) (before : List Message) : Prop where
  said : all = before ++ Connection.answers id n
    (requests x.connection.maxRequest (linesOf (x.connection.incoming.bytes ++ x.coming))).1
  failure : failure =
    (requests x.connection.maxRequest (linesOf (x.connection.incoming.bytes ++ x.coming))).2

/-- A connection that attends to its session after so many requests, with or without a message under
way. -/
inductive Attends (seat : Seat) : Phase → Nat → Option Message → Prop
  | acknowledging (m : Message) : Attends seat (.acknowledging seat) 0 (some m)
  | serving (n : Nat) : Attends seat (.serving seat n) n none
  | answering (n : Nat) (m : Message) : Attends seat (.answering seat n) n (some m)

inductive Stage (id : SessionId) (all : List Message) (failure : Option LineError) (x : Exchange) :
    Prop
  | greeting (phase : x.connection.phase = .greeting) (free : x.hub.entry? id = none)
      (first : List UInt8) (rest : List (List UInt8)) (text : String) (client : Client)
      (lines : linesOf (x.connection.incoming.bytes ++ x.coming) = first :: rest)
      (readable : readLine x.connection.maxRequest first = .ok text)
      (valid : Client.decode text = .ok client)
      (said : all = transcript id x.connection.maxRequest rest)
      (fails : failure = (requests x.connection.maxRequest rest).2)
  | attending (key : Key) (n : Nat) (due : Option Message)
      (attends : Attends ⟨id, key⟩ x.connection.phase n due)
      (entry : x.hub.entry? id = some ⟨id, key⟩) (l : Lane) (lane : x.hub.lane? key = some l)
      (socket : Socket) (sent : List Message)
      (delivers : Delivers x.connection.caller l socket sent due)
      (promises : Promises id all failure x n (sent ++ due.toList))
  | closed (key : Key)
      (phase : x.connection.phase = .over (some ⟨id, key⟩) (failure.map .unreadRequest)) (l : Lane)
      (lane : x.hub.lane? key = some l) (socket : Socket) (rests : Rests l socket all)

structure Gains (id : SessionId) (all : List Message) (failure : Option LineError) (x y : Exchange) :
    Prop where
  stage : Stage id all failure y
  less : y.effort < x.effort

structure Sound (id : SessionId) (longest : Nat) (all : List Message) (failure : Option LineError)
    (x : Exchange) : Prop where
  longest : x.connection.maxRequest = longest
  whole : x.connection.incoming.ended = true → x.coming = []
  stage : Stage id all failure x

end Exchange

namespace Connection

variable {c : Connection} {h : Hub} {seat : Seat} {l : Lane} {socket : Socket} {sent : List Message}

theorem send_idle (entry : h.entry? seat.id = some ⟨seat.id, seat.key⟩)
    (lane : h.lane? seat.key = some l) (delivers : Delivers c.caller l socket sent none) (m : Message)
    (now : Nat) : c.send h seat m now = (c, h.setLane seat.key
      { l with session := { l.session with queue := [⟨c.caller, m.encode⟩] } }) := by
  have live : h.isLive seat.key = true := (Hub.isLive_of_lane lane).trans delivers.live
  have found : h.lookup seat.id = some seat.key := by
    simp only [Hub.lookup, entry, Option.map_some, Option.filter, live, if_true]
  have offered : h.offer seat.key ⟨c.caller, m.encode⟩ .endless false now = (h.setLane seat.key
      { l with session := { l.session with queue := [⟨c.caller, m.encode⟩] } }, none) := by
    simp only [Hub.offer, lane, (delivers.offer m now).1]
  simp only [send, Hub.route, found, offered]

theorem effort_queued (delivers : Delivers c.caller l socket sent none) (p : Parcel) :
    Lane.effort { l with session := { l.session with queue := [p] } } = l.effort + 3 := by
  obtain ⟨part, underway, _⟩ := delivers.bytes
  cases underway with
  | idle writer queue stage =>
    simp only [Lane.effort, writer, queue, delivers.waiting, List.length_singleton, List.length_nil]
    omega

structure Asks (c : Connection) (h : Hub) (seat : Seat) (n : Nat) (l : Lane) (socket : Socket)
    (sent : List Message) (m : Message) (r : Connection × Hub) : Prop where
  connection : r.1 = { c with phase := .answering seat n }
  entry : Hub.entry? r.2 seat.id = h.entry? seat.id
  lane : ∃ l', r.2.lane? seat.key = some l' ∧ Delivers c.caller l' socket sent (some m) ∧
    l'.effort = l.effort + 3

theorem asks_send (n : Nat) (entry : h.entry? seat.id = some ⟨seat.id, seat.key⟩)
    (lane : h.lane? seat.key = some l) (delivers : Delivers c.caller l socket sent none)
    (m : Message) (now : Nat) :
    c.Asks h seat n l socket sent m
      (send { c with phase := .answering seat n } h seat m now) := by
  have sends := send_idle (c := { c with phase := .answering seat n }) entry lane delivers m now
  rw [sends]
  exact ⟨rfl, rfl, _, Hub.lane?_setLane_self lane _, (delivers.offer m now).2,
    effort_queued delivers _⟩

theorem asks_request (seat : Seat) (entry : h.entry? seat.id = some ⟨seat.id, seat.key⟩)
    (lane : h.lane? seat.key = some l) (delivers : Delivers c.caller l socket sent none) (n : Nat)
    (text : String) (now : Nat) :
    c.Asks h seat n l socket sent (answer seat.id n text) (c.request h seat n text now) := by
  unfold request answer
  by_cases beats : (text == heartbeat) = true
  · simp only [beats, if_true, Hub.touch, entry]
    have touched := Hub.lane?_updateSession lane (·.touch now)
    exact { asks_send n (h := h.updateSession seat.key (·.touch now)) entry touched
      (delivers.touch now) _ now with }
  · simp only [beats, Bool.false_eq_true, if_false]
    exact asks_send n entry lane delivers _ now

end Connection

namespace Exchange

variable {id : SessionId} {longest : Nat} {all : List Message} {failure : Option LineError}
  {x y : Exchange}

theorem Attends.seat? {seat : Seat} {phase : Phase} {n : Nat} {due : Option Message}
    (attends : Attends seat phase n due) : phase.seat? = some seat := by
  cases attends <;> rfl

theorem Stage.moved (stage : Stage id all failure x) (name : y.connection.name = x.connection.name)
    (limit : y.connection.maxRequest = x.connection.maxRequest)
    (phase : y.connection.phase = x.connection.phase) (hub : y.hub = x.hub)
    (bytes : y.connection.incoming.bytes ++ y.coming = x.connection.incoming.bytes ++ x.coming) :
    Stage id all failure y := by
  have caller : y.connection.caller = x.connection.caller := congrArg Caller.connection name
  cases stage with
  | greeting here free first rest text client lines readable valid said fails =>
    exact .greeting (phase.trans here) (hub ▸ free) first rest text client (bytes ▸ lines)
      (limit ▸ readable) valid (limit ▸ said) (limit ▸ fails)
  | attending key n due attends entry l lane socket sent delivers promises =>
    obtain ⟨said, fails⟩ := promises
    exact .attending key n due (phase ▸ attends) (hub ▸ entry) l (hub ▸ lane) socket sent
      (caller ▸ delivers) ⟨by rw [bytes, limit]; exact said, by rw [bytes, limit]; exact fails⟩
  | closed key here l lane socket rests =>
    exact .closed key (phase.trans here) l (hub ▸ lane) socket rests

theorem Sound.arrive (sound : Sound id longest all failure x) (n : Nat)
    (there : n ≤ x.coming.length) (some : 0 < n) : Sound id longest all failure (x.arrive n) where
  longest := sound.longest
  whole ended := by
    have none := sound.whole ended
    simp [none] at there
    omega
  stage := sound.stage.moved rfl rfl rfl rfl (by simp [Exchange.arrive, Incoming.add])

theorem Sound.ended (sound : Sound id longest all failure x) (all_ : x.coming = []) :
    Sound id longest all failure x.ended :=
  ⟨sound.longest, fun _ => all_, sound.stage.moved rfl rfl rfl rfl rfl⟩

theorem delivers_welcomed (c : Connection) (h : Hub) (client : Client) (capacity : Nat)
    {reader : Reader} (there : reader.isGone = false) (now : Nat) :
    Delivers c.caller (c.welcomed h id client (.start capacity reader) now) (.start capacity reader) []
      (some (Connection.acknowledgement id)) where
  stream := rfl
  reads := there
  flushes := rfl
  room := Nat.lt_of_lt_of_le Nat.one_pos (Nat.le_max_right _ _)
  live := rfl
  taking := rfl
  stays := rfl
  held := rfl
  waiting := rfl
  bytes := ⟨[], .queued _ rfl rfl rfl, rfl⟩

theorem effort_welcomed (c : Connection) (h : Hub) (client : Client) (socket : Socket) (now : Nat) :
    (c.welcomed h id client socket now).effort = 7 := rfl

theorem Stage.greets (limit : 0 < x.connection.maxRequest)
    (whole : x.connection.incoming.ended = true → x.coming = [])
    (phase : x.connection.phase = .greeting) (stage : Stage id all failure x) {capacity : Nat}
    {reader : Reader} (there : reader.isGone = false) {now : Nat} {r : Connection × Hub}
    (did : x.connection.readHandshake? x.hub id (.start capacity reader) now = some r) :
    Gains id all failure x { x with connection := r.1, hub := r.2 } := by
  cases stage with
  | attending key n due attends =>
    rw [phase] at attends
    cases attends
  | closed key here => simp [phase] at here
  | greeting _ free first rest text client lines readable valid said fails =>
    cases Connection.readHandshake?_greeting phase free did with
    | welcomes text' left client' read greeted =>
      obtain ⟨line, next, _, ended⟩ := Incoming.next_line read x.coming whole
      obtain ⟨rfl, rfl⟩ := List.cons.inj (lines.symm.trans next)
      have lane := Hub.lane?_seated x.hub
        (x.connection.welcomed x.hub id client' (.start capacity reader) now)
      refine ⟨.attending x.hub.lanes.length 0 _ (.acknowledging _) (Hub.entry_seated free) _ lane _ []
        (delivers_welcomed x.connection x.hub client' capacity there now) ⟨said, fails⟩, ?_⟩
      have shorter := Incoming.next_shorter read
      simp only [effort, phase, Phase.seat?, Phase.isOver, Option.bind_some, lane, Option.map_some,
        Option.getD_some, Option.bind_none, Option.map_none, Option.getD_none, ended,
        effort_welcomed]
      omega
    | refuses text' left e read refused =>
      obtain ⟨line, next, same, _⟩ := Incoming.next_line read x.coming whole
      obtain ⟨rfl, rfl⟩ := List.cons.inj (lines.symm.trans next)
      obtain rfl := Except.ok.inj (readable.symm.trans same)
      simp [Connection.greet, valid] at refused
    | unread e read =>
      obtain ⟨line, later, next, failed⟩ :=
        (Incoming.next_error read x.coming whole).resolve_right (by omega)
      obtain ⟨rfl, rfl⟩ := List.cons.inj (lines.symm.trans next)
      simp [readable] at failed
    | missing read =>
      obtain ⟨ended, none⟩ := Incoming.next_finished read
      rw [whole ended, List.append_nil, none] at lines
      simp at lines

theorem gains_finish (failure : Option LineError) {key : Key} {n : Nat} {l : Lane} {socket : Socket}
    (phase : x.connection.phase = .serving ⟨id, key⟩ n) (entry : x.hub.entry? id = some ⟨id, key⟩)
    (lane : x.hub.lane? key = some l) (delivers : Delivers x.connection.caller l socket all none) :
    Gains id all failure x { x with
      connection := (x.connection.finish x.hub (failure.map .unreadRequest)).1
      hub := (x.connection.finish x.hub (failure.map .unreadRequest)).2 } := by
  have removed : (x.hub.remove id .disconnected).1.lane? key =
      some { l with session := l.session.close } := by
    simp only [Hub.remove, entry, Hub.takeOut, Hub.close]
    exact Hub.lane?_updateSession lane Session.close
  simp only [Connection.finish, phase, Phase.seat?]
  refine ⟨.closed key rfl _ removed socket delivers.close, ?_⟩
  simp only [effort, phase, Phase.seat?, Phase.isOver, Option.bind_some, removed, lane,
    Option.map_some, Option.getD_some, Lane.effort_close, Bool.not_true, Bool.not_false, Bool.toNat_true,
    Bool.toNat_false]
  omega

theorem Stage.serving {seat : Seat} {n : Nat} (phase : x.connection.phase = .serving seat n)
    (stage : Stage id all failure x) : ∃ key l socket sent, seat = ⟨id, key⟩ ∧
      x.hub.entry? id = some ⟨id, key⟩ ∧ x.hub.lane? key = some l ∧
      Delivers x.connection.caller l socket sent none ∧ Promises id all failure x n sent := by
  cases stage with
  | greeting here => simp [here] at phase
  | closed key here => simp [here] at phase
  | attending key k due attends entry l lane socket sent delivers promises =>
    rw [phase] at attends
    cases attends
    rw [Option.toList_none, List.append_nil] at promises
    exact ⟨key, l, socket, sent, rfl, entry, lane, delivers, promises⟩

theorem Stage.reads (limit : 0 < x.connection.maxRequest)
    (whole : x.connection.incoming.ended = true → x.coming = []) {seat : Seat} {n : Nat}
    (phase : x.connection.phase = .serving seat n) (stage : Stage id all failure x) {now : Nat}
    {r : Connection × Hub} (did : x.connection.readRequest? x.hub seat n now = some r) :
    Gains id all failure x { x with connection := r.1, hub := r.2 } := by
  obtain ⟨key, l, socket, sent, rfl, entry, lane, delivers, said, fails⟩ := stage.serving phase
  unfold Connection.readRequest? at did
  cases read : x.connection.incoming.next x.connection.maxRequest with
  | pending => simp [read] at did
  | finished =>
    obtain ⟨ended, nothing⟩ := Incoming.next_finished read
    -- no line is left, so all has been said
    rw [whole ended, List.append_nil, nothing] at said fails
    obtain rfl : all = sent := said.trans (List.append_nil _)
    simp only [read, Option.some.injEq] at did
    subst did fails
    exact gains_finish none phase entry lane delivers
  | error e =>
    obtain ⟨line, later, next, failed⟩ :=
      (Incoming.next_error read x.coming whole).resolve_right (by omega)
    rw [next, requests_error later failed] at said fails
    obtain rfl : all = sent := said.trans (List.append_nil _)
    simp only [read, Option.some.injEq] at did
    subst did fails
    exact gains_finish (some e) phase entry lane delivers
  | line text rest =>
    obtain ⟨line, next, readable, ended⟩ := Incoming.next_line read x.coming whole
    have shorter := Incoming.next_shorter read
    simp only [read] at did
    cases blank : Text.trim text == "" with
    | true =>
      rw [next, requests_blank _ readable blank] at said fails
      simp only [blank, if_true, Option.some.injEq] at did
      subst did
      refine ⟨.attending key n none ?_ entry l lane socket sent delivers ⟨by simpa using said, fails⟩,
        ?_⟩
      · rw [phase]
        exact .serving n
      · simp only [effort, ended]
        omega
    | false =>
      rw [next, requests_line _ readable blank] at said fails
      simp only [blank, Bool.false_eq_true, if_false, Option.some.injEq] at did
      have asks := Connection.asks_request (c := { x.connection with incoming := rest }) ⟨id, key⟩
        entry lane delivers (n + 1) (Text.trim text) now
      rw [did] at asks
      obtain ⟨c, h⟩ := r
      obtain ⟨connection, entry', l', lane', delivers', more⟩ := asks
      obtain rfl : c = _ := connection
      refine ⟨.attending key (n + 1) _ (.answering (n + 1) _) (entry'.trans entry) l' lane' socket sent
        delivers' ⟨?_, fails⟩, ?_⟩
      · rw [said, Connection.answers_cons]
        simp
      · simp only [effort, phase, Phase.seat?, Phase.isOver, Option.bind_some, lane, lane',
          Option.map_some, Option.getD_some, more, ended]
        omega

theorem Stage.sees {seat : Seat} {n : Nat} (phase : x.connection.phase = .serving seat n)
    (stage : Stage id all failure x) : x.connection.seeClosing? x.hub seat = none := by
  obtain ⟨key, l, socket, sent, rfl, _, lane, delivers, _⟩ := stage.serving phase
  simp [Connection.seeClosing?, lane, delivers.stays]

theorem Stage.free (stage : Stage id all failure x) (phase : x.connection.phase = .greeting) :
    x.hub.entry? id = none := by
  cases stage with
  | greeting _ free => exact free
  | closed key here => simp [phase] at here
  | attending key n due attends =>
    rw [phase] at attends
    cases attends

theorem Sound.serves (positive : 0 < longest) (sound : Sound id longest all failure x)
    {capacity : Nat} {reader : Reader} (there : reader.isGone = false) {now : Nat}
    {r : Connection × Hub}
    (did : x.connection.Serves x.hub id (.start capacity reader) now r) :
    x.connection.Frames r.1 ∧ Gains id all failure x { x with connection := r.1, hub := r.2 } := by
  have limit : 0 < x.connection.maxRequest := sound.longest ▸ positive
  refine ⟨did.frames sound.stage.free, ?_⟩
  cases did with
  | greets phase did => exact sound.stage.greets limit sound.whole phase there did
  | sees seat n phase did => simp [sound.stage.sees phase] at did
  | reads seat n phase did => exact sound.stage.reads limit sound.whole phase did

structure Moves (x : Exchange) (key : Key) (l : Lane) (y : Exchange) : Prop where
  moves : ∃ phase, y = ⟨{ x.connection with phase }, x.hub.setLane key l, x.coming⟩ ∧
    phase.seat? = x.connection.phase.seat? ∧ phase.isOver = x.connection.phase.isOver

theorem Moves.effort_lt {key : Key} {l l' : Lane} (moves : x.Moves key l' y) {seat : Seat}
    (own : x.connection.phase.seat? = some seat) (same : seat.key = key)
    (lane : x.hub.lane? key = some l) (less : l'.effort < l.effort) : y.effort < x.effort := by
  obtain ⟨phase, rfl, seated, ended⟩ := moves
  simp only [effort, seated, own, ended, same, Option.bind_some, lane, Hub.lane?_setLane_self lane,
    Option.map_some, Option.getD_some]
  omega

theorem moves_nil (x : Exchange) (key : Key) (l : Lane) : x.Moves key l (x.move key l []) :=
  ⟨x.connection.phase, rfl, rfl, rfl⟩

/-- The lane begins to write what is due, or the connection hears that it is written. -/
theorem Stage.works (fits : ∀ m ∈ all, m.Fits) (stage : Stage id all failure x) {seat : Seat}
    (own : x.connection.phase.seat? = some seat) {l : Lane} (lane : x.hub.lane? seat.key = some l)
    {now : Nat} {l' : Lane} {told : List Notice} (did : l.act? now = some (l', told)) :
    x.Moves seat.key l' (x.move seat.key l' told) ∧ Stage id all failure (x.move seat.key l' told) := by
  have moved : (x.hub.setLane seat.key l').lane? seat.key = some l' := Hub.lane?_setLane_self lane l'
  cases stage with
  | greeting here => simp [here] at own
  | closed key here k lane' socket rests =>
    simp only [here, Phase.seat?, Option.some.injEq] at own
    subst own
    obtain rfl := Option.some.inj (lane.symm.trans lane')
    obtain ⟨rfl, socket', rests'⟩ := rests.act? did
    exact ⟨x.moves_nil key l', .closed key here l' moved socket' rests'⟩
  | attending key n due attends entry k lane' socket sent delivers promises =>
    obtain rfl := Option.some.inj (attends.seat?.symm.trans own)
    obtain rfl := Option.some.inj (lane.symm.trans lane')
    obtain ⟨said, fails⟩ := promises
    have small (m : Message) (here : due = some m) : m.Fits := fits m (by simp [said, here])
    obtain ⟨m, rfl, act⟩ := delivers.act? small did
    cases act with
    | begins socket' delivers' =>
      exact ⟨x.moves_nil key l',
        .attending key n (some m) attends entry l' moved socket' sent delivers' ⟨said, fails⟩⟩
    | wrote socket' k delivers' =>
      have phase : x.connection.phase = .acknowledging ⟨id, key⟩ ∧ n = 0 ∨
          x.connection.phase = .answering ⟨id, key⟩ n := by
        generalize x.connection.phase = phase at attends
        cases attends <;> simp
      have hears : x.move key l' [⟨x.connection.caller, .written k⟩] =
          ⟨{ x.connection with phase := .serving ⟨id, key⟩ n }, x.hub.setLane key l', x.coming⟩ := by
        rcases phase with ⟨phase, rfl⟩ | phase <;>
          simp [move, hear, Connection.caller, Connection.notified, phase, Hub.conclude, Hub.answer,
            Connection.acknowledged, Connection.answered]
      rw [hears]
      refine ⟨⟨_, rfl, own.symm, ?_⟩, .attending key n none (.serving n) entry l' moved socket'
        (sent ++ [m]) delivers' ⟨by simpa using said, fails⟩⟩
      rcases phase with ⟨phase, _⟩ | phase <;> rw [phase] <;> rfl

theorem lane?_change {key : Key} {l : Lane} {socket : Socket} (lane : x.hub.lane? key = some l)
    (stream : l.stream = .socket socket) (f : Socket → Socket) :
    (x.change key f).hub.lane? key = some { l with stream := .socket (f socket) } := by
  refine (Hub.lane?_modify _ key _ key).trans ?_
  rw [lane, Option.map_some, if_pos rfl, Scenario.World.changeSocket, stream]

theorem Stage.change (stage : Stage id all failure x) {seat : Seat}
    (own : x.connection.phase.seat? = some seat) (f : Socket → Socket)
    (delivers : ∀ l socket sent due, Delivers x.connection.caller l socket sent due →
      Delivers x.connection.caller { l with stream := .socket (f socket) } (f socket) sent due)
    (rests : ∀ l socket sent, Rests l socket sent →
      Rests { l with stream := .socket (f socket) } (f socket) sent) :
    Stage id all failure (x.change seat.key f) := by
  cases stage with
  | greeting here => simp [here] at own
  | attending key n due attends entry l lane socket sent there promises =>
    obtain rfl := Option.some.inj (attends.seat?.symm.trans own)
    exact .attending key n due attends entry _ (lane?_change lane there.stream f) (f socket) sent
      (delivers l socket sent due there) ⟨promises.said, promises.failure⟩
  | closed key here l lane socket there =>
    simp only [here, Phase.seat?, Option.some.injEq] at own
    subst own
    exact .closed key here _ (lane?_change lane there.stream f) (f socket) (rests l socket all there)

theorem Stage.apart (stage : Stage id all failure x) {h : Hub} (apart : Apart id x h) :
    Stage id all failure { x with hub := h } := by
  cases stage with
  | greeting here free first rest text client lines readable valid said fails =>
    exact .greeting here (apart.entry.trans free) first rest text client lines readable valid said fails
  | attending key n due attends entry l lane socket sent delivers promises =>
    exact .attending key n due attends (apart.entry.trans entry) l
      ((apart.lane _ attends.seat?).trans lane) socket sent delivers
      ⟨promises.said, promises.failure⟩
  | closed key here l lane socket rests =>
    have own : x.connection.phase.seat? = some ⟨id, key⟩ := by rw [here, Phase.seat?]
    exact .closed key here l ((apart.lane _ own).trans lane) socket rests

theorem Advance.sound (positive : 0 < longest) (fits : ∀ m ∈ all, m.Fits) (advance : Advance id x y)
    (sound : Sound id longest all failure x) :
    Sound id longest all failure y ∧ y.effort < x.effort := by
  cases advance with
  | arrives n some there =>
    refine ⟨sound.arrive n there some, ?_⟩
    simp only [effort, arrive, Incoming.add, List.length_append, List.length_take, List.length_drop]
    omega
  | ends all still =>
    refine ⟨sound.ended all, ?_⟩
    simp [effort, ended, still]
  | serves capacity reader there now r did =>
    obtain ⟨frames, stage, less⟩ := sound.serves positive there did
    exact ⟨⟨frames.maxRequest.trans sound.longest,
      fun ended => sound.whole (frames.ended.symm.trans ended), stage⟩, less⟩
  | works seat own l lane now l' told did =>
    obtain ⟨moves, stage⟩ := sound.stage.works fits own lane did
    have less := moves.effort_lt own rfl lane (Lane.effort_act? did)
    obtain ⟨phase, moved, _, _⟩ := moves
    rw [moved] at stage less ⊢
    exact ⟨⟨sound.longest, sound.whole, stage⟩, less⟩

theorem effort_changeSocket (l : Lane) (f : Socket → Socket) :
    (Scenario.World.changeSocket f l).effort = l.effort := by
  unfold Scenario.World.changeSocket
  cases stream : l.stream with
  | probe p => rfl
  | socket s => simp [Lane.effort, stream, Stream.isHeld]

theorem effort_change (x : Exchange) (key : Key) (f : Socket → Socket) :
    (x.change key f).effort = x.effort := by
  have lane (k : Key) : ((x.change key f).hub.lane? k).map Lane.effort =
      (x.hub.lane? k).map Lane.effort := by
    rw [change, Hub.lane?_modify, Option.map_map]
    congr 1
    funext l
    by_cases same : key = k <;> simp [same, effort_changeSocket]
  simp only [effort, Option.map_bind, Function.comp_def, lane]
  rfl

theorem Step.sound (positive : 0 < longest) (fits : ∀ m ∈ all, m.Fits) (step : Step id x y)
    (sound : Sound id longest all failure x) :
    Sound id longest all failure y ∧ y.effort ≤ x.effort := by
  cases step with
  | advances advance =>
    obtain ⟨sound, less⟩ := advance.sound positive fits sound
    exact ⟨sound, less.le⟩
  | turns seat own reader there =>
    exact ⟨⟨sound.longest, sound.whole, sound.stage.change own _
      (fun _ _ _ _ delivers => delivers.setReader there) (fun _ _ _ rests => rests.setReader reader)⟩,
      (x.effort_change seat.key _).le⟩
  | reads seat own =>
    exact ⟨⟨sound.longest, sound.whole, sound.stage.change own _
      (fun _ _ _ _ delivers => delivers.readAll) (fun _ _ _ rests => rests.readAll)⟩,
      (x.effort_change seat.key _).le⟩
  | others h apart =>
    refine ⟨⟨sound.longest, sound.whole, sound.stage.apart apart⟩, ?_⟩
    cases own : x.connection.phase.seat? with
    | none => simp [effort, own]
    | some seat => simp [effort, own, apart.lane seat own]

theorem Sound.run (positive : 0 < longest) (fits : ∀ m ∈ all, m.Fits)
    (sound : Sound id longest all failure x) (run : ReflTransGen (Step id) x y) :
    Sound id longest all failure y ∧ y.effort ≤ x.effort := by
  induction run with
  | refl => exact ⟨sound, le_rfl⟩
  | tail _ step ih =>
    obtain ⟨sound, less⟩ := step.sound positive fits ih.1
    exact ⟨sound, less.trans ih.2⟩

end Exchange

end Courier
