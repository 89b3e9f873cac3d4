import Courier.Connection
import Courier.Proofs.Framing
import Courier.Proofs.Lane
import Courier.Proofs.Message

set_option autoImplicit false

namespace Courier

/-- The bytes of the frames of messages. -/
def frames (messages : List Message) : List UInt8 :=
  encodings (messages.map fun m => m.encode.toUTF8)

theorem frames_concat (messages : List Message) (m : Message) :
    frames (messages ++ [m]) = frames messages ++ encoding m.encode.toUTF8 := by
  simp [frames, encodings]

theorem frames_append (before after : List Message) :
    frames (before ++ after) = frames before ++ frames after := by
  simp [frames, encodings]

def Message.Fits (m : Message) : Prop := m.encode.toUTF8.size ≤ defaultFrameLimit

theorem Message.fits_correlated {id : String} {status : Status}
    (short : 6 * (id.utf8ByteSize + status.code.utf8ByteSize + status.text.utf8ByteSize) + 900 ≤
      defaultFrameLimit) : (Message.mk (.correlated id) status).Fits :=
  Nat.le_trans (Message.size_correlated id status) short

theorem Message.Fits.accepted {m : Message} (fits : m.Fits) :
    oversized? defaultFrameLimit m.encode.toUTF8 = none := by
  have small : m.encode.toUTF8.size < UInt32.size := by
    have limit : defaultFrameLimit < UInt32.size := by decide
    exact Nat.lt_of_le_of_lt fits limit
  rw [oversized?, if_neg (Nat.not_lt.mpr fits), if_neg (Nat.not_le.mpr small)]

theorem Socket.setReader_idle (s : Socket) (idle : s.stage = .idle) (reader : Reader) :
    s.setReader reader = { s with reader } := by
  simp [setReader, absorb, idle]

/-- Where the message under way is, and what is on the stream of it. -/
inductive Underway (caller : Caller) (session : Session) (socket : Socket) :
    Option Message → List UInt8 → Prop
  | idle (writer : session.writer = .idle) (queue : session.queue = [])
      (stage : socket.stage = .idle) : Underway caller session socket none []
  | queued (m : Message) (writer : session.writer = .idle)
      (queue : session.queue = [⟨caller, m.encode⟩]) (stage : socket.stage = .idle) :
      Underway caller session socket (some m) []
  | writing (m : Message) (since : Nat) (writer : session.writer = .writing ⟨caller, m.encode⟩ since)
      (queue : session.queue = []) (shipment : Shipment) (stage : socket.stage = .sending shipment)
      (bytes : shipment.bytes = frameBytes m.encode.toUTF8)
      (flows : socket.reader = .reading → shipment.isDone = true) :
      Underway caller session socket (some m) shipment.sent

/-- A session that is open, and a socket that does not fail. -/
structure Delivers (caller : Caller) (l : Lane) (socket : Socket) (sent : List Message)
    (due : Option Message) : Prop where
  stream : l.stream = .socket socket
  reads : socket.reader.isGone = false
  flushes : socket.flushFault = none
  room : 0 < l.session.capacity
  live : l.session.isLive = true
  taking : l.session.intake = true
  stays : l.session.closing = false
  held : l.session.orphaned = false
  waiting : l.session.waiting = []
  bytes : ∃ part, Underway caller l.session socket due part ∧
    socket.taken.data.toList = frames sent ++ part

namespace Delivers

variable {caller : Caller} {l : Lane} {socket : Socket} {sent : List Message} {due : Option Message}

theorem taken_prefix (delivers : Delivers caller l socket sent due) :
    socket.taken.data.toList <+: frames (sent ++ due.toList) := by
  obtain ⟨part, underway, taken⟩ := delivers.bytes
  rw [taken, frames_append]
  refine (List.prefix_append_right_inj _).mpr ?_
  cases underway with
  | idle | queued => exact List.nil_prefix
  | writing m since writer queue shipment stage bytes flows =>
    have whole : frames (some m).toList = shipment.bytes.data.toList := by
      simp [frames, encodings, encoding, bytes]
    rw [whole]
    exact List.take_prefix _ _

theorem absorbed {t : Socket} {shipment : Shipment} (stage : t.stage = .sending shipment)
    {written : List UInt8} (taken : t.taken.data.toList = written ++ shipment.sent) :
    ∃ shipment', t.absorb.stage = .sending shipment' ∧ shipment'.bytes = shipment.bytes ∧
      t.absorb.taken.data.toList = written ++ shipment'.sent ∧
      (t.reader = .reading → shipment'.isDone = true) ∧
      t.absorb.reader = t.reader ∧ t.absorb.flushFault = t.flushFault := by
  have absorb : t.absorb = { t with
      taken := t.taken ++ shipment.portion (t.room shipment.left)
      stage := .sending (shipment.advance (t.room shipment.left)) } := by
    simp only [Socket.absorb, stage]
  rw [absorb]
  refine ⟨_, rfl, rfl, ?_, fun reading => ?_, rfl, rfl⟩
  · rw [shipment.sent_advance, ← List.append_assoc, ← taken]
    simp
  · have all : t.room shipment.left = shipment.left := by simp only [Socket.room, reading]
    simp [Shipment.isDone, shipment.left_advance, all]

theorem setReader (delivers : Delivers caller l socket sent due) {reader : Reader}
    (reads : reader.isGone = false) :
    Delivers caller { l with stream := .socket (socket.setReader reader) }
      (socket.setReader reader) sent due := by
  obtain ⟨part, underway, taken⟩ := delivers.bytes
  cases underway with
  | idle writer queue stage =>
    rw [socket.setReader_idle stage]
    exact { delivers with
      stream := rfl, reads := reads, bytes := ⟨[], .idle writer queue stage, taken⟩ }
  | queued m writer queue stage =>
    rw [socket.setReader_idle stage]
    exact { delivers with
      stream := rfl, reads := reads, bytes := ⟨[], .queued m writer queue stage, taken⟩ }
  | writing m since writer queue shipment stage bytes flows =>
    obtain ⟨shipment', stage', bytes', taken', flows', reader', fault'⟩ :=
      absorbed (t := { socket with reader }) stage taken
    exact { delivers with
      stream := rfl
      reads := by
        rw [Socket.setReader, reader']
        exact reads
      flushes := fault'.trans delivers.flushes
      bytes := ⟨_, .writing m since writer queue shipment' stage' (bytes'.trans bytes)
        (fun reading => flows' (reader'.symm.trans reading)), taken'⟩ }

theorem readAll (delivers : Delivers caller l socket sent due) :
    Delivers caller { l with stream := .socket socket.readAll } socket.readAll sent due := by
  obtain ⟨part, underway, taken⟩ := delivers.bytes
  refine { delivers with stream := rfl, bytes := ⟨part, ?_, taken⟩ }
  cases underway with
  | idle writer queue stage => exact .idle writer queue stage
  | queued m writer queue stage => exact .queued m writer queue stage
  | writing m since writer queue shipment stage bytes flows =>
    exact .writing m since writer queue shipment stage bytes flows

theorem touch (delivers : Delivers caller l socket sent none) (now : Nat) :
    Delivers caller { l with session := l.session.touch now } socket sent none := by
  obtain ⟨part, underway, taken⟩ := delivers.bytes
  cases underway with
  | idle writer queue stage =>
    exact { delivers with bytes := ⟨[], .idle writer queue stage, taken⟩ }

theorem offer (delivers : Delivers caller l socket sent none) (m : Message) (now : Nat) :
    l.session.offer ⟨caller, m.encode⟩ .endless false now =
      ({ l.session with queue := [⟨caller, m.encode⟩] }, none) ∧
    Delivers caller { l with session := { l.session with queue := [⟨caller, m.encode⟩] } } socket sent
      (some m) := by
  obtain ⟨part, underway, taken⟩ := delivers.bytes
  cases underway with
  | idle writer queue stage =>
    refine ⟨?_, { delivers with bytes := ⟨[], .queued m writer rfl stage, taken⟩ }⟩
    simp [Session.offer, delivers.live, delivers.taking, Session.hasRoom, queue, delivers.room]

inductive Act (caller : Caller) (sent : List Message) (m : Message) (l' : Lane) :
    List Notice → Prop
  | begins (socket' : Socket) (delivers : Delivers caller l' socket' sent (some m)) :
      Act caller sent m l' []
  | wrote (socket' : Socket) (n : Nat) (delivers : Delivers caller l' socket' (sent ++ [m]) none) :
      Act caller sent m l' [⟨caller, .written n⟩]

theorem turn?_queued (delivers : Delivers caller l socket sent due) {p : Parcel}
    (writer : l.session.writer = .idle) (queue : l.session.queue = [p]) (now : Nat) :
    l.session.turn? now = some ({ l.session with queue := [], writer := .writing p now }, []) := by
  simp [Session.turn?, writer, queue, delivers.stays, Session.refill, delivers.waiting]

theorem turn?_idle (delivers : Delivers caller l socket sent due)
    (writer : l.session.writer = .idle) (queue : l.session.queue = []) (now : Nat) :
    l.session.turn? now = none := by
  simp [Session.turn?, writer, queue, delivers.stays, delivers.held, delivers.taking]

theorem ending?_writing (delivers : Delivers caller l socket sent due) {shipment : Shipment}
    (stage : socket.stage = .sending shipment) :
    l.stream.ending? = if shipment.isDone then some (.done, .socket socket.abandon) else none := by
  have reads := delivers.reads
  have ending : socket.ending? = if shipment.isDone then some .done else none := by
    have flush : socket.flush = .done := by simp [Socket.flush, delivers.flushes]
    simp only [Socket.ending?, stage, flush]
    cases reader : socket.reader with
    | gone f => simp [reader, Reader.isGone] at reads
    | _ => rfl
  rw [delivers.stream, Stream.ending?, ending]
  cases shipment.isDone <;> rfl

theorem begin {m : Message} (fits : m.Fits) (delivers : Delivers caller l socket sent (some m))
    (taken : socket.taken.data.toList = frames sent) (now : Nat) :
    Delivers caller
      { l with
        session := { l.session with queue := [], writer := .writing ⟨caller, m.encode⟩ now }
        stream := l.stream.begin m.encode } (socket.begin m.encode) sent (some m) := by
  have fresh : socket.taken.data.toList =
      frames sent ++ (Shipment.ofPayload m.encode.toUTF8).sent := by
    rw [taken]
    exact (List.append_nil _).symm
  have begun : socket.begin m.encode =
      { socket with stage := .sending (.ofPayload m.encode.toUTF8) }.absorb := by
    simp only [Socket.begin, fits.accepted]
  obtain ⟨shipment, stage', bytes, taken', flows, reader, fault⟩ :=
    absorbed (t := { socket with stage := .sending (.ofPayload m.encode.toUTF8) }) rfl fresh
  rw [begun]
  exact { delivers with
    stream := by rw [delivers.stream, Stream.begin, begun]
    reads := by
      rw [reader]
      exact delivers.reads
    flushes := fault.trans delivers.flushes
    bytes := ⟨_, .writing m now rfl rfl shipment stage' bytes
      (fun reading => flows (reader.symm.trans reading)), taken'⟩ }

theorem wrote {m : Message} {shipment : Shipment}
    (delivers : Delivers caller l socket sent (some m))
    (queue : l.session.queue = []) (bytes : shipment.bytes = frameBytes m.encode.toUTF8)
    (done : shipment.isDone = true)
    (taken : socket.taken.data.toList = frames sent ++ shipment.sent) :
    Delivers caller
      { l with
        session := { l.session with sequence := l.session.sequence + 1, writer := .idle }
        stream := .socket socket.abandon } socket.abandon (sent ++ [m]) none := by
  refine { delivers with stream := rfl, bytes := ⟨[], .idle rfl queue rfl, ?_⟩ }
  rw [List.append_nil, frames_concat]
  rw [shipment.sent_isDone done, bytes] at taken
  exact taken

theorem act? (delivers : Delivers caller l socket sent due) (fits : ∀ m, due = some m → m.Fits)
    {now : Nat} {l' : Lane} {told : List Notice} (did : l.act? now = some (l', told)) :
    ∃ m, due = some m ∧ Act caller sent m l' told := by
  obtain ⟨part, underway, taken⟩ := delivers.bytes
  cases underway with
  | idle writer queue stage =>
    simp [Lane.act?, writer, delivers.turn?_idle writer queue] at did
  | queued m writer queue stage =>
    simp only [Lane.act?, writer, delivers.turn?_queued writer queue, Option.map_some,
      Option.some.injEq, Prod.mk.injEq] at did
    obtain ⟨rfl, rfl⟩ := did
    rw [List.append_nil] at taken
    exact ⟨m, rfl, .begins _ (delivers.begin (fits m rfl) taken now)⟩
  | writing m since writer queue shipment stage bytes flows =>
    have pass : l.stream.pass? now = none := by rw [delivers.stream, Stream.pass?]
    simp only [Lane.act?, writer, pass, delivers.ending?_writing stage] at did
    cases done : shipment.isDone with
    | false => simp [done] at did
    | true =>
      simp only [done, if_true, Option.some.injEq, Lane.conclude, Session.wrote, writer,
        Prod.mk.injEq] at did
      obtain ⟨rfl, rfl⟩ := did
      exact ⟨m, rfl, .wrote _ _ (delivers.wrote queue bytes done taken)⟩

theorem act?_isSome {m : Message} (delivers : Delivers caller l socket sent (some m))
    (reading : socket.reader = .reading) (now : Nat) : (l.act? now).isSome = true := by
  obtain ⟨part, underway, taken⟩ := delivers.bytes
  cases underway with
  | queued m writer queue stage =>
    simp [Lane.act?, writer, delivers.turn?_queued writer queue]
  | writing m since writer queue shipment stage bytes flows =>
    have pass : l.stream.pass? now = none := by rw [delivers.stream, Stream.pass?]
    simp [Lane.act?, writer, pass, delivers.ending?_writing stage, flows reading]

end Delivers

structure Rests (l : Lane) (socket : Socket) (sent : List Message) : Prop where
  stream : l.stream = .socket socket
  closing : l.session.closing = true
  queue : l.session.queue = []
  waiting : l.session.waiting = []
  still : l.session.inFlight = []
  stage : socket.stage = .idle
  taken : socket.taken.data.toList = frames sent

theorem Delivers.close {caller : Caller} {l : Lane} {socket : Socket} {sent : List Message}
    (delivers : Delivers caller l socket sent none) :
    Rests { l with session := l.session.close } socket sent := by
  obtain ⟨part, underway, taken⟩ := delivers.bytes
  cases underway with
  | idle writer queue stage =>
    refine ⟨delivers.stream, rfl, queue, delivers.waiting, ?_, stage, ?_⟩
    · simp [Session.inFlight, Session.close, writer]
    · rw [taken, List.append_nil]

namespace Rests

variable {l : Lane} {socket : Socket} {sent : List Message}

theorem act? (rests : Rests l socket sent) {now : Nat} {l' : Lane} {told : List Notice}
    (did : l.act? now = some (l', told)) : told = [] ∧ ∃ socket', Rests l' socket' sent := by
  obtain ⟨stream, closing, queue, waiting, still, stage, taken⟩ := rests
  cases Lane.act?_byItself did with
  | turns writer turn =>
    cases Session.turn_of_turn? turn with
    | shuts =>
      refine ⟨by simp [waiting], socket, ?_⟩
      simp only [Lane.engage, writer]
      exact ⟨stream, closing, queue, rfl, rfl, stage, taken⟩
    | takesUp _ _ _ _ there => simp [queue] at there
    | leaves =>
      exact ⟨rfl, socket.release, by rw [Lane.engage, stream]; rfl, closing, queue, waiting, rfl, rfl,
        taken⟩
  | passes writer | concludes writer => simp [Session.inFlight, writer] at still
  | released => exact ⟨rfl, socket, stream, closing, queue, waiting, rfl, stage, taken⟩

theorem setReader (rests : Rests l socket sent) (reader : Reader) :
    Rests { l with stream := .socket (socket.setReader reader) } (socket.setReader reader) sent := by
  rw [socket.setReader_idle rests.stage]
  exact { rests with stream := rfl }

theorem readAll (rests : Rests l socket sent) :
    Rests { l with stream := .socket socket.readAll } socket.readAll sent :=
  { rests with stream := rfl }

end Rests

end Courier
