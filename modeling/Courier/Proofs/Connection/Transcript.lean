import Courier.Proofs.Connection.Exchange

set_option autoImplicit false

namespace Courier.Exchange

open Relation (ReflTransGen)

variable {id : SessionId} {longest : Nat} {all : List Message} {failure : Option LineError}
  {x y : Exchange}

def socket? (x : Exchange) : Option Socket := do
  let seat ← x.connection.phase.seat?
  let l ← x.hub.lane? seat.key
  match l.stream with
  | .socket s => some s
  | .probe _ => none

/-- All bytes that were ever put on it. -/
def taken (x : Exchange) : ByteArray := (x.socket?.map (·.taken)).getD ByteArray.empty

/-- No client keeps the bytes from being put there. -/
def Flows (x : Exchange) : Prop := ∀ s ∈ x.socket?, s.reader = .reading

theorem socket?_eq {seat : Seat} {l : Lane} {socket : Socket}
    (own : x.connection.phase.seat? = some seat) (lane : x.hub.lane? seat.key = some l)
    (stream : l.stream = .socket socket) : x.socket? = some socket := by
  simp [socket?, own, lane, stream]

theorem Stage.taken_prefix (stage : Stage id all failure x) :
    x.taken.data.toList <+: frames all := by
  cases stage with
  | greeting here =>
    have none : x.socket? = none := by simp [socket?, here]
    rw [taken, none]
    exact List.nil_prefix
  | attending key n due attends entry l lane socket sent delivers promises =>
    rw [taken, socket?_eq attends.seat? lane delivers.stream, promises.said, frames_append]
    exact delivers.taken_prefix.trans (List.prefix_append _ _)
  | closed key here l lane socket rests =>
    have own : x.connection.phase.seat? = some ⟨id, key⟩ := by rw [here, Phase.seat?]
    rw [taken, socket?_eq own lane rests.stream]
    exact rests.taken ▸ List.prefix_rfl

theorem Stage.closed_taken (stage : Stage id all failure x)
    (ended : x.connection.phase.isOver = true) :
    (∃ key, x.connection.phase = .over (some ⟨id, key⟩) (failure.map .unreadRequest)) ∧
      x.taken.data.toList = frames all := by
  cases stage with
  | greeting here => simp [here] at ended
  | attending key n due attends =>
    generalize x.connection.phase = phase at attends ended
    cases attends <;> simp at ended
  | closed key here l lane socket rests =>
    have own : x.connection.phase.seat? = some ⟨id, key⟩ := by rw [here, Phase.seat?]
    refine ⟨⟨key, here⟩, ?_⟩
    rw [taken, socket?_eq own lane rests.stream]
    exact rests.taken

theorem unframeFrom_frames {bytes : ByteArray} {messages : List Message}
    (fits : ∀ m ∈ messages, m.Fits) (whole : bytes.data.toList = frames messages) :
    unframeFrom bytes 0 = (messages.map fun m => m.encode.toUTF8, bytes.size) := by
  have small (payload : ByteArray) (member : payload ∈ messages.map fun m => m.encode.toUTF8) :
      payload.size < UInt32.size := by
    obtain ⟨m, there, rfl⟩ := List.mem_map.mp member
    exact small_of_oversized? (fits m there).accepted
  have layout : bytes.data.toList = [] ++ (frames messages ++ []) := by simpa using whole
  have short : ([] : List UInt8).length < (encoding ByteArray.empty).length := by decide
  have read := unframeFrom_encodings small layout (by decide) List.nil_prefix short
  rw [← length_toList, whole]
  simpa [frames] using read

theorem listens (idle : x.connection.incoming.next x.connection.maxRequest = .pending) :
    ∃ y, Advance id x y := by
  obtain ⟨still, _⟩ := Incoming.next_pending idle
  cases coming : x.coming with
  | nil => exact ⟨_, .ends coming still⟩
  | cons b rest => exact ⟨_, .arrives 1 Nat.one_pos (by simp [coming])⟩

theorem Stage.progress (stage : Stage id all failure x)
    (goesOn : x.connection.phase.isOver = false) (flows : x.Flows) : ∃ y, Advance id x y := by
  cases stage with
  | closed key here => simp [here] at goesOn
  | greeting here =>
    cases did : x.connection.readHandshake? x.hub id (.start 0 .reading) 0 with
    | some r => exact ⟨_, .serves 0 .reading rfl 0 r (.greets here did)⟩
    | none => exact listens (Connection.readHandshake?_none did)
  | attending key n due attends entry l lane socket sent delivers =>
    have own := attends.seat?
    have reading := flows socket (socket?_eq own lane delivers.stream)
    generalize phase : x.connection.phase = now at attends
    cases attends with
    | acknowledging m =>
      obtain ⟨⟨l', told⟩, did⟩ := Option.isSome_iff_exists.mp (delivers.act?_isSome reading 0)
      exact ⟨_, .works _ own l lane 0 l' told did⟩
    | answering n m =>
      obtain ⟨⟨l', told⟩, did⟩ := Option.isSome_iff_exists.mp (delivers.act?_isSome reading 0)
      exact ⟨_, .works _ own l lane 0 l' told did⟩
    | serving n =>
      cases did : x.connection.readRequest? x.hub ⟨id, key⟩ n 0 with
      | some r => exact ⟨_, .serves 0 .reading rfl 0 r (.reads _ n phase did)⟩
      | none => exact listens (Connection.readRequest?_none did)

/-- The client can always begin to take what is written for it. -/
theorem Stage.turn (stage : Stage id all failure x) : ∃ y, ReflTransGen (Step id) x y ∧ y.Flows ∧
    y.connection.phase.isOver = x.connection.phase.isOver := by
  have turned {seat : Seat} {l : Lane} {socket : Socket}
      (own : x.connection.phase.seat? = some seat) (lane : x.hub.lane? seat.key = some l)
      (stream : l.stream = .socket socket) : ∃ y, ReflTransGen (Step id) x y ∧ y.Flows ∧
        y.connection.phase.isOver = x.connection.phase.isOver := by
    have flows : (x.change seat.key (·.setReader .reading)).Flows := by
      have lane' := lane?_change lane stream (·.setReader .reading)
      intro s member
      rw [socket?_eq (x := x.change seat.key (·.setReader .reading)) own lane' rfl] at member
      obtain rfl := Option.some.inj member
      unfold Socket.setReader Socket.absorb
      cases socket.stage <;> rfl
    exact ⟨_, .single (.turns seat own .reading rfl), flows, rfl⟩
  cases stage with
  | greeting here =>
    refine ⟨x, .refl, fun s member => ?_, rfl⟩
    simp [socket?, here] at member
  | attending key n due attends entry l lane socket sent delivers =>
    exact turned attends.seat? lane delivers.stream
  | closed key here l lane socket rests =>
    exact turned (by rw [here, Phase.seat?]) lane rests.stream

/-- From everywhere the end of the serving can be reached. -/
theorem Sound.ends (positive : 0 < longest) (fits : ∀ m ∈ all, m.Fits)
    (sound : Sound id longest all failure x) :
    ∃ y, ReflTransGen (Step id) x y ∧ y.connection.phase.isOver = true := by
  induction left : x.effort using Nat.strong_induction_on generalizing x with
  | _ left' ih =>
    cases goesOn : x.connection.phase.isOver with
    | true => exact ⟨x, .refl, goesOn⟩
    | false =>
      obtain ⟨t, turns, flows, same⟩ := sound.stage.turn
      obtain ⟨sound', more⟩ := sound.run positive fits turns
      obtain ⟨u, advance⟩ := sound'.stage.progress (same.trans goesOn) flows
      obtain ⟨sound'', less⟩ := advance.sound positive fits sound'
      obtain ⟨y, run, ended⟩ := ih u.effort (by omega) sound'' rfl
      exact ⟨y, turns.trans (.head (.advances advance) run), ended⟩

theorem sound_start (name host : String) {h : Hub} (free : h.entry? id = none)
    {bytes first : List UInt8} {lines : List (List UInt8)} {text : String} {client : Client}
    (begins : linesOf bytes = first :: lines) (readable : readLine longest first = .ok text)
    (valid : Client.decode text = .ok client) :
    Sound id longest (transcript id longest lines) (requests longest lines).2
      (start name host longest h bytes) where
  longest := rfl
  whole ended := by simp [Incoming.empty] at ended
  stage := .greeting rfl free first lines text client begins readable valid rfl rfl

/-- Serving a client whose first line is a valid handshake: what it gets is the acknowledgement and
the answers to the requests in its other lines, in their order. The error is that of the first line
that cannot be read, if there is one. None of it depends on the parts in which the bytes come. -/
theorem serve_transcript {name host : String} (positive : 0 < longest) {h : Hub}
    (free : h.entry? id = none) {bytes first : List UInt8} {lines : List (List UInt8)} {text : String}
    {client : Client} (begins : linesOf bytes = first :: lines)
    (readable : readLine longest first = .ok text) (valid : Client.decode text = .ok client)
    (fits : ∀ m ∈ transcript id longest lines, m.Fits)
    (run : ReflTransGen (Step id) (start name host longest h bytes) x) :
    (∀ k m, (transcript id longest lines)[k + 1]? = some m →
      ∃ request, (requests longest lines).1[k]? = some request ∧
        m.header = Connection.answerHeader id (k + 1) ∧
        (m.status.isSuccess = true ↔ request = Connection.heartbeat)) ∧
    x.taken.data.toList <+: frames (transcript id longest lines) ∧
    (x.connection.phase.isOver = true →
      (∃ key, x.connection.phase =
        .over (some ⟨id, key⟩) ((requests longest lines).2.map .unreadRequest)) ∧
      unframeFrom x.taken 0 =
        ((transcript id longest lines).map fun m => m.encode.toUTF8, x.taken.size)) ∧
    (x.connection.phase.isOver = false → x.Flows → ∃ y, Advance id x y) ∧
    (∀ y, Advance id x y → y.effort < x.effort) ∧
    x.effort ≤ 9 * bytes.length + 2 := by
  obtain ⟨sound, most⟩ :=
    (sound_start name host free begins readable valid).run positive fits run
  refine ⟨fun k m => transcript_answer, sound.stage.taken_prefix, fun ended => ?_, sound.stage.progress,
    fun y advance => (advance.sound positive fits sound).2, most⟩
  obtain ⟨phase, whole⟩ := sound.stage.closed_taken ended
  exact ⟨phase, unframeFrom_frames fits whole⟩

/-- A handshake, a heartbeat, a blank line and an unfinished line. -/
def visit : List UInt8 := "\x7b\x7d\nheartbeat\r\n\nx".toUTF8.data.toList

theorem transcript_visit : transcript ⟨"s1"⟩ 100 (linesOf visit).tail =
    [⟨.correlated "s1", .success⟩, ⟨.correlated "s1-1", .success⟩,
      ⟨.correlated "s1-2", ⟨"2", "requestCode can't be null, or must be number: x"⟩⟩] := by
  decide +kernel

theorem fits_visit (m : Message) (member : m ∈ transcript ⟨"s1"⟩ 100 (linesOf visit).tail) :
    m.Fits := by
  rw [transcript_visit] at member
  revert m
  simp only [List.forall_mem_cons, List.not_mem_nil, false_imp_iff, implies_true, and_true]
  exact ⟨Message.fits_correlated (by decide +kernel), Message.fits_correlated (by decide +kernel),
    Message.fits_correlated (by decide +kernel)⟩

theorem serve_transcript_visit : ∃ x,
    ReflTransGen (Step ⟨"s1"⟩) (start "c" "h" 100 (Hub.start .default) visit) x ∧
    (∃ key, x.connection.phase = .over (some ⟨⟨"s1"⟩, key⟩) none) ∧
    (unframeFrom x.taken 0).1.length = 3 := by
  have begins : linesOf visit = "\x7b\x7d".toUTF8.data.toList :: (linesOf visit).tail := by
    decide +kernel
  have readable : readLine 100 "\x7b\x7d".toUTF8.data.toList = .ok "\x7b\x7d" := by decide +kernel
  have valid : Client.decode "\x7b\x7d" = .ok .default := by rfl
  obtain ⟨x, run, ended⟩ := (sound_start "c" "h" (h := Hub.start .default) rfl begins readable
    valid).ends (by decide) fits_visit
  obtain ⟨_, _, whole, _⟩ :=
    serve_transcript (by decide) rfl begins readable valid fits_visit run
  obtain ⟨phase, payloads⟩ := whole ended
  have failure : (requests 100 (linesOf visit).tail).2 = none := by decide +kernel
  rw [failure] at phase
  exact ⟨x, run, phase, by rw [payloads, transcript_visit]; rfl⟩

end Courier.Exchange
