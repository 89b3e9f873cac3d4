import Courier.Lane
import Courier.Proofs.Framing
import Courier.Proofs.Session.Passage

/-!
# A session on a byte stream

The writer of a session sends each parcel as a frame. The stream takes the bytes it is offered in
portions of any size, or none; a write may be given up or fail at any byte, and after the last one;
the writer may be thrown away. In between, callers and closers take their steps. What the stream has
taken is at every moment the frames of the first parcels that the queue took and the beginning of
the next one, so that a reader never loses its place.
-/

set_option autoImplicit false

namespace Courier

def Parcel.bytes (p : Parcel) : ByteArray := p.payload.toUTF8

structure Wire where
  strands : Strands
  accepted : List Parcel
  limit : Nat
  stage : SocketStage
  taken : ByteArray

namespace Wire

inductive Act
  | step (e : Strands.Step)
  | crash
  /-- The stream takes so many of the bytes it is offered, or all that are left. -/
  | take (n : Nat)

@[simp]
def start (c : Config) (now limit : Nat) : Wire :=
  ⟨.start c now, [], limit, .idle, ByteArray.empty⟩

def offered (limit : Nat) (payload : ByteArray) : SocketStage :=
  match oversized? limit payload with
  | some f => .refused f
  | none => .sending (.ofPayload payload)

/-- The stage after a step, by the parcels in flight before and after: a new write offers a frame,
one that is over offers nothing. -/
def restage (limit : Nat) (stage : SocketStage) : List Parcel → List Parcel → SocketStage
  | [], p :: _ => offered limit p.bytes
  | _, [] => .idle
  | _, _ => stage

/-- A write is done only when the stream has all of its bytes. -/
def permits (w : Wire) : Strands.Step → Bool
  | .wrote =>
    match w.stage with
    | .sending shipment => shipment.isDone
    | _ => false
  | _ => true

def moved (w : Wire) (x : Strands) : Wire :=
  { w with
    strands := x
    accepted := w.accepted ++ x.session.line.drop w.strands.session.line.length
    stage := restage w.limit w.stage w.strands.session.inFlight x.session.inFlight }

def act (w : Wire) : Act → Wire
  | .step e => if w.permits e then w.moved (w.strands.step e) else w
  | .crash => w.moved w.strands.crashed
  | .take n =>
    match w.stage with
    | .sending shipment =>
      { w with stage := .sending (shipment.advance n), taken := w.taken ++ shipment.portion n }
    | _ => w

def run (w : Wire) (acts : List Act) : Wire := acts.foldl act w

def bytes (w : Wire) : List UInt8 := w.taken.data.toList

def count (w : Wire) : Nat := w.strands.written.length

/-- The frames of the written parcels. -/
def whole (w : Wire) : List UInt8 := encodings (w.strands.written.map Parcel.bytes)

/-- A stage of the stream for the parcels in flight. -/
inductive Serves (limit : Nat) : List Parcel → SocketStage → Prop
  | idle : Serves limit [] .idle
  | refused (p : Parcel) (f : StreamFault) : Serves limit [p] (.refused f)
  | sending (p : Parcel) (shipment : Shipment) (fits : p.bytes.size < UInt32.size)
      (frame : shipment.bytes = frameBytes p.bytes) : Serves limit [p] (.sending shipment)

def sent : SocketStage → List UInt8
  | .sending shipment => shipment.sent
  | _ => []

/-- The beginning of the frame of the first parcel that is not written. -/
def Begun (w : Wire) (cut : List UInt8) : Prop :=
  ∃ p, w.accepted[w.count]? = some p ∧ p.bytes.size < UInt32.size ∧ cut <+: encoding p.bytes

structure Sound (w : Wire) : Prop where
  books : w.strands.Books w.accepted
  serves : Serves w.limit w.strands.session.inFlight w.stage
  small : ∀ p ∈ w.strands.written, p.bytes.size < UInt32.size
  stream : w.bytes = w.whole ++ sent w.stage ∨
    w.strands.Stopped ∧ ∃ cut, w.bytes = w.whole ++ cut ∧ w.Begun cut

theorem serves_offered (limit : Nat) (p : Parcel) : Serves limit [p] (offered limit p.bytes) := by
  unfold offered
  cases fits : oversized? limit p.bytes with
  | some f => exact .refused p f
  | none => exact .sending p _ (small_of_oversized? fits) rfl

theorem sent_offered (limit : Nat) (payload : ByteArray) : sent (offered limit payload) = [] := by
  unfold offered
  split <;> simp [sent, Shipment.sent, Shipment.ofPayload]

@[simp]
theorem Serves.restage_self {limit : Nat} {flight : List Parcel} {stage : SocketStage}
    (serves : Serves limit flight stage) : restage limit stage flight flight = stage := by
  cases serves <;> rfl

@[simp]
theorem restage_nil (limit : Nat) (stage : SocketStage) (flight : List Parcel) :
    restage limit stage flight [] = .idle := by
  cases flight <;> rfl

theorem Serves.idle_of {limit : Nat} {flight : List Parcel} {stage : SocketStage}
    (serves : Serves limit flight stage) (none : flight = []) : stage = .idle := by
  cases serves with
  | idle => rfl
  | _ => simp at none

theorem Serves.sending_of {limit : Nat} {flight : List Parcel} {shipment : Shipment}
    (serves : Serves limit flight (.sending shipment)) :
    ∃ p, flight = [p] ∧ p.bytes.size < UInt32.size ∧ shipment.bytes = frameBytes p.bytes := by
  cases serves with
  | sending p _ fits frame => exact ⟨p, rfl, fits, frame⟩

theorem Sound.stopped_idle {w : Wire} (h : w.Sound) (stopped : w.strands.Stopped) :
    w.stage = .idle :=
  h.serves.idle_of (h.books.stopped_flight stopped)

theorem Sound.open_of {w : Wire} (h : w.Sound) {shipment : Shipment}
    (stage : w.stage = .sending shipment) : w.bytes = w.whole ++ shipment.sent := by
  rcases h.stream with bytes | ⟨stopped, _⟩
  · rwa [stage] at bytes
  · simp [h.stopped_idle stopped] at stage

theorem Sound.sent_begun {w : Wire} (h : w.Sound) : sent w.stage = [] ∨ w.Begun (sent w.stage) := by
  have serves := h.serves
  cases stage : w.stage with
  | sending shipment =>
    rw [stage] at serves
    obtain ⟨p, flight, fits, frame⟩ := serves.sending_of
    refine .inr ⟨p, h.books.next flight, fits, ?_⟩
    rw [sent, Shipment.sent, frame]
    exact List.take_prefix _ _
  | _ => exact .inl rfl

theorem Sound.cut {w : Wire} (h : w.Sound) :
    ∃ cut, w.bytes = w.whole ++ cut ∧ (cut = [] ∨ w.Begun cut) := by
  rcases h.stream with open_ | ⟨_, cut, bytes, begun⟩
  · exact ⟨_, open_, h.sent_begun⟩
  · exact ⟨cut, bytes, .inr begun⟩

theorem Sound.take {w : Wire} (h : w.Sound) (n : Nat) : (w.act (.take n)).Sound := by
  have serves := h.serves
  simp only [act]
  cases stage : w.stage with
  | sending shipment =>
    rw [stage] at serves
    obtain ⟨p, flight, fits, frame⟩ := serves.sending_of
    refine ⟨h.books, ?_, h.small, .inl ?_⟩
    · simp only [flight]
      exact .sending p _ fits frame
    · have before := h.open_of stage
      simp only [bytes, whole, sent] at before ⊢
      rw [ByteArray.toList_data_append, before, shipment.sent_advance, List.append_assoc]
  | _ => exact h

theorem Begun.moved {w : Wire} {cut : List UInt8} (begun : w.Begun cut) {x : Strands}
    (same : x.written = w.strands.written) : (w.moved x).Begun cut := by
  obtain ⟨p, there, fits, begins⟩ := begun
  refine ⟨p, ?_, fits, begins⟩
  have inside := (List.getElem?_eq_some_iff.mp there).1
  simp only [Wire.moved, count, same]
  exact (List.getElem?_append_left inside).trans there

/-- No write ends and nothing is given up: all that may happen to the stream is that a frame is
offered to it. -/
theorem Sound.moved_going {w : Wire} (h : w.Sound) {x : Strands} (books : x.Books (w.moved x).accepted)
    (written : x.written = w.strands.written) (stopped : w.strands.Stopped → x.Stopped)
    (serves : Serves w.limit x.session.inFlight (w.moved x).stage)
    (same : sent (w.moved x).stage = sent w.stage) : (w.moved x).Sound := by
  have kept : (w.moved x).whole = w.whole := by simp only [whole, Wire.moved, written]
  refine ⟨books, serves, by simpa only [Wire.moved, written] using h.small, ?_⟩
  rw [kept, same]
  refine h.stream.imp id ?_
  rintro ⟨before, cut, bytes, begun⟩
  exact ⟨stopped before, cut, bytes, begun.moved written⟩

theorem Sound.moved_done {w : Wire} (h : w.Sound) {x : Strands} (books : x.Books (w.moved x).accepted)
    {p : Parcel} (flight : w.strands.session.inFlight = [p]) (free : x.session.inFlight = [])
    (written : x.written = w.strands.written ++ [p]) (shipment : Shipment)
    (stage : w.stage = .sending shipment) (done : shipment.isDone = true) : (w.moved x).Sound := by
  have serves := h.serves
  rw [stage] at serves
  obtain ⟨q, same, fits, frame⟩ := serves.sending_of
  obtain rfl : q = p := by simpa [flight] using same.symm
  have idle : (w.moved x).stage = .idle := by simp only [Wire.moved, free, restage_nil]
  refine ⟨books, ?_, ?_, .inl ?_⟩
  · rw [idle]
    simp only [Wire.moved, free]
    exact .idle
  · intro r member
    simp only [Wire.moved, written, List.mem_append, List.mem_singleton] at member
    exact member.elim (h.small r) (fun last => last ▸ fits)
  · have before := h.open_of stage
    rw [idle]
    simp only [whole, Wire.moved, written, bytes, sent] at before ⊢
    simp [before, shipment.sent_isDone done, frame, encodings, encoding]

theorem Sound.moved_stops {w : Wire} (h : w.Sound) {x : Strands} (books : x.Books (w.moved x).accepted)
    (written : x.written = w.strands.written) (free : x.session.inFlight = [])
    (stopped : x.Stopped) : (w.moved x).Sound := by
  have idle : (w.moved x).stage = .idle := by simp only [Wire.moved, free, restage_nil]
  have kept : (w.moved x).whole = w.whole := by simp only [whole, Wire.moved, written]
  refine ⟨books, ?_, by simpa only [Wire.moved, written] using h.small, ?_⟩
  · rw [idle]
    simp only [Wire.moved, free]
    exact .idle
  · obtain ⟨cut, bytes, rfl | begun⟩ := h.cut
    · exact .inl (by rw [kept, idle]; exact bytes)
    · exact .inr ⟨stopped, cut, kept.symm ▸ bytes, begun.moved written⟩

/-- Whatever becomes of the line, if a write is done only when all of its bytes are taken. -/
theorem Sound.moved {w : Wire} (h : w.Sound) {x : Strands}
    (idle : x.place ≠ .steady → x.session.writer = .idle) (passage : Strands.Passage w.strands x)
    (all : x.written ≠ w.strands.written → w.permits .wrote = true) : (w.moved x).Sound := by
  have serves := h.serves
  have books : x.Books (w.moved x).accepted := h.books.passage idle passage
  cases passage with
  | goes more line flight stopped aside =>
    have stage : (w.moved x).stage = w.stage := by
      simp only [Wire.moved, flight, serves.restage_self]
    exact h.moved_going books aside.written stopped (by rwa [stage, flight]) (by rw [stage])
  | begins p more line empty flight going aside =>
    have stage : (w.moved x).stage = offered w.limit p.bytes := by
      simp only [Wire.moved, empty, flight, restage]
    refine h.moved_going books aside.written (fun stopped => absurd stopped going) ?_ ?_
    · rw [stage, flight]
      exact serves_offered w.limit p
    · rw [stage, sent_offered, serves.idle_of empty]
      rfl
  | wrote p line flight free written sequence failed told =>
    have permitted := all (by simp [written])
    cases stage : w.stage with
    | sending shipment =>
      have done : shipment.isDone = true := by simpa [permits, stage] using permitted
      exact h.moved_done books flight free written shipment stage done
    | _ => simp [permits, stage] at permitted
  | stops lost line free stopped aside => exact h.moved_stops books aside.written free stopped

theorem Sound.act {w : Wire} (h : w.Sound) (a : Act) : (w.act a).Sound := by
  cases a with
  | take n => exact h.take n
  | crash =>
    exact h.moved (fun moved => absurd rfl moved) w.strands.crashed_passage fun changed =>
      absurd rfl changed
  | step e =>
    simp only [Wire.act]
    split
    · rename_i permitted
      have effect := w.strands.step_effect e
      refine h.moved (Strands.idle_effect h.books.idle effect)
        (Strands.effect_passage h.books.idle effect) fun changed => ?_
      by_cases writes : e = .wrote
      · exact writes ▸ permitted
      · exact absurd (w.strands.written_step writes) changed
    · exact h

theorem Sound.run {w : Wire} (h : w.Sound) (acts : List Act) : (w.run acts).Sound := by
  induction acts generalizing w with
  | nil => exact h
  | cons a acts ih => exact ih (h.act a)

theorem sound_start (c : Config) (now limit : Nat) : (start c now limit).Sound where
  books := Strands.books_start c now
  serves := .idle
  small := by simp [Strands.written]
  stream := .inl rfl

theorem Sound.stopped_act {w : Wire} (h : w.Sound) (stopped : w.strands.Stopped) (a : Act) :
    (w.act a).strands.Stopped ∧ (w.act a).taken = w.taken := by
  cases a with
  | take n =>
    simp only [Wire.act, h.stopped_idle stopped]
    exact ⟨stopped, trivial⟩
  | crash => exact ⟨w.strands.crashed_passage.stopped h.books stopped, rfl⟩
  | step e =>
    simp only [Wire.act]
    split
    · have passage := Strands.effect_passage h.books.idle (w.strands.step_effect e)
      exact ⟨passage.stopped h.books stopped, rfl⟩
    · exact ⟨stopped, rfl⟩

theorem Sound.stopped_run {w : Wire} (h : w.Sound) (stopped : w.strands.Stopped) (acts : List Act) :
    (w.run acts).taken = w.taken := by
  induction acts generalizing w with
  | nil => rfl
  | cons a acts ih =>
    obtain ⟨stopped', same⟩ := h.stopped_act stopped a
    exact (ih (h.act a) stopped').trans same

theorem known_act {w : Wire} (h : w.strands.Known w.accepted) (a : Act) :
    (w.act a).strands.Known (w.act a).accepted := by
  cases a with
  | take n =>
    simp only [act]
    split <;> exact h
  | crash => exact h.crashed.entered _
  | step e =>
    simp only [act]
    split
    · exact (h.effect (w.strands.step_effect e)).entered _
    · exact h

theorem known_run {w : Wire} (h : w.strands.Known w.accepted) (acts : List Act) :
    (w.run acts).strands.Known (w.run acts).accepted := by
  induction acts generalizing w with
  | nil => exact h
  | cons a acts ih => exact ih (known_act h a)

/-- Whole frames of the first parcels, and of the next one a part that is not all of it. -/
theorem Sound.split {w : Wire} (h : w.Sound) : ∃ n rest, w.count ≤ n ∧ n ≤ w.count + 1 ∧
    (∀ p ∈ w.accepted.take n, p.bytes.size < UInt32.size) ∧
    w.bytes = encodings ((w.accepted.take n).map Parcel.bytes) ++ rest ∧
    (rest = [] ∨ ∃ p, w.accepted[n]? = some p ∧ p.bytes.size < UInt32.size ∧
      rest <+: encoding p.bytes ∧ rest.length < (encoding p.bytes).length) := by
  have written : w.strands.written = w.accepted.take w.count := h.books.written_eq
  have small := h.small
  obtain ⟨cut, bytes, none | ⟨p, there, fits, begins⟩⟩ := h.cut
  · rw [whole, written] at bytes
    rw [written] at small
    exact ⟨w.count, cut, le_rfl, by omega, small, bytes, .inl none⟩
  · by_cases all : cut.length < (encoding p.bytes).length
    · rw [whole, written] at bytes
      rw [written] at small
      exact ⟨w.count, cut, le_rfl, by omega, small, bytes, .inr ⟨p, there, fits, begins, all⟩⟩
    · -- the last byte is on the stream, though its write may have failed
      have next : w.accepted.take (w.count + 1) = w.strands.written ++ [p] := by
        rw [List.take_add_one, ← written, there, Option.toList_some]
      refine ⟨w.count + 1, [], by omega, le_rfl, ?_, ?_, .inl rfl⟩
      · intro q member
        rw [next, List.mem_append, List.mem_singleton] at member
        exact member.elim (small q) fun last => last ▸ fits
      · rw [next, bytes, begins.eq_of_length_le (Nat.le_of_not_lt all)]
        simp [whole, encodings]

theorem read_split {bytes : ByteArray} {parcels : List Parcel} {rest : List UInt8}
    (small : ∀ p ∈ parcels, p.bytes.size < UInt32.size)
    (layout : bytes.data.toList = encodings (parcels.map Parcel.bytes) ++ rest)
    (short : rest = [] ∨ ∃ p : Parcel, p.bytes.size < UInt32.size ∧ rest <+: encoding p.bytes ∧
      rest.length < (encoding p.bytes).length) :
    unframeFrom bytes 0 =
      (parcels.map Parcel.bytes, (encodings (parcels.map Parcel.bytes)).length) := by
  have fits : ∀ payload ∈ parcels.map Parcel.bytes, payload.size < UInt32.size := by
    simpa using small
  obtain ⟨last, last_small, begins, less⟩ : ∃ last : ByteArray, last.size < UInt32.size ∧
      rest <+: encoding last ∧ rest.length < (encoding last).length := by
    rcases short with rfl | ⟨p, part⟩
    · exact ⟨ByteArray.empty, by decide, List.nil_prefix, by simp [length_encoding]⟩
    · exact ⟨p.bytes, part⟩
  have read := unframeFrom_encodings fits (layout.trans (List.nil_append _).symm) last_small begins less
  simpa only [List.length_nil, Nat.zero_add] using read

/-- Whatever comes in between the steps of callers, closers and writer: the frames of the written
parcels are on the stream, then a part of the next frame. Who was told the number `n` had called to
send the `n`-th parcel that the queue took, and its frame is there. Once a write has failed the
stream stays as it is; and a reader gets the first parcels that the queue took, in order, with at
most a part of one more frame behind them. -/
theorem stream_in_order (c : Config) (now limit : Nat) (acts : List Act) :
    let w := (start c now limit).run acts
    let frames := fun n => encodings ((w.accepted.take n).map Parcel.bytes)
    (∃ cut, w.bytes = frames w.count ++ cut ∧
      (cut = [] ∨ ∃ p, w.accepted[w.count]? = some p ∧ cut <+: encoding p.bytes)) ∧
    w.strands.senders.Nodup ∧
    (∀ a ∈ w.strands.told, ∀ n, a.outcome = .written n → 0 < n ∧ n ≤ w.count ∧
      ∃ p ∈ w.strands.offers, p.caller = a.caller ∧ w.accepted[n - 1]? = some p) ∧
    (w.strands.HasFailed → ∀ more, (w.run more).taken = w.taken) ∧
    ∃ n rest, w.count ≤ n ∧ n ≤ w.count + 1 ∧ w.bytes = frames n ++ rest ∧
      unframeFrom w.taken 0 = ((w.accepted.take n).map Parcel.bytes, (frames n).length) ∧
      (rest = [] ∨ ∃ p, w.accepted[n]? = some p ∧ rest <+: encoding p.bytes ∧
        rest.length < (encoding p.bytes).length) := by
  intro w frames
  have h : w.Sound := (sound_start c now limit).run acts
  have known : w.strands.Known w.accepted := known_run (Strands.known_start c now) acts
  have written : w.strands.written = w.accepted.take w.count := h.books.written_eq
  refine ⟨?_, known.senders, ?_, ?_, ?_⟩
  · obtain ⟨cut, bytes, part⟩ := h.cut
    rw [whole, written] at bytes
    exact ⟨cut, bytes, part.imp id fun ⟨p, there, _, begins⟩ => ⟨p, there, begins⟩⟩
  · intro a member n outcome
    obtain ⟨positive, there⟩ := h.books.told a member n outcome
    obtain ⟨p, at_n, caller⟩ := Option.map_eq_some_iff.mp there
    have inside := (List.getElem?_eq_some_iff.mp at_n).1
    have accepted : w.accepted[n - 1]? = some p := by
      rw [written, List.getElem?_take] at at_n
      exact (ite_eq_iff.mp at_n).elim And.right fun none => by simp at none
    refine ⟨positive, ?_, p, known.accepted p (List.mem_of_getElem? accepted), caller, accepted⟩
    simp only [count]
    omega
  · intro failed more
    exact h.stopped_run (h.books.failed failed) more
  · obtain ⟨n, rest, least, most, small, bytes, short⟩ := h.split
    refine ⟨n, rest, least, most, bytes, read_split small bytes ?_, ?_⟩
    · exact short.imp id fun ⟨p, _, part⟩ => ⟨p, part⟩
    · exact short.imp id fun ⟨p, there, _, part⟩ => ⟨p, there, part⟩

example : ((start Config.default 0 16).run [
    .step (.check ⟨.sender 0, "ab"⟩), .step (.put ⟨.sender 0, "ab"⟩ .endless false 0),
    .step (.move 0), .step (.move 0), .take 5, .step (.fail .closed), .take 5]).bytes =
    [0, 0, 0, 2, 97] := by
  decide +kernel

end Wire

end Courier
