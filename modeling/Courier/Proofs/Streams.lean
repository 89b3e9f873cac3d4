import Courier.Proofs.Lane
import Courier.Proofs.Session.Uninterrupted
import Courier.Proofs.Session.Wire

set_option autoImplicit false

namespace Courier

def Strands.Step.IsOutside : Strands.Step → Prop
  | .move _ => False
  | .wrote => False
  | .fail _ => False
  | .released => False
  | _ => True

def Session.Act.IsOutside : Session.Act → Prop
  | .turn _ => False
  | .wrote => False
  | .fail _ _ => False
  | .released => False
  | .crash => False
  | _ => True

theorem Session.Act.steps_outside {a : Session.Act} (outside : a.IsOutside) (n : Nat) :
    ∀ e ∈ a.steps n, e.IsOutside := by
  cases a <;> simp [Session.Act.IsOutside, Strands.Step.IsOutside] at outside ⊢

theorem Session.Act.steps_ne_wrote {a : Session.Act} (other : a ≠ .wrote) (n : Nat) :
    ∀ e ∈ a.steps n, e ≠ .wrote := by
  intro e member
  cases a with
  | wrote => exact absurd rfl other
  | turn now => exact (List.eq_of_mem_replicate member) ▸ nofun
  | fail f now =>
    rcases List.mem_cons.mp member with rfl | more
    · exact nofun
    · exact (List.eq_of_mem_replicate more) ▸ nofun
  | _ => simp only [Session.Act.steps] at member; grind

theorem Strands.inFlight_outside (x : Strands) {e : Strands.Step} (outside : e.IsOutside) :
    (x.step e).session.inFlight = x.session.inFlight := by
  cases e with
  | move | wrote | fail | released => exact outside.elim
  | put p patience spent now =>
    rcases x.session.accept_cases p patience spent now with ⟨r, h⟩ | ⟨_, h⟩ | ⟨_, h⟩ <;>
      simp only [Strands.step, h] <;> split <;> rfl
  | quit | touch => rfl
  | mark i =>
    simp only [Strands.step]
    split <;> rfl
  | check p =>
    simp only [Strands.step]
    repeat' split
    all_goals rfl
  | _ =>
    simp only [Strands.step]
    split <;> rfl

namespace Wire

theorem run_append (w : Wire) (first second : List Act) :
    w.run (first ++ second) = (w.run first).run second := List.foldl_append

theorem run_steps {w : Wire} {steps : List Strands.Step} (other : ∀ e ∈ steps, e ≠ .wrote) :
    (w.run (steps.map .step)).strands = w.strands.run steps ∧
    (w.run (steps.map .step)).limit = w.limit ∧ (w.run (steps.map .step)).taken = w.taken := by
  induction steps generalizing w with
  | nil => exact ⟨rfl, rfl, rfl⟩
  | cons e steps ih =>
    have permitted : w.permits e = true := by
      cases e <;> first | rfl | exact absurd rfl (other .wrote (by simp))
    have first : w.act (.step e) = w.moved (w.strands.step e) := by simp [act, permitted]
    obtain ⟨strands, limit, taken⟩ := ih (w := w.act (.step e)) fun d member =>
      other d (List.mem_cons_of_mem e member)
    rw [first] at strands limit taken
    rw [List.map_cons, run, List.foldl_cons, first]
    exact ⟨strands, limit, taken⟩

def allows (w : Wire) : Session.Act → Bool
  | .wrote => w.permits .wrote
  | _ => true

theorem run_act {w : Wire} {a : Session.Act} (permitted : w.allows a = true)
    (n : Nat) : (w.run ((a.steps n).map .step)).strands = w.strands.run (a.steps n) ∧
    (w.run ((a.steps n).map .step)).limit = w.limit ∧
    (w.run ((a.steps n).map .step)).taken = w.taken := by
  by_cases writes : a = .wrote
  · have first : w.act (.step .wrote) = w.moved (w.strands.step .wrote) := by
      rw [writes] at permitted
      exact if_pos permitted
    subst writes
    simp only [Session.Act.steps, List.map_cons, List.map_nil, run, List.foldl_cons, List.foldl_nil,
      first]
    exact ⟨rfl, rfl, rfl⟩
  · exact run_steps (Session.Act.steps_ne_wrote writes n)

/-- The stream has nothing yet of the frame in flight, if there is one. -/
def Settled (w : Wire) : Prop :=
  w.stage = restage w.limit .idle [] w.strands.session.inFlight

theorem Settled.moved {w : Wire} (h : w.Sound) (settled : w.Settled) {x : Strands}
    (passage : Strands.Passage w.strands x) : (w.moved x).Settled := by
  unfold Settled at settled ⊢
  cases passage with
  | goes more line flight =>
    simp only [Wire.moved, flight, h.serves.restage_self]
    exact settled
  | begins p more line idle flight => simp only [Wire.moved, idle, flight, restage]
  | wrote p line flight free => simp only [Wire.moved, free, restage_nil]
  | stops lost line free => simp only [Wire.moved, free, restage_nil]

theorem Settled.run_steps {w : Wire} (h : w.Sound) (settled : w.Settled) (steps : List Strands.Step) :
    (w.run (steps.map .step)).Settled := by
  induction steps generalizing w with
  | nil => exact settled
  | cons e steps ih =>
    refine ih (h.act (.step e)) ?_
    simp only [Wire.act]
    split
    · exact settled.moved h (Strands.effect_passage h.books.idle (w.strands.step_effect e))
    · exact settled

/-- A write that is over offers nothing, and a stream that was idle has nothing of the next frame. -/
theorem Sound.settled_run {w : Wire} (h : w.Sound) {steps : List Strands.Step}
    (free : w.strands.session.inFlight = [] ∨
      (w.run (steps.map .step)).strands.session.inFlight = []) :
    (w.run (steps.map .step)).Settled := by
  rcases free with before | after
  · have idle : w.Settled := by rw [Settled, before, h.serves.idle_of before, restage_nil]
    exact idle.run_steps h steps
  · rw [Settled, after, (h.run _).serves.idle_of after, restage_nil]

theorem Sound.stage_outside {w : Wire} (h : w.Sound) {steps : List Strands.Step}
    (outside : ∀ e ∈ steps, e.IsOutside) : (w.run (steps.map .step)).stage = w.stage := by
  induction steps generalizing w with
  | nil => rfl
  | cons e steps ih =>
    have same := w.strands.inFlight_outside (outside e (by simp))
    have kept : (w.act (.step e)).stage = w.stage := by
      simp only [Wire.act]
      split
      · simp only [Wire.moved, same, h.serves.restage_self]
      · rfl
    exact (ih (h.act (.step e)) fun d member => outside d (List.mem_cons_of_mem e member)).trans kept

end Wire

/-- A lane with a socket for its stream is at what a wire is at, and nobody is between two steps. -/
structure Lane.On (l : Lane) (w : Wire) : Prop where
  sound : w.Sound
  strands : w.strands.Sound
  quiet : w.strands.Quiet
  limit : w.limit = defaultFrameLimit
  session : w.strands.session = l.session
  stream : ∃ s, l.stream = .socket s ∧ s.taken = w.taken ∧ s.stage = w.stage

namespace Lane.On

variable {l : Lane} {w : Wire}

theorem absorb {s : Socket} (on : l.On w) (socket : l.stream = .socket s) :
    ∃ acts, { l with stream := .socket s.absorb }.On (w.run acts) := by
  obtain ⟨sound, strands, quiet, limit, session, t, same, taken, stage⟩ := on
  obtain rfl : s = t := by simpa [socket] using same
  unfold Socket.absorb
  cases sends : s.stage with
  | sending shipment =>
    have at_wire : w.stage = .sending shipment := by rw [← stage, sends]
    have took : w.run [.take (s.room shipment.left)] = { w with
        stage := .sending (shipment.advance (s.room shipment.left))
        taken := w.taken ++ shipment.portion (s.room shipment.left) } := by
      simp only [Wire.run, List.foldl_cons, List.foldl_nil, Wire.act, at_wire]
    refine ⟨[.take (s.room shipment.left)], sound.run _, ?_, ?_, ?_, ?_, _, rfl, ?_, ?_⟩ <;> rw [took]
    · exact strands
    · exact quiet
    · exact limit
    · exact session
    · simp only [taken]
  | _ => exact ⟨[], sound, strands, quiet, limit, session, s, rfl, taken, stage⟩

theorem setReader {s : Socket} (on : l.On w) (socket : l.stream = .socket s) (reader : Reader) :
    ∃ acts, { l with stream := .socket (s.setReader reader) }.On (w.run acts) := by
  obtain ⟨sound, strands, quiet, limit, session, t, same, taken, stage⟩ := on
  obtain rfl : s = t := by simpa [socket] using same
  have on : { l with stream := .socket { s with reader } }.On w :=
    ⟨sound, strands, quiet, limit, session, _, rfl, taken, stage⟩
  exact on.absorb rfl

theorem idle_of {s : Socket} (on : l.On w) (socket : l.stream = .socket s)
    (idle : l.session.inFlight = []) : s.stage = .idle ∧ s.taken = w.taken := by
  obtain ⟨t, same, taken, stage⟩ := on.stream
  obtain rfl : s = t := by simpa [socket] using same
  exact ⟨stage.trans (on.sound.serves.idle_of (by rw [on.session, idle])), taken⟩

/-- The session has done an act; the socket is at the stage that the wire is at then. -/
theorem does {s : Socket} (on : l.On w) {a : Session.Act} (fits : a.Fits l.session)
    (new : ∀ p ∈ a.parcel?, p.caller ∉ w.strands.senders)
    (permitted : w.allows a = true) (taken : s.taken = w.taken)
    (stage : ∀ n, (w.run ((a.steps n).map .step)).strands.session = (l.session.act a).1 →
      s.stage = (w.run ((a.steps n).map .step)).stage) :
    ∃ acts, { l with session := (l.session.act a).1, stream := .socket s }.On (w.run acts) := by
  obtain ⟨n, does⟩ := Strands.exists_does on.strands on.quiet (on.session ▸ fits) new
  obtain ⟨strands, limit, same⟩ := w.run_act permitted n
  have session : (w.run ((a.steps n).map .step)).strands.session = (l.session.act a).1 := by
    rw [strands, does.session, on.session]
  refine ⟨(a.steps n).map .step, on.sound.run _, ?_, ?_, ?_, session, s, rfl, ?_, stage n session⟩
  · rw [strands]
    exact on.strands.run _
  · rw [strands]
    exact does.quiet
  · rw [limit, on.limit]
  · rw [same, taken]

theorem moved {s : Socket} (on : l.On w) {a : Session.Act} (fits : a.Fits l.session)
    (silent : a.parcel? = none) (permitted : w.allows a = true)
    (free : l.session.inFlight = [] ∨ (l.session.act a).1.inFlight = [])
    (taken : s.taken = w.taken)
    (stage : s.stage = Wire.restage defaultFrameLimit .idle [] (l.session.act a).1.inFlight) :
    ∃ acts, { l with session := (l.session.act a).1, stream := .socket s }.On (w.run acts) := by
  refine on.does fits (by rw [silent]; simp) permitted taken fun n session => ?_
  have settled : (w.run ((a.steps n).map .step)).Settled :=
    on.sound.settled_run (by rwa [on.session, session])
  rw [Wire.Settled, session, (w.run_act permitted n).2.1, on.limit] at settled
  rw [stage, settled]

theorem moved_idle {s : Socket} (on : l.On w) {a : Session.Act} (fits : a.Fits l.session)
    (silent : a.parcel? = none) (permitted : w.allows a = true)
    (taken : s.taken = w.taken) (stage : s.stage = .idle)
    (free : (l.session.act a).1.inFlight = []) :
    ∃ acts, { l with session := (l.session.act a).1, stream := .socket s }.On (w.run acts) :=
  on.moved fits silent permitted (.inr free) taken (by rw [stage, free, Wire.restage_nil])

theorem outside (on : l.On w) {a : Session.Act} (outside : a.IsOutside) (fits : a.Fits l.session)
    (new : ∀ p ∈ a.parcel?, p.caller ∉ w.strands.senders) :
    ∃ acts, { l with session := (l.session.act a).1 }.On (w.run acts) := by
  obtain ⟨s, socket, taken, stage⟩ := on.stream
  have permitted : w.allows a = true := by
    cases a <;> first | rfl | exact outside.elim
  have done := on.does fits new permitted taken fun n _ => by
    rw [stage, on.sound.stage_outside (Session.Act.steps_outside outside n)]
  simpa only [← socket] using done

theorem begins {s : Socket} {a : Session.Act} {p : Parcel} (on : l.On w)
    (socket : l.stream = .socket s) (fits : a.Fits l.session) (silent : a.parcel? = none)
    (permitted : w.allows a = true)
    (idle : l.session.inFlight = []) (flight : (l.session.act a).1.inFlight = [p]) :
    ∃ acts, { l with session := (l.session.act a).1, stream := .socket (s.begin p.payload) }.On
      (w.run acts) := by
  obtain ⟨t, same, taken, stage⟩ := on.stream
  obtain rfl : s = t := by simpa [socket] using same
  obtain ⟨first, offered⟩ := on.moved (s := { s with
    stage := Wire.offered defaultFrameLimit p.bytes }) fits silent permitted (.inl idle) taken (by
      rw [flight]
      rfl)
  obtain ⟨second, absorbed⟩ := offered.absorb rfl
  refine ⟨first ++ second, ?_⟩
  have begun : s.begin p.payload =
      { s with stage := Wire.offered defaultFrameLimit p.bytes }.absorb := by
    simp only [Socket.begin, Wire.offered, Parcel.bytes]
    cases oversized? defaultFrameLimit p.payload.toUTF8 <;> rfl
  rw [begun, Wire.run_append]
  exact absorbed

theorem engage {s : Socket} (on : l.On w) (socket : l.stream = .socket s)
    (idle : l.session.inFlight = []) (now : Nat) :
    ∃ acts, ({ l with session := (l.session.act (.turn now)).1 }.engage now).On (w.run acts) := by
  obtain ⟨rest, taken⟩ := on.idle_of socket idle
  have free := fun flight => on.moved_idle (a := .turn now) (s := s) trivial rfl rfl taken rest flight
  unfold Lane.engage
  cases writer : (l.session.act (.turn now)).1.writer with
  | writing p since =>
    have flight : (l.session.act (.turn now)).1.inFlight = [p] := by
      simp only [Session.inFlight, writer]
    simp only [socket]
    exact on.begins socket trivial rfl rfl idle flight
  | releasing since =>
    have none : (l.session.act (.turn now)).1.inFlight = [] := by
      simp only [Session.inFlight, writer]
    simp only [socket]
    exact on.moved_idle (s := s.release) trivial rfl rfl taken rfl none
  | _ =>
    have none : (l.session.act (.turn now)).1.inFlight = [] := by
      simp only [Session.inFlight, writer]
    simpa only [← socket] using free none

theorem failed {s : Socket} (on : l.On w) (socket : l.stream = .socket s) {t : Socket}
    (taken : t.taken = s.taken) {p : Parcel} {since : Nat}
    (writing : l.session.writer = .writing p since) (f : StreamFault) (now : Nat) :
    ∃ acts, (l.conclude (.failed f) (.socket t) now).1.On (w.run acts) := by
  obtain ⟨_, same, wire, _⟩ := on.stream
  obtain rfl := Stream.socket.inj (socket.symm.trans same)
  obtain ⟨q, since', writer, after⟩ | ⟨none, _⟩ := l.session.failed_cases f now
  · have free : (l.session.act (.fail f now)).1.inFlight = [] := by rw [Session.act, after]; rfl
    have released := on.moved_idle (s := t.abandon.release) (a := .fail f now) trivial rfl rfl
      (taken.trans wire) rfl free
    simpa only [Lane.conclude, Session.act, after, Lane.engage, Stream.abandon, Stream.release]
      using released
  · simp [Session.inFlight, writing] at none

theorem done {s : Socket} (on : l.On w) (socket : l.stream = .socket s) {shipment : Shipment}
    (sends : s.stage = .sending shipment) (all : shipment.isDone = true) (now : Nat) :
    ∃ acts, (l.conclude .done (.socket s.abandon) now).1.On (w.run acts) := by
  obtain ⟨_, same, taken, stage⟩ := on.stream
  obtain rfl := Stream.socket.inj (socket.symm.trans same)
  have permitted : w.permits .wrote = true := by simp [Wire.permits, ← stage, sends, all]
  have free : (l.session.act .wrote).1.inFlight = [] := by
    rcases l.session.wrote_cases with ⟨p, since, _, h⟩ | ⟨none, h⟩ <;> rw [Session.act, h]
    · rfl
    · exact none
  exact on.moved_idle (a := .wrote) trivial rfl permitted taken rfl free

theorem released (on : l.On w) {since : Nat} (writer : l.session.writer = .releasing since) :
    ∃ acts, { l with session := l.session.released }.On (w.run acts) := by
  obtain ⟨s, socket, _⟩ := on.stream
  have idle : l.session.inFlight = [] := by simp only [Session.inFlight, writer]
  obtain ⟨rest, taken⟩ := on.idle_of socket idle
  have free : (l.session.act .released).1.inFlight = [] := by
    simp [Session.act, writer, Session.inFlight]
  have released := on.moved_idle (a := .released) trivial rfl rfl taken rest free
  simpa only [Session.act, writer, ← socket] using released

end Lane.On

theorem Socket.ending?_done {s : Socket} (h : s.ending? = some .done) :
    ∃ shipment, s.stage = .sending shipment ∧ shipment.isDone = true := by
  unfold ending? at h
  cases stage : s.stage with
  | sending shipment => cases reader : s.reader <;> simp [stage, reader] at h ⊢ <;> grind
  | _ => simp [stage] at h

theorem Socket.ending?_alive (s : Socket) : s.ending? ≠ some .crashed := by
  have alive : s.flush ≠ .crashed := by
    unfold flush
    split <;> simp
  unfold ending?
  split <;> grind

namespace Lane.On

variable {l : Lane} {w : Wire}

/-- Whatever the lane does by itself is what the wire can do. -/
theorem act? (on : l.On w) {l' : Lane} {now : Nat} {told : List Notice}
    (h : l.act? now = some (l', told)) : ∃ acts, l'.On (w.run acts) := by
  obtain ⟨s, socket, taken, stage⟩ := on.stream
  cases act?_byItself h with
  | turns writer turn =>
    have idle : l.session.inFlight = [] := by simp only [Session.inFlight, writer]
    have engaged := on.engage socket idle now
    simpa only [Session.act, turn, Option.getD_some] using engaged
  | passes writer pass => simp [socket, Stream.pass?] at pass
  | @concludes p since e stream writer ending =>
    rw [socket] at ending
    obtain ⟨e, ends, same⟩ := Option.map_eq_some_iff.mp ending
    obtain ⟨rfl, rfl⟩ := Prod.mk.inj same
    cases e with
    | done =>
      obtain ⟨shipment, sends, all⟩ := Socket.ending?_done ends
      exact on.done socket sends all now
    | failed f => exact on.failed socket (t := s.abandon) rfl writer f now
    | crashed => exact absurd ends s.ending?_alive
  | released writer => exact on.released writer

/-- A write that takes too long fails wherever its frame is, and nothing more is taken of it. -/
theorem ring (on : l.On w) (now : Nat) : ∃ acts, (l.ring now).1.On (w.run acts) := by
  obtain ⟨s, socket, taken, stage⟩ := on.stream
  unfold Lane.ring
  cases writer : l.session.writer with
  | writing p since =>
    simp only [socket, Stream.due?, Option.any_none]
    exact on.failed socket rfl writer _ now
  | releasing since =>
    exact on.released writer
  | _ => exact ⟨[], on⟩

end Lane.On

theorem Lane.on_start (id : SessionId) (client : Client) (c : Config) (now capacity : Nat)
    (reader : Reader) : (⟨id, client, .start c now, .socket (.start capacity reader)⟩ : Lane).On
      (.start c now defaultFrameLimit) :=
  ⟨Wire.sound_start c now _, Strands.sound_start c now, ⟨rfl, rfl, rfl⟩, rfl, rfl, _, rfl, rfl, rfl⟩

/-- What an outlet takes of a part a wire can take of the shipment that goes on with it, and all of
the part if the outlet does. -/
theorem Outlet.ship_takes (o : Outlet) (s : Shipment) {w : Wire} {t : Shipment} {rest : List UInt8}
    (stage : w.stage = .sending t) (taken : w.taken = o.accepted)
    (next : t.unsent = s.unsent ++ rest) : ∃ (ns : List Nat) (t' : Shipment),
      (w.run (ns.map .take)).taken = (o.ship s).2.accepted ∧
      (w.run (ns.map .take)).stage = .sending t' ∧ ((o.ship s).1 = .ok () → t'.unsent = rest) := by
  fun_induction Outlet.ship o s generalizing w t with
  | case1 o s left n some =>
    rename_i ih
    have inside : n ≤ s.unsent.length := by
      rw [s.length_unsent]
      exact o.room_le s.left
    have same : t.portion n = s.portion n := by
      apply ByteArray.ext
      apply Array.toList_inj.mp
      rw [t.toList_portion, s.toList_portion, next, List.take_append_of_le_length inside]
    have took : w.act (.take n) =
        { w with stage := .sending (t.advance n), taken := w.taken ++ t.portion n } := by
      simp only [Wire.act, stage]
    obtain ⟨ns, t', more⟩ := ih (w := w.act (.take n)) (t := t.advance n) (by rw [took])
      (by rw [took, taken, same])
      (by rw [t.unsent_advance, s.unsent_advance, next, List.drop_append_of_le_length inside])
    exact ⟨n :: ns, t', more⟩
  | case2 o s left n => exact ⟨[], t, taken, stage, by simp⟩
  | case3 o s none =>
    refine ⟨[], t, taken, stage, fun _ => ?_⟩
    rw [next, List.eq_nil_of_length_eq_zero (s.length_unsent.trans (by omega)), List.nil_append]

theorem Outlet.shipEach_takes (o : Outlet) (parts : List ByteArray) {w : Wire} {t : Shipment}
    (stage : w.stage = .sending t) (taken : w.taken = o.accepted)
    (next : t.unsent = parts.flatMap (·.data.toList)) : ∃ (ns : List Nat) (t' : Shipment),
      (w.run (ns.map .take)).taken = (o.shipEach parts).2.accepted ∧
      (w.run (ns.map .take)).stage = .sending t' ∧
      ((o.shipEach parts).1 = .ok () → t'.unsent = []) := by
  induction parts generalizing o w t with
  | nil => exact ⟨[], t, taken, stage, fun _ => next⟩
  | cons part parts ih =>
    obtain ⟨ns, t', accepted, sends, all⟩ := o.ship_takes ⟨part, 0⟩ stage taken
      (by rw [next, List.flatMap_cons, Shipment.unsent_whole])
    unfold Outlet.shipEach
    cases ship : o.ship ⟨part, 0⟩ with
    | mk result o' =>
      rw [ship] at accepted all
      cases result with
      | error f => exact ⟨ns, t', accepted, sends, by simp⟩
      | ok _ =>
        obtain ⟨ms, u, more⟩ := ih o' sends accepted (all rfl)
        refine ⟨ns ++ ms, u, ?_⟩
        rw [List.map_append, Wire.run_append]
        exact more

/-- A payload that is sent to an outlet, whatever becomes of it, is a write on a wire. -/
theorem Outlet.send_takes (o : Outlet) (limit : Nat) (payload : ByteArray) {w : Wire}
    (stage : w.stage = Wire.offered limit payload) (taken : w.taken = o.accepted) :
    ∃ ns : List Nat, (w.run (ns.map .take)).taken = (o.send limit payload).2.accepted ∧
      ((o.send limit payload).1 = .ok () → (w.run (ns.map .take)).permits .wrote = true) := by
  unfold Wire.offered at stage
  unfold Outlet.send
  cases fits : oversized? limit payload with
  | some f => exact ⟨[], taken, by simp⟩
  | none =>
    rw [fits] at stage
    obtain ⟨ns, t, accepted, sends, all⟩ := o.shipEach_takes (frameParts payload) stage taken
      (flatMap_frameParts payload).symm
    refine ⟨ns, ?_⟩
    cases ship : o.shipEach (frameParts payload) with
    | mk result o' =>
      rw [ship] at accepted all
      cases result with
      | error f => exact ⟨accepted, by simp⟩
      | ok _ =>
        have done : t.left = 0 := by rw [← t.length_unsent, all rfl, List.length_nil]
        exact ⟨accepted, fun _ => by simp [Wire.permits, sends, Shipment.isDone, done]⟩

end Courier
