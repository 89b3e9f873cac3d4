import Courier.Lane
import Courier.Proofs.Session.Act

set_option autoImplicit false

namespace Courier

theorem Stream.isHeld_pass? {s t : Stream} {now : Nat} (h : s.pass? now = some t) :
    s.isHeld = true ∧ t.isHeld = false := by
  cases s with
  | socket s => simp [pass?] at h
  | probe p =>
    obtain ⟨q, passed, rfl⟩ := Option.map_eq_some_iff.mp h
    obtain ⟨script, stage, started, recorded, closes⟩ := p
    cases stage with
    | held payload =>
      simp only [Probe.pass?] at passed
      split at passed
      · simp at passed
      · obtain rfl := Option.some.inj passed
        exact ⟨rfl, rfl⟩
    | _ => simp [Probe.pass?] at passed

theorem Stream.pass?_isSome (s : Stream) (t u : Nat) :
    (s.pass? t).isSome = (s.pass? u).isSome := by
  cases s with
  | socket s => rfl
  | probe p =>
    simp only [pass?, Option.isSome_map, Probe.pass?]
    cases p.stage <;> cases p.script.hold <;> rfl

namespace Session

theorem turn?_isSome (s : Session) (t u : Nat) : (s.turn? t).isSome = (s.turn? u).isSome := by
  unfold turn?
  cases s.writer <;> try rfl
  simp only
  split
  · rfl
  · cases s.queue with
    | nil => cases s.intake <;> rfl
    | cons p rest => rfl

def Act.IsWriters : Act → Prop
  | .turn _ => True
  | .wrote => True
  | .fail _ _ => True
  | .crash => True
  | .released => True
  | _ => False

end Session

namespace Lane

/-- The lane `l'` comes from `l` by an act of its session that is of a kind, or by a stage of its
stream only. -/
structure Moves (kind : Session.Act → Prop) (l l' : Lane) (told : List Notice) : Prop where
  id : l'.id = l.id
  client : l'.client = l.client
  session : (l'.session = l.session ∧ told = []) ∨
    ∃ a, kind a ∧ l.session.act a = (l'.session, told)

theorem engage_eq (l : Lane) (now : Nat) :
    (l.engage now).id = l.id ∧ (l.engage now).client = l.client ∧
      (l.engage now).session = l.session := by
  unfold engage
  cases l.session.writer <;> exact ⟨rfl, rfl, rfl⟩

theorem moves_conclude {l : Lane} {p : Parcel} {since : Nat}
    (writing : l.session.writer = .writing p since) (e : WriteEnd) (stream : Stream) (now : Nat) :
    l.Moves Session.Act.IsWriters (l.conclude e stream now).1 (l.conclude e stream now).2 := by
  cases e with
  | done => exact ⟨rfl, rfl, .inr ⟨.wrote, trivial, rfl⟩⟩
  | failed f =>
    obtain ⟨id, client, session⟩ := engage_eq
      { l with session := (l.session.failed f now).1, stream := stream.abandon } now
    exact ⟨id, client, .inr ⟨.fail f now, trivial, Prod.ext session.symm rfl⟩⟩
  | crashed =>
    refine ⟨rfl, rfl, .inr ⟨.crash, trivial, ?_⟩⟩
    simp [Session.act, writing, conclude]

/-- What a lane does at once: its writer takes something up, a write gets on or ends, or the stream is
found released. -/
inductive ByItself (l : Lane) (now : Nat) : Lane → List Notice → Prop
  | turns {session : Session} {told : List Notice} (writer : l.session.writer = .idle)
      (turn : l.session.turn? now = some (session, told)) :
      ByItself l now ({ l with session }.engage now) told
  | passes {p : Parcel} {since : Nat} {stream : Stream}
      (writer : l.session.writer = .writing p since) (pass : l.stream.pass? now = some stream) :
      ByItself l now { l with stream } []
  | concludes {p : Parcel} {since : Nat} {e : WriteEnd} {stream : Stream}
      (writer : l.session.writer = .writing p since) (ending : l.stream.ending? = some (e, stream)) :
      ByItself l now (l.conclude e stream now).1 (l.conclude e stream now).2
  | released {since : Nat} (writer : l.session.writer = .releasing since) :
      ByItself l now { l with session := l.session.released } []

theorem act?_byItself {l l' : Lane} {now : Nat} {told : List Notice}
    (h : l.act? now = some (l', told)) : l.ByItself now l' told := by
  unfold act? at h
  cases writer : l.session.writer with
  | idle =>
    simp only [writer, Option.map_eq_some_iff] at h
    obtain ⟨⟨session, ns⟩, turn, h⟩ := h
    obtain ⟨rfl, rfl⟩ := Prod.mk.inj h
    exact .turns writer turn
  | writing p since =>
    simp only [writer] at h
    cases pass : l.stream.pass? now with
    | some stream =>
      simp only [pass, Option.some.injEq, Prod.mk.injEq] at h
      obtain ⟨rfl, rfl⟩ := h
      exact .passes writer pass
    | none =>
      cases ending : l.stream.ending? with
      | none => simp [pass, ending] at h
      | some e =>
        simp only [pass, ending, Option.some.injEq] at h
        have concludes : l.ByItself now _ _ := .concludes writer ending
        rwa [h] at concludes
  | releasing since =>
    simp only [writer] at h
    split at h
    · obtain ⟨rfl, rfl⟩ := Prod.mk.inj (Option.some.inj h)
      exact .released writer
    · simp at h
  | finished => simp [writer] at h
  | dead => simp [writer] at h

theorem act?_moves {l l' : Lane} {now : Nat} {told : List Notice}
    (h : l.act? now = some (l', told)) : l.Moves Session.Act.IsWriters l' told := by
  cases act?_byItself h with
  | turns writer turn =>
    obtain ⟨id, client, kept⟩ := engage_eq { l with session := _ } now
    exact ⟨id, client, .inr ⟨.turn now, trivial, by simp [Session.act, turn, kept]⟩⟩
  | passes writer pass => exact ⟨rfl, rfl, .inl ⟨rfl, rfl⟩⟩
  | concludes writer ending => exact moves_conclude writer _ _ now
  | released writer =>
    exact ⟨rfl, rfl, .inr ⟨.released, trivial, by simp [Session.act, writer]⟩⟩

theorem ring_moves (l : Lane) (now : Nat) :
    l.Moves Session.Act.IsWriters (l.ring now).1 (l.ring now).2 := by
  unfold ring
  cases writer : l.session.writer with
  | writing p since =>
    simp only
    split
    · exact moves_conclude writer _ _ now
    · exact moves_conclude writer _ _ now
  | releasing since => exact ⟨rfl, rfl, .inr ⟨.released, trivial, by simp [Session.act, writer]⟩⟩
  | _ => exact ⟨rfl, rfl, .inl ⟨rfl, rfl⟩⟩

theorem lapse_moves {l : Lane} {caller : Caller} (waits : l.session.isWaiting caller = true) :
    l.Moves (· = .lapse caller) (l.lapse caller).1 (l.lapse caller).2 :=
  ⟨rfl, rfl, .inr ⟨.lapse caller, rfl, by simp [Session.act, waits, lapse]⟩⟩

theorem act?_isSome (l : Lane) (t u : Nat) : (l.act? t).isSome = (l.act? u).isSome := by
  unfold act?
  cases l.session.writer with
  | idle =>
    simp only [Option.isSome_map]
    exact l.session.turn?_isSome t u
  | writing p since =>
    have same := l.stream.pass?_isSome t u
    cases first : l.stream.pass? t <;> cases second : l.stream.pass? u <;>
      simp only [first, second, Option.isSome_none, Option.isSome_some, Bool.false_eq_true,
        Bool.true_eq_false] at same
    · cases l.stream.ending? <;> rfl
    · rfl
  | _ => rfl

theorem effort_close (l : Lane) : effort { l with session := l.session.close } = l.effort := rfl

theorem effort_conclude {l : Lane} {p : Parcel} {since : Nat}
    (writing : l.session.writer = .writing p since) (e : WriteEnd) (stream : Stream) (now : Nat) :
    (l.conclude e stream now).1.effort < l.effort := by
  have before : l.effort = 3 + l.stream.isHeld.toNat +
      3 * (l.session.queue.length + l.session.waiting.length) + l.session.intake.toNat +
      (!l.session.orphaned).toNat := by simp only [effort, writing]
  cases e with
  | done =>
    have after : (l.conclude .done stream now).1.effort =
        2 + 3 * (l.session.queue.length + l.session.waiting.length) + l.session.intake.toNat +
          (!l.session.orphaned).toNat := by
      simp only [conclude, Session.wrote, writing, effort]
    omega
  | failed f =>
    have after : (l.conclude (.failed f) stream now).1.effort =
        1 + (!l.session.orphaned).toNat := by
      simp [conclude, Session.failed, writing, effort, engage]
    omega
  | crashed =>
    have after : (l.conclude .crashed stream now).1.effort = (!l.session.orphaned).toNat := by
      simp [conclude, Session.crashed, effort]
    omega

theorem effort_turn {l : Lane} {now : Nat} {t : Session} {told : List Notice}
    (turn : l.session.turn? now = some (t, told)) :
    (engage { l with session := t } now).effort < l.effort := by
  have idle := Session.turn?_idle turn
  have before : l.effort = 2 + 3 * (l.session.queue.length + l.session.waiting.length) +
      l.session.intake.toNat + (!l.session.orphaned).toNat := by simp only [effort, idle]
  cases Session.turn_of_turn? turn with
  | shuts taking leaving =>
    rw [before, taking, Bool.toNat_true]
    simp only [engage, effort, idle, List.length_nil, Bool.toNat_false]
    omega
  | takesUp p rest moved ws queue waiting =>
    have held : (l.stream.begin p.payload).isHeld.toNat ≤ 1 := Bool.toNat_le _
    rw [before, queue, waiting, List.length_cons, List.length_append]
    simp only [engage, effort, List.length_append, List.length_map]
    omega
  | leaves queue shut =>
    rw [before]
    simp only [engage, effort]
    omega

theorem effort_act? {l l' : Lane} {now : Nat} {told : List Notice}
    (h : l.act? now = some (l', told)) : l'.effort < l.effort := by
  cases act?_byItself h with
  | turns writer turn => exact effort_turn turn
  | passes writer pass =>
    obtain ⟨held, passed⟩ := Stream.isHeld_pass? pass
    simp [effort, writer, held, passed]
  | concludes writer ending => exact effort_conclude writer _ _ now
  | released writer => simp [effort, writer]

theorem effort_ring {l : Lane} {a : Alarm} (alarm : l.alarm? = some a) (now : Nat) :
    (l.ring now).1.effort < l.effort := by
  unfold ring
  cases writer : l.session.writer with
  | writing p since =>
    simp only
    split
    · exact effort_conclude writer _ _ now
    · exact effort_conclude writer _ _ now
  | releasing since => simp [effort, writer]
  | _ => simp [alarm?, writer] at alarm

theorem effort_lapse {l : Lane} {caller : Caller} (waits : l.session.isWaiting caller = true) :
    (l.lapse caller).1.effort < l.effort := by
  have fewer : (l.session.waiting.filter (·.parcel.caller != caller)).length <
      l.session.waiting.length := by
    obtain ⟨w, there, own⟩ := List.any_eq_true.mp waits
    exact List.length_filter_lt_length_iff_exists.mpr ⟨w, there, by simpa using own⟩
  simp only [lapse, effort, Session.forget]
  omega

end Lane

end Courier
