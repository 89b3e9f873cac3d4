import Courier.Proofs.Lane.Runs
import Courier.Proofs.Session.Lifecycle

set_option autoImplicit false

namespace Courier

namespace Stream

variable {s t : Stream}

theorem closes_begin (s : Stream) (payload : String) : (s.begin payload).closes = s.closes := by
  cases s with
  | probe p => rfl
  | socket s =>
    simp only [begin, closes, Socket.begin, Socket.absorb]
    split <;> rfl

theorem closes_abandon (s : Stream) : s.abandon.closes = s.closes := by
  cases s <;> rfl

theorem closes_release (unreleased : s.closes = 0) (now : Nat) : (s.release now).closes = 1 := by
  cases s with
  | probe p => exact congrArg (· + 1) unreleased
  | socket s => rfl

theorem closes_pass? {now : Nat} (pass : s.pass? now = some t) : t.closes = s.closes := by
  cases s with
  | socket s => simp [pass?] at pass
  | probe p =>
    obtain ⟨q, passed, rfl⟩ := Option.map_eq_some_iff.mp pass
    unfold Probe.pass? at passed
    split at passed
    · split at passed
      · simp at passed
      · exact Option.some.inj passed ▸ rfl
    · simp at passed

theorem closes_finish (s : Stream) : s.finish.2.closes = s.closes := by
  cases s with
  | socket s => rfl
  | probe p =>
    simp only [finish, closes, Probe.finish]
    repeat' split
    all_goals rfl

theorem closes_ending? {e : WriteEnd} (ending : s.ending? = some (e, t)) : t.closes = s.closes := by
  cases s with
  | socket s =>
    obtain ⟨_, _, same⟩ := Option.map_eq_some_iff.mp ending
    exact (Prod.mk.inj same).2 ▸ rfl
  | probe p =>
    simp only [ending?] at ending
    split at ending
    · exact (Prod.mk.inj (Option.some.inj ending)).2 ▸ closes_finish (.probe p)
    · simp at ending

end Stream

namespace Session

theorem removed_act {s : Session} (removed : s.life = .removed) (a : Act) :
    (s.act a).1.life = .removed := by
  have next := s.act_next a
  generalize (s.act a).1 = t, (s.act a).2 = told at next
  cases next with
  | closes => simp [close, removed, Life.drain]
  | fails => simp [removed, Life.drain]
  | releases => rfl
  | _ => exact removed

end Session

namespace Lane

/-- The release of the stream has begun if the writer says so, and never twice. -/
structure Kept (l : Lane) : Prop where
  closes : l.stream.closes = l.session.writer.isLeaving.toNat
  removed : l.session.writer = .finished → l.session.life = .removed

variable {l l' : Lane} {now : Nat} {told : List Notice}

theorem kept_engage (unreleased : l.stream.closes = 0) (unfinished : l.session.writer ≠ .finished) :
    (l.engage now).Kept := by
  unfold engage
  cases writer : l.session.writer with
  | writing p since =>
    exact ⟨by simp [Stream.closes_begin, unreleased, writer], by simp [writer]⟩
  | releasing since =>
    exact ⟨by simp [Stream.closes_release unreleased, writer], by simp [writer]⟩
  | finished => exact absurd writer unfinished
  | _ => exact ⟨by simp [unreleased, writer], by simp [writer]⟩

theorem kept_conclude {p : Parcel} {since : Nat} (writing : l.session.writer = .writing p since)
    (e : WriteEnd) {stream : Stream} (unreleased : stream.closes = 0) :
    (l.conclude e stream now).1.Kept := by
  cases e with
  | done => exact ⟨by simp [conclude, Session.wrote, writing, unreleased],
      by simp [conclude, Session.wrote, writing]⟩
  | failed f =>
    refine kept_engage ((Stream.closes_abandon stream).trans unreleased) ?_
    simp [writing]
  | crashed =>
    exact ⟨by simp [conclude, Stream.closes_abandon, unreleased],
      by simp [conclude]⟩

theorem Kept.unreleased {p : Parcel} {since : Nat} (kept : l.Kept)
    (writing : l.session.writer = .writing p since) : l.stream.closes = 0 := by
  simp [kept.closes, writing]

theorem Kept.released {since : Nat} (kept : l.Kept) (writer : l.session.writer = .releasing since) :
    Kept { l with session := l.session.released } :=
  ⟨by simp [kept.closes, writer], fun _ => rfl⟩

theorem Kept.act? (kept : l.Kept) (acts : l.act? now = some (l', told)) : l'.Kept := by
  cases act?_byItself acts with
  | turns writer turn =>
    refine kept_engage (by simp [kept.closes, writer]) ?_
    cases Session.turn_of_turn? turn <;> simp [writer]
  | passes writer pass => exact ⟨(Stream.closes_pass? pass).trans kept.closes, kept.removed⟩
  | concludes writer ending =>
    exact kept_conclude writer _ ((Stream.closes_ending? ending).trans (kept.unreleased writer))
  | released writer => exact kept.released writer

theorem Kept.ring (kept : l.Kept) (now : Nat) : (l.ring now).1.Kept := by
  unfold Lane.ring
  cases writer : l.session.writer with
  | writing p since =>
    have unreleased := kept.unreleased writer
    simp only
    split
    · exact kept_conclude writer _ ((Stream.closes_finish _).trans unreleased)
    · exact kept_conclude writer _ unreleased
  | releasing since => exact kept.released writer
  | _ => exact kept

theorem IsFresh.kept (fresh : l.IsFresh) : l.Kept := by
  obtain ⟨c, since, new | new⟩ := fresh.session
  · exact ⟨by rw [fresh.closes, new]; rfl, by simp [new]⟩
  · exact ⟨by rw [fresh.closes, new, Session.crashed_eq]; rfl, by simp [new]⟩

theorem Step.kept {r : Regime} {x y : Scene} {left : List Caller} (step : Step r x told left y)
    (kept : x.lane.Kept) : y.lane.Kept := by
  cases step with
  | acts acts => exact kept.act? acts
  | rings => exact kept.ring x.now
  | @meets b outer =>
    have writer := Session.writer_of_outer outer x.lane.session
    exact ⟨by rw [writer]; exact kept.closes, fun finished =>
      Session.removed_act (kept.removed (writer ▸ finished)) b⟩
  | shifts same => exact ⟨same.trans kept.closes, kept.removed⟩
  | passes => exact kept

theorem Run.kept {r : Regime} {x y : Scene} {left : List Caller} (run : Run r x told left y)
    (kept : x.lane.Kept) : y.lane.Kept := by
  induction run with
  | refl => exact kept
  | tail _ step ih => exact step.kept ih

end Lane

end Courier
