import Courier.Proofs.Lane
import Courier.Proofs.Session.Admission

set_option autoImplicit false

namespace Courier

/-- How often the release of the stream has begun. A socket does not count beyond one. -/
def Stream.closes : Stream → Nat
  | .probe p => p.closes
  | .socket s => s.shut.toNat

@[simp] theorem Stream.closes_probe (p : Probe) : closes (.probe p) = p.closes := rfl
@[simp] theorem Stream.closes_socket (s : Socket) : closes (.socket s) = s.shut.toNat := rfl

/-- Which callers may come, whether everything happens at its own instant, and whether sessions may be
added that are not registered when they are opened. -/
structure Regime where
  permits : Caller → Prop
  connections : ∀ name, permits (.connection name)
  prompt : Prop
  adds : Prop

def Regime.free (prompt : Prop) : Regime := ⟨fun _ => True, fun _ => trivial, prompt, True⟩

def Regime.registered : Regime := ⟨fun _ => True, fun _ => trivial, False, False⟩

theorem Session.timely_of_isWriters {a : Act} (own : a.IsWriters) (s : Session) (now : Nat)
    (cancelled : List String) : a.Timely s now cancelled ∧ a.sender? = none ∧ a.leavers s = [] := by
  cases a with
  | offer => exact own.elim
  | lapse => exact own.elim
  | abort => exact own.elim
  | _ => exact ⟨trivial, rfl, rfl⟩

theorem Session.writer_of_outer {a : Act} (outer : ¬a.IsWriters) (s : Session) :
    (s.act a).1.writer = s.writer := by
  cases a with
  | offer p patience spent now =>
    rcases s.offer_cases p patience spent now with ⟨_, e⟩ | ⟨_, _, _, e⟩ | ⟨_, _, _, e⟩ <;>
      simp [act, e]
  | lapse caller =>
    simp only [act]
    split <;> rfl
  | turn => exact absurd trivial outer
  | wrote => exact absurd trivial outer
  | fail => exact absurd trivial outer
  | crash => exact absurd trivial outer
  | released => exact absurd trivial outer
  | _ => rfl

/-- Who was in a session, or has come, is there still, or is told something, or leaves. -/
theorem Session.Turnover.stays {s t : Session} {new : List Caller}
    {ended : List (Parcel × Option StreamFault)} {lost : List Parcel} {left : List Caller}
    {told : List Notice} (h : Turnover s t new ended lost left told) {c : Caller}
    (there : c ∈ s.callers ∨ c ∈ new) : c ∈ t.callers ∨ c ∈ told.map (·.caller) ∨ c ∈ left := by
  rw [Session.callers, List.mem_append] at there ⊢
  cases h with
  | still line waiting => exact .inl (by simpa [line, waiting] using there)
  | refused d r same =>
    rcases there with there | new
    · exact .inl (by simpa [same] using there)
    · exact .inr (.inl (by simpa using new))
  | taken p line waiting =>
    refine .inl ?_
    simp only [line, waiting, List.map_append, List.mem_append, List.map_cons, List.map_nil]
    tauto
  | waits d line waiting =>
    refine .inl ?_
    simp only [line, waiting, List.mem_append]
    tauto
  | dropped d line waiting =>
    simp only [line, waiting, List.mem_filter, List.not_mem_nil, or_false, bne_iff_ne,
      beq_iff_eq] at there ⊢
    tauto
  | lapsed d member line waiting =>
    simp only [line, waiting, List.mem_filter, List.not_mem_nil, or_false, bne_iff_ne,
      List.map_cons, List.map_nil, List.mem_singleton] at there ⊢
    tauto
  | shut line waiting =>
    simp only [line, waiting, List.map_map, Function.comp_def, List.map_id', List.not_mem_nil,
      or_false] at there ⊢
    tauto
  | tookUp moved line waiting =>
    simp only [line, waiting, List.map_append, List.mem_append, List.not_mem_nil, or_false] at there ⊢
    tauto
  | wrote p line waiting =>
    simp only [line, waiting, List.map_cons, List.mem_cons, List.map_nil, List.not_mem_nil,
      or_false] at there ⊢
    tauto
  | failed p f queue line halted waiting =>
    simp only [line, List.map_cons, List.map_append, List.map_map, Function.comp_def, List.map_id',
      List.mem_cons, List.mem_append, List.not_mem_nil, or_false] at there ⊢
    tauto
  | crashed flight queue line halted waiting =>
    simp only [line, List.map_append, List.map_map, Function.comp_def, List.map_id',
      List.mem_append, List.not_mem_nil, or_false] at there ⊢
    tauto

namespace Lane

def OpenedBy (c : Config) (l : Lane) : Prop :=
  ∃ now, l.session = .start c now ∨ l.session = (Session.start c now).crashed.1

structure IsFresh (l : Lane) : Prop where
  session : l.session.IsNew
  closes : l.stream.closes = 0

/-- Nothing is left to do now, and the alarm is not due before `later`. -/
structure Rests (l : Lane) (now later : Nat) : Prop where
  done : l.act? now = none
  due : ∀ a, l.alarm? = some a → later ≤ a.due

/-- A lane at a time when some tokens are cancelled. -/
structure Scene where
  now : Nat
  cancelled : List String
  lane : Lane

inductive Step (r : Regime) (x : Scene) : List Notice → List Caller → Scene → Prop
  | acts {l : Lane} {told : List Notice} (acts : x.lane.act? x.now = some (l, told)) :
      Step r x told [] { x with lane := l }
  | rings {a : Alarm} (still : x.lane.act? x.now = none) (alarm : x.lane.alarm? = some a)
      (due : a.due ≤ x.now) :
      Step r x (x.lane.ring x.now).2 [] { x with lane := (x.lane.ring x.now).1 }
  | meets {b : Session.Act} (outer : ¬b.IsWriters)
      (timely : b.Timely x.lane.session x.now x.cancelled)
      (allowed : ∀ c, b.sender? = some c → r.permits c) :
      Step r x (x.lane.session.act b).2 (b.leavers x.lane.session)
        { x with lane := { x.lane with session := (x.lane.session.act b).1 } }
  | shifts {s : Stream} (same : s.closes = x.lane.stream.closes) :
      Step r x [] [] { x with lane := { x.lane with stream := s } }
  | passes {now : Nat} {cancelled : List String} (forward : x.now ≤ now)
      (grown : ∀ token ∈ x.cancelled, token ∈ cancelled)
      (rests : r.prompt → x.now < now → x.lane.Rests x.now now) :
      Step r x [] [] ⟨now, cancelled, x.lane⟩

inductive Run (r : Regime) (x : Scene) : List Notice → List Caller → Scene → Prop
  | refl : Run r x [] [] x
  | tail {told more : List Notice} {left gone : List Caller} {y z : Scene}
      (run : Run r x told left y) (step : Step r y more gone z) :
      Run r x (told ++ more) (left ++ gone) z

variable {r : Regime} {x y z : Scene} {told more : List Notice} {left gone : List Caller}

theorem Step.run (step : Step r x told left y) : Run r x told left y := .tail .refl step

theorem Run.trans (first : Run r x told left y) (second : Run r y more gone z) :
    Run r x (told ++ more) (left ++ gone) z := by
  induction second with
  | refl => simpa using first
  | tail _ step ih => simpa only [List.append_assoc] using ih.tail step

/-- A step is an act of the session in its time, by one that may come, or does nothing to it. -/
theorem Step.session (step : Step r x told left y) :
    (y.lane.session = x.lane.session ∧ told = [] ∧ left = []) ∨
    ∃ a, x.lane.session.act a = (y.lane.session, told) ∧ a.leavers x.lane.session = left ∧
      a.Timely x.lane.session x.now x.cancelled ∧ (∀ c, a.sender? = some c → r.permits c) ∧
      y.now = x.now ∧ y.cancelled = x.cancelled := by
  have own {l : Lane} (moves : x.lane.Moves Session.Act.IsWriters l told) :
      (l.session = x.lane.session ∧ told = []) ∨
      ∃ a, x.lane.session.act a = (l.session, told) ∧ a.leavers x.lane.session = [] ∧
        a.Timely x.lane.session x.now x.cancelled ∧ ∀ c, a.sender? = some c → r.permits c := by
    refine moves.session.imp_right fun ⟨a, own, acted⟩ => ?_
    obtain ⟨timely, silent, stay⟩ := Session.timely_of_isWriters own x.lane.session x.now x.cancelled
    exact ⟨a, acted, stay, timely, by simp [silent]⟩
  cases step with
  | acts acts =>
    rcases own (act?_moves acts) with ⟨same, silent⟩ | ⟨a, acted, stay, timely, allowed⟩
    · exact .inl ⟨same, silent, rfl⟩
    · exact .inr ⟨a, acted, stay, timely, allowed, rfl, rfl⟩
  | rings =>
    rcases own (x.lane.ring_moves x.now) with ⟨same, silent⟩ | ⟨a, acted, stay, timely, allowed⟩
    · exact .inl ⟨same, silent, rfl⟩
    · exact .inr ⟨a, acted, stay, timely, allowed, rfl, rfl⟩
  | meets outer timely allowed => exact .inr ⟨_, rfl, rfl, timely, allowed, rfl, rfl⟩
  | shifts => exact .inl ⟨rfl, rfl, rfl⟩
  | passes => exact .inl ⟨rfl, rfl, rfl⟩

theorem Step.frame (step : Step r x told left y) :
    y.lane.id = x.lane.id ∧ y.lane.client = x.lane.client := by
  cases step with
  | acts acts => exact ⟨(act?_moves acts).id, (act?_moves acts).client⟩
  | rings => exact ⟨(x.lane.ring_moves x.now).id, (x.lane.ring_moves x.now).client⟩
  | _ => exact ⟨rfl, rfl⟩

theorem Step.forward (step : Step r x told left y) : x.now ≤ y.now := by
  cases step with
  | passes forward => exact forward
  | _ => exact Nat.le_refl _

theorem Step.grown (step : Step r x told left y) : ∀ token ∈ x.cancelled, token ∈ y.cancelled := by
  cases step with
  | passes _ grown => exact grown
  | _ => exact fun _ there => there

theorem Run.regular (run : Run r x told left y) (regular : x.lane.session.Regular) :
    y.lane.session.Regular := by
  induction run with
  | refl => exact regular
  | tail _ step ih =>
    rcases step.session with ⟨same, _⟩ | ⟨a, acted, _⟩
    · exact same ▸ ih
    · have acts := ih.act a
      rwa [acted] at acts

theorem Run.settings (run : Run r x told left y) :
    y.lane.session.settings = x.lane.session.settings := by
  induction run with
  | refl => rfl
  | @tail _ _ _ _ y z _ step ih =>
    rcases step.session with ⟨same, _⟩ | ⟨a, acted, _⟩
    · rw [same, ih]
    · calc z.lane.session.settings
        _ = (y.lane.session.act a).1.settings := by rw [acted]
        _ = y.lane.session.settings := y.lane.session.settings_act a
        _ = x.lane.session.settings := ih

theorem Run.stays (run : Run r x told left y) {c : Caller} (there : c ∈ x.lane.session.callers)
    (unheard : c ∉ told.map (·.caller)) (remains : c ∉ left) : c ∈ y.lane.session.callers := by
  induction run with
  | refl => exact there
  | @tail _ _ _ _ y _ _ step ih =>
    simp only [List.map_append, List.mem_append, not_or] at unheard remains
    have before := ih unheard.1 remains.1
    rcases step.session with ⟨same, _⟩ | ⟨a, acted, gone, _⟩
    · exact same ▸ before
    · have turnover := y.lane.session.act_turnover a
      rw [acted, gone] at turnover
      exact (turnover.stays (.inl before)).resolve_right fun parted =>
        parted.elim unheard.2 remains.2

end Lane

end Courier
