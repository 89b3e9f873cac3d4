import Courier.Proofs.Lane.Runs
import Courier.Proofs.Session.Lifecycle

/-!
# Deadlines

Where everything happens at its own instant a write is over when its time is up, and each parcel of
the line waits for the writes before it only. What is due for a parcel never gets later, whatever the
stream does and whoever closes the session.
-/

set_option autoImplicit false

namespace Courier

/-- What becomes of a parcel that a queue has taken. -/
def Outcome.IsVerdict : Outcome → Prop
  | .written _ => True
  | .refused (.failed _) => True
  | .refused _ => False

namespace Session

def servedSince (s : Session) (now : Nat) : Nat :=
  match s.writer with
  | .writing _ since => since
  | _ => now

/-- When the parcel at a place of the line has its verdict at the latest. -/
def deadline (s : Session) (now place : Nat) : Nat :=
  s.servedSince now + (place + 1) * s.writeTimeout

def InTime (s : Session) (now : Nat) : Prop :=
  ∀ p since, s.writer = .writing p since → since ≤ now ∧ now ≤ since + s.writeTimeout

def behind (s : Session) : List Notice :=
  s.waitingCallers.map (⟨·, .closed⟩) ++ s.queue.map (⟨·.caller, .closed⟩)

theorem failed_writing {s : Session} {p : Parcel} {since : Nat} (writer : s.writer = .writing p since)
    (f : StreamFault) (now : Nat) : (s.failed f now).1.isLive = false ∧
      (s.failed f now).2 = ⟨p.caller, .refused (.failed f)⟩ :: s.behind := by
  rcases s.failed_cases f now with ⟨q, t, writer', e⟩ | ⟨none, _⟩
  · obtain ⟨rfl, rfl⟩ := Writer.writing.inj (writer.symm.trans writer')
    rw [e]
    exact ⟨s.isLive_drain, by simp [behind, waitingCallers, Function.comp_def]⟩
  · simp [inFlight, writer] at none

theorem writeTimeout_act (s : Session) (a : Act) : (s.act a).1.writeTimeout = s.writeTimeout := by
  have next := s.act_next a
  generalize (s.act a).1 = t, (s.act a).2 = told at next
  cases next <;> rfl

theorem mem_closed {ps : List Parcel} {p : Parcel} (there : p ∈ ps) :
    ⟨p.caller, .closed⟩ ∈ ps.map fun q => (⟨q.caller, .closed⟩ : Notice) :=
  List.mem_map.mpr ⟨p, there, rfl⟩

/-- A parcel of the line has its verdict, or keeps a place by which it is due no later. -/
theorem Next.place {s t : Session} {a : Act} {told : List Notice} (next : s.Next a t told) {now : Nat}
    (inTime : s.InTime now)
    (begun : ∀ p since, t.writer = .writing p since → s.writer = .idle → since = now)
    {j : Nat} {p : Parcel} (place : s.line[j]? = some p) :
    (∃ n ∈ told, n.caller = p.caller ∧ n.outcome.IsVerdict) ∨
      ∃ i, t.line[i]? = some p ∧ t.deadline now i ≤ s.deadline now j := by
  have stays {t : Session} (line : t.line[j]? = some p) (due : t.deadline now j = s.deadline now j) :
      ∃ i, t.line[i]? = some p ∧ t.deadline now i ≤ s.deadline now j :=
    ⟨j, line, Nat.le_of_eq due⟩
  cases next with
  | queues q =>
    refine .inr (stays ?_ rfl)
    have inside := (List.getElem?_eq_some_iff.mp place).1
    change (s.inFlight ++ (s.queue ++ [q]))[j]? = some p
    rw [← List.append_assoc]
    exact (List.getElem?_append_left inside).trans place
  | takesUp since q rest moved ws idle queue =>
    obtain rfl : since = now := begun q since rfl idle
    have line : s.line = q :: rest := by simp [line, inFlight, idle, queue]
    rw [line] at place
    have inside := (List.getElem?_eq_some_iff.mp place).1
    refine .inr (stays ((List.getElem?_append_left inside).trans place) ?_)
    simp [deadline, servedSince, idle]
  | leaves _ idle queue => simp [line, inFlight, idle, queue] at place
  | writes q since writer =>
    have line : s.line = q :: s.queue := by simp [line, inFlight, writer]
    rw [line] at place
    cases j with
    | zero =>
      obtain rfl : q = p := by simpa using place
      exact .inl ⟨_, List.mem_singleton_self _, rfl, trivial⟩
    | succ j =>
      refine .inr ⟨j, by simpa [Session.line, inFlight] using place, ?_⟩
      -- one write less is before it, and that one took no longer than it may
      have onTime := (inTime q since writer).2
      simp only [deadline, servedSince, writer]
      rw [Nat.add_mul (j + 1)]
      omega
  | fails f _ q since writer =>
    have line : s.line = q :: s.queue := by simp [line, inFlight, writer]
    rw [line] at place
    refine .inl ?_
    rcases List.mem_cons.mp (List.mem_of_getElem? place) with rfl | queued
    · exact ⟨_, List.mem_cons_self, rfl, trivial⟩
    · exact ⟨_, List.mem_cons_of_mem _ (List.mem_append_right _ (mem_closed queued)), rfl, trivial⟩
  | dies =>
    refine .inl ?_
    rcases List.mem_append.mp (List.mem_of_getElem? place) with flight | queued
    · exact ⟨_, List.mem_append_left _ (mem_closed flight), rfl, trivial⟩
    · exact ⟨_, List.mem_append_right _ (List.mem_append_right _ (mem_closed queued)), rfl, trivial⟩
  | releases since writer =>
    refine .inr (stays ?_ ?_)
    · simpa [line, inFlight, writer] using place
    · simp [deadline, servedSince, writer]
  | _ => exact .inr (stays place rfl)

theorem waits_of_turn? {s : Session} {now : Nat} (idle : s.writer = .idle)
    (still : s.turn? now = none) :
    s.intake = true ∧ s.closing = false ∧ s.orphaned = false ∧ s.queue = [] := by
  unfold turn? at still
  rw [idle] at still
  cases intake : s.intake <;> cases closing : s.closing <;> cases orphaned : s.orphaned <;>
    cases queue : s.queue <;> simp_all

end Session

namespace Lane

open Session (InTime)

variable {r : Regime} {x y : Scene} {told : List Notice} {left : List Caller} {p : Parcel}
  {since : Nat}

/-- The stream is through with the write in progress, and this is how. -/
def IsThrough (l : Lane) (now : Nat) (e : WriteEnd) : Prop :=
  (∃ s, l.stream.ending? = some (e, s)) ∨ (l.stream.due?.any (· ≤ now) = true ∧ l.stream.finish.1 = e)

/-- A write ends when the stream is through with it, or when its time is up and the stream is not. A
write that fails takes all with it that is behind. -/
inductive WriteEnds (x : Scene) (p : Parcel) (since : Nat) (t : Session) : List Notice → Prop
  | written (through : x.lane.IsThrough x.now .done)
      (sequence : t.sequence = x.lane.session.sequence + 1) :
      WriteEnds x p since t [⟨p.caller, .written t.sequence⟩]
  | failed (f : StreamFault) (through : x.lane.IsThrough x.now (.failed f)) (dead : t.isLive = false) :
      WriteEnds x p since t (⟨p.caller, .refused (.failed f)⟩ :: x.lane.session.behind)
  | died (through : x.lane.IsThrough x.now .crashed) (dead : t.writer = .dead) :
      WriteEnds x p since t (⟨p.caller, .closed⟩ :: x.lane.session.behind)
  | late (stalled : ∀ e, ¬x.lane.IsThrough x.now e)
      (instant : x.now = since + x.lane.session.writeTimeout) (dead : t.isLive = false) :
      WriteEnds x p since t
        (⟨p.caller, .refused (.failed (.writeTimeout x.lane.session.writeTimeout))⟩ ::
          x.lane.session.behind)

theorem conclude_ends (writer : x.lane.session.writer = .writing p since) {e : WriteEnd}
    (through : x.lane.IsThrough x.now e) (stream : Stream) :
    WriteEnds x p since (x.lane.conclude e stream x.now).1.session
      (x.lane.conclude e stream x.now).2 := by
  cases e with
  | done =>
    have written : x.lane.session.wrote.2 = [⟨p.caller, .written x.lane.session.wrote.1.sequence⟩] := by
      simp [Session.wrote, writer]
    simp only [conclude, written]
    exact .written through (by simp [Session.wrote, writer])
  | failed f =>
    obtain ⟨dead, told⟩ := Session.failed_writing writer f x.now
    simp only [conclude, told]
    exact .failed f through (by rw [(engage_eq _ _).2.2]; exact dead)
  | crashed =>
    have told : x.lane.session.crashed.2 = ⟨p.caller, .closed⟩ :: x.lane.session.behind := by
      simp [Session.inFlight, writer, Session.behind, Session.waitingCallers,
        Function.comp_def]
    simp only [conclude, told]
    exact .died through (by simp)

theorem Step.ends (step : Step r x told left y) (inTime : x.lane.session.InTime x.now)
    (writer : x.lane.session.writer = .writing p since) :
    y.lane.session.writer = .writing p since ∨ WriteEnds x p since y.lane.session told := by
  cases step with
  | acts acts =>
    cases act?_byItself acts with
    | turns idle => simp [idle] at writer
    | passes => exact .inl writer
    | concludes _ ending => exact .inr (conclude_ends writer (.inl ⟨_, ending⟩) _)
    | released releasing => simp [releasing] at writer
  | @rings a still alarm due =>
    simp only [ring, writer]
    by_cases through : x.lane.stream.due?.any (· ≤ x.now) = true
    · rw [if_pos through]
      exact .inr (conclude_ends writer (.inr ⟨through, rfl⟩) _)
    · rw [if_neg through]
      obtain ⟨dead, told⟩ :=
        Session.failed_writing writer (.writeTimeout x.lane.session.writeTimeout) x.now
      -- the stream is not through, so it is for the time of the write that the alarm has come
      have instant : x.now = since + x.lane.session.writeTimeout := by
        have onTime := (inTime p since writer).2
        simp only [alarm?, writer, Option.some.injEq] at alarm
        subst alarm
        cases later : x.lane.stream.due? with
        | none =>
          simp only [later, Option.map_none, Option.getD_none] at due
          omega
        | some t =>
          simp only [later, Option.map_some, Option.getD_some] at due
          simp only [later, Option.any_some, decide_eq_true_eq] at through
          omega
      have stalled : ∀ e, ¬x.lane.IsThrough x.now e := by
        rintro e (⟨s, ending⟩ | ⟨reached, _⟩)
        · simp only [act?, writer] at still
          cases pass : x.lane.stream.pass? x.now <;> simp [pass, ending] at still
        · exact through reached
      simp only [conclude, told]
      exact .inr (.late stalled instant (by rw [(engage_eq _ _).2.2]; exact dead))
  | meets outer => exact .inl ((Session.writer_of_outer outer _).trans writer)
  | shifts => exact .inl writer
  | passes => exact .inl writer

theorem conclude_writer {l : Lane} (writer : l.session.writer = .writing p since) (e : WriteEnd)
    (stream : Stream) (now : Nat) : (l.conclude e stream now).1.session.writer.isWriting = false := by
  cases e with
  | done => simp [conclude, Session.wrote, writer]
  | failed f =>
    simp only [conclude, (engage_eq _ _).2.2]
    simp [Session.failed, writer]
  | crashed => simp [conclude]

theorem Step.begun (step : Step r x told left y) (writer : y.lane.session.writer = .writing p since) :
    x.lane.session.writer = .writing p since ∨
      (x.lane.session.writer = .idle ∧ since = x.now) := by
  have apart {t : Session} (ended : t.writer.isWriting = false) (writer : t.writer = .writing p since) :
      False := by simp [writer] at ended
  cases step with
  | acts acts =>
    cases act?_byItself acts with
    | turns before turn =>
      rw [(engage_eq _ _).2.2] at writer
      cases Session.turn_of_turn? turn with
      | shuts => simp [before] at writer
      | takesUp => exact .inr ⟨before, (Writer.writing.inj writer).2.symm⟩
      | leaves => simp at writer
    | passes => exact .inl writer
    | concludes before ending => exact (apart (conclude_writer before _ _ _) writer).elim
    | released => simp at writer
  | @rings a still alarm due =>
    refine (apart ?_ writer).elim
    simp only [ring]
    cases before : x.lane.session.writer with
    | writing q t =>
      simp only
      split <;> exact conclude_writer before _ _ _
    | releasing t => rfl
    | _ => simp [alarm?, before] at alarm
  | meets outer => exact .inl ((Session.writer_of_outer outer _).symm.trans writer)
  | shifts => exact .inl writer
  | passes => exact .inl writer

theorem Step.writeTimeout (step : Step r x told left y) :
    y.lane.session.writeTimeout = x.lane.session.writeTimeout := by
  rcases step.session with ⟨same, _⟩ | ⟨a, acted, _⟩
  · rw [same]
  · have kept := x.lane.session.writeTimeout_act a
    rwa [acted] at kept

theorem Rests.write {l : Lane} {now later : Nat} (rests : l.Rests now later)
    (writer : l.session.writer = .writing p since) : later ≤ since + l.session.writeTimeout := by
  refine Nat.le_trans (rests.due _ (by simp only [alarm?, writer]; rfl)) ?_
  cases l.stream.due? with
  | none => exact Nat.le_refl _
  | some t => exact Nat.min_le_left _ t

theorem Step.inTime (step : Step r x told left y) (prompt : r.prompt)
    (inTime : x.lane.session.InTime x.now) : y.lane.session.InTime y.now := by
  intro p since writer
  have begun := step.begun writer
  have limit := step.writeTimeout
  have stays (now : y.now = x.now) : since ≤ y.now ∧ y.now ≤ since + y.lane.session.writeTimeout := by
    rcases begun with before | ⟨_, rfl⟩
    · have := inTime p since before
      omega
    · omega
  cases step with
  | passes forward _ rests =>
    have := inTime p since writer
    rcases Nat.eq_or_lt_of_le forward with same | later
    · simp only
      omega
    · have := (rests prompt later).write writer
      simp only
      omega
  | _ => exact stays rfl

theorem Run.inTime (run : Run r x told left y) (prompt : r.prompt)
    (inTime : x.lane.session.InTime x.now) : y.lane.session.InTime y.now := by
  induction run with
  | refl => exact inTime
  | tail _ step ih => exact step.inTime prompt ih

theorem Run.writeTimeout (run : Run r x told left y) :
    y.lane.session.writeTimeout = x.lane.session.writeTimeout := by
  induction run with
  | refl => rfl
  | tail _ step ih => exact step.writeTimeout.trans ih

theorem IsFresh.inTime {l : Lane} (fresh : l.IsFresh) (now : Nat) : l.session.InTime now := by
  intro p since writer
  obtain ⟨c, t, new | new⟩ := fresh.session <;>
    simp [new] at writer

/-- On the way from the one scene to the other a write has ended, by the time that it has. -/
inductive Ended (r : Regime) (x : Scene) (p : Parcel) (since : Nat) (told : List Notice) (y : Scene) :
    Prop
  | intro {u v : Scene} {before verdict after : List Notice} {left left' left'' : List Caller}
      (first : Run r x before left u) (step : Step r u verdict left' v) (rest : Run r v after left'' y)
      (heard : told = before ++ verdict ++ after)
      (writer : u.lane.session.writer = .writing p since)
      (inTime : u.now ≤ since + x.lane.session.writeTimeout)
      (ends : WriteEnds u p since v.lane.session verdict) : Ended r x p since told y

theorem Run.ends (run : Run r x told left y) (prompt : r.prompt)
    (inTime : x.lane.session.InTime x.now) (writer : x.lane.session.writer = .writing p since) :
    y.lane.session.writer = .writing p since ∨ Ended r x p since told y := by
  induction run with
  | refl => exact .inl writer
  | @tail _ _ _ _ y z run step ih =>
    rcases ih with writes | ⟨first, ended, rest, rfl, at_end, onTime, ends⟩
    · have onTime := run.inTime prompt inTime
      rcases step.ends onTime writes with writes' | ends
      · exact .inl writes'
      · refine .inr (.intro run step .refl (List.append_nil _).symm writes ?_ ends)
        exact run.writeTimeout ▸ (onTime p since writes).2
    · exact .inr (.intro first ended (rest.tail step) (by simp only [List.append_assoc]) at_end onTime
        ends)

theorem line_of_rests {l : Lane} (regular : l.session.Regular) {now : Nat}
    (still : l.act? now = none) (free : l.session.writer.isWriting = false) : l.session.line = [] := by
  by_cases idle : l.session.writer = .idle
  · have turn : l.session.turn? now = none := by simpa [act?, idle] using still
    have empty := (Session.waits_of_turn? idle turn).2.2.2
    simp [Session.line, Session.inFlight, idle, empty]
  · refine (regular.through idle ?_).2.2
    cases writer : l.session.writer <;> simp [writer, Session.inFlight] at free ⊢

theorem Step.place (step : Step r x told left y) (prompt : r.prompt)
    (regular : x.lane.session.Regular) (inTime : x.lane.session.InTime x.now) {j : Nat}
    (place : x.lane.session.line[j]? = some p) :
    (∃ n ∈ told, n.caller = p.caller ∧ n.outcome.IsVerdict) ∨
      ∃ i, y.lane.session.line[i]? = some p ∧
        y.lane.session.deadline y.now i ≤ x.lane.session.deadline x.now j := by
  have begun (q : Parcel) (t : Nat) (writer : y.lane.session.writer = .writing q t)
      (idle : x.lane.session.writer = .idle) : t = x.now := by
    rcases step.begun writer with before | ⟨_, now⟩
    · simp [idle] at before
    · exact now
  rcases step.session with ⟨same, _⟩ | ⟨a, acted, _, _, _, now, _⟩
  · refine .inr ⟨j, same ▸ place, ?_⟩
    rw [same, Session.deadline, Session.deadline]
    refine Nat.add_le_add_right ?_ _
    cases step with
    | passes forward _ rests =>
      cases writer : x.lane.session.writer with
      | writing q t => simp [Session.servedSince, writer]
      | _ =>
        simp only [Session.servedSince, writer]
        refine Nat.le_of_not_lt fun later => ?_
        have empty :=
          line_of_rests regular (rests prompt later).done (by simp [writer])
        simp [empty] at place
    | _ => exact Nat.le_refl _
  · have next := x.lane.session.act_next a
    rw [acted] at next
    rw [now]
    exact next.place inTime begun place

/-- A parcel of the line has its verdict, or keeps a place by which it is due no later. -/
theorem Run.place (run : Run r x told left y) (prompt : r.prompt)
    (regular : x.lane.session.Regular) (inTime : x.lane.session.InTime x.now) {j : Nat}
    (place : x.lane.session.line[j]? = some p) :
    (∃ n ∈ told, n.caller = p.caller ∧ n.outcome.IsVerdict) ∨
      ∃ i, y.lane.session.line[i]? = some p ∧
        y.lane.session.deadline y.now i ≤ x.lane.session.deadline x.now j := by
  induction run with
  | refl => exact .inr ⟨j, place, Nat.le_refl _⟩
  | tail run step ih =>
    rcases ih with ⟨n, heard, verdict⟩ | ⟨i, there, due⟩
    · exact .inl ⟨n, List.mem_append_left _ heard, verdict⟩
    · rcases step.place prompt (run.regular regular) (run.inTime prompt inTime) there with
        ⟨n, heard, verdict⟩ | ⟨k, there', due'⟩
      · exact .inl ⟨n, List.mem_append_right _ heard, verdict⟩
      · exact .inr ⟨k, there', Nat.le_trans due' due⟩

theorem now_le_deadline {s : Session} {now : Nat} (inTime : s.InTime now) (j : Nat) :
    now ≤ s.deadline now j := by
  have first : s.writeTimeout ≤ (j + 1) * s.writeTimeout := Nat.le_mul_of_pos_left _ j.succ_pos
  unfold Session.deadline Session.servedSince
  cases writer : s.writer with
  | writing p since =>
    have := (inTime p since writer).2
    simp only
    omega
  | _ => exact Nat.le_add_right _ _

/-- A parcel with `j` others before it has its verdict when the time of so many writes, and of its
own, has passed. -/
theorem Run.verdict (run : Run r x told left y) (prompt : r.prompt)
    (regular : x.lane.session.Regular) (inTime : x.lane.session.InTime x.now) {j : Nat}
    (place : x.lane.session.line[j]? = some p)
    (late : x.now + (j + 1) * x.lane.session.writeTimeout < y.now) :
    ∃ n ∈ told, n.caller = p.caller ∧ n.outcome.IsVerdict := by
  refine (run.place prompt regular inTime place).resolve_right fun ⟨i, _, due⟩ => ?_
  have onTime := now_le_deadline (run.inTime prompt inTime) i
  have begun : x.lane.session.servedSince x.now ≤ x.now := by
    unfold Session.servedSince
    cases writer : x.lane.session.writer with
    | writing q since => exact (inTime q since writer).1
    | _ => exact Nat.le_refl _
  unfold Session.deadline at due
  unfold Session.deadline at onTime
  omega

end Lane

end Courier
