import Courier.Proofs.Session.Ledger
import Courier.Proofs.Session.Lifecycle

set_option autoImplicit false

namespace Courier

@[simp]
def Session.Act.parcel? : Session.Act → Option Parcel
  | .offer p _ _ _ => some p
  | _ => none

theorem Session.Act.sender?_eq (a : Session.Act) : a.sender? = a.parcel?.map (·.caller) := by
  cases a <;> rfl

/-- The steps of an act; the writer takes `n` of its own after the first. -/
@[simp]
def Session.Act.steps (n : Nat) : Session.Act → List Strands.Step
  | .offer p patience spent now => [.check p, .put p patience spent now]
  | .abort caller => [.quit caller]
  | .lapse caller => [.lapse caller]
  | .close => [.drain, .mark 0]
  | .orphan => [.orphan]
  | .touch now => [.touch now]
  | .turn now => List.replicate n (.move now)
  | .wrote => [.wrote]
  | .fail f now => .fail f :: List.replicate n (.move now)
  | .crash => []
  | .released => [.released]

/-- A session can be offered to or closed by those who hold it, and let go of when nobody waits. -/
def Session.Act.Fits (s : Session) : Session.Act → Prop
  | .offer _ _ _ _ => s.orphaned = false
  | .close => s.orphaned = false
  | .orphan => s.waiting = []
  | .crash => False
  | _ => True

namespace Strands
open Session (Act)

structure Quiet (x : Strands) : Prop where
  place : x.place = .steady
  admitted : x.admitted = []
  closers : x.closers = []

/-- The steps take the session from quiet to quiet, as the act does. -/
structure Does (x : Strands) (a : Act) (steps : List Step) : Prop where
  session : (x.run steps).session = (x.session.act a).1
  told : (x.run steps).told = x.told ++ (x.session.act a).2
  offers : (x.run steps).offers = x.offers ++ a.parcel?.toList
  quiet : (x.run steps).Quiet

theorem does_nothing {x : Strands} (quiet : x.Quiet) {a : Act}
    (still : x.session.act a = (x.session, [])) (silent : a.parcel? = none) : x.Does a [] where
  session := by simp [run, still]
  told := by simp [run, still]
  offers := by rw [silent]; simp [run]
  quiet

theorem does_offer {x : Strands} (quiet : x.Quiet) (p : Parcel) (patience : Patience) (spent : Bool)
    (now : Nat) (new : p.caller ∉ x.senders) (held : x.session.orphaned = false) :
    x.Does (.offer p patience spent now) [.check p, .put p patience spent now] := by
  obtain ⟨place, admitted, closers⟩ := quiet
  have offer := x.session.offer_eq_accept p patience spent now
  cases live : x.session.isLive with
  | false =>
    rw [live] at offer
    refine ⟨?_, ?_, ?_, ?_⟩ <;>
      simp [run, step, new, held, live, admitted, Session.act, offer]
    exact ⟨place, rfl, closers⟩
  | true =>
    rw [live] at offer
    refine ⟨?_, ?_, ?_, ?_⟩ <;>
      simp [run, step, new, held, live, admitted, Session.act, offer]
    exact ⟨place, rfl, closers⟩

/-- An aborting writer refuses all that is queued, and then releases the stream. -/
theorem run_aborting {x : Strands} (place : x.place = .aborting) (now : Nat) :
    x.run (List.replicate (x.session.queue.length + 1) (.move now)) =
      ({ x with session := { x.session with queue := [] } }.tell
        (x.session.queue.map fun q : Parcel => ⟨q.caller, .closed⟩)).release now := by
  generalize same : x.session.queue = queue
  induction queue generalizing x with
  | nil => simp [run, step, move, place, same]
  | cons p rest ih =>
    have first : x.step (.move now) =
        { x with session := { x.session with queue := rest } }.refuses p .closed := by
      simp [step, move, place, same]
    rw [List.length_cons, List.replicate_succ, run, List.foldl_cons, first]
    refine (ih ?_ ?_).trans ?_
    · exact place
    · rfl
    · simp

theorem does_turn_shut {x : Strands} (quiet : x.Quiet) (writer : x.session.writer = .idle)
    (intake : x.session.intake = false) (now : Nat) : x.Does (.turn now) [.move now] := by
  obtain ⟨place, admitted, closers⟩ := quiet
  cases queue : x.session.queue with
  | cons p rest =>
    have turn : x.session.turn? now =
        some ({ x.session with queue := rest, writer := .writing p now }.refill, []) := by
      simp [Session.turn?, writer, intake, queue]
    refine ⟨?_, ?_, ?_, ?_⟩ <;>
      simp [run, step, move, place, writer, intake, queue, beginWrite, Session.act, turn]
    exact ⟨rfl, admitted, closers⟩
  | nil =>
    have turn : x.session.turn? now = some ({ x.session with writer := .releasing now }, []) := by
      simp [Session.turn?, writer, intake, queue]
    refine ⟨?_, ?_, ?_, ?_⟩ <;>
      simp [run, step, move, place, writer, intake, queue, Session.act, turn]
    exact ⟨rfl, admitted, closers⟩

/-- An idle writer looks whether somebody closes the session, then into the queue, then whether
anybody is left. -/
theorem does_turn_open {x : Strands} (quiet : x.Quiet) (writer : x.session.writer = .idle)
    (intake : x.session.intake = true) (now : Nat) :
    ∃ n, x.Does (.turn now) (List.replicate n (.move now)) := by
  have still := quiet
  obtain ⟨place, admitted, closers⟩ := still
  cases closing : x.session.closing with
  | true =>
    have turn : x.session.turn? now = some x.session.shut := by
      simp [Session.turn?, writer, intake, closing]
    refine ⟨2, ?_, ?_, ?_, ?_⟩ <;>
      simp [run, step, move, place, writer, intake, closing, Session.act, turn,
        List.replicate]
    exact ⟨rfl, admitted, closers⟩
  | false =>
    cases queue : x.session.queue with
    | cons p rest =>
      have turn : x.session.turn? now =
          some ({ x.session with queue := rest, writer := .writing p now }.refill, []) := by
        simp [Session.turn?, writer, intake, closing, queue]
      refine ⟨2, ?_, ?_, ?_, ?_⟩ <;>
        simp [run, step, move, place, writer, intake, closing, queue, beginWrite, Session.act,
          turn, List.replicate]
      exact ⟨rfl, admitted, closers⟩
    | nil =>
      cases orphaned : x.session.orphaned with
      | true =>
        have turn : x.session.turn? now = some x.session.shut := by
          simp [Session.turn?, writer, intake, closing, queue, orphaned]
        refine ⟨3, ?_, ?_, ?_, ?_⟩ <;>
          simp [run, step, move, place, writer, intake, closing, queue, orphaned, Session.act,
            turn, List.replicate]
        exact ⟨rfl, admitted, closers⟩
      | false =>
        have rests : x.session.turn? now = none := by
          simp [Session.turn?, writer, intake, closing, queue, orphaned]
        exact ⟨0, does_nothing quiet (by simp [Session.act, rests]) rfl⟩

theorem does_turn {x : Strands} (quiet : x.Quiet) (now : Nat) :
    ∃ n, x.Does (.turn now) (List.replicate n (.move now)) := by
  cases writer : x.session.writer with
  | idle =>
    cases intake : x.session.intake with
    | true => exact does_turn_open quiet writer intake now
    | false => exact ⟨1, does_turn_shut quiet writer intake now⟩
  | _ =>
    have rests : x.session.turn? now = none := by simp [Session.turn?, writer]
    exact ⟨0, does_nothing quiet (by simp [Session.act, rests]) rfl⟩

theorem does_fail_of_aborting {x y : Strands} {f : StreamFault} {now : Nat} (n : Nat)
    (reached : x.run (.fail f :: List.replicate n (.move now)) = y) (place : y.place = .aborting)
    (admitted : y.admitted = []) (closers : y.closers = []) (offers : y.offers = x.offers)
    (session : { y.session with queue := [], writer := .releasing now } = (x.session.failed f now).1)
    (told : y.told ++ y.session.queue.map (fun q => ⟨q.caller, .closed⟩) =
      x.told ++ (x.session.failed f now).2) :
    x.Does (.fail f now)
      (.fail f :: List.replicate (n + (y.session.queue.length + 1)) (.move now)) := by
  have run : x.run (.fail f :: List.replicate (n + (y.session.queue.length + 1)) (.move now)) =
      ({ y with session := { y.session with queue := [] } }.tell
        (y.session.queue.map fun q : Parcel => ⟨q.caller, .closed⟩)).release now := by
    rw [← List.replicate_append_replicate, ← List.cons_append, run_append, reached,
      run_aborting place]
  refine ⟨?_, ?_, ?_, ?_⟩ <;> rw [run]
  · exact session
  · exact told
  · simp [offers]
  · exact ⟨rfl, admitted, closers⟩

theorem does_fail {x : Strands} (h : x.Sound) (quiet : x.Quiet) (f : StreamFault) (now : Nat) :
    ∃ n, x.Does (.fail f now) (.fail f :: List.replicate n (.move now)) := by
  have still := quiet
  obtain ⟨place, admitted, closers⟩ := still
  cases writer : x.session.writer with
  | writing p since =>
    have failed := x.session.failed_cases f now
    simp only [Session.inFlight, writer, List.cons_ne_nil, false_and, or_false] at failed
    obtain ⟨_, _, same, failed⟩ := failed
    obtain ⟨rfl, rfl⟩ := Writer.writing.inj same
    cases intake : x.session.intake with
    | true =>
      refine ⟨_, does_fail_of_aborting 3 rfl ?_ ?_ ?_ ?_ ?_ ?_⟩ <;>
        simp [run, step, broke, move, writer, intake, failed, admitted, closers, List.replicate]
    | false =>
      have nobody := h.coherent.nobody intake
      have dead : x.session.life.drain = x.session.life := by
        rcases h.coherent.left (.inr intake) with dead | ⟨_, _, still⟩
        · unfold Session.isLive at dead
          cases life : x.session.life <;> simp [life, Life.drain] at dead ⊢
        · simp [writer] at still
      refine ⟨_, does_fail_of_aborting 0 rfl ?_ ?_ ?_ ?_ ?_ ?_⟩ <;>
        simp [run, step, broke, writer, intake, failed, admitted, closers,
          nobody, dead]
  | _ =>
    refine ⟨0, ?_, ?_, ?_, ?_⟩ <;>
      simp [run, step, Session.act, Session.failed, writer]
    exact quiet

/-- An act that fits is a run of steps. -/
theorem exists_does {x : Strands} (h : x.Sound) (quiet : x.Quiet) {a : Act} (fits : a.Fits x.session)
    (new : ∀ p ∈ a.parcel?, p.caller ∉ x.senders) : ∃ n, x.Does a (a.steps n) := by
  have still := quiet
  obtain ⟨place, admitted, closers⟩ := still
  cases a with
  | offer p patience spent now =>
    exact ⟨0, does_offer quiet p patience spent now (new p rfl) fits⟩
  | abort caller =>
    refine ⟨0, ?_, ?_, ?_, ?_⟩ <;> simp [run, step, Session.act, admitted]
    exact ⟨place, rfl, closers⟩
  | lapse caller =>
    by_cases waits : x.session.isWaiting caller = true
    · refine ⟨0, ?_, ?_, ?_, ?_⟩ <;>
        simp [run, step, Session.act, waits]
      exact ⟨place, admitted, closers⟩
    · refine ⟨0, ?_, ?_, ?_, ?_⟩ <;>
        simp [run, step, Session.act, waits]
      exact quiet
  | close =>
    have held : x.session.orphaned = false := fits
    refine ⟨0, ?_, ?_, ?_, ?_⟩ <;>
      simp [run, step, Session.act, held, closers, Session.close_eq]
    exact ⟨place, admitted, rfl⟩
  | orphan =>
    have free : x.session.waiting = [] := fits
    refine ⟨0, ?_, ?_, ?_, ?_⟩ <;>
      simp [run, step, Session.act, admitted, closers, free]
    exact ⟨place, rfl, rfl⟩
  | touch now =>
    refine ⟨0, ?_, ?_, ?_, ?_⟩ <;> simp [run, step, Session.act]
    exact ⟨place, admitted, closers⟩
  | turn now => exact does_turn quiet now
  | wrote =>
    cases writer : x.session.writer with
    | writing p since =>
      refine ⟨0, ?_, ?_, ?_, ?_⟩ <;>
        simp [run, step, Session.act, writer]
      exact ⟨place, admitted, closers⟩
    | _ =>
      refine ⟨0, ?_, ?_, ?_, ?_⟩ <;>
        simp [run, step, Session.act, Session.wrote, writer]
      exact quiet
  | fail f now => exact does_fail h quiet f now
  | crash => exact fits.elim
  | released =>
    cases writer : x.session.writer with
    | releasing since =>
      refine ⟨0, ?_, ?_, ?_, ?_⟩ <;>
        simp [run, step, Session.act, writer]
      exact ⟨place, admitted, closers⟩
    | _ =>
      refine ⟨0, ?_, ?_, ?_, ?_⟩ <;> simp [run, step, Session.act, writer]
      exact quiet

def Fitting (l : Ledger) : List Act → Prop
  | [] => True
  | a :: acts => (l.permits a = true → a.Fits l.session) ∧ Fitting (l.act a) acts

/-- An account and the steps of a session that tell the same. -/
structure Follows (x : Strands) (l : Ledger) : Prop where
  session : x.session = l.session
  told : x.told = l.answers
  senders : x.senders = l.senders

theorem Follows.act {x : Strands} {l : Ledger} (h : x.Sound) (quiet : x.Quiet) (follows : x.Follows l)
    {a : Act} (fits : l.permits a = true → a.Fits l.session) :
    ∃ steps, (x.run steps).Quiet ∧ (x.run steps).Follows (l.act a) := by
  by_cases permitted : l.permits a = true
  · have new : ∀ p ∈ a.parcel?, p.caller ∉ x.senders := by
      intro p offered
      rw [follows.senders]
      refine Ledger.Sound.fresh permitted p.caller (Option.mem_toList.mpr ?_)
      rw [a.sender?_eq]
      exact Option.mem_map_of_mem _ offered
    obtain ⟨n, does⟩ := exists_does h quiet (follows.session ▸ fits permitted) new
    have senders : (x.run (a.steps n)).senders = x.senders ++ a.sender?.toList := by
      rw [Strands.senders, does.offers, List.map_append, a.sender?_eq, Option.toList_map]
      rfl
    refine ⟨a.steps n, does.quiet, ?_⟩
    rw [Ledger.act, if_pos permitted]
    exact ⟨by rw [does.session, follows.session]; rfl,
      by rw [does.told, follows.told, follows.session]; rfl,
      by rw [senders, follows.senders]; rfl⟩
  · rw [Ledger.act, if_neg permitted]
    exact ⟨[], quiet, follows⟩

theorem Follows.run {x : Strands} {l : Ledger} (h : x.Sound) (quiet : x.Quiet) (follows : x.Follows l)
    {acts : List Act} (fits : Fitting l acts) : ∃ steps, (x.run steps).Follows (l.run acts) := by
  induction acts generalizing x l with
  | nil => exact ⟨[], follows⟩
  | cons a acts ih =>
    obtain ⟨steps, quiet', follows'⟩ := follows.act h quiet fits.1
    obtain ⟨more, follows''⟩ := ih (h.run steps) quiet' follows' fits.2
    exact ⟨steps ++ more, by rw [run_append]; exact follows''⟩

/-- A run of acts is a run of steps: the same session comes of it, and the same is told. -/
theorem exists_steps (c : Config) (now : Nat) {acts : List Act}
    (fits : Fitting (Ledger.start c now false) acts) :
    ∃ steps, ((start c now).run steps).Follows ((Ledger.start c now false).run acts) :=
  Follows.run (sound_start c now) ⟨rfl, rfl, rfl⟩ ⟨rfl, rfl, rfl⟩ fits

end Strands

end Courier
