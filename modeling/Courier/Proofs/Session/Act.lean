import Courier.Session
import Mathlib.Data.List.Nodup

set_option autoImplicit false

namespace Courier.Session

inductive Act
  | offer (p : Parcel) (patience : Patience) (spent : Bool) (now : Nat)
  | abort (caller : Caller)
  | lapse (caller : Caller)
  | close
  | orphan
  | touch (now : Nat)
  | turn (now : Nat)
  | wrote
  | fail (f : StreamFault) (now : Nat)
  /-- The writer dies, in a write or before it ever ran. -/
  | crash
  | released
  deriving DecidableEq, Repr

def isWaiting (s : Session) (caller : Caller) : Bool :=
  s.waiting.any (·.parcel.caller == caller)

def act (s : Session) : Act → Session × List Notice
  | .offer p patience spent now =>
    ((s.offer p patience spent now).1,
      (s.offer p patience spent now).2.toList.map fun r => ⟨p.caller, .refused r⟩)
  | .abort caller => (s.forget caller, [])
  | .lapse caller =>
    if s.isWaiting caller then (s.forget caller, [⟨caller, .refused .lapsed⟩]) else (s, [])
  | .close => (s.close, [])
  | .orphan => ({ s with orphaned := true }, [])
  | .touch now => (s.touch now, [])
  | .turn now => (s.turn? now).getD (s, [])
  | .wrote => s.wrote
  | .fail f now => s.failed f now
  | .crash => if s.writer = .finished then (s, []) else s.crashed
  | .released =>
    match s.writer with
    | .releasing _ => (s.released, [])
    | _ => (s, [])

def inFlight (s : Session) : List Parcel :=
  match s.writer with
  | .writing p _ => [p]
  | _ => []

/-- What the queue has taken and is not written yet, the parcel in flight first. -/
def line (s : Session) : List Parcel := s.inFlight ++ s.queue

def waitingCallers (s : Session) : List Caller := s.waiting.map (·.parcel.caller)

def callers (s : Session) : List Caller := s.line.map (·.caller) ++ s.waitingCallers

namespace Act

def sender? : Act → Option Caller
  | .offer p _ _ _ => some p.caller
  | _ => none

def ended (s : Session) : Act → List (Parcel × Option StreamFault)
  | .wrote => s.inFlight.map fun p => (p, none)
  | .fail f _ => s.inFlight.map fun p => (p, some f)
  | _ => []

/-- The parcels that are given up with an act, without a write of theirs that ends. -/
def lost (s : Session) : Act → List Parcel
  | .fail _ _ => if s.inFlight = [] then [] else s.queue
  | .crash => if s.writer = .finished then [] else s.line
  | _ => []

def leavers (s : Session) : Act → List Caller
  | .abort caller => s.waitingCallers.filter (· == caller)
  | _ => []

end Act

theorem offer_cases (s : Session) (p : Parcel) (patience : Patience) (spent : Bool) (now : Nat) :
    (∃ r, s.offer p patience spent now = (s, some r)) ∨
    (s.isLive = true ∧ s.intake = true ∧ s.hasRoom = true ∧
      s.offer p patience spent now = ({ s with queue := s.queue ++ [p] }, none)) ∨
    (s.isLive = true ∧ s.intake = true ∧ s.hasRoom = false ∧ s.offer p patience spent now =
      ({ s with waiting := s.waiting ++ [⟨p, patience, now⟩] }, none)) := by
  unfold offer
  by_cases shut : (!s.isLive || !s.intake) = true
  · exact .inl ⟨.failed .closed, by simp only [shut, ite_true]⟩
  · simp only [Bool.or_eq_true, Bool.not_eq_true', not_or, Bool.not_eq_false] at shut
    by_cases room : s.hasRoom = true
    · exact .inr (.inl ⟨shut.1, shut.2, room, by simp [shut, room]⟩)
    · cases mode : s.backpressure with
      | failFast => exact .inl ⟨.full, by simp [shut, room]⟩
      | block =>
        cases spent with
        | true => exact .inl ⟨.lapsed, by simp [shut, room]⟩
        | false => exact .inr (.inr ⟨shut.1, shut.2, by simpa using room, by simp [shut, room]⟩)

theorem offer_refused {s : Session} {p : Parcel} {patience : Patience} {spent : Bool} {now : Nat}
    {r : Refusal} (refused : (s.offer p patience spent now).2 = some r) :
    (r = .failed .closed ∧ (s.isLive = false ∨ s.intake = false)) ∨
    (r = .full ∧ s.backpressure = .failFast ∧ s.hasRoom = false) ∨
    (r = .lapsed ∧ s.backpressure = .block ∧ s.hasRoom = false ∧ spent = true) := by
  unfold offer at refused
  split at refused
  · rename_i shut
    refine .inl ⟨(Option.some.inj refused).symm, ?_⟩
    simpa using shut
  · split at refused
    · simp at refused
    · rename_i room
      split at refused
      · rename_i mode
        exact .inr (.inl ⟨(Option.some.inj refused).symm, mode, by simpa using room⟩)
      · rename_i mode
        cases spent with
        | true => exact .inr (.inr ⟨(Option.some.inj refused).symm, mode, by simpa using room, rfl⟩)
        | false => simp at refused

/-- At most one caller gets a place, and it is the one that waited longest. -/
theorem refill_eq (s : Session) : ∃ moved rest, s.waiting = moved ++ rest ∧
    (moved = [] ∨ moved.length = 1 ∧ s.hasRoom = true) ∧
    s.refill = { s with queue := s.queue ++ moved.map (·.parcel), waiting := rest } := by
  unfold refill
  cases waiting : s.waiting with
  | nil => exact ⟨[], [], rfl, .inl rfl, by cases s; simp_all⟩
  | cons w ws =>
    by_cases room : s.hasRoom = true
    · exact ⟨[w], ws, rfl, .inr ⟨rfl, room⟩, by simp [room]⟩
    · exact ⟨[], w :: ws, rfl, .inl rfl, by simp [room, ← waiting]⟩

theorem turn?_idle {s : Session} {now : Nat} {moved : Session × List Notice}
    (h : s.turn? now = some moved) : s.writer = .idle := by
  unfold turn? at h
  cases writer : s.writer with
  | idle => rfl
  | _ => simp [writer] at h

inductive Turn (s : Session) (now : Nat) : Session → List Notice → Prop
  | shuts (taking : s.intake = true)
      (leaving : s.closing = true ∨ s.orphaned = true ∧ s.queue = []) :
      Turn s now { s with intake := false, waiting := [] }
        (s.waiting.map fun w => ⟨w.parcel.caller, .closed⟩)
  | takesUp (p : Parcel) (rest : List Parcel) (moved ws : List Waiter) (queue : s.queue = p :: rest)
      (waiting : s.waiting = moved ++ ws)
      (room : moved = [] ∨ moved.length = 1 ∧ rest.length < s.capacity)
      (stays : s.intake = true → s.closing = false) :
      Turn s now { s with
        queue := rest ++ moved.map (·.parcel), waiting := ws, writer := .writing p now } []
  | leaves (queue : s.queue = []) (shut : s.intake = false) :
      Turn s now { s with writer := .releasing now } []

theorem turn_of_turn? {s t : Session} {now : Nat} {ns : List Notice}
    (h : s.turn? now = some (t, ns)) : s.Turn now t ns := by
  simp only [turn?, turn?_idle h] at h
  by_cases leaving : (s.intake && (s.closing || s.queue.isEmpty && s.orphaned)) = true
  · simp only [leaving, ite_true, shut, Option.some.injEq, Prod.mk.injEq] at h
    simp only [Bool.and_eq_true, Bool.or_eq_true, List.isEmpty_iff] at leaving
    obtain ⟨rfl, rfl⟩ := h
    exact .shuts leaving.1 (leaving.2.imp id And.symm)
  · simp only [leaving, Bool.false_eq_true, ite_false] at h
    cases queue : s.queue with
    | cons p rest =>
      simp only [queue, Option.some.injEq, Prod.mk.injEq] at h
      obtain ⟨moved, ws, waiting, room, e⟩ :=
        refill_eq { s with queue := rest, writer := .writing p now }
      obtain ⟨rfl, rfl⟩ := h
      rw [e]
      refine .takesUp p rest moved ws queue waiting ?_ ?_
      · simpa [hasRoom] using room
      · intro taking
        simp only [taking, Bool.true_and, Bool.or_eq_true, not_or] at leaving
        simpa using leaving.1
    | nil =>
      cases intake : s.intake <;> simp [queue, intake] at h
      obtain ⟨rfl, rfl⟩ := h
      have leaves : s.Turn now _ [] := .leaves queue intake
      rwa [queue, intake] at leaves

theorem wrote_cases (s : Session) :
    (∃ p since, s.writer = .writing p since ∧ s.wrote =
      ({ s with sequence := s.sequence + 1, writer := .idle },
        [⟨p.caller, .written (s.sequence + 1)⟩])) ∨
    (s.inFlight = [] ∧ s.wrote = (s, [])) := by
  unfold wrote inFlight
  cases s.writer with
  | writing p since => exact .inl ⟨p, since, rfl, rfl⟩
  | _ => exact .inr ⟨rfl, rfl⟩

theorem failed_cases (s : Session) (f : StreamFault) (now : Nat) :
    (∃ p since, s.writer = .writing p since ∧ s.failed f now =
      ({ s with
          life := s.life.drain, intake := false, queue := [], waiting := []
          writer := .releasing now },
        ⟨p.caller, .refused (.failed f)⟩ :: (s.waiting.map fun w => ⟨w.parcel.caller, .closed⟩) ++
          s.queue.map fun q => ⟨q.caller, .closed⟩)) ∨
    (s.inFlight = [] ∧ s.failed f now = (s, [])) := by
  unfold failed inFlight
  cases s.writer with
  | writing p since => exact .inl ⟨p, since, rfl, rfl⟩
  | _ => exact .inr ⟨rfl, rfl⟩

@[simp]
theorem crashed_eq (s : Session) : s.crashed =
    ({ s with intake := false, queue := [], waiting := [], writer := .dead },
      (s.inFlight.map fun p => ⟨p.caller, .closed⟩) ++
        (s.waiting.map fun w => ⟨w.parcel.caller, .closed⟩) ++
        s.queue.map fun q => ⟨q.caller, .closed⟩) := by
  unfold crashed inFlight
  cases s.writer <;> rfl

theorem waitingCallers_forget (s : Session) (caller : Caller) :
    (s.forget caller).waitingCallers = s.waitingCallers.filter (· != caller) := by
  simp only [forget, waitingCallers, List.filter_map]
  rfl

theorem isWaiting_iff (s : Session) (caller : Caller) :
    s.isWaiting caller = true ↔ caller ∈ s.waitingCallers := by
  simp [isWaiting, waitingCallers]

theorem isWaiting_of_mem {s : Session} {v : Waiter} (waits : v ∈ s.waiting) :
    s.isWaiting v.parcel.caller = true :=
  (s.isWaiting_iff _).mpr (List.mem_map.mpr ⟨v, waits, rfl⟩)

/-- The ways in which an act takes a session to the next one, with the notices of it. -/
inductive Next (s : Session) : Act → Session → List Notice → Prop
  | still {a : Act} (silent : a.sender? = none) (unmarked : a ≠ .close ∧ a ≠ .orphan)
      (ended : a.ended s = []) (lost : a.lost s = []) (left : a.leavers s = []) : Next s a s []
  | refuses (p : Parcel) (patience : Patience) (spent : Bool) (now : Nat) (r : Refusal) :
      Next s (.offer p patience spent now) s [⟨p.caller, .refused r⟩]
  | queues (p : Parcel) (patience : Patience) (spent : Bool) (now : Nat) (live : s.isLive = true)
      (taking : s.intake = true) :
      Next s (.offer p patience spent now) { s with queue := s.queue ++ [p] } []
  | waits (p : Parcel) (patience : Patience) (spent : Bool) (now : Nat) (live : s.isLive = true)
      (taking : s.intake = true) :
      Next s (.offer p patience spent now) { s with waiting := s.waiting ++ [⟨p, patience, now⟩] } []
  | aborts (caller : Caller) : Next s (.abort caller) (s.forget caller) []
  | lapses (caller : Caller) (member : caller ∈ s.waitingCallers) :
      Next s (.lapse caller) (s.forget caller) [⟨caller, .refused .lapsed⟩]
  | closes : Next s .close s.close []
  | orphans : Next s .orphan { s with orphaned := true } []
  | touches (now : Nat) : Next s (.touch now) (s.touch now) []
  | shuts (now : Nat) (idle : s.writer = .idle) (taking : s.intake = true)
      (leaving : s.closing = true ∨ s.orphaned = true ∧ s.queue = []) :
      Next s (.turn now) { s with intake := false, waiting := [] }
        (s.waitingCallers.map (⟨·, .closed⟩))
  /-- The longest waiting callers get what places there are; a queue about to be shut is shut first. -/
  | takesUp (now : Nat) (p : Parcel) (rest : List Parcel) (moved ws : List Waiter)
      (idle : s.writer = .idle) (queue : s.queue = p :: rest) (waiting : s.waiting = moved ++ ws)
      (stays : s.intake = true → s.closing = false) :
      Next s (.turn now)
        { s with queue := rest ++ moved.map (·.parcel), waiting := ws, writer := .writing p now } []
  | leaves (now : Nat) (idle : s.writer = .idle) (queue : s.queue = []) (shut : s.intake = false) :
      Next s (.turn now) { s with writer := .releasing now } []
  | writes (p : Parcel) (since : Nat) (writer : s.writer = .writing p since) :
      Next s .wrote { s with sequence := s.sequence + 1, writer := .idle }
        [⟨p.caller, .written (s.sequence + 1)⟩]
  | fails (f : StreamFault) (now : Nat) (p : Parcel) (since : Nat)
      (writer : s.writer = .writing p since) :
      Next s (.fail f now)
        { s with
          life := s.life.drain, intake := false, queue := [], waiting := []
          writer := .releasing now }
        (⟨p.caller, .refused (.failed f)⟩ ::
          (s.waitingCallers.map (⟨·, .closed⟩) ++ s.queue.map (⟨·.caller, .closed⟩)))
  | dies (alive : s.writer ≠ .finished) :
      Next s .crash { s with intake := false, queue := [], waiting := [], writer := .dead }
        (s.inFlight.map (⟨·.caller, .closed⟩) ++
          (s.waitingCallers.map (⟨·, .closed⟩) ++ s.queue.map (⟨·.caller, .closed⟩)))
  | releases (since : Nat) (writer : s.writer = .releasing since) : Next s .released s.released []

theorem act_next (s : Session) (a : Act) : s.Next a (s.act a).1 (s.act a).2 := by
  have told : (s.waiting.map fun w => (⟨w.parcel.caller, .closed⟩ : Notice)) =
      s.waitingCallers.map (⟨·, .closed⟩) := by simp [waitingCallers, Function.comp_def]
  cases a with
  | offer p patience spent now =>
    rcases s.offer_cases p patience spent now with ⟨r, h⟩ | ⟨live, taking, _, h⟩ |
      ⟨live, taking, _, h⟩ <;> simp only [act, h]
    · exact .refuses p patience spent now r
    · exact .queues p patience spent now live taking
    · exact .waits p patience spent now live taking
  | abort caller => exact .aborts caller
  | lapse caller =>
    by_cases waits : s.isWaiting caller = true
    · simp only [act, waits, if_true]
      exact .lapses caller ((s.isWaiting_iff caller).mp waits)
    · simp only [act, waits]
      exact .still rfl ⟨nofun, nofun⟩ rfl rfl rfl
  | close => exact .closes
  | orphan => exact .orphans
  | touch now => exact .touches now
  | turn now =>
    simp only [act]
    cases h : s.turn? now with
    | none => exact .still rfl ⟨nofun, nofun⟩ rfl rfl rfl
    | some next =>
      obtain ⟨t, ns⟩ := next
      have idle := turn?_idle h
      cases turn_of_turn? h with
      | shuts taking leaving =>
        simp only [Option.getD_some, told]
        exact .shuts now idle taking leaving
      | takesUp p rest moved ws queue waiting _ stays =>
        exact .takesUp now p rest moved ws idle queue waiting stays
      | leaves queue shut => exact .leaves now idle queue shut
  | wrote =>
    rcases s.wrote_cases with ⟨p, since, writer, h⟩ | ⟨none, h⟩ <;> simp only [act, h]
    · exact .writes p since writer
    · exact .still rfl ⟨nofun, nofun⟩ (by simp [Act.ended, none]) rfl rfl
  | fail f now =>
    rcases s.failed_cases f now with ⟨p, since, writer, h⟩ | ⟨none, h⟩ <;> simp only [act, h]
    · simp only [told, List.cons_append]
      exact .fails f now p since writer
    · exact .still rfl ⟨nofun, nofun⟩ (by simp [Act.ended, none]) (by simp [Act.lost, none]) rfl
  | crash =>
    by_cases gone : s.writer = .finished
    · simp only [act, gone, if_true]
      exact .still rfl ⟨nofun, nofun⟩ rfl (by simp [Act.lost, gone]) rfl
    · simp only [act, gone, if_false, crashed_eq, told, List.append_assoc]
      exact .dies gone
  | released =>
    simp only [act]
    split
    · rename_i since writer
      exact .releases since writer
    · exact .still rfl ⟨nofun, nofun⟩ rfl rfl rfl

/-- Nothing is written, queued or taken any more. -/
def Halted (s : Session) : Prop := s.intake = false ∧ s.writer ≠ .idle ∧ s.line = []

theorem Halted.inFlight {s : Session} (h : s.Halted) : s.inFlight = [] :=
  (List.append_eq_nil_iff.mp h.2.2).1

theorem Next.halted {s t : Session} {a : Act} {told : List Notice} (next : s.Next a t told)
    (h : s.Halted) : t.Halted := by
  have still := h.inFlight
  have free (p : Parcel) (since : Nat) (writer : s.writer = .writing p since) : False := by
    simp [inFlight, writer] at still
  obtain ⟨shut, busy, empty⟩ := h
  cases next with
  | queues p patience spent now live taking => simp [shut] at taking
  | waits p patience spent now live taking => simp [shut] at taking
  | shuts now idle => exact absurd idle busy
  | takesUp now p rest moved ws idle => exact absurd idle busy
  | leaves now idle => exact absurd idle busy
  | writes p since writer => exact (free p since writer).elim
  | fails f now p since writer => exact (free p since writer).elim
  | dies alive => simp [Halted, line, Session.inFlight]
  | releases since writer =>
    have queue := (List.append_eq_nil_iff.mp empty).2
    exact ⟨shut, by simp, by simpa [line, Session.inFlight] using queue⟩
  | _ => exact ⟨shut, busy, empty⟩

theorem halted_act {s : Session} (h : s.Halted) (a : Act) : (s.act a).1.Halted :=
  (s.act_next a).halted h

/-- The ways from a session to the next one, by who comes in, which writes end, which parcels are
given up, who leaves, and who is told what. -/
inductive Turnover (s t : Session) : List Caller → List (Parcel × Option StreamFault) →
    List Parcel → List Caller → List Notice → Prop
  | still (line : t.line = s.line) (waiting : t.waitingCallers = s.waitingCallers)
      (sequence : t.sequence = s.sequence) : Turnover s t [] [] [] [] []
  | refused (c : Caller) (r : Refusal) (same : t = s) :
      Turnover s t [c] [] [] [] [⟨c, .refused r⟩]
  | taken (p : Parcel) (line : t.line = s.line ++ [p])
      (waiting : t.waitingCallers = s.waitingCallers) (sequence : t.sequence = s.sequence) :
      Turnover s t [p.caller] [] [] [] []
  | waits (c : Caller) (line : t.line = s.line)
      (waiting : t.waitingCallers = s.waitingCallers ++ [c]) (sequence : t.sequence = s.sequence) :
      Turnover s t [c] [] [] [] []
  | dropped (c : Caller) (line : t.line = s.line)
      (waiting : t.waitingCallers = s.waitingCallers.filter (· != c))
      (sequence : t.sequence = s.sequence) :
      Turnover s t [] [] [] (s.waitingCallers.filter (· == c)) []
  | lapsed (c : Caller) (member : c ∈ s.waitingCallers) (line : t.line = s.line)
      (waiting : t.waitingCallers = s.waitingCallers.filter (· != c))
      (sequence : t.sequence = s.sequence) : Turnover s t [] [] [] [] [⟨c, .refused .lapsed⟩]
  | shut (line : t.line = s.line) (waiting : t.waitingCallers = [])
      (sequence : t.sequence = s.sequence) :
      Turnover s t [] [] [] [] (s.waitingCallers.map (⟨·, .closed⟩))
  | tookUp (moved : List Parcel) (line : t.line = s.line ++ moved)
      (waiting : s.waitingCallers = moved.map (·.caller) ++ t.waitingCallers)
      (sequence : t.sequence = s.sequence) : Turnover s t [] [] [] [] []
  | wrote (p : Parcel) (line : s.line = p :: t.line)
      (waiting : t.waitingCallers = s.waitingCallers) (sequence : t.sequence = s.sequence + 1) :
      Turnover s t [] [(p, none)] [] [] [⟨p.caller, .written (s.sequence + 1)⟩]
  | failed (p : Parcel) (f : StreamFault) (queue : List Parcel) (line : s.line = p :: queue)
      (halted : t.Halted) (waiting : t.waitingCallers = []) (sequence : t.sequence = s.sequence) :
      Turnover s t [] [(p, some f)] queue [] (⟨p.caller, .refused (.failed f)⟩ ::
        (s.waitingCallers.map (⟨·, .closed⟩) ++ queue.map (⟨·.caller, .closed⟩)))
  | crashed (flight queue : List Parcel) (line : s.line = flight ++ queue)
      (halted : t.Halted) (waiting : t.waitingCallers = []) (sequence : t.sequence = s.sequence) :
      Turnover s t [] [] (flight ++ queue) [] (flight.map (⟨·.caller, .closed⟩) ++
        (s.waitingCallers.map (⟨·, .closed⟩) ++ queue.map (⟨·.caller, .closed⟩)))

theorem Next.turnover {s t : Session} {a : Act} {told : List Notice} (next : s.Next a t told) :
    Turnover s t a.sender?.toList (a.ended s) (a.lost s) (a.leavers s) told := by
  cases next with
  | still silent unmarked ended lost left =>
    rw [silent, ended, lost, left]
    exact .still rfl rfl rfl
  | refuses p patience spent now r => exact .refused p.caller r rfl
  | queues p patience spent now => exact .taken p (by simp [line, inFlight]) rfl rfl
  | waits p patience spent now => exact .waits p.caller rfl (by simp [waitingCallers]) rfl
  | aborts caller => exact .dropped caller rfl (s.waitingCallers_forget caller) rfl
  | lapses caller member => exact .lapsed caller member rfl (s.waitingCallers_forget caller) rfl
  | shuts now => exact .shut rfl rfl rfl
  | takesUp now p rest moved ws idle queue waiting =>
    exact .tookUp (moved.map (·.parcel)) (by simp [line, inFlight, idle, queue])
      (by simp [waitingCallers, waiting, Function.comp_def]) rfl
  | leaves now idle queue => exact .still (by simp [line, inFlight, idle, queue]) rfl rfl
  | writes p since writer =>
    simp only [Act.ended, inFlight, writer]
    exact .wrote p (by simp [line, inFlight, writer]) rfl rfl
  | fails f now p since writer =>
    simp only [Act.ended, Act.lost, inFlight, writer]
    exact .failed p f s.queue (by simp [line, inFlight, writer]) (by simp [Halted, line, inFlight])
      rfl rfl
  | dies alive =>
    simp only [Act.lost, alive, if_false]
    exact .crashed s.inFlight s.queue rfl (by simp [Halted, line, inFlight]) rfl rfl
  | releases since writer => exact .still (by simp [line, inFlight, writer]) rfl rfl
  | _ => exact .still rfl rfl rfl

theorem act_turnover (s : Session) (a : Act) :
    Turnover s (s.act a).1 a.sender?.toList (a.ended s) (a.lost s) (a.leavers s) (s.act a).2 :=
  (s.act_next a).turnover

theorem life_offer (s : Session) (p : Parcel) (patience : Patience) (spent : Bool) (now : Nat) :
    (s.offer p patience spent now).1.life = s.life := by
  rcases s.offer_cases p patience spent now with ⟨r, e⟩ | ⟨_, _, _, e⟩ | ⟨_, _, _, e⟩ <;> rw [e]

@[simp]
theorem isLive_drain (s : Session) : ({ s with life := s.life.drain } : Session).isLive = false := by
  cases s.life <;> rfl

@[simp]
theorem isLive_close (s : Session) : s.close.isLive = false := s.isLive_drain

theorem Next.dead {s t : Session} {a : Act} {told : List Notice} (next : s.Next a t told)
    (dead : s.isLive = false) : t.isLive = false := by
  cases next with
  | closes => exact s.isLive_close
  | fails => exact s.isLive_drain
  | releases => rfl
  | _ => exact dead

theorem dead_act {s : Session} (dead : s.isLive = false) (a : Act) : (s.act a).1.isLive = false :=
  (s.act_next a).dead dead

end Courier.Session
