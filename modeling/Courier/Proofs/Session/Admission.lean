import Courier.Proofs.Session.Closing

set_option autoImplicit false

namespace Courier

/-- The deadline has come, or the token is cancelled. -/
def Patience.isOver (p : Patience) (now : Nat) (cancelled : List String) : Bool :=
  p.deadline.any (· ≤ now) || p.token.any cancelled.contains

namespace Session

/-- What can happen at a time when these tokens are cancelled: callers know whether their patience
is over, and they do not lapse before. -/
def Act.Timely (s : Session) (now : Nat) (cancelled : List String) : Act → Prop
  | .offer _ patience spent _ => spent = patience.isOver now cancelled
  | .lapse caller =>
    ∃ v ∈ s.waiting, v.parcel.caller = caller ∧ v.patience.isOver now cancelled = true
  | _ => True

/-- A queue holds no more than it has places for, and callers wait only while there is none. -/
structure Packed (s : Session) : Prop where
  places : 0 < s.capacity
  queue : s.queue.length ≤ s.capacity
  full : s.waiting ≠ [] → s.capacity ≤ s.queue.length
  blocks : s.waiting ≠ [] → s.backpressure = .block

theorem packed_start (c : Config) (now : Nat) (discarded : Bool) :
    (Ledger.start c now discarded).session.Packed := by
  have places : 0 < max c.queueCapacity 1 := by omega
  cases discarded <;> constructor <;> simp [places]

theorem Packed.alone {s : Session} (h : s.Packed) (room : s.hasRoom = true) : s.waiting = [] := by
  by_contra waits
  have full := h.full waits
  simp only [hasRoom, decide_eq_true_eq] at room
  omega

theorem packed_of_nobody {s : Session} (places : 0 < s.capacity) (queue : s.queue.length ≤ s.capacity)
    (nobody : s.waiting = []) : s.Packed :=
  ⟨places, queue, fun waits => absurd nobody waits, fun waits => absurd nobody waits⟩

/-- A place that becomes free goes to the caller that waited longest. -/
theorem packed_refill {s : Session} (places : 0 < s.capacity) (queue : s.queue.length ≤ s.capacity)
    (one : s.waiting ≠ [] → s.capacity ≤ s.queue.length + 1)
    (blocks : s.waiting ≠ [] → s.backpressure = .block) : s.refill.Packed := by
  unfold refill
  cases waiting : s.waiting with
  | nil => exact packed_of_nobody places queue waiting
  | cons w ws =>
    have waits : s.waiting ≠ [] := by simp [waiting]
    have short := one waits
    by_cases room : s.queue.length < s.capacity
    · simp only [hasRoom, room, decide_true, if_true]
      refine ⟨places, ?_, fun _ => ?_, fun _ => blocks waits⟩ <;>
        simp only [List.length_append, List.length_singleton] <;> omega
    · simp only [hasRoom, room, decide_false, Bool.false_eq_true, if_false]
      exact ⟨places, queue, fun _ => by omega, fun _ => blocks waits⟩

theorem Packed.forget {s : Session} (h : s.Packed) (caller : Caller) : (s.forget caller).Packed := by
  have fewer (waits : (s.forget caller).waiting ≠ []) : s.waiting ≠ [] := by
    intro none
    simp [Session.forget, none] at waits
  exact ⟨h.places, h.queue, fun waits => h.full (fewer waits), fun waits => h.blocks (fewer waits)⟩

theorem Packed.offer {s : Session} (h : s.Packed) (p : Parcel) (patience : Patience) (spent : Bool)
    (now : Nat) : (s.offer p patience spent now).1.Packed := by
  unfold Session.offer
  split
  · exact h
  · by_cases room : s.hasRoom = true
    · have nobody := h.alone room
      simp only [room, if_true]
      simp only [hasRoom, decide_eq_true_eq] at room
      refine packed_of_nobody h.places ?_ nobody
      simp only [List.length_append, List.length_singleton]
      omega
    · simp only [room, Bool.false_eq_true, if_false]
      simp only [hasRoom, decide_eq_true_eq] at room
      split
      · exact h
      · split
        · exact h
        · rename_i mode _
          exact ⟨h.places, h.queue, fun _ => Nat.not_lt.mp room, fun _ => mode⟩

theorem Packed.turn {s : Session} (h : s.Packed) (now : Nat) :
    ((s.turn? now).getD (s, [])).1.Packed := by
  unfold turn?
  cases writer : s.writer with
  | idle =>
    simp only
    split
    · exact packed_of_nobody h.places h.queue rfl
    · cases queue : s.queue with
      | nil =>
        cases intake : s.intake
        · exact ⟨h.places, by simp, by simpa [queue] using h.full, h.blocks⟩
        · exact h
      | cons p rest =>
        have size := h.queue
        have full := h.full
        simp only [queue, List.length_cons] at size full
        exact packed_refill h.places (Nat.le_of_succ_le size) full h.blocks
  | _ => exact h

theorem Packed.act {s : Session} (h : s.Packed) (a : Act) : (s.act a).1.Packed := by
  have kept {t : Session} (capacity : t.capacity = s.capacity) (queue : t.queue = s.queue)
      (waiting : t.waiting = s.waiting) (mode : t.backpressure = s.backpressure) : t.Packed :=
    ⟨capacity ▸ h.places, by rw [queue, capacity]; exact h.queue,
      by rw [queue, capacity, waiting]; exact h.full, by rw [waiting, mode]; exact h.blocks⟩
  cases a with
  | offer p patience spent now => exact h.offer p patience spent now
  | abort caller => exact h.forget caller
  | lapse caller =>
    simp only [Session.act]
    split
    · exact h.forget caller
    · exact h
  | turn now => exact h.turn now
  | wrote =>
    rcases s.wrote_cases with ⟨p, since, _, e⟩ | ⟨_, e⟩ <;> simp only [Session.act, e]
    · exact kept rfl rfl rfl rfl
    · exact h
  | fail f now =>
    rcases s.failed_cases f now with ⟨p, since, _, e⟩ | ⟨_, e⟩ <;> simp only [Session.act, e]
    · exact packed_of_nobody h.places (Nat.zero_le _) rfl
    · exact h
  | crash =>
    simp only [Session.act]
    split
    · exact h
    · rw [crashed_eq]
      exact packed_of_nobody h.places (Nat.zero_le _) rfl
  | released =>
    simp only [Session.act]
    split
    · exact kept rfl rfl rfl rfl
    · exact h
  | _ => exact kept rfl rfl rfl rfl

def settings (s : Session) : Nat × Backpressure × Nat := (s.capacity, s.backpressure, s.writeTimeout)

theorem settings_act (s : Session) (a : Act) : (s.act a).1.settings = s.settings := by
  have next := s.act_next a
  generalize (s.act a).1 = t, (s.act a).2 = told at next
  cases next <;> rfl

theorem settings_start (c : Config) (now : Nat) :
    (start c now).settings = (max c.queueCapacity 1, c.backpressure, c.writeTimeout) := rfl

theorem start_congr {c c' : Config} {now : Nat}
    (same : (start c' now).settings = (start c now).settings) : start c' now = start c now := by
  simp only [settings_start, Prod.mk.injEq] at same
  obtain ⟨capacity, mode, timeout⟩ := same
  simp only [start, capacity, mode, timeout]

theorem Packed.entered {s : Session} (h : s.Packed) {a : Act} (offered : a.sender? ≠ none)
    (entered : (s.act a).1.line.drop s.line.length ≠ []) : s.waitingCallers = [] := by
  cases a with
  | offer p patience spent now =>
    rcases s.offer_cases p patience spent now with ⟨r, e⟩ | ⟨_, _, room, e⟩ | ⟨_, _, _, e⟩
    · simp [Session.act, e] at entered
    · rw [waitingCallers, h.alone room, List.map_nil]
    · simp [Session.act, e, line, inFlight] at entered
  | _ => exact absurd rfl offered

/-- Those who enter the queue, and then those who wait, are in the order in which they came. -/
theorem Turnover.in_order {s t : Session} {new : List Caller}
    {ended : List (Parcel × Option StreamFault)} {lost : List Parcel} {left : List Caller}
    {told : List Notice} (h : Turnover s t new ended lost left told)
    (fair : new ≠ [] → t.line.drop s.line.length ≠ [] → s.waitingCallers = []) :
    ((t.line.drop s.line.length).map (·.caller) ++ t.waitingCallers).Sublist
      (s.waitingCallers ++ new) := by
  cases h with
  | still line waiting => simp [line, waiting]
  | refused c r same => simp [same]
  | taken p line waiting =>
    have nobody : s.waitingCallers = [] := fair (by simp) (by simp [line])
    simp [line, waiting, nobody]
  | waits c line waiting => simp [line, waiting]
  | dropped c line waiting => simp [line, waiting]
  | lapsed c member line waiting => simp [line, waiting]
  | shut line waiting => simp [line, waiting]
  | tookUp moved line waiting => simp [line, waiting]
  | wrote p line waiting =>
    have none : t.line.drop s.line.length = [] := by simp [line]
    simp [none, waiting]
  | failed p f queue line halted waiting => simp [halted.2.2, waiting]
  | crashed flight queue line halted waiting => simp [halted.2.2, waiting]

/-- Who is refused for want of a place, or for want of patience, and when. -/
theorem refused_told {s : Session} {a : Act} {n : Notice} {r : Refusal} (told : n ∈ (s.act a).2)
    (outcome : n.outcome = .refused r) (fine : ∀ f, r ≠ .failed f) :
    (∃ p patience spent now, a = .offer p patience spent now ∧ p.caller = n.caller ∧
      s.hasRoom = false ∧ ((r = .full ∧ s.backpressure = .failFast) ∨
        (r = .lapsed ∧ s.backpressure = .block ∧ spent = true))) ∨
    (r = .lapsed ∧ a = .lapse n.caller ∧ n.caller ∈ s.waitingCallers) := by
  have offered {p : Parcel} {patience : Patience} {spent : Bool} {now : Nat}
      (same : a = .offer p patience spent now) :
      p.caller = n.caller ∧ s.hasRoom = false ∧ ((r = .full ∧ s.backpressure = .failFast) ∨
        (r = .lapsed ∧ s.backpressure = .block ∧ spent = true)) := by
    obtain ⟨r', refused, rfl⟩ : ∃ r', (s.offer p patience spent now).2 = some r' ∧
        ⟨p.caller, .refused r'⟩ = n := by simpa [same, act] using told
    obtain rfl : r' = r := Outcome.refused.inj outcome
    rcases offer_refused refused with ⟨failed, _⟩ | ⟨full, mode, room⟩ | ⟨lapsed, mode, room, late⟩
    · exact absurd failed (fine .closed)
    · exact ⟨rfl, room, .inl ⟨full, mode⟩⟩
    · exact ⟨rfl, room, .inr ⟨lapsed, mode, late⟩⟩
  have next := s.act_next a
  generalize (s.act a).1 = t, (s.act a).2 = notices at next told
  cases next with
  | refuses p patience spent now => exact .inl ⟨p, patience, spent, now, rfl, offered rfl⟩
  | lapses caller member =>
    obtain rfl := List.mem_singleton.mp told
    exact .inr ⟨(Outcome.refused.inj outcome).symm, rfl, member⟩
  | writes p since =>
    obtain rfl := List.mem_singleton.mp told
    simp at outcome
  | shuts =>
    obtain ⟨c, _, rfl⟩ := List.mem_map.mp told
    exact absurd (Outcome.refused.inj outcome).symm (fine .closed)
  | fails f =>
    simp only [List.mem_cons, List.mem_append, List.mem_map] at told
    rcases told with rfl | ⟨c, _, rfl⟩ | ⟨q, _, rfl⟩
    · exact absurd (Outcome.refused.inj outcome).symm (fine f)
    · exact absurd (Outcome.refused.inj outcome).symm (fine .closed)
    · exact absurd (Outcome.refused.inj outcome).symm (fine .closed)
  | dies =>
    simp only [List.mem_append, List.mem_map] at told
    rcases told with ⟨p, _, rfl⟩ | ⟨c, _, rfl⟩ | ⟨q, _, rfl⟩ <;>
      exact absurd (Outcome.refused.inj outcome).symm (fine .closed)
  | _ => simp at told

/-- Who waits goes on to wait, or gets a place, or is refused by a queue that is shut; otherwise it has
lapsed, or was dropped. -/
theorem waiter_act {s : Session} {v : Waiter} (waits : v ∈ s.waiting) (a : Act) :
    v ∈ (s.act a).1.waiting ∨ v.parcel ∈ (s.act a).1.queue ∨
    ((s.act a).1.intake = false ∧ ⟨v.parcel.caller, .closed⟩ ∈ (s.act a).2) ∨
    (a = .lapse v.parcel.caller ∧ ⟨v.parcel.caller, .refused .lapsed⟩ ∈ (s.act a).2) ∨
    a = .abort v.parcel.caller := by
  have caller : v.parcel.caller ∈ s.waitingCallers := List.mem_map.mpr ⟨v, waits, rfl⟩
  have kept (c : Caller) : v ∈ (s.forget c).waiting ∨ c = v.parcel.caller := by
    by_cases own : c = v.parcel.caller
    · exact .inr own
    · exact .inl (List.mem_filter.mpr ⟨waits, by simpa using Ne.symm own⟩)
  have next := s.act_next a
  generalize (s.act a).1 = t, (s.act a).2 = told at next
  cases next with
  | waits p patience spent now => exact .inl (List.mem_append_left _ waits)
  | aborts c =>
    rcases kept c with still | rfl
    · exact .inl still
    · exact .inr (.inr (.inr (.inr rfl)))
  | lapses c =>
    rcases kept c with still | rfl
    · exact .inl still
    · exact .inr (.inr (.inr (.inl ⟨rfl, List.mem_singleton_self _⟩)))
  | shuts =>
    exact .inr (.inr (.inl ⟨rfl, List.mem_map.mpr ⟨_, caller, rfl⟩⟩))
  | takesUp now p rest moved ws idle queue waiting =>
    rw [waiting, List.mem_append] at waits
    rcases waits with gets | still
    · exact .inr (.inl (List.mem_append_right _ (List.mem_map.mpr ⟨v, gets, rfl⟩)))
    · exact .inl still
  | fails f now p since writer =>
    refine .inr (.inr (.inl ⟨rfl, List.mem_cons_of_mem _ (List.mem_append_left _ ?_)⟩))
    exact List.mem_map.mpr ⟨_, caller, rfl⟩
  | dies alive =>
    refine .inr (.inr (.inl ⟨rfl, List.mem_append_right _ (List.mem_append_left _ ?_)⟩))
    exact List.mem_map.mpr ⟨_, caller, rfl⟩
  | _ => exact .inl waits

theorem waiter_of_act {s : Session} {a : Act} {v : Waiter} (waits : v ∈ (s.act a).1.waiting) :
    v ∈ s.waiting ∨ a.sender? = some v.parcel.caller := by
  have next := s.act_next a
  generalize (s.act a).1 = t, (s.act a).2 = told at next waits
  cases next with
  | waits p patience spent now =>
    rcases List.mem_append.mp waits with old | new
    · exact .inl old
    · exact .inr (by rw [List.mem_singleton.mp new]; rfl)
  | aborts c => exact .inl (List.mem_of_mem_filter waits)
  | lapses c => exact .inl (List.mem_of_mem_filter waits)
  | takesUp now p rest moved ws idle queue waiting =>
    exact .inl (waiting ▸ List.mem_append_right moved waits)
  | shuts => simp at waits
  | fails => simp at waits
  | dies => simp at waits
  | _ => exact .inl waits

end Session

namespace Ledger
open Session (Act)

/-- The account of a session that was started so, kept until a time when these tokens are cancelled.
Nothing happened in it before its time. -/
inductive Kept (c : Config) (since : Nat) (discarded : Bool) : Nat → List String → Ledger → Prop
  | start (now : Nat) (cancelled : List String) :
      Kept c since discarded now cancelled (.start c since discarded)
  | record {now : Nat} {cancelled : List String} {l : Ledger}
      (kept : Kept c since discarded now cancelled l) (a : Act)
      (timely : a.Timely l.session now cancelled) :
      Kept c since discarded now cancelled (l.record a)
  | passes {now later : Nat} {cancelled more : List String} {l : Ledger}
      (kept : Kept c since discarded now cancelled l) (forward : now ≤ later)
      (grown : ∀ token ∈ cancelled, token ∈ more) : Kept c since discarded later more l

/-- How a session admits parcels, whatever happened to it and whatever happens next. -/
structure Admits (c : Config) (now : Nat) (cancelled : List String) (l : Ledger) : Prop where
  capacity : l.session.capacity = max c.queueCapacity 1
  queue : l.session.queue.length ≤ max c.queueCapacity 1
  /-- While there is a free place nobody waits. -/
  nobody : l.session.queue.length < max c.queueCapacity 1 → l.session.waiting = []
  /-- Who was accepted, and then who waits, in the order in which they came. -/
  order : (l.accepted.map (·.caller) ++ l.session.waitingCallers).Sublist l.senders
  /-- With a free place an offer is accepted at once. -/
  accepts : ∀ p patience spent t, l.session.isLive = true → l.session.intake = true →
    l.session.queue.length < max c.queueCapacity 1 →
    l.session.act (.offer p patience spent t) =
      ({ l.session with queue := l.session.queue ++ [p] }, [])
  /-- Without one it is refused at once, or waits. -/
  refuses : ∀ p patience spent t, c.backpressure = .failFast → l.session.isLive = true →
    l.session.intake = true → l.session.queue.length = max c.queueCapacity 1 →
    l.session.act (.offer p patience spent t) = (l.session, [⟨p.caller, .refused .full⟩])
  waits : ∀ p patience t, c.backpressure = .block → l.session.isLive = true →
    l.session.intake = true → l.session.queue.length = max c.queueCapacity 1 →
    l.session.act (.offer p patience (patience.isOver now cancelled) t) =
      if patience.isOver now cancelled then (l.session, [⟨p.caller, .refused .lapsed⟩])
      else ({ l.session with waiting := l.session.waiting ++ [⟨p, patience, t⟩] }, [])
  /-- Only who finds no place in a queue that refuses at once is told so. -/
  full : ∀ a, ∀ n ∈ (l.session.act a).2, n.outcome = .refused .full → c.backpressure = .failFast ∧
    l.session.queue.length = max c.queueCapacity 1
  /-- Only who has no place and no patience left lapses. -/
  lapsed : ∀ a, a.Timely l.session now cancelled → ∀ n ∈ (l.session.act a).2,
    n.outcome = .refused .lapsed → c.backpressure = .block ∧
    l.session.queue.length = max c.queueCapacity 1 ∧
    ((∃ p patience t, a = .offer p patience true t ∧ p.caller = n.caller ∧
        patience.isOver now cancelled = true) ∨
      ∃ v ∈ l.session.waiting, v.parcel.caller = n.caller ∧ v.patience.isOver now cancelled = true)
  /-- Who waits goes on to wait until it gets a place or the queue is shut, lapses or is dropped. -/
  patient : ∀ v ∈ l.session.waiting, ∀ a, let moved := l.session.act a
    v ∈ moved.1.waiting ∨ v.parcel ∈ moved.1.queue ∨
    (moved.1.intake = false ∧ ⟨v.parcel.caller, .closed⟩ ∈ moved.2) ∨
    (a = .lapse v.parcel.caller ∧ ⟨v.parcel.caller, .refused .lapsed⟩ ∈ moved.2) ∨
    a = .abort v.parcel.caller

variable {c : Config} {since now : Nat} {discarded : Bool} {cancelled : List String} {l : Ledger}

theorem Kept.settings (kept : Kept c since discarded now cancelled l) :
    l.session.settings = (Session.start c since).settings := by
  induction kept with
  | start => cases discarded <;> simp [Session.settings]
  | @record _ _ l _ a _ ih =>
    calc (l.session.act a).1.settings
      _ = l.session.settings := l.session.settings_act a
      _ = (Session.start c since).settings := ih
  | passes _ _ _ ih => exact ih

theorem Kept.of_settings {c' : Config} (kept : Kept c since discarded now cancelled l)
    (same : (Session.start c' since).settings = (Session.start c since).settings) :
    Kept c' since discarded now cancelled l := by
  induction kept with
  | start now cancelled =>
    have opened : Ledger.start c since discarded = Ledger.start c' since discarded := by
      simp only [Ledger.start, Session.start_congr same]
    exact opened ▸ .start now cancelled
  | record _ a timely ih => exact ih.record a timely
  | passes _ forward grown ih => exact ih.passes forward grown

theorem Kept.packed (kept : Kept c since discarded now cancelled l) : l.session.Packed := by
  induction kept with
  | start => exact Session.packed_start c since discarded
  | record _ a _ ih => exact ih.act a
  | passes _ _ _ ih => exact ih

theorem Kept.order (kept : Kept c since discarded now cancelled l) :
    (l.accepted.map (·.caller) ++ l.session.waitingCallers).Sublist l.senders := by
  induction kept with
  | start => cases discarded <;> exact List.Sublist.refl _
  | @record _ _ l kept a _ ih =>
    have turnover := (l.session.act_turnover a).in_order fun new => kept.packed.entered
      fun none => new (by simp [none])
    simp only [Ledger.record, List.map_append, List.append_assoc]
    refine (turnover.append_left (l.accepted.map (·.caller))).trans ?_
    rw [← List.append_assoc]
    exact ih.append_right _
  | passes _ _ _ ih => exact ih

theorem Kept.admits (kept : Kept c since discarded now cancelled l) : l.Admits c now cancelled := by
  have capacity : l.session.capacity = max c.queueCapacity 1 := congrArg (·.1) kept.settings
  have mode : l.session.backpressure = c.backpressure := congrArg (·.2.1) kept.settings
  have packed := kept.packed
  have size := packed.queue
  rw [capacity] at size
  have room : l.session.hasRoom = decide (l.session.queue.length < max c.queueCapacity 1) := by
    rw [Session.hasRoom, capacity]
  have full (none : l.session.hasRoom = false) :
      l.session.queue.length = max c.queueCapacity 1 := by
    rw [room, decide_eq_false_iff_not] at none
    omega
  refine {
    capacity
    queue := size
    nobody := fun free => packed.alone (by simpa [room] using free)
    order := kept.order
    accepts := fun p patience spent t live taking free => ?_
    refuses := fun p patience spent t failFast live taking filled => ?_
    waits := fun p patience t block live taking filled => ?_
    full := fun a n told outcome => ?_
    lapsed := fun a timely n told outcome => ?_
    patient := fun v waits a => Session.waiter_act waits a }
  · simp [Session.act, Session.offer, live, taking, room, free]
  · simp [Session.act, Session.offer, live, taking, room, filled, mode, failFast]
  · cases late : patience.isOver now cancelled <;>
      simp [Session.act, Session.offer, live, taking, room, filled, mode, block]
  · rcases Session.refused_told told outcome (by simp) with
      ⟨p, patience, spent, t, _, _, none, ⟨_, failFast⟩ | ⟨lapsed, _⟩⟩ | ⟨lapsed, _⟩
    · exact ⟨mode.symm.trans failFast, full none⟩
    · simp at lapsed
    · simp at lapsed
  · rcases Session.refused_told told outcome (by simp) with
      ⟨p, patience, spent, t, rfl, own, none, ⟨full, _⟩ | ⟨_, block, rfl⟩⟩ | ⟨_, rfl, waits⟩
    · simp at full
    · exact ⟨mode.symm.trans block, full none, .inl ⟨p, patience, t, rfl, own, timely.symm⟩⟩
    · obtain ⟨v, there, own, late⟩ := timely
      have some : l.session.waiting ≠ [] := List.ne_nil_of_mem there
      have filled := packed.full some
      rw [capacity] at filled
      exact ⟨mode.symm.trans (packed.blocks some), by omega, .inr ⟨v, there, own, late⟩⟩

end Ledger

end Courier
