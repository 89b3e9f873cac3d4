import Courier.Proofs.Session.Act
import Mathlib.Tactic.Simps.Basic

set_option autoImplicit false

namespace Courier

/-- One caller is left out, and the others are told apart by their new names. -/
structure Omission where
  gone : Caller
  name : Caller → Caller
  distinct : ∀ c d, c ≠ gone → d ≠ gone → name c = name d → c = d

theorem Omission.name_bne (o : Omission) {c d : Caller} (other : c ≠ o.gone) (other' : d ≠ o.gone) :
    (o.name c != o.name d) = (c != d) := by
  rw [Bool.eq_iff_iff, bne_iff_ne, bne_iff_ne]
  exact not_congr ⟨o.distinct c d other other', congrArg o.name⟩

@[simps]
def Parcel.without (o : Omission) (p : Parcel) : Parcel := { p with caller := o.name p.caller }

@[simps]
def Waiter.without (o : Omission) (v : Waiter) : Waiter := { v with parcel := v.parcel.without o }

@[simps]
def Notice.without (o : Omission) (n : Notice) : Notice := { n with caller := o.name n.caller }

@[simp]
def Writer.without (o : Omission) : Writer → Writer
  | .writing p since => .writing (p.without o) since
  | writer => writer

namespace Session

variable (o : Omission) (b : Bool)

/-- The session without the caller. `b` says that it has learnt already that nobody holds it any more. -/
@[simps]
def without (s : Session) : Session :=
  { s with
    orphaned := s.orphaned || b
    queue := s.queue.map (·.without o)
    waiting := (s.waiting.filter (·.parcel.caller != o.gone)).map (·.without o)
    writer := s.writer.without o }

/-- That nobody holds the session is not to be noticed while something is queued, nor once it has
another reason to end. -/
def Hides (s : Session) : Prop :=
  b = true → s.orphaned = true ∨ s.queue ≠ [] ∨ s.closing = true ∨ s.intake = false

variable {o b} {s : Session}

@[simp]
theorem isLive_without (s : Session) : (s.without o b).isLive = s.isLive := rfl

@[simp]
theorem hasRoom_without (s : Session) : (s.without o b).hasRoom = s.hasRoom := by
  simp [hasRoom]

theorem offer_without (s : Session) {p : Parcel} (other : p.caller ≠ o.gone) (patience : Patience)
    (spent : Bool) (now : Nat) : (s.without o b).offer (p.without o) patience spent now =
      ((s.offer p patience spent now).1.without o b, (s.offer p patience spent now).2) := by
  have mode : (s.without o b).backpressure = s.backpressure := rfl
  have taking : (s.without o b).intake = s.intake := rfl
  simp only [offer, isLive_without, hasRoom_without, mode, taking]
  split
  · rfl
  · split
    · simp [without]
    · cases s.backpressure with
      | failFast => rfl
      | block => cases spent <;> simp [without, Waiter.without, Parcel.without, other]

theorem forget_gone (s : Session) : (s.forget o.gone).without o b = s.without o b := by
  simp [forget, without]

theorem forget_without (s : Session) {c : Caller} (other : c ≠ o.gone) :
    (s.without o b).forget (o.name c) = (s.forget c).without o b := by
  simp only [forget, without, List.filter_map, List.filter_filter, Session.mk.injEq, true_and,
    and_true]
  congr 1
  refine List.filter_congr fun v _ => ?_
  by_cases own : v.parcel.caller = o.gone
  · simp [own]
  · simp [o.name_bne own other, Bool.and_comm]

theorem waiting_without (absent : o.gone ∉ s.waitingCallers) :
    (s.without o b).waiting = s.waiting.map (·.without o) := by
  simp only [without]
  rw [List.filter_eq_self.mpr fun v there => ?_]
  simp only [bne_iff_ne, ne_eq]
  exact fun own => absent (List.mem_map.mpr ⟨v, there, own⟩)

/-- A place that becomes free goes to the same caller, unless it goes to the one that is left out. -/
theorem refill_without (entered : o.gone ∉ s.refill.queue.map (·.caller)) :
    (s.without o b).refill = s.refill.without o b := by
  unfold refill at entered ⊢
  rw [hasRoom_without]
  cases waiting : s.waiting with
  | nil => simp [waiting]
  | cons w ws =>
    by_cases room : s.hasRoom = true
    · have other : w.parcel.caller ≠ o.gone := by
        intro own
        simp [waiting, room, own] at entered
      simp [without, waiting, room, other, Waiter.without]
    · simp only [room, Bool.false_eq_true, if_false]
      split <;> rfl

theorem shut_without (unheard : o.gone ∉ s.shut.2.map (·.caller)) :
    (s.without o b).shut = (s.shut.1.without o b, s.shut.2.map (·.without o)) := by
  have absent : o.gone ∉ s.waitingCallers := by
    simpa [waitingCallers, Function.comp_def] using unheard
  simp only [shut, waiting_without absent, List.map_map]
  rfl

theorem Hides.leaves (hides : s.Hides b) :
    (s.intake && (s.closing || (s.without o b).queue.isEmpty && (s.without o b).orphaned)) =
      (s.intake && (s.closing || s.queue.isEmpty && s.orphaned)) := by
  cases b with
  | false => simp
  | true =>
    rcases hides rfl with told | queued | closing | shut
    · simp [told]
    · simp [List.isEmpty_eq_false_iff.mpr queued]
    · simp [closing]
    · simp [shut]

theorem turn?_without {now : Nat} (hides : s.Hides b)
    (fine : ∀ r, s.turn? now = some r →
      o.gone ∉ r.1.line.map (·.caller) ∧ o.gone ∉ r.2.map (·.caller)) :
    (s.without o b).turn? now =
      (s.turn? now).map fun r => (r.1.without o b, r.2.map (·.without o)) := by
  have leaves := hides.leaves (o := o)
  unfold turn? at fine ⊢
  cases writer : s.writer with
  | idle =>
    have idle : (s.without o b).writer = .idle := by simp [writer]
    simp only [writer] at fine
    simp only [idle]
    change (if (s.intake && (s.closing || (s.without o b).queue.isEmpty &&
      (s.without o b).orphaned)) = true then _ else _) = _
    rw [leaves]
    by_cases shuts : (s.intake && (s.closing || s.queue.isEmpty && s.orphaned)) = true
    · simp only [shuts, if_true] at fine ⊢
      rw [shut_without (fine _ rfl).2]
      rfl
    · simp only [shuts, Bool.false_eq_true, if_false] at fine ⊢
      cases queue : s.queue with
      | nil =>
        simp only [without, queue, List.map_nil]
        cases s.intake <;> simp
      | cons p rest =>
        simp only [queue] at fine
        have queued := (fine _ rfl).1
        rw [line, List.map_append] at queued
        have refilled := refill_without (b := b) fun there =>
          queued (List.mem_append_right _ there)
        simp only [Option.map_some, ← refilled]
        simp [without, queue, Writer.without]
  | _ => simp [writer]

theorem isSome_turn?_without (hides : s.Hides b) (now : Nat) :
    ((s.without o b).turn? now).isSome = (s.turn? now).isSome := by
  have leaves := hides.leaves (o := o)
  unfold turn?
  cases writer : s.writer with
  | idle =>
    have idle : (s.without o b).writer = .idle := by simp [writer]
    simp only [idle]
    change Option.isSome (if (s.intake && (s.closing || (s.without o b).queue.isEmpty &&
      (s.without o b).orphaned)) = true then _ else _) = _
    rw [leaves]
    split
    · rfl
    · cases queue : s.queue with
      | nil =>
        simp only [without, queue, List.map_nil]
        cases s.intake <;> rfl
      | cons p rest => simp [queue]
  | _ => simp [writer]

theorem wrote_without (s : Session) :
    (s.without o b).wrote = (s.wrote.1.without o b, s.wrote.2.map (·.without o)) := by
  unfold wrote
  cases writer : s.writer <;> simp [without, writer, Writer.without, Notice.without, Parcel.without]

theorem failed_without {f : StreamFault} {now : Nat}
    (unheard : o.gone ∉ (s.failed f now).2.map (·.caller)) :
    (s.without o b).failed f now =
      ((s.failed f now).1.without o b, (s.failed f now).2.map (·.without o)) := by
  unfold failed at unheard ⊢
  cases writer : s.writer with
  | writing p since =>
    have writing : (s.without o b).writer = .writing (p.without o) since := by
      simp [writer]
    simp only [writer] at unheard
    have shut : o.gone ∉ s.shut.2.map (·.caller) := fun there => unheard (by
      simp only [List.map_append, List.map_cons, List.mem_append, List.mem_cons]
      exact .inl (.inr there))
    simp only [writing, shut_without shut]
    simp [without, Writer.without, Notice.without, Parcel.without]
  | _ => simp [writer]

theorem crashed_without (unheard : o.gone ∉ s.crashed.2.map (·.caller)) :
    (s.without o b).crashed = (s.crashed.1.without o b, s.crashed.2.map (·.without o)) := by
  have absent : o.gone ∉ s.waitingCallers := by
    intro there
    rw [crashed_eq] at unheard
    apply unheard
    simp only [List.map_append, List.mem_append, List.map_map]
    exact .inl (.inr (by simpa [waitingCallers, Function.comp_def] using there))
  have flight : (s.without o b).inFlight = s.inFlight.map (·.without o) := by
    unfold inFlight
    cases writer : s.writer <;> simp [writer]
  rw [crashed_eq, crashed_eq, waiting_without absent, flight]
  simp [without, Writer.without, Notice.without, Parcel.without, Waiter.without, Function.comp_def]

theorem Turnover.count_le {s t : Session} {new : List Caller}
    {ended : List (Parcel × Option StreamFault)} {lost : List Parcel} {leavers : List Caller}
    {told : List Notice} (h : Turnover s t new ended lost leavers told) (c : Caller) :
    (told.map (·.caller)).count c + t.callers.count c ≤ s.callers.count c + new.count c := by
  have fewer (d : Caller) : (s.waitingCallers.filter (· != d)).count c ≤ s.waitingCallers.count c :=
    List.filter_sublist.count_le c
  cases h with
  | still line waiting => simp [callers, line, waiting]
  | refused d r same => simp [same, Nat.add_comm]
  | taken p line waiting =>
    simp only [callers, line, waiting, List.map_append, List.count_append, List.map_nil,
      List.count_nil, List.map_cons]
    omega
  | waits d line waiting =>
    simp only [callers, line, waiting, List.count_append, List.map_nil, List.count_nil]
    omega
  | dropped d line waiting =>
    have := fewer d
    simp only [callers, line, waiting, List.count_append, List.map_nil, List.count_nil]
    omega
  | lapsed d member line waiting =>
    have := fewer d
    -- who lapses is told so, and does not wait any more
    have own : (s.waitingCallers.filter (· != d)).count d = 0 :=
      List.count_eq_zero.mpr (by simp)
    have waits := List.count_pos_iff.mpr member
    simp only [callers, line, waiting, List.count_append, List.map_cons, List.map_nil,
      List.count_cons, List.count_nil]
    by_cases same : d = c
    · subst same
      simp only [beq_self_eq_true, if_true]
      omega
    · simp only [beq_iff_eq, same, if_false]
      omega
  | shut line waiting =>
    simp only [callers, line, waiting, List.count_append, List.map_map, Function.comp_def,
      List.map_id', List.count_nil]
    omega
  | tookUp moved line waiting =>
    simp only [callers, line, waiting, List.map_append, List.count_append, List.map_nil,
      List.count_nil]
    omega
  | wrote p line waiting =>
    simp only [callers, line, waiting, List.map_cons, List.map_nil, List.cons_append,
      List.count_cons, List.count_append, List.count_nil]
    omega
  | failed p f queue line halted waiting =>
    simp only [callers, line, halted.2.2, waiting, List.map_cons, List.map_append, List.map_map,
      Function.comp_def, List.map_id', List.map_nil, List.nil_append, List.cons_append,
      List.count_cons, List.count_append, List.count_nil]
    omega
  | crashed flight queue line halted waiting =>
    simp only [callers, line, halted.2.2, waiting, List.map_append, List.map_map,
      Function.comp_def, List.map_id', List.map_nil, List.nil_append, List.count_append,
      List.count_nil]
    omega

end Session

end Courier
