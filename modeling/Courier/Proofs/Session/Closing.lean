import Courier.Proofs.Session.Ledger

set_option autoImplicit false

namespace Courier.Session

def run (s : Session) (acts : List Act) : Session := acts.foldl (fun s a => (s.act a).1) s

theorem run_append (s : Session) (first second : List Act) :
    s.run (first ++ second) = (s.run first).run second := List.foldl_append

/-- A session as it is opened. Its writer may have been thrown away. -/
def IsNew (s : Session) : Prop :=
  ∃ c now, s = start c now ∨ s = (start c now).crashed.1

/-- What holds of every session that was new once. -/
structure Regular (s : Session) : Prop where
  closed : s.closing = true → s.isLive = false
  shut : s.intake = false → s.waiting = []
  through : s.writer ≠ .idle → s.inFlight = [] → s.Halted
  removed : s.life = .removed → s.writer = .finished
  /-- What ended without being closed has nothing left. -/
  silent : s.isLive = false → s.closing = false → s.Halted
  /-- A queue is shut by the death of the writer, or because nobody holds a live session. -/
  alone : s.isLive = true → s.intake = false → s.writer = .dead ∨ s.orphaned = true

theorem regular_of_isNew {s : Session} (new : s.IsNew) : s.Regular := by
  obtain ⟨c, now, rfl | rfl⟩ := new
  · constructor <;> simp [isLive]
  · constructor <;> simp [isLive, inFlight, Halted, line]

theorem regular_of_halted {s : Session} (halted : s.Halted)
    (closed : s.closing = true → s.isLive = false) (waiting : s.waiting = [])
    (removed : s.life = .removed → s.writer = .finished)
    (alone : s.isLive = true → s.writer = .dead ∨ s.orphaned = true) : s.Regular where
  closed := closed
  shut _ := waiting
  through _ _ := halted
  removed := removed
  silent _ _ := halted
  alone live _ := alone live

theorem Next.regular {s t : Session} {a : Act} {told : List Notice} (next : s.Next a t told)
    (h : s.Regular) : t.Regular := by
  cases next with
  | still => exact h
  | refuses => exact h
  | queues p patience spent now live taking =>
    exact { h with
      through := fun busy none => absurd (h.through busy none).1 (by simp [taking])
      silent := fun dead => absurd (live.symm.trans dead) (by simp) }
  | waits p patience spent now live taking =>
    exact { h with shut := fun shut => absurd (taking.symm.trans shut) (by simp) }
  | aborts caller => exact { h with shut := fun shut => by simp [forget, h.shut shut] }
  | lapses caller => exact { h with shut := fun shut => by simp [forget, h.shut shut] }
  | closes =>
    have removed (gone : s.close.life = .removed) : s.life = .removed := by
      cases life : s.life <;> simp [close, Life.drain, life] at gone ⊢
    exact { h with
      closed := fun _ => s.isLive_close
      removed := fun gone => h.removed (removed gone)
      silent := by simp [close]
      alone := by simp [s.isLive_close] }
  | orphans => exact { h with alone := fun _ _ => .inr rfl }
  | touches now => exact { h with }
  | shuts now idle taking leaving =>
    -- who shuts the queue of a live session has seen that nobody holds it
    have unheld (live : s.isLive = true) : s.orphaned = true := by
      rcases leaving with closing | ⟨orphaned, _⟩
      · simp [h.closed closing] at live
      · exact orphaned
    exact { h with
      shut := fun _ => rfl
      through := fun busy => absurd idle busy
      silent := fun dead open_ => absurd idle (h.silent dead open_).2.1
      alone := fun live _ => .inr (unheld live) }
  | takesUp now p rest moved ws idle queue waiting =>
    exact { h with
      shut := fun shut => (List.append_eq_nil_iff.mp (waiting.symm.trans (h.shut shut))).2
      through := fun _ none => by simp [inFlight] at none
      removed := fun gone => by simp [h.removed gone] at idle
      silent := fun dead open_ => absurd idle (h.silent dead open_).2.1
      alone := fun live shut => .inr ((h.alone live shut).resolve_left (by simp [idle])) }
  | leaves now idle queue shut =>
    exact regular_of_halted ⟨shut, by simp, by simp [line, inFlight, queue]⟩ h.closed (h.shut shut)
      (fun gone => by simp [h.removed gone] at idle)
      (fun live => .inr ((h.alone live shut).resolve_left (by simp [idle])))
  | writes p since writer =>
    exact { h with
      through := fun busy => absurd rfl busy
      removed := fun gone => by simp [h.removed gone] at writer
      silent := fun dead open_ => by
        have none := (h.silent dead open_).inFlight
        simp [inFlight, writer] at none
      alone := fun live shut => .inr ((h.alone live shut).resolve_left (by simp [writer])) }
  | fails f now p since writer =>
    have removed (gone : s.life.drain = .removed) : s.life = .removed := by
      cases life : s.life <;> simp [Life.drain, life] at gone ⊢
    exact regular_of_halted (by simp [Halted, line, inFlight]) (fun _ => s.isLive_drain) rfl
      (fun gone => by simp [h.removed (removed gone)] at writer)
      (fun live => absurd (s.isLive_drain.symm.trans live) (by simp))
  | dies alive =>
    exact regular_of_halted (by simp [Halted, line, inFlight]) h.closed rfl
      (fun gone => absurd (h.removed gone) alive) (fun _ => .inl rfl)
  | releases since writer =>
    have halted := h.through (by simp [writer]) (by simp [inFlight, writer])
    have empty : s.queue = [] := (List.append_eq_nil_iff.mp halted.2.2).2
    exact regular_of_halted ⟨halted.1, by simp, by simp [line, inFlight, empty]⟩
      (fun _ => rfl) (h.shut halted.1) (fun _ => rfl) (fun live => by simp [isLive] at live)

theorem Regular.act {s : Session} (h : s.Regular) (a : Act) : (s.act a).1.Regular :=
  (s.act_next a).regular h

theorem Regular.run {s : Session} (h : s.Regular) (acts : List Act) : (s.run acts).Regular := by
  induction acts generalizing s with
  | nil => exact h
  | cons a acts ih => exact ih (h.act a)

/-- A session is marked only by those who close it, and by the last who lets go of it. -/
theorem marks_act (s : Session) (a : Act) :
    ((s.act a).1.closing = true ↔ s.closing = true ∨ a = .close) ∧
    ((s.act a).1.orphaned = true ↔ s.orphaned = true ∨ a = .orphan) := by
  have next := s.act_next a
  generalize (s.act a).1 = t, (s.act a).2 = told at next
  cases next with
  | still silent unmarked => simp [unmarked]
  | _ => simp [close, forget]

theorem closing_run {s : Session} (closing : s.closing = true) (acts : List Act) :
    (s.run acts).closing = true := by
  induction acts generalizing s with
  | nil => exact closing
  | cons a acts ih => exact ih ((s.marks_act a).1.mpr (.inl closing))

theorem orphaned_run {s : Session} (orphaned : s.orphaned = true) (acts : List Act) :
    (s.run acts).orphaned = true := by
  induction acts generalizing s with
  | nil => exact orphaned
  | cons a acts ih => exact ih ((s.marks_act a).2.mpr (.inl orphaned))

/-- A live session is ended by those who close it, by a write that fails, or by its writer when
nobody holds it. -/
theorem Regular.ends {s : Session} (h : s.Regular) (live : s.isLive = true) {a : Act}
    (dead : (s.act a).1.isLive = false) :
    a = .close ∨ (∃ f now, a = .fail f now) ∨ s.orphaned = true := by
  have next := s.act_next a
  generalize (s.act a).1 = t, (s.act a).2 = told at next dead
  cases next with
  | closes => exact .inl rfl
  | fails f now => exact .inr (.inl ⟨f, now, rfl⟩)
  | releases since writer =>
    -- the writer of a live session leaves only when nobody holds it
    have halted := h.through (by simp [writer]) (by simp [inFlight, writer])
    exact .inr (.inr ((h.alone live halted.1).resolve_left (by simp [writer])))
  | _ => exact absurd (live.symm.trans dead) (by simp)

theorem Regular.ended {s : Session} (h : s.Regular) (live : s.isLive = true) {acts : List Act}
    (dead : (s.run acts).isLive = false) :
    (s.run acts).closing = true ∨ (∃ f now, .fail f now ∈ acts) ∨ (s.run acts).orphaned = true := by
  induction acts generalizing s with
  | nil => exact absurd (live.symm.trans dead) (by simp)
  | cons a acts ih =>
    cases after : (s.act a).1.isLive with
    | true =>
      refine (ih (h.act a) after dead).imp id (Or.imp ?_ id)
      exact fun ⟨f, now, there⟩ => ⟨f, now, List.mem_cons_of_mem _ there⟩
    | false =>
      rcases h.ends live after with rfl | ⟨f, now, rfl⟩ | orphaned
      · exact .inl (closing_run ((s.marks_act .close).1.mpr (.inr rfl)) acts)
      · exact .inr (.inl ⟨f, now, List.mem_cons_self⟩)
      · exact .inr (.inr (orphaned_run ((s.marks_act a).2.mpr (.inl orphaned)) acts))

/-- The acts by which a session gives up parcels. -/
@[simp]
def Act.isFault : Act → Bool
  | .fail _ _ => true
  | .crash => true
  | _ => false

/-- From `s` to `t` the first parcels of the line were written and the next ones given up. -/
structure Flushes (s t : Session) (written lost : List Parcel) : Prop where
  line : s.line = written ++ lost ++ t.line
  sequence : t.sequence = s.sequence + written.length
  stopped : lost ≠ [] → t.line = []

theorem Regular.line_suffix {s : Session} (h : s.Regular) (closing : s.closing = true) (a : Act) :
    (s.act a).1.line <:+ s.line := by
  have dead := h.closed closing
  have next := s.act_next a
  generalize (s.act a).1 = t, (s.act a).2 = told at next
  cases next with
  | queues p patience spent now live => simp [dead] at live
  | waits p patience spent now live => simp [dead] at live
  | takesUp now p rest moved ws idle queue waiting stays =>
    -- a queue that is still open would have been shut, and nobody waits at one that is shut
    have shut : s.intake = false := by
      by_contra taking
      simp [stays (by simpa using taking)] at closing
    have none := (List.append_eq_nil_iff.mp (waiting.symm.trans (h.shut shut))).1
    simp [line, inFlight, idle, queue, none]
  | leaves now idle queue => simp [line, inFlight, idle, queue]
  | writes p since writer => exact ⟨[p], by simp [line, inFlight, writer]⟩
  | fails => exact List.nil_suffix
  | dies => exact List.nil_suffix
  | releases since writer => simp [line, inFlight, writer]
  | _ => exact List.suffix_rfl

theorem Flushes.refl (s : Session) : s.Flushes s [] [] := ⟨rfl, rfl, by simp⟩

theorem Flushes.trans {s t u : Session} {written lost written' lost' : List Parcel}
    (first : s.Flushes t written lost) (second : t.Flushes u written' lost') :
    s.Flushes u (written ++ written') (lost ++ lost') := by
  by_cases none : lost = []
  · subst none
    refine ⟨by simp [first.line, second.line], ?_, second.stopped⟩
    rw [second.sequence, first.sequence, List.length_append, Nat.add_assoc]
  · -- what was given up was all that was left
    have empty := second.line
    rw [first.stopped none] at empty
    obtain ⟨rfl, rfl, nothing⟩ : written' = [] ∧ lost' = [] ∧ u.line = [] := by simpa using empty.symm
    refine ⟨by simp [first.line, first.stopped none, nothing], ?_, fun _ => nothing⟩
    simp [second.sequence, first.sequence]

theorem Regular.flushes_act {s : Session} (h : s.Regular) (closing : s.closing = true) (a : Act) :
    ∃ written lost, s.Flushes (s.act a).1 written lost ∧ (lost ≠ [] → a.isFault = true) := by
  have turnover := s.act_turnover a
  have entered : (s.act a).1.line.drop s.line.length = [] :=
    List.drop_of_length_le (h.line_suffix closing a).length_le
  have line := turnover.line_append_entered
  rw [entered, List.append_nil] at line
  rcases turnover.answers with ⟨p, ended, lost, _, sequence⟩ | ⟨sequence, faults, _⟩
  · rw [ended, lost] at line
    exact ⟨[p], [], ⟨by simpa using line, by simp [sequence], by simp⟩, by simp⟩
  · refine ⟨[], (a.ended s).map (·.1) ++ a.lost s, ⟨by simpa using line, by simp [sequence], ?_⟩, ?_⟩
    · intro some
      have stops : (∃ w ∈ a.ended s, w.2.isSome = true) ∨ a.lost s ≠ [] := by
        by_cases none : a.ended s = []
        · exact .inr (by simpa [none] using some)
        · obtain ⟨w, member⟩ := List.exists_mem_of_ne_nil _ none
          exact .inl ⟨w, member, faults w member⟩
      exact (turnover.halted stops).2.2
    · intro some
      cases a with
      | fail f now => rfl
      | crash => rfl
      | wrote =>
        have none : s.inFlight = [] := by
          by_contra flight
          obtain ⟨p, member⟩ := List.exists_mem_of_ne_nil _ flight
          exact absurd (faults (p, Option.none) (List.mem_map.mpr ⟨p, member, rfl⟩)) (by simp)
        simp [Act.ended, Act.lost, none] at some
      | _ => simp [Act.ended, Act.lost] at some

/-- What a closed session goes on to do with its line: it writes the first parcels, and gives up the
rest if a write fails or its writer dies. -/
theorem Regular.flushes_run {s : Session} (h : s.Regular) (closing : s.closing = true)
    (acts : List Act) : ∃ written lost, s.Flushes (s.run acts) written lost ∧
      (lost ≠ [] → ∃ a ∈ acts, a.isFault = true) := by
  induction acts generalizing s with
  | nil => exact ⟨[], [], .refl s, by simp⟩
  | cons a acts ih =>
    obtain ⟨written, lost, first, fault⟩ := h.flushes_act closing a
    obtain ⟨written', lost', rest, faults⟩ := ih (h.act a) ((s.marks_act a).1.mpr (.inl closing))
    refine ⟨written ++ written', lost ++ lost', first.trans rest, ?_⟩
    intro some
    by_cases none : lost = []
    · obtain ⟨b, there, isFault⟩ := faults (by simpa [none] using some)
      exact ⟨b, List.mem_cons_of_mem _ there, isFault⟩
    · exact ⟨a, List.mem_cons_self, fault none⟩

theorem Regular.line_of_removed {s : Session} (h : s.Regular) (removed : s.life = .removed) :
    s.line = [] := by
  have finished := h.removed removed
  exact (h.through (by simp [finished]) (by simp [inFlight, finished])).2.2

end Courier.Session
