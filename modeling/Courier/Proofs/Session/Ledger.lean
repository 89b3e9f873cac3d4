import Courier.Hub
import Courier.Proofs.Session.Act
import Mathlib.Data.List.Perm.Subperm

/-!
# The ledger of a session

Beside a run of a session an account is kept of what its queue took, how each write ended, what was
given up unwritten and what the callers were told. Each parcel that was taken is written, failed,
aborted, in flight or queued, in the order in which the queue took it, and each caller is told what
its own parcel came to.
-/

set_option autoImplicit false

namespace Courier

structure Ledger where
  session : Session
  /-- Who has offered a parcel; each caller offers one. -/
  senders : List Caller
  accepted : List Parcel
  /-- The writes that have ended, in order, with the fault of one that failed. -/
  writes : List (Parcel × Option StreamFault)
  aborted : List Parcel
  /-- What became of the parcels. A caller that was dropped does not hear it. -/
  answers : List Notice
  left : List Caller

namespace Ledger
open Session (Act)

@[simp]
def start (c : Config) (now : Nat) (discarded : Bool) : Ledger where
  session := if discarded then (Session.start c now).crashed.1 else Session.start c now
  senders := []
  accepted := []
  writes := []
  aborted := []
  answers := []
  left := []

def permits (l : Ledger) (a : Act) : Bool := a.sender?.all fun c => !l.senders.contains c

def record (l : Ledger) (a : Act) : Ledger where
  session := (l.session.act a).1
  senders := l.senders ++ a.sender?.toList
  accepted := l.accepted ++ (l.session.act a).1.line.drop l.session.line.length
  writes := l.writes ++ a.ended l.session
  aborted := l.aborted ++ a.lost l.session
  answers := l.answers ++ (l.session.act a).2
  left := l.left ++ a.leavers l.session

def act (l : Ledger) (a : Act) : Ledger := if l.permits a then l.record a else l

def run (l : Ledger) (acts : List Act) : Ledger := acts.foldl act l

def written (l : Ledger) : List Parcel := (l.writes.filter (·.2.isNone)).map (·.1)

def failed (l : Ledger) : List Parcel := (l.writes.filter (·.2.isSome)).map (·.1)

end Ledger

namespace Session.Turnover

variable {s t : Session} {new : List Caller} {ended : List (Parcel × Option StreamFault)}
  {lost : List Parcel} {left : List Caller} {told : List Notice}

theorem line_append_entered (h : Turnover s t new ended lost left told) :
    s.line ++ t.line.drop s.line.length = ended.map (·.1) ++ lost ++ t.line := by
  cases h with
  | refused c r same => simp [same]
  | failed p f queue line halted => simp [halted.2.2, line]
  | crashed flight queue line halted => simp [halted.2.2, line]
  | wrote p line => simp [line]
  | still line => simp [line]
  | taken p line => simp [line]
  | waits c line => simp [line]
  | dropped c line => simp [line]
  | lapsed c member line => simp [line]
  | shut line => simp [line]
  | tookUp moved line => simp [line]

/-- No caller is lost or told twice: each one stays, is told, or was dropped. -/
theorem callers_perm (h : Turnover s t new ended lost left told) (distinct : s.callers.Nodup) :
    (s.callers ++ new).Perm (told.map (·.caller) ++ t.callers ++ left) := by
  cases h with
  | still line waiting => simp [Session.callers, line, waiting]
  | refused c r same =>
    rw [same]
    simp
  | taken p line waiting =>
    simp only [Session.callers, line, waiting, List.map_append, List.append_assoc]
    exact List.Perm.append_left _ (by simp)
  | waits c line waiting => simp [Session.callers, line, waiting]
  | dropped c line waiting =>
    have parts := (List.filter_append_perm (· != c) s.waitingCallers).symm
    simp only [bne, Bool.not_not] at parts
    simp only [Session.callers, line, waiting, List.map_nil, List.nil_append, List.append_nil,
      List.append_assoc]
    exact List.Perm.append_left _ parts
  | lapsed c member line waiting =>
    have unique : s.waitingCallers.Nodup := (List.nodup_append.mp distinct).2.1
    have moved := List.Perm.append_left (s.line.map (·.caller)) (List.perm_cons_erase member)
    simp only [Session.callers, line, waiting, ← unique.erase_eq_filter, List.append_nil]
    exact moved.trans List.perm_middle
  | shut line waiting =>
    simp only [Session.callers, line, waiting, List.map_map, Function.comp_def, List.map_id',
      List.append_nil]
    exact List.perm_append_comm
  | tookUp moved line waiting => simp [Session.callers, line, waiting]
  | wrote p line waiting => simp [Session.callers, line, waiting]
  | failed p f queue line halted waiting =>
    simpa [Session.callers, line, halted.2.2, waiting, Function.comp_def] using
      List.perm_append_comm
  | crashed flight queue line halted waiting =>
    simpa [Session.callers, line, halted.2.2, waiting, Function.comp_def] using
      List.Perm.append_left _ List.perm_append_comm

theorem entered_perm (h : Turnover s t new ended lost left told) :
    ((t.line.drop s.line.length).map (·.caller) ++ t.waitingCallers).Subperm
      (s.waitingCallers ++ new) := by
  cases h with
  | still line waiting => simpa [line, waiting] using .refl _
  | refused c r same => simpa [same] using (List.sublist_append_left _ _).subperm
  | taken p line waiting =>
    have moved : ([p.caller] ++ s.waitingCallers).Perm (s.waitingCallers ++ [p.caller]) :=
      List.perm_append_comm
    simpa [line, waiting] using moved.subperm
  | waits c line waiting => simpa [line, waiting] using .refl _
  | dropped c line waiting => simpa [line, waiting] using List.filter_sublist.subperm
  | lapsed c member line waiting => simpa [line, waiting] using List.filter_sublist.subperm
  | shut line waiting => simp [line, waiting]
  | tookUp moved line waiting => simpa [line, waiting] using .refl _
  | wrote p line waiting =>
    have none : t.line.drop s.line.length = [] := by simp [line]
    simpa [none, waiting] using .refl _
  | failed p f queue line halted waiting => simp [halted.2.2, waiting]
  | crashed flight queue line halted waiting => simp [halted.2.2, waiting]

/-- Either a write succeeded, or all who are told anything are refused; then the senders of parcels
whose writes end or that are given up are among them. -/
theorem answers (h : Turnover s t new ended lost left told) :
    (∃ p, ended = [(p, none)] ∧ lost = [] ∧ told = [⟨p.caller, .written (s.sequence + 1)⟩] ∧
      t.sequence = s.sequence + 1) ∨
    (t.sequence = s.sequence ∧ (∀ w ∈ ended, w.2.isSome = true) ∧
      (∀ n ∈ told, ∃ r, n.outcome = .refused r) ∧
      ∀ p ∈ ended.map (·.1) ++ lost, ∃ f, ⟨p.caller, .refused (.failed f)⟩ ∈ told) := by
  cases h with
  | wrote p line waiting sequence => exact .inl ⟨p, rfl, rfl, rfl, sequence⟩
  | refused c r same => simp [same]
  | failed p f queue line halted waiting sequence =>
    refine .inr ⟨sequence, by simp, by simp; grind, ?_⟩
    intro q member
    simp only [List.map_cons, List.map_nil, List.cons_append, List.nil_append, List.mem_cons] at member
    rcases member with rfl | member
    · exact ⟨f, by simp⟩
    · exact ⟨.closed, by simp; grind⟩
  | crashed flight queue line halted waiting sequence =>
    refine .inr ⟨sequence, by simp, by simp; grind, ?_⟩
    intro q member
    exact ⟨.closed, by simp at member ⊢; grind⟩
  | shut line waiting sequence => exact .inr ⟨sequence, by simp, by simp, by simp⟩
  | still line waiting sequence => simp [sequence]
  | taken p line waiting sequence => simp [sequence]
  | waits c line waiting sequence => simp [sequence]
  | dropped c line waiting sequence => simp [sequence]
  | lapsed c member line waiting sequence => simp [sequence]
  | tookUp moved line waiting sequence => simp [sequence]

theorem halted (h : Turnover s t new ended lost left told)
    (ends : (∃ w ∈ ended, w.2.isSome = true) ∨ lost ≠ []) : t.Halted := by
  cases h with
  | failed _ _ _ _ halted => exact halted
  | crashed _ _ _ halted => exact halted
  | _ => simp at ends

theorem nothing (h : Turnover s t new ended lost left told) (empty : s.line = []) :
    ended = [] ∧ lost = [] := by
  cases h with
  | wrote p line => simp [line] at empty
  | failed p f queue line => simp [line] at empty
  | crashed flight queue line => simpa [line] using empty
  | _ => exact ⟨rfl, rfl⟩

end Session.Turnover

namespace Ledger
open Session (Act)

structure Sound (l : Ledger) : Prop where
  balance : l.accepted = l.written ++ l.failed ++ l.aborted ++ l.session.line
  sequence : l.session.sequence = l.written.length
  halted : l.failed ≠ [] ∨ l.aborted ≠ [] → l.session.Halted
  single : l.failed.length ≤ 1
  senders : l.senders.Nodup
  callers : l.senders.Perm (l.answers.map (·.caller) ++ l.session.callers ++ l.left)
  entered : (l.accepted.map (·.caller) ++ l.session.waitingCallers).Nodup
  known : ∀ c ∈ l.accepted.map (·.caller) ++ l.session.waitingCallers, c ∈ l.senders
  written : ∀ i p, l.written[i]? = some p → ⟨p.caller, .written (i + 1)⟩ ∈ l.answers
  refused : ∀ p ∈ l.failed ++ l.aborted, ∃ f, ⟨p.caller, .refused (.failed f)⟩ ∈ l.answers
  told : ∀ a ∈ l.answers, ∀ n, a.outcome = .written n →
    0 < n ∧ (l.written[n - 1]?).map (·.caller) = some a.caller

theorem written_record (l : Ledger) (a : Act) :
    (l.record a).written = l.written ++ ((a.ended l.session).filter (·.2.isNone)).map (·.1) := by
  simp [written, record]

theorem failed_record (l : Ledger) (a : Act) :
    (l.record a).failed = l.failed ++ ((a.ended l.session).filter (·.2.isSome)).map (·.1) := by
  simp [failed, record]

/-- The two ways in which the books of an account change with an act. -/
theorem record_cases (l : Ledger) (a : Act) :
    (∃ p, (l.record a).written = l.written ++ [p] ∧ (l.record a).failed = l.failed ∧
      (l.record a).aborted = l.aborted ∧ a.ended l.session = [(p, none)] ∧
      (l.record a).answers = l.answers ++ [⟨p.caller, .written (l.session.sequence + 1)⟩] ∧
      (l.record a).session.sequence = l.session.sequence + 1) ∨
    ((l.record a).written = l.written ∧
      (l.record a).failed = l.failed ++ (a.ended l.session).map (·.1) ∧
      (l.record a).session.sequence = l.session.sequence ∧
      (∀ w ∈ a.ended l.session, w.2.isSome = true) ∧
      (∀ n ∈ (l.session.act a).2, ∃ r, n.outcome = .refused r) ∧
      ∀ p ∈ (a.ended l.session).map (·.1) ++ a.lost l.session,
        ∃ f, ⟨p.caller, .refused (.failed f)⟩ ∈ (l.session.act a).2) := by
  rw [written_record, failed_record]
  rcases (l.session.act_turnover a).answers with ⟨p, ended, lost, told, sequence⟩ |
    ⟨sequence, faults, refusals, heard⟩
  · exact .inl ⟨p, by simp [ended], by simp [ended], by simp [record, lost], ended,
      by simp [record, told], sequence⟩
  · have none : (a.ended l.session).filter (·.2.isNone) = [] := by
      simp only [List.filter_eq_nil_iff]
      intro w member
      simp [Option.isNone_iff_eq_none, Option.isSome_iff_ne_none.mp (faults w member)]
    have all : (a.ended l.session).filter (·.2.isSome) = a.ended l.session :=
      List.filter_eq_self.mpr faults
    exact .inr ⟨by simp [none], by rw [all], sequence, faults, refusals, heard⟩

theorem Sound.ended_nil {l : Ledger} (h : l.Sound) (a : Act)
    (stopped : l.failed ≠ [] ∨ l.aborted ≠ []) : a.ended l.session = [] ∧ a.lost l.session = [] :=
  (l.session.act_turnover a).nothing (h.halted stopped).2.2

theorem Sound.halted_record {l : Ledger} (h : l.Sound) (a : Act)
    (stopped : (l.record a).failed ≠ [] ∨ (l.record a).aborted ≠ []) :
    (l.record a).session.Halted := by
  by_cases before : l.failed ≠ [] ∨ l.aborted ≠ []
  · exact Session.halted_act (h.halted before) a
  · apply (l.session.act_turnover a).halted
    simp only [ne_eq, not_or, Decidable.not_not] at before
    rcases stopped with failed | aborted
    · left
      rw [failed_record, before.1] at failed
      obtain ⟨p, fault, member, isFault⟩ :
          ∃ p fault, (p, fault) ∈ a.ended l.session ∧ fault ≠ none := by simpa using failed
      exact ⟨(p, fault), member, Option.isSome_iff_ne_none.mpr isFault⟩
    · right
      simpa [record, before.2] using aborted

theorem Sound.balance_record {l : Ledger} (h : l.Sound) (a : Act) :
    (l.record a).accepted = (l.record a).written ++ (l.record a).failed ++ (l.record a).aborted ++
      (l.record a).session.line := by
  have line := (l.session.act_turnover a).line_append_entered
  have grown : (l.record a).accepted = l.written ++ l.failed ++ l.aborted ++
      (l.session.line ++ (l.session.act a).1.line.drop l.session.line.length) := by
    simp only [record, h.balance, List.append_assoc]
  by_cases stopped : l.failed ≠ [] ∨ l.aborted ≠ []
  · obtain ⟨ended, lost⟩ := h.ended_nil a stopped
    rw [grown, line, written_record, failed_record]
    simp [record, ended, lost]
  · simp only [ne_eq, not_or, Decidable.not_not] at stopped
    rw [grown, line]
    rcases l.record_cases a with ⟨p, written, failed, aborted, ended, _⟩ | ⟨written, failed, _⟩
    · have lost : a.lost l.session = [] := by
        simpa [record, stopped.2] using aborted.trans stopped.2
      rw [written, failed, aborted]
      simp [record, ended, lost, stopped.1, stopped.2]
    · rw [written, failed]
      simp [record, stopped.1, stopped.2]

theorem Sound.single_record {l : Ledger} (h : l.Sound) (a : Act) :
    (l.record a).failed.length ≤ 1 := by
  have few : (a.ended l.session).length ≤ 1 := by
    have flight : l.session.inFlight.length ≤ 1 := by
      unfold Session.inFlight
      split <;> simp
    cases a <;> simp [Act.ended, flight]
  by_cases stopped : l.failed ≠ [] ∨ l.aborted ≠ []
  · rw [failed_record, (h.ended_nil a stopped).1]
    simpa using h.single
  · simp only [ne_eq, not_or, Decidable.not_not] at stopped
    rw [failed_record, stopped.1, List.nil_append, List.length_map]
    exact Nat.le_trans (List.length_filter_le _ _) few

theorem Sound.fresh {l : Ledger} {a : Act} (permitted : l.permits a = true) :
    ∀ c ∈ a.sender?.toList, c ∉ l.senders := by
  intro c member
  rw [Option.mem_toList] at member
  simpa [permits, Option.mem_def.mp member] using permitted

theorem Sound.answers_nodup {l : Ledger} (h : l.Sound) : (l.answers.map (·.caller)).Nodup := by
  have nodup := h.callers.nodup_iff.mp h.senders
  exact (List.nodup_append.mp (List.nodup_append.mp nodup).1).1

theorem Sound.callers_record {l : Ledger} (h : l.Sound) (a : Act) :
    (l.record a).senders.Perm ((l.record a).answers.map (·.caller) ++
      (l.record a).session.callers ++ (l.record a).left) := by
  have nodup := h.callers.nodup_iff.mp h.senders
  have distinct := (List.nodup_append.mp (List.nodup_append.mp nodup).1).2.1
  have moved := (l.session.act_turnover a).callers_perm distinct
  have old := h.callers
  simp only [List.perm_iff_count, List.count_append] at moved old
  simp only [record, List.perm_iff_count, List.map_append, List.count_append]
  intro c
  have := moved c
  have := old c
  omega

theorem Sound.entered_record {l : Ledger} (h : l.Sound) {a : Act} (permitted : l.permits a = true) :
    ((l.record a).accepted.map (·.caller) ++ (l.record a).session.waitingCallers).Nodup := by
  have one : a.sender?.toList.Nodup := by cases a.sender? <;> simp
  have all : (l.accepted.map (·.caller) ++ (l.session.waitingCallers ++ a.sender?.toList)).Nodup := by
    rw [← List.append_assoc]
    refine List.nodup_append.mpr ⟨h.entered, one, ?_⟩
    intro c old d new same
    exact Sound.fresh permitted d new (same ▸ h.known c old)
  have moved := (l.session.act_turnover a).entered_perm
  obtain ⟨some, perm, sub⟩ := (List.subperm_append_left (l.accepted.map (·.caller))).mpr moved
  simp only [record, List.map_append, List.append_assoc]
  exact perm.nodup_iff.mp (all.sublist sub)

theorem Sound.known_record {l : Ledger} (h : l.Sound) (a : Act) :
    ∀ c ∈ (l.record a).accepted.map (·.caller) ++ (l.record a).session.waitingCallers,
      c ∈ (l.record a).senders := by
  intro c member
  have moved := (l.session.act_turnover a).entered_perm.subset (a := c)
  have known := h.known c
  simp only [record, List.map_append, List.append_assoc, List.mem_append] at member moved known ⊢
  rcases member with member | member
  · exact .inl (known (.inl member))
  · rcases moved member with waited | new
    · exact .inl (known (.inr waited))
    · exact .inr new

theorem Sound.answered_record {l : Ledger} (h : l.Sound) (a : Act) (i : Nat) (p : Parcel)
    (there : (l.record a).written[i]? = some p) :
    ⟨p.caller, .written (i + 1)⟩ ∈ (l.record a).answers := by
  rcases l.record_cases a with ⟨q, written, _, _, _, answers, _⟩ | ⟨written, _⟩
  · rw [written] at there
    rw [answers]
    by_cases old : i < l.written.length
    · rw [List.getElem?_append_left old] at there
      exact List.mem_append_left _ (h.written i p there)
    · have last : i = l.written.length := by
        have bound := (List.getElem?_eq_some_iff.mp there).1
        simp only [List.length_append, List.length_singleton] at bound
        omega
      rw [last, List.getElem?_concat_length, Option.some.injEq] at there
      simp [there, last, h.sequence]
  · rw [written] at there
    exact List.mem_append_left _ (h.written i p there)

theorem Sound.refused_record {l : Ledger} (h : l.Sound) (a : Act) :
    ∀ p ∈ (l.record a).failed ++ (l.record a).aborted,
      ∃ f, ⟨p.caller, .refused (.failed f)⟩ ∈ (l.record a).answers := by
  intro p member
  have old (there : p ∈ l.failed ++ l.aborted) :
      ∃ f, ⟨p.caller, .refused (.failed f)⟩ ∈ (l.record a).answers := by
    obtain ⟨f, told⟩ := h.refused p there
    exact ⟨f, List.mem_append_left _ told⟩
  rcases l.record_cases a with ⟨q, _, failed, aborted, _⟩ | ⟨_, failed, _, _, _, heard⟩
  · rw [failed, aborted] at member
    exact old member
  · have aborted : (l.record a).aborted = l.aborted ++ a.lost l.session := rfl
    rw [failed, aborted] at member
    by_cases there : p ∈ l.failed ++ l.aborted
    · exact old there
    · obtain ⟨f, told⟩ := heard p (by simp only [List.mem_append] at member there ⊢; tauto)
      exact ⟨f, List.mem_append_right _ told⟩

theorem Sound.told_record {l : Ledger} (h : l.Sound) (a : Act) :
    ∀ b ∈ (l.record a).answers, ∀ n, b.outcome = .written n →
      0 < n ∧ ((l.record a).written[n - 1]?).map (·.caller) = some b.caller := by
  intro b member n outcome
  rcases l.record_cases a with ⟨q, written, _, _, _, answers, _⟩ | ⟨written, _, _, _, refusals, _⟩
  · rw [answers, List.mem_append, List.mem_singleton] at member
    rw [written]
    rcases member with old | rfl
    · obtain ⟨positive, there⟩ := h.told b old n outcome
      have bound : n - 1 < l.written.length := by
        by_contra outside
        simp [List.getElem?_eq_none (Nat.le_of_not_lt outside)] at there
      exact ⟨positive, by rw [List.getElem?_append_left bound, there]⟩
    · simp only [Outcome.written.injEq] at outcome
      subst outcome
      exact ⟨by omega, by simp [h.sequence]⟩
  · rw [written]
    rcases List.mem_append.mp member with old | new
    · exact h.told b old n outcome
    · obtain ⟨r, refused⟩ := refusals b new
      simp [refused] at outcome

theorem Sound.act {l : Ledger} (h : l.Sound) (a : Act) : (l.act a).Sound := by
  unfold Ledger.act
  split
  · rename_i permitted
    have one : a.sender?.toList.Nodup := by cases a.sender? <;> simp
    refine ⟨h.balance_record a, ?_, h.halted_record a, h.single_record a, ?_, h.callers_record a,
      h.entered_record permitted, h.known_record a, h.answered_record a, h.refused_record a,
      h.told_record a⟩
    · rcases l.record_cases a with ⟨p, written, _, _, _, _, sequence⟩ | ⟨written, _, sequence, _⟩ <;>
        rw [written, sequence, h.sequence]
      simp
    · refine List.nodup_append.mpr ⟨h.senders, one, ?_⟩
      intro c old d new same
      exact Sound.fresh permitted d new (same ▸ old)
  · exact h

theorem Sound.run {l : Ledger} (h : l.Sound) (acts : List Act) : (l.run acts).Sound := by
  induction acts generalizing l with
  | nil => exact h
  | cons a acts ih => exact ih (h.act a)

theorem sound_start (c : Config) (now : Nat) (discarded : Bool) : (start c now discarded).Sound := by
  have line : (start c now discarded).session.line = [] := by cases discarded <;> rfl
  have waiting : (start c now discarded).session.waitingCallers = [] := by cases discarded <;> rfl
  have sequence : (start c now discarded).session.sequence = 0 := by cases discarded <;> rfl
  constructor <;> simp [written, failed, Session.callers] at line waiting sequence ⊢ <;>
    simp [line, waiting, sequence]

theorem aborted_act {l : Ledger} (h : l.failed = [] → l.aborted = []) {a : Act} (alive : a ≠ .crash) :
    (l.act a).failed = [] → (l.act a).aborted = [] := by
  unfold act
  split
  · intro none
    have both : l.failed = [] ∧ (a.ended l.session).filter (·.2.isSome) = [] := by
      simpa [failed_record] using none
    have lost : a.lost l.session = [] := by
      cases a with
      | fail f now =>
        by_cases still : l.session.inFlight = []
        · simp [Act.lost, still]
        · obtain ⟨p, member⟩ := List.exists_mem_of_ne_nil _ still
          simp only [Act.ended, List.filter_map, List.map_eq_nil_iff, List.filter_eq_nil_iff] at both
          exact absurd rfl (both.2 p member)
      | crash => exact absurd rfl alive
      | _ => rfl
    simp [record, h both.1, lost]
  · exact h

theorem aborted_run (l : Ledger) (h : l.failed = [] → l.aborted = []) (acts : List Act)
    (survives : Act.crash ∉ acts) : (l.run acts).failed = [] → (l.run acts).aborted = [] := by
  induction acts generalizing l with
  | nil => exact h
  | cons a acts ih =>
    rw [List.mem_cons, not_or] at survives
    exact ih (l.act a) (aborted_act h fun same => survives.1 same.symm) survives.2

theorem Sound.answer_unique {l : Ledger} (h : l.Sound) {a b : Notice} (ha : a ∈ l.answers)
    (hb : b ∈ l.answers) (same : a.caller = b.caller) : a = b :=
  List.inj_on_of_nodup_map h.answers_nodup ha hb same

theorem Sound.written_iff {l : Ledger} (h : l.Sound) {a : Notice} (member : a ∈ l.answers) (n : Nat) :
    a.outcome = .written n ↔ 0 < n ∧ (l.written[n - 1]?).map (·.caller) = some a.caller := by
  refine ⟨h.told a member n, ?_⟩
  rintro ⟨positive, there⟩
  obtain ⟨p, written, same⟩ := Option.map_eq_some_iff.mp there
  have answer := h.written (n - 1) p written
  rw [Nat.sub_add_cancel positive] at answer
  rw [h.answer_unique member answer same.symm]

theorem Sound.accepted_outcome {l : Ledger} (h : l.Sound) {a : Notice} (member : a ∈ l.answers)
    (accepted : a.caller ∈ l.accepted.map (·.caller)) :
    (∃ n, a.outcome = .written n) ∨ ∃ f, a.outcome = .refused (.failed f) := by
  obtain ⟨p, there, same⟩ := List.mem_map.mp accepted
  rw [h.balance, List.append_assoc l.written, List.mem_append, List.mem_append] at there
  rcases there with (written | refused) | line
  · obtain ⟨i, at_i⟩ := List.getElem?_of_mem written
    exact .inl ⟨i + 1, by rw [h.answer_unique member (h.written i p at_i) same.symm]⟩
  · obtain ⟨f, told⟩ := h.refused p refused
    exact .inr ⟨f, by rw [h.answer_unique member told same.symm]⟩
  · have nodup := h.callers.nodup_iff.mp h.senders
    have apart := (List.nodup_append.mp (List.nodup_append.mp nodup).1).2.2
    have pending : p.caller ∈ l.session.callers :=
      List.mem_append_left _ (List.mem_map.mpr ⟨p, line, rfl⟩)
    exact absurd same.symm (apart _ (List.mem_map.mpr ⟨a, member, rfl⟩) _ pending)

theorem answer_eq_ok_iff (id : SessionId) (o : Outcome) (n : Nat) :
    Hub.answer id o = .ok n ↔ o = .written n := by
  unfold Hub.answer
  split <;> simp

/-- Each parcel that the queue took is, in this order, written, failed, aborted, in flight or queued.
A caller gets the number `n` exactly for the `n`-th written parcel; an accepted one that gets no
number gets a failed send; and who got no place, or gave up waiting, was never accepted. -/
theorem exactly_once_in_order (c : Config) (now : Nat) (discarded : Bool) (acts : List Act)
    (survives : Act.crash ∉ acts) (id : SessionId) :
    let l := (start c now discarded).run acts
    l.accepted = l.written ++ l.failed ++ l.aborted ++ l.session.inFlight ++ l.session.queue ∧
    l.failed.length ≤ 1 ∧ l.session.inFlight.length ≤ 1 ∧ (l.failed = [] → l.aborted = []) ∧
    (l.failed ≠ [] → l.session.inFlight = []) ∧ l.session.sequence = l.written.length ∧
    (l.accepted.map (·.caller)).Nodup ∧
    l.senders.Perm (l.answers.map (·.caller) ++ l.session.callers ++ l.left) ∧ l.senders.Nodup ∧
    ∀ a ∈ l.answers,
      (∀ n, Hub.answer id a.outcome = .ok n ↔
        0 < n ∧ (l.written[n - 1]?).map (·.caller) = some a.caller) ∧
      (a.caller ∈ l.accepted.map (·.caller) → (∃ n, Hub.answer id a.outcome = .ok n) ∨
        ∃ why, Hub.answer id a.outcome = .error (.sendFailed id.text why)) ∧
      (Hub.answer id a.outcome = .error (.backpressure id.text) ∨
        Hub.answer id a.outcome = .error (.timeout id.text) →
        a.caller ∉ l.accepted.map (·.caller)) := by
  intro l
  have h : l.Sound := (sound_start c now discarded).run acts
  have accepted (a : Notice) (member : a ∈ l.answers) (there : a.caller ∈ l.accepted.map (·.caller)) :
      (∃ n, Hub.answer id a.outcome = .ok n) ∨
        ∃ why, Hub.answer id a.outcome = .error (.sendFailed id.text why) := by
    rcases h.accepted_outcome member there with ⟨n, o⟩ | ⟨f, o⟩
    · exact .inl ⟨n, by rw [o]; rfl⟩
    · exact .inr ⟨f.message, by rw [o]; rfl⟩
  refine ⟨?_, h.single, ?_, aborted_run _ (fun _ => rfl) acts survives,
    fun stopped => (h.halted (.inl stopped)).inFlight, h.sequence,
    (List.nodup_append.mp h.entered).1, h.callers, h.senders, ?_⟩
  · rw [h.balance, Session.line, List.append_assoc, List.append_assoc, List.append_assoc]
    simp only [List.append_assoc]
  · unfold Session.inFlight
    split <;> simp
  · intro a member
    refine ⟨fun n => by rw [answer_eq_ok_iff, h.written_iff member], accepted a member, ?_⟩
    intro turned there
    rcases accepted a member there with ⟨n, o⟩ | ⟨why, o⟩ <;> simp [o] at turned

/-- With one place in the queue: a parcel is written, the next one fails, and a third, whose caller
had to wait, is aborted. -/
def faultyRun : List Act := [
  .offer ⟨.sender 0, "first"⟩ .endless false 0, .turn 0,
  .offer ⟨.sender 1, "second"⟩ .endless false 1, .offer ⟨.sender 2, "third"⟩ .endless false 1,
  .wrote, .turn 2, .fail .closed 3, .offer ⟨.sender 3, "late"⟩ .endless false 4]

theorem exactly_once_in_faultyRun : Act.crash ∉ faultyRun ∧
    let l := (start { Config.default with queueCapacity := 1 } 0 false).run faultyRun
    l.accepted = l.written ++ l.failed ++ l.aborted ++ l.session.inFlight ++ l.session.queue ∧
    l.written.length = 1 ∧ l.failed.length = 1 ∧ l.aborted.length = 1 ∧ l.answers.length = 4 :=
  ⟨by decide, (exactly_once_in_order _ 0 false faultyRun (by decide) ⟨"id"⟩).1,
    by decide, by decide, by decide, by decide⟩

end Ledger

end Courier
