import Courier.Proofs.Hub.Steps

set_option autoImplicit false

namespace Courier.Hub

def Act.AddsNew (a : Act) : Prop := ∀ l, a = .enter l ∨ a = .add l → l.session.IsNew

theorem isLive_of_isNew {s : Session} (new : s.IsNew) : s.isLive = true := by
  obtain ⟨c, now, rfl | rfl⟩ := new
  · rfl
  · rw [Session.crashed_eq]
    rfl

/-- A session in the hub is regular, and has ended because somebody closed it, because a write failed,
or because nobody held it. -/
theorem run_session (c : Config) {acts : List Act} (new : ∀ a ∈ acts, a.AddsNew) {key : Key} {l : Lane}
    (there : ((start c).run acts).lane? key = some l) : l.session.Regular ∧
    (l.isLive = false → l.session.closing = true ∨
      (∃ f now, .session key (.fail f now) ∈ acts) ∨ l.session.orphaned = true) := by
  obtain ⟨first, added, goes⟩ := run_old c acts there
  have isNew : first.session.IsNew :=
    added.elim (fun there => new _ there first (.inl rfl)) (fun there => new _ there first (.inr rfl))
  obtain ⟨_, bs, session, all⟩ := goes
  have regular := Session.regular_of_isNew isNew
  refine ⟨session ▸ regular.run bs, fun dead => ?_⟩
  rw [Lane.isLive, session] at dead
  rw [session]
  refine (regular.ended (isLive_of_isNew isNew) dead).imp id (Or.imp ?_ id)
  rintro ⟨f, now, member⟩
  exact ⟨f, now, (all _ member).resolve_left (by simp)⟩

theorem conclude_closed {h : Hub} (sound : h.Sound) {e : Entry}
    (fate : e ∈ h.entries ∨ h.Closed e.key) (f : StreamFault) :
    (h.act (.conclude e.id e.key (.refused (.failed f)))).Closed e.key := by
  rcases fate with member | closed
  · obtain ⟨l, lane, _⟩ := sound.lane member
    have there : h.entry? e.id = some e := by
      cases entry : h.entry? e.id with
      | none => exact absurd (List.mem_map.mpr ⟨e, member, rfl⟩) (entry_none.mp entry)
      | some e' => rw [sound.unique member entry]
    simp only [act, conclude, answer, SendError.ofFault, SendError.isFatal, if_true, removeIfSame,
      there, beq_self_eq_true]
    exact closed_close (h := { h with entries := h.entries.filter (·.id != e.id) }) lane
  · exact closed_run closed [.conclude e.id e.key (.refused (.failed f))]

/-- A closed session is not live. A session that is not live is closed, unless it ended by itself,
after a failed write or when nobody held it; then it has nothing left. Who was registered is registered
still or closed, and is closed after a failed send by id. -/
theorem closed_unless_failed (c : Config) (before after : List Act)
    (new : ∀ a ∈ before ++ after, a.AddsNew) :
    let h := (start c).run before
    let h' := h.run after
    (∀ key l, h'.lane? key = some l → (l.session.closing = true → l.isLive = false) ∧
      (l.isLive = false → l.session.closing = true ∨ l.session.Halted ∧
        ((∃ f now, .session key (.fail f now) ∈ before ++ after) ∨ l.session.orphaned = true))) ∧
    (∀ e ∈ h.entries, e ∈ h'.entries ∨ h'.Closed e.key) ∧
    ∀ e ∈ h.entries, ∀ f, (h'.act (.conclude e.id e.key (.refused (.failed f)))).Closed e.key := by
  intro h h'
  obtain ⟨sound, _⟩ := run_sound (sound_start c) before
  obtain ⟨sound', fate⟩ := run_sound sound after
  refine ⟨fun key l there => ?_, fate, fun e member f => conclude_closed sound' (fate e member) f⟩
  obtain ⟨regular, ended⟩ := run_session c new (by rw [run_append]; exact there)
  refine ⟨regular.closed, fun dead => ?_⟩
  cases closing : l.session.closing with
  | true => exact .inl rfl
  | false =>
    have why := (ended dead).resolve_left (by simp [closing])
    exact .inr ⟨regular.silent dead closing, why⟩

def plainLane : Lane := ⟨⟨"s1"⟩, .default, .start .default 0, .probe (.start .plain)⟩

theorem plainLane_isNew : plainLane.session.IsNew := ⟨.default, 0, .inl rfl⟩

/-- Somebody who holds the session asks for a write, and it fails. -/
def failedRun : List Act := [
  .enter plainLane, .session 0 (.offer ⟨.sender 0, "a"⟩ .endless false 0), .session 0 (.turn 0),
  .session 0 (.fail .closed 0), .session 0 .released]

theorem failedRun_addsNew : ∀ a ∈ failedRun ++ [.remove ⟨"s1"⟩ .sendFailed], a.AddsNew := by
  simp [failedRun, Act.AddsNew, plainLane_isNew]

/-- The session is removed in the end, still registered, and nobody has closed it. -/
theorem failedRun_not_closed : ∃ l, ((start .default).run failedRun).lane? 0 = some l ∧
    l.session.life = .removed ∧ l.session.closing = false ∧
    ((start .default).run failedRun).entries = [⟨⟨"s1"⟩, 0⟩] :=
  ⟨_, rfl, by decide, by decide, by decide⟩

theorem closed_unless_failed_failedRun :
    (∀ a ∈ failedRun ++ [.remove ⟨"s1"⟩ .sendFailed], a.AddsNew) ∧
    ⟨⟨"s1"⟩, 0⟩ ∈ ((start .default).run failedRun).entries ∧
    (((start .default).run failedRun).run [.remove ⟨"s1"⟩ .sendFailed]).Closed 0 := by
  refine ⟨failedRun_addsNew, by decide, ?_⟩
  have fate :=
    (closed_unless_failed .default failedRun [.remove ⟨"s1"⟩ .sendFailed] failedRun_addsNew).2.1
  exact (fate ⟨⟨"s1"⟩, 0⟩ (by decide)).resolve_left (by decide)

/-- The event of a removal is of an entry, and says how many parcels its session had written by
then. After it the session writes the first of those that it held, and all of them unless a write
fails or its writer dies. -/
theorem removed_sent (c : Config) (before : List Act) (a : Act) (after : List Act)
    (new : ∀ b ∈ before ++ [a], b.AddsNew) :
    let h := (start c).run before
    let h' := h.act a
    ∃ more, h'.journal = h.journal ++ more ∧ ∀ id reason sent, .removed id reason sent ∈ more →
      ∃ e ∈ h.entries, e.id = id ∧
      ∃ l l', h'.lane? e.key = some l ∧ (h'.run after).lane? e.key = some l' ∧ l.id = id ∧
        l.session.closing = true ∧ l.session.sequence = sent ∧ ∃ written lost,
          l.session.line = written ++ lost ++ l'.session.line ∧
          l'.session.sequence = sent + written.length ∧
          (lost ≠ [] → ∃ b, .session e.key b ∈ after ∧ b.isFault = true) ∧
          (l'.session.life = .removed → l'.session.line = []) := by
  intro h h'
  obtain ⟨sound, _⟩ := run_sound (sound_start c) before
  obtain ⟨more, journal, accounts⟩ := act_journal sound a
  refine ⟨more, journal, fun id reason sent member => ?_⟩
  obtain ⟨e, there, own, l, lane, id, closing, sequence⟩ := accounts id reason sent member
  obtain ⟨l', lane', goes⟩ := h'.run_lane after lane
  obtain ⟨regular, _⟩ := run_session c new (by rw [run_concat]; exact lane)
  obtain ⟨_, bs, session, all⟩ := goes
  obtain ⟨written, lost, flushes, faults⟩ := regular.flushes_run closing bs
  rw [← session] at flushes
  refine ⟨e, there, own, l, l', lane, lane', id, closing, sequence, written, lost, flushes.line,
    sequence ▸ flushes.sequence, fun some => ?_, ?_⟩
  · obtain ⟨b, there, isFault⟩ := faults some
    have moved := (all b there).resolve_left fun same => by simp [same] at isFault
    exact ⟨b, moved, isFault⟩
  · rw [session]
    exact (regular.run bs).line_of_removed

def heldRun : List Act := [
  .enter plainLane, .session 0 (.offer ⟨.sender 0, "a"⟩ .endless false 0), .session 0 (.turn 0)]

def writtenRun : List Act := [
  .session 0 .wrote, .session 0 (.turn 0), .session 0 (.turn 0), .session 0 .released]

theorem heldRun_addsNew : ∀ b ∈ heldRun ++ [.remove ⟨"s1"⟩ .disconnected], b.AddsNew := by
  simp [heldRun, Act.AddsNew, plainLane_isNew]

/-- The event says that nothing was written, and one parcel is. -/
theorem heldRun_sent :
    let h := ((start .default).run heldRun).act (.remove ⟨"s1"⟩ .disconnected)
    Event.removed ⟨"s1"⟩ .disconnected 0 ∈ h.journal ∧
    ∃ l, (h.run writtenRun).lane? 0 = some l ∧ l.session.life = .removed ∧ l.session.sequence = 1 :=
  ⟨by decide, _, rfl, by decide, by decide⟩

theorem removed_sent_heldRun : (∀ b ∈ heldRun ++ [.remove ⟨"s1"⟩ .disconnected], b.AddsNew) ∧
    let h := (start .default).run heldRun
    let h' := h.act (.remove ⟨"s1"⟩ .disconnected)
    ∃ e ∈ h.entries, ∃ l l', h'.lane? e.key = some l ∧ (h'.run writtenRun).lane? e.key = some l' ∧
      l.session.sequence = 0 ∧ ∃ written, l.session.line = written ++ l'.session.line ∧
        l'.session.sequence = written.length := by
  refine ⟨heldRun_addsNew, ?_⟩
  obtain ⟨more, journal, told⟩ :=
    removed_sent .default heldRun (.remove ⟨"s1"⟩ .disconnected) writtenRun heldRun_addsNew
  have event : more = [.removed ⟨"s1"⟩ .disconnected 0] :=
    (List.append_cancel_left (journal.symm.trans (by decide))).trans rfl
  obtain ⟨e, there, _, l, l', lane, lane', _, _, sequence, written, lost, line, sequence', faults, _⟩ :=
    told ⟨"s1"⟩ .disconnected 0 (by simp [event])
  have none : lost = [] := by
    by_contra some
    obtain ⟨b, there, isFault⟩ := faults some
    simp only [writtenRun, List.mem_cons, List.not_mem_nil, or_false, Act.session.injEq] at there
    rcases there with ⟨_, rfl⟩ | ⟨_, rfl⟩ | ⟨_, rfl⟩ | ⟨_, rfl⟩ <;>
      simp at isFault
  exact ⟨e, there, l, l', lane, lane', sequence, written, by simpa [none] using line,
    by simpa using sequence'⟩

end Courier.Hub
