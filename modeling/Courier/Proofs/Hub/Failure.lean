import Courier.Proofs.Hub.Emission
import Courier.Proofs.Hub.Removal

/-!
# What a failed send says of its session

A send fails when the stream has failed, when the session is closing, or when its writer has died. In
the first two cases the session is not live, and stays so. The death of the writer marks nothing: the
session looks alive until somebody closes it, and a send by id that fails is somebody who does.
-/

set_option autoImplicit false

namespace Courier

namespace Session

theorem offer_told {s : Session} {p : Parcel} {patience : Patience} {spent : Bool} {now : Nat}
    {caller : Caller} {f : StreamFault}
    (told : ⟨caller, .refused (.failed f)⟩ ∈ (s.act (.offer p patience spent now)).2) :
    s.isLive = false ∨ s.intake = false := by
  obtain ⟨refused, -⟩ : (s.offer p patience spent now).2 = some (.failed f) ∧ p.caller = caller := by
    simpa [act] using told
  rcases offer_refused refused with ⟨-, dead⟩ | ⟨full, -⟩ | ⟨lapsed, -⟩
  · exact dead
  · exact absurd full (by simp)
  · exact absurd lapsed (by simp)

/-- Whoever is told that its send failed, while somebody holds the session, is told so of a session
that is not live, or whose writer is dead. -/
theorem Regular.failed_told {s : Session} (regular : s.Regular) (held : s.orphaned = false) {a : Act}
    {caller : Caller} {f : StreamFault} (told : ⟨caller, .refused (.failed f)⟩ ∈ (s.act a).2) :
    (s.act a).1.isLive = false ∨ (s.act a).1.writer = .dead := by
  have next := s.act_next a
  have offered {p : Parcel} {patience : Patience} {spent : Bool} {now : Nat}
      (same : a = .offer p patience spent now) : s.isLive = false ∨ s.writer = .dead := by
    subst same
    by_contra neither
    simp only [not_or, Bool.not_eq_false] at neither
    have shut : s.intake = false := (offer_told told).resolve_left (by simp [neither.1])
    rcases regular.alone neither.1 shut with dead | left
    · exact neither.2 dead
    · simp [held] at left
  generalize (s.act a).1 = t, (s.act a).2 = notices at next told
  cases next with
  | refuses => exact offered rfl
  | shuts now idle taking leaving =>
    -- it is not shut because all have let go of it, for somebody holds it
    have closing : s.closing = true := leaving.resolve_right fun left => by simp [held] at left
    exact .inl (regular.closed closing)
  | fails => exact .inl s.isLive_drain
  | dies => exact .inr rfl
  | _ => simp at told

end Session

namespace Hub

/-- The session of a key is over: no lookup finds it, and its id is there for the next one. -/
structure Ended (h : Hub) (key : Key) : Prop where
  dead : h.isLive key = false
  unfound : ∀ id, h.lookup id ≠ some key
  /-- Only another session that is live keeps a new one out. -/
  free : ∀ l : Lane, (∃ k, (h.enter l).2 = .ok k) ∨
    ∃ e, h.entry? l.id = some e ∧ e.key ≠ key ∧ h.isLive e.key = true

theorem Sound.ended {h : Hub} (sound : h.Sound) {key : Key} (dead : h.isLive key = false) :
    h.Ended key where
  dead := dead
  unfound id found := by
    have live := (lookup_eq_some found).2
    simp [dead] at live
  free l := by
    have lane := h.lane?_added l
    have entries : entry? (h.addLane l) l.id = h.entry? l.id := rfl
    cases entry : h.entry? l.id with
    | none =>
      left
      simp only [enter, register, lane, entries, entry]
      exact ⟨_, rfl⟩
    | some e =>
      obtain ⟨m, at_e, _⟩ := sound.lane (entry_mem entry).1
      cases live : h.isLive e.key with
      | true =>
        exact .inr ⟨e, rfl, fun same => by simp [same, dead] at live, live⟩
      | false =>
        left
        simp only [enter, register, lane, entries, entry, isLive_addLane at_e, live,
          Bool.false_eq_true, if_false]
        exact ⟨_, rfl⟩

theorem dead_run {h : Hub} {key : Key} (there : ∃ l, h.lane? key = some l)
    (dead : h.isLive key = false) (acts : List Act) : (h.run acts).isLive key = false := by
  induction acts generalizing h with
  | nil => exact dead
  | cons a acts ih =>
    obtain ⟨l, lane⟩ := there
    have follows := (h.act_change a).follows
    obtain ⟨l', lane', _⟩ := follows key l lane
    exact ih ⟨l', lane'⟩ (follows.dead lane dead)

/-- A failed send ends the session that it went to. One by id does so in every case, even if others
have taken the session out meanwhile. One that somebody makes who holds the session does so unless
the writer is dead: then the session goes on to look alive. -/
theorem failed_send_ends (c : Config) (before between after : List Act)
    (new : ∀ a ∈ before ++ between, a.AddsNew) :
    let h := (start c).run before
    let h' := h.run between
    (∀ id key f, h.lookup id = some key →
      ((h'.act (.conclude id key (.refused (.failed f)))).run after).Ended key) ∧
    ∀ key l, h'.lane? key = some l → l.session.orphaned = false → ∀ a caller f,
      ⟨caller, .refused (.failed f)⟩ ∈ (l.session.act a).2 →
      (l.session.act a).1.writer = .dead ∨ ((h'.act (.session key a)).run after).Ended key := by
  intro h h'
  obtain ⟨sound, -⟩ := run_sound (sound_start c) before
  obtain ⟨sound', fate⟩ := run_sound sound between
  have joined : h' = (start c).run (before ++ between) := (run_append _ _ _).symm
  have ends {b : Act} {key : Key} (there : ∃ l, (h'.act b).lane? key = some l)
      (dead : (h'.act b).isLive key = false) : ((h'.act b).run after).Ended key :=
    (run_sound (act_sound sound' b).1 after).1.ended (dead_run there dead after)
  refine ⟨fun id key f found => ?_, fun key l lane held a caller f told => ?_⟩
  · have there : ⟨id, key⟩ ∈ h.entries := (entry_mem (lookup_eq_some found).1).1
    have closed : (h'.act (.conclude id key (.refused (.failed f)))).Closed key :=
      conclude_closed sound' (fate ⟨id, key⟩ there) f
    obtain ⟨l, lane, closing⟩ := closed
    have all : ∀ a ∈ before ++ between ++ [.conclude id key (.refused (.failed f))], a.AddsNew := by
      intro a member
      rcases List.mem_append.mp member with early | last
      · exact new a early
      · simp [List.mem_singleton.mp last, Act.AddsNew]
    have session := run_session c all (by rw [run_concat, ← joined]; exact lane)
    have dead : l.isLive = false := session.1.closed closing
    exact ends ⟨l, lane⟩ ((isLive_of_lane lane).trans dead)
  · have moved : (h'.act (.session key a)).lane? key =
        some { l with session := (l.session.act a).1 } := by
      rw [act, updateSession, lane?_modify, lane]
      simp
    rcases (run_session c new (joined ▸ lane)).1.failed_told held told with dead | dead
    · exact .inr (ends ⟨_, moved⟩ ((isLive_of_lane moved).trans dead))
    · exact .inl dead

/-- The writer dies in the write that somebody who holds the session has asked for. -/
def crashedRun : List Act := [
  .enter plainLane, .session 0 (.offer ⟨.sender 0, "a"⟩ .endless false 0), .session 0 (.turn 0)]

/-- The caller is told that its send failed. The session is live, it is found, and it keeps a new
session out. -/
theorem crashed_send_keeps_alive :
    let h := (start .default).run crashedRun
    let h' := h.act (.session 0 .crash)
    (∃ l, h.lane? 0 = some l ∧ ⟨.sender 0, .refused (.failed .closed)⟩ ∈ (l.session.act .crash).2) ∧
    h'.isLive 0 = true ∧ h'.lookup ⟨"s1"⟩ = some 0 ∧
    (h'.enter plainLane).2 = .error (.duplicateSession "s1") :=
  ⟨⟨_, rfl, by decide⟩, by decide, by decide, by rfl⟩

/-- The write of one caller fails while a send by id waits in the queue. -/
theorem failed_send_ends_failing :
    (∀ a ∈ crashedRun ++ [.session 0 (.offer ⟨.sender 1, "b"⟩ .endless false 0)], a.AddsNew) ∧
    let h := (start .default).run crashedRun
    let h' := h.run [.session 0 (.offer ⟨.sender 1, "b"⟩ .endless false 0)]
    h.lookup ⟨"s1"⟩ = some 0 ∧
    (h'.act (.conclude ⟨"s1"⟩ 0 (.refused (.failed .closed)))).Ended 0 ∧
    (h'.act (.session 0 (.fail .closed 0))).Ended 0 := by
  have new : ∀ a ∈ crashedRun ++ [.session 0 (.offer ⟨.sender 1, "b"⟩ .endless false 0)],
      a.AddsNew := by
    simp [crashedRun, Act.AddsNew, plainLane_isNew]
  have ends := failed_send_ends .default crashedRun
    [.session 0 (.offer ⟨.sender 1, "b"⟩ .endless false 0)] [] new
  refine ⟨new, by decide, ends.1 ⟨"s1"⟩ 0 .closed (by decide), ?_⟩
  exact (ends.2 0 _ rfl rfl (.fail .closed 0) (.sender 0) .closed (by decide)).resolve_left (by decide)

end Hub

end Courier
