import Courier.Proofs.Hub.BulkRemoval
import Courier.Proofs.Hub.Failure

/-!
# What is reported as a failed send

That a session goes because a send failed is not recorded by anybody: a sweep concludes it from a
session that is dead, and a send by id from any refusal but a full queue and a lapse. Both are signs
that the session has ended, and it ends when a write of it fails, but also when somebody closes it.
-/

set_option autoImplicit false

namespace Courier

namespace Session

def Fails (s : Session) (a : Act) : Prop := (∃ f now, a = .fail f now) ∧ s.inFlight ≠ []

theorem Regular.ends_because {s : Session} (regular : s.Regular) (live : s.isLive = true) {a : Act}
    (dead : (s.act a).1.isLive = false) : a = .close ∨ s.orphaned = true ∨ s.Fails a := by
  rcases regular.ends live dead with closes | ⟨f, now, rfl⟩ | orphaned
  · exact .inl closes
  · refine .inr (.inr ⟨⟨f, now, rfl⟩, fun none => ?_⟩)
    rcases s.failed_cases f now with ⟨p, since, writer, -⟩ | ⟨-, same⟩
    · simp [inFlight, writer] at none
    · simp [Session.act, same, live] at dead
  · exact .inr (.inl orphaned)

/-- A session whose writer has not died, of which it is known whether a write has failed. -/
structure Answerable (s : Session) (failed : Prop) : Prop where
  regular : s.Regular
  alive : s.writer ≠ .dead
  cause : s.isLive = false → s.closing = true ∨ s.orphaned = true ∨ failed

variable {s : Session} {failed failed' : Prop}

theorem answerable_start (c : Config) (now : Nat) : (start c now).Answerable failed where
  regular := regular_of_isNew ⟨c, now, .inl rfl⟩
  alive := by simp
  cause := by simp [isLive]

theorem Answerable.act (h : s.Answerable failed) {a : Act} (survives : a ≠ .crash)
    (known : failed ∨ s.Fails a → failed') : (s.act a).1.Answerable failed' where
  regular := h.regular.act a
  alive := by
    have next := s.act_next a
    have alive := h.alive
    generalize (s.act a).1 = t, (s.act a).2 = told at next
    cases next with
    | dies => exact absurd rfl survives
    | _ => simp_all [close, forget]
  cause dead := by
    obtain ⟨closing, orphaned⟩ := s.marks_act a
    have before : s.isLive = false ∨ s.isLive = true := by cases s.isLive <;> simp
    rcases before with gone | live
    · rcases h.cause gone with marked | left | write
      · exact .inl (closing.mpr (.inl marked))
      · exact .inr (.inl (orphaned.mpr (.inl left)))
      · exact .inr (.inr (known (.inl write)))
    · rcases h.regular.ends_because live dead with closes | left | fails
      · exact .inl (closing.mpr (.inr closes))
      · exact .inr (.inl (orphaned.mpr (.inl left)))
      · exact .inr (.inr (known (.inr fails)))

theorem Answerable.hears_failure (h : s.Answerable failed) (held : s.orphaned = false) {a : Act}
    (survives : a ≠ .crash) {n : Notice} (told : n ∈ (s.act a).2) {f : StreamFault}
    (failure : n.outcome = .refused (.failed f)) : (s.act a).1.isLive = false := by
  obtain ⟨caller, outcome⟩ := n
  subst failure
  have after : (s.act a).1.Answerable (failed ∨ s.Fails a) := h.act survives id
  exact (h.regular.failed_told held told).resolve_right after.alive

theorem Answerable.closes (h : s.Answerable failed) (known : failed → failed') {bs : List Act}
    (all : ∀ b ∈ bs, b = .close) : (s.run bs).Answerable failed' := by
  induction bs generalizing s with
  | nil => exact { h with cause := fun dead => (h.cause dead).imp_right (Or.imp_right known) }
  | cons b bs ih =>
    obtain rfl := all b List.mem_cons_self
    refine ih (h.act (by simp) ?_) fun b member => all b (List.mem_cons_of_mem _ member)
    exact fun before => before.resolve_right fun fails => by simp [Fails] at fails

theorem orphaned_closes {bs : List Act} (all : ∀ b ∈ bs, b = .close) :
    (s.run bs).orphaned = s.orphaned := by
  induction bs generalizing s with
  | nil => rfl
  | cons b bs ih =>
    obtain rfl := all b List.mem_cons_self
    exact ih fun b member => all b (List.mem_cons_of_mem _ member)

end Session

namespace Hub

theorem lane_act (h : Hub) (a : Act) {key : Key} {l' : Lane} (lane' : (h.act a).lane? key = some l') :
    (∃ l b, h.lane? key = some l ∧ a = .session key b ∧ l'.session = (l.session.act b).1) ∨
    ∃ l, (h.lane? key = some l ∨ a = .enter l ∨ a = .add l) ∧ l.Goes (· = .close) l' := by
  by_cases own : ∃ b, a = .session key b
  · obtain ⟨b, rfl⟩ := own
    rw [act, updateSession, lane?_modify] at lane'
    obtain ⟨l, lane, rfl⟩ := Option.map_eq_some_iff.mp lane'
    exact .inl ⟨l, b, lane, rfl, by simp⟩
  · have closes (b : Session.Act) (moved : Moved [a] key b) : b = .close :=
      moved.resolve_right fun there => own ⟨b, (List.mem_singleton.mp there).symm⟩
    rcases h.act_old a lane' with ⟨l, lane, goes⟩ | ⟨l, new, goes⟩
    · exact .inr ⟨l, .inl lane, goes.mono closes⟩
    · exact .inr ⟨l, .inr new, goes.mono closes⟩

theorem replaced_register {h h' : Hub} {key : Key} (done : h.register key = .ok h') :
    ∃ more, h'.journal = h.journal ++ more ∧
      ∀ id reason sent, .removed id reason sent ∈ more → reason = .replaced := by
  rcases register_cases done with ⟨-, rfl⟩ | ⟨l, -, -, rfl⟩ | ⟨l, old, -, -, -, rfl⟩
  · exact ⟨[], by simp, by simp⟩
  · exact ⟨[.registered l.id l.client], rfl, by simp⟩
  · refine ⟨[.removed l.id .replaced (h.sent old.key), .registered l.id l.client],
      by simp, fun id reason sent member => ?_⟩
    simp only [List.mem_cons, Event.removed.injEq, reduceCtorEq, List.not_mem_nil, or_false]
      at member
    exact member.2.1

/-- An act that takes an entry out because a send has failed, with what it goes by. -/
def Act.Blames (h : Hub) (e : Entry) : Act → Prop
  | .sweep _ _ => h.isLive e.key = false
  | .conclude id key o => e = ⟨id, key⟩ ∧ ∃ f, o = .refused (.failed f)
  | .remove id reason => e.id = id ∧ reason = .sendFailed
  | .removeIfSame id key reason => e = ⟨id, key⟩ ∧ reason = .sendFailed
  | _ => False

theorem thins_blamed (h : Hub) (id : SessionId) (key : Key) (o : Outcome) :
    Thins (fun e _ => Act.Blames h e (.conclude id key o)) h (h.conclude id key o).1 := by
  have thins := h.thins_conclude id key o
  cases o with
  | written n => exact .refl _ h
  | refused why =>
    cases why with
    | failed f => exact thins.mono fun e reason because => ⟨because.1, f, rfl⟩
    | full => exact .refl _ h
    | lapsed => exact .refl _ h

theorem blamed_act (h : Hub) (a : Act) : ∃ more, (h.act a).journal = h.journal ++ more ∧
    ∀ id sent, .removed id .sendFailed sent ∈ more → ∃ e ∈ h.entries, e.id = id ∧ a.Blames h e := by
  have thinned {why : Entry → Reason → Prop} {h' : Hub} (thins : Thins why h h')
      (blames : ∀ e ∈ h.entries, why e .sendFailed → a.Blames h e) :
      ∃ more, h'.journal = h.journal ++ more ∧ ∀ id sent, .removed id .sendFailed sent ∈ more →
        ∃ e ∈ h.entries, e.id = id ∧ a.Blames h e := by
    obtain ⟨more, journal, removals⟩ := thins.journal
    refine ⟨more, journal, fun id sent member => ?_⟩
    obtain ⟨e, there, reason, n, same, because⟩ := removals _ member
    obtain ⟨rfl, rfl, rfl⟩ := Event.removed.inj same
    exact ⟨e, there, rfl, blames e there because⟩
  have silent {h' : Hub} (journal : ∃ more, h'.journal = h.journal ++ more ∧
      ∀ id reason sent, .removed id reason sent ∈ more → reason = .replaced) :
      ∃ more, h'.journal = h.journal ++ more ∧ ∀ id sent, .removed id .sendFailed sent ∈ more →
        ∃ e ∈ h.entries, e.id = id ∧ a.Blames h e := by
    obtain ⟨more, journal, replaced⟩ := journal
    exact ⟨more, journal, fun id sent member => by simpa using replaced id _ sent member⟩
  cases a with
  | enter l =>
    refine silent ?_
    simp only [act, enter]
    cases done : (h.addLane l).register h.lanes.length with
    | ok h' => simpa only [addLane] using replaced_register done
    | error e => exact ⟨[], by simp, by simp⟩
  | register key =>
    refine silent ?_
    simp only [act]
    cases done : h.register key with
    | ok h' => exact replaced_register done
    | error e => exact ⟨[], by simp, by simp⟩
  | remove id reason => exact thinned (h.thins_remove id reason) fun e _ why => ⟨why.1, why.2.symm⟩
  | removeIfSame id key reason =>
    exact thinned (h.thins_removeIfSame ⟨id, key⟩ reason) fun e _ why => ⟨why.1, why.2.symm⟩
  | sweep maxIdle now =>
    refine thinned (h.thins_removeWhere (h.sweepReason? maxIdle now)) fun e _ why => ?_
    simp only [Act.Blames, isLive]
    simp only [sweepReason?] at why
    cases lane : h.lane? e.key with
    | none => rfl
    | some l =>
      cases live : l.isLive with
      | false => simp [live]
      | true =>
        simp only [lane, live, Bool.not_true, Bool.false_eq_true, if_false] at why
        split at why <;> simp at why
  | reject subsystem =>
    refine thinned (h.thins_removeWhere _) fun e _ why => ?_
    split at why <;> simp at why
  | closeAll => exact thinned h.thins_closeAll fun e _ why => absurd why (by simp)
  | conclude id key o => exact thinned (h.thins_blamed id key o) fun e _ why => why
  | add | session | stream => exact ⟨[], by simp [act], by simp⟩

theorem reported_takeOut {h : Hub} {e : Entry} {a : Act} (takes : h.act a = h.takeOut e .sendFailed) :
    ∃ sent, .removed e.id .sendFailed sent ∈ (h.act a).journal.drop h.journal.length := by
  rw [takes, journal_takeOut, List.drop_left]
  exact ⟨_, List.mem_cons_self⟩

theorem reported_act {h : Hub} (sound : h.Sound) {a : Act} {e : Entry} (member : e ∈ h.entries)
    (blames : a.Blames h e) :
    ∃ sent, .removed e.id .sendFailed sent ∈ (h.act a).journal.drop h.journal.length := by
  cases a with
  | sweep maxIdle now =>
    obtain ⟨l, lane, _⟩ := sound.lane member
    obtain ⟨gone, clears, _⟩ := sweepIdle_clears sound maxIdle now
    have dead : l.isLive = false := by simpa [Act.Blames, isLive_of_lane lane] using blames
    have swept : ⟨e, l, .sendFailed⟩ ∈ gone := (clears.exact _).mpr ⟨member, lane, .inl ⟨dead, rfl⟩⟩
    simp only [act, clears.events, List.drop_left]
    exact ⟨_, List.mem_map.mpr ⟨_, swept, rfl⟩⟩
  | conclude id key o =>
    obtain ⟨rfl, f, rfl⟩ := blames
    have fatal : answer id (.refused (.failed f)) = .error (.sendFailed id.text f.message) := rfl
    refine reported_takeOut ?_
    rw [act, conclude_fatal fatal, removeIfSame_entry sound member]
  | remove id reason =>
    obtain ⟨rfl, rfl⟩ := blames
    exact reported_takeOut (by rw [act, remove_entry sound member])
  | removeIfSame id key reason =>
    obtain ⟨rfl, rfl⟩ := blames
    exact reported_takeOut (by rw [act, removeIfSame_entry sound member])
  | _ => exact absurd blames id

end Hub

namespace Traffic

def hubAct? (t : Traffic) : Act → Option Hub.Act
  | .hub a => some a
  | .find _ => none
  | .hand number payload patience spent now =>
    t.errands[number]?.map fun d => .session d.key (.offer ⟨.sender number, payload⟩ patience spent now)
  | .conclude number => t.errands[number]?.bind fun d => d.outcome.map fun o => .conclude d.id d.key o

theorem hub_act (t : Traffic) (a : Act) : (t.act a).hub = (t.hubAct? a).elim t.hub t.hub.act := by
  cases a with
  | hub a => cases a <;> rfl
  | find id => exact t.hub_find id
  | hand number payload patience spent now =>
    simp only [act, hubAct?]
    cases t.errands[number]? with
    | none => rfl
    | some d => exact t.hub.offer_eq d.key ⟨.sender number, payload⟩ patience spent now
  | conclude number =>
    simp only [act, hubAct?]
    cases t.errands[number]? with
    | none => rfl
    | some d =>
      cases outcome : d.outcome with
      | none => simp [outcome]
      | some o => simp [outcome, Hub.act]

/-- The acts of a run in which every session is opened anew, no writer dies, and nobody lets go of a
session that is registered or has a producer waiting for its outcome. -/
def Allows (t : Traffic) : Act → Prop
  | .hub (.enter l) | .hub (.add l) => ∃ c now, l.session = .start c now
  | .hub (.register key) => ∀ l, t.hub.lane? key = some l → l.session.orphaned = false
  | .hub (.conclude _ _ _) => False
  | .hub (.session _ .crash) => False
  | .hub (.session key .orphan) =>
    (∀ e ∈ t.hub.entries, e.key ≠ key) ∧ ∀ d ∈ t.errands, d.key = key → d.outcome ≠ none
  | _ => True

def Course (t : Traffic) : List Act → Prop
  | [] => True
  | a :: acts => t.Allows a ∧ (t.act a).Course acts

/-- A write of the session fails, or takes too long. -/
def FailsWrite (t : Traffic) (key : Key) (a : Act) : Prop :=
  ∃ l b, t.hub.lane? key = some l ∧ a = .hub (.session key b) ∧ l.session.Fails b

def WriteFailed (t : Traffic) (key : Key) : List Act → Prop
  | [] => False
  | a :: acts => t.FailsWrite key a ∨ (t.act a).WriteFailed key acts

/-- It is known of each session why it has ended, and who was told that a send failed has a session
that has ended. -/
structure Accounted (t : Traffic) (failed : Key → Prop) : Prop where
  sound : t.hub.Sound
  lanes : ∀ key l, t.hub.lane? key = some l → l.session.Answerable (failed key)
  held : ∀ e ∈ t.hub.entries, ∀ l, t.hub.lane? e.key = some l → l.session.orphaned = false
  told : ∀ d ∈ t.errands, ∃ l, t.hub.lane? d.key = some l ∧
    (d.outcome = none → l.session.orphaned = false) ∧
    ∀ f, d.outcome = some (.refused (.failed f)) → l.isLive = false

theorem accounted_start (config : Config) (failed : Key → Prop) : (start config).Accounted failed where
  sound := Hub.sound_start config
  lanes := by simp
  held := by simp
  told := by simp

theorem hubAct?_cases {t : Traffic} {a : Act} {x : Hub.Act} (is : t.hubAct? a = some x) :
    a = .hub x ∨ (∃ key p patience spent now, x = .session key (.offer p patience spent now)) ∨
    ∃ number d o, a = .conclude number ∧ t.errands[number]? = some d ∧ d.outcome = some o ∧
      x = .conclude d.id d.key o := by
  cases a with
  | hub a => exact .inl (congrArg Act.hub (Option.some.inj is))
  | find id => simp [hubAct?] at is
  | hand number payload patience spent now =>
    obtain ⟨d, _, rfl⟩ := Option.map_eq_some_iff.mp is
    exact .inr (.inl ⟨d.key, _, patience, spent, now, rfl⟩)
  | conclude number =>
    obtain ⟨d, found, is⟩ := Option.bind_eq_some_iff.mp is
    obtain ⟨o, known, rfl⟩ := Option.map_eq_some_iff.mp is
    exact .inr (.inr ⟨number, d, o, rfl, found, known, rfl⟩)

theorem lane_act {t : Traffic} {a : Act} (allowed : t.Allows a) {key : Key} {l' : Lane}
    (lane' : (t.act a).hub.lane? key = some l') :
    (∃ l b, t.hub.lane? key = some l ∧ t.hubAct? a = some (.session key b) ∧
      l'.session = (l.session.act b).1) ∨
    ∃ l, (t.hub.lane? key = some l ∨ ∃ c now, l.session = .start c now) ∧ l.Goes (· = .close) l' := by
  rw [hub_act] at lane'
  cases is : t.hubAct? a with
  | none =>
    rw [is] at lane'
    exact .inr ⟨l', .inl lane', .refl _ l'⟩
  | some x =>
    rw [is] at lane'
    rcases t.hub.lane_act x lane' with ⟨l, b, lane, rfl, moved⟩ | ⟨l, old, goes⟩
    · exact .inl ⟨l, b, lane, rfl, moved⟩
    · refine .inr ⟨l, old.imp_right fun new => ?_, goes⟩
      rcases hubAct?_cases is with rfl | ⟨_, _, _, _, _, rfl⟩ | ⟨_, _, _, _, _, _, rfl⟩
      · rcases new with rfl | rfl <;> exact allowed
      · simp at new
      · simp at new

theorem Allows.survives {t : Traffic} {a : Act} (allowed : t.Allows a) {key : Key} {b : Session.Act}
    (is : t.hubAct? a = some (.session key b)) : b ≠ .crash := by
  rintro rfl
  rcases hubAct?_cases is with rfl | ⟨_, _, _, _, _, same⟩ | ⟨_, _, _, _, _, _, same⟩
  · exact allowed
  · simp at same
  · simp at same

theorem failsWrite {t : Traffic} {a : Act} {key : Key} {b : Session.Act} {l : Lane}
    (lane : t.hub.lane? key = some l) (is : t.hubAct? a = some (.session key b))
    (fails : l.session.Fails b) : t.FailsWrite key a := by
  rcases hubAct?_cases is with rfl | ⟨_, _, _, _, _, same⟩ | ⟨_, _, _, _, _, _, same⟩
  · exact ⟨l, b, lane, rfl, fails⟩
  · obtain ⟨_, rfl⟩ := Hub.Act.session.inj same
    simp [Session.Fails] at fails
  · simp at same

theorem held_act {t : Traffic} {a : Act} (allowed : t.Allows a) {key : Key} {l' : Lane}
    (lane' : (t.act a).hub.lane? key = some l')
    (held : ∀ l, t.hub.lane? key = some l → l.session.orphaned = false)
    (holder : (∃ e ∈ t.hub.entries, e.key = key) ∨ (∃ d ∈ t.errands, d.key = key ∧ d.outcome = none) ∨
      ∀ b, t.hubAct? a ≠ some (.session key b)) :
    l'.session.orphaned = false := by
  rcases lane_act allowed lane' with ⟨l, b, lane, is, moved⟩ | ⟨l, old, _, bs, session, closes⟩
  · rw [moved]
    by_contra left
    rw [Bool.not_eq_false, (l.session.marks_act b).2] at left
    obtain rfl := left.resolve_left (by simp [held l lane])
    rcases hubAct?_cases is with rfl | ⟨_, _, _, _, _, same⟩ | ⟨_, _, _, _, _, _, same⟩
    · obtain ⟨unregistered, answered⟩ := allowed
      rcases holder with ⟨e, member, own⟩ | ⟨d, member, own, waits⟩ | other
      · exact unregistered e member own
      · exact answered d member own waits
      · exact other .orphan is
    · simp at same
    · simp at same
  · rw [session, Session.orphaned_closes closes]
    rcases old with lane | ⟨c, now, start⟩
    · exact held l lane
    · rw [start]
      rfl

theorem mem_hear {t : Traffic} {key : Key} {notices : List Notice} {d : Errand}
    (member : d ∈ (t.hear key notices).errands) : ∃ d' ∈ t.errands, d'.id = d.id ∧ d'.key = d.key ∧
      (d.outcome = d'.outcome ∨ d'.outcome = none ∧ d.key = key ∧
        ∃ n ∈ notices, d.outcome = some n.outcome) := by
  obtain ⟨number, inside, rfl⟩ := List.mem_mapIdx.mp member
  refine ⟨t.errands[number], List.getElem_mem inside, ?_⟩
  split
  · rename_i n found
    have own := List.find?_some found
    simp only [Bool.and_eq_true, beq_iff_eq] at own
    refine ⟨rfl, rfl, ?_⟩
    cases outcome : t.errands[number].outcome with
    | none => exact .inr ⟨rfl, own.2, n, List.mem_of_find?_eq_some found, by simp⟩
    | some o => exact .inl (by simp)
  · exact ⟨rfl, rfl, .inl rfl⟩

/-- What a producer knows after an act it knew before, or it has just found its lane, or an act on its
session tells it. -/
theorem told_act {t : Traffic} {a : Act} {d : Errand} (member : d ∈ (t.act a).errands) :
    (t.hub.route d.id = .ok d.key ∧ d.outcome = none ∧ ∀ b, t.hubAct? a ≠ some (.session d.key b)) ∨
    ∃ d' ∈ t.errands, d'.id = d.id ∧ d'.key = d.key ∧ (d.outcome = d'.outcome ∨
      d'.outcome = none ∧ ∃ b, t.hubAct? a = some (.session d.key b) ∧
        ∀ l, t.hub.lane? d.key = some l → ∃ n ∈ (l.session.act b).2, d.outcome = some n.outcome) := by
  have same {u : Traffic} (errands : u.errands = t.errands) (member : d ∈ u.errands) :
      ∃ d' ∈ t.errands, d'.id = d.id ∧ d'.key = d.key ∧ (d.outcome = d'.outcome ∨
        d'.outcome = none ∧ ∃ b, t.hubAct? a = some (.session d.key b) ∧
          ∀ l, t.hub.lane? d.key = some l → ∃ n ∈ (l.session.act b).2, d.outcome = some n.outcome) :=
    ⟨d, errands ▸ member, rfl, rfl, .inl rfl⟩
  cases a with
  | hub a =>
    cases a with
    | session key b =>
      right
      obtain ⟨d', old, id, own, known⟩ := mem_hear member
      refine ⟨d', old, id, own, known.imp_right ?_⟩
      rintro ⟨unknown, here, n, told, outcome⟩
      subst here
      refine ⟨unknown, b, rfl, fun l lane => ⟨n, ?_, outcome⟩⟩
      simpa [notices, lane] using told
    | _ => exact .inr (same rfl member)
  | find id =>
    simp only [act] at member
    cases found : t.hub.route id with
    | error e => exact .inr (same rfl (by simpa [found] using member))
    | ok key =>
      simp only [found, List.mem_append, List.mem_singleton] at member
      rcases member with old | rfl
      · exact .inr (same rfl old)
      · exact .inl ⟨found, rfl, by simp [hubAct?]⟩
  | hand number payload patience spent now =>
    simp only [act] at member
    cases found : t.errands[number]? with
    | none => exact .inr (same rfl (by simpa [found] using member))
    | some e =>
      simp only [found] at member
      right
      obtain ⟨d', old, id, own, known⟩ := mem_hear member
      refine ⟨d', old, id, own, known.imp_right ?_⟩
      rintro ⟨unknown, here, n, told, outcome⟩
      refine ⟨unknown, .offer ⟨.sender number, payload⟩ patience spent now, ?_, fun l lane => ?_⟩
      · simp [hubAct?, found, here]
      · refine ⟨n, ?_, outcome⟩
        simpa [Hub.offer, here ▸ lane, Session.act] using told
  | conclude number =>
    simp only [act] at member
    split at member <;> exact .inr (same rfl member)

theorem session_act {t : Traffic} {a : Act} {key : Key} {b : Session.Act}
    (is : t.hubAct? a = some (.session key b)) {l l' : Lane} (lane : t.hub.lane? key = some l)
    (lane' : (t.act a).hub.lane? key = some l') : l'.session = (l.session.act b).1 := by
  rw [hub_act, is, Option.elim_some, Hub.act, Hub.updateSession, Hub.lane?_modify, lane] at lane'
  simp [← Option.some.inj lane']

theorem Accounted.act {t : Traffic} {failed failed' : Key → Prop} (h : t.Accounted failed) {a : Act}
    (allowed : t.Allows a) (known : ∀ key, failed key ∨ t.FailsWrite key a → failed' key) :
    (t.act a).Accounted failed' where
  sound := by
    rw [hub_act]
    cases t.hubAct? a with
    | none => exact h.sound
    | some x => exact (Hub.act_sound h.sound x).1
  lanes key l' lane' := by
    rcases lane_act allowed lane' with ⟨l, b, lane, is, moved⟩ | ⟨l, old, _, bs, session, closes⟩
    · rw [moved]
      exact (h.lanes key l lane).act (allowed.survives is) fun why =>
        known key (why.imp_right (failsWrite lane is))
    · rw [session]
      rcases old with lane | ⟨c, now, start⟩
      · exact (h.lanes key l lane).closes (fun before => known key (.inl before)) closes
      · exact start ▸ (Session.answerable_start c now).closes id closes
  held e member l' lane' := by
    rw [hub_act] at member
    cases is : t.hubAct? a with
    | none =>
      rw [is] at member
      exact held_act allowed lane' (h.held e member) (.inl ⟨e, member, rfl⟩)
    | some x =>
      rw [is] at member
      rcases t.hub.entries_act x member with old | ⟨l, rfl, new⟩ | rfl
      · exact held_act allowed lane' (h.held e old) (.inl ⟨e, old, rfl⟩)
      · refine held_act allowed lane' (fun l lane => ?_) (.inr (.inr (by simp [is])))
        simp [Hub.lane?, new] at lane
      · refine held_act allowed lane' ?_ (.inr (.inr (by simp [is])))
        rcases hubAct?_cases is with rfl | ⟨_, _, _, _, _, same⟩ | ⟨_, _, _, _, _, _, same⟩
        · exact allowed
        · simp at same
        · simp at same
  told d member := by
    obtain ⟨_, _, change⟩ := t.act_change a
    -- a producer that has just found its lane waits for its outcome, one that was there before may
    -- have been told by the act
    rcases told_act member with ⟨found, unknown, still⟩ | ⟨d', old, -, own, known⟩
    · have there : ⟨d.id, d.key⟩ ∈ t.hub.entries :=
        (Hub.entry_mem (Hub.lookup_eq_some (Hub.route_eq_ok found)).1).1
      obtain ⟨l, lane, _⟩ := h.sound.lane there
      obtain ⟨l', lane', _⟩ := change.follows d.key l lane
      refine ⟨l', lane', fun _ => ?_, by simp [unknown]⟩
      exact held_act allowed lane' (h.held ⟨d.id, d.key⟩ there) (.inr (.inr still))
    · obtain ⟨l, lane, held, dead⟩ := h.told d' old
      rw [own] at lane
      obtain ⟨l', lane', -, -, stays⟩ := change.follows d.key l lane
      refine ⟨l', lane', fun unknown => ?_, fun f failed => ?_⟩
      · have waits : d'.outcome = none := by
          rcases known with same | ⟨unknown', -⟩
          · rw [← same, unknown]
          · exact unknown'
        refine held_act allowed lane' (fun m lane₂ => ?_) (.inr (.inl ⟨d', old, own, waits⟩))
        rw [← Option.some.inj (lane.symm.trans lane₂)]
        exact held waits
      · rcases known with same | ⟨waits, b, is, hears⟩
        · exact stays (dead f (same ▸ failed))
        · obtain ⟨n, told, outcome⟩ := hears l lane
          rw [Lane.isLive, session_act is lane lane']
          exact (h.lanes d.key l lane).hears_failure (held waits) (allowed.survives is) told
            (Option.some.inj (outcome.symm.trans failed))

theorem Accounted.run {t : Traffic} {failed : Key → Prop} (h : t.Accounted failed) {acts : List Act}
    (course : t.Course acts) : (t.run acts).Accounted fun key => failed key ∨ t.WriteFailed key acts := by
  induction acts generalizing t failed with
  | nil => simpa [WriteFailed, Traffic.run] using h
  | cons a acts ih =>
    have first : (t.act a).Accounted fun key => failed key ∨ t.FailsWrite key a :=
      h.act course.1 fun key why => why
    simpa [WriteFailed, Traffic.run, or_assoc] using ih first course.2

theorem course_append {t : Traffic} {first second : List Act} (course : t.Course (first ++ second)) :
    t.Course first ∧ (t.run first).Course second := by
  induction first generalizing t with
  | nil => exact ⟨trivial, course⟩
  | cons a first ih =>
    obtain ⟨rest, last⟩ := ih course.2
    exact ⟨⟨course.1, rest⟩, last⟩

/-- Somebody who removes a session gives this as his reason. -/
def Act.Names (e : Entry) (a : Act) : Prop :=
  a = .hub (.remove e.id .sendFailed) ∨ a = .hub (.removeIfSame e.id e.key .sendFailed)

/-- An act that concludes it: a sweep that finds the session dead, and a producer that was told so. -/
def Detects (t : Traffic) (e : Entry) : Act → Prop
  | .hub (.sweep _ _) => t.hub.isLive e.key = false
  | .conclude number => ∃ d f, t.errands[number]? = some d ∧ d.id = e.id ∧ d.key = e.key ∧
    d.outcome = some (.refused (.failed f))
  | _ => False

theorem blames_iff {t : Traffic} {a : Act} (allowed : t.Allows a) (e : Entry) :
    (∃ x, t.hubAct? a = some x ∧ x.Blames t.hub e) ↔ a.Names e ∨ t.Detects e a := by
  constructor
  · rintro ⟨x, is, blames⟩
    rcases hubAct?_cases is with rfl | ⟨_, _, _, _, _, rfl⟩ | ⟨number, d, o, rfl, found, known, rfl⟩
    · cases x with
      | remove id reason => exact .inl (.inl (by rw [blames.1, blames.2]))
      | removeIfSame id key reason => exact .inl (.inr (by rw [blames.1, blames.2]))
      | sweep maxIdle now => exact .inr blames
      | conclude => exact absurd allowed id
      | _ => exact absurd blames id
    · exact absurd blames id
    · obtain ⟨rfl, f, rfl⟩ := blames
      exact .inr ⟨d, f, found, rfl, rfl, known⟩
  · rintro ((rfl | rfl) | detects)
    · exact ⟨_, rfl, rfl, rfl⟩
    · exact ⟨_, rfl, rfl, rfl⟩
    · cases a with
      | hub x =>
        cases x with
        | sweep maxIdle now => exact ⟨_, rfl, detects⟩
        | _ => exact absurd detects id
      | conclude number =>
        obtain ⟨d, f, found, sameId, sameKey, known⟩ := detects
        refine ⟨.conclude d.id d.key (.refused (.failed f)), ?_, by rw [sameId, sameKey], f, rfl⟩
        simp [hubAct?, found, known]
      | _ => exact absurd detects id

theorem Accounted.dead {t : Traffic} {failed : Key → Prop} (h : t.Accounted failed) {e : Entry}
    (member : e ∈ t.hub.entries) {a : Act} (detects : t.Detects e a) :
    ∃ l, t.hub.lane? e.key = some l ∧ l.isLive = false ∧
      (l.session.closing = true ∨ failed e.key) := by
  obtain ⟨l, lane, _⟩ := h.sound.lane member
  have dead : l.isLive = false := by
    cases a with
    | hub x =>
      cases x with
      | sweep maxIdle now => simpa [Detects, Hub.isLive_of_lane lane] using detects
      | _ => exact absurd detects id
    | conclude number =>
      obtain ⟨d, f, found, _, own, known⟩ := detects
      obtain ⟨m, there, -, told⟩ := h.told d (List.mem_of_getElem? found)
      rw [own, lane, Option.some.injEq] at there
      exact there ▸ told f known
    | _ => exact absurd detects id
  -- a session that is registered has not been let go of
  have cause := (h.lanes e.key l lane).cause dead
  simp only [h.held e member l lane, Bool.false_eq_true, false_or] at cause
  exact ⟨l, lane, dead, cause⟩

/-- In a run in which no writer dies, a session that is reported as a failed send is dead, and was
closed or has had a write that failed; unless the one who removed it gave that reason himself. It is so
reported by every sweep that finds it dead, and by every producer that finds it registered when it was
told of a failure, whatever the session has ended by. -/
theorem failed_or_closed (config : Config) (acts : List Act) (a : Act)
    (course : (start config).Course (acts ++ [a])) :
    let t := (start config).run acts
    ∃ more, (t.act a).hub.journal = t.hub.journal ++ more ∧
      (∀ id sent, .removed id .sendFailed sent ∈ more → ∃ e ∈ t.hub.entries, e.id = id ∧
        (a.Names e ∨ t.Detects e a ∧ ∃ l, t.hub.lane? e.key = some l ∧ l.isLive = false ∧
          (l.session.closing = true ∨ (start config).WriteFailed e.key acts))) ∧
      ∀ e ∈ t.hub.entries, a.Names e ∨ t.Detects e a → ∃ sent, .removed e.id .sendFailed sent ∈ more := by
  intro t
  obtain ⟨before, allowed, -⟩ := course_append course
  have accounted := (accounted_start config fun _ => False).run before
  simp only [false_or] at accounted
  rw [hub_act]
  cases is : t.hubAct? a with
  | none =>
    refine ⟨[], by simp, by simp, fun e _ blamed => ?_⟩
    obtain ⟨x, is', -⟩ := (blames_iff allowed e).mpr blamed
    exact absurd (is.symm.trans is') (by simp)
  | some x =>
    obtain ⟨more, journal, blamed⟩ := t.hub.blamed_act x
    refine ⟨more, journal, fun id sent member => ?_, fun e member blames => ?_⟩
    · obtain ⟨e, there, own, blames⟩ := blamed id sent member
      refine ⟨e, there, own, ((blames_iff allowed e).mp ⟨x, is, blames⟩).imp_right fun detects => ?_⟩
      exact ⟨detects, accounted.dead there detects⟩
    · obtain ⟨y, is', blames⟩ := (blames_iff allowed e).mpr blames
      obtain rfl := Option.some.inj (is.symm.trans is')
      have reported := Hub.reported_act accounted.sound member blames
      rwa [journal, List.drop_left] at reported

def closedRun : List Act := [
  .hub (.enter Hub.plainLane), .find ⟨"s1"⟩, .hand 0 "a" .endless false 0,
  .hub (.session 0 (.turn 0)), .hub (.session 0 .wrote), .hub (.session 0 .close)]

def narrowLane : Lane :=
  ⟨⟨"s1"⟩, .default, .start { Config.default with queueCapacity := 1 } 0, .probe (.start .plain)⟩

/-- The session is closed while one parcel is in flight, one is queued and one waits for a place. The
first two are written. -/
def crowdedRun : List Act := [
  .hub (.enter narrowLane), .find ⟨"s1"⟩, .find ⟨"s1"⟩, .find ⟨"s1"⟩,
  .hand 0 "a" .endless false 0, .hub (.session 0 (.turn 0)), .hand 1 "b" .endless false 0,
  .hand 2 "c" .endless false 0, .hub (.session 0 .close), .hub (.session 0 .wrote),
  .hub (.session 0 (.turn 0)), .hub (.session 0 (.turn 0)), .hub (.session 0 .wrote)]

theorem course_closedRun : (start .default).Course (closedRun ++ [.hub (.sweep 1000 0)]) :=
  ⟨⟨.default, 0, rfl⟩, trivial, trivial, trivial, trivial, trivial, trivial, trivial⟩

theorem course_crowdedRun : (start .default).Course (crowdedRun ++ [.conclude 2]) :=
  ⟨⟨_, 0, rfl⟩, trivial, trivial, trivial, trivial, trivial, trivial, trivial, trivial, trivial,
    trivial, trivial, trivial, trivial, trivial⟩

/-- No write has failed, but a sweep reports a failed send, and so does a producer that waited. -/
theorem closed_reported_as_failed :
    let swept := closedRun ++ [.hub (.sweep 1000 0)]
    let crowded := crowdedRun ++ [.conclude 2]
    (∀ key f now, .hub (.session key (.fail f now)) ∉ swept ++ crowded) ∧
    ((start .default).Course swept ∧
      .removed ⟨"s1"⟩ .sendFailed 1 ∈ ((start .default).run swept).hub.journal) ∧
    (start .default).Course crowded ∧
      .removed ⟨"s1"⟩ .sendFailed 2 ∈ ((start .default).run crowded).hub.journal :=
  ⟨by simp [closedRun, crowdedRun], ⟨course_closedRun, by decide⟩, course_crowdedRun, by decide⟩

def brokenRun : List Act := [
  .hub (.enter Hub.plainLane), .find ⟨"s1"⟩, .hand 0 "a" .endless false 0,
  .hub (.session 0 (.turn 0)), .hub (.session 0 (.fail .closed 0))]

theorem failed_or_closed_broken :
    let t := (start .default).run brokenRun
    (start .default).Course (brokenRun ++ [.conclude 0]) ∧
    .removed ⟨"s1"⟩ .sendFailed 0 ∈ (t.act (.conclude 0)).hub.journal ∧
    ∃ l, t.hub.lane? 0 = some l ∧ l.isLive = false ∧ (start .default).WriteFailed 0 brokenRun := by
  intro t
  have course : (start .default).Course (brokenRun ++ [.conclude 0]) :=
    ⟨⟨.default, 0, rfl⟩, trivial, trivial, trivial, trivial, trivial, trivial⟩
  obtain ⟨more, journal, blamed, -⟩ := failed_or_closed .default brokenRun (.conclude 0) course
  have last : more = [.removed ⟨"s1"⟩ .sendFailed 0] :=
    (List.append_cancel_left (journal.symm.trans (by decide))).trans rfl
  obtain ⟨e, there, -, cause⟩ := blamed ⟨"s1"⟩ 0 (by simp [last])
  obtain rfl : e = ⟨⟨"s1"⟩, 0⟩ := List.mem_singleton.mp there
  obtain ⟨-, l, lane, dead, why⟩ := cause.resolve_left (by simp [Act.Names])
  have unclosed : l.session.closing = false := by
    rw [← Option.some.inj lane]
    rfl
  exact ⟨course, by decide, l, lane, dead, why.resolve_left (by simp [unclosed])⟩

end Traffic

end Courier
