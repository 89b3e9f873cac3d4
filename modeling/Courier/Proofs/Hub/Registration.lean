import Courier.Proofs.Hub.Emission
import Courier.Proofs.Hub.Steps

set_option autoImplicit false

namespace Courier

namespace Hub

/-- From `h` to `h'` some entries were taken out, each for a reason that it had. -/
structure Thins (why : Entry → Reason → Prop) (h h' : Hub) : Prop where
  entries : ∀ e ∈ h'.entries, e ∈ h.entries
  journal : ∃ more, h'.journal = h.journal ++ more ∧
    ∀ event ∈ more, ∃ e ∈ h.entries, ∃ reason sent,
      event = .removed e.id reason sent ∧ why e reason

namespace Thins

variable {why : Entry → Reason → Prop} {h h' h'' : Hub}

theorem refl (why : Entry → Reason → Prop) (h : Hub) : Thins why h h :=
  ⟨fun _ member => member, [], by simp, by simp⟩

theorem trans (first : Thins why h h') (second : Thins why h' h'') : Thins why h h'' := by
  obtain ⟨fewer, more, journal, removals⟩ := first
  obtain ⟨fewer', more', journal', removals'⟩ := second
  refine ⟨fun e member => fewer e (fewer' e member), more ++ more', ?_, ?_⟩
  · rw [journal', journal, List.append_assoc]
  · intro event member
    rcases List.mem_append.mp member with early | late
    · exact removals event early
    · obtain ⟨e, there, rest⟩ := removals' event late
      exact ⟨e, fewer e there, rest⟩

theorem mono {wider : Entry → Reason → Prop} (thins : Thins why h h')
    (some : ∀ e reason, why e reason → wider e reason) : Thins wider h h' := by
  obtain ⟨fewer, more, journal, removals⟩ := thins
  refine ⟨fewer, more, journal, fun event member => ?_⟩
  obtain ⟨e, there, reason, sent, same, because⟩ := removals event member
  exact ⟨e, there, reason, sent, same, some e reason because⟩

end Thins

theorem thins_takeOut {why : Entry → Reason → Prop} {h : Hub} {e : Entry} {reason : Reason}
    (member : e ∈ h.entries) (because : why e reason) : Thins why h (h.takeOut e reason) := by
  refine ⟨fun e' there => List.mem_of_mem_filter there, [.removed e.id reason _], rfl, ?_⟩
  intro event only
  exact ⟨e, member, reason, _, List.mem_singleton.mp only, because⟩

theorem thins_remove (h : Hub) (id : SessionId) (reason : Reason) :
    Thins (fun e r => e.id = id ∧ r = reason) h (h.remove id reason).1 := by
  unfold remove
  cases entry : h.entry? id with
  | none => exact .refl _ h
  | some e =>
    obtain ⟨member, own⟩ := entry_mem entry
    exact thins_takeOut member ⟨own, rfl⟩

theorem thins_removeIfSame (h : Hub) (e : Entry) (reason : Reason) :
    Thins (fun e' r => e' = e ∧ r = reason) h (h.removeIfSame e.id e.key reason).1 := by
  unfold removeIfSame
  cases entry : h.entry? e.id with
  | none => exact .refl _ h
  | some e' =>
    by_cases same : e'.key = e.key
    · obtain ⟨member, own⟩ := entry_mem entry
      have this : e' = e := by
        cases e
        cases e'
        simp_all
      simpa [same] using thins_takeOut member ⟨this, rfl⟩
    · simpa [same] using Thins.refl _ h

theorem thins_removeEach (reason? : Entry → Option Reason) (es : List Entry)
    (done : Hub × List SessionId) :
    Thins (fun e reason => reason? e = some reason) done.1 (es.foldl (removeOne reason?) done).1 := by
  induction es generalizing done with
  | nil => exact .refl _ done.1
  | cons e es ih =>
    refine .trans ?_ (ih (removeOne reason? done e))
    unfold removeOne
    cases because : reason? e with
    | none => exact .refl _ done.1
    | some reason =>
      refine (thins_removeIfSame done.1 e reason).mono ?_
      rintro e' r ⟨rfl, rfl⟩
      exact because

theorem thins_removeWhere (h : Hub) (reason? : Entry → Option Reason) :
    Thins (fun e reason => reason? e = some reason) h (h.removeWhere reason?).1 :=
  thins_removeEach reason? h.entries (h, [])

theorem thins_closeAll (h : Hub) : Thins (fun _ reason => reason = .shutdown) h h.closeAll.1 := by
  have each (ids : List SessionId) (done : Hub × Nat) :
      Thins (fun _ reason => reason = .shutdown) done.1 (ids.foldl shutOne done).1 := by
    induction ids generalizing done with
    | nil => exact .refl _ done.1
    | cons id ids ih =>
      refine .trans ?_ (ih (shutOne done id))
      exact (thins_remove done.1 id .shutdown).mono fun e reason because => because.2
  exact each h.ids (h, 0)

theorem thins_conclude (h : Hub) (id : SessionId) (key : Key) (outcome : Outcome) :
    Thins (fun e reason => e = ⟨id, key⟩ ∧ reason = .sendFailed) h (h.conclude id key outcome).1 := by
  unfold conclude
  cases answer id outcome with
  | ok n => exact .refl _ h
  | error e =>
    by_cases fatal : e.isFatal = true
    · simpa [fatal] using thins_removeIfSame h ⟨id, key⟩ .sendFailed
    · simpa [fatal] using Thins.refl _ h

theorem Sound.entry {h : Hub} (sound : h.Sound) {e : Entry} (member : e ∈ h.entries) :
    h.entry? e.id = some e := by
  cases entry : h.entry? e.id with
  | none => exact absurd (List.mem_map_of_mem member) (entry_none.mp entry)
  | some e' => rw [sound.unique member entry]

/-- An act that may register a session under an id. -/
def Act.Registers (h : Hub) (id : SessionId) (a : Act) : Prop :=
  (∃ l, a = .enter l ∧ l.id = id) ∨ ∃ key, a = .register key ∧ h.idOf? key = some id

theorem journal_register {h h' : Hub} {key : Key} (done : h.register key = .ok h') :
    ∃ more, h'.journal = h.journal ++ more ∧
      ∀ id client, .registered id client ∈ more → h.idOf? key = some id := by
  rcases register_cases done with
    ⟨-, rfl⟩ | ⟨l, lane, -, rfl⟩ | ⟨l, old, lane, -, -, rfl⟩
  · exact ⟨[], by simp, by simp⟩
  · refine ⟨[.registered l.id l.client], rfl, fun id client member => ?_⟩
    simp only [List.mem_singleton, Event.registered.injEq] at member
    rw [member.1, idOf_of_lane lane]
  · refine ⟨[.removed l.id .replaced (h.sent old.key), .registered l.id l.client],
      by simp, fun id client member => ?_⟩
    simp only [List.mem_cons, reduceCtorEq, Event.registered.injEq, List.not_mem_nil, or_false,
      false_or] at member
    rw [member.1, idOf_of_lane lane]

theorem entries_register {h h' : Hub} {key : Key} (done : h.register key = .ok h') {e : Entry}
    (member : e ∈ h'.entries) : e ∈ h.entries ∨ e.key = key := by
  rcases register_cases done with ⟨-, rfl⟩ | ⟨l, -, -, rfl⟩ | ⟨l, old, -, -, -, rfl⟩
  · exact .inl member
  · rcases List.mem_append.mp member with there | new
    · exact .inl there
    · exact .inr (by rw [List.mem_singleton.mp new])
  · obtain ⟨e', there, rfl⟩ := List.mem_map.mp member
    by_cases same : e'.id = l.id
    · exact .inr (by simp [same])
    · exact .inl (by simpa [same] using there)

theorem act_cases (h : Hub) (a : Act) :
    (∃ l, a = .enter l) ∨ (∃ key, a = .register key) ∨ Thins (fun _ _ => True) h (h.act a) := by
  cases a with
  | enter l => exact .inl ⟨l, rfl⟩
  | register key => exact .inr (.inl ⟨key, rfl⟩)
  | remove id reason => exact .inr (.inr ((h.thins_remove id reason).mono fun _ _ _ => trivial))
  | removeIfSame id key reason =>
    exact .inr (.inr ((h.thins_removeIfSame ⟨id, key⟩ reason).mono fun _ _ _ => trivial))
  | sweep maxIdle now => exact .inr (.inr ((h.thins_removeWhere _).mono fun _ _ _ => trivial))
  | reject subsystem => exact .inr (.inr ((h.thins_removeWhere _).mono fun _ _ _ => trivial))
  | closeAll => exact .inr (.inr (h.thins_closeAll.mono fun _ _ _ => trivial))
  | conclude id key outcome =>
    exact .inr (.inr ((h.thins_conclude id key outcome).mono fun _ _ _ => trivial))
  | add | session | stream =>
    exact .inr (.inr ⟨fun _ member => member, [], by simp [act], by simp⟩)

theorem journal_enter (h : Hub) (l : Lane) : ∃ more, (h.enter l).1.journal = h.journal ++ more ∧
    ∀ id client, .registered id client ∈ more → id = l.id := by
  unfold enter
  cases done : (h.addLane l).register h.lanes.length with
  | ok h' =>
    obtain ⟨more, journal, registers⟩ := journal_register done
    simp only [done]
    refine ⟨more, journal, fun id client member => ?_⟩
    have own := registers id client member
    rw [idOf_addLane, Option.some.injEq] at own
    exact own.symm
  | error e =>
    simp only [done]
    exact ⟨[], (List.append_nil _).symm, by simp⟩

theorem entries_enter (h : Hub) (l : Lane) {e : Entry} (member : e ∈ (h.enter l).1.entries) :
    e ∈ h.entries ∨ e.key = h.lanes.length := by
  unfold enter at member
  cases done : (h.addLane l).register h.lanes.length with
  | ok h' =>
    simp only [done] at member
    exact entries_register done member
  | error e' =>
    simp only [done] at member
    exact .inl member

theorem journal_act (h : Hub) (a : Act) : ∃ more, (h.act a).journal = h.journal ++ more ∧
    ∀ id client, .registered id client ∈ more → a.Registers h id := by
  rcases h.act_cases a with ⟨l, rfl⟩ | ⟨key, rfl⟩ | thins
  · obtain ⟨more, journal, own⟩ := h.journal_enter l
    exact ⟨more, journal, fun id client member => .inl ⟨l, rfl, (own id client member).symm⟩⟩
  · simp only [act]
    cases done : h.register key with
    | ok h' =>
      obtain ⟨more, journal, own⟩ := journal_register done
      exact ⟨more, journal, fun id client member => .inr ⟨key, rfl, own id client member⟩⟩
    | error e => exact ⟨[], by simp, by simp⟩
  · obtain ⟨more, journal, removals⟩ := thins.journal
    refine ⟨more, journal, fun id client member => ?_⟩
    obtain ⟨_, _, _, _, removal, _⟩ := removals _ member
    simp at removal

theorem entries_act (h : Hub) (a : Act) {e : Entry} (member : e ∈ (h.act a).entries) :
    e ∈ h.entries ∨ (∃ l, a = .enter l ∧ e.key = h.lanes.length) ∨ a = .register e.key := by
  rcases h.act_cases a with ⟨l, rfl⟩ | ⟨key, rfl⟩ | thins
  · exact (h.entries_enter l member).imp id fun new => .inl ⟨l, rfl, new⟩
  · simp only [act] at member
    cases done : h.register key with
    | ok h' =>
      rw [done] at member
      exact (entries_register done member).imp id fun new => .inr (by rw [new])
    | error e' =>
      rw [done] at member
      exact .inl member
  · exact .inl (thins.entries e member)

end Hub

theorem Session.lastActivity_act (s : Session) (a : Session.Act) :
    (s.act a).1.lastActivity = s.lastActivity ∨
      ∃ now, a = .touch now ∧ (s.act a).1.lastActivity = now := by
  have next := s.act_next a
  generalize (s.act a).1 = t, (s.act a).2 = told at next
  cases next with
  | touches now => exact .inr ⟨now, rfl, rfl⟩
  | _ => exact .inl rfl

theorem Session.lastActivity_run (s : Session) (acts : List Session.Act) :
    (s.run acts).lastActivity = s.lastActivity ∨
      ∃ now, .touch now ∈ acts ∧ (s.run acts).lastActivity = now := by
  induction acts generalizing s with
  | nil => exact .inl rfl
  | cons a acts ih =>
    change (((s.act a).1).run acts).lastActivity = _ ∨ ∃ now, _ ∧ (((s.act a).1).run acts).lastActivity = _
    rcases ih (s.act a).1 with same | ⟨now, later, touched⟩
    · rcases s.lastActivity_act a with kept | ⟨now, rfl, touched⟩
      · left
        calc ((s.act a).1.run acts).lastActivity
          _ = (s.act a).1.lastActivity := same
          _ = s.lastActivity := kept
      · exact .inr ⟨now, List.mem_cons_self, same.trans touched⟩
    · exact .inr ⟨now, List.mem_cons_of_mem _ later, touched⟩

theorem Lane.Goes.lastActivity {acts : List Hub.Act} {key : Key} {l l' : Lane}
    (goes : l.Goes (Hub.Moved acts key) l') : l'.session.lastActivity = l.session.lastActivity ∨
      ∃ now, .session key (.touch now) ∈ acts ∧ l'.session.lastActivity = now := by
  obtain ⟨_, bs, session, moved⟩ := goes
  rw [session]
  refine (l.session.lastActivity_run bs).imp_right ?_
  rintro ⟨now, member, touched⟩
  exact ⟨now, (moved _ member).resolve_left (by simp), touched⟩

namespace Hub

theorem lastActivity_act {h : Hub} {a : Act} {key : Key} {l l' : Lane}
    (lane : h.lane? key = some l) (lane' : (h.act a).lane? key = some l') :
    l'.session.lastActivity = l.session.lastActivity ∨
      ∃ now, a = .session key (.touch now) ∧ l'.session.lastActivity = now := by
  obtain ⟨m, there, goes⟩ := h.act_lane a lane
  obtain rfl := Option.some.inj (there.symm.trans lane')
  refine goes.lastActivity.imp_right ?_
  rintro ⟨now, part, touched⟩
  exact ⟨now, (List.mem_singleton.mp part).symm, touched⟩

theorem length_register {h h' : Hub} {key : Key} (done : h.register key = .ok h') :
    h'.lanes.length = h.lanes.length := by
  rcases register_cases done with ⟨-, rfl⟩ | ⟨l, -, -, rfl⟩ | ⟨l, old, -, -, -, rfl⟩
  · rfl
  · rfl
  · simp

theorem length_enter (h : Hub) (l : Lane) : (h.enter l).1.lanes.length = h.lanes.length + 1 := by
  unfold enter
  cases done : (h.addLane l).register h.lanes.length with
  | ok h' =>
    simp only [done, length_register done]
    simp
  | error e =>
    simp only [done]
    simp

theorem new_act {h : Hub} {a : Act} {key : Key} {l' : Lane} (new : h.lane? key = none)
    (lane' : (h.act a).lane? key = some l') : key = h.lanes.length ∧
      ∃ l, (a = .enter l ∨ a = .add l) ∧ l'.session.lastActivity = l.session.lastActivity := by
  rcases h.act_old a lane' with ⟨l, there, _⟩ | ⟨l, opens, goes⟩
  · simp [new] at there
  have beyond : h.lanes.length ≤ key := List.getElem?_eq_none_iff.mp new
  have within := (List.getElem?_eq_some_iff.mp lane').1
  have one : (h.act a).lanes.length = h.lanes.length + 1 := by
    rcases opens with rfl | rfl
    · exact h.length_enter l
    · simp [act]
  refine ⟨Nat.le_antisymm (by omega) beyond, l, opens, goes.lastActivity.resolve_right ?_⟩
  rintro ⟨now, part, _⟩
  rcases opens with rfl | rfl <;> simp at part

/-- An act that happens at a time: what it opens and touches is active then. -/
def Act.At (now : Nat) (a : Act) : Prop :=
  (∀ l, a = .enter l ∨ a = .add l → l.session.lastActivity = now) ∧
    ∀ key t, a = .session key (.touch t) → t = now

end Hub

end Courier
