import Courier.Proofs.Hub.Journal
import Courier.Proofs.Session.Closing
import Mathlib.Logic.Relation

set_option autoImplicit false

namespace Courier.Hub

open Relation (ReflTransGen)

def run (h : Hub) (acts : List Act) : Hub := acts.foldl act h

theorem run_append (h : Hub) (first second : List Act) :
    h.run (first ++ second) = (h.run first).run second := List.foldl_append

theorem run_concat (h : Hub) (acts : List Act) (a : Act) : h.run (acts ++ [a]) = (h.run acts).act a :=
  h.run_append acts [a]

def Act.Enters (a : Act) : Prop := (∃ l, a = .enter l) ∨ ∃ key, a = .register key

/-- The steps that an act may be made of. Adding and registering lanes, and moving sessions or their
streams, is told by the act. -/
inductive Step (a : Act) (h : Hub) : Hub → Prop
  | adds (l : Lane) (part : a = .enter l ∨ a = .add l) : Step a h (h.addLane l)
  | closes (key : Key) : Step a h (h.close key).1
  | moves (key : Key) (b : Session.Act) (part : a = .session key b) :
      Step a h (h.updateSession key fun s => (s.act b).1)
  | streams (key : Key) (s : Stream) (part : a = .stream key s) :
      Step a h { h with lanes := h.lanes.modify key ({ · with stream := s }) }
  | enrolls (key : Key) (l : Lane) (lane : h.lane? key = some l) (free : h.entry? l.id = none)
      (part : a.Enters) : Step a h (({ h with entries := h.entries ++ [⟨l.id, key⟩] } : Hub).log
        (.registered l.id l.client))
  | replaces (key : Key) (l : Lane) (old : Entry) (lane : h.lane? key = some l)
      (there : h.entry? l.id = some old) (dead : h.isLive old.key = false) (part : a.Enters) :
      Step a h ((((h.rebind l.id key).close old.key).1.log
        (.removed l.id .replaced (h.sent old.key))).log (.registered l.id l.client))
  | takes (e : Entry) (reason : Reason) (there : h.entry? e.id = some e) :
      Step a h (h.takeOut e reason)

theorem steps_register {a : Act} (part : a.Enters) {h h' : Hub} {key : Key}
    (done : h.register key = .ok h') : ReflTransGen (Step a) h h' := by
  rcases register_cases done with
    ⟨-, rfl⟩ | ⟨l, lane, free, rfl⟩ | ⟨l, old, lane, taken, dead, rfl⟩
  · exact .refl
  · exact .single (.enrolls key l lane free part)
  · exact .single (.replaces key l old lane taken dead part)

theorem steps_enter (h : Hub) (l : Lane) : ReflTransGen (Step (.enter l)) h (h.enter l).1 := by
  have added : Step (.enter l) h (h.addLane l) := .adds l (.inl rfl)
  unfold enter
  cases done : (h.addLane l).register h.lanes.length with
  | ok h' => exact .head added (by simpa [done] using steps_register (.inl ⟨l, rfl⟩) done)
  | error e => exact .head added (.single (by simpa [done] using .closes h.lanes.length))

theorem steps_remove (a : Act) (h : Hub) (id : SessionId) (reason : Reason) :
    ReflTransGen (Step a) h (h.remove id reason).1 := by
  unfold remove
  cases entry : h.entry? id with
  | none => exact .refl
  | some e => exact .single (.takes e reason (by rw [(entry_mem entry).2, entry]))

theorem steps_removeIfSame (a : Act) (h : Hub) (id : SessionId) (key : Key) (reason : Reason) :
    ReflTransGen (Step a) h (h.removeIfSame id key reason).1 := by
  unfold removeIfSame
  cases entry : h.entry? id with
  | none => exact .refl
  | some e =>
    by_cases same : (e.key == key) = true
    · simp only [same, if_true]
      exact .single (.takes e reason (by rw [(entry_mem entry).2, entry]))
    · simp only [same]
      exact .refl

theorem steps_removeEach (a : Act) (reason? : Entry → Option Reason) (es : List Entry)
    (done : Hub × List SessionId) :
    ReflTransGen (Step a) done.1 (es.foldl (removeOne reason?) done).1 := by
  induction es generalizing done with
  | nil => exact .refl
  | cons e es ih =>
    refine .trans ?_ (ih (removeOne reason? done e))
    unfold removeOne
    cases reason? e with
    | none => exact .refl
    | some reason => exact steps_removeIfSame a done.1 e.id e.key reason

theorem steps_closeAll (h : Hub) : ReflTransGen (Step .closeAll) h h.closeAll.1 := by
  have each (ids : List SessionId) (done : Hub × Nat) :
      ReflTransGen (Step .closeAll) done.1 (ids.foldl shutOne done).1 := by
    induction ids generalizing done with
    | nil => exact .refl
    | cons id ids ih => exact .trans (steps_remove _ done.1 id .shutdown) (ih (shutOne done id))
  exact each h.ids (h, 0)

theorem steps_conclude (h : Hub) (id : SessionId) (key : Key) (outcome : Outcome) :
    ReflTransGen (Step (.conclude id key outcome)) h (h.conclude id key outcome).1 := by
  unfold conclude
  cases answer id outcome with
  | ok n => exact .refl
  | error e =>
    by_cases fatal : e.isFatal = true
    · simp only [fatal, if_true]
      exact steps_removeIfSame _ h id key .sendFailed
    · simp only [fatal]
      exact .refl

theorem act_steps (h : Hub) (a : Act) : ReflTransGen (Step a) h (h.act a) := by
  cases a with
  | enter l => exact h.steps_enter l
  | add l => exact .single (.adds l (.inr rfl))
  | register key =>
    simp only [act]
    cases done : h.register key with
    | ok h' => exact steps_register (.inr ⟨key, rfl⟩) done
    | error e => exact .refl
  | remove id reason => exact steps_remove _ h id reason
  | removeIfSame id key reason => exact steps_removeIfSame _ h id key reason
  | sweep maxIdle now => exact steps_removeEach _ _ _ (h, [])
  | reject subsystem => exact steps_removeEach _ _ _ (h, [])
  | closeAll => exact h.steps_closeAll
  | conclude id key outcome => exact h.steps_conclude id key outcome
  | session key b => exact .single (.moves key b rfl)
  | stream key s => exact .single (.streams key s rfl)

end Hub

theorem Session.sequence_closes {bs : List Session.Act} (all : ∀ b ∈ bs, b = .close) (s : Session) :
    (s.run bs).sequence = s.sequence := by
  induction bs generalizing s with
  | nil => rfl
  | cons b bs ih =>
    obtain rfl := all b List.mem_cons_self
    exact ih (fun b member => all b (List.mem_cons_of_mem _ member)) s.close

/-- The session of a lane has gone on by acts of a kind. -/
structure Lane.Goes (kind : Session.Act → Prop) (l l' : Lane) : Prop where
  id : l'.id = l.id
  session : ∃ bs, l'.session = l.session.run bs ∧ ∀ b ∈ bs, kind b

namespace Lane.Goes

variable {kind : Session.Act → Prop} {l l' l'' : Lane}

theorem refl (kind : Session.Act → Prop) (l : Lane) : l.Goes kind l := ⟨rfl, [], rfl, by simp⟩

theorem trans (first : l.Goes kind l') (second : l'.Goes kind l'') : l.Goes kind l'' := by
  obtain ⟨id, bs, session, all⟩ := first
  obtain ⟨id', bs', session', all'⟩ := second
  refine ⟨id'.trans id, bs ++ bs', by rw [session', session, Session.run_append], ?_⟩
  intro b member
  exact (List.mem_append.mp member).elim (all b) (all' b)

theorem mono {wider : Session.Act → Prop} (goes : l.Goes kind l') (some : ∀ b, kind b → wider b) :
    l.Goes wider l' := by
  obtain ⟨id, bs, session, all⟩ := goes
  exact ⟨id, bs, session, fun b member => some b (all b member)⟩

theorem closing (goes : l.Goes kind l') (closing : l.session.closing = true) :
    l'.session.closing = true := by
  obtain ⟨_, bs, session, _⟩ := goes
  rw [session]
  exact Session.closing_run closing bs

theorem sequence (goes : l.Goes (· = .close) l') : l'.session.sequence = l.session.sequence := by
  obtain ⟨_, bs, session, all⟩ := goes
  rw [session, Session.sequence_closes all]

end Lane.Goes

namespace Hub

def Moved (acts : List Act) (key : Key) (b : Session.Act) : Prop :=
  b = .close ∨ .session key b ∈ acts

theorem Moved.mono {acts more : List Act} (all : ∀ a ∈ acts, a ∈ more) {key : Key}
    (b : Session.Act) : Moved acts key b → Moved more key b := Or.imp id (all _)

theorem goes_updateSession (h : Hub) (key : Key) (b : Session.Act) {kind : Session.Act → Prop}
    {k : Key} {l : Lane} (isKind : key = k → kind b) (there : h.lane? k = some l) :
    ∃ l', (h.updateSession key fun s => (s.act b).1).lane? k = some l' ∧ l.Goes kind l' := by
  rw [updateSession, lane?_modify, there]
  by_cases same : key = k
  · exact ⟨_, rfl, by simp [same], [b], by simp [same, Session.run], by simpa using isKind same⟩
  · exact ⟨l, by simp [same], .refl _ l⟩

theorem goes_close (h : Hub) (key : Key) (a : Act) {k : Key} {l : Lane} (there : h.lane? k = some l) :
    ∃ l', (h.close key).1.lane? k = some l' ∧ l.Goes (Moved [a] k) l' :=
  h.goes_updateSession key .close (fun _ => .inl rfl) there

theorem Step.lane {a : Act} {h h' : Hub} (step : Step a h h') {k : Key} {l : Lane}
    (there : h.lane? k = some l) : ∃ l', h'.lane? k = some l' ∧ l.Goes (Moved [a] k) l' := by
  cases step with
  | adds new part =>
    have old : k < h.lanes.length := (List.getElem?_eq_some_iff.mp there).1
    exact ⟨l, by rw [lane?, addLane, List.getElem?_append_left old]; exact there, .refl _ l⟩
  | closes key => exact h.goes_close key a there
  | moves key b part => exact h.goes_updateSession key b (fun same => .inr (by simp [part, same])) there
  | streams key s part =>
    rw [lane?_modify, there]
    by_cases same : key = k
    · exact ⟨_, rfl, by simp [same], [], by simp [same, Session.run], by simp⟩
    · exact ⟨l, by simp [same], .refl _ l⟩
  | enrolls key new lane free => exact ⟨l, there, .refl _ l⟩
  | replaces key new old lane entry dead =>
    exact (h.rebind new.id key).goes_close old.key a there
  | takes e reason entry =>
    exact goes_close { h with entries := h.entries.filter (·.id != e.id) } e.key a there

theorem Step.old {a : Act} {h h' : Hub} (step : Step a h h') {k : Key} {l' : Lane}
    (there : h'.lane? k = some l') : (∃ l, h.lane? k = some l) ∨ a = .enter l' ∨ a = .add l' := by
  have known {f : Lane → Lane} {key : Key}
      (there : lane? { h with lanes := h.lanes.modify key f } k = some l') :
      ∃ l, h.lane? k = some l := by
    rw [lane?_modify] at there
    obtain ⟨l, lane, _⟩ := Option.map_eq_some_iff.mp there
    exact ⟨l, lane⟩
  cases step with
  | adds new part =>
    rcases Nat.lt_trichotomy k h.lanes.length with old | rfl | beyond
    · rw [lane?, addLane, List.getElem?_append_left old] at there
      exact .inl ⟨l', there⟩
    · simp only [lane?, addLane, List.getElem?_concat_length, Option.some.injEq] at there
      exact .inr (there ▸ part)
    · have := (List.getElem?_eq_some_iff.mp there).1
      simp only [addLane, List.length_append, List.length_singleton] at this
      omega
  | closes key => exact .inl (known there)
  | moves key b part => exact .inl (known there)
  | streams key s part => exact .inl (known there)
  | enrolls key new lane free => exact .inl ⟨l', there⟩
  | replaces key new old lane entry dead => exact .inl (known there)
  | takes e reason entry => exact .inl (known there)

theorem act_lane (h : Hub) (a : Act) {k : Key} {l : Lane} (there : h.lane? k = some l) :
    ∃ l', (h.act a).lane? k = some l' ∧ l.Goes (Moved [a] k) l' := by
  have steps := h.act_steps a
  generalize h.act a = h' at steps
  induction steps with
  | refl => exact ⟨l, there, .refl _ l⟩
  | tail _ step ih =>
    obtain ⟨m, at_k, first⟩ := ih
    obtain ⟨l', at_k', second⟩ := step.lane at_k
    exact ⟨l', at_k', first.trans second⟩

theorem act_old (h : Hub) (a : Act) {k : Key} {l' : Lane} (there : (h.act a).lane? k = some l') :
    (∃ l, h.lane? k = some l ∧ l.Goes (Moved [a] k) l') ∨
    ∃ l, (a = .enter l ∨ a = .add l) ∧ l.Goes (Moved [a] k) l' := by
  have steps := h.act_steps a
  generalize h.act a = h' at steps there
  induction steps generalizing l' with
  | refl => exact .inl ⟨l', there, .refl _ l'⟩
  | tail _ step ih =>
    rcases step.old there with ⟨m, at_k⟩ | new
    · obtain ⟨same, at_k', second⟩ := step.lane at_k
      obtain rfl := Option.some.inj (at_k'.symm.trans there)
      refine (ih at_k).imp ?_ ?_
      · exact fun ⟨l, at_k, first⟩ => ⟨l, at_k, first.trans second⟩
      · exact fun ⟨l, new, first⟩ => ⟨l, new, first.trans second⟩
    · exact .inr ⟨l', new, .refl _ l'⟩

theorem run_lane (h : Hub) (acts : List Act) {k : Key} {l : Lane} (there : h.lane? k = some l) :
    ∃ l', (h.run acts).lane? k = some l' ∧ l.Goes (Moved acts k) l' := by
  induction acts using List.reverseRecOn with
  | nil => exact ⟨l, there, .refl _ l⟩
  | append_singleton acts a ih =>
    obtain ⟨m, at_k, first⟩ := ih
    obtain ⟨l', at_k', second⟩ := (h.run acts).act_lane a at_k
    rw [run_concat]
    exact ⟨l', at_k', (first.mono (Moved.mono fun _ => List.mem_append_left _)).trans
      (second.mono (Moved.mono fun _ => List.mem_append_right _))⟩

/-- Each session in the hub was added once and is a run of its own acts since. -/
theorem run_old (c : Config) (acts : List Act) {k : Key} {l' : Lane}
    (there : ((start c).run acts).lane? k = some l') :
    ∃ l, (.enter l ∈ acts ∨ .add l ∈ acts) ∧ l.Goes (Moved acts k) l' := by
  induction acts using List.reverseRecOn generalizing l' with
  | nil => simp [run] at there
  | append_singleton acts a ih =>
    rw [run_concat] at there
    have early : ∀ b, Moved acts k b → Moved (acts ++ [a]) k b :=
      Moved.mono fun _ => List.mem_append_left _
    have last : ∀ b, Moved [a] k b → Moved (acts ++ [a]) k b :=
      Moved.mono fun _ => List.mem_append_right _
    rcases act_old _ a there with ⟨m, at_k, second⟩ | ⟨l, new, goes⟩
    · obtain ⟨l, new, first⟩ := ih at_k
      exact ⟨l, new.imp (List.mem_append_left _) (List.mem_append_left _),
        (first.mono early).trans (second.mono last)⟩
    · exact ⟨l, new.imp (fun same => by simp [same]) (fun same => by simp [same]), goes.mono last⟩

theorem Step.config {a : Act} {h h' : Hub} (step : Step a h h') : h'.config = h.config := by
  cases step <;> rfl

theorem config_act (h : Hub) (a : Act) : (h.act a).config = h.config := by
  have steps := h.act_steps a
  generalize h.act a = h' at steps
  induction steps with
  | refl => rfl
  | tail _ step ih => exact step.config.trans ih

theorem Step.change {a : Act} {h h' : Hub} (step : Step a h h') : ∃ m n, Change h h' m n := by
  cases step with
  | adds l part => exact ⟨0, 0, .quiet (h.follows_addLane l) rfl rfl⟩
  | closes key => exact ⟨0, 0, h.change_close key⟩
  | moves key b part =>
    exact ⟨0, 0, .quiet (h.follows_updateSession key _ fun s dead => s.dead_act dead b) rfl rfl⟩
  | streams key s part =>
    exact ⟨0, 0, .quiet (h.follows_modify key _ fun l => ⟨rfl, rfl, id⟩) rfl rfl⟩
  | enrolls key l lane free =>
    exact ⟨0, 0, .enrolled key l lane (entry_none.mp free) (.of_lanes rfl) rfl rfl⟩
  | replaces key l old lane there dead =>
    exact ⟨0, 1, .replaced key l old (h.sent old.key) lane there dead
      (h.follows_replace l.id key old.key _) rfl (by simp)⟩
  | takes e reason there => exact ⟨1, 0, h.change_takeOut e reason there⟩

/-- The entries have ids of their own, and each is of a lane with its id. -/
structure Sound (h : Hub) : Prop where
  faithful : h.Faithful
  wired : h.Wired

theorem sound_start (c : Config) : (start c).Sound :=
  ⟨faithful_start c, by simp [Wired, Matches]⟩

theorem Sound.lane {h : Hub} (sound : h.Sound) {e : Entry} (member : e ∈ h.entries) :
    ∃ l, h.lane? e.key = some l ∧ l.id = e.id :=
  Option.map_eq_some_iff.mp (sound.wired e member)

theorem Sound.unique {h : Hub} (sound : h.Sound) {e e' : Entry} (member : e ∈ h.entries)
    (there : h.entry? e.id = some e') : e' = e :=
  List.inj_on_of_nodup_map sound.faithful.distinct (entry_mem there).1 member (entry_mem there).2

theorem Step.sound {a : Act} {h h' : Hub} (step : Step a h h') (sound : h.Sound) : h'.Sound := by
  obtain ⟨m, n, change⟩ := step.change
  exact ⟨change.faithful sound.faithful, change.wired sound.wired⟩

def Closed (h : Hub) (key : Key) : Prop := ∃ l, h.lane? key = some l ∧ l.session.closing = true

theorem closed_close {h : Hub} {key : Key} {l : Lane} (there : h.lane? key = some l) :
    (h.close key).1.Closed key := by
  refine ⟨{ l with session := l.session.close }, ?_, rfl⟩
  rw [close, updateSession, lane?_modify, there]
  simp

theorem Step.closed {a : Act} {h h' : Hub} (step : Step a h h') {key : Key} (closed : h.Closed key) :
    h'.Closed key := by
  obtain ⟨l, lane, closing⟩ := closed
  obtain ⟨l', lane', goes⟩ := step.lane lane
  exact ⟨l', lane', goes.closing closing⟩

theorem Step.entry {a : Act} {h h' : Hub} (step : Step a h h') (sound : h.Sound) {e : Entry}
    (member : e ∈ h.entries) : e ∈ h'.entries ∨ h'.Closed e.key := by
  obtain ⟨m, at_key, _⟩ := sound.lane member
  cases step with
  | enrolls key l lane free => exact .inl (List.mem_append_left _ member)
  | replaces key l old lane there dead =>
    by_cases same : e.id = l.id
    · obtain rfl := sound.unique member (same ▸ there)
      exact .inr (closed_close (h := h.rebind l.id key) at_key)
    · exact .inl (List.mem_map.mpr ⟨e, member, by simp [same]⟩)
  | takes e' reason there =>
    by_cases same : e.id = e'.id
    · obtain rfl := sound.unique member (same ▸ there)
      exact .inr (closed_close (h := { h with entries := h.entries.filter (·.id != e'.id) }) at_key)
    · exact .inl (List.mem_filter.mpr ⟨member, by simpa using same⟩)
  | _ => exact .inl member

theorem act_sound {h : Hub} (sound : h.Sound) (a : Act) : (h.act a).Sound ∧
    ∀ e ∈ h.entries, e ∈ (h.act a).entries ∨ (h.act a).Closed e.key := by
  have steps := h.act_steps a
  generalize h.act a = h' at steps
  induction steps with
  | refl => exact ⟨sound, fun e member => .inl member⟩
  | tail _ step ih =>
    refine ⟨step.sound ih.1, fun e member => ?_⟩
    rcases ih.2 e member with stays | closed
    · exact step.entry ih.1 stays
    · exact .inr (step.closed closed)

theorem closed_run {h : Hub} {key : Key} (closed : h.Closed key) (acts : List Act) :
    (h.run acts).Closed key := by
  obtain ⟨l, lane, closing⟩ := closed
  obtain ⟨l', lane', goes⟩ := h.run_lane acts lane
  exact ⟨l', lane', goes.closing closing⟩

theorem run_sound {h : Hub} (sound : h.Sound) (acts : List Act) : (h.run acts).Sound ∧
    ∀ e ∈ h.entries, e ∈ (h.run acts).entries ∨ (h.run acts).Closed e.key := by
  induction acts generalizing h with
  | nil => exact ⟨sound, fun e member => .inl member⟩
  | cons a acts ih =>
    obtain ⟨after, fate⟩ := act_sound sound a
    refine ⟨(ih after).1, fun e member => ?_⟩
    rcases fate e member with stays | closed
    · exact (ih after).2 e stays
    · exact .inr (closed_run closed acts)

/-- Each removal among the events is of an entry that was there before. Its session is closed, and the
event says how many parcels that has written. -/
def Accounts (before h : Hub) (events : List Event) : Prop :=
  ∀ id reason sent, .removed id reason sent ∈ events →
    ∃ e ∈ before.entries, e.id = id ∧ ∃ l, h.lane? e.key = some l ∧ l.id = id ∧
      l.session.closing = true ∧ l.session.sequence = sent

theorem accounts_nil (before h : Hub) : Accounts before h [] := by simp [Accounts]

theorem Accounts.append {before h : Hub} {old new : List Event} (early : Accounts before h old)
    (late : Accounts before h new) : Accounts before h (old ++ new) := by
  intro id reason sent member
  rcases List.mem_append.mp member with there | there
  · exact early id reason sent there
  · exact late id reason sent there

theorem Accounts.of_entries {before middle h : Hub} {events : List Event}
    (accounts : Accounts middle h events) (fewer : ∀ e ∈ middle.entries, e ∈ before.entries) :
    Accounts before h events := by
  intro id reason sent member
  obtain ⟨e, there, rest⟩ := accounts id reason sent member
  exact ⟨e, fewer e there, rest⟩

theorem Step.accounts {a : Act} {before h h' : Hub} (step : Step a h h')
    (part : ∀ k b, a ≠ .session k b) {events : List Event} (accounts : Accounts before h events) :
    Accounts before h' events := by
  intro id reason sent member
  obtain ⟨e, there, own, l, lane, id, closing, sequence⟩ := accounts id reason sent member
  obtain ⟨l', lane', goes⟩ := step.lane lane
  have only : l.Goes (· = .close) l' := goes.mono fun b moved =>
    moved.resolve_right fun there => part e.key b (List.mem_singleton.mp there).symm
  exact ⟨e, there, own, l', lane', goes.id.trans id, goes.closing closing,
    only.sequence.trans sequence⟩

theorem accounts_close {before h : Hub} {e : Entry} (member : e ∈ before.entries) {l : Lane}
    (lane : h.lane? e.key = some l) (id : l.id = e.id) (reason : Reason) :
    Accounts before (h.close e.key).1 [.removed e.id reason (h.sent e.key)] := by
  intro id' reason' sent' only
  obtain ⟨rfl, rfl, rfl⟩ : id' = e.id ∧ reason' = reason ∧ sent' = h.sent e.key := by
    simpa using only
  refine ⟨e, member, rfl, { l with session := l.session.close }, ?_, id, rfl, ?_⟩
  · rw [close, updateSession, lane?_modify, lane]
    simp
  · simp [sent, lane, Session.close]

theorem Step.journal {a : Act} {h h' : Hub} (step : Step a h h') (sound : h.Sound) :
    ∃ more, h'.journal = h.journal ++ more ∧ Accounts h h' more := by
  cases step with
  | enrolls key l lane free => exact ⟨[.registered l.id l.client], rfl, by simp [Accounts]⟩
  | replaces key l old lane there dead =>
    obtain ⟨member, same⟩ := entry_mem there
    obtain ⟨m, at_old, id⟩ := sound.lane member
    refine ⟨[.removed l.id .replaced (h.sent old.key), .registered l.id l.client],
      by simp, ?_⟩
    have closed : Accounts h ((h.rebind l.id key).close old.key).1
        [.removed old.id .replaced (h.sent old.key)] := accounts_close member at_old id .replaced
    intro id' reason' sent' member'
    exact closed id' reason' sent' (by simpa [same] using member')
  | takes e reason there =>
    obtain ⟨member, _⟩ := entry_mem there
    obtain ⟨m, at_e, id⟩ := sound.lane member
    have closed :=
      accounts_close (h := { h with entries := h.entries.filter (·.id != e.id) }) member at_e id reason
    refine ⟨[.removed e.id reason _], rfl, ?_⟩
    rw [sent_close]
    exact closed
  | _ => exact ⟨[], by simp, accounts_nil _ _⟩

theorem Step.entries {a : Act} {h h' : Hub} (step : Step a h h') (thins : ¬ a.Enters) {e : Entry}
    (member : e ∈ h'.entries) : e ∈ h.entries := by
  cases step with
  | enrolls _ _ _ _ part => exact absurd part thins
  | replaces _ _ _ _ _ _ part => exact absurd part thins
  | takes e' reason there => exact List.mem_of_mem_filter member
  | _ => exact member

theorem register_journal {h h' : Hub} (sound : h.Sound) {key : Key}
    (done : h.register key = .ok h') :
    ∃ more, h'.journal = h.journal ++ more ∧ Accounts h h' more := by
  have part : (Act.register key).Enters := .inr ⟨key, rfl⟩
  rcases register_cases done with ⟨-, rfl⟩ | ⟨l, lane, free, rfl⟩ | ⟨l, old, lane, taken, dead, rfl⟩
  · exact ⟨[], (List.append_nil _).symm, accounts_nil _ _⟩
  · exact (Step.enrolls key l lane free part).journal sound
  · exact (Step.replaces key l old lane taken dead part).journal sound

theorem thins_journal {h : Hub} (sound : h.Sound) {a : Act} (thins : ¬ a.Enters)
    (part : ∀ k b, a ≠ .session k b) :
    ∃ more, (h.act a).journal = h.journal ++ more ∧ Accounts h (h.act a) more := by
  have steps := h.act_steps a
  generalize h.act a = h' at steps
  suffices h'.Sound ∧ (∀ e ∈ h'.entries, e ∈ h.entries) ∧
      ∃ more, h'.journal = h.journal ++ more ∧ Accounts h h' more from this.2.2
  induction steps with
  | refl => exact ⟨sound, fun _ member => member, [], by simp, accounts_nil _ _⟩
  | @tail middle last _ step ih =>
    obtain ⟨before, fewer, old, journal, early⟩ := ih
    obtain ⟨new, journal', late⟩ := step.journal before
    have whole : last.journal = h.journal ++ (old ++ new) := by
      rw [journal', journal, List.append_assoc]
    exact ⟨step.sound before, fun e member => fewer e (step.entries thins member), old ++ new, whole,
      (step.accounts part early).append (late.of_entries fewer)⟩

theorem act_journal {h : Hub} (sound : h.Sound) (a : Act) :
    ∃ more, (h.act a).journal = h.journal ++ more ∧ Accounts h (h.act a) more := by
  cases a with
  | session k b => exact ⟨[], by simp [act], accounts_nil _ _⟩
  | enter l =>
    have added : (h.addLane l).Sound := (Step.adds (a := .add l) l (.inr rfl)).sound sound
    simp only [act, enter]
    cases done : (h.addLane l).register h.lanes.length with
    | ok h' =>
      have told : ∃ more, h'.journal = (h.addLane l).journal ++ more ∧
          Accounts (h.addLane l) h' more := register_journal added done
      exact told
    | error _ =>
      exact ⟨[], by simp, accounts_nil _ _⟩
  | register key =>
    simp only [act]
    cases done : h.register key with
    | ok h' => exact register_journal sound done
    | error _ => exact ⟨[], (List.append_nil _).symm, accounts_nil _ _⟩
  | _ => exact thins_journal sound (by simp [Act.Enters]) (by simp)

end Courier.Hub
