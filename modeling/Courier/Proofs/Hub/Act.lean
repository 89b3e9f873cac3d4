import Courier.Hub
import Courier.Proofs.Session.Act

set_option autoImplicit false

namespace Courier.Hub

inductive Act
  | enter (l : Lane)
  | add (l : Lane)
  | register (key : Key)
  | remove (id : SessionId) (reason : Reason)
  | removeIfSame (id : SessionId) (key : Key) (reason : Reason)
  | sweep (maxIdle now : Nat)
  | reject (subsystem : String)
  | closeAll
  | conclude (id : SessionId) (key : Key) (outcome : Outcome)
  | session (key : Key) (a : Session.Act)
  | stream (key : Key) (s : Stream)

def act (h : Hub) : Act → Hub
  | .enter l => (h.enter l).1
  | .add l => h.addLane l
  | .register key =>
    match h.register key with
    | .ok registered => registered
    | .error _ => h
  | .remove id reason => (h.remove id reason).1
  | .removeIfSame id key reason => (h.removeIfSame id key reason).1
  | .sweep maxIdle now => (h.sweepIdle maxIdle now).1
  | .reject subsystem => (h.rejectBySubsystem subsystem).1
  | .closeAll => h.closeAll.1
  | .conclude id key outcome => (h.conclude id key outcome).1
  | .session key a => h.updateSession key fun s => (s.act a).1
  | .stream key s => { h with lanes := h.lanes.modify key ({ · with stream := s }) }

/-- The entry that the lane of a key replaces when it is registered. -/
def replaced? (h : Hub) (key : Key) : Option Entry :=
  ((h.lane? key).bind fun l => h.entry? l.id).filter fun old => !h.isLive old.key

namespace Act

/-- How many removals an act reports. -/
def reported (h : Hub) : Act → Nat
  | .remove id reason => (h.remove id reason).2.toNat
  | .removeIfSame id key reason => (h.removeIfSame id key reason).2.toNat
  | .sweep maxIdle now => (h.sweepIdle maxIdle now).2.length
  | .reject subsystem => (h.rejectBySubsystem subsystem).2.length
  | .closeAll => h.closeAll.2
  | .conclude id key outcome =>
    match answer id outcome with
    | .error e => if e.isFatal then (h.removeIfSame id key .sendFailed).2.toNat else 0
    | .ok _ => 0
  | _ => 0

def replaced (h : Hub) : Act → Nat
  | .enter l => (h.addLane l).replaced? h.lanes.length |>.toList.length
  | .register key => (h.replaced? key).toList.length
  | _ => 0

/-- An act that neither opens nor moves anything. -/
structure Quiet (a : Act) : Prop where
  opens : ∀ l, ¬(a = .enter l ∨ a = .add l)
  sessions : ∀ key b, a ≠ .session key b
  streams : ∀ key s, a ≠ .stream key s

end Act

section Updates

variable (h : Hub) (key : Key) (l : Lane) (f : Session → Session) (e : Event) (id : SessionId)

@[simp] theorem lanes_setLane : (h.setLane key l).lanes = h.lanes.set key l := rfl
@[simp] theorem entries_setLane : (h.setLane key l).entries = h.entries := rfl
@[simp] theorem journal_setLane : (h.setLane key l).journal = h.journal := rfl

@[simp] theorem lanes_updateSession : (h.updateSession key f).lanes =
    h.lanes.modify key fun l => { l with session := f l.session } := rfl
@[simp] theorem entries_updateSession : (h.updateSession key f).entries = h.entries := rfl
@[simp] theorem journal_updateSession : (h.updateSession key f).journal = h.journal := rfl

@[simp] theorem lanes_close : (h.close key).1.lanes =
    h.lanes.modify key fun l => { l with session := l.session.close } := rfl
@[simp] theorem entries_close : (h.close key).1.entries = h.entries := rfl
@[simp] theorem journal_close : (h.close key).1.journal = h.journal := rfl

@[simp] theorem lanes_addLane : (h.addLane l).lanes = h.lanes ++ [l] := rfl
@[simp] theorem entries_addLane : (h.addLane l).entries = h.entries := rfl
@[simp] theorem journal_addLane : (h.addLane l).journal = h.journal := rfl

@[simp] theorem lanes_log : (h.log e).lanes = h.lanes := rfl
@[simp] theorem entries_log : (h.log e).entries = h.entries := rfl
@[simp] theorem journal_log : (h.log e).journal = h.journal ++ [e] := rfl

@[simp] theorem lanes_rebind : (h.rebind id key).lanes = h.lanes := rfl
@[simp] theorem entries_rebind : (h.rebind id key).entries =
    h.entries.map fun e => if e.id == id then ⟨id, key⟩ else e := rfl
@[simp] theorem journal_rebind : (h.rebind id key).journal = h.journal := rfl

end Updates

/-- Every lane of `h` is a lane of `h'` by the same key, and a session that is dead stays dead. -/
def Follows (h h' : Hub) : Prop :=
  ∀ key l, h.lane? key = some l → ∃ l', h'.lane? key = some l' ∧ l'.id = l.id ∧
    l'.client = l.client ∧ (l.isLive = false → l'.isLive = false)

theorem Follows.refl (h : Hub) : h.Follows h := fun _ l there => ⟨l, there, rfl, rfl, id⟩

theorem Follows.trans {a b c : Hub} (first : a.Follows b) (second : b.Follows c) : a.Follows c := by
  intro key l there
  obtain ⟨l', there', id, client, dead⟩ := first key l there
  obtain ⟨l'', there'', id', client', dead'⟩ := second key l' there'
  exact ⟨l'', there'', id'.trans id, client'.trans client, fun gone => dead' (dead gone)⟩

instance : Trans Follows Follows Follows := ⟨Follows.trans⟩

theorem idOf_of_lane {h : Hub} {key : Key} {l : Lane} (there : h.lane? key = some l) :
    h.idOf? key = some l.id := by
  rw [idOf?, there, Option.map_some]

theorem isLive_of_lane {h : Hub} {key : Key} {l : Lane} (there : h.lane? key = some l) :
    h.isLive key = l.isLive := by
  rw [isLive, there, Option.any_some]

theorem Follows.of_lanes {h h' : Hub} (same : h'.lanes = h.lanes) : h.Follows h' := by
  intro key l there
  exact ⟨l, by rw [lane?, same]; exact there, rfl, rfl, id⟩

theorem Follows.dead {h h' : Hub} (follows : h.Follows h') {key : Key} {l : Lane}
    (there : h.lane? key = some l) (dead : h.isLive key = false) : h'.isLive key = false := by
  obtain ⟨l', there', _, _, stays⟩ := follows key l there
  rw [isLive_of_lane there']
  exact stays ((isLive_of_lane there).symm.trans dead)

@[simp]
theorem lane?_empty (c : Config) (entries : List Entry) (journal : List Event) (key : Key) :
    lane? ⟨c, [], entries, journal⟩ key = none := by
  simp [lane?]

@[simp]
theorem lane?_added (h : Hub) (l : Lane) : (h.addLane l).lane? h.lanes.length = some l := by
  simp [lane?]

theorem lane?_addLane {h : Hub} {key : Key} {l : Lane} (there : h.lane? key = some l) (new : Lane) :
    (h.addLane new).lane? key = some l := by
  have old : key < h.lanes.length := (List.getElem?_eq_some_iff.mp there).1
  rw [lane?, addLane, List.getElem?_append_left old]
  exact there

theorem isLive_addLane {h : Hub} {key : Key} {l : Lane} (there : h.lane? key = some l) (new : Lane) :
    (h.addLane new).isLive key = h.isLive key := by
  rw [isLive_of_lane (lane?_addLane there new), isLive_of_lane there]

theorem idOf_addLane (h : Hub) (l : Lane) : (h.addLane l).idOf? h.lanes.length = some l.id :=
  idOf_of_lane (h.lane?_added l)

theorem follows_addLane (h : Hub) (l : Lane) : h.Follows (h.addLane l) :=
  fun _ l' there => ⟨l', lane?_addLane there l, rfl, rfl, id⟩

theorem lane?_modify (h : Hub) (key : Key) (f : Lane → Lane) (k : Key) :
    lane? { h with lanes := h.lanes.modify key f } k =
      (h.lane? k).map fun l => if key = k then f l else l := by
  simp only [lane?, List.getElem?_modify]
  by_cases same : key = k <;> simp [same]

theorem lane?_setLane {h : Hub} {key : Key} {l : Lane} (there : h.lane? key = some l) (l' : Lane)
    (k : Key) : (h.setLane key l').lane? k = if k = key then some l' else h.lane? k := by
  have inside := (List.getElem?_eq_some_iff.mp there).1
  rw [lane?, setLane, List.getElem?_set]
  by_cases same : key = k
  · simp [same, same ▸ inside]
  · simp [same, Ne.symm same, lane?]

theorem lane?_setLane_self {h : Hub} {key : Key} {l : Lane} (there : h.lane? key = some l) (l' : Lane) :
    (h.setLane key l').lane? key = some l' :=
  (lane?_setLane there l' key).trans (if_pos rfl)

theorem setLane_self {h : Hub} {key : Key} {l : Lane} (there : h.lane? key = some l) :
    h.setLane key l = h := by
  obtain ⟨inside, at_key⟩ := List.getElem?_eq_some_iff.mp there
  rw [setLane, ← at_key, List.set_getElem_self]

theorem follows_modify (h : Hub) (key : Key) (f : Lane → Lane)
    (keeps : ∀ l, (f l).id = l.id ∧ (f l).client = l.client ∧
      (l.isLive = false → (f l).isLive = false)) :
    h.Follows { h with lanes := h.lanes.modify key f } := by
  intro k l there
  rw [lane?_modify, there]
  by_cases same : key = k
  · exact ⟨f l, by simp [same], keeps l⟩
  · exact ⟨l, by simp [same], rfl, rfl, id⟩

theorem follows_updateSession (h : Hub) (key : Key) (f : Session → Session)
    (dead : ∀ s, s.isLive = false → (f s).isLive = false) : h.Follows (h.updateSession key f) :=
  h.follows_modify key _ fun l => ⟨rfl, rfl, dead l.session⟩

theorem follows_close (h : Hub) (key : Key) : h.Follows (h.close key).1 :=
  h.follows_updateSession key _ fun s _ => s.isLive_close

theorem follows_replace (h : Hub) (id : SessionId) (key old : Key) (events : List Event) :
    h.Follows { ((h.rebind id key).close old).1 with journal := events } :=
  calc Follows h (h.rebind id key) := .of_lanes rfl
    Follows _ ((h.rebind id key).close old).1 := follows_close _ old
    Follows _ _ := .of_lanes rfl

@[simp]
theorem isLive_close (h : Hub) (key : Key) : (h.close key).1.isLive key = false := by
  rw [isLive, close, updateSession, lane?_modify]
  cases h.lane? key with
  | none => rfl
  | some l => simp [Lane.isLive]

/-- A touch by id is one of the session that has the id. -/
theorem touch_eq (h : Hub) (id : SessionId) (now : Nat) :
    (h.touch id now).1 = match h.entry? id with
      | none => h
      | some e => h.act (.session e.key (.touch now)) := by
  unfold touch
  cases h.entry? id <;> rfl

theorem offer_eq (h : Hub) (key : Key) (p : Parcel) (patience : Patience) (spent : Bool) (now : Nat) :
    (h.offer key p patience spent now).1 = h.act (.session key (.offer p patience spent now)) := by
  unfold offer
  simp only [act, updateSession]
  cases lane : h.lane? key with
  | none =>
    have short : h.lanes.length ≤ key := List.getElem?_eq_none_iff.mp lane
    rw [List.modify_eq_self short]
  | some l =>
    obtain ⟨inside, at_key⟩ := List.getElem?_eq_some_iff.mp lane
    simp [setLane, List.modify_eq_set_getElem?, show h.lanes[key]? = some l from lane, Session.act]

theorem entry_eq (h : Hub) (id : SessionId) : h.entry? id = h.entries.find? (·.id == id) := rfl

theorem entry_mem {h : Hub} {id : SessionId} {e : Entry} (there : h.entry? id = some e) :
    e ∈ h.entries ∧ e.id = id := by
  refine ⟨List.mem_of_find?_eq_some there, ?_⟩
  simpa using List.find?_some there

theorem entry_none {h : Hub} {id : SessionId} : h.entry? id = none ↔ id ∉ h.ids := by
  simp [entry_eq, ids]

theorem ids_rebind (h : Hub) (id : SessionId) (key : Key) : (h.rebind id key).ids = h.ids := by
  simp only [ids, rebind, List.map_map]
  apply List.map_congr_left
  intro e _
  by_cases same : e.id = id <;> simp [same]

/-- The ways from a hub to the next one, with the number of removals that are reported on the way
and the number of dead entries that are replaced. -/
inductive Change : Hub → Hub → Nat → Nat → Prop
  | quiet {h h' : Hub} (follows : h.Follows h') (entries : h'.entries = h.entries)
      (journal : h'.journal = h.journal) : Change h h' 0 0
  | enrolled {h h' : Hub} (key : Key) (l : Lane) (lane : h.lane? key = some l)
      (free : l.id ∉ h.ids) (follows : h.Follows h')
      (entries : h'.entries = h.entries ++ [⟨l.id, key⟩])
      (journal : h'.journal = h.journal ++ [.registered l.id l.client]) : Change h h' 0 0
  | takenOut {h h' : Hub} (e : Entry) (reason : Reason) (sent : Nat)
      (there : h.entry? e.id = some e) (follows : h.Follows h') (dead : h'.isLive e.key = false)
      (entries : h'.entries = h.entries.filter (·.id != e.id))
      (journal : h'.journal = h.journal ++ [.removed e.id reason sent]) : Change h h' 1 0
  | replaced {h h' : Hub} (key : Key) (l : Lane) (old : Entry) (sent : Nat)
      (lane : h.lane? key = some l) (there : h.entry? l.id = some old)
      (dead : h.isLive old.key = false) (follows : h.Follows h')
      (entries : h'.entries = (h.rebind l.id key).entries)
      (journal : h'.journal =
        h.journal ++ [.removed l.id .replaced sent, .registered l.id l.client]) : Change h h' 0 1
  | trans {a b c : Hub} {m n k l : Nat} (first : Change a b m n) (second : Change b c k l) :
      Change a c (m + k) (n + l)

theorem Change.refl (h : Hub) : Change h h 0 0 := .quiet (.refl h) rfl rfl

theorem Change.follows {h h' : Hub} {m n : Nat} (change : Change h h' m n) : h.Follows h' := by
  induction change with
  | quiet follows => exact follows
  | enrolled _ _ _ _ follows => exact follows
  | takenOut _ _ _ _ follows => exact follows
  | replaced _ _ _ _ _ _ _ follows => exact follows
  | trans _ _ first second => exact first.trans second

theorem change_close (h : Hub) (key : Key) : Change h (h.close key).1 0 0 :=
  .quiet (h.follows_close key) rfl rfl

theorem sent_close (h : Hub) (key k : Key) : (h.close key).1.sent k = h.sent k := by
  simp only [sent, close, updateSession, lane?_modify]
  cases h.lane? k with
  | none => rfl
  | some l => by_cases same : key = k <;> simp [same, Session.close]

/-- All that a registration may come to. -/
theorem register_cases {h h' : Hub} {key : Key} (done : h.register key = .ok h') :
    (h.lane? key = none ∧ h' = h) ∨
    (∃ l, h.lane? key = some l ∧ h.entry? l.id = none ∧
      h' = ({ h with entries := h.entries ++ [⟨l.id, key⟩] } : Hub).log
        (.registered l.id l.client)) ∨
    (∃ l old, h.lane? key = some l ∧ h.entry? l.id = some old ∧ h.isLive old.key = false ∧
      h' = (((h.rebind l.id key).close old.key).1.log
        (.removed l.id .replaced (h.sent old.key))).log (.registered l.id l.client)) := by
  unfold register at done
  cases lane : h.lane? key with
  | none =>
    simp only [lane, Except.ok.injEq] at done
    exact .inl ⟨rfl, done.symm⟩
  | some l =>
    simp only [lane] at done
    cases entry : h.entry? l.id with
    | none =>
      simp only [entry, Except.ok.injEq] at done
      exact .inr (.inl ⟨l, rfl, entry, done.symm⟩)
    | some old =>
      cases live : h.isLive old.key with
      | true => simp [entry, live] at done
      | false =>
        simp only [entry, live, Bool.false_eq_true, if_false, Except.ok.injEq] at done
        have sent := (h.rebind l.id key).sent_close old.key old.key
        rw [sent] at done
        exact .inr (.inr ⟨l, old, rfl, entry, live, done.symm⟩)

theorem change_register {h h' : Hub} {key : Key} (done : h.register key = .ok h') :
    Change h h' 0 (h.replaced? key).toList.length := by
  unfold replaced?
  rcases register_cases done with
    ⟨nobody, rfl⟩ | ⟨l, lane, free, rfl⟩ | ⟨l, old, lane, taken, dead, rfl⟩
  · rw [nobody]
    exact .refl _
  · simp only [lane, Option.bind_some, free, Option.filter_none, Option.toList_none, List.length_nil]
    exact .enrolled key l lane (entry_none.mp free) (.of_lanes rfl) rfl rfl
  · have one : ((some old).filter fun old => !h.isLive old.key).toList.length = 1 := by simp [dead]
    simp only [lane, Option.bind_some, taken, one]
    exact .replaced key l old (h.sent old.key) lane taken dead (h.follows_replace l.id key old.key _)
      rfl (by simp)

theorem replaced?_of_error {h : Hub} {key : Key} {e : SendError} (refused : h.register key = .error e) :
    h.replaced? key = none := by
  unfold register at refused
  unfold replaced?
  cases lane : h.lane? key with
  | none => rfl
  | some l =>
    cases entry : h.entry? l.id with
    | none => simp [lane, entry] at refused
    | some old =>
      cases live : h.isLive old.key with
      | true => simp [entry, live]
      | false => simp [lane, entry, live] at refused

theorem change_enter (h : Hub) (l : Lane) :
    Change h (h.enter l).1 0 ((h.addLane l).replaced? h.lanes.length).toList.length := by
  have added : Change h (h.addLane l) 0 0 := .quiet (h.follows_addLane l) rfl rfl
  unfold enter
  cases done : (h.addLane l).register h.lanes.length with
  | ok h' => simpa [done] using added.trans (change_register done)
  | error e =>
    simpa [done, replaced?_of_error done] using added.trans (change_close _ h.lanes.length)

theorem change_takeOut (h : Hub) (e : Entry) (reason : Reason) (there : h.entry? e.id = some e) :
    Change h (h.takeOut e reason) 1 0 :=
  .takenOut e reason _ there (Follows.trans (.of_lanes rfl) (follows_close _ e.key))
    (isLive_close _ e.key) rfl rfl

theorem change_remove (h : Hub) (id : SessionId) (reason : Reason) :
    Change h (h.remove id reason).1 (h.remove id reason).2.toNat 0 := by
  unfold remove
  cases entry : h.entry? id with
  | none => exact .refl h
  | some e => exact h.change_takeOut e reason (by rw [(entry_mem entry).2, entry])

theorem change_removeIfSame (h : Hub) (id : SessionId) (key : Key) (reason : Reason) :
    Change h (h.removeIfSame id key reason).1 (h.removeIfSame id key reason).2.toNat 0 := by
  unfold removeIfSame
  cases entry : h.entry? id with
  | none => exact .refl h
  | some e =>
    by_cases same : (e.key == key) = true
    · simp only [same, if_true]
      exact h.change_takeOut e reason (by rw [(entry_mem entry).2, entry])
    · simp only [same]
      exact .refl h

theorem change_removeOne (reason? : Entry → Option Reason) (done : Hub × List SessionId) (e : Entry) :
    ∃ n, (removeOne reason? done e).2.length = done.2.length + n ∧
      Change done.1 (removeOne reason? done e).1 n 0 := by
  unfold removeOne
  cases reason? e with
  | none => exact ⟨0, rfl, .refl done.1⟩
  | some reason =>
    refine ⟨_, ?_, done.1.change_removeIfSame e.id e.key reason⟩
    cases removed : (done.1.removeIfSame e.id e.key reason).2 <;> simp [removed]

theorem change_removeEach (reason? : Entry → Option Reason) (es : List Entry)
    (done : Hub × List SessionId) :
    ∃ n, (es.foldl (removeOne reason?) done).2.length = done.2.length + n ∧
      Change done.1 (es.foldl (removeOne reason?) done).1 n 0 := by
  induction es generalizing done with
  | nil => exact ⟨0, rfl, .refl done.1⟩
  | cons e es ih =>
    obtain ⟨m, first, change⟩ := change_removeOne reason? done e
    obtain ⟨n, rest, changes⟩ := ih (removeOne reason? done e)
    refine ⟨m + n, ?_, change.trans changes⟩
    rw [List.foldl_cons, rest, first, Nat.add_assoc]

theorem change_removeWhere (h : Hub) (reason? : Entry → Option Reason) :
    Change h (h.removeWhere reason?).1 (h.removeWhere reason?).2.length 0 := by
  obtain ⟨n, length, change⟩ := change_removeEach reason? h.entries (h, [])
  rw [List.length_nil, Nat.zero_add] at length
  rw [removeWhere, length]
  exact change

theorem change_shutEach (ids : List SessionId) (done : Hub × Nat) :
    ∃ n, (ids.foldl shutOne done).2 = done.2 + n ∧
      Change done.1 (ids.foldl shutOne done).1 n 0 := by
  induction ids generalizing done with
  | nil => exact ⟨0, rfl, .refl done.1⟩
  | cons id ids ih =>
    obtain ⟨n, rest, changes⟩ := ih (shutOne done id)
    refine ⟨_, ?_, (done.1.change_remove id .shutdown).trans changes⟩
    rw [List.foldl_cons, rest, shutOne, Nat.add_assoc]

theorem change_closeAll (h : Hub) : Change h h.closeAll.1 h.closeAll.2 0 := by
  obtain ⟨n, count, change⟩ := change_shutEach h.ids (h, 0)
  rw [Nat.zero_add] at count
  rw [closeAll, count]
  exact change

theorem change_conclude (h : Hub) (id : SessionId) (key : Key) (outcome : Outcome) :
    Change h (h.conclude id key outcome).1 ((Act.conclude id key outcome).reported h) 0 := by
  unfold conclude
  simp only [Act.reported]
  cases answer id outcome with
  | ok n => exact .refl h
  | error e =>
    by_cases fatal : e.isFatal = true
    · simp only [fatal, if_true]
      exact h.change_removeIfSame id key .sendFailed
    · simp only [fatal]
      exact .refl h

theorem act_change (h : Hub) (a : Act) : Change h (h.act a) (a.reported h) (a.replaced h) := by
  cases a with
  | enter l => exact h.change_enter l
  | add l => exact .quiet (h.follows_addLane l) rfl rfl
  | register key =>
    simp only [act, Act.reported, Act.replaced]
    cases done : h.register key with
    | ok h' => exact change_register done
    | error e => simpa [replaced?_of_error done] using Change.refl h
  | remove id reason => exact h.change_remove id reason
  | removeIfSame id key reason => exact h.change_removeIfSame id key reason
  | sweep maxIdle now => exact h.change_removeWhere _
  | reject subsystem => exact h.change_removeWhere _
  | closeAll => exact h.change_closeAll
  | conclude id key outcome => exact h.change_conclude id key outcome
  | session key a =>
    exact .quiet (h.follows_updateSession key _ fun s dead => s.dead_act dead a) rfl rfl
  | stream key s => exact .quiet (h.follows_modify key _ fun l => ⟨rfl, rfl, id⟩) rfl rfl

def Matches {α : Type} (key : α → Key) (id : α → SessionId) (h : Hub) (things : List α) : Prop :=
  ∀ a ∈ things, h.idOf? (key a) = some (id a)

/-- The entries stand for lanes with their ids. -/
def Wired (h : Hub) : Prop := Matches Entry.key Entry.id h h.entries

theorem Matches.apart {α : Type} {key : α → Key} {id : α → SessionId} {h : Hub} {things : List α}
    (wired : Matches key id h things) {A : SessionId} {a : α} (there : a ∈ things)
    (other : id a ≠ A) : h.idOf? (key a) ≠ some A := by
  rw [wired a there]
  simpa using other

theorem Matches.concat {α : Type} {key : α → Key} {id : α → SessionId} {h : Hub} {things : List α}
    (wired : Matches key id h things) {a : α} (there : h.idOf? (key a) = some (id a)) :
    Matches key id h (things ++ [a]) := by
  intro b member
  rcases List.mem_append.mp member with old | new
  · exact wired b old
  · exact List.mem_singleton.mp new ▸ there

theorem Matches.sublist {α : Type} {key : α → Key} {id : α → SessionId} {h : Hub}
    {things fewer : List α} (wired : Matches key id h things) (within : fewer.Sublist things) :
    Matches key id h fewer :=
  fun a there => wired a (within.subset there)

def Keeps (h h' : Hub) : Prop := ∀ key id, h.idOf? key = some id → h'.idOf? key = some id

theorem Keeps.refl (h : Hub) : h.Keeps h := fun _ _ => id

theorem Keeps.trans {a b c : Hub} (first : a.Keeps b) (second : b.Keeps c) : a.Keeps c :=
  fun key id there => second key id (first key id there)

theorem Matches.keeps {α : Type} {key : α → Key} {id : α → SessionId} {h h' : Hub}
    {things : List α} (wired : Matches key id h things) (keeps : h.Keeps h') :
    Matches key id h' things :=
  fun a there => keeps (key a) (id a) (wired a there)

theorem Follows.keeps {h h' : Hub} (follows : h.Follows h') : h.Keeps h' := by
  intro key id there
  obtain ⟨l, lane, own⟩ := Option.map_eq_some_iff.mp there
  obtain ⟨l', lane', same, _⟩ := follows key l lane
  exact Option.map_eq_some_iff.mpr ⟨l', lane', same.trans own⟩

theorem Keeps.wired {h h' : Hub} (keeps : h.Keeps h') (entries : ∀ e ∈ h'.entries, e ∈ h.entries)
    (wired : h.Wired) : h'.Wired :=
  fun e there => keeps e.key e.id (wired e (entries e there))

theorem Change.wired {h h' : Hub} {m n : Nat} (change : Change h h' m n) (wired : h.Wired) :
    h'.Wired := by
  have keeps := change.follows.keeps
  induction change with
  | quiet follows entries => exact keeps.wired (by simp [entries]) wired
  | enrolled key l lane _ _ entries =>
    intro e there
    rw [entries, List.mem_append, List.mem_singleton] at there
    rcases there with old | rfl
    · exact keeps e.key e.id (wired e old)
    · exact keeps key l.id (idOf_of_lane lane)
  | takenOut e _ _ _ _ _ entries =>
    refine keeps.wired (fun f there => ?_) wired
    rw [entries] at there
    exact List.mem_of_mem_filter there
  | replaced key l old _ lane _ _ _ entries =>
    intro e there
    rw [entries] at there
    obtain ⟨f, old, rfl⟩ := List.mem_map.mp there
    by_cases same : f.id = l.id
    · simp only [same, beq_self_eq_true, if_true]
      exact keeps key l.id (idOf_of_lane lane)
    · simp only [beq_iff_eq, same, if_false]
      exact keeps f.key f.id (wired f old)
  | trans first second ih ih' =>
    exact ih' (ih wired first.follows.keeps) second.follows.keeps

end Courier.Hub
