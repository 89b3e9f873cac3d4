import Courier.Proofs.Hub.Failure
import Courier.Proofs.Scenario.Lanes
import Courier.Proofs.Scenario.Teardown

set_option autoImplicit false

namespace Courier

open Relation (ReflTransGen)

namespace Session

/-- Nothing was written, nothing is being written, and nothing is left to write. -/
structure Barred (s : Session) : Prop where
  closing : s.closing = true
  dead : s.isLive = false
  line : s.line = []
  waiting : s.waiting = []
  sequence : s.sequence = 0

theorem Barred.act {s : Session} (barred : s.Barred) (a : Act) : (s.act a).1.Barred := by
  obtain ⟨closing, dead, line, waiting, sequence⟩ := barred
  obtain ⟨flight, queue⟩ := List.append_eq_nil_iff.mp line
  have next := s.act_next a
  generalize (s.act a).1 = t, (s.act a).2 = told at next
  cases next with
  | still | refuses => exact ⟨closing, dead, line, waiting, sequence⟩
  | queues p patience spent now live => simp [dead] at live
  | waits p patience spent now live => simp [dead] at live
  | takesUp now p rest moved ws idle taken => simp [queue] at taken
  | writes p since writer => simp [inFlight, writer] at flight
  | fails f now p since writer => simp [inFlight, writer] at flight
  | closes => exact ⟨rfl, s.isLive_close, line, waiting, sequence⟩
  | aborts caller => exact ⟨closing, dead, line, by simp [forget, waiting], sequence⟩
  | lapses caller => exact ⟨closing, dead, line, by simp [forget, waiting], sequence⟩
  | orphans | touches => exact ⟨closing, dead, line, waiting, sequence⟩
  | shuts => exact ⟨closing, dead, line, rfl, sequence⟩
  | leaves => exact ⟨closing, dead, queue, waiting, sequence⟩
  | dies => exact ⟨closing, dead, rfl, rfl, sequence⟩
  | releases => exact ⟨closing, rfl, queue, waiting, sequence⟩

end Session

namespace Lane

/-- The session of the lane is barred, and its stream was never written to. -/
structure Barred (l : Lane) : Prop where
  session : l.session.Barred
  blank : ∃ p : Probe, l.stream = .probe p ∧ p.started = 0 ∧ p.recorded = []

variable {l l' : Lane}

theorem Barred.act? (barred : l.Barred) {now : Nat} {told : List Notice}
    (acts : l.act? now = some (l', told)) :
    l'.Barred ∧ (l.session.writer ≠ .dead → l'.session.writer ≠ .dead) := by
  have session : l'.session.Barred := by
    rcases (act?_moves acts).session with ⟨same, _⟩ | ⟨a, _, acted⟩
    · exact same ▸ barred.session
    · exact (show (l.session.act a).1 = l'.session by rw [acted]) ▸ barred.session.act a
  obtain ⟨p, probe, started, recorded⟩ := barred.blank
  obtain ⟨flight, queue⟩ := List.append_eq_nil_iff.mp barred.session.line
  cases act?_byItself acts with
  | turns writer turn =>
    cases Session.turn_of_turn? turn with
    | shuts =>
      exact ⟨⟨session, p, by simp [engage, writer, probe], started, recorded⟩,
        by simp [engage, writer]⟩
    | takesUp _ _ _ _ there => simp [queue] at there
    | leaves =>
      exact ⟨⟨session, p.release now, by simp [engage, probe, Stream.release], started, recorded⟩,
        by simp [engage]⟩
  | passes writer | concludes writer => simp [Session.inFlight, writer] at flight
  | released => exact ⟨⟨session, p, probe, started, recorded⟩, by simp⟩

theorem Barred.ring (barred : l.Barred) (now : Nat) : (l.ring now).1.Barred ∧
    (l.session.writer ≠ .dead → (l.ring now).1.session.writer ≠ .dead) := by
  have flight := (List.append_eq_nil_iff.mp barred.session.line).1
  cases writer : l.session.writer with
  | writing q since => simp [Session.inFlight, writer] at flight
  | releasing since =>
    have released := barred.session.act .released
    simp only [Session.act, writer] at released
    simp only [Lane.ring, writer]
    exact ⟨⟨released, barred.blank⟩, by simp⟩
  | _ =>
    simp only [Lane.ring, writer]
    exact ⟨barred, fun alive => alive⟩

theorem Change.barred (change : Change l l') (barred : l.Barred) :
    l'.Barred ∧ (l.session.writer ≠ .dead → l'.session.writer ≠ .dead) := by
  obtain ⟨p, probe, started, recorded⟩ := barred.blank
  cases change with
  | acts acts => exact barred.act? acts
  | rings now => exact barred.ring now
  | @meets b outer =>
    exact ⟨⟨barred.session.act b, barred.blank⟩, fun alive =>
      (Session.writer_of_outer outer l.session).symm ▸ alive⟩
  | script change =>
    simp only [Scenario.World.changeScript, probe]
    exact ⟨⟨barred.session, _, rfl, started, recorded⟩, fun alive => alive⟩
  | socket change =>
    simp only [Scenario.World.changeSocket, probe]
    exact ⟨barred, fun alive => alive⟩

theorem barred_changes (changes : ReflTransGen Change l l') (barred : l.Barred) :
    l'.Barred ∧ (l.session.writer ≠ .dead → l'.session.writer ≠ .dead) := by
  induction changes with
  | refl => exact ⟨barred, fun alive => alive⟩
  | tail _ change ih =>
    obtain ⟨barred', alive⟩ := ih
    obtain ⟨barred'', alive'⟩ := change.barred barred'
    exact ⟨barred'', alive' ∘ alive⟩

end Lane

namespace Hub

theorem enter_taken {h : Hub} {l : Lane} {key : Key} (found : h.lookup l.id = some key) :
    h.enter l = (((h.addLane l).close h.lanes.length).1, .error (.duplicateSession l.id.text)) := by
  obtain ⟨entry, live⟩ := lookup_eq_some found
  have lane := h.lane?_added l
  have entries : entry? (h.addLane l) l.id = some ⟨l.id, key⟩ := entry
  obtain ⟨old, there⟩ : ∃ old, h.lane? key = some old := by
    cases there : h.lane? key with
    | none => simp [isLive, there] at live
    | some old => exact ⟨old, rfl⟩
  simp only [enter, register, lane, entries, isLive_addLane there, live, if_true]

def succeeded (h : Hub) (l : Lane) (old : Key) : Hub :=
  { h with
    lanes := (h.addLane l).lanes.modify old fun k => { k with session := k.session.close }
    entries := h.entries.map fun e => if e.id == l.id then ⟨l.id, h.lanes.length⟩ else e
    journal := h.journal ++ [.removed l.id .replaced (h.sent old), .registered l.id l.client] }

theorem lane?_succeeded (h : Hub) (l : Lane) (old key : Key) : (h.succeeded l old).lane? key =
    ((h.addLane l).lane? key).map fun k => if old = key then { k with session := k.session.close } else k :=
  lane?_modify (h.addLane l) old _ key

theorem enter_dead {h : Hub} {l : Lane} {old : Entry} {m : Lane} (entry : h.entry? l.id = some old)
    (there : h.lane? old.key = some m) (dead : h.isLive old.key = false) :
    h.enter l = (h.succeeded l old.key, .ok h.lanes.length) := by
  have lane := h.lane?_added l
  have entries : entry? (h.addLane l) l.id = some old := entry
  have sent : ((((h.addLane l).rebind l.id h.lanes.length).close old.key).1).sent old.key =
      h.sent old.key := by
    have same : ((h.addLane l).rebind l.id h.lanes.length).lane? old.key = some m :=
      lane?_addLane there l
    rw [sent_close]
    simp only [Hub.sent, same, there]
  simp only [enter, register, lane, entries, isLive_addLane there, dead, Bool.false_eq_true, if_false,
    sent]
  simp [succeeded, close, updateSession, rebind, addLane, log]

end Hub

namespace Scenario.World

variable {config : Config} {w w' : World} {o : Opening}

def barredLane (w : World) (o : Opening) : Lane :=
  { w.lane o w.hub.config with session := (w.lane o w.hub.config).session.close }

theorem barred_barredLane (w : World) (o : Opening) : (w.barredLane o).Barred := by
  refine ⟨⟨rfl, Session.isLive_close _, ?_, ?_, ?_⟩, _, rfl, rfl, rfl⟩ <;>
    cases discarded : o.discarded <;>
    simp [barredLane, lane, discarded, Session.crashed, Session.close,
      Session.line, Session.inFlight]

/-- Nobody finds the session of a key, by an id or in a group. -/
structure Unseen (w : World) (key : Key) : Prop where
  lookup : ∀ id, w.hub.lookup id ≠ some key
  groups : ∀ group, ∀ e ∈ w.hub.inGroup group, e.key ≠ key

theorem unseen_of_dead {key : Key} (dead : w.hub.isLive key = false) : w.Unseen key where
  lookup id found := by
    have live := (Hub.lookup_eq_some found).2
    simp [dead] at live
  groups group e member own := by
    have live := (List.mem_filter.mp member).2
    rw [Option.any_eq_true] at live
    obtain ⟨l, there, live⟩ := live
    rw [own] at there
    simp [Hub.isLive_of_lane there, (Bool.and_eq_true_iff.mp live).1] at dead

/-- What has come of the new session while the id is taken: its stream has been released once in every
world at rest where the release is not under way. -/
structure Rejected (o : Opening) (key : Key) (w : World) : Prop where
  lane : ∃ l, w.hub.lane? key = some l ∧ l.Barred ∧ l.stream.closes ≤ 1 ∧
    (o.discarded = false → w.next? = none → l.session.writer.isPending = false →
      l.stream.closes = 1 ∧ l.session.life = .removed)
  unseen : w.Unseen key

/-- The id is taken. Nothing that was there has changed. -/
structure Rejects (w : World) (o : Opening) (w' : World) : Prop where
  entries : w'.hub.entries = w.hub.entries
  journal : w'.hub.journal = w.hub.journal
  handles : w'.handles = w.handles
  lanes : ∀ key l, w.hub.lane? key = some l → w'.hub.lane? key = some l
  ever : ∀ later, Becomes False w' later → Rejected o w.hub.lanes.length later

/-- The session of a key is registered under an id as long as it is not closed, and is found as long
as it lives. Who means another session under this id cannot take it out. -/
structure Lasts (id : SessionId) (key : Key) (w : World) : Prop where
  registered : ⟨id, key⟩ ∈ w.hub.entries ∨ w.hub.Closed key
  found : w.hub.isLive key = true → w.hub.lookup id = some key
  kept : ⟨id, key⟩ ∈ w.hub.entries → ∀ other ≠ key, ∀ reason,
    w.hub.removeIfSame id other reason = (w.hub, false)

/-- The new session is registered and live, in the place of a dead one if there was one. That one is
closed, and all others are as before. -/
structure Opens (w : World) (o : Opening) (w' : World) : Prop where
  live : w'.hub.isLive w.hub.lanes.length = true
  handles : w'.handles = bind w.handles o.name w.hub.lanes.length
  journal : w'.hub.journal = w.hub.journal ++
    (w.hub.entry? o.id).toList.map (fun old => .removed o.id .replaced (w.hub.sent old.key)) ++
    [.registered o.id o.client]
  others : ∀ e, e.id ≠ o.id → (e ∈ w'.hub.entries ↔ e ∈ w.hub.entries)
  lanes : ∀ key l, w.hub.lane? key = some l → w'.hub.lane? key =
    some (if (w.hub.entry? o.id).any (·.key == key) then { l with session := l.session.close } else l)
  ever : ∀ later, Becomes False w' later → Lasts o.id w.hub.lanes.length later

theorem enter_taken {key : Key} (found : w.hub.lookup o.id = some key) :
    w.enter o = ({ w with
      hub := ((w.hub.addLane (w.lane o w.hub.config)).close w.hub.lanes.length).1
      probes := bind w.probes o.name w.hub.lanes.length }, .error (.duplicateSession o.id.text)) := by
  have taken : w.hub.enter (w.lane o w.hub.config) = _ := Hub.enter_taken found
  simp only [enter, taken]
  rfl

theorem rejected (reached : Reached config w') {l : Lane}
    (there : w'.hub.lane? w.hub.lanes.length = some l) (barred : l.Barred)
    (alive : o.discarded = false → l.session.writer ≠ .dead) :
    Rejected o w.hub.lanes.length w' := by
  refine ⟨⟨l, there, barred, ?_, fun runs settled through => ?_⟩, unseen_of_dead ?_⟩
  · rw [(reached.kept there).2.closes]
    exact Bool.toNat_le _
  · have torn := tornDown reached settled there (alive runs) (.closed barred.session.closing) through
    exact ⟨torn.closes, torn.removed⟩
  · exact (Hub.isLive_of_lane there).trans barred.session.dead

theorem rejects (reached : Reached config w) {key : Key} (found : w.hub.lookup o.id = some key) :
    w.Rejects o (w.enter o).1 := by
  have opened : Reached config (w.enter o).1 := reached.step (.enter o)
  have new : (w.enter o).1.hub.lane? w.hub.lanes.length = some (w.barredLane o) := by
    rw [enter_taken found, Hub.close, Hub.updateSession, Hub.lane?_modify, Hub.lane?_added]
    exact congrArg some (if_pos rfl)
  have runs : o.discarded = false → (w.barredLane o).session.writer ≠ .dead := fun runs => by
    simp [barredLane, lane, runs, Session.close]
  refine ⟨?_, ?_, ?_, fun k l there => ?_, fun later becomes => ?_⟩
  · rw [enter_taken found]
    rfl
  · rw [enter_taken found]
    rfl
  · rw [enter_taken found]
  · have old : k < w.hub.lanes.length := (List.getElem?_eq_some_iff.mp there).1
    rw [enter_taken found, Hub.close, Hub.updateSession, Hub.lane?_modify, Hub.lane?_addLane there]
    exact congrArg some (if_neg (Nat.ne_of_gt old))
  · obtain ⟨l, there, changes⟩ := becomes.traces _ _ new
    obtain ⟨barred, alive⟩ := Lane.barred_changes changes (w.barred_barredLane o)
    exact rejected (becomes.reached opened) there barred fun undiscarded => alive (runs undiscarded)

theorem lasts {id : SessionId} {key : Key} (reached : Reached config w)
    (entry : ⟨id, key⟩ ∈ w.hub.entries) (becomes : Becomes False w w') : Lasts id key w' := by
  have later := becomes.reached reached
  have sound := later.sound
  have registered : ⟨id, key⟩ ∈ w'.hub.entries ∨ w'.hub.Closed key := by
    by_contra gone
    rw [not_or] at gone
    exact gone.2 (closed_of_gone reached becomes entry gone.1)
  refine ⟨registered, fun live => ?_, fun there other apart reason => ?_⟩
  · rcases registered with there | ⟨l, at_key, closing⟩
    · have found := sound.entry there
      simp only [Hub.lookup, found, Option.map_some, Option.filter, live, if_true]
    · have dead := (later.kept at_key).1.closed closing
      simp [Hub.isLive_of_lane at_key, Lane.isLive, dead] at live
  · simp [Hub.removeIfSame, sound.entry there, Ne.symm apart]

theorem fresh_isLive (w : World) (o : Opening) : (w.lane o w.hub.config).isLive = true :=
  Hub.isLive_of_isNew (w.isFresh_lane o w.hub.config).session

theorem opens_free (reached : Reached config w) (free : w.hub.entry? o.id = none) :
    (w.enter o).2 = .ok ∧ w.Opens o (w.enter o).1 := by
  have entered : w.hub.enter (w.lane o w.hub.config) = _ := Hub.enter_free free
  have done : w.enter o = ({ w with
      hub := w.hub.seated (w.lane o w.hub.config)
      probes := bind w.probes o.name w.hub.lanes.length
      handles := bind w.handles o.name w.hub.lanes.length }, .ok) := by
    simp only [enter, entered]
  have there : ⟨o.id, w.hub.lanes.length⟩ ∈ (w.enter o).1.hub.entries := by
    rw [done]
    exact List.mem_append_right _ (List.mem_singleton_self _)
  have ever (later : World) (becomes : Becomes False (w.enter o).1 later) :=
    lasts (reached.step (.enter o)) there becomes
  simp only [done] at ever ⊢
  refine ⟨trivial, ⟨?_, rfl, ?_, fun e other => ?_, fun key l at_key => ?_, ever⟩⟩
  · exact (Hub.isLive_of_lane (Hub.lane?_seated _ _)).trans (w.fresh_isLive o)
  · simp only [free, Option.toList_none, List.map_nil, List.append_nil]
    rfl
  · simp only [Hub.seated, List.mem_append, List.mem_singleton]
    exact or_iff_left fun same => other (same ▸ rfl)
  · rw [free, show Hub.lane? (w.hub.seated (w.lane o w.hub.config)) key = some l from
      Hub.lane?_addLane at_key _]
    rfl

theorem opens_dead (reached : Reached config w) {old : Entry} (entry : w.hub.entry? o.id = some old)
    (dead : w.hub.isLive old.key = false) :
    (w.enter o).2 = .ok ∧ w.Opens o (w.enter o).1 := by
  obtain ⟨acts, made⟩ := reached.made
  have sound : w.hub.Sound := made ▸ (Hub.run_sound (Hub.sound_start config) acts).1
  obtain ⟨member, own⟩ := Hub.entry_mem entry
  obtain ⟨m, at_old, _⟩ := sound.lane member
  have inside : old.key < w.hub.lanes.length := (List.getElem?_eq_some_iff.mp at_old).1
  have entered : w.hub.enter (w.lane o w.hub.config) = _ := Hub.enter_dead entry at_old dead
  have done : w.enter o = ({ w with
      hub := w.hub.succeeded (w.lane o w.hub.config) old.key
      probes := bind w.probes o.name w.hub.lanes.length
      handles := bind w.handles o.name w.hub.lanes.length }, .ok) := by
    simp only [enter, entered]
  -- the new session gets the entry of the dead one, in its place among the entries
  have replaced (e : Entry) (e' : Entry) :
      (if e.id == (w.lane o w.hub.config).id then ⟨o.id, w.hub.lanes.length⟩ else e) = e' ↔
        if e.id = o.id then (⟨o.id, w.hub.lanes.length⟩ : Entry) = e' else e = e' := by
    simp only [beq_iff_eq, show (w.lane o w.hub.config).id = o.id from rfl]
    split <;> rfl
  have there : ⟨o.id, w.hub.lanes.length⟩ ∈ (w.enter o).1.hub.entries := by
    rw [done]
    exact List.mem_map.mpr ⟨old, member, (replaced old _).mpr (by simp [own])⟩
  have ever (later : World) (becomes : Becomes False (w.enter o).1 later) :=
    lasts (reached.step (.enter o)) there becomes
  simp only [done] at ever ⊢
  refine ⟨trivial, ⟨?_, rfl, ?_, fun e other => ?_, fun key l at_key => ?_, ever⟩⟩
  · rw [Hub.isLive, Hub.lane?_succeeded, Hub.lane?_added, Option.map_some,
      if_neg (Nat.ne_of_lt inside)]
    exact w.fresh_isLive o
  · simp only [entry, Option.toList_some, List.map_cons, List.map_nil, List.append_assoc]
    rfl
  · refine List.mem_map.trans ⟨?_, fun there => ⟨e, there, ?_⟩⟩
    · rintro ⟨d, there, same⟩
      have same := (replaced d e).mp same
      split at same
      · exact absurd (same ▸ rfl) other
      · exact same ▸ there
    · exact (replaced e e).mpr (by simp [other])
  · rw [Hub.lane?_succeeded, Hub.lane?_addLane at_key, entry]
    simp

/-- A session can be opened just if no live one is registered under its id. -/
theorem opens_unless_taken (config : Config) (w : World) (reached : Reached config w) (o : Opening) :
    let done := w.perform (.enter o)
    (∀ key, w.hub.lookup o.id = some key →
      done.2 = .error (.duplicateSession o.id.text) ∧ w.Rejects o done.1) ∧
    (w.hub.lookup o.id = none → done.2 = .ok ∧ w.Opens o done.1) := by
  intro done
  refine ⟨fun key found => ⟨congrArg Prod.snd (enter_taken found), rejects reached found⟩, fun free => ?_⟩
  cases entry : w.hub.entry? o.id with
  | none => exact opens_free reached entry
  | some old =>
    have dead : w.hub.isLive old.key = false := by
      simpa [Hub.lookup, entry, Option.filter] using free
    exact opens_dead reached entry dead

/-- An id comes a second time: while the first session lives, and when it was closed. -/
theorem opens_unless_taken_again :
    let o : Opening := ⟨"b", ⟨"s"⟩, .default, .plain, false⟩
    let first : Opening := ⟨"a", ⟨"s"⟩, .default, { ProbeScript.plain with hold := true }, false⟩
    let taken := ((start .default).runAll [.enter first]).1
    let left := ((start .default).runAll [.enter first, .close "a"]).1
    (Reached .default taken ∧ taken.hub.lookup o.id = some 0 ∧
      (taken.perform (.enter o)).2 = .error (.duplicateSession "s") ∧
      taken.Rejects o (taken.perform (.enter o)).1) ∧
    Reached .default left ∧ left.hub.entry? o.id = some ⟨o.id, 0⟩ ∧ left.hub.lookup o.id = none ∧
      (left.perform (.enter o)).2 = .ok ∧ left.Opens o (left.perform (.enter o)).1 := by
  intro o first taken left
  have reached : Reached .default taken := Reached.start.runAll _
  have reached' : Reached .default left := Reached.start.runAll _
  have found : taken.hub.lookup o.id = some 0 := by decide
  have free : left.hub.lookup o.id = none := by decide
  exact ⟨⟨reached, found, (opens_unless_taken .default taken reached o).1 0 found⟩, reached', by decide,
    free, (opens_unless_taken .default left reached' o).2 free⟩

end Scenario.World

end Courier
