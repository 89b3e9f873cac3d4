import Courier.Proofs.Hub.Recast
import Courier.Proofs.Lane
import Courier.Proofs.Session.Absence
import Mathlib.Tactic.Simps.Basic

set_option autoImplicit false

namespace Courier

variable {o : Omission}

namespace Lane

variable {b : Bool} {l : Lane}

@[simps]
def without (o : Omission) (b : Bool) (l : Lane) : Lane :=
  { l with session := l.session.without o b }

theorem stream_without (l : Lane) : (l.without o b).stream = l.stream := rfl

theorem writer_without (l : Lane) :
    (l.without o b).session.writer = l.session.writer.without o := rfl

theorem engage_without (l : Lane) (now : Nat) :
    (l.without o b).engage now = (l.engage now).without o b := by
  unfold engage
  cases writer : l.session.writer <;>
    simp [without, Session.without, writer, Writer.without, Parcel.without]

theorem conclude_without {e : WriteEnd} {stream : Stream} {now : Nat}
    (unheard : o.gone ∉ (l.conclude e stream now).2.map (·.caller)) :
    (l.without o b).conclude e stream now =
      ((l.conclude e stream now).1.without o b,
        (l.conclude e stream now).2.map (·.without o)) := by
  cases e with
  | done => simp [conclude, without, Session.wrote_without]
  | failed f =>
    have failed := Session.failed_without (b := b) unheard
    have engaged := engage_without (o := o) (b := b)
      { l with session := (l.session.failed f now).1, stream := stream.abandon } now
    simp only [conclude, without, failed]
    exact Prod.ext engaged rfl
  | crashed =>
    have crashed := Session.crashed_without (b := b) unheard
    simp only [conclude, without, crashed]

theorem act?_without {now : Nat} (hides : l.session.Hides b)
    (fine : ∀ r, l.act? now = some r →
      o.gone ∉ r.1.session.line.map (·.caller) ∧ o.gone ∉ r.2.map (·.caller)) :
    (l.without o b).act? now =
      (l.act? now).map fun r => (r.1.without o b, r.2.map (·.without o)) := by
  unfold act? at fine ⊢
  rw [writer_without]
  cases writer : l.session.writer with
  | idle =>
    simp only [writer] at fine
    have turned : (l.session.without o b).turn? now = _ := Session.turn?_without hides fun r turn => by
      have one := fine _ (Option.map_eq_some_iff.mpr ⟨r, turn, rfl⟩)
      obtain ⟨_, _, same⟩ := engage_eq { l with session := r.1 } now
      rwa [same] at one
    simp only [Writer.without, Option.map_map]
    change ((l.session.without o b).turn? now).map _ = _
    rw [turned, Option.map_map]
    congr 1
    funext r
    exact Prod.ext (engage_without { l with session := r.1 } now) rfl
  | writing p since =>
    simp only [writer] at fine
    simp only [Writer.without, stream_without]
    cases pass : l.stream.pass? now with
    | some stream => rfl
    | none =>
      cases ending : l.stream.ending? with
      | none => rfl
      | some e =>
        simp only [pass, ending] at fine
        simp only [Option.map_some, conclude_without (fine _ rfl).2]
  | releasing since =>
    simp only [Writer.without]
    change (if l.stream.isReleased = true then _ else _) = _
    split <;> rfl
  | _ => rfl

theorem isSome_act?_without (hides : l.session.Hides b) (now : Nat) :
    ((l.without o b).act? now).isSome = (l.act? now).isSome := by
  unfold act?
  rw [writer_without]
  cases l.session.writer with
  | idle =>
    simp only [Writer.without, Option.isSome_map]
    exact Session.isSome_turn?_without hides now
  | writing p since =>
    simp only [Writer.without, stream_without]
    cases l.stream.pass? now with
    | some stream => rfl
    | none => cases l.stream.ending? <;> rfl
  | releasing since =>
    simp only [Writer.without, stream_without]
    by_cases done : l.stream.isReleased = true <;> simp [done]
  | _ => rfl

theorem ring_without {now : Nat} (unheard : o.gone ∉ (l.ring now).2.map (·.caller)) :
    (l.without o b).ring now =
      ((l.ring now).1.without o b, (l.ring now).2.map (·.without o)) := by
  unfold ring at unheard ⊢
  rw [writer_without]
  cases writer : l.session.writer with
  | writing p since =>
    simp only [writer] at unheard
    simp only [Writer.without, stream_without]
    split at unheard
    · rename_i due
      simp only [due, if_true]
      exact conclude_without unheard
    · rename_i due
      simp only [due, Bool.false_eq_true, if_false]
      exact conclude_without unheard
  | _ => rfl

theorem lapse_without (l : Lane) {c : Caller} (other : c ≠ o.gone) :
    (l.without o b).lapse (o.name c) =
      ((l.lapse c).1.without o b, (l.lapse c).2.map (·.without o)) := by
  simp only [lapse, without, Session.forget_without l.session other]
  rfl

theorem lapse_gone (l : Lane) : (l.lapse o.gone).1.without o b = l.without o b := by
  simp only [lapse, without, Session.forget_gone]

theorem alarm?_without (l : Lane) : (l.without o b).alarm? = l.alarm? := by
  unfold alarm?
  rw [writer_without]
  cases l.session.writer <;> rfl

theorem waiterAlarms_without (l : Lane) : (l.without o b).waiterAlarms =
    (l.waiterAlarms.filter (·.2 != o.gone)).map fun a => (a.1, o.name a.2) := by
  simp only [waiterAlarms, without, Session.without]
  induction l.session.waiting with
  | nil => rfl
  | cons v vs ih =>
    by_cases own : v.parcel.caller = o.gone
    · cases due : v.patience.deadline <;> simp [own, due, ih]
    · rw [List.filter_cons_of_pos (by simpa using own), List.map_cons, List.filterMap_cons,
        List.filterMap_cons, ih]
      cases due : v.patience.deadline <;> simp [own, due]

theorem disguise_without (o : Omission) (b : Bool) : Disguise (without o b) where
  id _ := rfl
  client _ := rfl
  live _ := rfl
  sequence _ := rfl
  activity _ := rfl
  close _ := rfl
  touch _ _ := rfl

end Lane

namespace Hub

variable {q : Key → Bool} {h : Hub}

@[simps]
def without (o : Omission) (q : Key → Bool) (h : Hub) : Hub :=
  { h with lanes := h.lanes.mapIdx fun key l => l.without o (q key) }

theorem disguise_without (o : Omission) (q : Key → Bool) (key : Key) :
    Lane.Disguise fun l => l.without o (q key) := Lane.disguise_without o (q key)

theorem lane?_without (h : Hub) (key : Key) :
    (h.without o q).lane? key = (h.lane? key).map (·.without o (q key)) :=
  lane?_recast _ h key

theorem length_without (h : Hub) : (h.without o q).lanes.length = h.lanes.length :=
  length_recast _ h

theorem idOf?_without (h : Hub) (key : Key) : (h.without o q).idOf? key = h.idOf? key :=
  idOf?_recast (disguise_without o q) h key

theorem route_without (h : Hub) (id : SessionId) : (h.without o q).route id = h.route id :=
  route_recast (disguise_without o q) h id

theorem lookup_without (h : Hub) (id : SessionId) : (h.without o q).lookup id = h.lookup id :=
  lookup_recast (disguise_without o q) h id

theorem inGroup_without (h : Hub) (group : String) :
    (h.without o q).inGroup group = h.inGroup group :=
  inGroup_recast (disguise_without o q) h group

theorem without_modify {key : Key} {f g : Lane → Lane}
    (same : ∀ l, (f l).without o (q key) = g (l.without o (q key))) :
    without o q { h with lanes := h.lanes.modify key f } =
      { h.without o q with lanes := (h.without o q).lanes.modify key g } :=
  recast_modify (φ := fun key l => l.without o (q key)) same

theorem without_updateSession {key : Key} {f g : Session → Session}
    (same : ∀ s, (f s).without o (q key) = g (s.without o (q key))) :
    (h.updateSession key f).without o q = (h.without o q).updateSession key g :=
  without_modify fun l => by
    simp only [Lane.without, same]

theorem without_setLane (h : Hub) (key : Key) (l : Lane) :
    (h.setLane key l).without o q = (h.without o q).setLane key (l.without o (q key)) :=
  recast_setLane h key l

theorem setLane_gone {h : Hub} {key : Key} {l l' : Lane} (there : h.lane? key = some l)
    (gone : l'.without o (q key) = l.without o (q key)) :
    (h.setLane key l').without o q = h.without o q := by
  have lane := h.lane?_without (o := o) (q := q) key
  rw [there, Option.map_some, lane?, List.getElem?_eq_some_iff] at lane
  obtain ⟨inside, lane⟩ := lane
  rw [without_setLane, gone, ← lane, setLane, List.set_getElem_self]

theorem without_addLane {l : Lane} (new : l.without o (q h.lanes.length) = l) :
    (h.addLane l).without o q = (h.without o q).addLane l :=
  recast_addLane (φ := fun key l => l.without o (q key)) new

theorem without_register (h : Hub) (key : Key) :
    (h.without o q).register key = (h.register key).map (·.without o q) :=
  recast_register (disguise_without o q) h key

theorem without_enter {l : Lane} (new : l.without o (q h.lanes.length) = l) :
    (h.without o q).enter l = ((h.enter l).1.without o q, (h.enter l).2) :=
  recast_enter (disguise_without o q) h new

theorem without_remove (h : Hub) (id : SessionId) (reason : Reason) :
    (h.without o q).remove id reason =
      ((h.remove id reason).1.without o q, (h.remove id reason).2) :=
  recast_remove (disguise_without o q) h id reason

theorem without_removeIfSame (h : Hub) (id : SessionId) (key : Key) (reason : Reason) :
    (h.without o q).removeIfSame id key reason =
      ((h.removeIfSame id key reason).1.without o q, (h.removeIfSame id key reason).2) :=
  recast_removeIfSame (disguise_without o q) h id key reason

theorem without_sweepIdle (h : Hub) (maxIdle now : Nat) :
    (h.without o q).sweepIdle maxIdle now =
      ((h.sweepIdle maxIdle now).1.without o q, (h.sweepIdle maxIdle now).2) :=
  recast_sweepIdle (disguise_without o q) h maxIdle now

theorem without_rejectBySubsystem (h : Hub) (subsystem : String) :
    (h.without o q).rejectBySubsystem subsystem =
      ((h.rejectBySubsystem subsystem).1.without o q, (h.rejectBySubsystem subsystem).2) :=
  recast_rejectBySubsystem (disguise_without o q) h subsystem

theorem without_closeAll (h : Hub) :
    (h.without o q).closeAll = (h.closeAll.1.without o q, h.closeAll.2) :=
  recast_closeAll (disguise_without o q) h

theorem without_touch (h : Hub) (id : SessionId) (now : Nat) :
    (h.without o q).touch id now = ((h.touch id now).1.without o q, (h.touch id now).2) :=
  recast_touch (disguise_without o q) h id now

theorem without_conclude (h : Hub) (id : SessionId) (key : Key) (outcome : Outcome) :
    (h.without o q).conclude id key outcome =
      ((h.conclude id key outcome).1.without o q, (h.conclude id key outcome).2) :=
  recast_conclude (disguise_without o q) h id key outcome

theorem without_offer (h : Hub) (key : Key) {p : Parcel} (other : p.caller ≠ o.gone)
    (patience : Patience) (spent : Bool) (now : Nat) :
    (h.without o q).offer key (p.without o) patience spent now =
      ((h.offer key p patience spent now).1.without o q,
        (h.offer key p patience spent now).2) := by
  unfold offer
  rw [lane?_without]
  cases h.lane? key with
  | none => rfl
  | some l =>
    have offered := l.session.offer_without (b := q key) other patience spent now
    simp only [Option.map_some, Lane.without, offered, without_setLane]

end Hub

end Courier
