import Courier.Hub
import Courier.Proofs.Hub.Act

set_option autoImplicit false

namespace Courier

/-- A change of a lane that the hub does not see. -/
structure Lane.Disguise (φ : Lane → Lane) : Prop where
  id : ∀ l, (φ l).id = l.id
  client : ∀ l, (φ l).client = l.client
  live : ∀ l, (φ l).isLive = l.isLive
  sequence : ∀ l, (φ l).session.sequence = l.session.sequence
  activity : ∀ l, (φ l).session.lastActivity = l.session.lastActivity
  close : ∀ l, φ { l with session := l.session.close } = { φ l with session := (φ l).session.close }
  touch : ∀ l now,
    φ { l with session := l.session.touch now } = { φ l with session := (φ l).session.touch now }

namespace Hub

/-- The hub with every lane changed, each in a way of its own. -/
def recast (φ : Key → Lane → Lane) (h : Hub) : Hub := { h with lanes := h.lanes.mapIdx φ }

section Lanes

variable (φ : Key → Lane → Lane) (h : Hub)

@[simp]
theorem lane?_recast (key : Key) : (h.recast φ).lane? key = (h.lane? key).map (φ key) := by
  simp [lane?, recast]

@[simp]
theorem entry_recast (id : SessionId) : Hub.entry? (h.recast φ) id = h.entry? id := rfl

@[simp]
theorem length_recast : (h.recast φ).lanes.length = h.lanes.length := by
  simp [recast]

variable {φ h}

theorem recast_modify {key : Key} {f g : Lane → Lane} (same : ∀ l, φ key (f l) = g (φ key l)) :
    recast φ { h with lanes := h.lanes.modify key f } =
      { h.recast φ with lanes := (h.recast φ).lanes.modify key g } := by
  simp only [recast, Hub.mk.injEq, true_and, and_true]
  apply List.ext_getElem?
  intro k
  simp only [List.getElem?_mapIdx, List.getElem?_modify]
  cases h.lanes[k]? with
  | none => rfl
  | some l =>
    by_cases here : key = k
    · subst here
      simp [same]
    · simp [here]

theorem recast_setLane (h : Hub) (key : Key) (l : Lane) :
    (h.setLane key l).recast φ = (h.recast φ).setLane key (φ key l) := by
  simp only [recast, setLane, Hub.mk.injEq, true_and, and_true]
  apply List.ext_getElem?
  intro k
  simp only [List.getElem?_mapIdx, List.getElem?_set, List.length_mapIdx]
  by_cases here : key = k
  · subst here
    by_cases inside : key < h.lanes.length <;> simp [inside]
  · simp [here]

theorem recast_addLane {l : Lane} (new : φ h.lanes.length l = l) :
    (h.addLane l).recast φ = (h.recast φ).addLane l := by
  simp [recast, addLane, List.mapIdx_append, new]

end Lanes

section Directory

variable {φ : Key → Lane → Lane} (disguise : ∀ key, Lane.Disguise (φ key)) (h : Hub)

include disguise

theorem idOf?_recast (key : Key) : (h.recast φ).idOf? key = h.idOf? key := by
  rw [idOf?, idOf?, lane?_recast, Option.map_map]
  cases h.lane? key with
  | none => rfl
  | some l => exact congrArg some ((disguise key).id l)

theorem isLive_recast (key : Key) : (h.recast φ).isLive key = h.isLive key := by
  rw [isLive, isLive, lane?_recast, Option.any_map]
  cases h.lane? key with
  | none => rfl
  | some l => exact (disguise key).live l

theorem sent_recast (key : Key) : (h.recast φ).sent key = h.sent key := by
  rw [sent, sent, lane?_recast, Option.map_map]
  cases h.lane? key with
  | none => rfl
  | some l => exact (disguise key).sequence l

theorem lookup_recast (id : SessionId) : (h.recast φ).lookup id = h.lookup id := by
  have same : (h.recast φ).isLive = h.isLive := funext fun key => h.isLive_recast disguise key
  rw [lookup, lookup, same]
  rfl

theorem route_recast (id : SessionId) : (h.recast φ).route id = h.route id := by
  rw [route, route, lookup_recast disguise]

theorem inGroup_recast (group : String) : (h.recast φ).inGroup group = h.inGroup group := by
  refine List.filter_congr fun e _ => ?_
  rw [lane?_recast, Option.any_map]
  cases h.lane? e.key with
  | none => rfl
  | some l => simp [(disguise e.key).live, (disguise e.key).client]

theorem recast_close (key : Key) : (h.close key).1.recast φ = ((h.recast φ).close key).1 :=
  recast_modify (disguise key).close

theorem recast_register (key : Key) :
    (h.recast φ).register key = (h.register key).map (·.recast φ) := by
  unfold register
  rw [lane?_recast]
  cases lane : h.lane? key with
  | none => rfl
  | some l =>
    simp only [Option.map_some, (disguise key).id, (disguise key).client]
    rw [entry_recast]
    cases entry : h.entry? l.id with
    | none => rfl
    | some old =>
      simp only [isLive_recast disguise]
      cases live : h.isLive old.key with
      | true => rfl
      | false =>
        have closed := (h.rebind l.id key).recast_close disguise old.key
        have sent := ((h.rebind l.id key).close old.key).1.sent_recast disguise old.key
        rw [closed] at sent
        simp only [Bool.false_eq_true, if_false, Except.map]
        change Except.ok (((((h.rebind l.id key).recast φ).close old.key).1.log
          (.removed l.id .replaced ((((h.rebind l.id key).recast φ).close old.key).1.sent
            old.key))).log (.registered l.id l.client)) = _
        rw [sent, ← closed]
        rfl

theorem recast_enter {l : Lane} (new : φ h.lanes.length l = l) :
    (h.recast φ).enter l = ((h.enter l).1.recast φ, (h.enter l).2) := by
  unfold enter
  simp only [length_recast, ← recast_addLane new, recast_register disguise]
  cases (h.addLane l).register h.lanes.length with
  | ok registered => rfl
  | error e => exact Prod.ext (recast_close disguise _ _).symm rfl

theorem recast_takeOut (e : Entry) (reason : Reason) :
    (h.recast φ).takeOut e reason = (h.takeOut e reason).recast φ := by
  let rest : Hub := { h with entries := h.entries.filter (·.id != e.id) }
  have closed := rest.recast_close disguise e.key
  have sent := (rest.close e.key).1.sent_recast disguise e.key
  rw [closed] at sent
  change ((rest.recast φ).close e.key).1.log (.removed e.id reason
    (((rest.recast φ).close e.key).1.sent e.key)) = _
  rw [sent, ← closed]
  rfl

theorem recast_remove (id : SessionId) (reason : Reason) :
    (h.recast φ).remove id reason = ((h.remove id reason).1.recast φ, (h.remove id reason).2) := by
  unfold remove
  rw [entry_recast]
  cases h.entry? id with
  | none => rfl
  | some e => simp only [recast_takeOut disguise]

theorem recast_removeIfSame (id : SessionId) (key : Key) (reason : Reason) :
    (h.recast φ).removeIfSame id key reason =
      ((h.removeIfSame id key reason).1.recast φ, (h.removeIfSame id key reason).2) := by
  unfold removeIfSame
  rw [entry_recast]
  cases h.entry? id with
  | none => rfl
  | some e =>
    simp only [recast_takeOut disguise]
    split <;> rfl

theorem recast_removeWhere (reason? : Entry → Option Reason) :
    (h.recast φ).removeWhere reason? =
      ((h.removeWhere reason?).1.recast φ, (h.removeWhere reason?).2) := by
  have each (done : Hub × List SessionId) (e : Entry) :
      removeOne reason? (done.1.recast φ, done.2) e =
        ((removeOne reason? done e).1.recast φ, (removeOne reason? done e).2) := by
    unfold removeOne
    cases reason? e with
    | none => rfl
    | some reason => simp only [recast_removeIfSame disguise]
  exact @List.foldl_hom _ _ _ (fun done => (done.1.recast φ, done.2)) _ _ h.entries (h, []) each

theorem recast_sweepIdle (maxIdle now : Nat) :
    (h.recast φ).sweepIdle maxIdle now =
      ((h.sweepIdle maxIdle now).1.recast φ, (h.sweepIdle maxIdle now).2) := by
  have same : (h.recast φ).sweepReason? maxIdle now = h.sweepReason? maxIdle now := by
    funext e
    unfold sweepReason?
    rw [lane?_recast]
    cases h.lane? e.key with
    | none => rfl
    | some l =>
      simp only [Option.map_some, (disguise e.key).live, Session.idleFor, (disguise e.key).activity]
      rfl
  rw [sweepIdle, same, recast_removeWhere disguise]
  rfl

theorem recast_rejectBySubsystem (subsystem : String) :
    (h.recast φ).rejectBySubsystem subsystem =
      ((h.rejectBySubsystem subsystem).1.recast φ, (h.rejectBySubsystem subsystem).2) := by
  have same (e : Entry) : ((h.recast φ).lane? e.key).any (·.client.subsystem == subsystem) =
      (h.lane? e.key).any (·.client.subsystem == subsystem) := by
    rw [lane?_recast, Option.any_map]
    cases h.lane? e.key with
    | none => rfl
    | some l => simp [(disguise e.key).client]
  rw [rejectBySubsystem]
  simp only [same]
  rw [recast_removeWhere disguise]
  rfl

theorem recast_closeAll : (h.recast φ).closeAll = (h.closeAll.1.recast φ, h.closeAll.2) := by
  have each (done : Hub × Nat) (id : SessionId) : shutOne (done.1.recast φ, done.2) id =
      ((shutOne done id).1.recast φ, (shutOne done id).2) := by
    simp only [shutOne, recast_remove disguise]
  exact @List.foldl_hom _ _ _ (fun done => (done.1.recast φ, done.2)) _ _ h.ids (h, 0) each

theorem recast_touch (id : SessionId) (now : Nat) :
    (h.recast φ).touch id now = ((h.touch id now).1.recast φ, (h.touch id now).2) := by
  unfold touch
  rw [entry_recast]
  cases h.entry? id with
  | none => rfl
  | some e =>
    have touched : (h.updateSession e.key (·.touch now)).recast φ =
        (h.recast φ).updateSession e.key (·.touch now) :=
      recast_modify fun l => (disguise e.key).touch l now
    simp only [touched]

theorem recast_conclude (id : SessionId) (key : Key) (outcome : Outcome) :
    (h.recast φ).conclude id key outcome =
      ((h.conclude id key outcome).1.recast φ, (h.conclude id key outcome).2) := by
  unfold conclude
  cases answer id outcome with
  | ok n => rfl
  | error e =>
    simp only [recast_removeIfSame disguise]
    split <;> rfl

end Directory

end Hub

end Courier
