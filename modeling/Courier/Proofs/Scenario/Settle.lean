import Courier.Proofs.Hub.Act
import Courier.Proofs.Lane
import Courier.Scenario.Settle
import Mathlib.Data.List.Nodup
import Mathlib.Data.Option.Basic

set_option autoImplicit false

namespace Courier

theorem total_append (l m : List Nat) : total (l ++ m) = total l + total m := by
  induction l with
  | nil => simp [total]
  | cons n l ih => simp only [List.cons_append, total, ih, Nat.add_assoc]

theorem total_set_lt {l : List Nat} {i a b : Nat} (there : l[i]? = some a) (less : b < a) :
    total (l.set i b) < total l := by
  induction l generalizing i with
  | nil => simp at there
  | cons c l ih =>
    cases i with
    | zero =>
      simp only [List.getElem?_cons_zero, Option.some.injEq] at there
      simp only [List.set_cons_zero, total]
      omega
    | succ i =>
      have rest := ih (i := i) (by simpa using there)
      simp only [List.set_cons_succ, total]
      omega

namespace Hub

def efforts (h : Hub) : List Nat := h.lanes.map Lane.effort

theorem efforts_modify (h : Hub) (key : Key) (f : Lane → Lane) (same : ∀ l, (f l).effort = l.effort) :
    efforts { h with lanes := h.lanes.modify key f } = h.efforts := by
  apply List.ext_getElem?
  intro i
  simp only [efforts, List.getElem?_map, List.getElem?_modify]
  cases h.lanes[i]? with
  | none => rfl
  | some l => by_cases at_key : key = i <;> simp [at_key, same]

theorem efforts_close (h : Hub) (key : Key) : (h.close key).1.efforts = h.efforts :=
  h.efforts_modify key _ Lane.effort_close

theorem efforts_removeIfSame (h : Hub) (id : SessionId) (key : Key) (reason : Reason) :
    (h.removeIfSame id key reason).1.efforts = h.efforts := by
  unfold removeIfSame
  cases h.entry? id with
  | none => rfl
  | some e =>
    simp only
    split
    · exact efforts_close _ e.key
    · rfl

theorem efforts_removeWhere (h : Hub) (reason? : Entry → Option Reason) :
    (h.removeWhere reason?).1.efforts = h.efforts := by
  suffices all : ∀ (es : List Entry) (done : Hub × List SessionId),
      (es.foldl (removeOne reason?) done).1.efforts = done.1.efforts from all h.entries (h, [])
  intro es
  induction es with
  | nil => exact fun _ => rfl
  | cons e es ih =>
    intro done
    rw [List.foldl_cons, ih]
    unfold removeOne
    cases reason? e with
    | none => rfl
    | some reason => exact done.1.efforts_removeIfSame e.id e.key reason

theorem efforts_conclude (h : Hub) (id : SessionId) (key : Key) (outcome : Outcome) :
    (h.conclude id key outcome).1.efforts = h.efforts := by
  unfold conclude
  cases answer id outcome with
  | ok n => rfl
  | error e =>
    simp only
    split
    · exact h.efforts_removeIfSame id key .sendFailed
    · rfl

end Hub

namespace Sweeper

theorem effort_ticked {s : Sweeper} {i now : Nat} {l : SweepLoop} (there : s.loops[i]? = some l)
    (due : l.due ≤ now) (periodic : 0 < s.period) : (s.ticked i now).effort now < s.effort now := by
  have set : ((s.ticked i now).loops.map fun l =>
        if l.due ≤ now then min (now - l.due) tickTolerance + 1 else 0) =
      (s.loops.map fun l => if l.due ≤ now then min (now - l.due) tickTolerance + 1 else 0).set i
        (if (s.nextTick l now).due ≤ now then
          min (now - (s.nextTick l now).due) tickTolerance + 1 else 0) := by
    simp [ticked, List.modify_eq_set_getElem?, there, List.map_set]
  unfold effort
  rw [set]
  refine total_set_lt (a := min (now - l.due) tickTolerance + 1) (by simp [there, due]) ?_
  unfold nextTick tickTolerance
  by_cases late : l.due + 5 < now
  · have after : ¬now + s.period ≤ now := by omega
    simp only [late, if_true, after, if_false]
    omega
  · simp only [late, if_false]
    split <;> omega

end Sweeper

namespace Scenario

/-- The names of sweepers are different, and loops have periods. There are no connections. -/
structure World.Sane (w : World) : Prop where
  alone : w.visitors = []
  named : (w.sweepers.map (·.1)).Nodup
  periodic : ∀ s ∈ w.sweepers, s.2.loops ≠ [] → 0 < s.2.period

namespace World

structure Told (w w' : World) : Prop where
  now : w'.now = w.now
  watches : w'.watches = w.watches
  sweepers : w'.sweepers = w.sweepers
  visitors : w'.visitors = w.visitors
  efforts : w'.hub.efforts = w.hub.efforts

theorem Told.refl (w : World) : Told w w := ⟨rfl, rfl, rfl, rfl, rfl⟩

theorem Told.trans {a b c : World} (first : Told a b) (second : Told b c) : Told a c :=
  ⟨second.now.trans first.now, second.watches.trans first.watches,
    second.sweepers.trans first.sweepers, second.visitors.trans first.visitors,
    second.efforts.trans first.efforts⟩

theorem told_conclude (w : World) (c : Call) (outcome : Outcome) : Told w (w.conclude c outcome) := by
  unfold conclude
  cases c.addressee with
  | byHandle =>
    simp only
    split <;> exact ⟨rfl, rfl, rfl, rfl, rfl⟩
  | byId =>
    have efforts := w.hub.efforts_conclude c.id c.key outcome
    simp only
    split <;> exact ⟨rfl, rfl, rfl, rfl, efforts⟩
  | member => exact ⟨rfl, rfl, rfl, rfl, w.hub.efforts_conclude c.id c.key outcome⟩

theorem hub_gather (w : World) (sender : Nat) : (w.gather sender).hub = w.hub := by
  unfold gather
  split
  · rfl
  · split <;> rfl

theorem told_gather (w : World) (sender : Nat) : Told w (w.gather sender) := by
  unfold gather
  split
  · exact .refl w
  · split <;> exact ⟨rfl, rfl, rfl, rfl, rfl⟩

theorem told_deliver {w : World} (alone : w.visitors = []) (key : Key) (n : Notice) :
    Told w (w.deliver key n) := by
  unfold deliver
  cases n.caller with
  | sender sender =>
    simp only
    split
    · rename_i c _
      have answered := told_conclude { w with calls := w.calls.filter fun c =>
        !(c.sender == sender && c.key == key) } c n.outcome
      exact Told.trans ⟨answered.1, answered.2, answered.3, answered.4, answered.5⟩
        (told_gather _ sender)
    · exact .refl w
  | connection name =>
    simp only [visitor?, alone]
    exact .refl w

theorem told_deliverAll {w : World} (alone : w.visitors = []) (key : Key) (notices : List Notice) :
    Told w (w.deliverAll key notices) := by
  unfold deliverAll
  induction notices generalizing w with
  | nil => exact .refl w
  | cons n notices ih =>
    have first := told_deliver alone key n
    exact first.trans (ih (first.visitors.trans alone))

theorem before_trans {a b c : Alarm} (first : a.before b = true) (second : b.before c = true) :
    a.before c = true := by
  simp only [Alarm.before, Bool.or_eq_true, Bool.and_eq_true, decide_eq_true_eq, beq_iff_eq] at *
  omega

theorem before_of_not {a b c : Alarm} (first : a.before b = true) (second : c.before b = false) :
    a.before c = true := by
  simp only [Alarm.before, Bool.or_eq_true, Bool.and_eq_true, decide_eq_true_eq, beq_iff_eq,
    ← Bool.not_eq_true] at *
  omega

theorem not_before {a b : Alarm} (first : a.before b = true) : b.before a = false := by
  simp only [Alarm.before, Bool.or_eq_true, Bool.and_eq_true, decide_eq_true_eq, beq_iff_eq,
    ← Bool.not_eq_true] at *
  omega

theorem due_le {a b : Alarm} (first : b.before a = false) : a.due ≤ b.due := by
  simp only [Alarm.before, Bool.or_eq_true, Bool.and_eq_true, decide_eq_true_eq, beq_iff_eq,
    ← Bool.not_eq_true] at *
  omega

theorem sooner_eq (best : Option (Alarm × Bell)) (c : Alarm × Bell) :
    ∃ d, sooner best c = some d ∧ (d = c ∨ best = some d) ∧
      ∀ b, b = c ∨ best = some b → ∀ a, d.1.before a = false → b.1.before a = false := by
  cases best with
  | none => exact ⟨c, rfl, .inl rfl, by simp⟩
  | some d =>
    by_cases first : c.1.before d.1 = true
    · refine ⟨c, by simp [sooner, first], .inl rfl, ?_⟩
      rintro b (rfl | same) a least
      · exact least
      · obtain rfl := Option.some.inj same
        by_contra before
        rw [Bool.not_eq_false] at before
        simp [before_trans first before] at least
    · refine ⟨d, by simp [sooner, first], .inr rfl, ?_⟩
      rintro b (rfl | same) a least
      · by_contra before
        rw [Bool.not_eq_false] at before
        exact first (before_of_not before least)
      · exact Option.some.inj same ▸ least

/-- What comes first is one of the alarms, or what was best before them, and none comes before it. -/
theorem soonest {alarms : List (Alarm × Bell)} {best : Option (Alarm × Bell)} {a : Alarm × Bell}
    (h : alarms.foldl sooner best = some a) :
    (a ∈ alarms ∨ best = some a) ∧ (∀ b ∈ alarms, b.1.before a.1 = false) ∧
      ∀ b, best = some b → b.1.before a.1 = false := by
  induction alarms generalizing best with
  | nil =>
    refine ⟨.inr h, by simp, fun b same => ?_⟩
    obtain rfl := Option.some.inj (same.symm.trans h)
    simp [Alarm.before]
  | cons c alarms ih =>
    obtain ⟨d, picked, own, others⟩ := sooner_eq best c
    rw [List.foldl_cons, picked] at h
    obtain ⟨member, least, first⟩ := ih h
    have mine : d.1.before a.1 = false := first d rfl
    refine ⟨?_, ?_, fun b same => others b (.inr same) a.1 mine⟩
    · rcases member with later | same
      · exact .inl (List.mem_cons_of_mem _ later)
      · obtain rfl := Option.some.inj same
        rcases own with rfl | same
        · exact .inl List.mem_cons_self
        · exact .inr same
    · intro b there
      rcases List.mem_cons.mp there with rfl | later
      · exact others b (.inl rfl) a.1 mine
      · exact least b later

theorem earliest?_mem {alarms : List (Alarm × Bell)} {a : Alarm × Bell}
    (h : earliest? alarms = some a) : a ∈ alarms := by
  rcases (soonest h).1 with there | none
  · exact there
  · simp at none

theorem earliest?_le {alarms : List (Alarm × Bell)} {a b : Alarm × Bell}
    (h : earliest? alarms = some a) (there : b ∈ alarms) : a.1.due ≤ b.1.due :=
  due_le ((soonest h).2.1 b there)

theorem exists_earliest? {alarms : List (Alarm × Bell)} {b : Alarm × Bell} (there : b ∈ alarms) :
    ∃ a, earliest? alarms = some a := by
  suffices some : ∀ (alarms : List (Alarm × Bell)) (best : Alarm × Bell),
      ∃ a, alarms.foldl sooner (some best) = some a by
    cases alarms with
    | nil => simp at there
    | cons c alarms => exact some alarms c
  intro alarms
  induction alarms with
  | nil => exact fun best => ⟨best, rfl⟩
  | cons c alarms ih =>
    intro best
    rw [List.foldl_cons, sooner]
    split
    · exact ih c
    · exact ih best

/-- What an alarm rings for: a writer, a caller that waits for a place, or a loop of a sweeper. -/
inductive RingsFor (w : World) (a : Alarm) : Bell → Prop
  | writer {key : Key} {l : Lane} (there : w.hub.lane? key = some l) (alarm : l.alarm? = some a) :
      RingsFor w a (.writer key)
  | waiter {key : Key} {l : Lane} {v : Waiter} (there : w.hub.lane? key = some l)
      (waits : v ∈ l.session.waiting) (deadline : v.patience.deadline = some a.due) :
      RingsFor w a (.waiter key v.parcel.caller)
  | sweeper {name : String} {s : Sweeper} {i : Nat} {loop : SweepLoop}
      (there : (name, s) ∈ w.sweepers) (at_i : s.loops[i]? = some loop) (same : loop.due = a.due) :
      RingsFor w a (.sweeper name i)

theorem ringsFor_of_mem {w : World} {a : Alarm} {b : Bell} (h : (a, b) ∈ w.alarms) :
    w.RingsFor a b := by
  rcases List.mem_append.mp h with lanes | sweepers
  · obtain ⟨key, _, there⟩ := List.mem_flatMap.mp lanes
    unfold laneAlarms at there
    cases lane : w.hub.lane? key with
    | none => simp [lane] at there
    | some l =>
      simp only [lane, List.mem_append, Option.mem_toList, Option.map_eq_some_iff, Prod.mk.injEq,
        List.mem_map, Prod.exists] at there
      rcases there with ⟨_, alarm, rfl, rfl⟩ | ⟨_, caller, waiter, rfl, rfl⟩
      · exact .writer lane alarm
      · obtain ⟨v, waits, alarm⟩ := List.mem_filterMap.mp waiter
        obtain ⟨due, deadline, e⟩ := Option.map_eq_some_iff.mp alarm
        obtain ⟨rfl, rfl⟩ := Prod.mk.inj e
        exact .waiter lane waits deadline
  · obtain ⟨⟨name, s⟩, there, alarm⟩ := List.mem_flatMap.mp sweepers
    obtain ⟨⟨_, i⟩, ticks, e⟩ := List.mem_map.mp alarm
    obtain ⟨rfl, rfl⟩ := Prod.mk.inj e
    obtain ⟨j, inside, e⟩ := List.mem_mapIdx.mp ticks
    obtain ⟨rfl, rfl⟩ := Prod.mk.inj e
    exact .sweeper there (List.getElem?_eq_getElem inside) rfl

inductive Coming (w : World) : Move → Prop
  | lane {key : Key} {l : Lane} {moved : Lane × List Notice} (there : w.hub.lane? key = some l)
      (act : l.act? w.now = some moved) : Coming w (.lane key)
  | watch {v : Watch} (waits : v ∈ w.watches) : Coming w (.watch v)
  | orphan {key : Key} {l : Lane} (there : w.hub.lane? key = some l)
      (unaware : l.session.orphaned = false) : Coming w (.orphan key)
  | ring {a : Alarm} {b : Bell} (ringsFor : w.RingsFor a b) (due : a.due ≤ w.now) : Coming w (.ring b)

theorem coming_of_next? {w : World} (alone : w.visitors = []) {m : Move} (h : w.next? = some m) :
    w.Coming m := by
  unfold next? at h
  rcases (Option.orElse_eq_some _ _ _).mp h with lane | ⟨_, h⟩
  · obtain ⟨key, found, rfl⟩ := Option.map_eq_some_iff.mp lane
    have acts := List.find?_some (p := fun key => (w.laneStep? key).isSome) found
    obtain ⟨moved, step⟩ := Option.isSome_iff_exists.mp acts
    obtain ⟨l, there, act⟩ := Option.bind_eq_some_iff.mp step
    exact .lane there act
  rcases (Option.orElse_eq_some _ _ _).mp h with visitor | ⟨_, h⟩
  · simp [alone] at visitor
  rcases (Option.orElse_eq_some _ _ _).mp h with watch | ⟨_, h⟩
  · obtain ⟨v, found, rfl⟩ := Option.map_eq_some_iff.mp watch
    exact .watch (List.mem_of_find?_eq_some found)
  rcases (Option.orElse_eq_some _ _ _).mp h with orphan | ⟨_, alarm⟩
  · obtain ⟨key, found, rfl⟩ := Option.map_eq_some_iff.mp orphan
    have left := List.find?_some found
    simp only [isLeft, Bool.and_eq_true, Option.any_eq_true] at left
    obtain ⟨l, there, unaware⟩ := left.2
    exact .orphan there (by simpa using unaware)
  · obtain ⟨⟨a, b⟩, found, rfl⟩ := Option.map_eq_some_iff.mp alarm
    obtain ⟨first, due⟩ := Option.filter_eq_some_iff.mp found
    exact .ring (ringsFor_of_mem (earliest?_mem first)) (by simpa using due)

theorem effort_eq (w : World) (alone : w.visitors = []) :
    w.effort = total w.hub.efforts + w.watches.length +
      total (w.sweepers.map (·.2.effort w.now)) := by
  simp [effort, alone, Hub.efforts, total]

theorem Told.effort_eq {w w' : World} (told : Told w w') (alone : w.visitors = []) :
    w'.effort = w.effort := by
  rw [w.effort_eq alone, w'.effort_eq (told.visitors.trans alone), told.efforts, told.watches,
    told.sweepers, told.now]

theorem effort_update {w : World} (alone : w.visitors = []) {key : Key} {l : Lane}
    (there : w.hub.lane? key = some l) {moved : Lane × List Notice}
    (less : moved.1.effort < l.effort) : (w.update key moved).effort < w.effort := by
  have told := told_deliverAll (w := { w with hub := w.hub.setLane key moved.1 }) alone key moved.2
  have at_key : w.hub.efforts[key]? = some l.effort := by
    simp only [Hub.efforts, List.getElem?_map]
    exact congrArg (Option.map Lane.effort) there
  have set : (w.hub.setLane key moved.1).efforts = w.hub.efforts.set key moved.1.effort := by
    simp [Hub.efforts, List.map_set]
  have fewer := total_set_lt at_key less
  rw [← set] at fewer
  have before := w.effort_eq alone
  have after := World.effort_eq { w with hub := w.hub.setLane key moved.1 } alone
  rw [update, told.effort_eq alone]
  simp only at after
  omega

theorem sweeper_set {sweepers : List (String × Sweeper)} {name : String} {s t : Sweeper} {now : Nat}
    (named : (sweepers.map (·.1)).Nodup) (there : (name, s) ∈ sweepers)
    (fewer : t.effort now < s.effort now) :
    sweepers.lookup name = some s ∧
    total ((sweepers.map fun p => (p.1, if p.1 == name then t else p.2)).map (·.2.effort now)) <
      total (sweepers.map (·.2.effort now)) := by
  obtain ⟨before, after, rfl⟩ := List.append_of_mem there
  simp only [List.map_append, List.map_cons, List.nodup_append, List.nodup_cons] at named
  have first : ∀ p ∈ before, p.1 ≠ name := fun p member =>
    named.2.2 p.1 (List.mem_map_of_mem member) name List.mem_cons_self
  have last : ∀ p ∈ after, p.1 ≠ name := fun p member same =>
    named.2.1.1 (same ▸ List.mem_map_of_mem member)
  have others (ps : List (String × Sweeper)) (other : ∀ p ∈ ps, p.1 ≠ name) :
      (ps.map fun p => (p.1, if p.1 == name then t else p.2)) = ps := by
    conv_rhs => rw [← List.map_id ps]
    refine List.map_congr_left fun p member => ?_
    simp [other p member]
  refine ⟨List.lookup_eq_some_iff.mpr ⟨before, after, rfl, fun p member => ?_⟩, ?_⟩
  · simpa using (first p member).symm
  · rw [List.map_append, List.map_cons, others before first, others after last]
    simp only [List.map_append, List.map_cons, total_append, total, beq_self_eq_true,
      if_true]
    omega

theorem effort_make {w : World} (sane : w.Sane) {m : Move} (h : w.next? = some m) :
    (w.make m).effort < w.effort := by
  have alone := sane.alone
  cases coming_of_next? alone h with
  | @lane key l moved there act =>
    have step : w.laneStep? key = some moved := Option.bind_eq_some_iff.mpr ⟨l, there, act⟩
    simp only [make, step]
    exact effort_update alone there (Lane.effort_act? act)
  | @watch v waits =>
    have fewer := List.length_erase_of_mem waits
    have some := List.length_pos_of_mem waits
    have before := w.effort_eq alone
    have after : (w.make (.watch v)).effort = total w.hub.efforts + (w.watches.erase v).length +
        total (w.sweepers.map (·.2.effort w.now)) := World.effort_eq _ alone
    omega
  | @orphan key l there unaware =>
    have at_key : w.hub.efforts[key]? = some l.effort := by
      simp only [Hub.efforts, List.getElem?_map]
      exact congrArg (Option.map Lane.effort) there
    have less : Lane.effort { l with session := { l.session with orphaned := true } } < l.effort := by
      simp [Lane.effort, unaware]
    have set : (w.make (.orphan key)).hub.efforts = w.hub.efforts.set key
        (Lane.effort { l with session := { l.session with orphaned := true } }) := by
      simp [make, Hub.efforts, List.modify_eq_set_getElem?, List.map_set,
        show w.hub.lanes[key]? = some l from there]
    have fewer := total_set_lt at_key less
    have before := w.effort_eq alone
    have after : (w.make (.orphan key)).effort = total (w.make (.orphan key)).hub.efforts +
        w.watches.length + total (w.sweepers.map (·.2.effort w.now)) := World.effort_eq _ alone
    rw [set] at after
    omega
  | ring ringsFor due =>
    cases ringsFor with
    | writer there alarm =>
      simp only [make, ring, there]
      exact effort_update alone there (Lane.effort_ring alarm w.now)
    | waiter there waits =>
      simp only [make, ring, there]
      exact effort_update alone there (Lane.effort_lapse (Session.isWaiting_of_mem waits))
    | @sweeper name s i loop there at_i same =>
      have periodic : 0 < s.period :=
        sane.periodic (name, s) there (List.ne_nil_of_mem (List.mem_of_getElem? at_i))
      -- a sweep closes sessions, which leaves a lane as much to do: it is the loop that has less
      have fewer := Sweeper.effort_ticked at_i (same ▸ due) periodic
      obtain ⟨found, fewer⟩ := sweeper_set sane.named there fewer
      have before := w.effort_eq alone
      have after : (w.make (.ring (.sweeper name i))).effort =
          total (w.hub.sweepIdle s.maxIdle w.now).1.efforts + w.watches.length +
            total ((w.sweepers.map fun p => (p.1, if p.1 == name then s.ticked i w.now else p.2)).map
              (·.2.effort w.now)) := by
        simp only [make, ring, found]
        exact World.effort_eq _ alone
      rw [Hub.sweepIdle, Hub.efforts_removeWhere] at after
      omega

theorem sane_make {w : World} (sane : w.Sane) {m : Move} (h : w.next? = some m) :
    (w.make m).Sane ∧ (w.make m).now = w.now := by
  have updated (key : Key) (moved : Lane × List Notice) :
      (w.update key moved).Sane ∧ (w.update key moved).now = w.now := by
    have told := told_deliverAll (w := { w with hub := w.hub.setLane key moved.1 }) sane.alone key
      moved.2
    exact ⟨⟨told.visitors.trans sane.alone, by rw [update, told.sweepers]; exact sane.named,
      by rw [update, told.sweepers]; exact sane.periodic⟩, told.now⟩
  cases coming_of_next? sane.alone h with
  | lane there act =>
    simp only [make]
    split
    · exact updated _ _
    · exact ⟨sane, rfl⟩
  | watch waits => exact ⟨⟨sane.alone, sane.named, sane.periodic⟩, rfl⟩
  | orphan there unaware => exact ⟨⟨sane.alone, sane.named, sane.periodic⟩, rfl⟩
  | ring ringsFor due =>
    cases ringsFor with
    | writer there alarm =>
      simp only [make, ring, there]
      exact updated _ _
    | waiter there waits =>
      simp only [make, ring, there]
      exact updated _ _
    | @sweeper name _ i _ _ _ _ =>
      simp only [make, ring]
      split
      · rename_i s found
        refine ⟨⟨sane.alone, ?_, ?_⟩, rfl⟩
        · simp only [List.map_map, Function.comp_def]
          exact sane.named
        · intro p member loops
          obtain ⟨⟨n, t⟩, old, rfl⟩ := List.mem_map.mp member
          by_cases own : n = name
          · obtain ⟨_, _, split, _⟩ := List.lookup_eq_some_iff.mp found
            have here : (name, s) ∈ w.sweepers := by simp [split]
            simp only [own, beq_self_eq_true, if_true, Sweeper.ticked, ne_eq,
              List.modify_eq_nil_iff] at loops ⊢
            exact sane.periodic (name, s) here loops
          · simp only [beq_iff_eq, own, if_false] at loops ⊢
            exact sane.periodic (n, t) old loops
      · exact ⟨sane, rfl⟩

/-- A world makes its moves until it has no more. -/
inductive Settles : World → World → Prop
  | still {w : World} (h : w.next? = none) : Settles w w
  | move {w v : World} {m : Move} (h : w.next? = some m) (rest : Settles (w.make m) v) : Settles w v

theorem settles_settleFor (fuel : Nat) {w : World} (sane : w.Sane) (enough : w.effort ≤ fuel) :
    Settles w (w.settleFor fuel) := by
  induction fuel generalizing w with
  | zero =>
    cases next : w.next? with
    | none => exact .still next
    | some m =>
      have less := effort_make sane next
      omega
  | succ fuel ih =>
    unfold settleFor step?
    cases next : w.next? with
    | none => exact .still next
    | some m =>
      have less := effort_make sane next
      exact .move next (ih (sane_make sane next).1 (by omega))

theorem settles_settle {w : World} (sane : w.Sane) : Settles w w.settle :=
  settles_settleFor w.effort sane (Nat.le_refl _)

theorem Settles.settled {w v : World} (h : Settles w v) (sane : w.Sane) :
    v.next? = none ∧ v.now = w.now ∧ v.Sane := by
  induction h with
  | still none => exact ⟨none, rfl, sane⟩
  | move next _ ih =>
    obtain ⟨sane', now⟩ := sane_make sane next
    obtain ⟨none, later, sane''⟩ := ih sane'
    exact ⟨none, later.trans now, sane''⟩

theorem alarm_later {w : World} (settled : w.next? = none) {a : Alarm × Bell} (there : a ∈ w.alarms) :
    w.now < a.1.due := by
  obtain ⟨first, earliest⟩ := exists_earliest? there
  have least := earliest?_le earliest there
  by_contra due
  unfold next? at settled
  simp only [Option.orElse_eq_none, Option.map_eq_none_iff, earliest, Option.filter_some] at settled
  have late := settled.2.2.2.2
  simp only [ite_eq_right_iff, reduceCtorEq, imp_false, decide_eq_true_eq] at late
  omega

/-- Time passes up to an instant, from one alarm to the next. -/
inductive Passes (target : Nat) : World → World → Prop
  | arrive {w v : World} (none : ∀ a, earliest? w.alarms = some a → target < a.1.due)
      (rest : Settles { w with now := target } v) : Passes target w v
  | ring {w u v : World} {a : Alarm × Bell} (first : earliest? w.alarms = some a)
      (due : a.1.due ≤ target) (moves : Settles { w with now := a.1.due } u)
      (rest : Passes target u v) : Passes target w v

theorem sane_now {w : World} (sane : w.Sane) (now : Nat) : Sane { w with now } :=
  ⟨sane.alone, sane.named, sane.periodic⟩

theorem passes_advanceTo {w : World} (sane : w.Sane) (settled : w.next? = none) {target fuel : Nat}
    (past : w.now ≤ target) (enough : target < w.now + fuel) :
    Passes target w (w.advanceTo target fuel) := by
  induction fuel generalizing w with
  | zero => omega
  | succ fuel ih =>
    unfold advanceTo
    cases first : earliest? w.alarms with
    | none =>
      exact .arrive (by simp [first]) (settles_settle (sane_now sane target))
    | some a =>
      by_cases due : a.1.due ≤ target
      · have later := alarm_later settled (earliest?_mem first)
        have instant : max w.now a.1.due = a.1.due := by omega
        have moves := settles_settle (sane_now sane a.1.due)
        obtain ⟨none, now, sane'⟩ := moves.settled (sane_now sane a.1.due)
        simp only [due, if_true, instant]
        refine .ring first due moves (ih sane' none ?_ ?_)
        · rw [now]
          exact due
        · rw [now]
          simp only
          omega
      · simp only [due, if_false]
        refine .arrive ?_ (settles_settle (sane_now sane target))
        intro b same
        obtain rfl := Option.some.inj (first.symm.trans same)
        omega

theorem passes_advance {w : World} (sane : w.Sane) (settled : w.next? = none) (ms : Nat) :
    Passes (w.now + ms) w (w.advance ms) :=
  passes_advanceTo sane settled (by omega) (by omega)

theorem Passes.settled {target : Nat} {w v : World} (h : Passes target w v) (sane : w.Sane) :
    v.next? = none ∧ v.now = target ∧ v.Sane := by
  induction h with
  | arrive _ rest => exact rest.settled (sane_now sane target)
  | ring _ _ moves _ ih => exact ih (moves.settled (sane_now sane _)).2.2

end World

end Scenario

end Courier
