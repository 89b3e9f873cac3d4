import Courier.Proofs.Scenario.Alike

set_option autoImplicit false

namespace Courier.Scenario

@[simp]
def World.Bell.key? : World.Bell → Option Key
  | .writer key => some key
  | .waiter key _ => some key
  | .sweeper _ _ => none

namespace World

variable {A : SessionId} {own : String → Bool}

/-- The best of all alarms, and the best of a part: they are the same, or the first is not in the
part and nothing in it comes before. -/
inductive Ahead (p : Alarm × Bell → Bool) : Option (Alarm × Bell) → Option (Alarm × Bell) → Prop
  | none : Ahead p none none
  | same (b : Alarm × Bell) (on : p b = true) : Ahead p (some b) (some b)
  | first (b : Alarm × Bell) (off : p b = false) : Ahead p (some b) none
  | ahead (b c : Alarm × Bell) (off : p b = false) (on : p c = true)
      (later : c.1.before b.1 = false) : Ahead p (some b) (some c)

theorem Ahead.off {p : Alarm × Bell → Bool} {best best' : Option (Alarm × Bell)}
    (h : Ahead p best best') {a : Alarm × Bell} (out : p a = false) :
    Ahead p (sooner best a) best' := by
  cases h with
  | none => exact .first a out
  | same b on =>
    cases before : a.1.before b.1 with
    | true => simpa [sooner, before] using Ahead.ahead a b out on (not_before before)
    | false => simpa [sooner, before] using Ahead.same b on
  | first b off =>
    cases before : a.1.before b.1 with
    | true => simpa [sooner, before] using Ahead.first a out
    | false => simpa [sooner, before] using Ahead.first b off
  | ahead b c off on later =>
    cases before : a.1.before b.1 with
    | true =>
      have after : c.1.before a.1 = false := by
        by_contra sooner
        rw [Bool.not_eq_false] at sooner
        simp [before_trans sooner before] at later
      simpa [sooner, before] using Ahead.ahead a c out on after
    | false => simpa [sooner, before] using Ahead.ahead b c off on later

theorem Ahead.on {p : Alarm × Bell → Bool} {best best' : Option (Alarm × Bell)}
    (h : Ahead p best best') {a : Alarm × Bell} (within : p a = true) :
    Ahead p (sooner best a) (sooner best' a) := by
  cases h with
  | none => exact .same a within
  | same b on =>
    cases before : a.1.before b.1 with
    | true => simpa [sooner, before] using Ahead.same a within
    | false => simpa [sooner, before] using Ahead.same b on
  | first b off =>
    cases before : a.1.before b.1 with
    | true => simpa [sooner, before] using Ahead.same a within
    | false => simpa [sooner, before] using Ahead.ahead b a off within before
  | ahead b c off on later =>
    cases before : a.1.before b.1 with
    | true => simpa [sooner, before, before_of_not before later] using Ahead.same a within
    | false =>
      cases between : a.1.before c.1 with
      | true => simpa [sooner, before, between] using Ahead.ahead b a off within before
      | false => simpa [sooner, before, between] using Ahead.ahead b c off on later

theorem earliest?_filter {alarms : List (Alarm × Bell)} {a : Alarm × Bell}
    (h : earliest? alarms = some a) {p : Alarm × Bell → Bool} (within : p a = true) :
    earliest? (alarms.filter p) = some a := by
  have related : Ahead p (earliest? alarms) (earliest? (alarms.filter p)) := by
    refine foldl_related (Ahead p) p (by simp) ?_ ?_ ?_ .none
    · exact fun _ _ _ _ out related => related.off out
    · intro _ _ b there out
      simp [(List.mem_filter.mp there).2] at out
    · exact fun _ _ _ _ within related => related.on within
  rw [h] at related
  generalize earliest? (alarms.filter p) = part at related ⊢
  cases related with
  | same => rfl
  | first _ off => simp [within] at off
  | ahead _ _ off => simp [within] at off

def isOther (A : SessionId) (w : World) (key : Key) : Bool := w.hub.idOf? key != some A

def rings (A : SessionId) (w : World) (a : Alarm × Bell) : Bool := a.2.key?.all (w.isOther A)

def isOwn (A : SessionId) (w : World) : Move → Bool
  | .lane key => !w.isOther A key
  | .visitor _ => false
  | .watch v => v.id == A
  | .orphan key => !w.isOther A key
  | .ring b => !b.key?.all (w.isOther A)

def nextOther? (A : SessionId) (w : World) : Option Move :=
  (w.keys.find? fun key => w.isOther A key && (w.laneStep? key).isSome).map .lane <|>
  (w.watches.find? fun v => v.id != A && w.isOver v).map .watch <|>
  (w.keys.find? fun key => w.isOther A key && w.isLeft key).map .orphan <|>
  ((earliest? (w.alarms.filter (w.rings A))).filter (·.1.due ≤ w.now)).map fun a => .ring a.2

theorem find?_and {α : Type} {l : List α} {p : α → Bool} (q : α → Bool) {a : α}
    (found : l.find? p = some a) (on : q a = true) : (l.find? fun a => q a && p a) = some a := by
  induction l with
  | nil => simp at found
  | cons b l ih =>
    by_cases here : p b = true
    · rw [List.find?_cons_of_pos here, Option.some.injEq] at found
      subst found
      simp [on, here]
    · rw [List.find?_cons_of_neg here] at found
      rw [List.find?_cons_of_neg (by simp [here])]
      exact ih found

theorem find?_and_none {α : Type} {l : List α} {p : α → Bool} (q : α → Bool)
    (absent : l.find? p = none) : (l.find? fun a => q a && p a) = none := by
  rw [List.find?_eq_none] at absent ⊢
  intro a there both
  exact absent a there (Bool.and_eq_true_iff.mp both).2

theorem find?_and_filter {α : Type} (l : List α) (p q : α → Bool) :
    (l.find? fun a => q a && p a) = (l.filter q).find? p := by
  induction l with
  | nil => rfl
  | cons a l ih =>
    cases kept : q a with
    | true =>
      rw [List.filter_cons_of_pos kept, List.find?_cons, List.find?_cons, ih, kept, Bool.true_and]
    | false =>
      rw [List.filter_cons_of_neg (by simp [kept]), List.find?_cons, ih, kept, Bool.false_and]

theorem find?_congr_mem {α : Type} {l : List α} {p q : α → Bool} (same : ∀ a ∈ l, p a = q a) :
    l.find? p = l.find? q := by
  induction l with
  | nil => rfl
  | cons a l ih =>
    rw [List.find?_cons, List.find?_cons, same a List.mem_cons_self,
      ih fun b there => same b (List.mem_cons_of_mem a there)]

/-- The next move belongs to the id, or is the next one of the other sessions. -/
theorem next?_some {w : World} (alone : w.visitors = []) {m : Move} (h : w.next? = some m) :
    w.isOwn A m = true ∨ w.nextOther? A = some m := by
  by_cases mine : w.isOwn A m = true
  · exact .inl mine
  right
  rw [Bool.not_eq_true] at mine
  unfold next? at h
  unfold nextOther?
  -- the choices in their order: a kind from which the next move does not come has none for the
  -- other sessions either
  rcases (Option.orElse_eq_some _ _ _).mp h with lane | ⟨noLane, h⟩
  · obtain ⟨key, found, rfl⟩ := Option.map_eq_some_iff.mp lane
    have other : w.isOther A key = true := by simpa [isOwn] using mine
    exact (Option.orElse_eq_some _ _ _).mpr (.inl (by rw [find?_and _ found other]; rfl))
  have noLane := find?_and_none (w.isOther A) (Option.map_eq_none_iff.mp noLane)
  rw [noLane]
  refine (Option.orElse_eq_some _ _ _).mpr (.inr ⟨rfl, ?_⟩)
  rcases (Option.orElse_eq_some _ _ _).mp h with visitor | ⟨_, h⟩
  · simp [alone] at visitor
  rcases (Option.orElse_eq_some _ _ _).mp h with watch | ⟨noWatch, h⟩
  · obtain ⟨v, found, rfl⟩ := Option.map_eq_some_iff.mp watch
    have other : (v.id != A) = true := by simpa [isOwn] using mine
    exact (Option.orElse_eq_some _ _ _).mpr
      (.inl (by rw [find?_and (fun v : Watch => v.id != A) found other]; rfl))
  have noWatch := find?_and_none (fun v : Watch => v.id != A) (Option.map_eq_none_iff.mp noWatch)
  rw [noWatch]
  refine (Option.orElse_eq_some _ _ _).mpr (.inr ⟨rfl, ?_⟩)
  rcases (Option.orElse_eq_some _ _ _).mp h with orphan | ⟨noOrphan, alarm⟩
  · obtain ⟨key, found, rfl⟩ := Option.map_eq_some_iff.mp orphan
    have other : w.isOther A key = true := by simpa [isOwn] using mine
    exact (Option.orElse_eq_some _ _ _).mpr (.inl (by rw [find?_and _ found other]; rfl))
  have noOrphan := find?_and_none (w.isOther A) (Option.map_eq_none_iff.mp noOrphan)
  rw [noOrphan]
  refine (Option.orElse_eq_some _ _ _).mpr (.inr ⟨rfl, ?_⟩)
  obtain ⟨a, found, rfl⟩ := Option.map_eq_some_iff.mp alarm
  obtain ⟨first, due⟩ := Option.filter_eq_some_iff.mp found
  have other : w.rings A a = true := by simpa [isOwn, rings] using mine
  rw [earliest?_filter first other]
  simp [Option.filter_some, show a.1.due ≤ w.now by simpa using due]

theorem next?_none {w : World} (h : w.next? = none) :
    (w.keys.find? fun key => w.isOther A key && (w.laneStep? key).isSome) = none ∧
    (w.watches.find? fun v => v.id != A && w.isOver v) = none ∧
    (w.keys.find? fun key => w.isOther A key && w.isLeft key) = none := by
  unfold next? at h
  simp only [Option.orElse_eq_none, Option.map_eq_none_iff] at h
  obtain ⟨lane, _, watch, orphan, _⟩ := h
  exact ⟨find?_and_none _ lane, find?_and_none (fun v : Watch => v.id != A) watch,
    find?_and_none _ orphan⟩

theorem nextOther?_none {w : World} (h : w.next? = none) {now : Nat}
    (later : ∀ a ∈ w.alarms, w.rings A a = true → now < a.1.due) :
    nextOther? A { w with now } = none := by
  obtain ⟨lane, watch, orphan⟩ := next?_none (A := A) h
  have same (key : Key) : (laneStep? { w with now } key).isSome = (w.laneStep? key).isSome := by
    simp only [laneStep?]
    cases w.hub.lane? key with
    | none => rfl
    | some l => exact l.act?_isSome now w.now
  have quiet : (keys { w with now }).find? (fun key => isOther A { w with now } key &&
      (laneStep? { w with now } key).isSome) = none := by
    simp only [same]
    exact lane
  unfold nextOther?
  rw [quiet]
  simp only [Option.orElse_eq_none, Option.map_eq_none_iff]
  refine ⟨trivial, watch, orphan, ?_⟩
  change (earliest? (w.alarms.filter (w.rings A))).filter (fun a => decide (a.1.due ≤ now)) = none
  rw [Option.filter_eq_none_iff]
  intro a first
  obtain ⟨there, rings⟩ := List.mem_filter.mp (earliest?_mem first)
  have after := later a there rings
  simp only [decide_eq_true_eq]
  omega

theorem Alike.isOther {w w' : World} (alike : Alike A own w w') (key : Key) :
    w.isOther A key = w'.isOther A key := by
  rw [World.isOther, World.isOther, alike.hub.idOf]

theorem Alike.lane {w w' : World} (alike : Alike A own w w') {key : Key}
    (other : w.isOther A key = true) : w.hub.lane? key = w'.hub.lane? key :=
  alike.hub.lane (by simpa [World.isOther] using other)

theorem Alike.keys {w w' : World} (alike : Alike A own w w') : w.keys = w'.keys := by
  rw [World.keys, World.keys, alike.hub.length]

theorem any_filter_imp {α : Type} {l : List α} {p q : α → Bool}
    (imp : ∀ a ∈ l, p a = true → q a = true) : l.any p = (l.filter q).any p := by
  rw [Bool.eq_iff_iff, List.any_eq_true, List.any_eq_true]
  constructor
  · rintro ⟨a, there, on⟩
    exact ⟨a, List.mem_filter.mpr ⟨there, imp a there on⟩, on⟩
  · rintro ⟨a, there, on⟩
    exact ⟨a, List.mem_of_mem_filter there, on⟩

theorem Alike.isHeld {w w' : World} (alike : Alike A own w w') {key : Key}
    (other : w.isOther A key = true) : w.isHeld key = w'.isHeld key := by
  have other' : w'.isOther A key = true := alike.isOther key ▸ other
  have handles {v : World} (named : Named A own v.hub v.handles) (at_key : v.isOther A key = true) :
      v.handles.any (·.2 == key) = (v.handles.filter fun b => !own b.1).any (·.2 == key) := by
    refine any_filter_imp fun b there here => ?_
    obtain ⟨id, lane, iff⟩ := named b there
    have apart : id ≠ A := by simpa [World.isOther, ← beq_iff_eq.mp here, lane] using at_key
    simpa using fun mine => apart (iff.mp mine)
  have others {α : Type} {place : α → Key} {id : α → SessionId} {v : World} {things : List α}
      (wired : Hub.Matches place id v.hub things) (at_key : v.isOther A key = true) :
      things.any (place · == key) = (things.filter (id · != A)).any (place · == key) := by
    refine any_filter_imp fun a there here => ?_
    simpa [World.isOther, ← beq_iff_eq.mp here, wired a there] using at_key
  unfold World.isHeld
  rw [handles alike.handlesNamed other, handles alike.otherHandlesNamed other',
    others alike.hub.wired other, others alike.hub.otherWired other', others alike.callsWired other,
    others alike.otherCallsWired other', others alike.watchesWired other,
    others alike.otherWatchesWired other', alike.handles, alike.hub.entries, alike.calls,
    alike.watches, alike.alone, alike.otherAlone]

theorem Alike.laneAlarms {w w' : World} (alike : Alike A own w w') (key : Key) :
    (w.laneAlarms key).filter (w.rings A) = (w'.laneAlarms key).filter (w'.rings A) := by
  have ringing (v : World) (a : Alarm × Bell) (there : a ∈ v.laneAlarms key) :
      v.rings A a = v.isOther A key := by
    unfold World.laneAlarms at there
    cases lane : v.hub.lane? key with
    | none => simp [lane] at there
    | some l =>
      simp only [lane, List.mem_append, Option.mem_toList, Option.map_eq_some_iff,
        List.mem_map] at there
      rcases there with ⟨_, _, rfl⟩ | ⟨_, _, rfl⟩ <;> rfl
  by_cases other : w.isOther A key = true
  · have other' : w'.isOther A key = true := alike.isOther key ▸ other
    rw [List.filter_eq_self.mpr fun a there => (ringing w a there).trans other,
      List.filter_eq_self.mpr fun a there => (ringing w' a there).trans other',
      World.laneAlarms, World.laneAlarms, alike.lane other]
  · have mine : w'.isOther A key = false := by
      rw [← alike.isOther key]
      simpa using other
    rw [List.filter_eq_nil_iff.mpr fun a there => by rw [ringing w a there]; exact other,
      List.filter_eq_nil_iff.mpr fun a there => by rw [ringing w' a there, mine]; simp]

theorem Alike.alarms {w w' : World} (alike : Alike A own w w') :
    w.alarms.filter (w.rings A) = w'.alarms.filter (w'.rings A) := by
  unfold World.alarms
  rw [List.filter_append, List.filter_append, alike.sweepers, alike.keys]
  congr 1
  · rw [List.filter_flatMap, List.filter_flatMap]
    exact List.flatMap_congr fun key _ => alike.laneAlarms key
  · refine List.filter_congr fun a there => ?_
    obtain ⟨⟨name, s⟩, _, there⟩ := List.mem_flatMap.mp there
    obtain ⟨_, _, rfl⟩ := List.mem_map.mp there
    rfl

theorem Alike.nextOther? {w w' : World} (alike : Alike A own w w') (now : w.now = w'.now) :
    w.nextOther? A = w'.nextOther? A := by
  have lanes (key : Key) : (w.isOther A key && (w.laneStep? key).isSome) =
      (w'.isOther A key && (w'.laneStep? key).isSome) := by
    rw [← alike.isOther key]
    cases other : w.isOther A key with
    | false => rfl
    | true => rw [laneStep?, laneStep?, alike.lane other, now]
  have orphans (key : Key) : (w.isOther A key && w.isLeft key) =
      (w'.isOther A key && w'.isLeft key) := by
    rw [← alike.isOther key]
    cases other : w.isOther A key with
    | false => rfl
    | true => rw [isLeft, isLeft, alike.isHeld other, alike.lane other]
  have watches : (w.watches.find? fun v => v.id != A && w.isOver v) =
      w'.watches.find? fun v => v.id != A && w'.isOver v := by
    rw [find?_and_filter, find?_and_filter, ← alike.watches]
    refine find?_congr_mem fun v there => ?_
    obtain ⟨there, other⟩ := List.mem_filter.mp there
    have lane : w.isOther A v.key = true := by
      simpa [World.isOther, alike.watchesWired v there] using other
    rw [isOver, isOver, alike.lane lane]
  unfold World.nextOther?
  simp only [lanes, orphans, watches, alike.keys, alike.alarms, now]

theorem Alike.isOwn {w w' : World} (alike : Alike A own w w') (m : Move) :
    w.isOwn A m = w'.isOwn A m := by
  have others : w.isOther A = w'.isOther A := funext alike.isOther
  cases m <;> simp only [World.isOwn, others]

theorem filter_erase_own {α : Type} [DecidableEq α] {l : List α} {a : α} {q : α → Bool}
    (off : q a = false) : (l.erase a).filter q = l.filter q := by
  induction l with
  | nil => rfl
  | cons b l ih =>
    by_cases same : b = a
    · simp [same, off]
    · rw [List.erase_cons_tail (by simpa using same)]
      by_cases kept : q b = true
      · rw [List.filter_cons_of_pos kept, List.filter_cons_of_pos kept, ih]
      · rw [List.filter_cons_of_neg kept, List.filter_cons_of_neg kept, ih]

theorem filter_erase {α : Type} [DecidableEq α] {l : List α} {a : α} {q : α → Bool}
    (on : q a = true) : (l.erase a).filter q = (l.filter q).erase a := by
  induction l with
  | nil => rfl
  | cons b l ih =>
    by_cases same : b = a
    · simp [same, on]
    · rw [List.erase_cons_tail (by simpa using same)]
      by_cases kept : q b = true
      · rw [List.filter_cons_of_pos kept, List.filter_cons_of_pos kept, ih,
          List.erase_cons_tail (by simpa using same)]
      · rw [List.filter_cons_of_neg kept, List.filter_cons_of_neg kept, ih]

theorem lane_own {w : World} {key : Key} {l : Lane} (lane : w.hub.lane? key = some l) :
    w.isOther A key = decide (l.id ≠ A) := by
  by_cases mine : l.id = A <;> simp [World.isOther, Hub.idOf_of_lane lane, mine]

theorem Alike.make_own {w w' : World} (alike : Alike A own w w') {m : Move} (h : w.next? = some m)
    (mine : w.isOwn A m = true) : Alike A own (w.make m) w' := by
  cases coming_of_next? alike.alone h with
  | @lane key l moved lane act =>
    have step : w.laneStep? key = some moved := Option.bind_eq_some_iff.mpr ⟨l, lane, act⟩
    have own_lane : l.id = A := by simpa [World.isOwn, lane_own lane] using mine
    simp only [make, step]
    exact alike.update_own lane own_lane (Lane.act?_moves act).id
  | @watch v waits =>
    have own_watch : v.id = A := by simpa [World.isOwn] using mine
    refine Alike.finish_own ?_ v.tag (by simp [own_watch]) _
    refine { alike with
      watches := ?_
      watchesWired := alike.watchesWired.sublist List.erase_sublist }
    rw [← alike.watches]
    exact filter_erase_own (by simp [own_watch])
  | @orphan key l lane unaware =>
    have own_lane : l.id = A := by simpa [World.isOwn, lane_own lane] using mine
    have at_key : w.hub.idOf? key = some A := own_lane ▸ Hub.idOf_of_lane lane
    exact alike.modify_own at_key _ fun _ _ => rfl
  | ring ringsFor due =>
    cases ringsFor with
    | @writer key l lane alarm =>
      have own_lane : l.id = A := by simpa [World.isOwn, lane_own lane] using mine
      simp only [make, ring, lane]
      exact alike.update_own lane own_lane (l.ring_moves w.now).id
    | @waiter key l v lane waits =>
      have own_lane : l.id = A := by simpa [World.isOwn, lane_own lane] using mine
      simp only [make, ring, lane]
      exact alike.update_own lane own_lane (Lane.lapse_moves (Session.isWaiting_of_mem waits)).id
    | sweeper => simp [World.isOwn] at mine

theorem Alike.make {w w' : World} (alike : Alike A own w w') (now : w.now = w'.now) {m : Move}
    (h : w.next? = some m) (other : w.isOwn A m = false) :
    Alike A own (w.make m) (w'.make m) := by
  cases coming_of_next? alike.alone h with
  | @lane key l moved lane act =>
    have apart : w.isOther A key = true := by simpa [World.isOwn] using other
    have step : w.laneStep? key = some moved := Option.bind_eq_some_iff.mpr ⟨l, lane, act⟩
    have step' : w'.laneStep? key = some moved := by
      rw [← step, laneStep?, laneStep?, alike.lane apart, now]
    simp only [World.make, step, step']
    exact alike.update lane (by simpa [lane_own lane] using apart) (Lane.act?_moves act).id
  | @watch v waits =>
    have apart : (v.id != A) = true := by simpa [World.isOwn, bne] using other
    refine Alike.finish ?_ v.tag _ _
    have erased (l : List Watch) : (l.erase v).filter (·.id != A) =
        (l.filter (·.id != A)).erase v := filter_erase apart
    refine { alike with
      watches := ?_
      watchesWired := alike.watchesWired.sublist List.erase_sublist
      otherWatchesWired := alike.otherWatchesWired.sublist List.erase_sublist }
    simp only
    rw [erased, erased, alike.watches]
  | @orphan key l lane unaware => exact alike.modify key _ fun _ => rfl
  | ring ringsFor due =>
    cases ringsFor with
    | @writer key l lane alarm =>
      have apart : w.isOther A key = true := by simpa [World.isOwn] using other
      have lane' : w'.hub.lane? key = some l := alike.lane apart ▸ lane
      simp only [World.make, ring, lane, lane', now]
      exact alike.update lane (by simpa [lane_own lane] using apart) (l.ring_moves w'.now).id
    | @waiter key l v lane waits =>
      have apart : w.isOther A key = true := by simpa [World.isOwn] using other
      have lane' : w'.hub.lane? key = some l := alike.lane apart ▸ lane
      simp only [World.make, ring, lane, lane']
      exact alike.update lane (by simpa [lane_own lane] using apart)
        (Lane.lapse_moves (Session.isWaiting_of_mem waits)).id
    | sweeper =>
      simp only [World.make, ring, ← alike.sweepers, ← now]
      split
      · rename_i s found
        have swept := alike.hub_both (alike.hub.sweepIdle s.maxIdle w.now)
          (w.hub.change_removeWhere _).follows.keeps (w'.hub.change_removeWhere _).follows.keeps
        exact { swept with sweepers := rfl }
      · exact alike

theorem Alike.later {w w' : World} (alike : Alike A own w w') {t : Nat}
    (h : ∀ a ∈ w.alarms, w.rings A a = true → t < a.1.due) :
    ∀ a ∈ w'.alarms, w'.rings A a = true → t < a.1.due := by
  intro a there rings
  have both : a ∈ w'.alarms.filter (w'.rings A) := List.mem_filter.mpr ⟨there, rings⟩
  rw [← alike.alarms] at both
  exact h a (List.mem_of_mem_filter both) (List.mem_filter.mp both).2

theorem Settles.unseen {w v w' : World} (h : Settles w v) (sane : w.Sane)
    (alike : Alike A own w w') (now : w.now = w'.now) (quiet : w'.nextOther? A = none) :
    Alike A own v w' := by
  induction h with
  | still _ => exact alike
  | move next _ ih =>
    obtain ⟨sane', same⟩ := sane_make sane next
    rcases next?_some sane.alone next with mine | other
    · exact ih sane' (alike.make_own next mine) (same.trans now)
    · rw [alike.nextOther? now, quiet] at other
      simp at other

theorem nextOther?_still {w : World} (h : w.next? = none) : w.nextOther? A = none :=
  nextOther?_none h fun _ there _ => alarm_later h there

/-- Worlds that are alike at the same time settle to worlds that are alike. -/
theorem Settles.alike {w v : World} (h : Settles w v) {w' v' : World} (h' : Settles w' v')
    (sane : w.Sane) (sane' : w'.Sane) (alike : Alike A own w w') (now : w.now = w'.now) :
    Alike A own v v' := by
  induction h generalizing w' with
  | still none =>
    exact (h'.unseen sane' alike.symm now.symm (nextOther?_still none)).symm
  | @move w v m next rest ih =>
    obtain ⟨later, same⟩ := sane_make sane next
    rcases next?_some sane.alone next with mine | other
    · exact ih h' later sane' (alike.make_own next mine) (same.trans now)
    -- The same move comes in the other world, after moves that are not seen.
    induction h' with
    | still none =>
      rw [alike.nextOther? now, nextOther?_still none] at other
      simp at other
    | @move w' v' m' next' rest' ih' =>
      obtain ⟨later', same'⟩ := sane_make sane' next'
      cases mine' : w'.isOwn A m' with
      | true =>
        exact ih' ih later' (alike.symm.make_own next' mine').symm (now.trans same'.symm)
      | false =>
        have other' := (next?_some (A := A) sane'.alone next').resolve_left (by simp [mine'])
        rw [alike.nextOther? now, other', Option.some.injEq] at other
        subst other
        have apart : w.isOwn A m' = false := by
          rw [← alike.isOwn m'] at mine'
          exact mine'
        refine ih rest' later later' (alike.make now next apart) ?_
        calc (w.make m').now
          _ = w.now := same
          _ = w'.now := now
          _ = (w'.make m').now := same'.symm

theorem Settles.instant {w u w' : World} {t : Nat} (h : Settles { w with now := t } u)
    (sane : w.Sane) (alike : Alike A own w w') (settled' : w'.next? = none)
    (later : ∀ a ∈ w.alarms, w.rings A a = true → t < a.1.due) : Alike A own u w' := by
  have apart : Alike A own { w with now := t } { w' with now := t } := { alike with }
  have quiet := nextOther?_none settled' (alike.later later)
  have unseen := h.unseen (sane_now sane t) apart rfl quiet
  exact { unseen with }

theorem Passes.meets {target t : Nat} {w' v' : World} (h : Passes target w' v') {w u v : World}
    (alike : Alike A own w w') (sane : w.Sane) (sane' : w'.Sane) (settled : w.next? = none)
    (settled' : w'.next? = none) (moves : Settles { w with now := t } u) (due : t ≤ target)
    {b : Alarm × Bell} (there : b ∈ w.alarms) (rings : w.rings A b = true) (now : b.1.due = t)
    (least : ∀ a ∈ w.alarms, t ≤ a.1.due)
    (after : ∀ w', Passes target w' v' → Alike A own u w' → w'.Sane → w'.next? = none →
      Alike A own v v') : Alike A own v v' := by
  induction h with
  | @arrive w' v' none _ =>
    have both : b ∈ w.alarms.filter (w.rings A) := List.mem_filter.mpr ⟨there, rings⟩
    rw [alike.alarms] at both
    have there' := List.mem_of_mem_filter both
    obtain ⟨first, earliest⟩ := exists_earliest? there'
    have late := none first earliest
    have least := earliest?_le earliest there'
    omega
  | @ring w' u' v' a' first' due' moves' rest' ih =>
    have both : b ∈ w.alarms.filter (w.rings A) := List.mem_filter.mpr ⟨there, rings⟩
    rw [alike.alarms] at both
    have le := earliest?_le first' (List.mem_of_mem_filter both)
    obtain ⟨none', _, sane''⟩ := moves'.settled (sane_now sane' _)
    by_cases sooner : a'.1.due < t
    · have later : ∀ a ∈ w.alarms, w.rings A a = true → a'.1.due < a.1.due := by
        intro a there _
        have least := least a there
        omega
      have unseen := moves'.instant sane' alike.symm settled (alike.later later)
      exact ih unseen.symm sane'' none' after
    · have instant : a'.1.due = t := by omega
      rw [instant] at moves'
      have apart : Alike A own { w with now := t } { w' with now := t } := { alike with }
      have together := moves.alike moves' (sane_now sane t) (sane_now sane' t) apart rfl
      exact after u' rest' together sane'' none'

theorem Passes.alike {target : Nat} {w v : World} (h : Passes target w v) {w' v' : World}
    (h' : Passes target w' v') (sane : w.Sane) (sane' : w'.Sane) (settled : w.next? = none)
    (settled' : w'.next? = none) (alike : Alike A own w w') : Alike A own v v' := by
  induction h generalizing w' with
  | @arrive w v none rest =>
    have late : ∀ a ∈ w.alarms, target < a.1.due := by
      intro a there
      obtain ⟨first, earliest⟩ := exists_earliest? there
      have after := none first earliest
      have least := earliest?_le earliest there
      omega
    -- nothing is due in the first world, so whatever rings in the other one belongs to the id
    induction h' with
    | @arrive w' v' none' rest' =>
      have apart : Alike A own { w with now := target } { w' with now := target } :=
        { alike with }
      exact rest.alike rest' (sane_now sane target) (sane_now sane' target) apart rfl
    | @ring w' u' v' a' first' due' moves' rest' ih =>
      obtain ⟨none', _, sane''⟩ := moves'.settled (sane_now sane' _)
      have later : ∀ a ∈ w.alarms, w.rings A a = true → a'.1.due < a.1.due := by
        intro a there _
        have after := late a there
        omega
      have unseen := moves'.instant sane' alike.symm settled (alike.later later)
      exact ih sane'' none' unseen.symm
  | @ring w u v a first due moves rest ih =>
    obtain ⟨none, _, later⟩ := moves.settled (sane_now sane _)
    -- alarms of both kinds may be due at one instant, so it matters whether any of them is of
    -- another session, not which of them comes first
    by_cases shared : ∃ b ∈ w.alarms, w.rings A b = true ∧ b.1.due = a.1.due
    · obtain ⟨b, there, rings, now⟩ := shared
      exact h'.meets alike sane sane' settled settled' moves due there rings now
        (fun _ there => earliest?_le first there)
        fun w' passes together sane'' none' => ih passes later sane'' none none' together
    · have after : ∀ b ∈ w.alarms, w.rings A b = true → a.1.due < b.1.due := by
        intro b there rings
        have le := earliest?_le first there
        have apart : b.1.due ≠ a.1.due := fun same => shared ⟨b, there, rings, same⟩
        omega
      exact ih h' later sane' none settled' (moves.instant sane alike settled' after)

end World

end Courier.Scenario
