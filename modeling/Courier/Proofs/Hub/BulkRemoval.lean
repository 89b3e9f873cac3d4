import Courier.Proofs.Hub.Registration

set_option autoImplicit false

namespace Courier.Hub

/-- An entry that goes, with the lane it is of and why. -/
structure Removal where
  entry : Entry
  lane : Lane
  reason : Reason

def Removal.event (r : Removal) : Event :=
  .removed r.entry.id r.reason r.lane.session.sequence

/-- From `h` to `h'` exactly the entries went that had a reason, and nothing else was changed. -/
structure Clears (due : Removal → Prop) (h h' : Hub) (gone : List Removal) : Prop where
  exact : ∀ r : Removal,
    r ∈ gone ↔ r.entry ∈ h.entries ∧ h.lane? r.entry.key = some r.lane ∧ due r
  once : (gone.map (·.entry.id)).Nodup
  events : h'.journal = h.journal ++ gone.map Removal.event
  closed : ∀ r ∈ gone, h'.lane? r.entry.key = some { r.lane with session := r.lane.session.close } ∧
    h'.isLive r.entry.key = false ∧ h'.Closed r.entry.key
  entries : h'.entries = h.entries.filter fun e => e.id ∉ gone.map (·.entry.id)
  others : ∀ key, (∀ r ∈ gone, r.entry.key ≠ key) → h'.lane? key = h.lane? key
  length : h'.lanes.length = h.lanes.length
  config : h'.config = h.config

theorem Sound.key_ne {h : Hub} (sound : h.Sound) {e e' : Entry} (member : e ∈ h.entries)
    (member' : e' ∈ h.entries) (apart : e.id ≠ e'.id) : e.key ≠ e'.key := by
  intro same
  have own := sound.wired e member
  rw [same, sound.wired e' member', Option.some.injEq] at own
  exact apart own.symm

theorem lane?_takeOut (h : Hub) (e : Entry) (reason : Reason) (key : Key) :
    (h.takeOut e reason).lane? key =
      (h.lane? key).map fun l => if e.key = key then { l with session := l.session.close } else l :=
  lane?_modify { h with entries := _ } e.key _ key

theorem journal_takeOut (h : Hub) (e : Entry) (reason : Reason) :
    (h.takeOut e reason).journal = h.journal ++ [.removed e.id reason (h.sent e.key)] := by
  change h.journal ++ [.removed e.id reason ((Hub.close { h with entries := _ } e.key).1.sent e.key)] = _
  rw [sent_close]
  rfl

theorem sent_lane {h : Hub} {key : Key} {l : Lane} (lane : h.lane? key = some l) :
    h.sent key = l.session.sequence := by
  rw [sent, lane]
  rfl

theorem removeIfSame_entry {h : Hub} (sound : h.Sound) {e : Entry} (member : e ∈ h.entries)
    (reason : Reason) : h.removeIfSame e.id e.key reason = (h.takeOut e reason, true) := by
  simp only [removeIfSame, sound.entry member, beq_self_eq_true, if_true]

theorem remove_entry {h : Hub} (sound : h.Sound) {e : Entry} (member : e ∈ h.entries)
    (reason : Reason) : h.remove e.id reason = (h.takeOut e reason, true) := by
  simp only [remove, sound.entry member]

theorem sound_takeOut {h : Hub} (sound : h.Sound) {e : Entry} (member : e ∈ h.entries)
    (reason : Reason) : (h.takeOut e reason).Sound :=
  Step.sound (a := .closeAll) (.takes e reason (sound.entry member)) sound

theorem Clears.refl (h : Hub) {due : Removal → Prop} (none : ∀ r, r.entry ∈ h.entries →
    h.lane? r.entry.key = some r.lane → ¬ due r) : Clears due h h [] where
  exact r := ⟨fun member => by simp at member, fun ⟨member, lane, is⟩ => absurd is (none r member lane)⟩
  once := List.nodup_nil
  events := (List.append_nil _).symm
  closed r member := by simp at member
  entries := by simp
  others key _ := rfl
  length := rfl
  config := rfl

theorem Clears.congr {h h' : Hub} {due due' : Removal → Prop} {gone : List Removal}
    (clears : Clears due h h' gone) (same : ∀ r : Removal, r.entry ∈ h.entries →
      h.lane? r.entry.key = some r.lane → (due r ↔ due' r)) : Clears due' h h' gone :=
  { clears with
    exact := fun r => (clears.exact r).trans
      (and_congr_right fun member => and_congr_right fun lane => same r member lane) }

/-- An entry goes that has a reason, and then those of the others that have one. -/
theorem Clears.cons {h h' : Hub} (sound : h.Sound) {due : Removal → Prop} {r : Removal}
    {gone : List Removal} (member : r.entry ∈ h.entries) (lane : h.lane? r.entry.key = some r.lane)
    (rest : Clears (fun r' => due r' ∧ r'.entry.id ≠ r.entry.id) (h.takeOut r.entry r.reason) h' gone)
    (own : ∀ r' : Removal, r'.entry = r.entry → h.lane? r.entry.key = some r'.lane →
      (due r' ↔ r' = r)) : Clears due h h' (r :: gone) := by
  have left (e : Entry) : e ∈ (h.takeOut r.entry r.reason).entries ↔
      e ∈ h.entries ∧ e.id ≠ r.entry.id := by
    change e ∈ h.entries.filter _ ↔ _
    simp
  have apart (r' : Removal) (there : r' ∈ gone) :
      r'.entry ∈ h.entries ∧ r'.entry.id ≠ r.entry.id ∧ r.entry.key ≠ r'.entry.key := by
    obtain ⟨there, other⟩ := (left r'.entry).mp ((rest.exact r').mp there).1
    exact ⟨there, other, sound.key_ne member there other.symm⟩
  -- the later removals are of other lanes, so the first one stays as it was closed
  have closed : h'.lane? r.entry.key = some { r.lane with session := r.lane.session.close } := by
    rw [rest.others r.entry.key fun r' there => (apart r' there).2.2.symm, lane?_takeOut, lane,
      Option.map_some, if_pos rfl]
  refine
    { exact := fun r' => ⟨fun there => ?_, fun ⟨there, at_key, why⟩ => ?_⟩
      once := ?_, events := ?_, closed := fun r' there => ?_, entries := ?_
      others := fun key others => ?_, length := ?_, config := rest.config }
  · rcases List.mem_cons.mp there with rfl | later
    · exact ⟨member, lane, (own r' rfl lane).mpr rfl⟩
    · obtain ⟨_, at_key, why, _⟩ := (rest.exact r').mp later
      obtain ⟨there, _, keys⟩ := apart r' later
      rw [lane?_takeOut] at at_key
      simp only [keys, if_false, Option.map_id'] at at_key
      exact ⟨there, at_key, why⟩
  · by_cases same : r'.entry.id = r.entry.id
    · have same : r'.entry = r.entry := sound.unique member (same ▸ sound.entry there)
      exact List.mem_cons.mpr (.inl ((own r' same (same ▸ at_key)).mp why))
    · have keys := sound.key_ne member there (Ne.symm same)
      have at_key' : (h.takeOut r.entry r.reason).lane? r'.entry.key = some r'.lane := by
        rw [lane?_takeOut]
        simp only [keys, if_false, Option.map_id', at_key]
      exact List.mem_cons_of_mem r
        ((rest.exact r').mpr ⟨(left r'.entry).mpr ⟨there, same⟩, at_key', why, same⟩)
  · rw [List.map_cons, List.nodup_cons]
    refine ⟨fun again => ?_, rest.once⟩
    obtain ⟨r', there, same⟩ := List.mem_map.mp again
    exact (apart r' there).2.1 same
  · calc h'.journal
      _ = (h.takeOut r.entry r.reason).journal ++ gone.map Removal.event := rest.events
      _ = (h.journal ++ [r.event]) ++ gone.map Removal.event := by
        rw [journal_takeOut, sent_lane lane, Removal.event]
      _ = h.journal ++ (r :: gone).map Removal.event := List.append_assoc ..
  · rcases List.mem_cons.mp there with rfl | later
    · refine ⟨closed, ?_, _, closed, rfl⟩
      exact (isLive_of_lane closed).trans r'.lane.session.isLive_close
    · exact rest.closed r' later
  · rw [rest.entries]
    change (h.entries.filter _).filter _ = _
    rw [List.filter_filter]
    apply List.filter_congr
    intro e _
    by_cases same : e.id = r.entry.id <;> simp [same]
  · rw [rest.others key fun r' there => others r' (List.mem_cons_of_mem r there), lane?_takeOut]
    simp only [others r List.mem_cons_self, if_false, Option.map_id']
  · rw [rest.length]
    simp [takeOut]

/-- Entries that are looked at one after the other go if they have a reason. -/
theorem removeEach_clears {h : Hub} (sound : h.Sound) (reason? : Entry → Option Reason)
    {es : List Entry} (within : ∀ e ∈ es, e ∈ h.entries) (apart : (es.map (·.id)).Nodup)
    (ids : List SessionId) : ∃ gone,
      Clears (fun r => r.entry ∈ es ∧ reason? r.entry = some r.reason) h
        (es.foldl (removeOne reason?) (h, ids)).1 gone ∧
      (es.foldl (removeOne reason?) (h, ids)).2 = ids ++ gone.map (·.entry.id) := by
  induction es generalizing h ids with
  | nil => exact ⟨[], .refl h (by simp), by simp⟩
  | cons e es ih =>
    obtain ⟨fresh, apart⟩ := List.nodup_cons.mp apart
    have later (e' : Entry) (there : e' ∈ es) : e' ∈ h.entries ∧ e'.id ≠ e.id :=
      ⟨within e' (List.mem_cons_of_mem e there), fun same => fresh (List.mem_map.mpr ⟨e', there, same⟩)⟩
    rw [List.foldl_cons]
    cases because : reason? e with
    | none =>
      simp only [removeOne, because]
      obtain ⟨gone, clears, returned⟩ := ih sound (fun e' there => (later e' there).1) apart ids
      refine ⟨gone, clears.congr fun r _ _ => ?_, returned⟩
      simp only [List.mem_cons]
      refine and_congr_left fun why => ⟨.inr, fun there => there.resolve_left fun same => ?_⟩
      rw [same, because] at why
      exact absurd why (by simp)
    | some reason =>
      have member := within e List.mem_cons_self
      simp only [removeOne, because, removeIfSame_entry sound member, if_true]
      obtain ⟨gone, clears, returned⟩ := ih (sound_takeOut sound member reason)
        (fun e' there => List.mem_filter.mpr ⟨(later e' there).1, by simpa using (later e' there).2⟩)
        apart (ids ++ [e.id])
      obtain ⟨l, lane, _⟩ := sound.lane member
      refine ⟨⟨e, l, reason⟩ :: gone, .cons sound member lane (clears.congr fun r _ _ => ?_) ?_, ?_⟩
      · simp only [List.mem_cons]
        refine ⟨fun stays => ⟨⟨.inr stays.1, stays.2⟩, (later _ stays.1).2⟩, ?_⟩
        rintro ⟨⟨rfl | there, why⟩, other⟩
        · exact absurd rfl other
        · exact ⟨there, why⟩
      · rintro ⟨e', l', reason'⟩ (rfl : e' = e) lane'
        obtain rfl := Option.some.inj (lane.symm.trans lane')
        simp [because, eq_comm]
      · rw [returned]
        simp

theorem shutEach_eq {h : Hub} (sound : h.Sound) {es : List Entry} (within : ∀ e ∈ es, e ∈ h.entries)
    (apart : (es.map (·.id)).Nodup) (ids : List SessionId) (n : Nat) :
    (es.map (·.id)).foldl shutOne (h, n) =
      ((es.foldl (removeOne fun _ => some .shutdown) (h, ids)).1, n + es.length) := by
  induction es generalizing h ids n with
  | nil => rfl
  | cons e es ih =>
    obtain ⟨fresh, apart⟩ := List.nodup_cons.mp apart
    have member := within e List.mem_cons_self
    have within' (e' : Entry) (there : e' ∈ es) : e' ∈ (h.takeOut e .shutdown).entries :=
      List.mem_filter.mpr ⟨within e' (List.mem_cons_of_mem e there),
        by simpa using fun same => fresh (List.mem_map.mpr ⟨e', there, same⟩)⟩
    simp only [List.map_cons, List.foldl_cons, shutOne, remove_entry sound member, removeOne,
      removeIfSame_entry sound member, if_true]
    rw [ih (sound_takeOut sound member .shutdown) within' apart (ids ++ [e.id])]
    simp only [Bool.toNat_true, List.length_cons, Prod.mk.injEq, true_and]
    omega

/-- Why a sweep removes: the session is dead, or it was silent for longer than allowed. -/
def Removal.Swept (maxIdle now : Nat) (r : Removal) : Prop :=
  r.lane.isLive = false ∧ r.reason = .sendFailed ∨
    r.lane.isLive = true ∧ maxIdle < r.lane.session.idleFor now ∧ r.reason = .idleTimeout

def Removal.Rejected (subsystem : String) (r : Removal) : Prop :=
  r.lane.client.subsystem = subsystem ∧ r.reason = .rejected

theorem sweepReason?_eq {h : Hub} {maxIdle now : Nat} {r : Removal}
    (lane : h.lane? r.entry.key = some r.lane) :
    h.sweepReason? maxIdle now r.entry = some r.reason ↔ r.Swept maxIdle now := by
  simp only [sweepReason?, lane, Removal.Swept]
  cases live : r.lane.isLive with
  | false => simp [eq_comm]
  | true =>
    by_cases idle : maxIdle < r.lane.session.idleFor now <;> simp [idle, eq_comm]

theorem removeWhere_clears {h : Hub} (sound : h.Sound) (reason? : Entry → Option Reason) :
    ∃ gone, Clears (fun r => reason? r.entry = some r.reason) h (h.removeWhere reason?).1 gone ∧
      (h.removeWhere reason?).2 = gone.map (·.entry.id) := by
  obtain ⟨gone, clears, returned⟩ :=
    removeEach_clears sound reason? (fun _ => id) sound.faithful.distinct []
  exact ⟨gone, clears.congr fun r member _ => by simp [member], returned⟩

theorem removeWhere_none {h : Hub} {reason? : Entry → Option Reason}
    (none : ∀ e ∈ h.entries, reason? e = none) : h.removeWhere reason? = (h, []) := by
  have each (es : List Entry) (within : ∀ e ∈ es, e ∈ h.entries) :
      es.foldl (removeOne reason?) (h, []) = (h, []) := by
    induction es with
    | nil => rfl
    | cons e es ih =>
      simp only [List.foldl_cons, removeOne, none e (within e List.mem_cons_self)]
      exact ih fun e' there => within e' (List.mem_cons_of_mem e there)
  exact each h.entries fun _ => id

theorem Clears.left {h h' : Hub} (sound : h.Sound) {due : Removal → Prop} {gone : List Removal}
    (clears : Clears due h h' gone) {e : Entry} (left : e ∈ h'.entries) :
    h'.lane? e.key = h.lane? e.key ∧ ∀ l reason, h.lane? e.key = some l → ¬ due ⟨e, l, reason⟩ := by
  rw [clears.entries, List.mem_filter, decide_eq_true_iff] at left
  obtain ⟨member, stays⟩ := left
  refine ⟨clears.others e.key fun r there => ?_, fun l reason lane why => ?_⟩
  · have other : r.entry.id ≠ e.id := fun same => stays (List.mem_map.mpr ⟨r, there, same⟩)
    exact sound.key_ne ((clears.exact r).mp there).1 member other
  · exact stays (List.mem_map.mpr ⟨_, (clears.exact ⟨e, l, reason⟩).mpr ⟨member, lane, why⟩, rfl⟩)

theorem sweepIdle_clears {h : Hub} (sound : h.Sound) (maxIdle now : Nat) : ∃ gone,
    Clears (Removal.Swept maxIdle now) h (h.sweepIdle maxIdle now).1 gone ∧
      (h.sweepIdle maxIdle now).2 = gone.map (·.entry.id) ∧
      (h.sweepIdle maxIdle now).1.sweepIdle maxIdle now = ((h.sweepIdle maxIdle now).1, []) := by
  obtain ⟨gone, clears, returned⟩ := removeWhere_clears sound (h.sweepReason? maxIdle now)
  have swept : Clears (Removal.Swept maxIdle now) h _ gone :=
    clears.congr fun _ _ lane => sweepReason?_eq lane
  refine ⟨gone, swept, returned, removeWhere_none fun e left => ?_⟩
  obtain ⟨same, stays⟩ := clears.left sound left
  change sweepReason? (h.removeWhere _).1 maxIdle now e = none
  have again : sweepReason? (h.removeWhere (h.sweepReason? maxIdle now)).1 maxIdle now e =
      h.sweepReason? maxIdle now e := by rw [sweepReason?, same, sweepReason?]
  rw [again]
  cases lane : h.lane? e.key with
  | none => rw [sweepReason?, lane]
  | some l =>
    cases why : h.sweepReason? maxIdle now e with
    | none => rfl
    | some reason => exact absurd why (stays l reason lane)

theorem left_sweepIdle {h : Hub} (sound : h.Sound) (maxIdle now : Nat) {e : Entry} {l : Lane}
    (left : e ∈ (h.sweepIdle maxIdle now).1.entries) (lane : h.lane? e.key = some l) :
    l.isLive = true ∧ l.session.idleFor now ≤ maxIdle := by
  obtain ⟨_, clears, _⟩ := sweepIdle_clears sound maxIdle now
  obtain ⟨_, stays⟩ := clears.left sound left
  have live : l.isLive = true := by
    by_contra dead
    exact stays l .sendFailed lane (.inl ⟨by simpa using dead, rfl⟩)
  refine ⟨live, ?_⟩
  by_contra idle
  exact stays l .idleTimeout lane (.inr ⟨live, Nat.lt_of_not_le idle, rfl⟩)

theorem rejectBySubsystem_clears {h : Hub} (sound : h.Sound) (subsystem : String) : ∃ gone,
    Clears (Removal.Rejected subsystem) h (h.rejectBySubsystem subsystem).1 gone ∧
      (h.rejectBySubsystem subsystem).2 = gone.map (·.entry.id) ∧
      (h.rejectBySubsystem subsystem).1.rejectBySubsystem subsystem =
        ((h.rejectBySubsystem subsystem).1, []) := by
  obtain ⟨gone, clears, returned⟩ := removeWhere_clears sound fun e =>
    if (h.lane? e.key).any (·.client.subsystem == subsystem) then some .rejected else none
  have rejected : Clears (Removal.Rejected subsystem) h (h.rejectBySubsystem subsystem).1 gone := by
    refine clears.congr fun r _ lane => ?_
    simp only [lane, Option.any_some, Removal.Rejected]
    by_cases own : r.lane.client.subsystem = subsystem
    · simp [own, @eq_comm _ Reason.rejected]
    · simp [own]
  refine ⟨gone, rejected, returned, removeWhere_none fun e left => ?_⟩
  obtain ⟨same, stays⟩ := rejected.left sound left
  rw [same]
  cases lane : h.lane? e.key with
  | none => rfl
  | some l =>
    have other : l.client.subsystem ≠ subsystem := fun own => stays l .rejected lane ⟨own, rfl⟩
    simp [other]

theorem closeAll_clears {h : Hub} (sound : h.Sound) : ∃ gone,
    Clears (·.reason = .shutdown) h h.closeAll.1 gone ∧ h.closeAll.2 = h.entries.length ∧
      (gone.map (·.entry.id)).Perm h.ids ∧ h.closeAll.1.entries = [] ∧
      h.closeAll.1.closeAll = (h.closeAll.1, 0) := by
  obtain ⟨gone, clears, _⟩ := removeWhere_clears sound fun _ => some .shutdown
  have all : h.closeAll = ((h.removeWhere fun _ => some .shutdown).1, h.entries.length) := by
    rw [closeAll, ids, shutEach_eq sound (fun _ => id) sound.faithful.distinct [], Nat.zero_add]
    rfl
  have goes (e : Entry) (member : e ∈ h.entries) : e.id ∈ gone.map (·.entry.id) := by
    obtain ⟨l, lane, _⟩ := sound.lane member
    exact List.mem_map.mpr ⟨⟨e, l, .shutdown⟩, (clears.exact _).mpr ⟨member, lane, rfl⟩, rfl⟩
  have nothing : (h.removeWhere fun _ => some .shutdown).1.entries = [] := by
    rw [clears.entries, List.filter_eq_nil_iff]
    intro e member
    simpa using goes e member
  rw [all]
  refine ⟨gone, clears.congr fun r _ _ => by simp [eq_comm], rfl, ?_, nothing, ?_⟩
  · rw [List.perm_ext_iff_of_nodup clears.once sound.faithful.distinct]
    intro id
    constructor
    · intro there
      obtain ⟨r, gone, rfl⟩ := List.mem_map.mp there
      exact List.mem_map_of_mem ((clears.exact r).mp gone).1
    · intro there
      obtain ⟨e, member, rfl⟩ := List.mem_map.mp there
      exact goes e member
  · rw [closeAll, ids, nothing]
    rfl

/-- The order of the entries is nothing to go by. -/
theorem Sound.reorder {h : Hub} (sound : h.Sound) {es : List Entry} (order : es.Perm h.entries) :
    Sound { h with entries := es } where
  faithful :=
    { distinct := (order.map _).nodup_iff.mpr sound.faithful.distinct
      replayed := sound.faithful.replayed.trans
        (List.toFinset_eq_of_perm _ _ (order.map _).symm)
      alternate := sound.faithful.alternate }
  wired e member := sound.wired e (order.mem_iff.mp member)

/-- In whatever order the entries of a hub are come by: a sweep removes exactly those whose session
is dead or was silent for longer than allowed, a rejection exactly those of the subsystem, and the
closing of all removes all; each for its reason, with one event and its id told once, and its
session is closed. Nothing else is changed, and to do the same once more does nothing. -/
theorem bulk_removal_exact (c : Config) (acts : List Act) (es : List Entry)
    (order : es.Perm ((start c).run acts).entries) :
    let h : Hub := { (start c).run acts with entries := es }
    (∀ maxIdle now, ∃ gone,
      Clears (Removal.Swept maxIdle now) h (h.sweepIdle maxIdle now).1 gone ∧
        (h.sweepIdle maxIdle now).2 = gone.map (·.entry.id) ∧
        (h.sweepIdle maxIdle now).1.sweepIdle maxIdle now = ((h.sweepIdle maxIdle now).1, [])) ∧
      (∀ subsystem, ∃ gone,
        Clears (Removal.Rejected subsystem) h (h.rejectBySubsystem subsystem).1 gone ∧
          (h.rejectBySubsystem subsystem).2 = gone.map (·.entry.id) ∧
          (h.rejectBySubsystem subsystem).1.rejectBySubsystem subsystem =
            ((h.rejectBySubsystem subsystem).1, [])) ∧
      ∃ gone, Clears (·.reason = .shutdown) h h.closeAll.1 gone ∧ h.closeAll.2 = h.entries.length ∧
        (gone.map (·.entry.id)).Perm h.ids ∧ h.closeAll.1.entries = [] ∧
        h.closeAll.1.closeAll = (h.closeAll.1, 0) := by
  have sound := (run_sound (sound_start c) acts).1.reorder order
  exact ⟨fun maxIdle now => sweepIdle_clears sound maxIdle now,
    fun subsystem => rejectBySubsystem_clears sound subsystem, closeAll_clears sound⟩

def laneAt (id subsystem : String) (now : Nat) : Lane :=
  ⟨⟨id⟩, .plain subsystem "" .subscribe, .start .default now, .probe (.start .plain)⟩

/-- One session is silent, one is dead and one is neither. -/
def mixedRun : List Act :=
  [.enter (laneAt "a" "x" 0), .enter (laneAt "b" "x" 90), .enter (laneAt "c" "y" 90),
    .session 1 .close]

theorem bulk_removal_exact_mixed :
    let h : Hub := { (start .default).run mixedRun with entries := [⟨⟨"c"⟩, 2⟩, ⟨⟨"a"⟩, 0⟩, ⟨⟨"b"⟩, 1⟩] }
    h.entries.Perm ((start .default).run mixedRun).entries ∧
      (h.sweepIdle 50 100).2 = [⟨"a"⟩, ⟨"b"⟩] ∧
      (h.sweepIdle 50 100).1.sweepIdle 50 100 = ((h.sweepIdle 50 100).1, []) ∧
      (h.rejectBySubsystem "x").1.entries = [⟨⟨"c"⟩, 2⟩] ∧ h.closeAll.2 = 3 := by
  have order : [⟨⟨"c"⟩, 2⟩, ⟨⟨"a"⟩, 0⟩, ⟨⟨"b"⟩, 1⟩].Perm ((start .default).run mixedRun).entries := by
    decide
  obtain ⟨sweep, _, _, _, count, _⟩ := bulk_removal_exact .default mixedRun _ order
  obtain ⟨_, _, _, again⟩ := sweep 50 100
  exact ⟨order, by decide, again, by decide, count⟩

end Courier.Hub
