import Courier.Proofs.Hub.BulkRemoval
import Courier.Proofs.Hub.Removal
import Courier.Sweeper

/-!
# Sweeping over time

A sweeper runs beside anything that happens to a hub, on one clock that passes or jumps. A loop of it
sweeps as soon as its tick is due; a tick may come late, and may still come when the sweeper has just
been stopped, or is started after that. As long as the sweeper runs and no tick is due, no session is
silent, or dead and registered, for longer than the bounds, unless it was registered again just now.
-/

set_option autoImplicit false

namespace Courier

open Relation (ReflTransGen)

/-- A hub with a sweeper and how often that was started, what was opened and touched when, what was
put in by a registration apart from its opening and when, and what the sweeper has removed. -/
structure Sweeping where
  now : Nat
  hub : Hub
  sweeper : Sweeper
  starts : Nat
  activity : List (Key × Nat)
  returned : List (Key × Nat)
  swept : List Event

namespace Sweeping

/-- What an act opens or touches. -/
def active (h : Hub) (now : Nat) : Hub.Act → List (Key × Nat)
  | .enter _ => [(h.lanes.length, now)]
  | .add _ => [(h.lanes.length, now)]
  | .session key (.touch _) => [(key, now)]
  | _ => []

/-- What an act puts in without opening it: a lane that is there already. -/
def returning (h : Hub) (now : Nat) : Hub.Act → List (Key × Nat)
  | .register key =>
    match h.lane? key, h.register key with
    | some _, .ok _ => [(key, now)]
    | _, _ => []
  | _ => []

@[simp]
def start (config : Config) (maxIdle period : Nat) : Sweeping :=
  ⟨0, .start config, .start maxIdle period 0 0, 0, [], [], []⟩

def act (s : Sweeping) (a : Hub.Act) : Sweeping :=
  { s with
    hub := s.hub.act a
    activity := s.activity ++ active s.hub s.now a
    returned := s.returned ++ returning s.hub s.now a }

def pass (s : Sweeping) (now : Nat) : Sweeping := { s with now }

def setLoops (s : Sweeping) (loops : List SweepLoop) : Sweeping :=
  { s with sweeper := { s.sweeper with loops } }

/-- One more loop is started, also when the sweeper has been stopped. -/
def begin (s : Sweeping) : Sweeping :=
  { s.setLoops (s.sweeper.loops ++
      (Sweeper.start s.sweeper.maxIdle s.sweeper.period 1 s.now).loops) with
    starts := s.starts + 1 }

def tick (s : Sweeping) (i : Nat) : Sweeping :=
  let hub := (s.hub.sweepIdle s.sweeper.maxIdle s.now).1
  { s with
    hub
    sweeper := s.sweeper.ticked i s.now
    swept := s.swept ++ hub.journal.drop s.hub.journal.length }

def stop (s : Sweeping) : Sweeping := { s with sweeper := { s.sweeper with stopped := true } }

def leave (s : Sweeping) (i : Nat) : Sweeping := s.setLoops (s.sweeper.loops.eraseIdx i)

inductive Step (s : Sweeping) : Sweeping → Prop
  | acts (a : Hub.Act) (timely : a.At s.now) : Step s (s.act a)
  | passes (now : Nat) (later : s.now ≤ now) : Step s (s.pass now)
  | starts : Step s s.begin
  /-- A loop whose tick is due need not see first that the sweeper is stopped. -/
  | ticks (i : Nat) (loop : SweepLoop) (there : s.sweeper.loops[i]? = some loop)
      (due : loop.due ≤ s.now) : Step s (s.tick i)
  | stops : Step s s.stop
  | breaks (i : Nat) (stopped : s.sweeper.stopped = true) : Step s (s.leave i)

/-- No tick is due, and loops of a sweeper that is stopped are gone. -/
structure Settled (s : Sweeping) : Prop where
  waits : ∀ loop ∈ s.sweeper.loops, s.now < loop.due
  gone : s.sweeper.stopped = true → s.sweeper.loops = []

/-- The sweeper was started, and was not stopped. -/
def Runs (s : Sweeping) : Prop := s.starts ≠ 0 ∧ s.sweeper.stopped = false

/-- A session was registered again less than a period before a time. -/
def Returned (s : Sweeping) (key : Key) (before : Nat) : Prop :=
  ∃ t, (key, t) ∈ s.returned ∧ before < t + s.sweeper.period

theorem due_nextTick (s : Sweeper) (l : SweepLoop) {now : Nat} (due : l.due ≤ now) :
    (s.nextTick l now).due ≤ now + s.period := by
  unfold Sweeper.nextTick
  split
  · exact Nat.le_refl _
  · simpa using due

theorem mem_ticked {s : Sweeper} {i now : Nat} {loop loop' : SweepLoop}
    (there : s.loops[i]? = some loop) (member : loop' ∈ (s.ticked i now).loops) :
    loop' ∈ s.loops ∨ loop' = s.nextTick loop now := by
  obtain ⟨k, at_k⟩ := List.mem_iff_getElem?.mp member
  simp only [Sweeper.ticked, List.getElem?_modify] at at_k
  by_cases same : i = k
  · rw [← same, there] at at_k
    simp only [if_true, Option.map_eq_map, Option.map_some, Option.some.injEq] at at_k
    exact .inr at_k.symm
  · simp only [same, if_false, Option.map_eq_map, Option.map_id'] at at_k
    exact .inl (List.mem_of_getElem? at_k)

theorem due_started {maxIdle period now : Nat} {loop : SweepLoop}
    (member : loop ∈ (Sweeper.start maxIdle period 1 now).loops) : loop.due = now := by
  unfold Sweeper.start at member
  simp only at member
  split at member
  · simp at member
  · rw [List.eq_of_mem_replicate member]

theorem length_started (maxIdle now : Nat) {period : Nat} (positive : 0 < period) :
    (Sweeper.start maxIdle period 1 now).loops.length = 1 := by
  simp [Nat.ne_of_gt positive]

/-- No registered session goes beyond the bound before a loop ticks, unless it came back. -/
def Guards (s : Sweeping) (loop : SweepLoop) : Prop :=
  ∀ e ∈ s.hub.entries, ∀ l, s.hub.lane? e.key = some l →
    loop.due ≤ l.session.lastActivity + s.sweeper.maxIdle + s.sweeper.period ∨
      ∃ t, (e.key, t) ∈ s.returned ∧ loop.due ≤ t + s.sweeper.period

structure Sound (s : Sweeping) : Prop where
  hub : s.hub.Sound
  past : ∀ key t, (key, t) ∈ s.activity → t ≤ s.now
  latest : ∀ key l, s.hub.lane? key = some l → (key, l.session.lastActivity) ∈ s.activity ∧
    ∀ t, (key, t) ∈ s.activity → t ≤ l.session.lastActivity
  soon : ∀ loop ∈ s.sweeper.loops, loop.due ≤ s.now + s.sweeper.period
  guarded : ∀ loop ∈ s.sweeper.loops, s.now < loop.due → s.Guards loop
  ongoing : 0 < s.sweeper.period → s.sweeper.stopped = false → s.sweeper.loops.length = s.starts

theorem sound_start (config : Config) (maxIdle period : Nat) :
    (start config maxIdle period).Sound where
  hub := Hub.sound_start config
  past := by simp
  latest := by simp
  soon := by simp
  guarded := by simp
  ongoing := by simp

theorem mem_active {h : Hub} {now : Nat} {a : Hub.Act} {key : Key} {t : Nat}
    (member : (key, t) ∈ active h now a) : t = now := by
  unfold active at member
  split at member <;> simp_all

theorem latest_act {s : Sweeping} (sound : s.Sound) {a : Hub.Act} (timely : a.At s.now) {key : Key}
    {l' : Lane} (lane' : (s.hub.act a).lane? key = some l') :
    (key, l'.session.lastActivity) ∈ (s.act a).activity ∧
      ∀ t, (key, t) ∈ (s.act a).activity → t ≤ l'.session.lastActivity := by
  have past : ∀ t, (key, t) ∈ (s.act a).activity → t ≤ s.now := by
    intro t member
    rcases List.mem_append.mp member with old | new
    · exact sound.past key t old
    · exact Nat.le_of_eq (mem_active new)
  cases lane : s.hub.lane? key with
  | none =>
    obtain ⟨rfl, l, opens, same⟩ := Hub.new_act lane lane'
    have opened : l'.session.lastActivity = s.now := same.trans (timely.1 l opens)
    rw [opened]
    refine ⟨List.mem_append_right _ ?_, past⟩
    rcases opens with rfl | rfl <;> simp [active]
  | some l =>
    obtain ⟨there, most⟩ := sound.latest key l lane
    by_cases touches : ∃ t, a = .session key (.touch t)
    · obtain ⟨t, rfl⟩ := touches
      have touched : l'.session.lastActivity = s.now := by
        simp only [Hub.act, Hub.updateSession, Hub.lane?_modify, lane, Option.map_some, if_true,
          Option.some.injEq] at lane'
        rw [← lane', timely.2 key t rfl]
        rfl
      rw [touched]
      exact ⟨List.mem_append_right _ (by simp [active]), past⟩
    · have kept : l'.session.lastActivity = l.session.lastActivity := by
        refine (Hub.lastActivity_act lane lane').resolve_right ?_
        rintro ⟨t, same, _⟩
        exact touches ⟨t, same⟩
      rw [kept]
      refine ⟨List.mem_append_left _ there, fun t member => ?_⟩
      rcases List.mem_append.mp member with old | new
      · exact most t old
      · -- only a touch and an opening are activity, and the lane is not new
        exfalso
        have known : key < s.hub.lanes.length := (List.getElem?_eq_some_iff.mp lane).1
        unfold active at new
        split at new
        · simp only [List.mem_singleton, Prod.mk.injEq] at new
          exact absurd new.1 (Nat.ne_of_lt known)
        · simp only [List.mem_singleton, Prod.mk.injEq] at new
          exact absurd new.1 (Nat.ne_of_lt known)
        · simp only [List.mem_singleton, Prod.mk.injEq] at new
          exact touches ⟨_, by rw [new.1]⟩
        · simp at new

theorem mem_returning {h : Hub} {now : Nat} {key : Key} {e : Entry}
    (member : e ∈ (h.act (.register key)).entries) :
    e ∈ h.entries ∨ (e.key, now) ∈ returning h now (.register key) := by
  simp only [Hub.act] at member
  cases done : h.register key with
  | error _ =>
    rw [done] at member
    exact .inl member
  | ok h' =>
    rw [done] at member
    cases lane : h.lane? key with
    | none =>
      have same : h' = h := by
        simpa [Hub.register, lane] using done.symm
      exact .inl (same ▸ member)
    | some l =>
      apply (Hub.entries_register done member).imp_right
      intro new
      simp [returning, lane, done, new]

/-- A registered session has its activity of before, or is active now, or comes back now. -/
theorem entry_act {s : Sweeping} (sound : s.Sound) {a : Hub.Act} (timely : a.At s.now) {e : Entry}
    (member : e ∈ (s.hub.act a).entries) {l' : Lane} (lane' : (s.hub.act a).lane? e.key = some l') :
    (e ∈ s.hub.entries ∧ ∃ l, s.hub.lane? e.key = some l ∧
      l'.session.lastActivity = l.session.lastActivity) ∨
      l'.session.lastActivity = s.now ∨ (e.key, s.now) ∈ returning s.hub s.now a := by
  have stays (old : e ∈ s.hub.entries) : (e ∈ s.hub.entries ∧ ∃ l, s.hub.lane? e.key = some l ∧
      l'.session.lastActivity = l.session.lastActivity) ∨ l'.session.lastActivity = s.now := by
    obtain ⟨l, lane, _⟩ := sound.hub.lane old
    rcases Hub.lastActivity_act lane lane' with same | ⟨t, touch, touched⟩
    · exact .inl ⟨old, l, lane, same⟩
    · right
      calc l'.session.lastActivity
        _ = t := touched
        _ = s.now := timely.2 e.key t touch
  rcases s.hub.entries_act a member with old | ⟨l, rfl, key⟩ | rfl
  · exact (stays old).imp_right .inl
  · have new : s.hub.lane? e.key = none := by
      rw [key]
      exact List.getElem?_eq_none (Nat.le_refl _)
    obtain ⟨_, opened, opens, same⟩ := Hub.new_act new lane'
    right; left
    calc l'.session.lastActivity
      _ = opened.session.lastActivity := same
      _ = s.now := timely.1 opened opens
  · rcases mem_returning member with old | back
    · exact (stays old).imp_right .inl
    · exact .inr (.inr back)

theorem Sound.act {s : Sweeping} (sound : s.Sound) {a : Hub.Act} (timely : a.At s.now) :
    (s.act a).Sound where
  hub := (Hub.act_sound sound.hub a).1
  past key t member := by
    rcases List.mem_append.mp member with old | new
    · exact sound.past key t old
    · exact Nat.le_of_eq (mem_active new)
  latest key l' lane' := latest_act sound timely lane'
  soon := sound.soon
  guarded loop there waits e member l' lane' := by
    have soon := sound.soon loop there
    change loop.due ≤ _ + s.sweeper.maxIdle + s.sweeper.period ∨ _
    rcases entry_act sound timely member lane' with ⟨old, l, lane, same⟩ | active | back
    · rw [same]
      rcases sound.guarded loop there waits e old l lane with bound | ⟨t, back, bound⟩
      · exact .inl bound
      · exact .inr ⟨t, List.mem_append_left _ back, bound⟩
    · omega
    · exact .inr ⟨s.now, List.mem_append_right _ back, soon⟩
  ongoing := sound.ongoing

theorem at_sweep (maxIdle now : Nat) : (Hub.Act.sweep maxIdle now).At now := by simp [Hub.Act.At]

theorem tick_eq (s : Sweeping) (i : Nat) : s.tick i =
    { s.act (.sweep s.sweeper.maxIdle s.now) with
      sweeper := s.sweeper.ticked i s.now
      swept := s.swept ++
        (s.hub.sweepIdle s.sweeper.maxIdle s.now).1.journal.drop s.hub.journal.length } := by
  simp [tick, act, active, returning, Hub.act]

/-- After a tick the loop that ticked guards what is left. -/
theorem guards_ticked {s : Sweeping} (sound : s.Sound) {loop : SweepLoop} (due : loop.due ≤ s.now)
    (i : Nat) : (s.tick i).Guards (s.sweeper.nextTick loop s.now) := by
  intro e member l' lane'
  have soon := due_nextTick s.sweeper loop due
  left
  change _ ≤ _ + s.sweeper.maxIdle + s.sweeper.period
  rcases entry_act sound (at_sweep s.sweeper.maxIdle s.now) member lane' with
    ⟨_, l, lane, same⟩ | active | back
  · obtain ⟨_, idle⟩ := Hub.left_sweepIdle sound.hub s.sweeper.maxIdle s.now member lane
    unfold Session.idleFor at idle
    omega
  · omega
  · simp [returning] at back

theorem Sound.tick {s : Sweeping} (sound : s.Sound) {i : Nat} {loop : SweepLoop}
    (there : s.sweeper.loops[i]? = some loop) (due : loop.due ≤ s.now) : (s.tick i).Sound := by
  have swept := sound.act (at_sweep s.sweeper.maxIdle s.now)
  rw [tick_eq]
  refine { swept with soon := ?_, guarded := ?_, ongoing := ?_ }
  · intro loop' member
    rcases mem_ticked there member with old | rfl
    · exact sound.soon loop' old
    · exact due_nextTick s.sweeper loop due
  · intro loop' member waits
    rw [← tick_eq]
    rcases mem_ticked there member with old | rfl
    · have guards := swept.guarded loop' old waits
      rw [tick_eq]
      exact guards
    · exact guards_ticked sound due i
  · intro positive running
    calc (s.sweeper.ticked i s.now).loops.length
      _ = s.sweeper.loops.length := by simp [Sweeper.ticked]
      _ = s.starts := sound.ongoing positive running

theorem Sound.begin {s : Sweeping} (sound : s.Sound) : s.begin.Sound where
  hub := sound.hub
  past := sound.past
  latest := sound.latest
  soon loop member := by
    rcases List.mem_append.mp member with old | new
    · exact sound.soon loop old
    · exact (due_started new).trans_le (Nat.le_add_right _ _)
  guarded loop member waits := by
    rcases List.mem_append.mp member with old | new
    · exact sound.guarded loop old waits
    · exact absurd (due_started new) (Nat.ne_of_gt waits)
  ongoing positive running := by
    have one : (Sweeper.start s.sweeper.maxIdle s.sweeper.period 1 s.now).loops.length = 1 :=
      length_started s.sweeper.maxIdle s.now positive
    calc (s.sweeper.loops ++ (Sweeper.start s.sweeper.maxIdle s.sweeper.period 1 s.now).loops).length
      _ = s.sweeper.loops.length + 1 := by rw [List.length_append, one]
      _ = s.starts + 1 := by rw [sound.ongoing positive running]

theorem Sound.leave {s : Sweeping} (sound : s.Sound) (stopped : s.sweeper.stopped = true) (i : Nat) :
    (s.leave i).Sound :=
  have old : ∀ loop ∈ s.sweeper.loops.eraseIdx i, loop ∈ s.sweeper.loops := fun _ member =>
    List.mem_of_mem_eraseIdx member
  { sound with
    soon := fun loop member => sound.soon loop (old loop member)
    guarded := fun loop member => sound.guarded loop (old loop member)
    ongoing := fun _ running => by simp [Sweeping.leave, setLoops, stopped] at running }

theorem Step.sound {s s' : Sweeping} (step : Step s s') (sound : s.Sound) : s'.Sound := by
  cases step with
  | acts a timely => exact sound.act timely
  | passes now later =>
    exact { sound with
      past := fun key t member => (sound.past key t member).trans later
      soon := fun loop there => (sound.soon loop there).trans (Nat.add_le_add_right later _)
      guarded := fun loop there waits => sound.guarded loop there (Nat.lt_of_le_of_lt later waits) }
  | starts => exact sound.begin
  | ticks i loop there due => exact sound.tick there due
  | stops => exact { sound with ongoing := fun _ running => by simp [stop] at running }
  | breaks i stopped => exact sound.leave stopped i

theorem Sound.run {s s' : Sweeping} (sound : s.Sound) (run : ReflTransGen Step s s') : s'.Sound := by
  induction run with
  | refl => exact sound
  | tail _ step ih => exact step.sound ih

/-- A session that was dead at a time has been taken out, or will be when a loop ticks that is due
soon after that time, or came back and will be then. -/
structure Doomed (s : Sweeping) (key : Key) (since : Nat) : Prop where
  lane : ∃ l, s.hub.lane? key = some l
  dead : s.hub.isLive key = false
  loops : ∀ loop ∈ s.sweeper.loops, s.now < loop.due →
    loop.due ≤ since + s.sweeper.period ∨ (∀ e ∈ s.hub.entries, e.key ≠ key) ∨
      ∃ t, (key, t) ∈ s.returned ∧ loop.due ≤ t + s.sweeper.period

theorem Sound.doomed {s : Sweeping} (sound : s.Sound) {key : Key} {l : Lane}
    (lane : s.hub.lane? key = some l) (dead : s.hub.isLive key = false) : s.Doomed key s.now :=
  ⟨⟨l, lane⟩, dead, fun loop there _ => .inl (sound.soon loop there)⟩

theorem absent_act {s : Sweeping} {key : Key} {l : Lane} (lane : s.hub.lane? key = some l)
    (out : ∀ e ∈ s.hub.entries, e.key ≠ key) (a : Hub.Act) :
    (∀ e ∈ (s.hub.act a).entries, e.key ≠ key) ∨ (key, s.now) ∈ returning s.hub s.now a := by
  by_cases back : (key, s.now) ∈ returning s.hub s.now a
  · exact .inr back
  left
  rintro e member rfl
  rcases s.hub.entries_act a member with old | ⟨_, _, new⟩ | rfl
  · exact out e old rfl
  · exact absurd new (Nat.ne_of_lt (List.getElem?_eq_some_iff.mp lane).1)
  · exact (mem_returning member).elim (fun old => out e old rfl) back

theorem Doomed.act {s : Sweeping} (sound : s.Sound) {key : Key} {since : Nat}
    (doomed : s.Doomed key since) (a : Hub.Act) : (s.act a).Doomed key since := by
  obtain ⟨⟨l, lane⟩, dead, loops⟩ := doomed
  obtain ⟨l', lane', _⟩ := s.hub.act_lane a lane
  refine ⟨⟨l', lane'⟩, (s.hub.act_change a).follows.dead lane dead, fun loop there waits => ?_⟩
  rcases loops loop there waits with bound | out | ⟨t, back, bound⟩
  · exact .inl bound
  · right
    apply (absent_act lane out a).imp_right
    intro back
    exact ⟨s.now, List.mem_append_right _ back, sound.soon loop there⟩
  · exact .inr (.inr ⟨t, List.mem_append_left _ back, bound⟩)

theorem Doomed.tick {s : Sweeping} (sound : s.Sound) {key : Key} {since : Nat}
    (doomed : s.Doomed key since) {i : Nat} {loop : SweepLoop}
    (there : s.sweeper.loops[i]? = some loop) : (s.tick i).Doomed key since := by
  have swept := doomed.act sound (.sweep s.sweeper.maxIdle s.now)
  rw [tick_eq]
  refine ⟨swept.lane, swept.dead, fun loop' member waits => ?_⟩
  rcases mem_ticked there member with old | rfl
  · exact swept.loops loop' old waits
  · right; left
    intro e left same
    obtain ⟨l, lane⟩ := doomed.lane
    obtain ⟨live, _⟩ :=
      Hub.left_sweepIdle sound.hub s.sweeper.maxIdle s.now left (by rw [same]; exact lane)
    have dead := doomed.dead
    simp [Hub.isLive_of_lane lane, live] at dead

theorem Step.doomed {s s' : Sweeping} (step : Step s s') (sound : s.Sound) {key : Key} {since : Nat}
    (doomed : s.Doomed key since) : s'.Doomed key since := by
  cases step with
  | acts a timely => exact doomed.act sound a
  | passes now later =>
    exact { doomed with
      loops := fun loop there waits => doomed.loops loop there (Nat.lt_of_le_of_lt later waits) }
  | starts =>
    refine { doomed with loops := fun loop member waits => ?_ }
    rcases List.mem_append.mp member with old | new
    · exact doomed.loops loop old waits
    · exact absurd (due_started new) (Nat.ne_of_gt waits)
  | ticks i loop there due => exact doomed.tick sound there
  | stops => exact { doomed with }
  | breaks i stopped =>
    exact { doomed with
      loops := fun loop member => doomed.loops loop (List.mem_of_mem_eraseIdx member) }

theorem Doomed.run {s s' : Sweeping} (sound : s.Sound) {key : Key} {since : Nat}
    (doomed : s.Doomed key since) (run : ReflTransGen Step s s') : s'.Doomed key since := by
  induction run with
  | refl => exact doomed
  | tail before step ih => exact step.doomed (sound.run before) ih

/-- A session that a tick removes as idle was neither opened nor touched within the bound. -/
theorem idle_tick {s : Sweeping} (sound : s.Sound) (i : Nat) {id : SessionId} {sent : Nat}
    (removed : .removed id .idleTimeout sent ∈ (s.tick i).hub.journal.drop s.hub.journal.length) :
    ∃ e ∈ s.hub.entries, e.id = id ∧ (∃ t, (e.key, t) ∈ s.activity) ∧
      ∀ t, (e.key, t) ∈ s.activity → s.sweeper.maxIdle < s.now - t := by
  obtain ⟨more, journal, removals⟩ :=
    (s.hub.thins_removeWhere (s.hub.sweepReason? s.sweeper.maxIdle s.now)).journal
  have new : (s.tick i).hub.journal.drop s.hub.journal.length = more := by
    change ((s.hub.removeWhere _).1.journal).drop _ = more
    rw [journal, List.drop_left]
  rw [new] at removed
  obtain ⟨e, there, reason, n, same, because⟩ := removals _ removed
  obtain ⟨rfl, rfl, rfl⟩ := Event.removed.inj same
  obtain ⟨l, lane, _⟩ := sound.hub.lane there
  obtain ⟨last, most⟩ := sound.latest e.key l lane
  have idle : s.sweeper.maxIdle < l.session.idleFor s.now := by
    simp only [Hub.sweepReason?, lane] at because
    split at because
    · simp at because
    · split at because
      · assumption
      · simp at because
  refine ⟨e, there, rfl, ⟨_, last⟩, fun t member => ?_⟩
  have earlier := most t member
  unfold Session.idleFor at idle
  omega

theorem times_run {s s' : Sweeping} (run : ReflTransGen Step s s') :
    s'.sweeper.maxIdle = s.sweeper.maxIdle ∧ s'.sweeper.period = s.sweeper.period := by
  induction run with
  | refl => exact ⟨rfl, rfl⟩
  | tail _ step ih => cases step <;> exact ih

theorem starts_run {s s' : Sweeping} (run : ReflTransGen Step s s') : s.starts ≤ s'.starts := by
  induction run with
  | refl => exact Nat.le_refl _
  | tail _ step ih =>
    cases step with
    | starts => exact Nat.le_succ_of_le ih
    | _ => exact ih

theorem stopped_run {s s' : Sweeping} (run : ReflTransGen Step s s')
    (stopped : s.sweeper.stopped = true) (gone : s.sweeper.loops = [])
    (same : s'.starts = s.starts) :
    s'.sweeper.stopped = true ∧ s'.sweeper.loops = [] ∧ s'.swept = s.swept := by
  induction run with
  | refl => exact ⟨stopped, gone, rfl⟩
  | @tail t _ before step ih =>
    have most := starts_run before
    cases step with
    | starts =>
      change t.starts + 1 = s.starts at same
      omega
    | ticks i loop there =>
      obtain ⟨_, none, _⟩ := ih same
      simp [none] at there
    | stops => exact ⟨rfl, (ih same).2⟩
    | breaks i =>
      obtain ⟨still, none, swept⟩ := ih same
      exact ⟨still, by simp [leave, setLoops, none], swept⟩
    | _ => exact ih same

/-- In a settled state a registered session is silent for no longer than a sweeper that runs bears and
waits together, and dead for no longer than it waits, unless it was registered again less than a period
ago. A session goes as idle only at an instant when the last of its opening and its touches is longer
ago than the sweeper bears. After a sweeper was stopped and has settled, it removes nothing until it is
started again. -/
theorem idle_sessions_swept (config : Config) (maxIdle : Nat) {period : Nat} (positive : 0 < period)
    {s : Sweeping} (run : ReflTransGen Step (start config maxIdle period) s) :
    (s.Settled → s.Runs →
      (∀ e ∈ s.hub.entries, ∃ l, s.hub.lane? e.key = some l ∧
        (l.session.idleFor s.now ≤ maxIdle + period ∨ s.Returned e.key s.now)) ∧
      ∀ s₀, ReflTransGen Step (start config maxIdle period) s₀ → ReflTransGen Step s₀ s →
        ∀ e ∈ s.hub.entries, ∀ l, s₀.hub.lane? e.key = some l → l.isLive = false →
          s.now ≤ s₀.now + period ∨ s.Returned e.key s.now) ∧
    (∀ i loop, s.sweeper.loops[i]? = some loop → loop.due ≤ s.now → ∀ id sent,
      .removed id .idleTimeout sent ∈ (s.tick i).hub.journal.drop s.hub.journal.length →
      ∃ e ∈ s.hub.entries, e.id = id ∧ (∃ t, (e.key, t) ∈ s.activity) ∧
        ∀ t, (e.key, t) ∈ s.activity → maxIdle < s.now - t) ∧
    (s.Settled → s.sweeper.stopped = true → ∀ s', ReflTransGen Step s s' → s'.starts = s.starts →
      s'.swept = s.swept) := by
  have sound : s.Sound := (sound_start config maxIdle period).run run
  obtain ⟨sameIdle, samePeriod⟩ := times_run run
  change s.sweeper.maxIdle = maxIdle at sameIdle
  change s.sweeper.period = period at samePeriod
  have guard (settled : s.Settled) (runs : s.Runs) : ∃ loop ∈ s.sweeper.loops, s.now < loop.due := by
    have count := sound.ongoing (samePeriod ▸ positive) runs.2
    obtain ⟨loop, there⟩ := List.exists_mem_of_length_pos (count ▸ Nat.pos_of_ne_zero runs.1)
    exact ⟨loop, there, settled.waits loop there⟩
  refine ⟨fun settled runs => ⟨?_, ?_⟩, ?_, ?_⟩
  · intro e member
    obtain ⟨loop, there, waits⟩ := guard settled runs
    obtain ⟨l, lane, _⟩ := sound.hub.lane member
    refine ⟨l, lane, ?_⟩
    rcases sound.guarded loop there waits e member l lane with bound | ⟨t, back, bound⟩
    · left
      unfold Session.idleFor
      omega
    · exact .inr ⟨t, back, by omega⟩
  · intro s₀ before after e member l lane dead
    have sound₀ : s₀.Sound := (sound_start config maxIdle period).run before
    have doomed : s.Doomed e.key s₀.now :=
      (sound₀.doomed lane ((Hub.isLive_of_lane lane).trans dead)).run sound₀ after
    obtain ⟨loop, there, waits⟩ := guard settled runs
    rcases doomed.loops loop there waits with soon | out | ⟨t, back, bound⟩
    · left
      omega
    · exact absurd rfl (out e member)
    · exact .inr ⟨t, back, by omega⟩
  · intro i loop _ _ id sent removed
    rw [← sameIdle]
    exact idle_tick sound i removed
  · intro settled stopped s' after same
    exact (stopped_run after stopped (settled.gone stopped) same).2.2

def opened : Sweeping := ((start .default 5 10).begin.act (.enter Hub.plainLane)).tick 0

theorem opened_run : ReflTransGen Step (start .default 5 10) opened := by
  have timely : (Hub.Act.enter Hub.plainLane).At 0 := by
    refine ⟨fun l same => ?_, by simp⟩
    simp only [Hub.Act.enter.injEq, reduceCtorEq, or_false] at same
    exact same ▸ rfl
  exact .tail (.tail (.single .starts) (.acts _ timely)) (.ticks 0 ⟨0, 0⟩ rfl (Nat.le_refl 0))

theorem idle_sessions_swept_opened :
    .removed ⟨"s1"⟩ .idleTimeout 0 ∈
      ((opened.pass 10).tick 0).hub.journal.drop (opened.pass 10).hub.journal.length ∧
    ∃ e ∈ (opened.pass 10).hub.entries, e.id = ⟨"s1"⟩ ∧ (∃ t, (e.key, t) ∈ (opened.pass 10).activity) ∧
      ∀ t, (e.key, t) ∈ (opened.pass 10).activity → 5 < (opened.pass 10).now - t := by
  have removed : .removed ⟨"s1"⟩ .idleTimeout 0 ∈
      ((opened.pass 10).tick 0).hub.journal.drop (opened.pass 10).hub.journal.length := by
    decide
  have run := opened_run.tail (.passes 10 (Nat.zero_le 10))
  exact ⟨removed, (idle_sessions_swept .default 5 (by decide) run).2.1 0 ⟨10, 0⟩ (by decide)
    (by decide) ⟨"s1"⟩ 0 removed⟩

/-- The session is removed, and registered again when the sweeper has waited nearly twice. -/
def departed : Sweeping := opened.act (.remove ⟨"s1"⟩ .disconnected)

def comeback : Sweeping := (((departed.pass 10).tick 0).pass 19).act (.register 0)

/-- The sweeper is stopped and settles, and is started again later. -/
def halted : Sweeping := (opened.stop.leave 0).pass 10

def restarted : Sweeping := halted.begin.tick 0

/-- A session that is registered again has been silent and dead for longer than the bounds, and a
sweeper that is started after it was stopped removes a session. -/
theorem overdue_if_returned_swept_if_restarted :
    (ReflTransGen Step (start .default 5 10) departed ∧ ReflTransGen Step departed comeback ∧
      comeback.Settled ∧ comeback.Runs ∧
      ∃ e ∈ comeback.hub.entries, ∃ l₀ l, departed.hub.lane? e.key = some l₀ ∧ l₀.isLive = false ∧
        departed.now + 10 < comeback.now ∧ comeback.hub.lane? e.key = some l ∧
        5 + 10 < l.session.idleFor comeback.now) ∧
    ReflTransGen Step (start .default 5 10) halted ∧ halted.Settled ∧
      halted.sweeper.stopped = true ∧ ReflTransGen Step halted restarted ∧
      restarted.swept = halted.swept ++ [.removed ⟨"s1"⟩ .idleTimeout 0] := by
  have timely (a : Hub.Act) (opens : ∀ l, a ≠ .enter l ∧ a ≠ .add l)
      (touches : ∀ key b, a ≠ .session key b) (now : Nat) : a.At now :=
    ⟨fun l same => absurd same (not_or.mpr (opens l)),
      fun key t same => absurd same (touches key (.touch t))⟩
  have departs : ReflTransGen Step (start .default 5 10) departed :=
    opened_run.tail (.acts _ (timely _ (by simp) (by simp) 0))
  have waited : ReflTransGen Step departed (((departed.pass 10).tick 0).pass 19) :=
    .tail (.tail (.single (.passes 10 (by decide))) (.ticks 0 ⟨10, 0⟩ (by decide) (by decide)))
      (.passes 19 (by decide))
  have returns : ReflTransGen Step departed comeback :=
    waited.tail (.acts _ (timely _ (by simp) (by simp) 19))
  have halts : ReflTransGen Step (start .default 5 10) halted :=
    ((opened_run.tail .stops).tail (.breaks 0 rfl)).tail (.passes 10 (by decide))
  have restarts : ReflTransGen Step halted restarted :=
    .tail (.single .starts) (.ticks 0 ⟨10, 10⟩ (by decide) (by decide))
  exact ⟨⟨departs, returns, ⟨by decide, by decide⟩, ⟨by decide, by decide⟩, ⟨⟨"s1"⟩, 0⟩, by decide,
    _, _, rfl, by decide, by decide, rfl, by decide⟩, halts, ⟨by decide, by decide⟩, by decide,
    restarts, by decide⟩

end Sweeping

end Courier
