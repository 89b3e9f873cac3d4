import Courier.Proofs.Scenario.Admission
import Courier.Proofs.Scenario.Teardown
import Courier.Proofs.Server.Settings

set_option autoImplicit false

namespace Courier

/-- Something that is made with a size. -/
inductive Construction
  | channel (events : Nat)
  | queue (places : Nat)
  /-- The period is in milliseconds. -/
  | ticker (period : Nat)

namespace Construction

def size : Construction → Nat
  | channel events => events
  | queue places => places
  | ticker period => period

def wordMax : Nat := UInt64.size - 1

def limit? : Construction → Option Nat
  | channel _ => some (wordMax >>> 1)
  | queue _ => some (wordMax >>> 3)
  | ticker _ => none

/-- Whether the making panics. -/
def Panics (x : Construction) : Prop := x.size = 0 ∨ ∃ limit ∈ x.limit?, limit < x.size

end Construction

theorem Lane.Goes.capacity {kind : Session.Act → Prop} {l l' : Lane} (goes : l.Goes kind l') :
    l'.session.capacity = l.session.capacity := by
  obtain ⟨_, bs, session, _⟩ := goes
  rw [session]
  exact bs.foldlRecOn (motive := fun (s : Session) => s.capacity = l.session.capacity) _ rfl
    fun s before b _ => (congrArg (·.1) (s.settings_act b)).trans before

namespace Hub

theorem capacity_entered {h : Hub} {l l' : Lane} (acts : List Act)
    (there : ((h.enter l).1.run acts).lane? h.lanes.length = some l') :
    l'.session.capacity = l.session.capacity := by
  have inside : h.lanes.length < (h.enter l).1.lanes.length := by
    rw [length_enter]
    omega
  obtain ⟨m, at_key⟩ : ∃ m, (h.enter l).1.lane? h.lanes.length = some m :=
    ⟨_, List.getElem?_eq_getElem inside⟩
  obtain ⟨same, there', later⟩ := (h.enter l).1.run_lane acts at_key
  obtain rfl := Option.some.inj (there.symm.trans there')
  rcases h.act_old (.enter l) at_key with ⟨k, old, _⟩ | ⟨k, opens, first⟩
  · simp [lane?] at old
  · obtain rfl : l = k := by simpa using opens
    calc l'.session.capacity
      _ = m.session.capacity := later.capacity
      _ = l.session.capacity := first.capacity

end Hub

theorem Connection.run_welcome (c : Connection) (h : Hub) (id : SessionId) (client : Client)
    (socket : Socket) (now : Nat) : ∃ acts, (c.welcome h id client socket now).2 =
      (h.enter ⟨id, client, .start h.config now, .socket socket⟩).1.run acts := by
  unfold welcome
  generalize h.enter ⟨id, client, .start h.config now, .socket socket⟩ = done
  obtain ⟨h', result⟩ := done
  cases result with
  | error e =>
    obtain ⟨acts, run, _⟩ := c.quietly_finish h' (some (.notRegistered e))
    exact ⟨acts, run⟩
  | ok key =>
    obtain ⟨acts, run, _⟩ := (proceeds_send (c := { c with phase := .acknowledging ⟨id, key⟩ })
      now h' (.inl rfl) (acknowledgement id)).run
    exact ⟨acts, run⟩

namespace Scenario.World

variable {config : Config} {w : World}

theorem capacity_lane (w : World) (o : Opening) (c : Config) :
    (w.lane o c).session.capacity = max c.queueCapacity 1 := by
  cases discarded : o.discarded <;> simp [lane, discarded, Session.crashed]

/-- What a world makes: the channel of its journal when the hub is started, a queue when it opens a
session, of its own or for a client, and a ticker when a sweeper is started that goes by the
configuration. -/
inductive Makes (w : World) : Construction → Prop
  | channel : Makes w (.channel w.hub.config.journalCapacity)
  | enters {o : Opening} {l : Lane} (opened : (w.enter o).1.hub.lane? w.hub.lanes.length = some l) :
      Makes w (.queue l.session.capacity)
  | welcomes {c : Connection} {id : SessionId} {client : Client} {socket : Socket} {l : Lane}
      (opened : (c.welcome w.hub id client socket w.now).2.lane? w.hub.lanes.length = some l) :
      Makes w (.queue l.session.capacity)
  | sweeps {starts : Nat} {s : Sweeper} (started : Sweeper.ofConfig? w.hub.config starts w.now = some s) :
      Makes w (.ticker s.period)

theorem Makes.size (reached : Reached config w) {x : Construction} (made : w.Makes x) :
    x = .channel config.journalCapacity ∨ x = .queue (max config.queueCapacity 1) ∨
      x = .ticker (config.sweepInterval * 1000) ∧ 0 < config.idleTimeout := by
  have same := reached.config_eq
  cases made with
  | channel => exact .inl (same ▸ rfl)
  | enters opened =>
    rw [hub_enter] at opened
    have capacity := Hub.capacity_entered [] opened
    rw [capacity_lane, same] at capacity
    exact .inr (.inl (capacity ▸ rfl))
  | @welcomes c id client socket l opened =>
    obtain ⟨acts, run⟩ := c.run_welcome w.hub id client socket w.now
    rw [run] at opened
    have capacity : l.session.capacity = max w.hub.config.queueCapacity 1 :=
      Hub.capacity_entered acts opened
    rw [same] at capacity
    exact .inr (.inl (capacity ▸ rfl))
  | @sweeps starts s started =>
    rw [same, Sweeper.ofConfig?, Config.maxIdle?] at started
    split at started
    · rename_i enabled
      obtain rfl := Option.some.inj started
      exact .inr (.inr ⟨rfl, enabled⟩)
    · simp at started

theorem channel_made (reached : Reached config w) : w.Makes (.channel config.journalCapacity) :=
  reached.config_eq ▸ .channel

/-- A session can be opened at any time, whatever becomes of it. -/
theorem queue_made (reached : Reached config w) (o : Opening) :
    w.Makes (.queue (max config.queueCapacity 1)) := by
  have inside : w.hub.lanes.length < (w.enter o).1.hub.lanes.length := by
    rw [hub_enter, Hub.length_enter]
    omega
  have made : w.Makes (.queue _) := .enters (List.getElem?_eq_getElem inside)
  rcases made.size reached with other | same | ⟨other, _⟩
  · simp at other
  · exact same ▸ made
  · simp at other

open Construction (wordMax)

/-- Settings that were loaded are valid. With a valid configuration nothing is ever made with a size of
zero, so that only what is beyond its limit panics; and nothing panics just if the two capacities keep
to their limits. -/
theorem sound_iff_within_limits (config : Config) :
    (∀ (file : Option Server.File) (env : Server.Environment) (s : Server.Settings),
      Server.Settings.load file env = .ok s → s.sessions = config → config.validate = .ok ()) ∧
    (config.validate = .ok () → ∀ w, Reached config w →
      (∀ x, w.Makes x → x.size ≠ 0 ∧ (x.Panics ↔ ∃ limit ∈ x.limit?, limit < x.size)) ∧
      ((∀ x, w.Makes x → ¬x.Panics) ↔
        config.queueCapacity ≤ wordMax >>> 3 ∧ config.journalCapacity ≤ wordMax >>> 1)) := by
  refine ⟨fun file env s loaded same => same ▸ Server.Settings.valid_of_load loaded,
    fun valid w reached => ?_⟩
  obtain ⟨queue, _, interval, journal⟩ := config.validate_ok_iff.mp valid
  have largest : max config.queueCapacity 1 = config.queueCapacity := Nat.max_eq_left queue
  have positive {x : Construction} (made : w.Makes x) : x.size ≠ 0 := by
    rcases made.size reached with rfl | rfl | ⟨rfl, enabled⟩
    · exact Nat.ne_of_gt journal
    · exact Nat.ne_of_gt (by omega : 0 < max config.queueCapacity 1)
    · exact Nat.ne_of_gt (Nat.mul_pos (interval enabled) (by omega))
  refine ⟨fun x made => ⟨positive made, or_iff_right (positive made)⟩, fun sound => ?_, ?_⟩
  · have queued := sound _ (queue_made reached ⟨"", ⟨""⟩, .default, .plain, false⟩)
    have journaled := sound _ (channel_made reached)
    simp only [Construction.Panics, Construction.limit?, Construction.size, Option.mem_some_iff,
      exists_eq_left', largest] at queued journaled
    omega
  · rintro ⟨fits, fits'⟩ x made
    rw [Construction.Panics, or_iff_right (positive made)]
    rcases made.size reached with rfl | rfl | ⟨rfl, _⟩ <;>
      simp [Construction.limit?, Construction.size, largest, fits, fits']

def widest : Config := ⟨wordMax >>> 3, .failFast, 1, 1, 1, wordMax >>> 1⟩

theorem sound_iff_within_limits_widest :
    let env : Server.Environment := fun name =>
      if name = "EMITTER_QUEUE_CAPACITY" then some "2305843009213693951" else none
    let w := ((start widest).runAll [.enter ⟨"a", ⟨"a"⟩, .default, .plain, false⟩]).1
    (∃ s, Server.Settings.load none env = .ok s ∧ s.sessions.queueCapacity = widest.queueCapacity ∧
      s.sessions.validate = .ok ()) ∧
    widest.validate = .ok () ∧ Reached widest w ∧ w.hub.lanes.length = 1 ∧
      ∀ x, w.Makes x → x.size ≠ 0 ∧ ¬x.Panics := by
  intro env w
  have loaded : ∃ s, Server.Settings.load none env = .ok s ∧
      s.sessions.queueCapacity = widest.queueCapacity := by
    refine ⟨_, rfl, ?_⟩
    decide
  obtain ⟨s, loaded, capacity⟩ := loaded
  have reached : Reached widest w := Reached.start.runAll _
  have valid : widest.validate = .ok () := by decide
  obtain ⟨sizes, sound⟩ := (sound_iff_within_limits widest).2 valid w reached
  exact ⟨⟨s, loaded, capacity, (sound_iff_within_limits s.sessions).1 none env s loaded rfl⟩, valid, reached,
    by decide, fun x made => ⟨(sizes x made).1, sound.mpr ⟨by decide, by decide⟩ x made⟩⟩

/-- Settings are loaded with which the opening of a session panics, and a configuration is valid with
which the start of its hub does. -/
theorem oversized_loaded :
    let env : Server.Environment := fun name =>
      if name = "EMITTER_QUEUE_CAPACITY" then some "18446744073709551615" else none
    (∃ s, Server.Settings.load none env = .ok s ∧
      s.sessions = { Config.default with queueCapacity := wordMax } ∧
      ∃ x, (start s.sessions).Makes x ∧ x.Panics) ∧
    Config.validate { Config.default with journalCapacity := wordMax } = .ok () ∧
      ∃ x, (start { Config.default with journalCapacity := wordMax }).Makes x ∧ x.Panics := by
  intro env
  have beyond : wordMax >>> 3 < max wordMax 1 := by simp [wordMax, UInt64.size]
  obtain ⟨s, loaded, sessions⟩ : ∃ s, Server.Settings.load none env = .ok s ∧
      s.sessions = { Config.default with queueCapacity := wordMax } := ⟨_, rfl, by decide⟩
  refine ⟨⟨s, loaded, sessions, _, queue_made .start ⟨"a", ⟨"a"⟩, .default, .plain, false⟩, ?_⟩,
    by decide, _, channel_made .start, .inr ⟨_, rfl, by decide⟩⟩
  rw [sessions]
  exact .inr ⟨_, rfl, beyond⟩

end Scenario.World

end Courier
