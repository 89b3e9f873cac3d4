import Courier.Proofs.Scenario.Admission
import Courier.Proofs.Scenario.Fresh

set_option autoImplicit false

namespace Courier

/-- The lane is as if the sender had not been there. The senders after it have the numbers before
theirs. -/
structure Lane.Unaffected (n : Nat) (l l' : Lane) : Prop where
  stream : l'.stream = l.stream
  life : l'.session.life = l.session.life
  sequence : l'.session.sequence = l.session.sequence
  queue : l'.session.queue = l.session.queue.map (·.without (.sender n))
  waiting : l'.session.waiting = l.session.waiting.map (·.without (.sender n))

namespace Scenario

namespace World

variable {n : Nat} {tag : String} {home : Key} {x : Waiter} {w w' : World} {steps : List Step}

theorem runAll_append (w : World) (steps more : List Step) :
    (w.runAll (steps ++ more)).1 = ((w.runAll steps).1.runAll more).1 := by
  simp only [runAll_fst, List.foldl_append]

/-- What every step of a run keeps of two worlds, the run keeps. -/
theorem runAll_induct₂ {P : World → World → Prop} {w u : World} (start : P w u)
    (step : ∀ v v' s, s ∈ steps → P v v' → P (v.run s).1 (v'.run s).1) :
    P (w.runAll steps).1 (u.runAll steps).1 := by
  rw [runAll_fst, runAll_fst]
  induction steps generalizing w u with
  | nil => exact start
  | cons s steps ih =>
    exact ih (step w u s List.mem_cons_self start) fun v v' t there => step v v' t
      (List.mem_cons_of_mem s there)

theorem runAll_induct {P : World → Prop} (start : P w)
    (step : ∀ v s, s ∈ steps → P v → P (v.run s).1) : P (w.runAll steps).1 :=
  runAll_induct₂ (u := w) (P := fun v _ => P v) start fun v _ s there => step v s there

theorem Rests.runAll (rests : w.Rests) (apart : ∀ s ∈ steps, s.connects = false) :
    (w.runAll steps).1.Rests :=
  runAll_induct (P := fun v => v.Rests) rests fun _ s there rests => rests.run (apart s there)

theorem Fresh.runAll (fresh : w.Fresh tag) (rests : w.Rests)
    (apart : ∀ s ∈ steps, s.connects = false) (named : ∀ s ∈ steps, tag ∉ s.tags) :
    (w.runAll steps).1.Fresh tag :=
  (runAll_induct (P := fun v => v.Fresh tag ∧ v.Rests) ⟨fresh, rests⟩
    fun _ s there before => ⟨before.1.run before.2 (apart s there) (named s there),
      before.2.run (apart s there)⟩).1

theorem Absent.runAll (absent : Absent n tag w w') (rests : w.Rests)
    (apart : ∀ s ∈ steps, s.connects = false) (named : ∀ s ∈ steps, tag ∉ s.tags) :
    Absent n tag (w.runAll steps).1 (w'.runAll steps).1 :=
  (runAll_induct₂ (P := fun v v' => Absent n tag v v' ∧ v.Rests) ⟨absent, rests⟩
    fun _ _ s there before => ⟨before.1.run before.2 (apart s there) (named s there),
      before.2.run (apart s there)⟩).1

theorem Arrived.runAll (arrived : w.Arrived n tag) (rests : w.Rests)
    (apart : ∀ s ∈ steps, s.connects = false) (named : ∀ s ∈ steps, tag ∉ s.tags) :
    (w.runAll steps).1.Arrived n tag :=
  (runAll_induct (P := fun v => v.Arrived n tag ∧ v.Rests) ⟨arrived, rests⟩
    fun _ s there before => ⟨before.1.run before.2 (apart s there) (named s there),
      before.2.run (apart s there)⟩).1

theorem Fate.runAll (fate : Fate n tag home x w w') (rests : w.Rests) (rests' : w'.Rests)
    (apart : ∀ s ∈ steps, s.connects = false) (named : ∀ s ∈ steps, tag ∉ s.tags) :
    Fate n tag home x (w.runAll steps).1 (w'.runAll steps).1 :=
  (runAll_induct₂ (P := fun v v' => Fate n tag home x v v' ∧ v.Rests ∧ v'.Rests)
    ⟨fate, rests, rests'⟩ fun _ _ s there before =>
      ⟨before.1.run before.2.1 before.2.2 (apart s there) (named s there),
        before.2.1.run (apart s there), before.2.2.run (apart s there)⟩).1

theorem rests_start (config : Config) : (World.start config).Rests where
  sane := (fresh_start config "").sane
  settled := rfl

def AwaitsPlace (n : Nat) (w : World) : Prop :=
  ∃ l ∈ w.hub.lanes, Caller.sender n ∈ l.session.waitingCallers

instance : Decidable (w.AwaitsPlace n) :=
  inferInstanceAs (Decidable (∃ l ∈ w.hub.lanes, Caller.sender n ∈ l.session.waitingCallers))

theorem Lingers.awaitsPlace {left : Bool} (lingers : Lingers n tag home x left w w') :
    w.AwaitsPlace n := by
  obtain ⟨l, there, waits⟩ := lingers.stands.awaits
  exact ⟨l, List.mem_of_getElem? there, List.mem_map.mpr ⟨x, waits, lingers.stands.caller⟩⟩

theorem Absent.not_awaitsPlace (absent : Absent n tag w w') : ¬w.AwaitsPlace n := by
  rintro ⟨l, member, waits⟩
  obtain ⟨key, there⟩ := List.getElem?_of_mem member
  have none := List.count_eq_zero.mp (absent.departed.count there)
  exact none (List.mem_append_right _ waits)

theorem Arrived.not_awaitsPlace (arrived : w.Arrived n tag) : ¬w.AwaitsPlace n := by
  rintro ⟨l, here, waits⟩
  obtain ⟨key, there⟩ := List.getElem?_of_mem here
  obtain ⟨v, member, own⟩ := List.mem_map.mp waits
  exact arrived.nowhere key l there v member own

/-- The world is as if the sender had not been there. -/
structure Unaffected (n : Nat) (tag : String) (w w' : World) : Prop where
  lanes : List.Forall₂ (Lane.Unaffected n) w.hub.lanes w'.hub.lanes
  /-- Calls tell which sender has which tag. -/
  calls : w'.calls = w.calls.map (·.without n)
  /-- Nothing else differs but how many have begun, and what goes by the tag. -/
  same : w' = w.without n tag fun _ => false

theorem Absent.unaffected (absent : Absent n tag w w') : Unaffected n tag w w' where
  lanes := by
    refine List.forall₂_iff_get.mpr ⟨?_, fun key inside inside' => ?_⟩
    · rw [absent.same]
      exact w.hub.length_without.symm
    · have none : w.hub.lanes[key].session.waiting.filter (·.parcel.caller != .sender n) =
          w.hub.lanes[key].session.waiting :=
        List.filter_eq_self.mpr fun v waits => bne_iff_ne.mpr fun own => absent.not_awaitsPlace
          ⟨_, List.getElem_mem inside, List.mem_map.mpr ⟨v, waits, own⟩⟩
      have lane : w'.hub.lanes.get ⟨key, inside'⟩ = w.hub.lanes[key].without (.sender n) false := by
        simp [absent.same, without, Hub.without]
      rw [lane]
      exact ⟨rfl, rfl, rfl, rfl, congrArg (List.map _) none⟩
  calls := by
    rw [absent.same, without, List.filter_eq_self.mpr fun c there =>
      bne_iff_ne.mpr (absent.departed.silent c there)]
  same := absent.same

end World

/-- A scenario in which one send can be left out: it goes to one session, and its tag is its own. -/
structure Excerpt where
  config : Config
  before : List Step
  /-- What begins together with the send, before it and after it. -/
  first : List Send
  send : Send
  last : List Send
  after : List Step
  direct : send.IsDirect
  sole : send.tag ∉ (first ++ last).map (·.tag)
  named : ∀ s ∈ before ++ after, send.tag ∉ s.tags
  apart : ∀ s ∈ before ++ after, s.connects = false

namespace Excerpt

variable (e : Excerpt)

/-- The world when some have begun to send, and after `k` more steps. -/
def sending (sends : List Send) (k : Nat) : World :=
  ((World.start e.config).runAll (e.before ++ .send sends :: e.after.take k)).1

def whole (k : Nat) : World := e.sending (e.first ++ e.send :: e.last) k

def short (k : Nat) : World := e.sending (e.first ++ e.last) k

def number : Nat := ((World.start e.config).runAll e.before).1.sends + e.first.length

/-- The send ends without a place: it runs out of patience or meets a full queue, or it is dropped
while it waits. -/
inductive Fruitless : Prop
  | late (k : Nat) (f : Finish) (there : f ∈ (e.whole k).finished) (own : f.tag = e.send.tag)
      (late : f.reply.IsLate)
  | dropped (k : Nat) (waits : (e.whole k).AwaitsPlace e.number)
      (drops : e.after[k]? = some (.abort e.send.tag))

variable {e : Excerpt}

theorem rests_before : ((World.start e.config).runAll e.before).1.Rests :=
  (World.rests_start e.config).runAll fun s there => e.apart s (List.mem_append_left _ there)

theorem sending_zero (sends : List Send) :
    e.sending sends 0 = (((World.start e.config).runAll e.before).1.run (.send sends)).1 := by
  rw [sending, World.runAll_append]
  rfl

theorem sending_add (sends : List Send) (k j : Nat) :
    e.sending sends (k + j) = ((e.sending sends k).runAll ((e.after.drop k).take j)).1 := by
  rw [sending, sending, ← World.runAll_append, List.take_add, List.append_assoc, List.cons_append]

theorem mem_after {k j : Nat} {s : Step} (there : s ∈ (e.after.drop k).take j) :
    s.connects = false ∧ e.send.tag ∉ s.tags :=
  have member := List.mem_append_right e.before (List.mem_of_mem_drop (List.mem_of_mem_take there))
  ⟨e.apart s member, e.named s member⟩

theorem rests_sending (sends : List Send) (k : Nat) : (e.sending sends k).Rests := by
  rw [← Nat.zero_add k, sending_add, sending_zero]
  exact (e.rests_before.run rfl).runAll fun s there => (e.mem_after there).1

/-- In every step the sender waits, or has left, or has arrived. -/
theorem fate (e : Excerpt) : ∃ home x, ∀ k,
    World.Fate e.number e.send.tag home x (e.whole k) (e.short k) := by
  have fresh := (World.fresh_start e.config e.send.tag).runAll (World.rests_start e.config)
    (fun s there => e.apart s (List.mem_append_left _ there))
    fun s there => e.named s (List.mem_append_left _ there)
  obtain ⟨home, x, begun⟩ := fresh.send e.rests_before e.direct e.sole
  rw [← sending_zero, ← sending_zero] at begun
  refine ⟨home, x, fun k => ?_⟩
  rw [whole, short, ← Nat.zero_add k, sending_add, sending_add]
  exact begun.runAll (e.rests_sending _ 0) (e.rests_sending _ 0) (fun s there => (e.mem_after there).1)
    fun s there => (e.mem_after there).2

theorem absent_later {k j : Nat} (absent : World.Absent e.number e.send.tag (e.whole k) (e.short k))
    (later : k ≤ j) : World.Absent e.number e.send.tag (e.whole j) (e.short j) := by
  obtain ⟨i, rfl⟩ := Nat.exists_eq_add_of_le later
  rw [whole, short, sending_add, sending_add]
  exact absent.runAll (e.rests_sending _ k) (fun s there => (e.mem_after there).1)
    fun s there => (e.mem_after there).2

theorem arrived_later {k j : Nat} (arrived : (e.whole k).Arrived e.number e.send.tag)
    (later : k ≤ j) : (e.whole j).Arrived e.number e.send.tag := by
  obtain ⟨i, rfl⟩ := Nat.exists_eq_add_of_le later
  rw [whole, sending_add]
  exact arrived.runAll (e.rests_sending _ k) (fun s there => (e.mem_after there).1)
    fun s there => (e.mem_after there).2

theorem Fruitless.leaves (fruitless : e.Fruitless) : ∃ k,
    ¬(e.whole k).Arrived e.number e.send.tag ∧
      ∀ j, k < j → World.Absent e.number e.send.tag (e.whole j) (e.short j) := by
  obtain ⟨home, x, fate⟩ := e.fate
  cases fruitless with
  | late k f there own late =>
    have lost : ¬(e.whole k).Spared e.send.tag := fun spared => spared f there own late
    refine ⟨k, fun arrived => lost arrived.spared, fun j later => ?_⟩
    rcases fate k with ⟨left, lingers⟩ | absent | arrived
    · exact absurd lingers.spared lost
    · exact absent_later absent (Nat.le_of_lt later)
    · exact absurd arrived.spared lost
  | dropped k waits drops =>
    refine ⟨k, fun arrived => arrived.not_awaitsPlace waits, fun j later => ?_⟩
    rcases fate k with ⟨left, lingers⟩ | absent | arrived
    · refine absent_later (k := k + 1) ?_ later
      have drop : (e.after.drop k).take 1 = [.abort e.send.tag] := by
        rw [List.take_one, List.head?_drop, drops]
        rfl
      rw [whole, short, sending_add, sending_add, drop]
      exact lingers.run_abort (e.rests_sending _ k) (e.rests_sending _ k)
    · exact absurd waits absent.not_awaitsPlace
    · exact absurd waits arrived.not_awaitsPlace

/-- A send that ends without a place leaves no trace: without it, all others have the same results in
every step, and all is the same as soon as the sender waits no more. -/
theorem fruitless_send_leaves_no_trace (e : Excerpt) (fruitless : e.Fruitless) (k : Nat) :
    (e.short k).finished = (e.whole k).finished.filter (·.tag != e.send.tag) ∧
    (¬(e.whole k).AwaitsPlace e.number →
      World.Unaffected e.number e.send.tag (e.whole k) (e.short k)) := by
  obtain ⟨home, x, fate⟩ := e.fate
  obtain ⟨m, never, leaves⟩ := fruitless.leaves
  rcases fate k with ⟨left, lingers⟩ | absent | arrived
  · exact ⟨by rw [lingers.same]; rfl, fun gone => absurd lingers.awaitsPlace gone⟩
  · exact ⟨by rw [absent.same]; rfl, fun _ => absent.unaffected⟩
  · have absent := leaves k (Nat.lt_of_not_le fun early => never (arrived_later arrived early))
    exact ⟨by rw [absent.same]; rfl, fun _ => absent.unaffected⟩

/-- One of two callers that wait for a place does not wait for long. -/
def impatient : Excerpt where
  config := .default
  before := World.crowded.take 3
  first := []
  send := ⟨"brief", .handle "a", ⟨.default, .success⟩, some 5, none⟩
  last := []
  after := World.crowded.drop 4
  direct := .inl ⟨"a", rfl⟩
  sole := by simp
  named := by decide
  apart := by decide

theorem fruitless_send_leaves_no_trace_impatient :
    (impatient.whole 1).AwaitsPlace impatient.number ∧ impatient.Fruitless ∧
      (impatient.whole 2).finished.map (·.tag) = ["brief"] ∧
      (impatient.short 2).finished = (impatient.whole 2).finished.filter (·.tag != "brief") ∧
      World.Unaffected impatient.number "brief" (impatient.whole 2) (impatient.short 2) ∧
      (impatient.whole 2).hub.lanes.map (·.session.waitingCallers) = [[.sender 3]] ∧
      (impatient.short 2).hub.lanes.map (·.session.waitingCallers) = [[.sender 2]] := by
  have finished : (impatient.whole 2).finished = [⟨"brief", some ⟨"a"⟩, .error (.timeout "a")⟩] := rfl
  have fruitless : impatient.Fruitless :=
    .late 2 _ (finished ▸ List.mem_singleton_self _) rfl ⟨"a", .inl rfl⟩
  obtain ⟨others, unaffected⟩ := fruitless_send_leaves_no_trace impatient fruitless 2
  exact ⟨by decide, fruitless, by decide, others, unaffected (by decide), by decide, by decide⟩

end Excerpt

end Scenario

end Courier
