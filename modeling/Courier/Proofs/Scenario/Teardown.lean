import Courier.Proofs.Hub.Steps
import Courier.Proofs.Lane.Deadlines
import Courier.Proofs.Lane.Release
import Courier.Proofs.Scenario.Becomes
import Courier.Proofs.Session.Teardown

set_option autoImplicit false

namespace Courier.Scenario.World

variable {w : World} {key : Key} {l : Lane}

/-- The end of the session of a key has begun. -/
inductive Ending (w : World) (key : Key) (l : Lane) : Prop
  | closed (closing : l.session.closing = true)
  /-- The session was registered, and is not any more: it was removed or replaced. -/
  | removed {config : Config} {v : World} (reached : Reached config v) (later : Becomes False v w)
      {e : Entry} (entry : e ∈ v.hub.entries) (own : e.key = key) (gone : e ∉ w.hub.entries)
  | failed (dead : l.isLive = false)
  | dropped (free : w.isHeld key = false)

/-- Nobody is left in the session of a key. Whoever was in it has been told what became of its parcel,
or has left, and no send waits for an answer. The release of the stream began once, and is over. -/
structure TornDown (w : World) (key : Key) (l : Lane) : Prop where
  queue : l.session.queue = []
  waiting : l.session.waiting = []
  calls : ∀ c ∈ w.calls, c.key ≠ key
  told : ∀ v, Becomes False v w → ∀ before, v.hub.lane? key = some before → ∃ told left,
    Hub.Deeds (.free False) v.scene told left w.scene ∧ ∀ caller ∈ before.session.callers,
      caller ∈ (told key).map (·.caller) ∨ caller ∈ left key
  closes : l.stream.closes = 1
  removed : l.session.life = .removed

theorem Reached.leads {config : Config} (reached : Reached config w) :
    Leads (.free False) (.start config) w := reached.becomes.leads

theorem Reached.ordered {config : Config} (reached : Reached config w) : w.Ordered :=
  reached.leads.ordered (ordered_start config)

theorem Reached.linked {config : Config} (reached : Reached config w) : w.Linked :=
  reached.leads.linked (ordered_start config) (linked_start config)

theorem Reached.kept {config : Config} (reached : Reached config w) (there : w.hub.lane? key = some l) :
    l.session.Regular ∧ l.Kept :=
  reached.becomes.keep (P := fun s => s.lane.session.Regular ∧ s.lane.Kept)
    (fun _ fresh => ⟨Session.regular_of_isNew fresh.session, fresh.kept⟩)
    (fun _ _ _ _ run before => ⟨run.regular before.1, run.kept before.2⟩) there

theorem Reached.made {config : Config} (reached : Reached config w) :
    ∃ acts, w.hub = (Hub.start config).run acts := by
  obtain ⟨_, _, deeds, _⟩ := reached.leads.deeds
  exact deeds.made

theorem Reached.sound {config : Config} (reached : Reached config w) : w.hub.Sound := by
  obtain ⟨acts, made⟩ := reached.made
  exact made ▸ (Hub.run_sound (Hub.sound_start config) acts).1

theorem closed_of_gone {config : Config} {v : World} (reached : Reached config v)
    (later : Becomes False v w) {e : Entry} (entry : e ∈ v.hub.entries) (gone : e ∉ w.hub.entries) :
    w.hub.Closed e.key := by
  obtain ⟨_, _, deeds, _⟩ := later.leads.deeds
  obtain ⟨more, after⟩ := deeds.made
  have fate := (Hub.run_sound reached.sound more).2 e entry
  rw [show v.hub.run more = w.hub from after.symm] at fate
  exact fate.resolve_left gone

/-- In a world at rest a session whose end has begun has a writer that works on its stream, or is at
its end. -/
theorem Ending.busy {config : Config} (reached : Reached config w) (settled : w.next? = none)
    (there : w.hub.lane? key = some l) (ending : w.Ending key l) : l.session.writer ≠ .idle := by
  intro idle
  obtain ⟨still, learnt⟩ := still_of_settled settled
  have turn : l.session.turn? w.now = none := by
    simpa [Lane.act?, idle] using still key l there
  obtain ⟨_, unmarked, held, _⟩ := Session.waits_of_turn? idle turn
  obtain ⟨regular, _⟩ := reached.kept there
  cases ending with
  | closed closing => simp [unmarked] at closing
  | removed reached' later entry own gone =>
    obtain ⟨m, at_key, closing⟩ := closed_of_gone reached' later entry gone
    obtain rfl : l = m := Option.some.inj (there.symm.trans (own ▸ at_key))
    simp [unmarked] at closing
  | failed dead => exact (regular.silent dead unmarked).2.1 idle
  | dropped free =>
    have inside := List.mem_range.mpr (List.getElem?_eq_some_iff.mp there).1
    simpa [isLeft, free, there, held] using learnt key inside

theorem tornDown {config : Config} (reached : Reached config w) (settled : w.next? = none)
    (there : w.hub.lane? key = some l) (alive : l.session.writer ≠ .dead) (ending : w.Ending key l)
    (through : l.session.writer.isPending = false) : w.TornDown key l := by
  have busy := ending.busy reached settled there
  have finished : l.session.writer = .finished := by
    cases writer : l.session.writer <;> simp_all
  obtain ⟨regular, kept⟩ := reached.kept there
  obtain ⟨shut, _, line⟩ := regular.through busy (by simp [Session.inFlight, finished])
  have waiting := regular.shut shut
  have nobody : l.session.callers = [] := by
    simp [Session.callers, line, Session.waitingCallers, waiting]
  refine ⟨(List.append_eq_nil_iff.mp line).2, waiting, fun c member own => ?_,
    fun v later before at_key => ?_, ?_, kept.removed finished⟩
  · obtain ⟨m, at_key, inside⟩ := reached.linked c member
    obtain rfl : l = m := Option.some.inj (there.symm.trans (own ▸ at_key))
    simp [nobody] at inside
  · obtain ⟨told, left, deeds, _⟩ := later.leads.deeds
    obtain ⟨m, at_key', run⟩ := deeds.run at_key
    obtain rfl : l = m := Option.some.inj (there.symm.trans at_key')
    refine ⟨told, left, deeds, fun caller inside => ?_⟩
    by_contra unheard
    rw [not_or] at unheard
    have stays := run.stays inside unheard.1 unheard.2
    simp [Hub.Scene.at, nobody] at stays
  · simp [kept.closes, finished]

/-- Teardown completes. A writer that nothing comes in between comes to rest. Where nobody is between
two steps of a session whose end has begun, and where a world with such a session has settled, nothing
is left of the session once its stream is through with what the writer gave it. -/
theorem teardown_completes :
    (∀ (c : Config) (now : Nat) (steps : List Strands.Step),
      let x := (Strands.start c now).run steps
      (∀ t, ∃ n, (x.run (List.replicate n (.move t))).Rests) ∧
      (x.Settled → x.Ending → x.session.writer.isPending = false → x.TornDown steps)) ∧
    ∀ (config : Config) (w : World), Reached config w → w.next? = none →
      ∀ key l, w.hub.lane? key = some l → l.session.writer ≠ .dead → w.Ending key l →
        l.session.writer.isPending = false → w.TornDown key l :=
  ⟨fun c now steps => ⟨Strands.rests_after_moves ((Strands.sound_start c now).run steps).coherent,
    Strands.tornDown_run c now steps⟩,
    fun _ _ reached settled _ _ there alive ending through =>
      tornDown reached settled there alive ending through⟩

/-- A write fails while one parcel is queued, one caller waits, and one has quit; somebody closes the
session meanwhile. -/
def failingSteps : List Strands.Step :=
  let p (n : Nat) : Parcel := ⟨.sender n, "m"⟩
  let comes (n : Nat) : List Strands.Step := [.check (p n), .put (p n) .endless false 0]
  comes 0 ++ [.move 0, .move 0] ++ comes 1 ++ comes 2 ++ [.check (p 3), .quit (.sender 3), .drain,
    .fail .closed, .mark 0] ++ List.replicate 5 (.move 0) ++ [.released]

/-- One parcel is written, one is queued and one caller waits when the session is closed; one of them
is aborted. Then the stream lets all writes pass. -/
def flushingSteps : List Step :=
  let message : Message := ⟨.default, .success⟩
  [ .spawn ⟨"a", ⟨"a"⟩, .plain "s" "g" .subscribe, { ProbeScript.plain with hold := true }, false⟩
      (some { Config.default with queueCapacity := 1 }),
    .send [⟨"written", .handle "a", message, none, none⟩],
    .send [⟨"queued", .handle "a", message, none, none⟩],
    .send [⟨"waiting", .handle "a", message, none, none⟩],
    .close "a", .abort "queued", .script "a" fun p => { p with hold := false }]

theorem teardown_completes_flushing :
    let x := (Strands.start { Config.default with queueCapacity := 1 } 0).run failingSteps
    (x.Settled ∧ x.Ending ∧ x.told.length = 3 ∧ x.TornDown failingSteps) ∧
    let w := ((start .default).runAll flushingSteps).1
    ∃ l, Reached .default w ∧ w.next? = none ∧ w.hub.lane? 0 = some l ∧ w.Ending 0 l ∧
      l.session.sequence = 2 ∧ w.TornDown 0 l := by
  intro x
  constructor
  · have busy : x.Busy := ⟨by decide, by decide⟩
    have settled : x.Settled :=
      ⟨by decide, by decide, fun t => by rw [busy.move, busy.move]⟩
    have ending : x.Ending := .closed (by decide)
    exact ⟨settled, ending, by decide,
      (teardown_completes.1 _ 0 failingSteps).2 settled ending (by decide)⟩
  · intro w
    obtain ⟨course, _, settled⟩ := (smooth_start .default).runAll flushingSteps (by decide)
    have reached : Reached .default w := Reached.start.runAll flushingSteps
    obtain ⟨l, there⟩ : ∃ l, w.hub.lane? 0 = some l := Option.isSome_iff_exists.mp (by decide)
    have facts : (w.hub.lane? 0).map (fun l => (l.session.closing, l.session.writer,
        l.session.sequence)) = some (true, .finished, 2) := by decide
    rw [there, Option.map_some, Option.some.injEq] at facts
    obtain ⟨closing, rest⟩ := Prod.mk.inj facts
    obtain ⟨writer, sequence⟩ := Prod.mk.inj rest
    have ending : w.Ending 0 l := .closed closing
    exact ⟨l, reached, settled, there, ending, sequence, teardown_completes.2 .default w reached settled
      0 l there (by simp [writer]) ending (by simp [writer])⟩

end Courier.Scenario.World
