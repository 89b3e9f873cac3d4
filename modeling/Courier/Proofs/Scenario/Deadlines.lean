import Courier.Proofs.Lane.Deadlines
import Courier.Proofs.Scenario.Becomes

set_option autoImplicit false

namespace Courier.Scenario.World

variable {config : Config} {w w' : World} {key : Key} {l : Lane}

theorem Becomes.onTime (course : Becomes True (start config) w) (there : w.hub.lane? key = some l) :
    l.session.Regular ∧ l.session.InTime w.now :=
  course.keep (P := fun s => s.lane.session.Regular ∧ s.lane.session.InTime s.now)
    (fun s fresh => ⟨Session.regular_of_isNew fresh.session, fresh.inTime s.now⟩)
    (fun _ _ _ _ run before => ⟨run.regular before.1, run.inTime trivial before.2⟩) there

/-- What has come of a session by a later time: where a write was in progress it goes on within its
time, or has ended; who had a place in the line has its verdict when its time is up. -/
structure Serves (w w' : World) (key : Key) (l : Lane) (told : Key → List Notice) (l' : Lane) :
    Prop where
  write : ∀ p since, l.session.writer = .writing p since →
    (l'.session.writer = .writing p since ∧ w'.now ≤ since + l.session.writeTimeout) ∨
      Lane.Ended (.free True) (w.scene.at l) p since (told key) (w'.scene.at l')
  verdict : ∀ (q : Nat) p, l.session.line[q]? = some p →
    w.now + (q + 1) * l.session.writeTimeout < w'.now →
      (∃ n ∈ told key, n.caller = p.caller ∧ n.outcome.IsVerdict) ∧
        ∀ c ∈ w.calls, c.key = key → p.caller = .sender c.sender → c ∉ w'.calls

theorem serves (course : Becomes True (start config) w) (later : Becomes True w w')
    (there : w.hub.lane? key = some l) : ∃ l' told left, w'.hub.lane? key = some l' ∧
      Hub.Deeds (.free True) w.scene told left w'.scene ∧ Serves w w' key l told l' := by
  obtain ⟨told, left, deeds, calls⟩ := later.leads.deeds
  have ordered := course.leads.ordered (ordered_start config)
  obtain ⟨l', there', run⟩ := deeds.run there
  obtain ⟨regular, inTime⟩ := course.onTime there
  refine ⟨l', told, left, there', deeds, fun p since writer => ?_, fun q p place late => ?_⟩
  · refine (run.ends trivial inTime writer).imp_left fun writes => ⟨writes, ?_⟩
    have onTime := run.inTime trivial inTime
    exact run.writeTimeout ▸ (onTime p since writes).2
  · obtain ⟨n, heard, own, verdict⟩ := run.verdict trivial regular inTime place late
    refine ⟨⟨n, heard, own, verdict⟩, fun c called at_key sender stays => ?_⟩
    refine (calls ordered c stays (ordered.early c called)).2 ?_
    rw [at_key, ← sender]
    exact List.mem_map.mpr ⟨n, heard, own⟩

/-- Scenarios in which time passes continuously are on a prompt course; and on such a course every
session serves its line in time, whatever its stream does and whoever closes or removes it. -/
theorem verdicts_in_time :
    (∀ (config : Config) (steps : List Step), (∀ s ∈ steps, s.isSmooth = true) →
      Becomes True (start config) ((start config).runAll steps).1) ∧
    ∀ (config : Config) (w w' : World), Becomes True (start config) w → Becomes True w w' →
      ∀ key l, w.hub.lane? key = some l → ∃ l' told left, w'.hub.lane? key = some l' ∧
        Hub.Deeds (.free True) w.scene told left w'.scene ∧ Serves w w' key l told l' :=
  ⟨fun config steps continuous => ((smooth_start config).runAll steps continuous).becomes,
    fun _ _ _ course later _ _ there => serves course later there⟩

def stallingSteps : List Step :=
  let message : Message := ⟨.default, .success⟩
  [ .spawn ⟨"a", ⟨"a"⟩, .plain "s" "g" .subscribe, { ProbeScript.plain with hold := true }, false⟩
      (some { Config.default with writeTimeout := 5 }),
    .send [⟨"first", .handle "a", message, none, none⟩],
    .send [⟨"second", .handle "a", message, none, none⟩]]

/-- The write takes too long, and both senders have their answers. -/
theorem verdicts_in_time_stalling :
    let w := ((start .default).runAll stallingSteps).1
    let w' := (w.runAll [.advance 11]).1
    ∃ l l' told left p, Becomes True (start .default) w ∧ Becomes True w w' ∧
      w.hub.lane? 0 = some l ∧ w'.hub.lane? 0 = some l' ∧ l.session.writer = .writing p 0 ∧
      Hub.Deeds (.free True) w.scene told left w'.scene ∧
      Lane.Ended (.free True) (w.scene.at l) p 0 (told 0) (w'.scene.at l') ∧
      (∃ n ∈ told 0, n.caller = .sender 1 ∧ n.outcome.IsVerdict) ∧
      w.calls.map (·.sender) = [0, 1] ∧ ∀ c ∈ w.calls, c.sender = 1 → c ∉ w'.calls := by
  intro w w'
  have course : Becomes True (start .default) w := verdicts_in_time.1 .default stallingSteps (by decide)
  obtain ⟨_, sane, settled⟩ := (smooth_start .default).runAll stallingSteps (by decide)
  have later : Becomes True w w' :=
    (Smooth.runAll ⟨.refl, sane, settled⟩ [.advance 11] (by decide)).becomes
  obtain ⟨l, there⟩ : ∃ l, w.hub.lane? 0 = some l := Option.isSome_iff_exists.mp (by decide)
  have facts : (w.hub.lane? 0).map (fun l =>
      (l.session.line.map (·.caller), l.session.writeTimeout)) = some ([.sender 0, .sender 1], 5) := by
    decide
  rw [there, Option.map_some, Option.some.injEq] at facts
  obtain ⟨line, limit⟩ := Prod.mk.inj facts
  have writes : (w.hub.lane? 0).map (·.session.writer) =
      some (.writing ⟨.sender 0, (⟨.default, .success⟩ : Message).encode⟩ 0) := by rfl
  rw [there, Option.map_some, Option.some.injEq] at writes
  obtain ⟨l', told, left, there', deeds, write, verdict⟩ :=
    verdicts_in_time.2 .default w w' course later 0 l there
  have now : w'.now = 11 := by decide
  obtain ⟨q, second, caller⟩ : ∃ q, l.session.line[1]? = some q ∧ q.caller = .sender 1 := by
    have at_one := congrArg (·[1]?) line
    simpa using at_one
  have answered := verdict 1 q second (by rw [limit, now]; decide)
  refine ⟨l, l', told, left, _, course, later, there, there', writes, deeds,
    (write _ 0 writes).resolve_left (fun still => ?_), caller ▸ answered.1, by decide,
    fun c called own => answered.2 c called ?_ (own ▸ caller)⟩
  · have onTime := still.2
    rw [limit, now] at onTime
    omega
  · have keys : ∀ c ∈ w.calls, c.key = 0 := by decide
    exact keys c called

end Courier.Scenario.World
