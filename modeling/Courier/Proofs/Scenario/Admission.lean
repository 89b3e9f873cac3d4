import Courier.Proofs.Scenario.Becomes

set_option autoImplicit false

namespace Courier

theorem Hub.answer_backpressure {id : SessionId} {o : Outcome} :
    answer id o = .error (.backpressure id.text) ↔ o = .refused .full := by
  rcases o with n | ⟨f | _ | _⟩ <;> simp [answer, SendError.ofFault]

theorem Hub.answer_timeout {id : SessionId} {o : Outcome} :
    answer id o = .error (.timeout id.text) ↔ o = .refused .lapsed := by
  rcases o with n | ⟨f | _ | _⟩ <;> simp [answer, SendError.ofFault]

namespace Ledger

/-- What the callers of a session hear whose parcels are not admitted, and which of them. -/
structure Answers (c : Config) (now : Nat) (cancelled : List String) (l : Ledger) (id : SessionId) :
    Prop where
  refuses : ∀ p patience spent t, c.backpressure = .failFast → l.session.isLive = true →
    l.session.intake = true → l.session.queue.length = max c.queueCapacity 1 →
    (l.session.act (.offer p patience spent t)).2.map (fun n => (n.caller, Hub.answer id n.outcome)) =
      [(p.caller, .error (.backpressure id.text))]
  lapses : ∀ p patience t, c.backpressure = .block → l.session.isLive = true →
    l.session.intake = true → l.session.queue.length = max c.queueCapacity 1 →
    patience.isOver now cancelled = true →
    (l.session.act (.offer p patience true t)).2.map (fun n => (n.caller, Hub.answer id n.outcome)) =
      [(p.caller, .error (.timeout id.text))]
  full : ∀ a, ∀ n ∈ (l.session.act a).2, Hub.answer id n.outcome = .error (.backpressure id.text) →
    c.backpressure = .failFast ∧ l.session.queue.length = max c.queueCapacity 1
  lapsed : ∀ a, a.Timely l.session now cancelled → ∀ n ∈ (l.session.act a).2,
    Hub.answer id n.outcome = .error (.timeout id.text) → c.backpressure = .block ∧
    l.session.queue.length = max c.queueCapacity 1 ∧
    ((∃ p patience t, a = .offer p patience true t ∧ p.caller = n.caller ∧
        patience.isOver now cancelled = true) ∨
      ∃ v ∈ l.session.waiting, v.parcel.caller = n.caller ∧ v.patience.isOver now cancelled = true)

variable {c : Config} {now : Nat} {cancelled : List String} {l : Ledger}

theorem Admits.answers (admits : l.Admits c now cancelled) (id : SessionId) :
    l.Answers c now cancelled id where
  refuses p patience spent t mode live taking filled := by
    rw [admits.refuses p patience spent t mode live taking filled]
    rfl
  lapses p patience t mode live taking filled late := by
    have lapses := admits.waits p patience t mode live taking filled
    rw [late, if_pos rfl] at lapses
    rw [lapses]
    rfl
  full a n told heard := admits.full a n told (Hub.answer_backpressure.mp heard)
  lapsed a timely n told heard := admits.lapsed a timely n told (Hub.answer_timeout.mp heard)

end Ledger

namespace Scenario

/-- The configuration of the sessions that a step opens in a world with the given one. -/
def Step.settings (config : Config) : Step → Config
  | .spawn _ own => own.getD config
  | _ => config

namespace World

variable {config c : Config} {w w' : World} {key : Key} {l : Lane}

/-- What may open sessions, and the configuration that it gives them. -/
inductive Introduces (config : Config) (w : World) : Config → World → Prop
  | step (s : Step) : Introduces config w (s.settings config) (w.perform s).1
  | move {m : Move} (next : w.next? = some m) : Introduces config w config (w.make m)

/-- A world that comes of one in which the session has just been opened with the configuration. -/
def OpenedWith (config : Config) (w : World) (key : Key) (c : Config) : Prop :=
  ∃ before opened, Reached config before ∧ before.hub.lane? key = none ∧
    Introduces config before c opened ∧ (∃ l, opened.hub.lane? key = some l) ∧ Becomes False opened w

theorem Reached.config_eq (reached : Reached config w) : w.hub.config = config := by
  obtain ⟨_, _, deeds, _⟩ := reached.becomes.leads.deeds
  exact deeds.config

theorem Leads.settings (leads : Leads .registered w w') (new : w.hub.lane? key = none)
    (there : w'.hub.lane? key = some l) (now : Nat) :
    l.session.settings = (Session.start w.hub.config now).settings := by
  obtain ⟨_, _, deeds, _⟩ := leads.deeds
  have all := deeds.keep (P := fun k s => k = key →
      s.lane.session.settings = (Session.start w.hub.config now).settings)
    (fun _ s _ own _ => ?_) (fun _ _ _ _ _ run before same => run.settings.trans (before same))
    (fun k m at_k same => ?_)
  · exact all key l there rfl
  · obtain ⟨t, opened | opened⟩ := own.resolve_left id
    · rw [opened]
      rfl
    · rw [opened, Session.crashed_eq]
      rfl
  · subst same
    exact absurd (new.symm.trans at_k) (by simp)

theorem Introduces.settings (introduces : Introduces config w c w') (reached : Reached config w)
    (new : w.hub.lane? key = none) (there : w'.hub.lane? key = some l) (now : Nat) :
    l.session.settings = (Session.start c now).settings := by
  have same := reached.config_eq
  cases introduces with
  | move next =>
    rw [← same]
    exact (does_make next).leads.settings new there now
  | step s =>
    by_cases spawns : s.spawns = true
    · cases s with
      | spawn o own =>
        have at_end : key = w.hub.lanes.length := by
          have beyond : w.hub.lanes.length ≤ key := List.getElem?_eq_none_iff.mp new
          have within : key < w.hub.lanes.length + 1 := by
            simpa [perform, spawn] using (List.getElem?_eq_some_iff.mp there).1
          exact Nat.le_antisymm (Nat.lt_succ_iff.mp within) beyond
        subst at_end
        simp only [perform, spawn, Hub.lane?, Hub.addLane, List.getElem?_concat_length,
          Option.some.injEq] at there
        obtain ⟨t, opened | opened⟩ := w.openedBy_lane o (own.getD w.hub.config)
        · rw [← there, opened, same]
          rfl
        · rw [← there, opened, Session.crashed_eq, same]
          rfl
      | _ => simp at spawns
    · have given : s.settings config = w.hub.config := by
        rw [same]
        cases s <;> first | rfl | simp at spawns
      rw [given]
      exact (leads_perform (r := .registered) (fun _ _ _ => trivial) (fun _ => id)
        fun some => absurd some spawns).settings new there now

theorem Becomes.settings (becomes : Becomes False w w') {l l' : Lane}
    (there : w.hub.lane? key = some l) (there' : w'.hub.lane? key = some l') :
    l'.session.settings = l.session.settings := by
  obtain ⟨_, _, deeds, _⟩ := becomes.leads.deeds
  obtain ⟨m, at_key, run⟩ := deeds.run there
  obtain rfl : m = l' := Option.some.inj (at_key.symm.trans there')
  exact run.settings

theorem OpenedWith.kept (opened : OpenedWith config w key c) (there : w.hub.lane? key = some l) :
    ∃ since discarded ledger, Ledger.Kept c since discarded w.now w.cancelled ledger ∧
      ledger.session = l.session := by
  obtain ⟨before, after, reached, new, introduces, ⟨m, at_key⟩, becomes⟩ := opened
  have reached' : Reached config after := by
    cases introduces with
    | step s => exact reached.step s
    | move next => exact reached.move next
  obtain ⟨c', since, discarded, ledger, kept, same⟩ := (becomes.reached reached').obeys key l there
  have settings : (Session.start c since).settings = (Session.start c' since).settings := by
    calc (Session.start c since).settings
      _ = m.session.settings := (introduces.settings reached new at_key since).symm
      _ = l.session.settings := (becomes.settings at_key there).symm
      _ = ledger.session.settings := by rw [same]
      _ = (Session.start c' since).settings := kept.settings
  exact ⟨since, discarded, ledger, kept.of_settings settings, same⟩

theorem lane?_visitAll (w : World) (new : w.hub.lane? key = none) :
    w.visitAll.1.hub.lane? key = none := by
  rw [visitAll_fst]
  refine w.visitors.foldlRecOn (motive := fun u : World => u.hub.lane? key = none) _ new
    fun u absent v _ => ?_
  have read : (u.changeSocketOf v.connection Socket.readAll).hub.lane? key = none := by
    unfold changeSocketOf
    split
    · exact absent
    · rw [Hub.lane?_modify, absent]
      rfl
  unfold visit collect
  simp only
  split
  · exact read
  · exact absent

theorem OpenedWith.later (opened : OpenedWith config w key c)
    (goes : ∀ {u : World}, Becomes False u w → Becomes False u w') : OpenedWith config w' key c := by
  obtain ⟨u, v, reached, new, introduces, some, becomes⟩ := opened
  exact ⟨u, v, reached, new, introduces, some, goes becomes⟩

theorem Reached.opened (reached : Reached config w) (there : w.hub.lane? key = some l) :
    ∃ c, OpenedWith config w key c := by
  induction reached generalizing l with
  | start => simp at there
  | @step w before s ih =>
    cases old : w.hub.lane? key with
    | none => exact ⟨_, w, _, before, old, .step s, ⟨l, there⟩, .refl⟩
    | some m => exact (ih old).imp fun _ opened => opened.later (.step · s False.elim)
  | @move w before m next ih =>
    cases old : w.hub.lane? key with
    | none => exact ⟨_, w, _, before, old, .move next, ⟨l, there⟩, .refl⟩
    | some m => exact (ih old).imp fun _ opened => opened.later (.move · next)
  | time _ forward ih => exact (ih there).imp fun _ opened => opened.later (.time · forward False.elim)
  | @look w _ ih =>
    cases old : w.hub.lane? key with
    | none => simp [w.lane?_visitAll old] at there
    | some m => exact (ih old).imp fun _ opened => opened.later .look
  | clear _ ih => exact (ih there).imp fun _ opened => opened.later .clear

/-- A session admits parcels in order and in time, whatever happened to it, and its callers hear what
became of theirs; and whatever is done to a world, there is such an account of each of its sessions,
with the configuration that it was opened with. -/
theorem admission_control :
    (∀ (c : Config) (since : Nat) (discarded : Bool) (now : Nat) (cancelled : List String)
      (ledger : Ledger), ledger.Kept c since discarded now cancelled →
      ledger.Admits c now cancelled ∧ ∀ id, ledger.Answers c now cancelled id) ∧
    (∀ (config : Config) (steps : List Step),
      Reached config ((World.start config).runAll steps).1) ∧
    ∀ (config : Config) (w : World), Reached config w → ∀ key l, w.hub.lane? key = some l →
      (∃ c, OpenedWith config w key c) ∧ ∀ c, OpenedWith config w key c →
        ∃ since discarded ledger, Ledger.Kept c since discarded w.now w.cancelled ledger ∧
          ledger.session = l.session :=
  ⟨fun _ _ _ _ _ _ kept => ⟨kept.admits, kept.admits.answers⟩,
    fun _ steps => Reached.start.runAll steps,
    fun _ _ reached _ _ there => ⟨reached.opened there, fun _ opened => opened.kept there⟩⟩

/-- A queue of one place. One parcel is written, one has the place, and two callers wait, the first
of them not for long. -/
def crowded : List Step :=
  let message : Message := ⟨.default, .success⟩
  [ .spawn ⟨"a", ⟨"a"⟩, .plain "s" "g" .subscribe, { ProbeScript.plain with hold := true }, false⟩
      (some { Config.default with queueCapacity := 0 }),
    .send [⟨"written", .handle "a", message, none, none⟩],
    .send [⟨"queued", .handle "a", message, some 0, none⟩],
    .send [⟨"brief", .handle "a", message, some 5, none⟩],
    .send [⟨"patient", .handle "a", message, none, some "t"⟩],
    .advance 5]

theorem admission_control_crowded :
    let w := ((World.start .default).runAll crowded).1
    ∃ l c since discarded ledger, Reached .default w ∧ w.hub.lane? 0 = some l ∧
      OpenedWith .default w 0 c ∧ l.session.queue.map (·.caller) = [.sender 1] ∧
      l.session.waitingCallers = [.sender 3] ∧
      w.finished.map (·.tag) = ["brief"] ∧
      Ledger.Kept c since discarded w.now w.cancelled ledger ∧ ledger.session = l.session ∧
      ledger.Admits c w.now w.cancelled ∧ ledger.Answers c w.now w.cancelled l.id := by
  intro w
  have reached : Reached .default w := admission_control.2.1 .default crowded
  obtain ⟨l, there⟩ : ∃ l, w.hub.lane? 0 = some l := Option.isSome_iff_exists.mp (by decide)
  have queue : (w.hub.lane? 0).map (·.session.queue.map (·.caller)) = some [.sender 1] := by decide
  have waiting : (w.hub.lane? 0).map (·.session.waitingCallers) = some [.sender 3] := by decide
  rw [there, Option.map_some, Option.some.injEq] at queue waiting
  obtain ⟨⟨c, opened⟩, accounts⟩ := admission_control.2.2 .default w reached 0 l there
  obtain ⟨since, discarded, ledger, kept, same⟩ := accounts c opened
  obtain ⟨admits, answers⟩ := admission_control.1 c since discarded w.now w.cancelled ledger kept
  exact ⟨l, c, since, discarded, ledger, reached, there, opened, queue, waiting, by decide, kept, same,
    admits, answers l.id⟩

end World

end Scenario

end Courier
