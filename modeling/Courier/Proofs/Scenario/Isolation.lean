import Courier.Proofs.Scenario.Sends

set_option autoImplicit false

namespace Courier.Scenario

variable {A : SessionId} {own : String → Bool}

namespace World

theorem named_bind {h : Hub} {bindings : List (String × Key)} (named : Named A own h bindings)
    {name : String} {key : Key} {id : SessionId} (lane : h.idOf? key = some id)
    (iff : own name = true ↔ id = A) : Named A own h (World.bind bindings name key) := by
  intro b there
  rcases List.mem_append.mp there with old | new
  · exact named b (List.mem_of_mem_filter old)
  · obtain rfl := List.mem_singleton.mp new
    exact ⟨id, lane, iff⟩

theorem filter_bind_own {bindings : List (String × Key)} {name : String} (mine : own name = true)
    (key : Key) : (bind bindings name key).filter (fun b => !own b.1) =
      bindings.filter fun b => !own b.1 := by
  rw [bind, List.filter_append, List.filter_filter]
  simp only [List.filter_cons, mine, Bool.not_true, Bool.false_eq_true, if_false, List.filter_nil,
    List.append_nil]
  refine List.filter_congr fun b _ => ?_
  cases own_b : own b.1 with
  | true => rfl
  | false =>
    have apart : b.1 ≠ name := by
      intro same
      rw [same, mine] at own_b
      simp at own_b
    simp [apart]

theorem filter_bind {bindings bindings' : List (String × Key)}
    (same : bindings.filter (fun b => !own b.1) = bindings'.filter fun b => !own b.1)
    (name : String) (key : Key) :
    (bind bindings name key).filter (fun b => !own b.1) =
      (bind bindings' name key).filter fun b => !own b.1 := by
  rw [bind, bind, List.filter_append, List.filter_append, List.filter_comm, same, List.filter_comm]

theorem Alike.hold_own {w w' : World} (alike : Alike A own w w') {name : String} {key : Key}
    (mine : own name = true) (lane : w.hub.idOf? key = some A) :
    Alike A own { w with handles := bind w.handles name key } w' :=
  { alike with
    handles := (filter_bind_own mine key).trans alike.handles
    handlesNamed := named_bind alike.handlesNamed lane (by simp [mine]) }

theorem Alike.hold {w w' : World} (alike : Alike A own w w') {name : String} {key : Key}
    {id : SessionId} (lane : w.hub.idOf? key = some id) (iff : own name = true ↔ id = A) :
    Alike A own { w with handles := bind w.handles name key }
      { w' with handles := bind w'.handles name key } :=
  { alike with
    handles := filter_bind alike.handles name key
    handlesNamed := named_bind alike.handlesNamed lane iff
    otherHandlesNamed := named_bind alike.otherHandlesNamed ((alike.hub.idOf key).symm.trans lane) iff }

theorem Alike.probe {w w' : World} (alike : Alike A own w w') {name : String} {key : Key}
    {id : SessionId} (lane : w.hub.idOf? key = some id) (iff : own name = true ↔ id = A) :
    Alike A own { w with probes := bind w.probes name key }
      { w' with probes := bind w'.probes name key } :=
  { alike with
    probes := congrArg (bind · name key) alike.probes
    probesNamed := named_bind alike.probesNamed lane iff }

structure Openings (A : SessionId) (own : String → Bool) (o o' : Opening) : Prop where
  name : o.name = o'.name
  id : o.id = o'.id
  named : own o.name = true ↔ o.id = A
  other : o.id ≠ A → o = o'

theorem Openings.mask {o o' : Opening} (openings : Openings A own o o') {w w' : World}
    (now : w.now = w'.now) (c : Config) :
    Hub.mask A (w.lane o c) = Hub.mask A (w'.lane o' c) := by
  by_cases mine : o.id = A
  · have mine' : o'.id = A := openings.id ▸ mine
    simp [Hub.mask, lane, mine, mine']
  · rw [← openings.other mine, lane, lane, now]

theorem Alike.enter_own {w w' : World} {o : Opening} (alike : Alike A own { w with
      hub := (w.hub.enter (w.lane o w.hub.config)).1
      probes := bind w.probes o.name w.hub.lanes.length } w')
    (mine : own o.name = true) (own_lane : o.id = A) : Alike A own (w.enter o).1 w' := by
  unfold World.enter
  simp only
  split
  · rename_i key done
    have lane := w.hub.idOf_enter (w.lane o w.hub.config)
    rw [← Hub.enter_ok done] at lane
    exact alike.hold_own mine (lane.trans (congrArg some own_lane))
  · exact alike

theorem Alike.enter {w w' : World} (alike : Alike A own w w') (now : w.now = w'.now)
    {o o' : Opening} (openings : Openings A own o o') :
    Alike A own (w.enter o).1 (w'.enter o').1 := by
  have same : Hub.mask A (w.lane o w.hub.config) = Hub.mask A (w'.lane o' w'.hub.config) := by
    rw [← alike.hub.config]
    exact openings.mask now w.hub.config
  have id : (w'.lane o' w'.hub.config).id = (w.lane o w.hub.config).id := openings.id.symm
  obtain ⟨hub, result⟩ := alike.hub.enter id same
  have lane := w.hub.idOf_enter (w.lane o w.hub.config)
  have lane' := w'.hub.idOf_enter (w'.lane o' w'.hub.config)
  have entered := (alike.hub_both hub (w.hub.change_enter _).follows.keeps
    (w'.hub.change_enter _).follows.keeps).probe lane openings.named
  have length := alike.hub.length
  have name := openings.name
  by_cases mine : o.id = A
  · have own_name := openings.named.mpr mine
    have left := Alike.enter_own (w := w) (o := o) entered own_name mine
    rw [length, name] at left
    have right := Alike.enter_own (w := w') (o := o') left.symm (name ▸ own_name)
      (openings.id ▸ mine)
    exact right.symm
  · unfold World.enter
    rw [← name, ← length]
    simp only
    have outcome := result mine
    split
    · rename_i key done
      rw [done] at outcome
      rw [← outcome]
      obtain rfl := Hub.enter_ok done
      exact entered.hold lane openings.named
    · rename_i e failed
      rw [failed] at outcome
      rw [← outcome]
      exact entered

theorem Alike.spawn {w w' : World} (alike : Alike A own w w') (now : w.now = w'.now)
    {o o' : Opening} (openings : Openings A own o o') (c : Config) :
    Alike A own (w.spawn o c).1 (w'.spawn o' c).1 := by
  have lane := w.hub.idOf_addLane (w.lane o c)
  have added := alike.hub_both (alike.hub.addLane (openings.mask now c))
    (w.hub.follows_addLane _).keeps (w'.hub.follows_addLane _).keeps
  have held := (added.probe lane openings.named).hold lane openings.named
  unfold World.spawn
  rw [← openings.name, ← alike.hub.length]
  exact held

/-- What is done with a handle of the id is not seen, and what is done with another one is done in
both worlds. -/
theorem Alike.withHandle {w w' : World} (alike : Alike A own w w') (name : String)
    {f : World → Key → World × Result}
    (unseen : ∀ {v v' : World}, Alike A own v v' → ∀ key, v.hub.idOf? key = some A →
      Alike A own (f v key).1 v')
    (both : ∀ key, w.hub.idOf? key ≠ some A → Alike A own (f w key).1 (f w' key).1) :
    Alike A own (w.withHandle name (f w)).1 (w'.withHandle name (f w')).1 := by
  have alone {v v' : World} (alike : Alike A own v v')
      (mine : ∀ key, v.handle? name = some key → v.hub.idOf? key = some A) :
      Alike A own (v.withHandle name (f v)).1 v' := by
    unfold World.withHandle
    split
    · rename_i key found
      exact unseen alike key (mine key found)
    · exact alike
  rcases alike.handle name with ⟨mine, mine'⟩ | ⟨same, other⟩
  · exact (alone (alone alike mine).symm mine').symm
  · unfold World.withHandle
    rw [← same]
    split
    · rename_i key found
      obtain ⟨id, lane, apart⟩ := other key found
      exact both key (by simpa [lane] using apart)
    · exact alike

theorem Alike.register {w w' : World} (alike : Alike A own w w') (name : String) :
    Alike A own (w.perform (.register name)).1 (w'.perform (.register name)).1 := by
  refine alike.withHandle name (f := registerLane) ?_ ?_
  · intro v v' alike key mine
    unfold registerLane
    cases done : v.hub.register key with
    | ok hub =>
      exact alike.hub_left (alike.hub.register_own mine done)
        (Hub.change_register done).follows.keeps
    | error e => exact alike
  · intro key other
    unfold registerLane
    rcases alike.hub.register other with ⟨g, g', done, done', both⟩ | ⟨e, failed, failed'⟩
    · simp only [done, done']
      exact alike.hub_both both (Hub.change_register done).follows.keeps
        (Hub.change_register done').follows.keeps
    · simp only [failed, failed']
      exact alike

theorem Alike.drop {w w' : World} (alike : Alike A own w w') (name : String) :
    Alike A own { w with handles := unbind w.handles name }
      { w' with handles := unbind w'.handles name } := by
  refine { alike with handles := ?_, handlesNamed := ?_, otherHandlesNamed := ?_ }
  · rw [unbind, unbind, List.filter_comm, alike.handles, List.filter_comm]
  · exact fun b there => alike.handlesNamed b (List.mem_of_mem_filter there)
  · exact fun b there => alike.otherHandlesNamed b (List.mem_of_mem_filter there)

theorem Alike.watch_own {w w' : World} (alike : Alike A own w w') {name : String} (tag : String)
    (mine : ∀ key, w.handle? name = some key → w.hub.idOf? key = some A) :
    Alike A own (w.perform (.watch name tag)).1 w' := by
  simp only [World.perform]
  split
  · rename_i id key held
    obtain ⟨rfl, lane⟩ := held_own mine held
    refine { alike with watches := ?_, watchesWired := alike.watchesWired.concat lane }
    rw [← alike.watches]
    simp
  · exact alike

theorem Alike.watch {w w' : World} (alike : Alike A own w w') (name tag : String) :
    Alike A own (w.perform (.watch name tag)).1 (w'.perform (.watch name tag)).1 := by
  rcases alike.handle name with ⟨mine, mine'⟩ | ⟨same, other⟩
  · exact ((alike.watch_own tag mine).symm.watch_own tag mine').symm
  · simp only [World.perform, ← alike.held same]
    split
    · rename_i id key held
      have lane := (held_wired held).2
      refine { alike with
        watches := ?_
        watchesWired := alike.watchesWired.concat lane
        otherWatchesWired := alike.otherWatchesWired.concat ((alike.hub.idOf key).symm.trans lane) }
      simp only [List.filter_append, alike.watches]
    · exact alike

theorem id_changeScript (change : ProbeScript → ProbeScript) (l : Lane) :
    (changeScript change l).id = l.id := by
  unfold changeScript
  cases l.stream <;> rfl

theorem Alike.script {w w' : World} (alike : Alike A own w w') {name : String}
    {change change' : ProbeScript → ProbeScript} (same : own name = false → change = change') :
    Alike A own (w.perform (.script name change)).1 (w'.perform (.script name change')).1 := by
  have probe : w'.probes.lookup name = w.probes.lookup name := by rw [alike.probes]
  simp only [World.perform, probe]
  split
  · rename_i key found
    obtain ⟨id, lane, iff⟩ := named_lookup alike.probesNamed found
    cases mine : own name with
    | false =>
      rw [← same mine]
      exact alike.modify key _ (id_changeScript change)
    | true =>
      rw [iff.mp mine] at lane
      have left := alike.modify_own lane _ fun l _ => id_changeScript change l
      have right := left.symm.modify_own ((alike.hub.idOf key).symm.trans lane) _
        fun l _ => id_changeScript change' l
      exact right.symm
  · exact alike

theorem Alike.startSweeper {w w' : World} (alike : Alike A own w w') (now : w.now = w'.now)
    (name : String) (times : Option (Nat × Nat)) (starts : Nat) :
    Alike A own (w.perform (.startSweeper name times starts)).1
      (w'.perform (.startSweeper name times starts)).1 := by
  have bound (s : Sweeper) : Alike A own { w with sweepers := bind w.sweepers name s }
      { w' with sweepers := bind w'.sweepers name s } :=
    { alike with sweepers := congrArg (bind · name s) alike.sweepers }
  simp only [World.perform]
  cases times with
  | some p =>
    have start : Sweeper.start p.1 p.2 starts w.now = Sweeper.start p.1 p.2 starts w'.now := by
      rw [now]
    simp only [← start]
    exact bound _
  | none =>
    have start : Sweeper.ofConfig? w'.hub.config starts w'.now =
        Sweeper.ofConfig? w.hub.config starts w.now := by
      rw [now, alike.hub.config]
    simp only [start]
    split
    · exact bound _
    · exact alike

theorem Alike.send {w w' : World} (alike : Alike A own w w') (now : w.now = w'.now)
    (sends : List Send) : Alike A own (sends.foldl World.begin w) (sends.foldl World.begin w') := by
  refine And.left (foldl_related (fun v v' : World => Alike A own v v' ∧ v.now = v'.now)
    (fun _ => true) rfl (by simp) (by simp) ?_ ⟨alike, now⟩)
  rintro v v' s _ _ ⟨alike, now⟩
  refine ⟨alike.begin now s, ?_⟩
  calc (v.begin s).now
    _ = v.now := (steady_begin alike.alone s).now
    _ = v'.now := now
    _ = (v'.begin s).now := (steady_begin alike.otherAlone s).now.symm

end World

/-- The same step for all sessions of other ids. Sessions of the id may get other streams; the names
in `own` are the ones that stand for them. -/
inductive Twin (A : SessionId) (own : String → Bool) : Step → Step → Prop
  | enter {o o' : Opening} (openings : World.Openings A own o o') : Twin A own (.enter o) (.enter o')
  | spawn {o o' : Opening} (openings : World.Openings A own o o') (config : Option Config) :
      Twin A own (.spawn o config) (.spawn o' config)
  | script {name : String} {change change' : ProbeScript → ProbeScript}
      (same : own name = false → change = change') :
      Twin A own (.script name change) (.script name change')
  | same {s : Step} (shared : s.opens = false) (apart : s.connects = false) : Twin A own s s

namespace World

theorem Alike.perform {w w' : World} (alike : Alike A own w w') (now : w.now = w'.now)
    (sane : w.Sane) (sane' : w'.Sane) (settled : w.next? = none) (settled' : w'.next? = none)
    {s s' : Step} (twin : Twin A own s s') :
    Alike A own (w.perform s).1 (w'.perform s').1 := by
  cases twin with
  | enter openings => exact alike.enter now openings
  | spawn openings config =>
    simp only [World.perform, ← alike.hub.config]
    exact alike.spawn now openings _
  | script same => exact alike.script same
  | same shared apart =>
    cases s with
    | enter o => simp [Step.opens] at shared
    | spawn o config => simp [Step.opens] at shared
    | connect name peer maxRequest => simp at apart
    | register name => exact alike.register name
    | drop name => exact alike.drop name
    | remove id reason =>
      exact alike.hub_both (alike.hub.remove id reason) (w.hub.change_remove id reason).follows.keeps
        (w'.hub.change_remove id reason).follows.keeps
    | removeIfSame id name reason =>
      refine alike.withHandle name
        (f := fun v key => ({ v with hub := (v.hub.removeIfSame id key reason).1 },
          .bool (v.hub.removeIfSame id key reason).2)) ?_ ?_
      · exact fun alike key mine => alike.hub_left (alike.hub.removeIfSame_held mine id reason)
          (Hub.change_removeIfSame _ id key reason).follows.keeps
      · exact fun key _ => alike.hub_both (alike.hub.removeIfSame id key reason)
          (w.hub.change_removeIfSame id key reason).follows.keeps
          (w'.hub.change_removeIfSame id key reason).follows.keeps
    | touch id =>
      have same : w'.hub.touch id w'.now = w'.hub.touch id w.now := by rw [now]
      simp only [World.perform, same]
      exact alike.hub_both (alike.hub.touch id w.now) (w.hub.keeps_touch id w.now)
        (w'.hub.keeps_touch id w.now)
    | touchHandle name =>
      refine alike.withHandle name
        (f := fun v key => ({ v with hub := v.hub.updateSession key (·.touch v.now) }, .nothing))
        ?_ ?_
      · exact fun alike key mine => alike.modify_own mine _ fun _ _ => rfl
      · intro key _
        have same : (fun t : Session => t.touch w'.now) = fun t => t.touch w.now := by rw [now]
        rw [same]
        exact alike.modify key _ fun _ => rfl
    | sweep maxIdle =>
      have same : w'.hub.sweepIdle maxIdle w'.now = w'.hub.sweepIdle maxIdle w.now := by rw [now]
      simp only [World.perform, same]
      exact alike.hub_both (alike.hub.sweepIdle maxIdle w.now)
        (w.hub.change_removeWhere _).follows.keeps (w'.hub.change_removeWhere _).follows.keeps
    | reject subsystem =>
      exact alike.hub_both (alike.hub.rejectBySubsystem subsystem)
        (w.hub.change_removeWhere _).follows.keeps (w'.hub.change_removeWhere _).follows.keeps
    | closeAll =>
      exact alike.hub_both alike.hub.closeAll w.hub.change_closeAll.follows.keeps
        w'.hub.change_closeAll.follows.keeps
    | close name =>
      refine alike.withHandle name
        (f := fun v key => ({ v with hub := (v.hub.close key).1 }, .bool (v.hub.close key).2)) ?_ ?_
      · exact fun alike key mine => alike.modify_own mine _ fun _ _ => rfl
      · exact fun key _ => alike.modify key _ fun _ => rfl
    | times name =>
      refine alike.withHandle name (f := laneTimes) ?_ ?_
      · intro v v' alike key _
        unfold laneTimes
        cases v.hub.lane? key <;> exact alike
      · intro key other
        unfold laneTimes
        rw [← alike.hub.lane other]
        cases w.hub.lane? key <;> exact alike
    | frames name => rwa [perform_frames, perform_frames]
    | watch name tag => exact alike.watch name tag
    | send sends => exact alike.send now sends
    | abort tag => exact alike.abort tag
    | cancel token => exact alike.cancel token
    | script name change => exact alike.script fun _ => rfl
    | advance ms =>
      -- what is due on the way happens at its own instant in either world
      have passes' := passes_advance sane' settled' ms
      rw [← now] at passes'
      exact (passes_advance sane settled ms).alike passes' sane sane' settled settled' alike
    | jump ms =>
      have sane_then := sane_now sane (w.now + ms)
      have sane_then' := sane_now sane' (w'.now + ms)
      exact (settles_settle sane_then).alike (settles_settle sane_then') sane_then sane_then'
        { alike with } (congrArg (· + ms) now)
    | subscribe name => exact { alike with }
    | events name =>
      obtain ⟨read, done⟩ := w.perform_events name
      obtain ⟨read', done'⟩ := w'.perform_events name
      rw [done, done']
      exact { alike with }
    | startSweeper name times starts => exact alike.startSweeper now name times starts
    | stopSweeper name =>
      have same : w'.sweepers.lookup name = w.sweepers.lookup name := by rw [alike.sweepers]
      simp only [World.perform, same]
      split
      · rename_i t _
        exact { alike with sweepers := congrArg (bind · name t.stop) alike.sweepers }
      · exact alike
    | dropSweeper name => exact { alike with sweepers := congrArg (unbind · name) alike.sweepers }
    | client name action =>
      simp only [World.perform, visitor?, alike.alone, alike.otherAlone]
      exact alike
    | _ => exact alike

theorem twin_elapsed {s s' : Step} (twin : Twin A own s s') : s.elapsed = s'.elapsed := by
  cases twin <;> rfl

theorem twin_connects {s s' : Step} (twin : Twin A own s s') :
    s.connects = false ∧ s'.connects = false := by
  cases twin with
  | same shared apart => exact ⟨apart, apart⟩
  | _ => exact ⟨rfl, rfl⟩

structure Abreast (A : SessionId) (own : String → Bool) (w w' : World) : Prop where
  alike : Alike A own w w'
  now : w.now = w'.now
  sane : w.Sane
  otherSane : w'.Sane
  settled : w.next? = none
  otherSettled : w'.next? = none

theorem run_fst (w : World) (s : Step)
    (alone : ({ w with finished := [] }.perform s).1.settle.visitors = []) :
    (w.run s).1 = ({ w with finished := [] }.perform s).1.settle := by
  simp only [run, visitAll, alone, List.foldl_nil]

theorem next?_finished {w : World} (alone : w.visitors = []) (finished : List Finish) :
    next? { w with finished } = w.next? := by
  cases w
  simp only at alone
  subst alone
  rfl

/-- A step and all that comes of it leave two worlds abreast. -/
theorem Abreast.run {w w' : World} (abreast : Abreast A own w w') {s s' : Step}
    (twin : Twin A own s s') : Abreast A own (w.run s).1 (w'.run s').1 := by
  obtain ⟨apart, apart'⟩ := twin_connects twin
  have fresh : Alike A own { w with finished := [] } { w' with finished := [] } :=
    { abreast.alike with finished := rfl }
  have sane : Sane { w with finished := [] } :=
    ⟨abreast.sane.alone, abreast.sane.named, abreast.sane.periodic⟩
  have sane' : Sane { w' with finished := [] } :=
    ⟨abreast.otherSane.alone, abreast.otherSane.named, abreast.otherSane.periodic⟩
  have settled := (next?_finished abreast.sane.alone []).trans abreast.settled
  have settled' := (next?_finished abreast.otherSane.alone []).trans abreast.otherSettled
  obtain ⟨done, now⟩ := perform_sane sane settled apart
  obtain ⟨done', now'⟩ := perform_sane sane' settled' apart'
  have alike := fresh.perform abreast.now sane sane' settled settled' twin
  have same : ({ w with finished := [] }.perform s).1.now =
      ({ w' with finished := [] }.perform s').1.now :=
    calc _ = w.now + s.elapsed := now
      _ = w'.now + s'.elapsed := congrArg₂ (· + ·) abreast.now (twin_elapsed twin)
      _ = _ := now'.symm
  have settles := settles_settle done
  have settles' := settles_settle done'
  obtain ⟨none, still, sane⟩ := settles.settled done
  obtain ⟨none', still', sane'⟩ := settles'.settled done'
  rw [run_fst w s sane.alone, run_fst w' s' sane'.alone]
  exact ⟨settles.alike settles' done done' alike same, still.trans (same.trans still'.symm), sane,
    sane', none, none'⟩

theorem Abreast.runAll {w w' : World} (abreast : Abreast A own w w') {steps steps' : List Step}
    (twins : List.Forall₂ (Twin A own) steps steps') :
    Abreast A own (w.runAll steps).1 (w'.runAll steps').1 := by
  rw [runAll_fst, runAll_fst]
  induction twins generalizing w w' with
  | nil => exact abreast
  | cons twin _ ih => exact ih (abreast.run twin)

theorem abreast_start (A : SessionId) (own : String → Bool) (config : Config) :
    Abreast A own (start config) (start config) where
  alike := {
    hub := ⟨rfl, rfl, rfl, by simp [Hub.Wired, Hub.Matches],
      by simp [Hub.Wired, Hub.Matches]⟩
    handles := rfl
    probes := rfl
    sends := rfl
    calls := rfl
    gatherings := rfl
    watches := rfl
    cancelled := rfl
    sweepers := rfl
    finished := rfl
    alone := rfl
    otherAlone := rfl
    handlesNamed := by simp [Named]
    otherHandlesNamed := by simp [Named]
    probesNamed := by simp [Named]
    callsWired := by simp [Hub.Matches]
    otherCallsWired := by simp [Hub.Matches]
    watchesWired := by simp [Hub.Matches]
    otherWatchesWired := by simp [Hub.Matches] }
  now := rfl
  sane := ⟨rfl, by simp, by simp⟩
  otherSane := ⟨rfl, by simp, by simp⟩
  settled := rfl
  otherSettled := rfl

/-- All that can be seen of the sessions of other ids is the same. -/
structure Agree (A : SessionId) (w w' : World) : Prop where
  ids : ∀ key, w.hub.idOf? key = w'.hub.idOf? key
  /-- States, sequences and queues, and what the streams have recorded. -/
  lanes : ∀ key, w.hub.idOf? key ≠ some A → w.hub.lane? key = w'.hub.lane? key
  registered : ∀ id, id ≠ A → w.hub.entry? id = w'.hub.entry? id
  /-- The sends that have returned in the last step, with what they returned. -/
  finished : w.finished.filter (·.isOther A) = w'.finished.filter (·.isOther A)
  waiting : w.calls.filter (·.id != A) = w'.calls.filter (·.id != A)
  /-- The results that members of groups have had so far. -/
  gathered : w.gatherings.map (·.others A) = w'.gatherings.map (·.others A)

/-- Two runs of the same steps, but for the streams of the sessions of one id, agree after every
step on the sessions of all other ids. -/
theorem sessions_isolated (config : Config) {steps steps' : List Step}
    (twins : List.Forall₂ (Twin A own) steps steps') (k : Nat) :
    Agree A ((start config).runAll (steps.take k)).1 ((start config).runAll (steps'.take k)).1 := by
  have alike := ((abreast_start A own config).runAll (List.forall₂_take k twins)).alike
  exact {
    ids := alike.hub.idOf
    lanes := fun _ other => alike.hub.lane other
    registered := fun _ other => alike.hub.entry other
    finished := alike.finished
    waiting := alike.calls
    gathered := alike.gatherings }

def twoSessions (script : ProbeScript) : List Step := [
  .enter ⟨"first", ⟨"a"⟩, .plain "s" "g" .subscribe, script, false⟩,
  .enter ⟨"second", ⟨"b"⟩, .plain "s" "g" .subscribe, .plain, false⟩,
  .send [⟨"both", .group "g", ⟨.default, .success⟩, none, none⟩],
  .send [⟨"one", .handle "second", ⟨.default, .success⟩, none, none⟩],
  .advance 5]

theorem stalled_stream_isolated :
    let held : ProbeScript := { ProbeScript.plain with hold := true }
    let w := ((start .default).runAll ((twoSessions .plain).take 5)).1
    let w' := ((start .default).runAll ((twoSessions held).take 5)).1
    List.Forall₂ (Twin ⟨"a"⟩ (· == "first")) (twoSessions .plain) (twoSessions held) ∧
    Agree ⟨"a"⟩ w w' ∧ w.hub.lanes.map (·.session.sequence) = [1, 2] ∧
    w'.hub.lanes.map (·.session.sequence) = [0, 2] := by
  intro held w w'
  have first : Openings ⟨"a"⟩ (· == "first")
      ⟨"first", ⟨"a"⟩, .plain "s" "g" .subscribe, .plain, false⟩
      ⟨"first", ⟨"a"⟩, .plain "s" "g" .subscribe, held, false⟩ :=
    ⟨rfl, rfl, by decide, fun other => absurd rfl other⟩
  have second : Openings ⟨"a"⟩ (· == "first")
      ⟨"second", ⟨"b"⟩, .plain "s" "g" .subscribe, .plain, false⟩
      ⟨"second", ⟨"b"⟩, .plain "s" "g" .subscribe, .plain, false⟩ :=
    ⟨rfl, rfl, by decide, fun _ => rfl⟩
  have twins : List.Forall₂ (Twin ⟨"a"⟩ (· == "first")) (twoSessions .plain) (twoSessions held) :=
    .cons (.enter first) (.cons (.enter second) (.cons (.same rfl rfl) (.cons (.same rfl rfl)
      (.cons (.same rfl rfl) .nil))))
  exact ⟨twins, sessions_isolated .default twins 5, by decide, by decide⟩

end World

end Courier.Scenario
