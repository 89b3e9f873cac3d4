import Courier.Proofs.Scenario.Course
import Courier.Proofs.Scenario.Fan

set_option autoImplicit false

namespace Courier.Scenario.Fan

open World

variable {f : Fan} {w w' : World}

theorem Beside.deliverAll (beside : f.Beside w w') (key : Key) (notices : List Notice) :
    f.Beside (w.deliverAll key notices)
      (w'.deliverAll key (notices.map (·.rename (f.caller key)))) := by
  unfold World.deliverAll
  rw [List.foldl_map]
  exact List.foldl_rel beside fun m _ _ _ beside => beside.deliver key m

theorem Beside.update (beside : f.Beside w w') (key : Key) (moved : Lane × List Notice) :
    f.Beside (w.update key moved) (w'.update key
      (moved.1.rename (f.caller key), moved.2.map (·.rename (f.caller key)))) := by
  have set := Hub.recast_setLane (φ := fun key => Lane.rename (f.caller key)) w.hub key moved.1
  unfold World.update
  rw [beside.hub_eq]
  refine Beside.deliverAll ?_ key moved.2
  have moved := beside.hub (w.hub.setLane key moved.1)
  rwa [Hub.rename, set] at moved

theorem Beside.lane? (beside : f.Beside w w') (key : Key) :
    w'.hub.lane? key = (w.hub.lane? key).map (Lane.rename (f.caller key)) := by
  rw [beside.hub_eq]
  exact w.hub.lane?_recast _ key

theorem Beside.now (beside : f.Beside w w') : w'.now = w.now := by
  obtain ⟨_, _, _, rfl, _⟩ := beside
  rfl

theorem Beside.offer (beside : f.Beside w w') {c : Call} (other : c.sender ≠ f.first)
    (payload : String) (patience : Patience) :
    f.Beside (w.offer c payload patience) (w'.offer (c.spread f) payload patience) := by
  obtain ⟨begun, tags, finished, rfl, accounts⟩ := beside
  have offered := w.hub.rename_offer (ρ := f.caller) c.key ⟨.sender c.sender, payload⟩ patience
    (patience.deadline.any (· ≤ w.now) || patience.token.any w.cancelled.contains) w.now
  generalize outcome : w.hub.offer c.key ⟨.sender c.sender, payload⟩ patience
    (patience.deadline.any (· ≤ w.now) || patience.token.any w.cancelled.contains) w.now = done
    at offered
  obtain ⟨hub, refusal⟩ := done
  cases refusal with
  | none =>
    rw [offer_taken outcome, offer_taken (w := w.spread f tags finished) (c := c.spread f) offered]
    have kept : (w.calls ++ [c]).filter (·.sender == f.first) = w.callsOf f.first := by
      simp [callsOf, other]
    refine ⟨begun, tags, finished, by simp [spread], ?_⟩
    rw [callsOf, kept]
    exact accounts
  | some why =>
    rw [offer_refused outcome,
      offer_refused (w := w.spread f tags finished) (c := c.spread f) offered]
    exact Beside.conclude (w := { w with hub }) ⟨begun, tags, finished, rfl, accounts⟩ other _

theorem Beside.route (beside : f.Beside w w') (id : SessionId) :
    w'.hub.route id = w.hub.route id := by
  rw [beside.hub_eq]
  exact w.hub.route_recast (Hub.disguise_rename f.caller) id

theorem Beside.beginMember (beside : f.Beside w w') {sender : Nat} (other : sender ≠ f.first)
    (payload tag : String) (id : SessionId) : f.Beside (beginMember payload sender tag w id)
      (beginMember payload (f.later sender) tag w' id) := by
  unfold World.beginMember
  rw [beside.route]
  split
  · exact beside.addResult other id _
  · rename_i key _
    have offered := beside.offer (c := ⟨sender, tag, id, key, .member⟩) other payload .endless
    rwa [Call.spread, if_neg other, number_other other] at offered

theorem Beside.handle? (beside : f.Beside w w') (name : String) :
    w'.handle? name = w.handle? name := by
  obtain ⟨_, _, _, rfl, _⟩ := beside
  unfold World.handle?
  split
  · exact w.hub.lookup_recast (Hub.disguise_rename f.caller) _
  · rfl

theorem Beside.held? (beside : f.Beside w w') (name : String) : w'.held? name = w.held? name := by
  unfold World.held?
  rw [beside.handle?, beside.hub_eq]
  congr 1
  funext key
  exact congrArg _ (w.hub.idOf?_recast (Hub.disguise_rename f.caller) key)

theorem Beside.counts (beside : f.Beside w w') (tags tags' : List String) :
    f.Beside { w with sends := w.sends + 1, tags }
      { w' with sends := w'.sends + 1, tags := tags' } := by
  obtain ⟨begun, _, finished, rfl, accounts⟩ := beside
  refine ⟨Nat.lt_succ_of_lt begun, tags', finished, ?_, accounts⟩
  simp only [spread, later_succ begun]

theorem Beside.collects (beside : f.Beside w w') {g : Gathering} (other : g.sender ≠ f.first) :
    f.Beside { w with gatherings := w.gatherings ++ [g] }
      { w' with gatherings := w'.gatherings ++ [g.spread f] } := by
  obtain ⟨begun, tags, finished, rfl, accounts⟩ := beside
  have kept : (w.gatherings ++ [g]).filter (·.sender == f.first) = w.gatheringsOf f.first := by
    simp [gatheringsOf, other]
  refine ⟨begun, tags, finished, by simp [spread, other], ?_⟩
  rw [gatheringsOf, kept]
  exact accounts

theorem Beside.sends (beside : f.Beside w w') : w'.sends = f.later w.sends := by
  obtain ⟨_, _, _, rfl, _⟩ := beside
  rfl

theorem Beside.beginMembers (beside : f.Beside w w') {sender : Nat} (other : sender ≠ f.first)
    (payload tag : String) (ids : List SessionId) :
    f.Beside (ids.foldl (World.beginMember payload sender tag) w)
      (ids.foldl (World.beginMember payload (f.later sender) tag) w') :=
  List.foldl_rel beside fun id _ _ _ beside => beside.beginMember other payload tag id

theorem Beside.begin (beside : f.Beside w w') (s : Send) : f.Beside (w.begin s) (w'.begin s) := by
  have other : w.sends ≠ f.first := Nat.ne_of_gt beside.begun
  have started := beside.counts (w.tags ++ [s.tag]) (w'.tags ++ [s.tag])
  have call (id : SessionId) (key : Key) (a : Addressee) :
      Call.spread f ⟨w.sends, s.tag, id, key, a⟩ = ⟨w'.sends, s.tag, id, key, a⟩ := by
    rw [Call.spread, if_neg other, number_other other, beside.sends]
  have patience : (⟨s.timeout.map (w'.now + ·), s.token⟩ : Patience) =
      ⟨s.timeout.map (w.now + ·), s.token⟩ := by rw [beside.now]
  rw [begin_eq, begin_eq, patience]
  cases s.address with
  | nowhere => exact started.finish _ _ _
  | handle name =>
    simp only [beside.held?]
    cases w.held? name with
    | none => exact (beside.counts w.tags w'.tags).finish _ _ _
    | some found =>
      have offered := started.offer (c := ⟨w.sends, s.tag, found.1, found.2, .byHandle⟩) other
        s.message.encode ⟨s.timeout.map (w.now + ·), s.token⟩
      rwa [call] at offered
  | id id =>
    simp only [beside.route]
    cases w.hub.route id with
    | error e => exact started.finish _ _ _
    | ok key =>
      have offered := started.offer (c := ⟨w.sends, s.tag, id, key, .byId⟩) other
        s.message.encode ⟨s.timeout.map (w.now + ·), s.token⟩
      rwa [call] at offered
  | group group =>
    have members : w'.hub.inGroup group = w.hub.inGroup group := by
      rw [beside.hub_eq]
      exact w.hub.inGroup_recast (Hub.disguise_rename f.caller) group
    have gathering := started.collects (g := ⟨w.sends, s.tag, [], false⟩) other
    simp only [members, beside.sends]
    exact Beside.gather (Beside.beginMembers gathering other _ _ _) other

theorem Beside.begins (beside : f.Beside w w') (sends : List Send) :
    f.Beside (sends.foldl World.begin w) (sends.foldl World.begin w') :=
  List.foldl_rel beside fun s _ _ _ beside => beside.begin s

theorem Beside.giveUp (beside : f.Beside w w') (c : Call) :
    f.Beside (w.giveUp c) (w'.giveUp (c.spread f)) := by
  have forgot : (w.hub.updateSession c.key (·.forget (.sender c.sender))).rename f.caller =
      (w.hub.rename f.caller).updateSession c.key
        (·.forget (f.caller c.key (.sender c.sender))) :=
    Hub.recast_modify fun l => by
      simp only [Lane.rename, Session.forget_rename fun _ _ same => caller_inj same]
  have left := beside.hub (w.hub.updateSession c.key (·.forget (.sender c.sender)))
  rw [forgot, ← beside.hub_eq] at left
  exact left

/-- With the send to the group that is aborted, those to its members are. -/
theorem Accounts.abort {own : List Call} {gathered : List Gathering}
    {finished separate : List Finish} (accounts : f.Accounts own gathered finished separate)
    {tag : String}
    (may : tag = f.tag → f.abortable) :
    f.Accounts (own.filter (·.tag != tag)) (gathered.filter (·.tag != tag)) finished separate := by
  cases accounts with
  | @gathers results gathers waits =>
    by_cases named : f.tag = tag
    · have none : own.filter (·.tag != tag) = [] :=
        List.filter_eq_nil_iff.mpr fun c there => by simp [(gathers.calls c there).1, named]
      exact .aborted (may named.symm) none (by simp [gathers.gathering, named])
        ((List.sublist_append_left _ _).subperm.trans gathers.ids.subperm) gathers.separate
    · rw [List.filter_eq_self.mpr fun c there => by simpa [(gathers.calls c there).1] using named,
        List.filter_eq_self.mpr fun g there => by
          rw [gathers.gathering, List.mem_singleton] at there
          simpa [there] using named]
      exact .gathers gathers waits
  | returned done complete ids given separate =>
    exact .returned (by rw [done, List.filter_nil])
      (fun g there => complete g (List.mem_of_mem_filter there)) ids given separate
  | aborted may done dropped ids separate =>
    exact .aborted may (by rw [done, List.filter_nil]) (by rw [dropped, List.filter_nil]) ids
      separate

theorem Beside.abort (beside : f.Beside w w') {tag : String} (may : tag = f.tag → f.abortable) :
    f.Beside (w.abort tag) (w'.abort tag) := by
  have left : f.Beside ((w.calls.filter (·.tag == tag)).foldl World.giveUp w)
      (((w.calls.filter (·.tag == tag)).map (·.spread f)).foldl World.giveUp w') := by
    rw [List.foldl_map]
    exact List.foldl_rel beside fun c _ _ _ beside => beside.giveUp c
  have same : w'.calls.filter (·.tag == tag) =
      (w.calls.filter (·.tag == tag)).map (·.spread f) := by
    obtain ⟨_, _, _, rfl, _⟩ := beside
    simp only [spread, List.filter_map]
    rfl
  unfold World.abort
  rw [same]
  generalize (w.calls.filter (·.tag == tag)).foldl World.giveUp w = v at left
  generalize ((w.calls.filter (·.tag == tag)).map (·.spread f)).foldl World.giveUp w' = v' at left
  obtain ⟨begun, tags, finished, rfl, accounts⟩ := left
  refine ⟨begun, tags, finished, ?_, ?_⟩
  · simp only [spread, List.filter_map]
    rw [List.filter_comm (fun g : Gathering => g.sender != f.first)]
    rfl
  · have aborted := accounts.abort may
    rwa [callsOf, gatheringsOf, List.filter_comm,
      List.filter_comm (fun g : Gathering => g.tag != tag)] at aborted

theorem Beside.lapse (beside : f.Beside w w') (key : Key) (u : Waiter) :
    f.Beside (lapseAt key w u) (lapseAt key w' (u.rename (f.caller key))) := by
  unfold lapseAt
  rw [beside.lane?]
  cases w.hub.lane? key with
  | none => exact beside
  | some l =>
    have lapsed := beside.update key (l.lapse u.parcel.caller)
    rw [← Lane.lapse_rename (fun _ _ same => caller_inj same)] at lapsed
    exact lapsed

theorem Beside.cancelIn (beside : f.Beside w w') (token : String) (key : Key) :
    f.Beside (cancelIn token w key) (cancelIn token w' key) := by
  rw [cancelIn_eq, cancelIn_eq, beside.lane?]
  cases w.hub.lane? key with
  | none => exact beside
  | some l =>
    simp only [Option.map_some, Lane.rename, Session.rename, List.filter_map, List.foldl_map]
    exact List.foldl_rel beside fun u _ _ _ beside => beside.lapse key u

theorem Beside.length (beside : f.Beside w w') : w'.hub.lanes.length = w.hub.lanes.length := by
  rw [beside.hub_eq]
  exact w.hub.length_recast _

theorem Beside.cancel (beside : f.Beside w w') (token : String) :
    f.Beside (w.cancel token) (w'.cancel token) := by
  unfold World.cancel
  simp only [beside.length]
  refine List.foldl_rel ?_ fun key _ _ _ beside => beside.cancelIn token key
  obtain ⟨begun, tags, finished, rfl, accounts⟩ := beside
  exact ⟨begun, tags, finished, rfl, accounts⟩

theorem Beside.withHandle (beside : f.Beside w w') (name : String) {g g' : Key → World × Result}
    (each : ∀ key, f.Beside (g key).1 (g' key).1) :
    f.Beside (w.withHandle name g).1 (w'.withHandle name g').1 := by
  unfold World.withHandle
  rw [beside.handle?]
  cases w.handle? name with
  | none => exact beside
  | some key => exact each key

theorem Beside.modify (beside : f.Beside w w') (key : Key) {g : Lane → Lane}
    (same : ∀ l, (g l).rename (f.caller key) = g (l.rename (f.caller key))) :
    f.Beside { w with hub := { w.hub with lanes := w.hub.lanes.modify key g } }
      { w' with hub := { w'.hub with lanes := w'.hub.lanes.modify key g } } := by
  have modified := beside.hub { w.hub with lanes := w.hub.lanes.modify key g }
  rw [Hub.rename, Hub.recast_modify same] at modified
  rwa [beside.hub_eq]

theorem Beside.registerLane (beside : f.Beside w w') (key : Key) :
    f.Beside (w.registerLane key).1 (w'.registerLane key).1 := by
  have registered : (w.hub.rename f.caller).register key = _ :=
    w.hub.recast_register (Hub.disguise_rename f.caller) key
  unfold World.registerLane
  rw [beside.hub_eq, registered]
  cases w.hub.register key with
  | ok hub => exact beside.hub hub
  | error e => exact beside

theorem rename_lane (w : World) (o : Opening) (config : Config) (ρ : Caller → Caller) :
    (w.lane o config).rename ρ = w.lane o config :=
  Lane.rename_of_new (w.isFresh_lane o config).session

theorem Beside.enter (beside : f.Beside w w') (o : Opening) :
    f.Beside (w.enter o).1 (w'.enter o).1 := by
  have entered : (w.hub.rename f.caller).enter (w.lane o w.hub.config) = _ :=
    w.hub.recast_enter (Hub.disguise_rename f.caller) (rename_lane w o w.hub.config _)
  have length := beside.length
  obtain ⟨begun, tags, finished, rfl, accounts⟩ := beside
  have hub : (w.spread f tags finished).hub = w.hub.rename f.caller := rfl
  have lane : (w.spread f tags finished).lane o (w.hub.rename f.caller).config =
    w.lane o w.hub.config := rfl
  unfold World.enter
  simp only [length]
  rw [hub, lane, entered]
  generalize w.hub.enter (w.lane o w.hub.config) = done
  obtain ⟨hub, result⟩ := done
  cases result <;> exact ⟨begun, tags, finished, rfl, accounts⟩

theorem Beside.spawn (beside : f.Beside w w') (o : Opening) (config : Config) :
    f.Beside (w.spawn o config).1 (w'.spawn o config).1 := by
  have added := Hub.recast_addLane (φ := fun key => Lane.rename (f.caller key)) (h := w.hub)
    (rename_lane w o config _)
  have length := beside.length
  obtain ⟨begun, tags, finished, rfl, accounts⟩ := beside
  refine ⟨begun, tags, finished, ?_, accounts⟩
  unfold World.spawn
  simp only [length]
  simp only [spread, Hub.rename, added]
  rfl

theorem changeScript_rename (change : ProbeScript → ProbeScript) (ρ : Caller → Caller) (l : Lane) :
    (changeScript change l).rename ρ = changeScript change (l.rename ρ) := by
  unfold changeScript
  cases stream : l.stream <;> simp [Lane.rename, stream]

theorem changeSocket_rename (change : Socket → Socket) (ρ : Caller → Caller) (l : Lane) :
    (changeSocket change l).rename ρ = changeSocket change (l.rename ρ) := by
  unfold changeSocket
  cases stream : l.stream <;> simp [Lane.rename, stream]

theorem Beside.changeSocketOf (beside : f.Beside w w') (c : Connection) (change : Socket → Socket) :
    f.Beside (w.changeSocketOf c change) (w'.changeSocketOf c change) := by
  unfold World.changeSocketOf
  cases c.phase.seat? with
  | none => exact beside
  | some seat => exact beside.modify seat.key fun l => changeSocket_rename change _ l

theorem Beside.act (beside : f.Beside w w') (v : Visitor) (a : ClientAction) :
    f.Beside (w.act v a) (w'.act v a) := by
  unfold World.act
  exact (beside.setVisitor _).changeSocketOf _ _

theorem Beside.instant (beside : f.Beside w w') {s : Step} (timeless : s.elapses = false)
    (may : s = .abort f.tag → f.abortable) :
    f.Beside (w.perform s).1 (w'.perform s).1 := by
  have same := beside
  -- the hub of the second world is the first one recast, and so is what an act makes of it
  have disguise := Hub.disguise_rename f.caller
  obtain ⟨begun, tags, finished, rfl, accounts⟩ := beside
  cases s with
  | enter o => exact same.enter o
  | spawn o config => exact same.spawn o (config.getD w.hub.config)
  | register name => exact same.withHandle name same.registerLane
  | remove id reason =>
    have removed : (w.spread f tags finished).hub.remove id reason = _ :=
      w.hub.recast_remove disguise id reason
    simp only [perform, removed]
    exact same.hub _
  | removeIfSame id name reason =>
    refine same.withHandle name fun key => ?_
    have removed : (w.spread f tags finished).hub.removeIfSame id key reason = _ :=
      w.hub.recast_removeIfSame disguise id key reason
    simp only [removed]
    exact same.hub _
  | touch id =>
    have touched : (w.spread f tags finished).hub.touch id (w.spread f tags finished).now = _ :=
      w.hub.recast_touch disguise id w.now
    simp only [perform, touched]
    exact same.hub _
  | touchHandle name => exact same.withHandle name fun key => same.modify key fun _ => rfl
  | sweep maxIdle =>
    have swept : (w.spread f tags finished).hub.sweepIdle maxIdle
        (w.spread f tags finished).now = _ := w.hub.recast_sweepIdle disguise maxIdle w.now
    simp only [perform, swept]
    exact same.hub _
  | reject subsystem =>
    have rejected : (w.spread f tags finished).hub.rejectBySubsystem subsystem = _ :=
      w.hub.recast_rejectBySubsystem disguise subsystem
    simp only [perform, rejected]
    exact same.hub _
  | closeAll =>
    have closed : (w.spread f tags finished).hub.closeAll = _ := w.hub.recast_closeAll disguise
    simp only [perform, closed]
    exact same.hub _
  | close name => exact same.withHandle name fun key => same.modify key fun _ => rfl
  | times name =>
    refine same.withHandle name fun key => ?_
    have looked (v : World) : (v.laneTimes key).1 = v := by
      unfold laneTimes
      split <;> rfl
    rwa [looked, looked]
  | frames name => rwa [perform_frames, perform_frames]
  | watch name tag =>
    simp only [perform, same.held?]
    cases w.held? name with
    | none => exact same
    | some found => exact ⟨begun, tags ++ [tag], finished, rfl, accounts⟩
  | send sends => exact same.begins sends
  | abort tag => exact same.abort fun own => may (by rw [own])
  | cancel token => exact same.cancel token
  | script name change =>
    simp only [perform, spread]
    cases w.probes.lookup name with
    | none => exact same
    | some key => exact same.modify key fun l => changeScript_rename change _ l
  | events name =>
    simp only [perform, spread]
    cases w.subscriptions.find? (·.name == name) with
    | none => exact same
    | some s => exact ⟨begun, tags, finished, rfl, accounts⟩
  | startSweeper name times starts =>
    simp only [perform]
    cases times with
    | some p => exact ⟨begun, tags, finished, rfl, accounts⟩
    | none =>
      rw [show Sweeper.ofConfig? (w.spread f tags finished).hub.config starts
        (w.spread f tags finished).now = Sweeper.ofConfig? w.hub.config starts w.now from rfl]
      cases Sweeper.ofConfig? w.hub.config starts w.now with
      | none => exact same
      | some s => exact ⟨begun, tags, finished, rfl, accounts⟩
  | stopSweeper name =>
    simp only [perform, spread]
    cases w.sweepers.lookup name with
    | none => exact same
    | some s => exact ⟨begun, tags, finished, rfl, accounts⟩
  | client name action =>
    simp only [perform, spread, visitor?]
    cases w.visitors.find? (·.connection.name == name) with
    | none => exact same
    | some v => exact same.act v action
  | advance ms => simp at timeless
  | jump ms => simp at timeless
  | _ => exact ⟨begun, tags, finished, rfl, accounts⟩

def bell (f : Fan) : Bell → Bell
  | .waiter key c => .waiter key (f.caller key c)
  | b => b

def move (f : Fan) : Move → Move
  | .ring b => .ring (f.bell b)
  | m => m

theorem Beside.laneStep? (beside : f.Beside w w') (key : Key) : w'.laneStep? key =
    (w.laneStep? key).map fun r =>
      (r.1.rename (f.caller key), r.2.map (·.rename (f.caller key))) := by
  unfold World.laneStep?
  rw [beside.lane?, beside.now]
  cases w.hub.lane? key with
  | none => rfl
  | some l => exact l.act?_rename w.now

theorem Beside.keys (beside : f.Beside w w') : w'.keys = w.keys := by
  rw [World.keys, World.keys, beside.length]

theorem Beside.laneAlarms (beside : f.Beside w w') (key : Key) :
    w'.laneAlarms key = (w.laneAlarms key).map fun a => (a.1, f.bell a.2) := by
  unfold World.laneAlarms
  rw [beside.lane?]
  cases w.hub.lane? key with
  | none => rfl
  | some l =>
    simp only [Option.map_some, l.alarm?_rename, l.waiterAlarms_rename]
    cases l.alarm? <;> simp [bell]

theorem Beside.alarms (beside : f.Beside w w') :
    w'.alarms = w.alarms.map fun a => (a.1, f.bell a.2) := by
  have sweepers : w'.sweepers = w.sweepers := by
    obtain ⟨_, _, _, rfl, _⟩ := beside
    rfl
  unfold World.alarms
  rw [beside.keys, sweepers, List.map_append, List.map_flatMap, List.map_flatMap]
  congr 1
  · exact List.flatMap_congr fun key _ => beside.laneAlarms key
  · simp only [List.map_map]
    rfl

theorem Beside.earliest? (beside : f.Beside w w') :
    earliest? w'.alarms = (earliest? w.alarms).map fun a => (a.1, f.bell a.2) := by
  rw [beside.alarms, earliest?_map]

theorem Beside.visitorStep? (beside : f.Beside w w') (v : Visitor) :
    (w.visitorStep? v = none ∧ w'.visitorStep? v = none) ∨
      ∃ u u', w.visitorStep? v = some u ∧ w'.visitorStep? v = some u' ∧ f.Beside u u' := by
  have same := beside
  obtain ⟨_, tags, finished, rfl, _⟩ := beside
  have acted : v.connection.act? (w.spread f tags finished).hub (seatId v)
      (Socket.start socketCapacity v.reader) (w.spread f tags finished).now = _ :=
    v.connection.act?_rename w.hub (fun _ _ => rfl) (seatId v) _ w.now
  unfold World.visitorStep?
  simp only [acted]
  cases v.connection.act? w.hub (seatId v) (Socket.start socketCapacity v.reader) w.now with
  | none => exact .inl ⟨rfl, rfl⟩
  | some r => exact .inr ⟨_, _, rfl, rfl, (same.hub r.2).setVisitor _⟩

theorem Beside.isLeft (beside : f.Beside w w') (key : Key) : w'.isLeft key = w.isLeft key := by
  have orphaned : (w'.hub.lane? key).any (!·.session.orphaned) =
      (w.hub.lane? key).any (!·.session.orphaned) := by
    rw [beside.lane?, Option.any_map]
    rfl
  have held : w'.isHeld key = w.isHeld key := by
    obtain ⟨_, _, _, rfl, _⟩ := beside
    simp only [isHeld, spread, List.any_map]
    rfl
  rw [World.isLeft, World.isLeft, held, orphaned]

theorem Beside.next? (beside : f.Beside w w') : w'.next? = w.next?.map f.move := by
  have lanes : (fun key => (w'.laneStep? key).isSome) = fun key => (w.laneStep? key).isSome :=
    funext fun key => by rw [beside.laneStep?, Option.isSome_map]
  have visits : (fun v => (w'.visitorStep? v).isSome) = fun v => (w.visitorStep? v).isSome :=
    funext fun v => by
      rcases beside.visitorStep? v with ⟨none, none'⟩ | ⟨_, _, did, did', _⟩
      · rw [none, none']
      · rw [did, did']
        rfl
  have overs : w'.isOver = w.isOver := funext fun v => by
    rw [isOver, isOver, beside.lane?, Option.any_map]
    rfl
  have lefts : w'.isLeft = w.isLeft := funext beside.isLeft
  have visitors : w'.visitors = w.visitors ∧ w'.watches = w.watches := by
    obtain ⟨_, _, _, rfl, _⟩ := beside
    exact ⟨rfl, rfl⟩
  unfold World.next?
  rw [lanes, visits, overs, lefts, visitors.1, visitors.2, beside.keys, beside.earliest?,
    beside.now]
  cases w.keys.find? fun key => (w.laneStep? key).isSome with
  | some key => rfl
  | none =>
    cases w.visitors.find? fun v => (w.visitorStep? v).isSome with
    | some v => rfl
    | none =>
      cases w.watches.find? w.isOver with
      | some v => rfl
      | none =>
        cases w.keys.find? w.isLeft with
        | some key => rfl
        | none =>
          cases World.earliest? w.alarms with
          | none => rfl
          | some a =>
            simp only [Option.map_some, Option.filter_some]
            split <;> rfl

theorem Beside.ring (beside : f.Beside w w') (b : Bell) :
    f.Beside (w.ring b) (w'.ring (f.bell b)) := by
  cases b with
  | writer key =>
    simp only [World.ring, bell, beside.lane?, beside.now]
    cases w.hub.lane? key with
    | none => exact beside
    | some l =>
      simp only [Option.map_some, l.ring_rename]
      exact beside.update key _
  | waiter key c =>
    simp only [World.ring, bell, beside.lane?]
    cases w.hub.lane? key with
    | none => exact beside
    | some l =>
      simp only [Option.map_some, Lane.lapse_rename fun _ _ same => caller_inj same]
      exact beside.update key _
  | sweeper name i =>
    have same := beside
    obtain ⟨begun, tags, finished, rfl, accounts⟩ := beside
    have swept (maxIdle : Nat) : (w.hub.rename f.caller).sweepIdle maxIdle w.now = _ :=
      w.hub.recast_sweepIdle (Hub.disguise_rename f.caller) maxIdle w.now
    simp only [World.ring, bell, spread, swept]
    cases w.sweepers.lookup name with
    | none => exact same
    | some s => exact ⟨begun, tags, finished, rfl, accounts⟩

theorem Beside.make (beside : f.Beside w w') (m : Move) :
    f.Beside (w.make m) (w'.make (f.move m)) := by
  cases m with
  | lane key =>
    simp only [World.make, move, beside.laneStep?]
    cases w.laneStep? key with
    | none => exact beside
    | some moved => exact beside.update key moved
  | visitor v =>
    simp only [World.make, move]
    rcases beside.visitorStep? v with ⟨none, none'⟩ | ⟨u, u', did, did', beside⟩
    · rwa [none, none']
    · rwa [did, did']
  | watch v =>
    obtain ⟨begun, tags, finished, rfl, accounts⟩ := beside
    have erased : f.Beside { w with watches := w.watches.erase v }
        { w.spread f tags finished with watches := w.watches.erase v } :=
      ⟨begun, tags, finished, rfl, accounts⟩
    exact erased.finish _ _ _
  | orphan key => exact beside.modify key fun _ => rfl
  | ring b => exact beside.ring b

theorem Beside.step? (beside : f.Beside w w') :
    (w.step? = none ∧ w'.step? = none) ∨
      ∃ u u', w.step? = some u ∧ w'.step? = some u' ∧ f.Beside u u' := by
  unfold World.step?
  rw [beside.next?]
  cases w.next? with
  | none => exact .inl ⟨rfl, rfl⟩
  | some m => exact .inr ⟨_, _, rfl, rfl, beside.make m⟩

theorem Beside.settleFor (beside : f.Beside w w') (fuel : Nat) :
    f.Beside (w.settleFor fuel) (w'.settleFor fuel) := by
  induction fuel generalizing w w' with
  | zero => exact beside
  | succ fuel ih =>
    unfold World.settleFor
    rcases beside.step? with ⟨none, none'⟩ | ⟨u, u', did, did', next⟩
    · rwa [none, none']
    · rw [did, did']
      exact ih next

theorem Beside.effort (beside : f.Beside w w') : w'.effort = w.effort := by
  obtain ⟨_, tags, finished, rfl, _⟩ := beside
  have lanes : (w.hub.rename f.caller).lanes.map Lane.effort = w.hub.lanes.map Lane.effort := by
    apply List.ext_getElem?
    intro key
    simp [Hub.rename, Hub.recast, Lane.effort_rename, Function.comp_def]
  simp only [World.effort, spread, lanes]

theorem Beside.settle (beside : f.Beside w w') : f.Beside w.settle w'.settle := by
  rw [World.settle, World.settle, beside.effort]
  exact beside.settleFor _

theorem Beside.at (beside : f.Beside w w') (now : Nat) :
    f.Beside { w with now } { w' with now } := by
  obtain ⟨begun, tags, finished, rfl, accounts⟩ := beside
  exact ⟨begun, tags, finished, rfl, accounts⟩

theorem Beside.advanceTo (beside : f.Beside w w') (target fuel : Nat) :
    f.Beside (advanceTo target fuel w) (advanceTo target fuel w') := by
  induction fuel generalizing w w' with
  | zero => exact (beside.at target).settle
  | succ fuel ih =>
    unfold World.advanceTo
    rw [beside.earliest?, beside.now]
    cases World.earliest? w.alarms with
    | none => exact (beside.at target).settle
    | some a =>
      simp only [Option.map_some]
      split
      · exact ih (beside.at _).settle
      · exact (beside.at target).settle

theorem Beside.perform (beside : f.Beside w w') {s : Step} (may : s = .abort f.tag → f.abortable) :
    f.Beside (w.perform s).1 (w'.perform s).1 := by
  cases elapses : s.elapses with
  | false => exact beside.instant elapses may
  | true =>
    cases s with
    | advance ms =>
      simp only [World.perform, World.advance, beside.now]
      exact beside.advanceTo _ _
    | jump ms =>
      simp only [World.perform, World.jump, beside.now]
      exact (beside.at _).settle
    | _ => simp at elapses

theorem Beside.readable (beside : f.Beside w w') (c : Connection) :
    w'.readable c = w.readable c := by
  unfold World.readable
  cases c.phase.seat? with
  | none => rfl
  | some seat =>
    simp only [Option.bind_some, beside.lane?]
    cases w.hub.lane? seat.key with
    | none => rfl
    | some l =>
      obtain ⟨id, client, session, stream⟩ := l
      cases stream <;> rfl

theorem Beside.collect (beside : f.Beside w w') (v : Visitor) :
    f.Beside (w.collect v).1 (w'.collect v).1 := by
  unfold World.collect
  rw [beside.readable]
  split
  · exact (beside.changeSocketOf _ _).setVisitor _
  · exact beside

theorem Beside.visitAll (beside : f.Beside w w') : f.Beside w.visitAll.1 w'.visitAll.1 := by
  have visitors : w'.visitors = w.visitors := by
    obtain ⟨_, _, _, rfl, _⟩ := beside
    rfl
  rw [visitAll_fst, visitAll_fst, visitors]
  exact List.foldl_rel beside fun v _ _ _ beside => beside.collect v

end Courier.Scenario.Fan
