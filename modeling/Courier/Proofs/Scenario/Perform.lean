import Courier.Proofs.Scenario.Settle
import Courier.Scenario.Report

set_option autoImplicit false

namespace Courier.Scenario

def Step.elapsed : Step → Nat
  | .advance ms => ms
  | .jump ms => ms
  | _ => 0

def Step.opens : Step → Bool
  | .enter _ => true
  | .spawn _ _ => true
  | _ => false

@[simp]
def Step.connects : Step → Bool
  | .connect _ _ _ => true
  | _ => false

namespace World

structure Steady (w w' : World) : Prop where
  now : w'.now = w.now
  sweepers : w'.sweepers = w.sweepers
  visitors : w'.visitors = w.visitors

theorem Steady.refl (w : World) : Steady w w := ⟨rfl, rfl, rfl⟩

theorem Steady.trans {a b c : World} (first : Steady a b) (second : Steady b c) : Steady a c :=
  ⟨second.now.trans first.now, second.sweepers.trans first.sweepers,
    second.visitors.trans first.visitors⟩

theorem Told.steady {w w' : World} (told : Told w w') : Steady w w' :=
  ⟨told.now, told.sweepers, told.visitors⟩

theorem Steady.sane {w w' : World} (steady : Steady w w') (sane : w.Sane) : w'.Sane :=
  ⟨steady.visitors.trans sane.alone, by rw [steady.sweepers]; exact sane.named,
    by rw [steady.sweepers]; exact sane.periodic⟩

theorem steady_foldl {α : Type} {f : World → α → World}
    (one : ∀ w : World, w.visitors = [] → ∀ a, Steady w (f w a)) (l : List α) {w : World}
    (alone : w.visitors = []) : Steady w (l.foldl f w) := by
  induction l generalizing w with
  | nil => exact .refl w
  | cons a l ih =>
    have first := one w alone a
    exact first.trans (ih (first.visitors.trans alone))

theorem steady_update {w : World} (alone : w.visitors = []) (key : Key)
    (moved : Lane × List Notice) : Steady w (w.update key moved) := by
  have told := told_deliverAll (w := { w with hub := w.hub.setLane key moved.1 }) alone key moved.2
  exact ⟨told.now, told.sweepers, told.visitors⟩

theorem offer_taken {w : World} {c : Call} {payload : String} {patience : Patience} {hub : Hub}
    (taken : w.hub.offer c.key ⟨.sender c.sender, payload⟩ patience
      (patience.deadline.any (· ≤ w.now) || patience.token.any w.cancelled.contains) w.now =
        (hub, none)) :
    w.offer c payload patience = { w with hub, calls := w.calls ++ [c] } := by
  simp only [offer, taken]

theorem offer_refused {w : World} {c : Call} {payload : String} {patience : Patience} {hub : Hub}
    {why : Refusal} (refused : w.hub.offer c.key ⟨.sender c.sender, payload⟩ patience
      (patience.deadline.any (· ≤ w.now) || patience.token.any w.cancelled.contains) w.now =
        (hub, some why)) :
    w.offer c payload patience = { w with hub }.conclude c (.refused why) := by
  simp only [offer, refused]

theorem steady_offer (w : World) (c : Call) (payload : String) (patience : Patience) :
    Steady w (w.offer c payload patience) := by
  unfold offer
  simp only
  split
  · exact ⟨rfl, rfl, rfl⟩
  · rename_i hub refusal _
    have told := told_conclude { w with hub } c (.refused refusal)
    exact ⟨told.now, told.sweepers, told.visitors⟩

theorem steady_beginMember (payload : String) (sender : Nat) (tag : String) (w : World)
    (id : SessionId) : Steady w (beginMember payload sender tag w id) := by
  unfold beginMember
  split
  · exact ⟨rfl, rfl, rfl⟩
  · exact w.steady_offer _ payload .endless

theorem steady_begin {w : World} (alone : w.visitors = []) (s : Send) : Steady w (w.begin s) := by
  have offered (c : Call) (patience : Patience) :
      Steady w (offer { w with sends := w.sends + 1, tags := w.tags ++ [s.tag] } c s.message.encode
        patience) := by
    have steady := steady_offer { w with sends := w.sends + 1, tags := w.tags ++ [s.tag] } c
      s.message.encode patience
    exact ⟨steady.now, steady.sweepers, steady.visitors⟩
  unfold begin
  cases s.address with
  | nowhere => exact ⟨rfl, rfl, rfl⟩
  | handle name =>
    simp only
    split
    · exact ⟨rfl, rfl, rfl⟩
    · exact offered _ _
  | id id =>
    simp only
    split
    · exact ⟨rfl, rfl, rfl⟩
    · exact offered _ _
  | group group =>
    have members := steady_foldl (f := beginMember s.message.encode w.sends s.tag) (w := { w with
      sends := w.sends + 1
      tags := w.tags ++ [s.tag]
      gatherings := w.gatherings ++ [⟨w.sends, s.tag, [], false⟩] })
      (fun v _ => steady_beginMember s.message.encode w.sends s.tag v)
      ((w.hub.inGroup group).map (·.id)) alone
    have told := members.trans (told_gather _ w.sends).steady
    simp only
    exact ⟨told.now, told.sweepers, told.visitors⟩

theorem steady_abort {w : World} (alone : w.visitors = []) (tag : String) :
    Steady w (w.abort tag) := by
  have left := steady_foldl (f := giveUp) (fun _ _ _ => ⟨rfl, rfl, rfl⟩)
    (w.calls.filter (·.tag == tag)) alone
  exact ⟨left.now, left.sweepers, left.visitors⟩

def lapseAt (key : Key) (w : World) (u : Waiter) : World :=
  match w.hub.lane? key with
  | some l => w.update key (l.lapse u.parcel.caller)
  | none => w

theorem cancelIn_eq (token : String) (w : World) (key : Key) :
    cancelIn token w key = match w.hub.lane? key with
      | none => w
      | some l => (l.session.waiting.filter fun u => u.patience.token == some token).foldl
          (lapseAt key) w := rfl

theorem steady_cancelIn (token : String) {w : World} (alone : w.visitors = []) (key : Key) :
    Steady w (cancelIn token w key) := by
  unfold cancelIn
  split
  · exact .refl w
  · refine steady_foldl (fun w alone v => ?_) _ alone
    split
    · exact steady_update alone key _
    · exact .refl w

theorem steady_cancel {w : World} (alone : w.visitors = []) (token : String) :
    Steady w (w.cancel token) := by
  have ended := steady_foldl (w := { w with cancelled := token :: w.cancelled })
    (fun w alone key => steady_cancelIn token alone key) (List.range w.hub.lanes.length) alone
  exact ⟨ended.now, ended.sweepers, ended.visitors⟩

theorem steady_enter (w : World) (o : Opening) : Steady w (w.enter o).1 := by
  unfold enter
  simp only
  split <;> exact ⟨rfl, rfl, rfl⟩

theorem hub_enter (w : World) (o : Opening) :
    (w.enter o).1.hub = (w.hub.enter (w.lane o w.hub.config)).1 := by
  unfold enter
  simp only
  split <;> rfl

theorem perform_frames (w : World) (name : String) : (w.perform (.frames name)).1 = w := by
  simp only [World.perform]
  split <;> rfl

theorem perform_events (w : World) (name : String) :
    ∃ subscriptions, (w.perform (.events name)).1 = { w with subscriptions } := by
  simp only [World.perform]
  split
  · exact ⟨w.subscriptions, rfl⟩
  · exact ⟨_, rfl⟩

/-- What a step does. Most steps look at something, act on the hub, move a session or change what is
kept beside the hub, and it does not matter which of them does so. -/
inductive Performs (w : World) : Step → World → Prop
  | still {s : Step} (instant : s.elapsed = 0) : Performs w s w
  | enters (o : Opening) : Performs w (.enter o) (w.enter o).1
  | spawns (o : Opening) (config : Option Config) :
      Performs w (.spawn o config) (w.spawn o (config.getD w.hub.config)).1
  | registers {name : String} {key : Key} (handle : w.handle? name = some key) :
      Performs w (.register name) { w with hub := w.hub.act (.register key) }
  | acts {s : Step} (instant : s.elapsed = 0) {a : Hub.Act} (quiet : a.Quiet)
      (old : ∀ key, a ≠ .register key) : Performs w s { w with hub := w.hub.act a }
  | moves {s : Step} (instant : s.elapsed = 0) (key : Key) {b : Session.Act}
      (sort : b = .close ∨ b = .touch w.now) :
      Performs w s { w with hub := w.hub.act (.session key b) }
  | script (name : String) (change : ProbeScript → ProbeScript) (key : Key) :
      Performs w (.script name change)
        { w with hub := { w.hub with lanes := w.hub.lanes.modify key (changeScript change) } }
  | client {name : String} (action : ClientAction) {v : Visitor}
      (there : w.visitor? name = some v) : Performs w (.client name action) (w.act v action)
  | drops (name : String) : Performs w (.drop name) { w with handles := unbind w.handles name }
  | watches {name : String} (tag : String) {id : SessionId} {key : Key}
      (held : w.held? name = some (id, key)) : Performs w (.watch name tag)
        { w with watches := w.watches ++ [⟨tag, id, key⟩], tags := w.tags ++ [tag] }
  | sends (sends : List Send) : Performs w (.send sends) (sends.foldl begin w)
  | aborts (tag : String) : Performs w (.abort tag) (w.abort tag)
  | cancels (token : String) : Performs w (.cancel token) (w.cancel token)
  | advances (ms : Nat) : Performs w (.advance ms) (w.advance ms)
  | jumps (ms : Nat) : Performs w (.jump ms) (w.jump ms)
  | subscribes {s : Step} (instant : s.elapsed = 0) (subscriptions : List Subscription) :
      Performs w s { w with subscriptions }
  | startsSweeper {s : Step} (instant : s.elapsed = 0) (name : String)
      (maxIdle period starts : Nat) : Performs w s
        { w with sweepers := bind w.sweepers name (.start maxIdle period starts w.now) }
  | stopsSweeper {s : Step} (instant : s.elapsed = 0) (name : String) (t : Sweeper) :
      Performs w s { w with sweepers := bind w.sweepers name t.stop }
  | dropsSweeper (name : String) :
      Performs w (.dropSweeper name) { w with sweepers := unbind w.sweepers name }
  | connects (name peer : String) (maxRequest : Nat) (v : Visitor) :
      Performs w (.connect name peer maxRequest) { w with visitors := w.visitors ++ [v] }

theorem performs_withHandle {w : World} {s : Step} (instant : s.elapsed = 0) (name : String)
    {f : Key → World × Result} (each : ∀ key, w.handle? name = some key → w.Performs s (f key).1) :
    w.Performs s (w.withHandle name f).1 := by
  unfold withHandle
  cases handle : w.handle? name with
  | none => exact .still instant
  | some key => exact each key handle

theorem performs (w : World) (s : Step) : w.Performs s (w.perform s).1 := by
  cases s with
  | enter o => exact .enters o
  | spawn o config => exact .spawns o config
  | register name =>
    refine performs_withHandle rfl name fun key handle => ?_
    have registered := Performs.registers handle
    unfold registerLane
    cases done : w.hub.register key with
    | ok hub => simpa only [Hub.act, done] using registered
    | error e => exact .still rfl
  | drop name => exact .drops name
  | remove id reason => exact .acts rfl (a := .remove id reason) ⟨by simp, by simp, by simp⟩ (by simp)
  | removeIfSame id name reason =>
    exact performs_withHandle rfl name fun key _ =>
      .acts rfl (a := .removeIfSame id key reason) ⟨by simp, by simp, by simp⟩ (by simp)
  | touch id =>
    simp only [perform, Hub.touch_eq]
    cases w.hub.entry? id with
    | none => exact .still rfl
    | some e => exact .moves rfl e.key (.inr rfl)
  | touchHandle name => exact performs_withHandle rfl name fun key _ => .moves rfl key (.inr rfl)
  | sweep maxIdle => exact .acts rfl (a := .sweep maxIdle w.now) ⟨by simp, by simp, by simp⟩ (by simp)
  | reject subsystem => exact .acts rfl (a := .reject subsystem) ⟨by simp, by simp, by simp⟩ (by simp)
  | closeAll => exact .acts rfl (a := .closeAll) ⟨by simp, by simp, by simp⟩ (by simp)
  | close name => exact performs_withHandle rfl name fun key _ => .moves rfl key (.inl rfl)
  | times name =>
    refine performs_withHandle rfl name fun key _ => ?_
    unfold laneTimes
    split <;> exact .still rfl
  | frames name =>
    rw [perform_frames]
    exact .still rfl
  | watch name tag =>
    simp only [perform]
    split
    · exact .watches tag ‹_›
    · exact .still rfl
  | send sends => exact .sends sends
  | abort tag => exact .aborts tag
  | cancel token => exact .cancels token
  | script name change =>
    simp only [perform]
    split
    · exact .script name change _
    · exact .still rfl
  | advance ms => exact .advances ms
  | jump ms => exact .jumps ms
  | subscribe name => exact .subscribes rfl _
  | events name =>
    obtain ⟨read, done⟩ := w.perform_events name
    rw [done]
    exact .subscribes rfl read
  | startSweeper name times starts =>
    simp only [perform]
    cases times with
    | some times => exact .startsSweeper rfl name times.1 times.2 starts
    | none =>
      simp only [Sweeper.ofConfig?]
      cases w.hub.config.maxIdle? with
      | none => exact .still rfl
      | some maxIdle => exact .startsSweeper rfl name maxIdle w.hub.config.sweepPeriod starts
  | stopSweeper name =>
    simp only [perform]
    split
    · exact .stopsSweeper rfl name _
    · exact .still rfl
  | dropSweeper name => exact .dropsSweeper name
  | connect name peer maxRequest => exact .connects name peer maxRequest _
  | client name action =>
    simp only [perform]
    split
    · exact .client action ‹_›
    · exact .still rfl
  | lookup | group | distribution | config => exact .still rfl

theorem sane_bind {w : World} (sane : w.Sane) (name : String) {s : Sweeper}
    (periodic : s.loops ≠ [] → 0 < s.period) :
    Sane { w with sweepers := bind w.sweepers name s } := by
  refine ⟨sane.alone, ?_, ?_⟩
  · simp only [bind, List.map_append, List.map_cons, List.map_nil, List.nodup_append]
    refine ⟨sane.named.sublist (List.filter_sublist.map _), List.nodup_singleton name, ?_⟩
    intro n there m same
    obtain ⟨p, kept, rfl⟩ := List.mem_map.mp there
    rw [List.mem_singleton.mp same]
    simpa using (List.mem_filter.mp kept).2
  · intro p there loops
    rcases List.mem_append.mp there with old | new
    · exact sane.periodic p (List.mem_of_mem_filter old) loops
    · obtain rfl := List.mem_singleton.mp new
      exact periodic loops

theorem sane_unbind {w : World} (sane : w.Sane) (name : String) :
    Sane { w with sweepers := unbind w.sweepers name } :=
  ⟨sane.alone, sane.named.sublist (List.filter_sublist.map _),
    fun p there => sane.periodic p (List.mem_of_mem_filter there)⟩

theorem periodic_start (maxIdle period starts now : Nat)
    (loops : (Sweeper.start maxIdle period starts now).loops ≠ []) :
    0 < (Sweeper.start maxIdle period starts now).period := by
  unfold Sweeper.start at loops ⊢
  by_cases none : period = 0
  · simp [none] at loops
  · exact Nat.pos_of_ne_zero none

theorem Settles.sane_at {w v : World} {t : Nat} (h : Settles { w with now := t } v)
    (sane : w.Sane) : v.Sane ∧ v.now = t :=
  ⟨(h.settled (sane_now sane t)).2.2, (h.settled (sane_now sane t)).2.1⟩

/-- Every step but a connection keeps a settled world sane, and lets its own time pass. -/
theorem perform_sane {w : World} (sane : w.Sane) (settled : w.next? = none) {s : Step}
    (apart : s.connects = false) :
    (w.perform s).1.Sane ∧ (w.perform s).1.now = w.now + s.elapsed := by
  have alone := sane.alone
  have kept {v : World} (steady : Steady w v) (instant : s.elapsed = 0) :
      v.Sane ∧ v.now = w.now + s.elapsed := ⟨steady.sane sane, by rw [steady.now, instant]; rfl⟩
  have done := w.performs s
  generalize (w.perform s).1 = v at done ⊢
  cases done with
  | enters o => exact kept (w.steady_enter o) rfl
  | sends sends => exact kept (steady_foldl (fun _ alone s => steady_begin alone s) sends alone) rfl
  | aborts tag => exact kept (steady_abort alone tag) rfl
  | cancels token => exact kept (steady_cancel alone token) rfl
  | advances ms =>
    have passed := (passes_advance sane settled ms).settled sane
    exact ⟨passed.2.2, passed.2.1⟩
  | jumps ms => exact (settles_settle (sane_now sane (w.now + ms))).sane_at sane
  | startsSweeper instant name maxIdle period starts =>
    exact ⟨sane_bind sane name (periodic_start maxIdle period starts w.now), by rw [instant]; rfl⟩
  | stopsSweeper instant name t =>
    exact ⟨sane_bind sane name fun loops => absurd rfl loops, by rw [instant]; rfl⟩
  | dropsSweeper name => exact ⟨sane_unbind sane name, rfl⟩
  | connects => simp at apart
  | client action there => simp [visitor?, alone] at there
  | still instant | acts instant | moves instant | subscribes instant =>
    exact kept ⟨rfl, rfl, rfl⟩ instant
  | _ => exact kept ⟨rfl, rfl, rfl⟩ rfl

theorem visitAll_fst (w : World) :
    w.visitAll.1 = w.visitors.foldl (fun w v => (w.visit v).1) w := by
  unfold visitAll
  exact (List.foldl_hom Prod.fst fun _ _ => rfl).symm

theorem runAll_fst (w : World) (steps : List Step) :
    (w.runAll steps).1 = steps.foldl (fun w s => (w.run s).1) w := by
  unfold runAll
  exact (List.foldl_hom Prod.fst fun _ _ => rfl).symm

end World

end Courier.Scenario
