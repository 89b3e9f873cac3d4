import Courier.Proofs.Hub.Deeds
import Courier.Proofs.Hub.Isolation
import Courier.Proofs.Hub.Registration
import Courier.Proofs.Scenario.Perform

set_option autoImplicit false

namespace Courier.Scenario

@[simp]
def Step.tags : Step → List String
  | .watch _ tag => [tag]
  | .send sends => sends.map (·.tag)
  | _ => []

@[simp]
def Step.begun : Step → Nat
  | .send sends => sends.length
  | _ => 0

@[simp]
def Step.elapses : Step → Bool
  | .advance _ => true
  | .jump _ => true
  | _ => false

/-- Steps at which nobody begins to send or to wait, or gives up, and no time passes. -/
@[simp]
def Step.isPlain : Step → Bool
  | .watch _ _ => false
  | .send _ => false
  | .abort _ => false
  | .cancel _ => false
  | .advance _ => false
  | .jump _ => false
  | .connect _ _ _ => false
  | _ => true

namespace World

def Holds (w : World) (key : Key) : Prop :=
  (∃ b ∈ w.handles, b.2 = key) ∨ (∃ e ∈ w.hub.entries, e.key = key) ∨
    (∃ c ∈ w.calls, c.key = key) ∨ ∃ v ∈ w.watches, v.key = key

theorem isHeld_iff {w : World} (alone : w.visitors = []) (key : Key) :
    w.isHeld key = true ↔ w.Holds key := by
  simp [isHeld, alone, Holds, or_assoc]

/-- All have let go of the session of the key. -/
structure Forlorn (w : World) (key : Key) : Prop where
  there : key < w.hub.lanes.length
  free : ¬w.Holds key

theorem Holds.mono {w w' : World} {key : Key} (holds : w'.Holds key)
    (handles : ∀ b ∈ w'.handles, b ∈ w.handles)
    (entries : ∀ e ∈ w'.hub.entries, e ∈ w.hub.entries)
    (calls : ∀ c ∈ w'.calls, c ∈ w.calls) (watches : ∀ v ∈ w'.watches, v ∈ w.watches) :
    w.Holds key :=
  Or.imp (fun ⟨b, there, same⟩ => ⟨b, handles b there, same⟩)
    (Or.imp (fun ⟨e, there, same⟩ => ⟨e, entries e there, same⟩)
      (Or.imp (fun ⟨c, there, same⟩ => ⟨c, calls c there, same⟩)
        fun ⟨v, there, same⟩ => ⟨v, watches v there, same⟩)) holds

/-- Nobody has begun to send or to wait, or to hold a session. -/
structure Narrows (w w' : World) : Prop where
  sends : w'.sends = w.sends
  tags : w'.tags = w.tags
  visitors : w'.visitors = w.visitors
  handles : ∀ b ∈ w'.handles, b ∈ w.handles
  entries : ∀ e ∈ w'.hub.entries, e ∈ w.hub.entries
  calls : ∀ c ∈ w'.calls, c ∈ w.calls
  watches : ∀ v ∈ w'.watches, v ∈ w.watches
  gatherings : ∀ g ∈ w'.gatherings, ∃ g₀ ∈ w.gatherings, g.sender = g₀.sender ∧ g.tag = g₀.tag
  lanes : w'.hub.lanes.length = w.hub.lanes.length

namespace Narrows

theorem refl (w : World) : Narrows w w where
  sends := rfl
  tags := rfl
  visitors := rfl
  handles _ there := there
  entries _ there := there
  calls _ there := there
  watches _ there := there
  gatherings g there := ⟨g, there, rfl, rfl⟩
  lanes := rfl

theorem trans {a b c : World} (first : Narrows a b) (second : Narrows b c) : Narrows a c where
  sends := second.sends.trans first.sends
  tags := second.tags.trans first.tags
  visitors := second.visitors.trans first.visitors
  handles b there := first.handles b (second.handles b there)
  entries e there := first.entries e (second.entries e there)
  calls c there := first.calls c (second.calls c there)
  watches v there := first.watches v (second.watches v there)
  gatherings g there := by
    obtain ⟨g₁, there₁, sender₁, tag₁⟩ := second.gatherings g there
    obtain ⟨g₀, there₀, sender₀, tag₀⟩ := first.gatherings g₁ there₁
    exact ⟨g₀, there₀, sender₁.trans sender₀, tag₁.trans tag₀⟩
  lanes := second.lanes.trans first.lanes

instance : Trans Narrows Narrows Narrows := ⟨trans⟩

theorem forlorn {w w' : World} (narrows : Narrows w w') {key : Key} (forlorn : w.Forlorn key) :
    w'.Forlorn key where
  there := narrows.lanes ▸ forlorn.there
  free holds := forlorn.free
    (holds.mono narrows.handles narrows.entries narrows.calls narrows.watches)

end Narrows

theorem narrows_hub (w : World) (hub : Hub) (entries : ∀ e ∈ hub.entries, e ∈ w.hub.entries)
    (lanes : hub.lanes.length = w.hub.lanes.length) : Narrows w { w with hub } :=
  { Narrows.refl w with entries, lanes }

theorem narrows_finish (w : World) (tag : String) (about : Option SessionId) (reply : Reply) :
    Narrows w (w.finish tag about reply) := { Narrows.refl w with }

theorem narrows_calls (w : World) (p : Call → Bool) :
    Narrows w { w with calls := w.calls.filter p } :=
  { Narrows.refl w with calls := fun _ there => List.mem_of_mem_filter there }

theorem narrows_addResult (w : World) (sender : Nat) (id : SessionId)
    (result : Except SendError Nat) : Narrows w (w.addResult sender id result) := by
  refine { Narrows.refl w with gatherings := fun g there => ?_ }
  obtain ⟨g₀, there₀, rfl⟩ := List.mem_map.mp there
  refine ⟨g₀, there₀, ?_⟩
  split <;> exact ⟨rfl, rfl⟩

theorem narrows_gather (w : World) (sender : Nat) : Narrows w (w.gather sender) := by
  unfold gather
  split
  · exact .refl w
  · split
    · exact .refl w
    · refine Narrows.trans ?_ (narrows_finish _ _ _ _)
      refine { Narrows.refl w with gatherings := fun g there => ?_ }
      obtain ⟨g₀, there₀, rfl⟩ := List.mem_map.mp there
      refine ⟨g₀, there₀, ?_⟩
      split <;> exact ⟨rfl, rfl⟩

theorem length_conclude (h : Hub) (id : SessionId) (key : Key) (outcome : Outcome) :
    (h.conclude id key outcome).1.lanes.length = h.lanes.length := by
  have efforts := congrArg List.length (h.efforts_conclude id key outcome)
  simpa [Hub.efforts] using efforts

theorem narrows_conclude (w : World) (c : Call) (outcome : Outcome) :
    Narrows w (w.conclude c outcome) := by
  have hub := w.narrows_hub _ (w.hub.thins_conclude c.id c.key outcome).entries
    (length_conclude w.hub c.id c.key outcome)
  unfold conclude
  cases c.addressee with
  | byHandle =>
    simp only
    split <;> exact narrows_finish _ _ _ _
  | byId =>
    simp only
    split <;> exact hub.trans (narrows_finish _ _ _ _)
  | member => exact hub.trans (narrows_addResult _ _ _ _)

theorem narrows_deliver {w : World} (alone : w.visitors = []) (key : Key) (m : Notice) :
    Narrows w (w.deliver key m) := by
  unfold deliver
  cases m.caller with
  | sender sender =>
    simp only
    split
    · calc Narrows w _ := w.narrows_calls _
        Narrows _ _ := narrows_conclude _ _ _
        Narrows _ _ := narrows_gather _ _
    · exact .refl w
  | connection name =>
    simp only [visitor?, alone]
    exact .refl w

theorem narrows_deliverAll {w : World} (alone : w.visitors = []) (key : Key)
    (notices : List Notice) : Narrows w (w.deliverAll key notices) := by
  unfold deliverAll
  induction notices generalizing w with
  | nil => exact .refl w
  | cons m notices ih =>
    have first := narrows_deliver alone key m
    exact first.trans (ih (first.visitors.trans alone))

theorem narrows_update {w : World} (alone : w.visitors = []) (key : Key)
    (moved : Lane × List Notice) : Narrows w (w.update key moved) :=
  (w.narrows_hub (w.hub.setLane key moved.1) (fun _ there => there)
    (by simp)).trans
      (narrows_deliverAll (w := { w with hub := w.hub.setLane key moved.1 }) alone key moved.2)

theorem narrows_foldl {α : Type} {f : World → α → World}
    (each : ∀ w : World, w.visitors = [] → ∀ a, Narrows w (f w a)) (as : List α) {w : World}
    (alone : w.visitors = []) : Narrows w (as.foldl f w) := by
  induction as generalizing w with
  | nil => exact .refl w
  | cons a as ih =>
    have first := each w alone a
    exact first.trans (ih (first.visitors.trans alone))

theorem narrows_abort {w : World} (alone : w.visitors = []) (tag : String) :
    Narrows w (w.abort tag) := by
  have gaveUp := narrows_foldl (f := giveUp) (fun v _ c => v.narrows_hub
    (v.hub.updateSession c.key (·.forget (.sender c.sender))) (fun _ there => there)
    (by simp)) (w.calls.filter (·.tag == tag)) alone
  refine gaveUp.trans ?_
  refine { Narrows.refl _ with
    calls := fun _ there => List.mem_of_mem_filter there
    watches := fun _ there => List.mem_of_mem_filter there
    gatherings := fun g there => ⟨g, List.mem_of_mem_filter there, rfl, rfl⟩ }

theorem narrows_cancelIn (token : String) {w : World} (alone : w.visitors = []) (key : Key) :
    Narrows w (cancelIn token w key) := by
  unfold cancelIn
  split
  · exact .refl w
  · refine narrows_foldl (fun v alone u => ?_) _ alone
    split
    · exact narrows_update alone key _
    · exact .refl v

theorem narrows_cancel {w : World} (alone : w.visitors = []) (token : String) :
    Narrows w (w.cancel token) := by
  have noted : Narrows w { w with cancelled := token :: w.cancelled } := { Narrows.refl w with }
  exact noted.trans (narrows_foldl (fun _ alone key => narrows_cancelIn token alone key) _ alone)

theorem narrows_make {w : World} (alone : w.visitors = []) {m : Move} (next : w.next? = some m) :
    Narrows w (w.make m) := by
  cases coming_of_next? alone next with
  | lane there act =>
    simp only [make]
    split
    · exact narrows_update alone _ _
    · exact .refl w
  | watch waits =>
    refine Narrows.trans ?_ (narrows_finish _ _ _ _)
    exact { Narrows.refl w with watches := fun _ there => List.mem_of_mem_erase there }
  | @orphan key l there unaware =>
    exact w.narrows_hub (w.hub.updateSession key ({ · with orphaned := true }))
      (fun _ there => there) (by simp)
  | ring ringsFor due =>
    cases ringsFor with
    | writer there alarm =>
      simp only [make, ring, there]
      exact narrows_update alone _ _
    | waiter there waits =>
      simp only [make, ring, there]
      exact narrows_update alone _ _
    | sweeper there at_i same =>
      simp only [make, ring]
      split
      · rename_i s _
        have efforts := congrArg List.length (w.hub.efforts_removeWhere
          (w.hub.sweepReason? s.maxIdle w.now))
        exact { w.narrows_hub _ (w.hub.thins_removeWhere _).entries
          (by simpa [Hub.efforts] using efforts) with }
      · exact .refl w

theorem Settles.narrows {w v : World} (settles : Settles w v) (sane : w.Sane) : Narrows w v := by
  induction settles with
  | still => exact .refl _
  | move next _ ih =>
    exact (narrows_make sane.alone next).trans (ih (sane_make sane next).1)

theorem narrows_now (w : World) (now : Nat) : Narrows w { w with now } := { Narrows.refl w with }

theorem Passes.narrows {target : Nat} {w v : World} (passes : Passes target w v) (sane : w.Sane) :
    Narrows w v := by
  induction passes with
  | arrive _ rest => exact (narrows_now _ target).trans (rest.narrows (sane_now sane target))
  | ring _ _ moves _ ih =>
    have later := moves.settled (sane_now sane _)
    calc Narrows _ _ := narrows_now _ _
      Narrows _ _ := moves.narrows (sane_now sane _)
      Narrows _ _ := ih later.2.2

/-- Nobody has begun to send or to wait, or heard anything, and all wait as before. Only new sessions
are held by more. -/
structure Idles (w w' : World) : Prop where
  now : w'.now = w.now
  sends : w'.sends = w.sends
  tags : w'.tags = w.tags
  calls : w'.calls = w.calls
  gatherings : w'.gatherings = w.gatherings
  watches : w'.watches = w.watches
  finished : w'.finished = w.finished
  lanes : ∀ key l, w.hub.lane? key = some l →
    ∃ l', w'.hub.lane? key = some l' ∧ l'.session.waiting = l.session.waiting
  holds : ∀ key < w.hub.lanes.length, w'.Holds key → w.Holds key

theorem Idles.refl (w : World) : Idles w w :=
  ⟨rfl, rfl, rfl, rfl, rfl, rfl, rfl, fun _ l there => ⟨l, there, rfl⟩, fun _ _ => id⟩

theorem Idles.forlorn {w w' : World} (idles : Idles w w') {key : Key} (forlorn : w.Forlorn key) :
    w'.Forlorn key where
  there := by
    obtain ⟨_, there, _⟩ := idles.lanes key _ (List.getElem?_eq_getElem forlorn.there)
    exact (List.getElem?_eq_some_iff.mp there).1
  free holds := forlorn.free (idles.holds key forlorn.there holds)

theorem idles_act (w : World) {a : Hub.Act}
    (waiting : ∀ key b, a = .session key b → ∀ s : Session, (s.act b).1.waiting = s.waiting)
    (held : ∀ key, a = .register key → w.Holds key) : Idles w { w with hub := w.hub.act a } := by
  refine ⟨rfl, rfl, rfl, rfl, rfl, rfl, rfl, fun key l there => ?_, fun key old holds => ?_⟩
  · obtain ⟨l', there', _, bs, session, kinds⟩ := w.hub.act_lane a there
    refine ⟨l', there', ?_⟩
    rw [session]
    refine Session.waiting_run (fun b member t => ?_) l.session
    rcases kinds b member with rfl | moved
    · rfl
    · exact waiting key b (List.mem_singleton.mp moved).symm t
  · rcases holds with ⟨b, there, same⟩ | ⟨e, there, same⟩ | ⟨c, there, same⟩ | ⟨v, there, same⟩
    · exact .inl ⟨b, there, same⟩
    · rcases w.hub.entries_act a there with there | ⟨l, _, new⟩ | registers
      · exact .inr (.inl ⟨e, there, same⟩)
      · exact absurd (same.symm.trans new) (Nat.ne_of_lt old)
      · exact same ▸ held e.key registers
    · exact .inr (.inr (.inl ⟨c, there, same⟩))
    · exact .inr (.inr (.inr ⟨v, there, same⟩))

theorem holds_handle {w : World} {name : String} {key : Key} (found : w.handle? name = some key) :
    w.Holds key := by
  unfold handle? at found
  split at found
  · obtain ⟨entry, _⟩ := Option.filter_eq_some_iff.mp found
    obtain ⟨e, there, same⟩ := Option.map_eq_some_iff.mp entry
    exact .inr (.inl ⟨e, (Hub.entry_mem there).1, same⟩)
  · obtain ⟨_, _, split, _⟩ := List.lookup_eq_some_iff.mp found
    exact .inl ⟨(name, key), by simp [split], rfl⟩

theorem Idles.bind {w v : World} (idles : Idles w v) (name : String) {key : Key}
    (new : w.hub.lanes.length ≤ key) : Idles w { v with handles := bind v.handles name key } where
  now := idles.now
  sends := idles.sends
  tags := idles.tags
  calls := idles.calls
  gatherings := idles.gatherings
  watches := idles.watches
  finished := idles.finished
  lanes := idles.lanes
  holds k old holds := by
    rcases holds with ⟨b, there, same⟩ | rest
    · rcases List.mem_append.mp there with there | there
      · exact idles.holds k old (.inl ⟨b, List.mem_of_mem_filter there, same⟩)
      · obtain rfl := List.mem_singleton.mp there
        exact absurd (Nat.lt_of_lt_of_le old new) (by simp [← same])
    · exact idles.holds k old (.inr rest)

theorem idles_enter (w : World) (o : Opening) : Idles w (w.enter o).1 := by
  have entered := w.idles_act (a := .enter (w.lane o w.hub.config)) (by simp) (by simp)
  unfold enter
  cases done : w.hub.enter (w.lane o w.hub.config) with
  | mk hub result =>
    simp only [Hub.act, done] at entered
    cases result with
    | ok key =>
      have new : key = w.hub.lanes.length :=
        Hub.enter_ok (h := w.hub) (l := w.lane o w.hub.config) (by rw [done])
      exact Idles.bind (v := { w with
        hub, probes := World.bind w.probes o.name w.hub.lanes.length }) { entered with } o.name
        (Nat.le_of_eq new.symm)
    | error e => exact { entered with }

theorem idles_modify (w : World) (key : Key) {f : Lane → Lane} (same : ∀ l, (f l).session = l.session) :
    Idles w { w with hub := { w.hub with lanes := w.hub.lanes.modify key f } } := by
  refine { Idles.refl w with lanes := fun k l there => ?_ }
  rw [Hub.lane?_modify, there]
  refine ⟨_, rfl, ?_⟩
  split
  · rw [same]
  · rfl

theorem idles_session (w : World) (key : Key) {b : Session.Act}
    (stays : ∀ s : Session, (s.act b).1.waiting = s.waiting) :
    Idles w { w with hub := w.hub.act (.session key b) } :=
  w.idles_act (fun _ _ same => (Hub.Act.session.inj same).2 ▸ stays) (by simp)

theorem idles_perform {w : World} (alone : w.visitors = []) {s : Step} (plain : s.isPlain = true) :
    Idles w (w.perform s).1 := by
  have done := w.performs s
  generalize (w.perform s).1 = v at done ⊢
  cases done with
  | enters o => exact w.idles_enter o
  | spawns o config =>
    have added := w.idles_act (a := .add (w.lane o (config.getD w.hub.config))) (by simp) (by simp)
    exact Idles.bind (v := { w with
      hub := w.hub.addLane (w.lane o (config.getD w.hub.config))
      probes := World.bind w.probes o.name w.hub.lanes.length }) { added with } o.name
      (Nat.le_refl _)
  | registers handle =>
    exact w.idles_act (a := .register _) (by simp) fun k same =>
      (Hub.Act.register.inj same) ▸ holds_handle handle
  | acts instant quiet old =>
    exact w.idles_act (fun key b same => absurd same (quiet.sessions key b)) fun key same =>
      absurd same (old key)
  | moves instant key sort =>
    refine w.idles_session key fun t => ?_
    rcases sort with rfl | rfl <;> rfl
  | script name change key =>
    refine w.idles_modify key fun l => ?_
    unfold changeScript
    split <;> rfl
  | client action there => simp [visitor?, alone] at there
  | drops name =>
    exact { Idles.refl w with
      holds := fun _ _ holds => holds.mono (fun _ there => List.mem_of_mem_filter there)
        (fun _ there => there) (fun _ there => there) (fun _ there => there) }
  | still => exact .refl w
  | subscribes | startsSweeper | stopsSweeper | dropsSweeper => exact { Idles.refl w with }
  | _ => simp at plain

/-- What a step is to those who send and wait: nothing, or some of them are through, or somebody waits
for a closing, or senders begin. -/
inductive Stirs (w : World) : Step → World → Prop
  | idles {s : Step} {v : World} (silent : s.begun = 0) (idles : Idles w v) : Stirs w s v
  | narrows {s : Step} {v : World} (silent : s.begun = 0) (narrows : Narrows w v) : Stirs w s v
  | watches {name : String} (tag : String) {id : SessionId} {key : Key}
      (held : w.held? name = some (id, key)) : Stirs w (.watch name tag)
        { w with watches := w.watches ++ [⟨tag, id, key⟩], tags := w.tags ++ [tag] }
  | sends (sends : List Send) : Stirs w (.send sends) (sends.foldl begin w)

theorem stirs {w : World} (sane : w.Sane) (settled : w.next? = none) {s : Step}
    (apart : s.connects = false) : w.Stirs s (w.perform s).1 := by
  cases plain : s.isPlain with
  | true =>
    have silent : s.begun = 0 := by cases s <;> first | rfl | simp at plain
    exact .idles silent (idles_perform sane.alone plain)
  | false =>
    cases s with
    | watch name tag =>
      simp only [perform]
      split
      · exact .watches tag ‹_›
      · exact .idles rfl (.refl w)
    | send sends => exact .sends sends
    | abort tag => exact .narrows rfl (narrows_abort sane.alone tag)
    | cancel token => exact .narrows rfl (narrows_cancel sane.alone token)
    | advance ms => exact .narrows rfl ((passes_advance sane settled ms).narrows sane)
    | jump ms =>
      have later := sane_now sane (w.now + ms)
      exact .narrows rfl ((narrows_now w _).trans ((settles_settle later).narrows later))
    | connect name peer maxRequest => simp at apart
    | _ => simp at plain

/-- A sender of this number and tag begins: its calls are to sessions that somebody holds. -/
inductive Begins (n : Nat) (tag : String) : World → World → Prop
  | counts (w : World) (tags : List String) : Begins n tag w { w with sends := w.sends + 1, tags }
  | call {w : World} {c : Call} (sender : c.sender = n) (label : c.tag = tag) (held : w.Holds c.key) :
      Begins n tag w { w with calls := w.calls ++ [c] }
  | gathering (w : World) : Begins n tag w
      { w with gatherings := w.gatherings ++ [⟨n, tag, [], false⟩] }
  | narrows {w w' : World} (narrows : Narrows w w') : Begins n tag w w'
  | trans {a b c : World} (first : Begins n tag a b) (second : Begins n tag b c) : Begins n tag a c

theorem holds_route {w : World} {id : SessionId} {key : Key} (found : w.hub.route id = .ok key) :
    w.Holds key := by
  unfold Hub.route at found
  split at found
  · rename_i k lookup
    obtain ⟨entry, _⟩ := Option.filter_eq_some_iff.mp lookup
    obtain ⟨e, there, same⟩ := Option.map_eq_some_iff.mp entry
    exact .inr (.inl ⟨e, (Hub.entry_mem there).1, same.trans (Except.ok.inj found)⟩)
  · simp at found

theorem narrows_offer (w : World) (c : Call) (payload : String) (patience : Patience) :
    Narrows { w with calls := w.calls ++ [c] } (w.offer c payload patience) := by
  have kept : ∀ spent, ∀ e ∈ (w.hub.offer c.key ⟨.sender c.sender, payload⟩ patience spent
      w.now).1.entries, e ∈ w.hub.entries := by
    intro spent e there
    rw [Hub.offer_eq] at there
    exact there
  have length : ∀ spent, (w.hub.offer c.key ⟨.sender c.sender, payload⟩ patience spent
      w.now).1.lanes.length = w.hub.lanes.length := by
    intro spent
    simp [Hub.offer_eq, Hub.act]
  unfold offer
  simp only
  generalize (patience.deadline.any (· ≤ w.now) || patience.token.any w.cancelled.contains) = spent
  have kept := kept spent
  have length := length spent
  generalize w.hub.offer c.key ⟨.sender c.sender, payload⟩ patience spent w.now = done
    at kept length
  obtain ⟨hub, refusal⟩ := done
  cases refusal with
  | none => exact narrows_hub { w with calls := w.calls ++ [c] } hub kept length
  | some why =>
    refine Narrows.trans ?_ (narrows_conclude { w with hub } c _)
    exact { narrows_hub { w with calls := w.calls ++ [c] } hub kept length with
      calls := fun _ there => List.mem_append_left _ there }

theorem held_mem {w : World} {name : String} {id : SessionId} {key : Key}
    (held : w.held? name = some (id, key)) : w.Holds key := by
  obtain ⟨k, found, there⟩ := Option.bind_eq_some_iff.mp held
  obtain ⟨_, _, same⟩ := Option.map_eq_some_iff.mp there
  exact (Prod.mk.inj same).2 ▸ holds_handle found

def started (w : World) (t : String) (gatherings : List Gathering) : World :=
  { w with sends := w.sends + 1, tags := w.tags ++ [t], gatherings }

theorem begin_eq (w : World) (s : Send) : w.begin s = match s.address with
    | .nowhere => (w.started s.tag w.gatherings).finish s.tag none .sent
    | .handle name =>
      match w.held? name with
      | none => { w with sends := w.sends + 1 }.finish s.tag none .noHandle
      | some (id, key) => (w.started s.tag w.gatherings).offer ⟨w.sends, s.tag, id, key, .byHandle⟩
          s.message.encode ⟨s.timeout.map (w.now + ·), s.token⟩
    | .id id =>
      match w.hub.route id with
      | .error e => (w.started s.tag w.gatherings).finish s.tag (some id) (.error e)
      | .ok key => (w.started s.tag w.gatherings).offer ⟨w.sends, s.tag, id, key, .byId⟩
          s.message.encode ⟨s.timeout.map (w.now + ·), s.token⟩
    | .group group =>
      (((w.hub.inGroup group).map (·.id)).foldl (beginMember s.message.encode w.sends s.tag)
        (w.started s.tag (w.gatherings ++ [⟨w.sends, s.tag, [], false⟩]))).gather w.sends := by
  unfold begin
  cases s.address <;> rfl

/-- What holds of a world once a sender is counted, and survives all that may come of a send, holds
when it has begun. -/
theorem begin_induct {P : World → Prop} (w : World) (s : Send)
    (counts : ∀ tags, (∀ t ∈ tags, t ∈ w.tags ∨ t = s.tag) → P { w with sends := w.sends + 1, tags })
    (gathering : ∀ v : World, P v →
      P { v with gatherings := v.gatherings ++ [⟨w.sends, s.tag, [], false⟩] })
    (finish : ∀ (v : World) about reply, P v → P (v.finish s.tag about reply))
    (offer : ∀ (v : World) (c : Call) payload patience, c.sender = w.sends → c.tag = s.tag →
      v.Holds c.key → P v → P (v.offer c payload patience))
    (addResult : ∀ (v : World) id result, P v → P (v.addResult w.sends id result))
    (gather : ∀ v : World, P v → P (v.gather w.sends)) : P (w.begin s) := by
  have member (v : World) (id : SessionId) (before : P v) :
      P (beginMember s.message.encode w.sends s.tag v id) := by
    unfold beginMember
    split
    · exact addResult v id _ before
    · rename_i key found
      exact offer v ⟨w.sends, s.tag, id, key, .member⟩ _ _ rfl rfl (holds_route found) before
  have new (t : String) (there : t ∈ w.tags ++ [s.tag]) : t ∈ w.tags ∨ t = s.tag :=
    (List.mem_append.mp there).imp_right List.mem_singleton.mp
  have started : P (w.started s.tag w.gatherings) := counts _ new
  rw [begin_eq]
  cases s.address with
  | nowhere => exact finish _ none .sent started
  | handle name =>
    simp only
    split
    · exact finish _ none .noHandle (counts w.tags fun _ there => .inl there)
    · rename_i id key found
      have held : w.Holds key := held_mem found
      exact offer _ ⟨w.sends, s.tag, id, key, .byHandle⟩ _ _ rfl rfl held started
  | id id =>
    simp only
    split
    · exact finish _ _ _ started
    · rename_i key found
      have held : w.Holds key := holds_route found
      exact offer _ ⟨w.sends, s.tag, id, key, .byId⟩ _ _ rfl rfl held started
  | group group =>
    exact gather _ (List.foldlRecOn (motive := P) ((w.hub.inGroup group).map (·.id))
      (beginMember s.message.encode w.sends s.tag)
      (b := w.started s.tag (w.gatherings ++ [⟨w.sends, s.tag, [], false⟩]))
      (gathering _ started) fun v before id _ => member v id before)

theorem begins_begin (w : World) (s : Send) : Begins w.sends s.tag w (w.begin s) :=
  w.begin_induct s (fun tags _ => .counts w tags) (fun v before => before.trans (.gathering v))
    (fun _ _ _ before => before.trans (.narrows (narrows_finish _ _ _ _)))
    (fun v c payload patience sender label held before => before.trans
      (.trans (.call sender label held) (.narrows (v.narrows_offer c payload patience))))
    (fun _ _ _ before => before.trans (.narrows (narrows_addResult _ _ _ _)))
    fun _ before => before.trans (.narrows (narrows_gather _ _))

theorem Begins.forlorn {n : Nat} {tag : String} {w w' : World} (begins : Begins n tag w w') {key : Key}
    (forlorn : w.Forlorn key) : w'.Forlorn key := by
  induction begins with
  | counts => exact { forlorn with }
  | @call w c _ _ held =>
    refine ⟨forlorn.there, fun holds => forlorn.free ?_⟩
    rcases holds with handle | entry | ⟨d, there, same⟩ | watch
    · exact .inl handle
    · exact .inr (.inl entry)
    · rcases List.mem_append.mp there with there | there
      · exact .inr (.inr (.inl ⟨d, there, same⟩))
      · obtain rfl := List.mem_singleton.mp there
        exact same ▸ held
    · exact .inr (.inr (.inr watch))
  | gathering => exact { forlorn with }
  | narrows narrows => exact narrows.forlorn forlorn
  | trans _ _ first second => exact second (first forlorn)

/-- Nobody comes to hold again what all have let go of. -/
theorem Forlorn.perform {w : World} {key : Key} (forlorn : w.Forlorn key) (sane : w.Sane)
    (settled : w.next? = none) {s : Step} (apart : s.connects = false) :
    (w.perform s).1.Forlorn key := by
  have stirs := stirs sane settled apart
  generalize (w.perform s).1 = v at stirs ⊢
  cases stirs with
  | idles _ idles => exact idles.forlorn forlorn
  | narrows _ narrows => exact narrows.forlorn forlorn
  | watches tag held =>
    refine ⟨forlorn.there, fun holds => forlorn.free ?_⟩
    rcases holds with handle | entry | call | ⟨v, there, same⟩
    · exact .inl handle
    · exact .inr (.inl entry)
    · exact .inr (.inr (.inl call))
    · rcases List.mem_append.mp there with there | there
      · exact .inr (.inr (.inr ⟨v, there, same⟩))
      · obtain rfl := List.mem_singleton.mp there
        exact same ▸ held_mem held
  | sends sends =>
    exact List.foldlRecOn (motive := fun v => Forlorn v key) sends begin forlorn
      fun v forlorn s _ => (begins_begin v s).forlorn forlorn

end World

end Courier.Scenario
