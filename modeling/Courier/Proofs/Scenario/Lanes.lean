import Courier.Proofs.Scenario.Becomes

set_option autoImplicit false

namespace Courier

open Relation (ReflTransGen)
inductive Lane.Change : Lane → Lane → Prop
  | acts {l l' : Lane} {now : Nat} {told : List Notice} (acts : l.act? now = some (l', told)) :
      Change l l'
  | rings (l : Lane) (now : Nat) : Change l (l.ring now).1
  | meets (l : Lane) {b : Session.Act} (outer : ¬b.IsWriters) :
      Change l { l with session := (l.session.act b).1 }
  | script (l : Lane) (change : ProbeScript → ProbeScript) :
      Change l (Scenario.World.changeScript change l)
  | socket (l : Lane) (change : Socket → Socket) : Change l (Scenario.World.changeSocket change l)

namespace Hub

def Traces (h h' : Hub) : Prop :=
  ∀ key l, h.lane? key = some l → ∃ l', h'.lane? key = some l' ∧ ReflTransGen Lane.Change l l'

variable {h h' : Hub}

theorem Traces.refl (h : Hub) : h.Traces h := fun _ l there => ⟨l, there, .refl⟩

theorem Traces.trans {a b c : Hub} (first : a.Traces b) (second : b.Traces c) : a.Traces c := by
  intro key l there
  obtain ⟨m, at_key, early⟩ := first key l there
  obtain ⟨l', there', late⟩ := second key m at_key
  exact ⟨l', there', early.trans late⟩

theorem Traces.of_lanes (same : h'.lanes = h.lanes) : h.Traces h' :=
  fun _ l there => ⟨l, by rw [lane?, same]; exact there, .refl⟩

theorem traces_modify (h : Hub) (key : Key) {f : Lane → Lane}
    (changes : ∀ l, ReflTransGen Lane.Change l (f l)) :
    h.Traces { h with lanes := h.lanes.modify key f } := by
  intro k l there
  rw [lane?_modify, there]
  by_cases same : key = k
  · exact ⟨f l, by simp [same], changes l⟩
  · exact ⟨l, by simp [same], .refl⟩

theorem traces_setLane {key : Key} {l l' : Lane} (there : h.lane? key = some l)
    (changes : ReflTransGen Lane.Change l l') : h.Traces (h.setLane key l') := by
  intro k m at_k
  rw [lane?_setLane there]
  by_cases same : k = key
  · obtain rfl : l = m := Option.some.inj (there.symm.trans (same ▸ at_k))
    exact ⟨l', by simp [same], changes⟩
  · exact ⟨m, by simp [same, at_k], .refl⟩

theorem traces_session (h : Hub) (key : Key) {b : Session.Act} (outer : ¬b.IsWriters) :
    h.Traces (h.updateSession key fun s => (s.act b).1) :=
  h.traces_modify key fun l => .single (.meets l outer)

def Act.IsOuter : Act → Prop
  | .session _ b => ¬b.IsWriters
  | .stream _ _ => False
  | _ => True

theorem Step.traces {a : Act} (step : Step a h h') (outer : a.IsOuter) : h.Traces h' := by
  cases step with
  | adds new part =>
    intro k l there
    have old : k < h.lanes.length := (List.getElem?_eq_some_iff.mp there).1
    exact ⟨l, by rw [lane?, addLane, List.getElem?_append_left old]; exact there, .refl⟩
  | closes key => exact h.traces_session key (b := .close) id
  | moves key b part =>
    subst part
    exact h.traces_session key outer
  | streams key s part => simp [part, Act.IsOuter] at outer
  | enrolls => exact .of_lanes rfl
  | replaces key new old => exact (h.rebind new.id key).traces_session old.key (b := .close) id
  | takes e =>
    exact traces_session { h with entries := h.entries.filter (·.id != e.id) } e.key (b := .close) id

theorem traces_act (h : Hub) {a : Act} (outer : a.IsOuter) : h.Traces (h.act a) := by
  have steps := h.act_steps a
  generalize h.act a = h' at steps
  induction steps with
  | refl => exact .refl h
  | tail _ step ih => exact ih.trans (step.traces outer)

theorem Quietly.traces (quietly : h.Quietly h') : h.Traces h' := by
  obtain ⟨acts, rfl, all⟩ := quietly
  refine acts.foldlRecOn (motive := h.Traces) act (.refl h) fun v before a member => ?_
  refine before.trans (v.traces_act ?_)
  have quiet := all a member
  cases a with
  | session key b => exact absurd rfl (quiet.sessions key b)
  | stream key s => exact absurd rfl (quiet.streams key s)
  | _ => trivial

theorem traces_offer (h : Hub) (key : Key) (p : Parcel) (patience : Patience) (spent : Bool)
    (now : Nat) : h.Traces (h.offer key p patience spent now).1 := by
  rw [offer_eq]
  exact h.traces_act (a := .session key (.offer p patience spent now)) id

end Hub

namespace Connection

variable {h : Hub}

theorem traces_send (c : Connection) (h : Hub) (seat : Seat) (m : Message) (now : Nat) :
    h.Traces (c.send h seat m now).2 := by
  unfold send
  cases h.route seat.id with
  | error e =>
    simp only
    split
    · exact (c.quietly_acknowledged h _ _).traces
    · exact (c.quietly_answered h _ _ _).traces
    · exact .refl h
  | ok key =>
    have offered := h.traces_offer key ⟨c.caller, m.encode⟩ .endless false now
    simp only
    generalize h.offer key ⟨c.caller, m.encode⟩ .endless false now = done at offered
    obtain ⟨h', refusal⟩ := done
    cases refusal with
    | none => exact offered
    | some why => exact offered.trans (c.quietly_notified h' _).traces

theorem traces_welcome (c : Connection) (h : Hub) (id : SessionId) (client : Client)
    (socket : Socket) (now : Nat) : h.Traces (c.welcome h id client socket now).2 := by
  have entered := h.traces_act (a := .enter ⟨id, client, .start h.config now, .socket socket⟩) trivial
  unfold welcome
  simp only [Hub.act] at entered
  generalize h.enter ⟨id, client, .start h.config now, .socket socket⟩ = done at entered
  obtain ⟨h', result⟩ := done
  cases result with
  | error e => exact entered.trans (c.quietly_finish h' _).traces
  | ok key => exact entered.trans (traces_send _ h' _ _ now)

theorem traces_request (c : Connection) (h : Hub) (seat : Seat) (n : Nat) (text : String)
    (now : Nat) : h.Traces (c.request h seat n text now).2 := by
  unfold request
  simp only
  split
  · cases entry : h.entry? seat.id with
    | none =>
      simp only [Hub.touch, entry]
      exact (quietly_finish _ h none).traces
    | some e =>
      simp only [Hub.touch, entry]
      exact (h.traces_session e.key (b := .touch now) id).trans (traces_send _ _ seat _ now)
  · exact traces_send _ h seat _ now

theorem traces_act? {c : Connection} {id : SessionId} {socket : Socket} {now : Nat}
    {done : Connection × Hub} (did : c.act? h id socket now = some done) : h.Traces done.2 := by
  cases serves_act? did with
  | greets phase did =>
    unfold readHandshake? at did
    split at did
    · simp at did
    · exact Option.some.inj did ▸ (c.quietly_finish h _).traces
    · exact Option.some.inj did ▸ (c.quietly_finish h _).traces
    · simp only at did
      split at did
      · exact Option.some.inj did ▸ (quietly_finish _ h _).traces
      · exact Option.some.inj did ▸ traces_welcome _ h id _ socket now
  | sees seat n phase did =>
    unfold seeClosing? at did
    split at did
    · exact Option.some.inj did ▸ (c.quietly_finish h none).traces
    · simp at did
  | reads seat n phase did =>
    unfold readRequest? at did
    split at did
    · simp at did
    · exact Option.some.inj did ▸ (c.quietly_finish h none).traces
    · exact Option.some.inj did ▸ (c.quietly_finish h _).traces
    · simp only at did
      split at did
      · exact Option.some.inj did ▸ .refl h
      · exact Option.some.inj did ▸ traces_request _ h seat (n + 1) _ now

end Connection

namespace Scenario.World

variable {w w' : World}

theorem Tells.traces (tells : w.Tells w') : w.hub.Traces w'.hub := tells.quietly.traces

theorem traces_update {key : Key} {l : Lane} (there : w.hub.lane? key = some l)
    {moved : Lane × List Notice} (changes : ReflTransGen Lane.Change l moved.1) :
    w.hub.Traces (w.update key moved).hub :=
  (Hub.traces_setLane there changes).trans
    (tells_deliverAll { w with hub := w.hub.setLane key moved.1 } key moved.2).traces

theorem traces_offer (w : World) (c : Call) (payload : String) (patience : Patience) :
    w.hub.Traces (w.offer c payload patience).hub := by
  have offered := w.hub.traces_offer c.key ⟨.sender c.sender, payload⟩ patience
    (patience.deadline.any (· ≤ w.now) || patience.token.any w.cancelled.contains) w.now
  unfold offer
  simp only
  split
  · rename_i done
    simpa [done] using offered
  · rename_i hub why done
    rw [done] at offered
    exact offered.trans (tells_conclude { w with hub } c (.refused why)).traces

theorem traces_begin (w : World) (s : Send) : w.hub.Traces (w.begin s).hub :=
  w.begin_induct s (P := fun v => w.hub.Traces v.hub) (fun _ _ => .refl _) (fun _ before => before)
    (fun _ _ _ before => before) (fun v c payload patience _ _ _ before =>
      before.trans (v.traces_offer c payload patience))
    (fun _ _ _ before => before) fun v before => before.trans (tells_gather v _).traces

theorem traces_abort (w : World) (tag : String) : w.hub.Traces (w.abort tag).hub := by
  unfold abort
  exact List.foldlRecOn (motive := fun v : World => w.hub.Traces v.hub)
    (w.calls.filter (·.tag == tag)) giveUp (.refl w.hub) fun v before c _ =>
      before.trans (v.hub.traces_session c.key (b := .abort (.sender c.sender)) id)

theorem traces_lapseAt (key : Key) (w : World) (u : Waiter) :
    w.hub.Traces (lapseAt key w u).hub := by
  unfold lapseAt
  split
  · rename_i l there
    exact traces_update there (.single (.meets l (b := .abort u.parcel.caller) id))
  · exact .refl w.hub

theorem traces_cancel (w : World) (token : String) : w.hub.Traces (w.cancel token).hub := by
  unfold cancel
  refine List.foldlRecOn (motive := fun v : World => w.hub.Traces v.hub) _ (cancelIn token)
    (.refl w.hub) fun v before key _ => ?_
  rw [cancelIn_eq]
  split
  · exact before
  · exact List.foldlRecOn (motive := fun u : World => w.hub.Traces u.hub) _ (lapseAt key) before
      fun u before x _ => before.trans (traces_lapseAt key u x)

theorem traces_ring (w : World) (b : Bell) : w.hub.Traces (w.ring b).hub := by
  cases b with
  | writer key =>
    simp only [ring]
    split
    · rename_i l there
      exact traces_update there (.single (.rings l w.now))
    · exact .refl w.hub
  | waiter key caller =>
    simp only [ring]
    split
    · rename_i l there
      exact traces_update there (.single (.meets l (b := .abort caller) id))
    · exact .refl w.hub
  | sweeper name i =>
    simp only [ring]
    split
    · rename_i s _
      exact w.hub.traces_act (a := .sweep s.maxIdle w.now) trivial
    · exact .refl w.hub

theorem traces_make (w : World) (m : Move) : w.hub.Traces (w.make m).hub := by
  cases m with
  | lane key =>
    simp only [make]
    split
    · rename_i moved step
      obtain ⟨l, there, act⟩ := Option.bind_eq_some_iff.mp step
      exact traces_update there (.single (.acts act))
    · exact .refl w.hub
  | visitor v =>
    simp only [make]
    cases did : w.visitorStep? v with
    | none => exact .refl w.hub
    | some w' =>
      obtain ⟨⟨connection, hub⟩, acted, did⟩ := Option.bind_eq_some_iff.mp did
      obtain rfl := Option.some.inj did
      exact Connection.traces_act? acted
  | watch v => exact .refl w.hub
  | orphan key => exact w.hub.traces_session key (b := .orphan) id
  | ring b => exact w.traces_ring b

theorem traces_changeSocketOf (w : World) (c : Connection) (change : Socket → Socket) :
    w.hub.Traces (w.changeSocketOf c change).hub := by
  unfold changeSocketOf
  split
  · exact .refl w.hub
  · exact w.hub.traces_modify _ fun l => .single (.socket l change)

theorem traces_perform (w : World) (s : Step) : w.hub.Traces (w.perform s).1.hub := by
  have done := w.performs s
  generalize (w.perform s).1 = v at done ⊢
  cases done with
  | enters o =>
    rw [hub_enter]
    exact w.hub.traces_act (a := .enter (w.lane o w.hub.config)) trivial
  | spawns o config => exact w.hub.traces_act (a := .add (w.lane o _)) trivial
  | registers => exact w.hub.traces_act (a := .register _) trivial
  | acts instant quiet => exact (w.hub.quietly_act quiet).traces
  | moves instant key sort =>
    rcases sort with rfl | rfl
    · exact w.hub.traces_session key (b := .close) id
    · exact w.hub.traces_session key (b := .touch w.now) id
  | script name change key => exact w.hub.traces_modify key fun l => .single (.script l change)
  | @client name action v there => exact traces_changeSocketOf (w.setVisitor _) v.connection _
  | sends sends =>
    exact sends.foldlRecOn (motive := fun v : World => w.hub.Traces v.hub) begin (.refl w.hub)
      fun v before s _ => before.trans (v.traces_begin s)
  | aborts tag => exact w.traces_abort tag
  | cancels token => exact w.traces_cancel token
  | advances ms =>
    exact advanceTo_keeps (R := fun w w' => w.hub.Traces w'.hub) (fun w => .refl w.hub) .trans
      (fun _ => traces_make _ _) (fun _ => .refl _) _ (Nat.le_add_right ..)
  | jumps ms =>
    exact settleAt_keeps (R := fun w w' => w.hub.Traces w'.hub) (fun w => .refl w.hub) .trans
      (fun _ => traces_make _ _) (fun _ => .refl _) (Nat.le_add_right ..)
  | _ => exact .refl w.hub

theorem traces_visitAll (w : World) : w.hub.Traces w.visitAll.1.hub := by
  rw [visitAll_fst]
  refine w.visitors.foldlRecOn (motive := fun v : World => w.hub.Traces v.hub) _ (.refl w.hub)
    fun u before v _ => before.trans ?_
  have read := u.traces_changeSocketOf v.connection Socket.readAll
  unfold visit collect
  simp only
  split
  · exact read
  · exact .refl u.hub

theorem Becomes.traces {prompt : Prop} (becomes : Becomes prompt w w') : w.hub.Traces w'.hub := by
  induction becomes with
  | refl => exact .refl w.hub
  | step _ s _ ih => exact ih.trans (traces_perform _ s)
  | move _ _ ih => exact ih.trans (traces_make _ _)
  | time _ _ _ ih => exact ih
  | look _ ih => exact ih.trans (traces_visitAll _)
  | clear _ ih => exact ih

end Scenario.World

end Courier
