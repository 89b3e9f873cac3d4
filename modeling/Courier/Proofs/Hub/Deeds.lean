import Courier.Proofs.Connection.Serving
import Courier.Proofs.Hub.Removal
import Courier.Proofs.Lane.Runs

/-!
# What happens in a hub

A lane takes a step, or there is an act on the hub that at most opens fresh lanes and closes others,
or time passes. Whatever happens in a hub is made of these, so that each of its lanes is on a run of
its own.
-/

set_option autoImplicit false

namespace Courier

theorem Session.waiting_run {bs : List Act}
    (stays : ∀ b ∈ bs, ∀ t : Session, (t.act b).1.waiting = t.waiting) (s : Session) :
    (s.run bs).waiting = s.waiting := by
  induction bs generalizing s with
  | nil => rfl
  | cons b bs ih =>
    exact (ih (fun b member => stays b (List.mem_cons_of_mem _ member)) (s.act b).1).trans
      (stays b List.mem_cons_self s)

namespace Hub

/-- A hub at a time when some tokens are cancelled. -/
structure Scene where
  now : Nat
  cancelled : List String
  hub : Hub

def Scene.at (x : Scene) (l : Lane) : Lane.Scene := ⟨x.now, x.cancelled, l⟩

/-- Acts that neither move a session nor touch a stream, and open only fresh lanes. Who enters has the
configuration of the hub. -/
structure Act.Plain (r : Regime) (c : Config) (a : Act) : Prop where
  sessions : ∀ key b, a ≠ .session key b
  streams : ∀ key s, a ≠ .stream key s
  opens : ∀ l, a = .enter l ∨ a = .add l → l.IsFresh
  enters : ∀ l, a = .enter l → l.OpenedBy c
  adds : ∀ l, a = .add l → r.adds

def only {α : Type} (key : Key) (as : List α) (k : Key) : List α := if k = key then as else []

theorem only_nil {α : Type} (key : Key) : only key ([] : List α) = fun _ => [] :=
  funext fun _ => ite_self []

inductive Deed (r : Regime) (x : Scene) :
    (Key → List Notice) → (Key → List Caller) → Scene → Prop
  | lane {key : Key} {l l' : Lane} {told : List Notice} {left : List Caller}
      (there : x.hub.lane? key = some l) (step : Lane.Step r (x.at l) told left (x.at l')) :
      Deed r x (only key told) (only key left) { x with hub := x.hub.setLane key l' }
  | acts {a : Act} (plain : a.Plain r x.hub.config) :
      Deed r x (fun _ => []) (fun _ => []) { x with hub := x.hub.act a }
  | passes {now : Nat} {cancelled : List String} (forward : x.now ≤ now)
      (grown : ∀ token ∈ x.cancelled, token ∈ cancelled)
      (rests : r.prompt → x.now < now → ∀ key l, x.hub.lane? key = some l → l.Rests x.now now) :
      Deed r x (fun _ => []) (fun _ => []) ⟨now, cancelled, x.hub⟩

/-- Any number of deeds, with the notices that come of them and the callers that leave. -/
inductive Deeds (r : Regime) (x : Scene) :
    (Key → List Notice) → (Key → List Caller) → Scene → Prop
  | refl : Deeds r x (fun _ => []) (fun _ => []) x
  | tail {told more : Key → List Notice} {left gone : Key → List Caller} {y z : Scene}
      (deeds : Deeds r x told left y) (deed : Deed r y more gone z) :
      Deeds r x (fun k => told k ++ more k) (fun k => left k ++ gone k) z

abbrev Hush (r : Regime) (x y : Scene) : Prop := Deeds r x (fun _ => []) (fun _ => []) y

variable {r : Regime} {x y z : Scene} {told more : Key → List Notice} {left gone : Key → List Caller}

theorem Deed.deeds (deed : Deed r x told left y) : Deeds r x told left y := .tail .refl deed

theorem Deeds.trans (first : Deeds r x told left y) (second : Deeds r y more gone z) :
    Deeds r x (fun k => told k ++ more k) (fun k => left k ++ gone k) z := by
  induction second with
  | refl => simpa using first
  | tail _ deed ih => simpa only [List.append_assoc] using ih.tail deed

theorem Step.runs {a : Act} {h h' : Hub} (step : Step a h h') {c : Config} (plain : a.Plain r c)
    (now : Nat) (cancelled : List String) {k : Key} {l : Lane} (there : h.lane? k = some l) :
    ∃ l', h'.lane? k = some l' ∧ Lane.Run r ⟨now, cancelled, l⟩ [] [] ⟨now, cancelled, l'⟩ := by
  have closed (h : Hub) (key : Key) (there : h.lane? k = some l) :
      ∃ l', (h.close key).1.lane? k = some l' ∧
        Lane.Run r ⟨now, cancelled, l⟩ [] [] ⟨now, cancelled, l'⟩ := by
    rw [close, updateSession, lane?_modify, there]
    by_cases same : key = k
    · refine ⟨{ l with session := l.session.close }, by simp [same], ?_⟩
      exact (Lane.Step.meets (b := .close) (x := ⟨now, cancelled, l⟩) id trivial
        (by simp [Session.Act.sender?])).run
    · exact ⟨l, by simp [same], .refl⟩
  cases step with
  | adds new part =>
    have old : k < h.lanes.length := (List.getElem?_eq_some_iff.mp there).1
    exact ⟨l, by rw [lane?, addLane, List.getElem?_append_left old]; exact there, .refl⟩
  | closes key => exact closed h key there
  | moves key b part => exact absurd part (plain.sessions key b)
  | streams key s part => exact absurd part (plain.streams key s)
  | enrolls key new lane free => exact ⟨l, there, .refl⟩
  | replaces key new old lane entry dead => exact closed (h.rebind new.id key) old.key there
  | takes e reason entry =>
    exact closed { h with entries := h.entries.filter (·.id != e.id) } e.key there

theorem runs_act {a : Act} {c : Config} (plain : a.Plain r c) (now : Nat) (cancelled : List String)
    (h : Hub) :
    (∀ k l, h.lane? k = some l → ∃ l', (h.act a).lane? k = some l' ∧
      Lane.Run r ⟨now, cancelled, l⟩ [] [] ⟨now, cancelled, l'⟩) ∧
    ∀ k l', (h.act a).lane? k = some l' → (∃ l, h.lane? k = some l) ∨
      ∃ l : Lane, l.IsFresh ∧ (r.adds ∨ l.OpenedBy c) ∧
        Lane.Run r ⟨now, cancelled, l⟩ [] [] ⟨now, cancelled, l'⟩ := by
  have steps := h.act_steps a
  generalize h.act a = h' at steps
  induction steps with
  | refl => exact ⟨fun k l there => ⟨l, there, .refl⟩, fun k l there => .inl ⟨l, there⟩⟩
  | tail _ step ih =>
    refine ⟨fun k l there => ?_, fun k l' there => ?_⟩
    · obtain ⟨m, there, first⟩ := ih.1 k l there
      obtain ⟨l', there, second⟩ := step.runs plain now cancelled there
      exact ⟨l', there, first.trans second⟩
    · rcases step.old there with ⟨m, at_k⟩ | new
      · obtain ⟨same, at_k', second⟩ := step.runs plain now cancelled at_k
        obtain rfl := Option.some.inj (at_k'.symm.trans there)
        exact (ih.2 k m at_k).imp_right fun ⟨l, fresh, own, first⟩ =>
          ⟨l, fresh, own, first.trans second⟩
      · have own : r.adds ∨ l'.OpenedBy c := new.symm.imp (plain.adds l') (plain.enters l')
        exact .inr ⟨l', plain.opens l' new, own, .refl⟩

theorem Deed.run (deed : Deed r x told left y) {k : Key} {l : Lane} (there : x.hub.lane? k = some l) :
    ∃ l', y.hub.lane? k = some l' ∧ Lane.Run r (x.at l) (told k) (left k) (y.at l') := by
  cases deed with
  | @lane key m m' told left at_key step =>
    simp only [lane?_setLane at_key, only]
    by_cases same : k = key
    · subst same
      obtain rfl := Option.some.inj (at_key.symm.trans there)
      simpa [Scene.at] using step.run
    · exact ⟨l, by simp [same, there], by simpa [same] using .refl⟩
  | acts plain => exact (runs_act plain x.now x.cancelled x.hub).1 k l there
  | passes forward grown rests =>
    exact ⟨l, there, (Lane.Step.passes (x := x.at l) forward grown fun prompt later =>
      rests prompt later k l there).run⟩

theorem Deeds.run (deeds : Deeds r x told left y) {k : Key} {l : Lane}
    (there : x.hub.lane? k = some l) :
    ∃ l', y.hub.lane? k = some l' ∧ Lane.Run r (x.at l) (told k) (left k) (y.at l') := by
  induction deeds with
  | refl => exact ⟨l, there, .refl⟩
  | tail _ deed ih =>
    obtain ⟨m, there, first⟩ := ih
    obtain ⟨l', there, second⟩ := deed.run there
    exact ⟨l', there, first.trans second⟩

theorem Deed.opened (deed : Deed r x told left y) {k : Key} {l' : Lane}
    (there : y.hub.lane? k = some l') : (∃ l, x.hub.lane? k = some l) ∨
      ∃ s : Lane.Scene, s.lane.IsFresh ∧ (r.adds ∨ s.lane.OpenedBy x.hub.config) ∧
        Lane.Run r s [] [] (y.at l') := by
  cases deed with
  | lane at_key step =>
    refine .inl ?_
    simp only [lane?_setLane at_key] at there
    split at there
    · rename_i same
      exact ⟨_, same ▸ at_key⟩
    · exact ⟨l', there⟩
  | acts plain =>
    exact ((runs_act plain x.now x.cancelled x.hub).2 k l' there).imp_right
      fun ⟨l, fresh, own, run⟩ => ⟨⟨x.now, x.cancelled, l⟩, fresh, own, run⟩
  | passes => exact .inl ⟨l', there⟩

theorem Deed.config (deed : Deed r x told left y) : y.hub.config = x.hub.config := by
  cases deed with
  | lane => rfl
  | acts => exact x.hub.config_act _
  | passes => rfl

theorem Deeds.config (deeds : Deeds r x told left y) : y.hub.config = x.hub.config := by
  induction deeds with
  | refl => rfl
  | tail _ deed ih => exact deed.config.trans ih

/-- What holds of fresh lanes and is kept by their runs is kept by whatever happens in a hub. -/
theorem Deeds.keep {P : Key → Lane.Scene → Prop}
    (fresh : ∀ k (s : Lane.Scene), s.lane.IsFresh → r.adds ∨ s.lane.OpenedBy x.hub.config → P k s)
    (run : ∀ k s told left t, Lane.Run r s told left t → P k s → P k t)
    (deeds : Deeds r x told left y) (before : ∀ k l, x.hub.lane? k = some l → P k (x.at l)) :
    ∀ k l, y.hub.lane? k = some l → P k (y.at l) := by
  induction deeds with
  | refl => exact before
  | tail before deed ih =>
    intro k l' there
    rcases deed.opened there with ⟨l, at_k⟩ | ⟨s, new, own, opened⟩
    · obtain ⟨m, at_k', goes⟩ := deed.run at_k
      obtain rfl := Option.some.inj (at_k'.symm.trans there)
      exact run k _ _ _ _ goes (ih k l at_k)
    · exact run k _ _ _ _ opened (fresh k s new (before.config ▸ own))

theorem modify_lane {h : Hub} {key : Key} {l : Lane} (there : h.lane? key = some l)
    (f : Lane → Lane) : ({ h with lanes := h.lanes.modify key f } : Hub) = h.setLane key (f l) := by
  simp [setLane, List.modify_eq_set_getElem?, show h.lanes[key]? = some l from there]

theorem setLane_acts {h : Hub} {key : Key} {l l' : Lane} (there : h.lane? key = some l)
    (id : l'.id = l.id) (client : l'.client = l.client)
    (session : l'.session = l.session ∨ ∃ a, l'.session = (l.session.act a).1) :
    ∃ acts, h.setLane key l' = h.run acts := by
  obtain ⟨_, _, s, stream⟩ := l'
  obtain rfl : _ = l.id := id
  obtain rfl : _ = l.client := client
  rcases session with rfl | ⟨a, rfl⟩
  · exact ⟨[.stream key stream], (modify_lane there ({ · with stream })).symm⟩
  · refine ⟨[.session key a, .stream key stream], ?_⟩
    have moved : h.act (.session key a) =
        h.setLane key { l with session := (l.session.act a).1 } := modify_lane there _
    have at_key := lane?_setLane_self there { l with session := (l.session.act a).1 }
    change _ = (h.act (.session key a)).act (.stream key stream)
    rw [moved]
    refine Eq.trans ?_ (modify_lane at_key _).symm
    simp [setLane]

theorem Deed.made (deed : Deed r x told left y) : ∃ acts, y.hub = x.hub.run acts := by
  cases deed with
  | lane there step =>
    obtain ⟨id, client⟩ := step.frame
    refine setLane_acts there id client ?_
    exact step.session.imp And.left fun ⟨a, acted, _⟩ => ⟨a, (congrArg Prod.fst acted).symm⟩
  | @acts a plain => exact ⟨[a], rfl⟩
  | passes => exact ⟨[], rfl⟩

theorem Deeds.made (deeds : Deeds r x told left y) : ∃ acts, y.hub = x.hub.run acts := by
  induction deeds with
  | refl => exact ⟨[], rfl⟩
  | tail _ deed ih =>
    obtain ⟨acts, first⟩ := ih
    obtain ⟨more, second⟩ := deed.made
    exact ⟨acts ++ more, by rw [second, first, run_append]⟩

theorem Act.Quiet.plain {a : Act} (quiet : a.Quiet) (r : Regime) (c : Config) : a.Plain r c where
  sessions := quiet.sessions
  streams := quiet.streams
  opens l opens := absurd opens (quiet.opens l)
  enters l enters := absurd (.inl enters) (quiet.opens l)
  adds l adds := absurd (.inr adds) (quiet.opens l)

def Quietly (h h' : Hub) : Prop := ∃ acts, h' = h.run acts ∧ ∀ a ∈ acts, a.Quiet

theorem Quietly.refl (h : Hub) : h.Quietly h := ⟨[], rfl, by simp⟩

theorem Quietly.trans {a b c : Hub} (first : a.Quietly b) (second : b.Quietly c) : a.Quietly c := by
  obtain ⟨acts, run, all⟩ := first
  obtain ⟨acts', run', all'⟩ := second
  refine ⟨acts ++ acts', by rw [run', run, run_append], fun a member => ?_⟩
  exact (List.mem_append.mp member).elim (all a) (all' a)

theorem quietly_act (h : Hub) {a : Act} (quiet : a.Quiet) : h.Quietly (h.act a) :=
  ⟨[a], rfl, by simpa using quiet⟩

theorem quietly_remove (h : Hub) (id : SessionId) (reason : Reason) :
    h.Quietly (h.remove id reason).1 :=
  h.quietly_act (a := .remove id reason) ⟨by simp, by simp, by simp⟩

theorem quietly_conclude (h : Hub) (id : SessionId) (key : Key) (outcome : Outcome) :
    h.Quietly (h.conclude id key outcome).1 :=
  h.quietly_act (a := .conclude id key outcome) ⟨by simp, by simp, by simp⟩

/-- What a hub does to its sessions by itself is to close them, which moves nobody from the place
where it waits. -/
theorem Quietly.lane {h h' : Hub} (quietly : h.Quietly h') {key : Key} {l : Lane}
    (there : h.lane? key = some l) :
    ∃ l', h'.lane? key = some l' ∧ l'.session.waiting = l.session.waiting := by
  obtain ⟨acts, rfl, all⟩ := quietly
  obtain ⟨l', there', _, bs, session, kinds⟩ := h.run_lane acts there
  refine ⟨l', there', ?_⟩
  rw [session]
  refine Session.waiting_run (fun b member t => ?_) l.session
  obtain rfl := (kinds b member).resolve_right fun moved => (all _ moved).sessions key b rfl
  rfl

theorem Quietly.hush {h h' : Hub} (quietly : h.Quietly h') (r : Regime) (now : Nat)
    (cancelled : List String) : Hush r ⟨now, cancelled, h⟩ ⟨now, cancelled, h'⟩ := by
  obtain ⟨acts, rfl, all⟩ := quietly
  induction acts using List.reverseRecOn with
  | nil => exact .refl
  | append_singleton acts a ih =>
    rw [run_concat]
    exact (ih fun a member => all a (List.mem_append_left _ member)).tail
      (.acts ((all a (by simp)).plain r _))

theorem hush_lane {h : Hub} {now : Nat} {cancelled : List String} {key : Key} {l l' : Lane}
    (there : h.lane? key = some l)
    (step : Lane.Step r ⟨now, cancelled, l⟩ [] [] ⟨now, cancelled, l'⟩) :
    Hush r ⟨now, cancelled, h⟩ ⟨now, cancelled, h.setLane key l'⟩ := by
  have deed : Deed r ⟨now, cancelled, h⟩ (only key []) (only key []) _ := .lane there step
  simpa only [only_nil] using deed.deeds

theorem hush_session (h : Hub) (key : Key) {now : Nat} {cancelled : List String} {b : Session.Act}
    (outer : ¬b.IsWriters) (timely : ∀ s, b.Timely s now cancelled) (silent : b.sender? = none)
    (unheard : ∀ s : Session, (s.act b).2 = [] ∧ b.leavers s = []) :
    Hush r ⟨now, cancelled, h⟩ ⟨now, cancelled, h.act (.session key b)⟩ := by
  cases there : h.lane? key with
  | none =>
    have same : h.act (.session key b) = h := by
      simp [act, updateSession, List.modify_eq_set_getElem?, show h.lanes[key]? = none from there]
    rw [same]
    exact .refl
  | some l =>
    have moved : h.act (.session key b) =
        h.setLane key { l with session := (l.session.act b).1 } := modify_lane there _
    have step := Lane.Step.meets (r := r) (x := ⟨now, cancelled, l⟩) outer (timely l.session)
      (by simp [silent])
    rw [(unheard l.session).1, (unheard l.session).2] at step
    rw [moved]
    exact hush_lane there step

theorem offer_cases (h : Hub) (key : Key) (p : Parcel) (patience : Patience) (spent : Bool)
    (now : Nat) :
    (∃ why, h.offer key p patience spent now = (h, some why)) ∨
    ∃ l, h.lane? key = some l ∧ (l.session.act (.offer p patience spent now)).2 = [] ∧
      h.offer key p patience spent now =
        (h.setLane key { l with session := (l.session.act (.offer p patience spent now)).1 }, none) := by
  unfold offer
  cases there : h.lane? key with
  | none => exact .inl ⟨_, rfl⟩
  | some l =>
    rcases l.session.offer_cases p patience spent now with ⟨why, e⟩ | ⟨_, _, _, e⟩ | ⟨_, _, _, e⟩
    · exact .inl ⟨why, by simp [e, setLane_self there]⟩
    · exact .inr ⟨l, rfl, by simp [Session.act, e], by simp [Session.act, e]⟩
    · exact .inr ⟨l, rfl, by simp [Session.act, e], by simp [Session.act, e]⟩

theorem hush_offer {h h' : Hub} {key : Key} {p : Parcel} {patience : Patience} {now t : Nat}
    {cancelled : List String} (allowed : r.permits p.caller)
    (accepted : h.offer key p patience (patience.isOver now cancelled) t = (h', none)) :
    Hush r ⟨now, cancelled, h⟩ ⟨now, cancelled, h'⟩ := by
  rcases h.offer_cases key p patience (patience.isOver now cancelled) t with ⟨why, refused⟩ |
    ⟨l, there, unheard, taken⟩
  · simp [refused] at accepted
  · obtain rfl := (Prod.mk.inj (taken.symm.trans accepted)).1
    have step := Lane.Step.meets (r := r) (x := ⟨now, cancelled, l⟩)
      (b := .offer p patience (patience.isOver now cancelled) t) id rfl
      fun c own => Option.some.inj own ▸ allowed
    rw [unheard] at step
    exact hush_lane there step

theorem hush_enter (h : Hub) {l : Lane} (fresh : l.IsFresh) (own : l.OpenedBy h.config) (now : Nat)
    (cancelled : List String) :
    Hush r ⟨now, cancelled, h⟩ ⟨now, cancelled, (h.enter l).1⟩ :=
  (Deed.acts (x := ⟨now, cancelled, h⟩) (a := .enter l)
    ⟨by simp, by simp, by simpa using fresh, by simpa using own, by simp⟩).deeds

theorem hush_modify (h : Hub) (key : Key) {f : Lane → Lane}
    (shifts : ∀ l, ∃ s : Stream, f l = { l with stream := s } ∧ s.closes = l.stream.closes)
    (now : Nat) (cancelled : List String) :
    Hush r ⟨now, cancelled, h⟩ ⟨now, cancelled, { h with lanes := h.lanes.modify key f }⟩ := by
  cases there : h.lane? key with
  | none =>
    have same : ({ h with lanes := h.lanes.modify key f } : Hub) = h := by
      simp [List.modify_eq_set_getElem?, show h.lanes[key]? = none from there]
    rw [same]
    exact .refl
  | some l =>
    obtain ⟨s, changed, same⟩ := shifts l
    rw [modify_lane there, changed]
    exact hush_lane there (.shifts (x := ⟨now, cancelled, l⟩) same)

end Hub

namespace Connection

open Hub (Hush)

variable {r : Regime} {h : Hub} {now : Nat} {cancelled : List String}

theorem quietly_finish (c : Connection) (h : Hub) (error : Option ConnectionError) :
    h.Quietly (c.finish h error).2 := by
  unfold finish
  cases c.phase.seat? with
  | none => exact .refl h
  | some seat => exact h.quietly_remove seat.id .disconnected

theorem quietly_acknowledged (c : Connection) (h : Hub) (seat : Seat) (result : Except SendError Nat) :
    h.Quietly (c.acknowledged h seat result).2 := by
  cases result with
  | ok n => exact .refl h
  | error e => exact c.quietly_finish h _

theorem quietly_answered (c : Connection) (h : Hub) (seat : Seat) (n : Nat)
    (result : Except SendError Nat) : h.Quietly (c.answered h seat n result).2 := by
  unfold answered
  split
  · exact .refl h
  · exact c.quietly_finish h none
  · split
    · exact c.quietly_finish h _
    · exact .refl h

theorem quietly_notified (c : Connection) (h : Hub) (outcome : Outcome) :
    h.Quietly (c.notified h outcome).2 := by
  unfold notified
  split
  · exact (h.quietly_conclude _ _ _).trans (c.quietly_acknowledged _ _ _)
  · exact (h.quietly_conclude _ _ _).trans (c.quietly_answered _ _ _ _)
  · exact .refl h

theorem hush_send (c : Connection) (h : Hub) (seat : Seat) (m : Message) (t : Nat) :
    Hush r ⟨now, cancelled, h⟩ ⟨now, cancelled, (c.send h seat m t).2⟩ := by
  unfold send
  cases h.route seat.id with
  | error e =>
    simp only
    split
    · exact (c.quietly_acknowledged h _ _).hush r now cancelled
    · exact (c.quietly_answered h _ _ _).hush r now cancelled
    · exact .refl
  | ok key =>
    simp only
    cases done : h.offer key ⟨c.caller, m.encode⟩ .endless false t with
    | mk h' refusal =>
    cases refusal with
    | none =>
      exact Hub.hush_offer (p := ⟨c.caller, m.encode⟩) (r.connections c.name)
        (show h.offer key _ .endless (Patience.endless.isOver now cancelled) t = _ from done)
    | some why =>
      rcases h.offer_cases key ⟨c.caller, m.encode⟩ .endless false t with ⟨_, refused⟩ | ⟨_, _, _, taken⟩
      · obtain rfl := (Prod.mk.inj (refused.symm.trans done)).1
        exact (c.quietly_notified h _).hush r now cancelled
      · simp [taken] at done

theorem hush_welcome (c : Connection) (h : Hub) (id : SessionId) (client : Client) {socket : Socket}
    (open_ : socket.shut = false) (t : Nat) :
    Hush r ⟨now, cancelled, h⟩ ⟨now, cancelled, (c.welcome h id client socket t).2⟩ := by
  have fresh : Lane.IsFresh ⟨id, client, .start h.config t, .socket socket⟩ :=
    ⟨⟨h.config, t, .inl rfl⟩, by simp [open_]⟩
  have entered : Hush r ⟨now, cancelled, h⟩ _ := h.hush_enter fresh ⟨t, .inl rfl⟩ now cancelled
  unfold welcome
  generalize h.enter ⟨id, client, .start h.config t, .socket socket⟩ = done at entered
  obtain ⟨h', result⟩ := done
  cases result with
  | error e => exact entered.trans ((c.quietly_finish h' _).hush r now cancelled)
  | ok key => exact entered.trans (hush_send _ h' _ _ t)

theorem hush_request (c : Connection) (h : Hub) (seat : Seat) (n : Nat) (text : String) (t : Nat) :
    Hush r ⟨now, cancelled, h⟩ ⟨now, cancelled, (c.request h seat n text t).2⟩ := by
  unfold request
  simp only
  split
  · cases entry : h.entry? seat.id with
    | none =>
      simp only [Hub.touch, entry]
      exact (quietly_finish _ h none).hush r now cancelled
    | some e =>
      simp only [Hub.touch, entry]
      have touched : Hush r ⟨now, cancelled, h⟩ ⟨now, cancelled, h.act (.session e.key (.touch t))⟩ :=
        h.hush_session e.key id (fun _ => trivial) rfl fun _ => ⟨rfl, rfl⟩
      exact touched.trans (hush_send _ _ seat _ t)
  · exact hush_send _ h seat _ t

theorem hush_act? {c : Connection} {id : SessionId} {socket : Socket} (open_ : socket.shut = false)
    {t : Nat} {done : Connection × Hub} (did : c.act? h id socket t = some done) :
    Hush r ⟨now, cancelled, h⟩ ⟨now, cancelled, done.2⟩ := by
  have finished (c : Connection) (error : Option ConnectionError) :
      Hush r ⟨now, cancelled, h⟩ ⟨now, cancelled, (c.finish h error).2⟩ :=
    (c.quietly_finish h error).hush r now cancelled
  cases serves_act? did with
  | greets phase did =>
    unfold readHandshake? at did
    split at did
    · simp at did
    · exact Option.some.inj did ▸ finished c _
    · exact Option.some.inj did ▸ finished c _
    · simp only at did
      split at did
      · exact Option.some.inj did ▸ finished _ _
      · exact Option.some.inj did ▸ hush_welcome _ h id _ open_ t
  | sees seat n phase did =>
    unfold seeClosing? at did
    split at did
    · exact Option.some.inj did ▸ finished c none
    · simp at did
  | reads seat n phase did =>
    unfold readRequest? at did
    split at did
    · simp at did
    · exact Option.some.inj did ▸ finished c none
    · exact Option.some.inj did ▸ finished c _
    · simp only at did
      split at did
      · exact Option.some.inj did ▸ .refl
      · exact Option.some.inj did ▸ hush_request _ h seat (n + 1) _ t

end Connection

end Courier
