import Courier.Proofs.Scenario.Labels
import Courier.Proofs.Session.Absence

set_option autoImplicit false

namespace Courier

def Session.Rule.waiters (p : Waiter → Prop)
    (connections : ∀ v : Waiter, ∀ name, v.parcel.caller = .connection name → p v) : Session.Rule where
  holds _ _ _ s := ∀ v ∈ s.waiting, p v
  permits c := ∀ v : Waiter, v.parcel.caller = c → p v
  connections name v same := connections v name same
  new := by
    rintro _ _ _ _ ⟨c, since, rfl | rfl⟩ <;> simp [Session.crashed]
  act _ _ _ s a all _ permitted v waits :=
    (Session.waiter_of_act waits).elim (all v) fun own => permitted _ own v rfl
  later _ _ _ _ _ _ all _ _ := all

theorem Session.count_callers_act {s : Session} {a : Act} {n most : Nat}
    (few : s.callers.count (.sender n) ≤ most)
    (permitted : ∀ c, a.sender? = some c → c ≠ .sender n) :
    (s.act a).1.callers.count (.sender n) ≤ most := by
  have counted := (s.act_turnover a).count_le (.sender n)
  have none : a.sender?.toList.count (.sender n) = 0 := by
    rw [List.count_eq_zero]
    exact fun own => permitted _ (by simpa using own) rfl
  omega

def Session.Rule.places (n : Nat) (most : Key → Nat) : Session.Rule where
  holds key _ _ s := s.callers.count (.sender n) ≤ most key
  permits c := c ≠ .sender n
  connections := by simp
  new := by
    rintro _ _ _ _ ⟨c, since, rfl | rfl⟩ <;>
      simp [Session.crashed, Session.callers, Session.line,
        Session.inFlight, Session.waitingCallers]
  act _ _ _ _ _ few _ permitted := Session.count_callers_act few permitted
  later _ _ _ _ _ _ few _ _ := few

namespace Scenario.World

def Awaits (key : Key) (x : Waiter) (w : World) : Prop :=
  ∃ l, w.hub.lane? key = some l ∧ x ∈ l.session.waiting

variable {key : Key} {x : Waiter} {w w' : World}

theorem Awaits.idles (awaits : w.Awaits key x) (idles : Idles w w') : w'.Awaits key x := by
  obtain ⟨l, there, waits⟩ := awaits
  obtain ⟨l', there', same⟩ := idles.lanes key l there
  exact ⟨l', there', same ▸ waits⟩

theorem Awaits.tells (awaits : w.Awaits key x) (tells : w.Tells w') : w'.Awaits key x := by
  obtain ⟨l, there, waits⟩ := awaits
  obtain ⟨l', there', same⟩ := tells.quietly.lane there
  exact ⟨l', there', same ▸ waits⟩

theorem Awaits.setLane (awaits : w.Awaits key x) {k : Key} {l : Lane}
    (stays : k = key → x ∈ l.session.waiting) : Awaits key x { w with hub := w.hub.setLane k l } := by
  obtain ⟨m, there, waits⟩ := awaits
  have inside := (List.getElem?_eq_some_iff.mp there).1
  by_cases same : k = key
  · subst same
    exact ⟨l, by simp [Hub.lane?, inside], stays rfl⟩
  · exact ⟨m, by rw [Hub.lane?, Hub.setLane, List.getElem?_set_ne same]; exact there, waits⟩

theorem Awaits.update (awaits : w.Awaits key x) {k : Key} {moved : Lane × List Notice}
    (stays : k = key → x ∈ moved.1.session.waiting) : (w.update k moved).Awaits key x :=
  (awaits.setLane stays).tells (tells_deliverAll _ k moved.2)

theorem Awaits.session (awaits : w.Awaits key x) {k : Key} {b : Session.Act}
    (stays : ∀ s : Session, x ∈ s.waiting → x ∈ (s.act b).1.waiting) :
    Awaits key x { w with hub := w.hub.act (.session k b) } := by
  obtain ⟨l, there, waits⟩ := awaits
  refine ⟨_, (Hub.lane?_modify w.hub k _ key).trans (by rw [there]; rfl), ?_⟩
  split
  · exact stays _ waits
  · exact waits

theorem Awaits.offer (awaits : w.Awaits key x) (c : Call) (payload : String) (patience : Patience) :
    (w.offer c payload patience).Awaits key x := by
  have offered (spent : Bool) : Awaits key x { w with
      hub := (w.hub.offer c.key ⟨.sender c.sender, payload⟩ patience spent w.now).1 } := by
    rw [Hub.offer_eq]
    refine awaits.session fun s waits => ?_
    have next := s.act_next (.offer ⟨.sender c.sender, payload⟩ patience spent w.now)
    generalize (s.act (.offer ⟨.sender c.sender, payload⟩ patience spent w.now)).1 = t,
      (s.act (.offer ⟨.sender c.sender, payload⟩ patience spent w.now)).2 = told at next
    cases next with
    | waits => exact List.mem_append_left _ waits
    | _ => exact waits
  unfold World.offer
  simp only
  generalize (patience.deadline.any (· ≤ w.now) || patience.token.any w.cancelled.contains) = spent
  have offered := offered spent
  generalize w.hub.offer c.key ⟨.sender c.sender, payload⟩ patience spent w.now = done at offered
  obtain ⟨hub, refusal⟩ := done
  cases refusal with
  | none => exact offered
  | some why => exact offered.tells (tells_conclude _ c _)

theorem Awaits.begin (awaits : w.Awaits key x) (s : Send) : (w.begin s).Awaits key x :=
  w.begin_induct s (P := fun v => v.Awaits key x) (fun _ _ => awaits) (fun _ before => before)
    (fun _ _ _ before => before) (fun _ c payload patience _ _ _ before => before.offer c payload patience)
    (fun _ _ _ before => before) fun _ before => before.tells (tells_gather _ _)

/-- A call stays until its own sender is told what became of it. -/
theorem calls_deliver {w : World} (alone : w.visitors = []) (key : Key) {m : Notice} {c : Call}
    (there : c ∈ w.calls) (other : m.caller ≠ .sender c.sender) : c ∈ (w.deliver key m).calls := by
  unfold deliver
  cases caller : m.caller with
  | connection name =>
    simp only [visitor?, alone]
    exact there
  | sender sender =>
    have apart : c.sender ≠ sender := fun own => other (by rw [caller, own])
    simp only
    split
    · rw [calls_gather, calls_conclude]
      exact List.mem_filter.mpr ⟨there, by simp [apart]⟩
    · exact there

theorem calls_update {w : World} (alone : w.visitors = []) (key : Key) {moved : Lane × List Notice}
    {c : Call} (there : c ∈ w.calls) (others : Caller.sender c.sender ∉ moved.2.map (·.caller)) :
    c ∈ (w.update key moved).calls := by
  unfold update deliverAll
  have each (notices : List Notice) (others : Caller.sender c.sender ∉ notices.map (·.caller)) :
      ∀ v : World, v.visitors = [] → c ∈ v.calls →
        c ∈ (notices.foldl (fun v m => v.deliver key m) v).calls := by
    induction notices with
    | nil => exact fun _ _ there => there
    | cons m notices ih =>
      intro v alone there
      simp only [List.map_cons, List.mem_cons, not_or] at others
      exact ih others.2 _ ((narrows_deliver alone key m).visitors.trans alone)
        (calls_deliver alone key there (Ne.symm others.1))
  exact each moved.2 others _ alone there

theorem calls_offer (w : World) {c : Call} (there : c ∈ w.calls) (d : Call) (payload : String)
    (patience : Patience) : c ∈ (w.offer d payload patience).calls := by
  unfold offer
  simp only
  split
  · exact List.mem_append_left _ there
  · rwa [calls_conclude]

theorem calls_begin (w : World) {c : Call} (there : c ∈ w.calls) (s : Send) :
    c ∈ (w.begin s).calls :=
  w.begin_induct s (P := fun v => c ∈ v.calls) (fun _ _ => there) (fun _ before => before)
    (fun _ _ _ before => before)
    (fun v d payload patience _ _ _ before => v.calls_offer before d payload patience)
    (fun _ _ _ before => before) fun v before => calls_gather v _ ▸ before

def Waiters (p : Waiter → Prop) (w : World) : Prop :=
  ∀ key l, w.hub.lane? key = some l → ∀ u ∈ l.session.waiting, p u

/-- What survives every lapse of a caller that waited with the token survives its cancellation. -/
theorem cancel_induct {P : World → Prop} {q : Waiter → Prop} {token : String} {w : World}
    (noted : P { w with cancelled := token :: w.cancelled })
    (waiters : ∀ v : World, P v → v.Waiters fun u => u.patience.token = some token → q u)
    (lapse : ∀ (v : World) key l u, P v → v.hub.lane? key = some l → q u →
      P (v.update key (l.lapse u.parcel.caller))) : P (w.cancel token) := by
  refine List.foldlRecOn (motive := P) (List.range w.hub.lanes.length) (cancelIn token) noted
    fun v before key _ => ?_
  rw [cancelIn_eq]
  split
  · exact before
  · rename_i l there
    refine List.foldlRecOn (motive := P) (l.session.waiting.filter _) _ before
      fun v' before' u member => ?_
    obtain ⟨waits, own⟩ := List.mem_filter.mp member
    unfold lapseAt
    split
    · rename_i l' there'
      exact lapse v' key l' u before' there' (waiters v before key l there u waits (by simpa using own))
    · exact before'

theorem Waiters.lapse {p : Waiter → Prop} (all : w.Waiters p) (alone : w.visitors = []) {key : Key}
    {l : Lane} (there : w.hub.lane? key = some l) (c : Caller) :
    (w.update key (l.lapse c)).Waiters p := by
  intro k l' there' u waits
  have lengths := (narrows_deliverAll (w := { w with hub := w.hub.setLane key (l.lapse c).1 }) alone
    key (l.lapse c).2).lanes
  have inside : k < (w.hub.setLane key (l.lapse c).1).lanes.length :=
    lengths ▸ (List.getElem?_eq_some_iff.mp there').1
  have told := tells_deliverAll { w with hub := w.hub.setLane key (l.lapse c).1 } key (l.lapse c).2
  obtain ⟨m, at_k, same⟩ := told.quietly.lane (List.getElem?_eq_getElem inside)
  obtain rfl : m = l' := Option.some.inj (at_k.symm.trans there')
  rw [same] at waits
  simp only [Hub.setLane, List.getElem_set] at waits
  split at waits
  · exact all key l there u (List.mem_of_mem_filter waits)
  · rw [Hub.setLane, List.length_set] at inside
    exact all k _ (List.getElem?_eq_getElem inside) u waits

theorem cancel_others {n : Nat} {tag token : String} (sane : w.Sane) (spared : w.Spared tag)
    (bears : w.Bears (.owned n tag))
    (others : w.Waiters fun u => u.patience.token = some token → u.parcel.caller ≠ .sender n) :
    (w.cancel token).Spared tag ∧
      (∀ key x, x.parcel.caller = .sender n → w.Awaits key x → (w.cancel token).Awaits key x) ∧
      ∀ c ∈ w.calls, c.sender = n → c ∈ (w.cancel token).calls := by
  have done := cancel_induct (w := w) (q := fun u => u.parcel.caller ≠ .sender n)
    (P := fun v => v.visitors = [] ∧ v.Bears (.owned n tag) ∧
      v.Waiters (fun u => u.patience.token = some token → u.parcel.caller ≠ .sender n) ∧
      v.Spared tag ∧
      (∀ key x, x.parcel.caller = .sender n → w.Awaits key x → v.Awaits key x) ∧
      ∀ c ∈ w.calls, c.sender = n → c ∈ v.calls)
    ⟨sane.alone, { bears with }, others, spared, fun _ _ _ awaits => awaits, fun _ there _ => there⟩
    (fun v before => before.2.2.1) ?_
  · exact done.2.2.2
  · rintro v k l u ⟨alone, bears, others, spared, awaits, calls⟩ there other
    refine ⟨(narrows_update alone k _).visitors.trans alone, bears.narrows (narrows_update alone k _),
      others.lapse alone there _, spared.update alone bears k ?_, fun key x own waits => ?_,
      fun c member own => ?_⟩
    · intro m member own
      obtain rfl := List.mem_singleton.mp member
      exact absurd own other
    · have waits := awaits key x own waits
      refine waits.update fun same => ?_
      obtain ⟨m, at_key, waits⟩ := waits
      subst same
      obtain rfl : l = m := Option.some.inj (there.symm.trans at_key)
      exact List.mem_filter.mpr ⟨waits, by simpa [own] using Ne.symm other⟩
    · refine calls_update alone k (calls c member own) ?_
      simpa [Lane.lapse, own] using Ne.symm other

/-- The sender has no parcel anywhere, and no call. -/
structure Departed (n : Nat) (w : World) : Prop where
  nowhere : w.Obeys (.places n fun _ => 0)
  silent : ∀ c ∈ w.calls, c.sender ≠ n

/-- The sender waits with `x` at one session. -/
structure Stands (n : Nat) (home : Key) (x : Waiter) (w : World) : Prop where
  caller : x.parcel.caller = .sender n
  awaits : w.Awaits home x
  once : w.Obeys (.places n fun key => if key = home then 1 else 0)
  keyed : ∀ c ∈ w.calls, c.sender = n → c.key = home

variable {n : Nat} {home : Key} {most : Key → Nat}

theorem places_lapse (few : w.Obeys (.places n most)) {l : Lane} (there : w.hub.lane? key = some l)
    (c : Caller) : (w.update key (l.lapse c)).Obeys (.places n most) := by
  refine Obeys.update few key (Nat.le_trans ?_ (few key l there))
  simp only [Session.callers, List.count_append]
  exact Nat.add_le_add_left ((List.filter_sublist.map _).count_le _) _

theorem Departed.lapse (departed : w.Departed n) (alone : w.visitors = []) {l : Lane}
    (there : w.hub.lane? key = some l) (c : Caller) : (w.update key (l.lapse c)).Departed n :=
  ⟨places_lapse departed.nowhere there c, fun d member =>
    departed.silent d ((narrows_update alone key _).calls d member)⟩

theorem Stands.line (stands : w.Stands n home x) {l : Lane} (there : w.hub.lane? home = some l) :
    Caller.sender n ∉ l.session.line.map (·.caller) := by
  intro queued
  obtain ⟨m, there', waits⟩ := stands.awaits
  obtain rfl : l = m := Option.some.inj (there.symm.trans there')
  have once : l.session.callers.count (.sender n) ≤ 1 := by
    simpa [Session.Rule.places] using stands.once home l there
  have first := List.count_pos_iff.mpr queued
  have second : 0 < l.session.waitingCallers.count (.sender n) :=
    List.count_pos_iff.mpr (List.mem_map.mpr ⟨x, waits, stands.caller⟩)
  rw [Session.callers, List.count_append] at once
  omega

theorem Stands.forget (stands : w.Stands n home x) {k : Key} {l : Lane}
    (there : w.hub.lane? k = some l) :
    (if home = k then l.session.forget (.sender n) else l.session).callers.count (.sender n) = 0 := by
  by_cases here : home = k
  · subst here
    rw [if_pos rfl, List.count_eq_zero]
    intro member
    rcases List.mem_append.mp member with queued | waits
    · exact stands.line there queued
    · obtain ⟨v, there, own⟩ := List.mem_map.mp waits
      simpa [own] using (List.mem_filter.mp there).2
  · rw [if_neg here]
    have none : l.session.callers.count (.sender n) ≤ if k = home then 1 else 0 :=
      stands.once k l there
    rw [if_neg (Ne.symm here)] at none
    exact Nat.le_zero.mp none

theorem Stands.lapse_own (stands : w.Stands n home x) (alone : w.visitors = []) {l : Lane}
    (there : w.hub.lane? home = some l) : (w.update home (l.lapse (.sender n))).Departed n := by
  refine ⟨(tells_deliverAll _ home _).does.obeys fun k m at_k => ?_, fun c member own => ?_⟩
  · rw [Hub.lane?, Hub.setLane, List.getElem?_set] at at_k
    refine Nat.le_of_eq ?_
    split at at_k
    · rename_i same
      subst same
      split at at_k
      · obtain rfl := Option.some.inj at_k
        simpa [Lane.lapse] using stands.forget there
      · simp at at_k
    · rename_i apart
      simpa [apart] using stands.forget at_k
  · have old := (narrows_update alone home _).calls c member
    have keyed := stands.keyed c old own
    simp only [update, deliverAll, Lane.lapse, List.foldl_cons, List.foldl_nil, deliver] at member
    split at member
    · rw [calls_gather, calls_conclude] at member
      simpa [own, keyed] using (List.mem_filter.mp member).2
    · rename_i none
      rw [List.find?_eq_none] at none
      exact none c old (by simp [own, keyed])

theorem Stands.lapse_other (stands : w.Stands n home x) (alone : w.visitors = []) {l : Lane}
    (there : w.hub.lane? key = some l) {c : Caller} (other : c = .sender n → key ≠ home) :
    (w.update key (l.lapse c)).Stands n home x where
  caller := stands.caller
  awaits := by
    obtain ⟨m, at_home, waits⟩ := stands.awaits
    refine stands.awaits.update fun same => ?_
    subst same
    obtain rfl : l = m := Option.some.inj (there.symm.trans at_home)
    refine List.mem_filter.mpr ⟨waits, ?_⟩
    simpa [stands.caller] using fun own : Caller.sender n = c => other own.symm rfl
  once := places_lapse stands.once there c
  keyed d member := stands.keyed d ((narrows_update alone key _).calls d member)

/-- A fold reaches what the turn of one of its items leads to. -/
theorem foldl_turn {σ α : Type} {f : σ → α → σ} {p q : σ → Prop}
    (on : ∀ s a, p s → p (f s a)) (out : ∀ s a, q s → q (f s a)) {x : α}
    (turn : ∀ s, p s → q (f s x)) {as : List α} (member : x ∈ as) {s : σ} (before : p s) :
    q (as.foldl f s) := by
  obtain ⟨first, last, rfl⟩ := List.append_of_mem member
  rw [List.foldl_append, List.foldl_cons]
  refine List.foldlRecOn (motive := q) last f (turn _ ?_) fun s before a _ => out s a before
  exact List.foldlRecOn (motive := p) first f before fun s before a _ => on s a before

theorem Stands.cancel_own (stands : w.Stands n home x) (alone : w.visitors = []) {token : String}
    (own : x.patience.token = some token) : (w.cancel token).Departed n := by
  -- Until its turn comes the sender stands.
  let On (v : World) : Prop := v.visitors = [] ∧ (v.Stands n home x ∨ v.Departed n)
  let Out (v : World) : Prop := v.visitors = [] ∧ v.Departed n
  have out (key : Key) (v : World) (u : Waiter) (before : Out v) : Out (lapseAt key v u) := by
    unfold lapseAt
    split
    · rename_i l there
      exact ⟨(narrows_update before.1 key _).visitors.trans before.1, before.2.lapse before.1 there _⟩
    · exact before
  have on (key : Key) (v : World) (u : Waiter) (before : On v) : On (lapseAt key v u) := by
    unfold lapseAt
    split
    · rename_i l there
      refine ⟨(narrows_update before.1 key _).visitors.trans before.1, ?_⟩
      rcases before.2 with stands | departed
      · by_cases mine : u.parcel.caller = .sender n ∧ key = home
        · obtain ⟨same, rfl⟩ := mine
          exact .inr (same ▸ stands.lapse_own before.1 there)
        · exact .inl (stands.lapse_other before.1 there fun same here => mine ⟨same, here⟩)
      · exact .inr (departed.lapse before.1 there _)
    · exact before
  have turn (v : World) (before : On v) : Out (lapseAt home v x) := by
    rcases before.2 with stands | departed
    · obtain ⟨l, there, _⟩ := stands.awaits
      simp only [lapseAt, there, stands.caller]
      exact ⟨(narrows_update before.1 home _).visitors.trans before.1,
        stands.lapse_own before.1 there⟩
    · exact out home v x ⟨before.1, departed⟩
  have outs (v : World) (key : Key) (before : Out v) : Out (cancelIn token v key) := by
    rw [cancelIn_eq]
    split
    · exact before
    · exact List.foldlRecOn (motive := Out) _ _ before fun v before u _ => out key v u before
  obtain ⟨l, there, _⟩ := stands.awaits
  refine (foldl_turn (x := home) (p := On) (q := Out) (fun v key before => ?_) outs
    (fun v before => ?_) (List.mem_range.mpr (List.getElem?_eq_some_iff.mp there).1)
    (s := { w with cancelled := token :: w.cancelled }) ⟨alone, .inl { stands with once := ?_ }⟩).2
  · rw [cancelIn_eq]
    split
    · exact before
    · exact List.foldlRecOn (motive := On) _ _ before fun v before u _ => on key v u before
  · rcases before.2 with stands | departed
    · obtain ⟨l, there, waits⟩ := stands.awaits
      simp only [cancelIn_eq, there]
      exact foldl_turn (on home) (out home) turn (List.mem_filter.mpr ⟨waits, by simp [own]⟩) before
    · exact outs v home ⟨before.1, departed⟩
  · exact Hub.Obeys.later stands.once (Nat.le_refl _) fun _ => List.mem_cons_of_mem token

theorem Stands.giveUp_own (stands : w.Stands n home x) {c : Call} (own : c.sender = n)
    (keyed : c.key = home) : (w.giveUp c).Obeys (.places n fun _ => 0) := by
  intro k m at_k
  rw [giveUp, Hub.updateSession, Hub.lane?_modify] at at_k
  obtain ⟨l, there, rfl⟩ := Option.map_eq_some_iff.mp at_k
  have none := stands.forget there
  rw [own, keyed]
  refine Nat.le_of_eq ?_
  split <;> simp_all

theorem Stands.giveUp_other (stands : w.Stands n home x) {c : Call}
    (other : c.sender = n → c.key ≠ home) : (w.giveUp c).Stands n home x where
  caller := stands.caller
  awaits := by
    obtain ⟨l, there, waits⟩ := stands.awaits
    refine ⟨_, (Hub.lane?_modify w.hub c.key _ home).trans (by rw [there]; rfl), ?_⟩
    split
    · rename_i here
      refine List.mem_filter.mpr ⟨waits, ?_⟩
      simpa [stands.caller] using fun own : n = c.sender => other own.symm here
    · exact waits
  once := stands.once.giveUp c
  keyed := stands.keyed

theorem Stands.abort_own {tag : String} (stands : w.Stands n home x)
    (bears : w.Bears (.owned n tag)) (called : ∃ c ∈ w.calls, c.sender = n) :
    (w.abort tag).Departed n := by
  obtain ⟨c, there, own⟩ := called
  have mine : c ∈ w.calls.filter (·.tag == tag) :=
    List.mem_filter.mpr ⟨there, by simpa using (bears.calls c there).mpr own⟩
  have nowhere := foldl_turn (f := giveUp) (x := c)
    (p := fun v => v.Stands n home x ∨ v.Obeys (.places n fun _ => 0))
    (q := fun v => v.Obeys (.places n fun _ => 0)) (fun v d before => ?_)
    (fun v d before => before.giveUp d) (fun v before => ?_) mine (.inl stands)
  · exact ⟨nowhere, fun d member same => by
      have kept : ((w.calls.filter (·.tag == tag)).foldl giveUp w).calls = w.calls :=
        List.foldlRecOn (motive := fun v : World => v.calls = w.calls) _ giveUp rfl
          fun _ before _ _ => before
      obtain ⟨there, other⟩ := List.mem_filter.mp member
      exact absurd ((bears.calls d (kept ▸ there)).mpr same) (by simpa using other)⟩
  · rcases before with stands | gone
    · by_cases leaves : d.sender = n ∧ d.key = home
      · exact .inr (stands.giveUp_own leaves.1 leaves.2)
      · exact .inl (stands.giveUp_other fun same here => leaves ⟨same, here⟩)
    · exact .inr (gone.giveUp d)
  · rcases before with standing | gone
    · exact standing.giveUp_own own (stands.keyed c there own)
    · exact gone.giveUp c

end Scenario.World

end Courier
