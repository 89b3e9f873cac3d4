import Courier.Proofs.Scenario.Fate

set_option autoImplicit false

namespace Courier

def Caller.Before (n : Nat) : Caller → Prop
  | .sender m => m < n
  | .connection _ => True

theorem Caller.Before.ne {n : Nat} {c : Caller} (before : c.Before n) : c ≠ .sender n := by
  rintro rfl
  exact Nat.lt_irrefl n before

def Session.Rule.before (n : Nat) : Session.Rule where
  holds _ _ _ s := ∀ c ∈ s.callers, c.Before n
  permits c := c.Before n
  connections _ := trivial
  new := by
    rintro _ _ _ _ ⟨c, since, rfl | rfl⟩ <;>
      simp [Session.crashed, Session.callers, Session.line,
        Session.inFlight, Session.waitingCallers]
  act _ _ _ s a all _ permitted c there := by
    by_cases old : c ∈ s.callers
    · exact all c old
    · have counted := (s.act_turnover a).count_le c
      have here := List.count_pos_iff.mpr there
      have none := List.count_eq_zero.mpr old
      have new : c ∈ a.sender?.toList := List.count_pos_iff.mp (by omega)
      exact permitted c (by simpa using new)
  later _ _ _ _ _ _ all _ _ := all

def Scenario.Send.IsDirect (s : Send) : Prop :=
  (∃ name, s.address = .handle name) ∨ ∃ id, s.address = .id id

variable {n : Nat}

theorem Caller.Before.name {c : Caller} (before : c.Before n) : (Omission.sender n).name c = c := by
  cases c with
  | connection name => rfl
  | sender m =>
    have early : ¬n < m := Nat.lt_asymm before
    simp [Omission.sender, fewer, early]

theorem Parcel.without_before {p : Parcel} (before : p.caller.Before n) :
    p.without (.sender n) = p := by
  simp [Parcel.without, before.name]

theorem Session.without_before {s : Session} (all : ∀ c ∈ s.callers, c.Before n) :
    s.without (.sender n) false = s := by
  simp only [callers, List.mem_append, List.mem_map, line] at all
  have queue : s.queue.map (·.without (.sender n)) = s.queue := by
    conv_rhs => rw [← List.map_id s.queue]
    exact List.map_congr_left fun p there =>
      Parcel.without_before (all _ (.inl ⟨p, .inr there, rfl⟩))
  have waiter {v : Waiter} (there : v ∈ s.waiting) : v.parcel.caller.Before n :=
    all _ (.inr (List.mem_map.mpr ⟨v, there, rfl⟩))
  have present : s.waiting.filter (·.parcel.caller != .sender n) = s.waiting :=
    List.filter_eq_self.mpr fun v there => bne_iff_ne.mpr (waiter there).ne
  have waiting : s.waiting.map (·.without (.sender n)) = s.waiting := by
    conv_rhs => rw [← List.map_id s.waiting]
    exact List.map_congr_left fun v there => by
      simp [Waiter.without, Parcel.without_before (waiter there)]
  have writer : s.writer.without (.sender n) = s.writer := by
    cases writer : s.writer with
    | writing p since =>
      have flight : p.caller.Before n := all _ (.inl ⟨p, .inl (by simp [inFlight, writer]), rfl⟩)
      simp [Parcel.without_before flight]
    | _ => rfl
  have gone : (Omission.sender n).gone = .sender n := rfl
  simp only [Session.without, queue, gone, present, waiting, writer, Bool.or_false]

theorem Hub.without_before {h : Hub} {now : Nat} {cancelled : List String}
    (all : h.Obeys (.before n) now cancelled) : h.without (.sender n) (fun _ => false) = h := by
  have lanes : (h.lanes.mapIdx fun _ l => l.without (.sender n) false) = h.lanes := by
    apply List.ext_getElem?
    intro key
    rw [List.getElem?_mapIdx]
    cases there : h.lanes[key]? with
    | none => rfl
    | some l =>
      have same : l.session.without (.sender n) false = l.session :=
        Session.without_before (all key l there)
      simp [Lane.without, same]
  simp only [Hub.without, lanes]

namespace Scenario.World

variable {tag : String} {home : Key} {x : Waiter} {w v : World} {s : Step}

/-- The tag has not been used. -/
structure Fresh (tag : String) (w : World) : Prop where
  sane : w.Sane
  bears : w.Bears (.earlier w.sends tag)
  before : w.Obeys (.before w.sends)
  admitted : w.Obeys Session.admission
  tags : tag ∉ w.tags

theorem Fresh.perform (fresh : w.Fresh tag) (settled : w.next? = none) (apart : s.connects = false)
    (named : tag ∉ s.tags) : (w.perform s).1.Fresh tag where
  sane := (perform_sane fresh.sane settled apart).1
  bears := by
    have sends := sends_perform fresh.sane settled apart
    have more : w.Bears (.earlier (w.perform s).1.sends tag) := {
      calls := fun c there => (fresh.bears.calls c there).imp_left fun early => by omega
      gatherings := fun g there => (fresh.bears.gatherings g there).imp_left fun early => by omega
      watches := fresh.bears.watches }
    refine more.perform fresh.sane settled apart fun t there => ?_
    have other : t ≠ tag := fun same => named (same ▸ there)
    exact ⟨other, fun m _ early => ⟨⟨sends ▸ early, other⟩, sends ▸ early, other⟩⟩
  before := by
    have sends := sends_perform fresh.sane settled apart
    have more : w.Obeys (.before (w.perform s).1.sends) := fun key l there c member => by
      have early := fresh.before key l there c member
      cases c with
      | connection name => trivial
      | sender m => exact Nat.lt_of_lt_of_le early (by omega)
    exact more.perform fun m _ early => sends ▸ early
  admitted := fresh.admitted.perform fun _ _ _ => trivial
  tags there := (tags_perform fresh.sane settled apart tag there).elim fresh.tags named

theorem Fresh.settles {v : World} (fresh : w.Fresh tag) (settles : Settles w v) : v.Fresh tag := by
  induction settles with
  | still => exact fresh
  | @move w v m next _ ih =>
    have narrows := narrows_make fresh.sane.alone next
    have sends := narrows.sends
    exact ih ⟨(sane_make fresh.sane next).1, sends ▸ fresh.bears.narrows narrows,
      sends ▸ (does_make next).obeys fresh.before, (does_make next).obeys fresh.admitted,
      narrows.tags ▸ fresh.tags⟩

theorem Fresh.clear (fresh : w.Fresh tag) : w.clear.Fresh tag :=
  ⟨{ fresh.sane with }, { fresh.bears with }, fresh.before, fresh.admitted, fresh.tags⟩

theorem Fresh.run (fresh : w.Fresh tag) (rests : w.Rests) (apart : s.connects = false)
    (named : tag ∉ s.tags) : (w.run s).1.Fresh tag :=
  (fresh.clear.perform rests.clear.settled apart named).settles (rests.settles apart)

theorem fresh_start (config : Config) (tag : String) : (World.start config).Fresh tag where
  sane := ⟨rfl, by simp, by simp⟩
  bears := ⟨by simp, by simp, by simp⟩
  before key l there := by simp at there
  admitted key l there := by simp at there
  tags := by simp

theorem finished_begin (w : World) (s : Send) (others : ∀ g ∈ w.gatherings, g.tag ≠ tag)
    (unheard : ∀ f ∈ w.finished, f.tag ≠ tag) (named : s.tag ≠ tag) :
    (∀ f ∈ (w.begin s).finished, f.tag ≠ tag) ∧ ∀ g ∈ (w.begin s).gatherings, g.tag ≠ tag := by
  have narrow {v v' : World} (narrows : Narrows v v') (others : ∀ g ∈ v.gatherings, g.tag ≠ tag) :
      ∀ g ∈ v'.gatherings, g.tag ≠ tag := by
    intro g there
    obtain ⟨g₀, there₀, _, same⟩ := narrows.gatherings g there
    exact same ▸ others g₀ there₀
  refine w.begin_induct s
    (P := fun v => (∀ f ∈ v.finished, f.tag ≠ tag) ∧ ∀ g ∈ v.gatherings, g.tag ≠ tag)
    (fun _ _ => ⟨unheard, others⟩) (fun v before => ⟨before.1, fun g there => ?_⟩)
    (fun v about reply before => ⟨fun f there => ?_, before.2⟩) ?_
    (fun v id result before => ⟨before.1, narrow (narrows_addResult _ _ _ _) before.2⟩) ?_
  · rcases List.mem_append.mp there with there | there
    · exact before.2 g there
    · obtain rfl := List.mem_singleton.mp there
      exact named
  · rcases List.mem_append.mp there with there | there
    · exact before.1 f there
    · obtain rfl := List.mem_singleton.mp there
      exact named
  · intro v c payload patience _ label _ before
    refine ⟨fun f there => ?_, narrow (v.narrows_offer c payload patience) before.2⟩
    obtain ⟨fs, same, tags⟩ := v.finished_offer c payload patience
    rw [same] at there
    rcases List.mem_append.mp there with there | there
    · exact before.1 f there
    · intro own
      refine named ?_
      calc s.tag
        _ = c.tag := label.symm
        _ = f.tag := (tags f there).symm
        _ = tag := own
  · intro v before
    refine ⟨fun f there => ?_, narrow (narrows_gather v w.sends) before.2⟩
    obtain ⟨fs, same, tags⟩ := v.finished_gather w.sends
    rw [same] at there
    rcases List.mem_append.mp there with there | there
    · exact before.1 f there
    · obtain ⟨g, at_g, label⟩ := tags f there
      exact label ▸ before.2 g at_g

def counted (w : World) (tag : String) : World := w.started tag w.gatherings

theorem Fresh.owned (fresh : w.Fresh tag) : (w.counted tag).Owned w.sends tag where
  sane := { fresh.sane with }
  bears := {
    calls := fun c there => by
      obtain ⟨early, other⟩ := fresh.bears.calls c there
      exact iff_of_false other (Nat.ne_of_lt early)
    gatherings := fun g there => (fresh.bears.gatherings g there).imp_left Nat.ne_of_lt
    watches := fresh.bears.watches }
  began := Nat.lt_succ_self _

theorem Fresh.count (fresh : w.Fresh tag) {key : Key} {l : Lane} (there : w.hub.lane? key = some l) :
    l.session.callers.count (.sender w.sends) = 0 :=
  List.count_eq_zero.mpr fun member => (fresh.before key l there _ member).ne rfl

theorem Fresh.counted_without (fresh : w.Fresh tag) (unheard : ∀ f ∈ w.finished, f.tag ≠ tag) :
    (w.counted tag).without w.sends tag (fun _ => false) = w := by
  have hub : w.hub.without (.sender w.sends) (fun _ => false) = w.hub := Hub.without_before fresh.before
  have calls : (w.calls.filter (·.sender != w.sends)).map (·.without w.sends) = w.calls := by
    rw [List.filter_eq_self.mpr fun c there =>
      bne_iff_ne.mpr (Nat.ne_of_lt (fresh.bears.calls c there).1)]
    conv_rhs => rw [← List.map_id w.calls]
    refine List.map_congr_left fun c there => ?_
    have early : ¬w.sends < c.sender := Nat.lt_asymm (fresh.bears.calls c there).1
    simp [Call.without, fewer, early]
  have gatherings : w.gatherings.map (·.without w.sends) = w.gatherings := by
    conv_rhs => rw [← List.map_id w.gatherings]
    refine List.map_congr_left fun g there => ?_
    have early : ¬w.sends < g.sender := Nat.lt_asymm (fresh.bears.gatherings g there).1
    simp [Gathering.without, fewer, early]
  have finished : w.finished.filter (·.tag != tag) = w.finished :=
    List.filter_eq_self.mpr fun f there => bne_iff_ne.mpr (unheard f there)
  have tags : (w.tags ++ [tag]).filter (· != tag) = w.tags := by
    have others : ∀ t ∈ w.tags, (t != tag) = true := fun t there => by
      refine bne_iff_ne.mpr ?_
      rintro rfl
      exact fresh.tags there
    rw [List.filter_append, List.filter_eq_self.mpr others]
    simp
  simp only [counted, started, without, hub, calls, gatherings, finished, tags, Nat.add_sub_cancel]

/-- What an offer comes to. -/
theorem offer_outcome (w : World) (c : Call) (payload : String) (patience : Patience) :
    (∃ r, w.offer c payload patience = w.conclude c (.refused r)) ∨
    ∃ l session, w.hub.lane? c.key = some l ∧
      (session = { l.session with queue := l.session.queue ++ [⟨.sender c.sender, payload⟩] } ∨
        session = { l.session with
          waiting := l.session.waiting ++ [⟨⟨.sender c.sender, payload⟩, patience, w.now⟩] }) ∧
      w.offer c payload patience = { w with
        hub := w.hub.setLane c.key { l with session }
        calls := w.calls ++ [c] } := by
  unfold offer Hub.offer
  simp only
  cases there : w.hub.lane? c.key with
  | none => exact .inl ⟨_, rfl⟩
  | some l =>
    simp only
    rcases l.session.offer_cases ⟨.sender c.sender, payload⟩ patience
      (patience.deadline.any (· ≤ w.now) || patience.token.any w.cancelled.contains) w.now with
      ⟨r, refused⟩ | ⟨_, _, _, queued⟩ | ⟨_, _, _, waits⟩
    · left
      have same : w.hub.setLane c.key l = w.hub := by
        obtain ⟨inside, at_key⟩ := List.getElem?_eq_some_iff.mp there
        rw [Hub.setLane, ← at_key, List.set_getElem_self]
      exact ⟨r, by simp only [refused, same]⟩
    · exact .inr ⟨l, _, rfl, .inl rfl, by simp only [queued]⟩
    · exact .inr ⟨l, _, rfl, .inr rfl, by simp only [waits]⟩

theorem conclude_late (w : World) {c : Call} (single : c.addressee ≠ .member) {o : Outcome}
    (late : o.IsLate) : ∃ f : Finish, f.tag = c.tag ∧
      w.conclude c o = { w with finished := w.finished ++ [f] } := by
  unfold conclude
  cases addressee : c.addressee with
  | member => exact absurd addressee single
  | byHandle =>
    rcases late with rfl | rfl <;> exact ⟨_, rfl, rfl⟩
  | byId =>
    rcases late with rfl | rfl <;> exact ⟨⟨c.tag, some c.id, _⟩, rfl, rfl⟩

variable {c : Call}

theorem Fresh.offered (fresh : w.Fresh tag) (number : c.sender = w.sends) (label : c.tag = tag)
    (payload : String) (patience : Patience) :
    ((w.counted tag).offer c payload patience).Owned w.sends tag where
  sane := (steady_offer _ c payload patience).sane fresh.owned.sane
  bears := fresh.owned.bears.offer (iff_of_true label number) payload patience
  began := by
    rw [(comes_offer (r := .free False) (w.counted tag) trivial payload patience).sends]
    exact fresh.owned.began

theorem spared_of_unheard (unheard : ∀ f ∈ w.finished, f.tag ≠ tag) : w.Spared tag :=
  fun f there own => absurd own (unheard f there)

theorem Fresh.apart (fresh : w.Fresh tag) : (w.counted tag).Obeys (.apart w.sends) :=
  fun key l there v waits => (fresh.before key l there _
    (List.mem_append_right _ (List.mem_map.mpr ⟨v, waits, rfl⟩))).ne

theorem Fresh.refused (fresh : w.Fresh tag) (unheard : ∀ f ∈ w.finished, f.tag ≠ tag)
    (label : c.tag = tag) (single : c.addressee ≠ .member) (r : Refusal)
    (owned : ((w.counted tag).conclude c (.refused r)).Owned w.sends tag) :
    Fate w.sends tag home x ((w.counted tag).conclude c (.refused r)) w := by
  have late (late : Outcome.IsLate (.refused r)) :
      Absent w.sends tag ((w.counted tag).conclude c (.refused r)) w := by
    obtain ⟨f, own, same⟩ := (w.counted tag).conclude_late single late
    rw [same] at owned ⊢
    refine ⟨owned, ⟨fun key l there => Nat.le_of_eq (fresh.count there), fun c there =>
      Nat.ne_of_lt (fresh.bears.calls c there).1⟩, ?_⟩
    conv_lhs => rw [← fresh.counted_without unheard]
    simp [without, own, label]
  cases r with
  | full => exact .inr (.inl (late (.inr rfl)))
  | lapsed => exact .inr (.inl (late (.inl rfl)))
  | failed f =>
    obtain ⟨fs, same, about⟩ := (w.counted tag).finished_conclude c (.refused (.failed f))
    have early : ¬Outcome.IsLate (.refused (.failed f)) := by simp [Outcome.IsLate]
    exact .inr (.inr ⟨owned, Spared.more (w := w.counted tag) (spared_of_unheard unheard) same
      fun g there _ late => early ((about g there).2 late), (tells_conclude _ c _).does.obeys fresh.apart⟩)

theorem Fresh.waits (fresh : w.Fresh tag) (unheard : ∀ f ∈ w.finished, f.tag ≠ tag)
    (number : c.sender = w.sends) {l : Lane} (there : w.hub.lane? c.key = some l)
    (owned : v.Owned w.sends tag) (admitted : v.Obeys Session.admission)
    (caller : x.parcel.caller = .sender c.sender)
    (offered : v = { w.counted tag with
      hub := w.hub.setLane c.key { l with
        session := { l.session with waiting := l.session.waiting ++ [x] } }
      calls := w.calls ++ [c] }) :
    Lingers w.sends tag c.key x false v w := by
  rw [number] at caller
  have once : v.Obeys (.places w.sends fun key => if key = c.key then 1 else 0) := by
    rw [offered]
    refine Hub.Obeys.setLane (fun key m at_m => ?_) c.key ?_
    · exact Nat.le_trans (Nat.le_of_eq (fresh.count at_m)) (Nat.zero_le _)
    · have none := fresh.count there
      simp only [Session.callers, List.count_append] at none
      simp only [Session.Rule.places, Session.callers, Session.line, Session.inFlight,
        Session.waitingCallers, List.map_append, List.count_append, if_true] at none ⊢
      simp only [List.map_cons, List.map_nil, caller, List.count_singleton_self]
      omega
  have inside := (List.getElem?_eq_some_iff.mp there).1
  have called (d : Call) (member : d ∈ v.calls) : d ∈ w.calls ∨ d = c := by
    rw [offered] at member
    exact (List.mem_append.mp member).imp_right List.mem_singleton.mp
  have awaits : v.Awaits c.key x := by
    rw [offered]
    exact ⟨_, List.getElem?_set_self inside, List.mem_append_right _ List.mem_cons_self⟩
  refine { owned with
    stands := ⟨caller, awaits, once, fun d member own => ?_⟩
    called := ⟨c, ?_, number⟩
    spared := ?_
    admitted
    same := ?_
    forlorn := by simp }
  · rcases called d member with old | rfl
    · exact absurd own (Nat.ne_of_lt (fresh.bears.calls d old).1)
    · rfl
  · rw [offered]
    exact List.mem_append_right _ List.mem_cons_self
  · rw [offered]
    exact spared_of_unheard unheard
  · conv_lhs => rw [← fresh.counted_without unheard]
    have gone : ({ l with session := { l.session with waiting := l.session.waiting ++ [x] } } :
        Lane).without (.sender w.sends) false = l.without (.sender w.sends) false := by
      simp [Lane.without, Session.without, Omission.sender, caller]
    have hub := Hub.setLane_gone (q := fun _ => false) there gone
    simp [offered, without, counted, started, hub, number]

theorem Fresh.admits (fresh : w.Fresh tag) (unheard : ∀ f ∈ w.finished, f.tag ≠ tag)
    (number : c.sender = w.sends) (label : c.tag = tag) (single : c.addressee ≠ .member)
    (payload : String) (patience : Patience) :
    Fate w.sends tag c.key ⟨⟨.sender c.sender, payload⟩, patience, w.now⟩
      ((w.counted tag).offer c payload patience) w := by
  have owned := fresh.offered number label payload patience
  have admitted : ((w.counted tag).offer c payload patience).Obeys Session.admission :=
    (comes_offer (w.counted tag) trivial payload patience).obeys
      fresh.admitted
  rcases (w.counted tag).offer_outcome c payload patience with
    ⟨r, refused⟩ | ⟨l, session, there, rfl | rfl, offered⟩
  · rw [refused] at owned ⊢
    exact fresh.refused unheard label single r owned
  · rw [offered] at owned ⊢
    exact .inr (.inr ⟨owned, spared_of_unheard unheard,
      Hub.Obeys.setLane fresh.apart c.key (fresh.apart c.key l there)⟩)
  · exact .inl ⟨false, fresh.waits unheard number there owned admitted rfl offered⟩

theorem Fresh.early (fresh : w.Fresh tag) (unheard : ∀ f ∈ w.finished, f.tag ≠ tag)
    (tags : List String) (about : Option SessionId) {reply : Reply} (early : ¬reply.IsLate) :
    (finish { w with sends := w.sends + 1, tags } tag about reply).Arrived w.sends tag where
  sane := { fresh.sane with }
  bears := { fresh.owned.bears with }
  began := fresh.owned.began
  spared := by
    refine Spared.more (w := w) (spared_of_unheard unheard) rfl fun f there _ => ?_
    obtain rfl := List.mem_singleton.mp there
    exact early
  nowhere := fresh.apart

/-- The send is refused at once, or has a place, or waits. -/
theorem Fresh.begin {s : Send} (fresh : w.Fresh s.tag) (unheard : ∀ f ∈ w.finished, f.tag ≠ s.tag)
    (direct : s.IsDirect) : ∃ home x, Fate w.sends s.tag home x (World.begin w s) w := by
  rw [begin_eq]
  rcases direct with ⟨name, address⟩ | ⟨id, address⟩
  · simp only [address]
    split
    · exact ⟨0, ⟨⟨.sender 0, ""⟩, .endless, 0⟩, .inr (.inr
        (fresh.early unheard w.tags none (by simp [Reply.IsLate])))⟩
    · exact ⟨_, _, fresh.admits unheard rfl rfl (by simp) _ _⟩
  · simp only [address]
    split
    · rename_i e unknown
      have early : ¬Reply.IsLate (.error e) := by
        unfold Hub.route at unknown
        split at unknown
        · simp at unknown
        · obtain rfl := Except.error.inj unknown
          simp [Reply.IsLate]
      exact ⟨0, ⟨⟨.sender 0, ""⟩, .endless, 0⟩, .inr (.inr (fresh.early unheard _ _ early))⟩
    · exact ⟨_, _, fresh.admits unheard rfl rfl (by simp) _ _⟩

theorem finished_foldl (w : World) (sends : List Send) (others : ∀ g ∈ w.gatherings, g.tag ≠ tag)
    (unheard : ∀ f ∈ w.finished, f.tag ≠ tag) (named : tag ∉ sends.map (·.tag)) :
    ∀ f ∈ (sends.foldl World.begin w).finished, f.tag ≠ tag := by
  induction sends generalizing w with
  | nil => exact unheard
  | cons s sends ih =>
    simp only [List.map_cons, List.mem_cons, not_or] at named
    obtain ⟨still, others⟩ := w.finished_begin s others unheard (Ne.symm named.1)
    exact ih _ others still named.2

/-- The step in which the sender begins, and the same step without it. -/
theorem Fresh.send {first last : List Send} {s : Send} (fresh : w.Fresh s.tag) (rests : w.Rests)
    (direct : s.IsDirect) (named : s.tag ∉ (first ++ last).map (·.tag)) :
    ∃ home x, Fate (w.sends + first.length) s.tag home x (w.run (.send (first ++ s :: last))).1
      (w.run (.send (first ++ last))).1 := by
  rw [List.map_append, List.mem_append, not_or] at named
  have begun : (first.foldl World.begin w.clear).Fresh s.tag :=
    fresh.clear.perform (s := .send first) rests.clear.settled rfl named.1
  have unheard := finished_foldl w.clear first (fun g there => (fresh.bears.gatherings g there).2)
    (fun _ there => absurd there List.not_mem_nil) named.1
  obtain ⟨home, x, fate⟩ := begun.begin unheard direct
  have goes := fate.sends named.2
  rw [sends_foldl] at goes
  refine ⟨home, x, Fate.settles ?_ (rests.settles (s := .send (first ++ s :: last)) rfl)
    (rests.settles (s := .send (first ++ last)) rfl)⟩
  simp only [World.perform, List.foldl_append, List.foldl_cons]
  exact goes

end Scenario.World

end Courier
