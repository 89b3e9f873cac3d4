import Courier.Proofs.Scenario.Abreast
import Courier.Proofs.Scenario.Numbers
import Courier.Proofs.Scenario.Teardown

set_option autoImplicit false

namespace Courier

namespace Hub

variable {h : Hub}

theorem Sound.distinct_keys (sound : h.Sound) : (h.entries.map (·.key)).Nodup := by
  have distinct := sound.faithful.distinct
  refine (List.Nodup.of_map _ distinct).map_on fun e there d there' same => ?_
  have own := sound.wired e there
  rw [same, sound.wired d there', Option.some.injEq] at own
  exact List.inj_on_of_nodup_map distinct there there' own.symm

theorem inGroup_sublist (h : Hub) (group : String) : (h.inGroup group).Sublist h.entries :=
  List.filter_sublist

theorem mem_inGroup_ids (sound : h.Sound) (group : String) (id : SessionId) :
    id ∈ (h.inGroup group).map (·.id) ↔
      ∃ key l, h.lookup id = some key ∧ h.lane? key = some l ∧ l.client.group = group := by
  constructor
  · intro member
    obtain ⟨e, there, rfl⟩ := List.mem_map.mp member
    obtain ⟨there, mine⟩ := List.mem_filter.mp there
    rw [Option.any_eq_true] at mine
    obtain ⟨l, lane, mine⟩ := mine
    rw [Bool.and_eq_true, beq_iff_eq] at mine
    refine ⟨e.key, l, ?_, lane, mine.2⟩
    simp [lookup, sound.entry there, isLive_of_lane lane, mine.1]
  · rintro ⟨key, l, found, lane, mine⟩
    obtain ⟨entry, live⟩ := lookup_eq_some found
    have here : l.isLive = true := (isLive_of_lane lane).symm.trans live
    exact List.mem_map.mpr ⟨⟨id, key⟩, List.mem_filter.mpr ⟨(entry_mem entry).1, by
      simp [lane, here, mine]⟩, rfl⟩

end Hub

namespace Scenario

open World

def separately (tag : String) (message : Message) (ids : List SessionId) : List Send :=
  ids.map fun id => ⟨tag, .id id, message, none, none⟩

def together (tag : String) (message : Message) (group : String) : Send :=
  ⟨tag, .group group, message, none, none⟩

namespace Fan

variable {f : Fan} {come : List Entry} {w w' : World} {e : Entry}

/-- The send to the group has come to some of its members. In the other world, where so many senders
have begun, each of these has a send of its own. -/
def Mirrors (f : Fan) (come : List Entry) (sends : Nat) (w w' : World) : Prop :=
  ∃ tags finished results, w' = { w.spread f tags finished with sends } ∧
    f.Gathers come (w.callsOf f.first) (w.gatheringsOf f.first) w.finished finished results

theorem caller_before {c : Caller} (before : c.Before f.first) (key : Key) :
    f.caller key c = c := by
  cases c with
  | connection name => rfl
  | sender m =>
    have early : m < f.first := before
    simp [caller, number_other (Nat.ne_of_lt early), later, early]

theorem mirrors_started (counted : w.Counted) (ordered : w.Ordered) (first : f.first = w.sends) :
    f.Mirrors [] f.first (w.started f.tag (w.gatherings ++ [⟨f.first, f.tag, [], false⟩])) w := by
  have hub : w.hub.rename f.caller = w.hub :=
    Hub.rename_of_fixed fun key l there c member =>
      caller_before (first ▸ counted.callers key l there c member) key
  have calls : w.calls.map (·.spread f) = w.calls := by
    conv_rhs => rw [← List.map_id w.calls]
    refine List.map_congr_left fun c there => ?_
    have early : c.sender < f.first := first ▸ ordered.early c there
    have other : c.sender ≠ f.first := Nat.ne_of_lt early
    simp [Call.spread, number_other other, later, early, other]
  have gatherings :
      (w.gatherings.filter (·.sender != f.first)).map (·.spread f) = w.gatherings := by
    have early {g : Gathering} (there : g ∈ w.gatherings) : g.sender < f.first :=
      first ▸ counted.gatherings g there
    rw [List.filter_eq_self.mpr fun g there => bne_iff_ne.mpr (Nat.ne_of_lt (early there))]
    conv_rhs => rw [← List.map_id w.gatherings]
    exact List.map_congr_left fun g there => by simp [Gathering.spread, later, early there]
  refine ⟨w.tags, w.finished, [], ?_, ?_⟩
  · have others : (w.gatherings ++ [(⟨f.first, f.tag, [], false⟩ : Gathering)]).filter
        (·.sender != f.first) = w.gatherings.filter (·.sender != f.first) := by simp
    simp only [World.started, spread, hub, calls, others, gatherings]
    simp only [first]
  · have none : w.callsOf f.first = [] := List.filter_eq_nil_iff.mpr fun c there => by
      simpa using Nat.ne_of_lt (first ▸ ordered.early c there)
    have alone : w.gatheringsOf f.first = [] := List.filter_eq_nil_iff.mpr fun g there => by
      simpa using Nat.ne_of_lt (first ▸ counted.gatherings g there)
    have calls : World.callsOf f.first
        (w.started f.tag (w.gatherings ++ [⟨f.first, f.tag, [], false⟩])) = [] := none
    rw [calls]
    refine ⟨?_, by simp [World.started], by simp, List.nodup_nil, .refl _⟩
    rw [gatheringsOf] at alone ⊢
    simp only [World.started, List.filter_append, alone]
    simp

theorem new_member {rest : List Entry} (members : f.members = come ++ e :: rest)
    (distinct : f.keys.Nodup) : e.key ∉ come.map (·.key) := by
  simp only [Fan.keys, members, List.map_append, List.map_cons] at distinct
  exact fun old => (List.nodup_append.mp distinct).2.2 _ old _ List.mem_cons_self rfl

theorem number_member {rest : List Entry} (members : f.members = come ++ e :: rest)
    (distinct : f.keys.Nodup) : f.number e.key f.first = f.first + come.length := by
  have keys : f.keys = come.map (·.key) ++ e.key :: rest.map (·.key) := by simp [Fan.keys, members]
  have there : e.key ∈ f.keys := by simp [keys]
  have new := new_member members distinct
  calc f.number e.key f.first
    _ = f.first + f.keys.idxOf e.key := if_pos ⟨rfl, there⟩
    _ = f.first + (come.map (·.key)).length := by
      rw [keys, List.idxOf_append_of_notMem new, List.idxOf_cons_self, Nat.add_zero]
    _ = f.first + come.length := by rw [List.length_map]

variable {sends : Nat}

theorem Mirrors.result (mirrors : f.Mirrors come sends w w') (e : Entry) (hub : Hub)
    (result : Except SendError Nat) :
    f.Mirrors (come ++ [e]) sends (World.addResult { w with hub } f.first e.id result)
      { w' with
        hub := hub.rename f.caller
        finished := w'.finished ++ [f.answer (e.id, result)] } := by
  obtain ⟨tags, finished, results, rfl, gathers⟩ := mirrors
  refine ⟨tags, _, _, ?_, gathers.addResult (w := { w with hub }) e.id result
    (fun c there => (gathers.calls c there).imp_right (And.imp_right (List.mem_append_left [e])))
    gathers.single ?_⟩
  · simp only
    rw [spread_addResult]
    rfl
  · rw [List.map_append]
    calc List.Perm _ _ := List.perm_middle
      List.Perm _ _ := gathers.ids.cons e.id
      List.Perm _ _ := (List.perm_append_singleton _ _).symm

theorem conclude_sends (w : World) (c : Call) (outcome : Outcome) (sends : Nat) :
    World.conclude { w with sends } c outcome = { w.conclude c outcome with sends } := by
  unfold World.conclude
  cases c.addressee with
  | member => rfl
  | _ =>
    simp only
    split <;> rfl

def call (f : Fan) (e : Entry) : Call := ⟨f.first, f.tag, e.id, e.key, .member⟩

theorem Mirrors.conclude (mirrors : f.Mirrors come sends w w') (e : Entry) (outcome : Outcome) :
    f.Mirrors (come ++ [e]) sends (w.conclude (f.call e) outcome)
      (w'.conclude ((f.call e).spread f) outcome) := by
  have answered := mirrors.result e (w.hub.conclude e.id e.key outcome).1
    (w.hub.conclude e.id e.key outcome).2
  obtain ⟨tags, finished, results, rfl, gathers⟩ := mirrors
  rw [conclude_member rfl, conclude_sends, conclude_spread rfl rfl]
  exact answered

theorem Mirrors.call (mirrors : f.Mirrors come sends w w') (new : e.key ∉ come.map (·.key))
    (hub : Hub) : f.Mirrors (come ++ [e]) sends { w with hub, calls := w.calls ++ [f.call e] }
      { w' with hub := hub.rename f.caller, calls := w'.calls ++ [(f.call e).spread f] } := by
  obtain ⟨tags, finished, results, rfl, gathers⟩ := mirrors
  have own : World.callsOf f.first { w with hub, calls := w.calls ++ [f.call e] } =
      w.callsOf f.first ++ [f.call e] := by
    simp [callsOf, Fan.call]
  refine ⟨tags, finished, results, by simp [spread], ?_⟩
  rw [own]
  refine ⟨gathers.gathering, gathers.separate, fun c there => ?_, ?_, ?_⟩
  · rcases List.mem_append.mp there with old | last
    · exact (gathers.calls c old).imp_right (And.imp_right (List.mem_append_left [e]))
    · obtain rfl := List.mem_singleton.mp last
      exact ⟨rfl, rfl, List.mem_append_right _ List.mem_cons_self⟩
  · rw [List.map_append, List.nodup_append]
    refine ⟨gathers.single, List.nodup_singleton _, fun key there key' last same => new ?_⟩
    obtain ⟨c, waits, rfl⟩ := List.mem_map.mp there
    obtain rfl := List.mem_singleton.mp last
    exact List.mem_map.mpr ⟨⟨c.id, c.key⟩, (gathers.calls c waits).2.2, same⟩
  · rw [List.map_append, List.map_append, ← List.append_assoc]
    exact gathers.ids.append_right _

theorem Mirrors.offer (mirrors : f.Mirrors come sends w w') (new : e.key ∉ come.map (·.key))
    (payload : String) : f.Mirrors (come ++ [e]) sends (w.offer (f.call e) payload .endless)
      (w'.offer ((f.call e).spread f) payload .endless) := by
  have taken := mirrors.call new
  obtain ⟨tags, finished, results, rfl, gathers⟩ := mirrors
  have offered := w.hub.rename_offer (ρ := f.caller) e.key ⟨.sender f.first, payload⟩ .endless false
    w.now
  generalize outcome : w.hub.offer e.key ⟨.sender f.first, payload⟩ .endless false w.now = done
    at offered
  obtain ⟨hub, refusal⟩ := done
  cases refusal with
  | none =>
    rw [offer_taken (c := f.call e) outcome,
      offer_taken (w := { w.spread f tags finished with sends }) (c := (f.call e).spread f) offered]
    exact taken hub
  | some why =>
    rw [offer_refused (c := f.call e) outcome,
      offer_refused (w := { w.spread f tags finished with sends }) (c := (f.call e).spread f)
        offered]
    exact Mirrors.conclude (w := { w with hub }) ⟨tags, finished, results, rfl, gathers⟩ e _

theorem Mirrors.started (mirrors : f.Mirrors come sends w w') (tag : String) :
    f.Mirrors come (sends + 1) w (w'.started tag w'.gatherings) := by
  obtain ⟨tags, finished, results, rfl, gathers⟩ := mirrors
  exact ⟨tags ++ [tag], finished, results, rfl, gathers⟩

theorem begin_id (w : World) (tag : String) (id : SessionId) (message : Message) :
    w.begin ⟨tag, .id id, message, none, none⟩ = match w.hub.route id with
      | .error e => (w.started tag w.gatherings).finish tag (some id) (.error e)
      | .ok key => (w.started tag w.gatherings).offer ⟨w.sends, tag, id, key, .byId⟩ message.encode
          .endless :=
  begin_eq w ⟨tag, .id id, message, none, none⟩

/-- One more member is come to. -/
theorem Mirrors.member (mirrors : f.Mirrors come (f.first + come.length) w w') {rest : List Entry}
    (members : f.members = come ++ e :: rest) (distinct : f.keys.Nodup)
    (unique : ∀ d ∈ w.hub.entries, d.id = e.id → d = e) (message : Message) :
    f.Mirrors (come ++ [e]) (f.first + (come ++ [e]).length)
      (beginMember message.encode f.first f.tag w e.id)
      (w'.begin ⟨f.tag, .id e.id, message, none, none⟩) := by
  have started := mirrors.started f.tag
  have number := number_member members distinct
  have length : f.first + (come ++ [e]).length = f.first + come.length + 1 := by
    simp
    omega
  have sends : w'.sends = f.first + come.length := by
    obtain ⟨_, _, _, rfl, _⟩ := mirrors
    rfl
  have route : w'.hub.route e.id = w.hub.route e.id := by
    obtain ⟨_, _, _, rfl, _⟩ := mirrors
    exact w.hub.route_recast (Hub.disguise_rename f.caller) e.id
  have hub : w'.hub = w.hub.rename f.caller := by
    obtain ⟨_, _, _, rfl, _⟩ := mirrors
    rfl
  rw [begin_id, route, length]
  unfold World.beginMember
  cases found : w.hub.route e.id with
  | error err =>
    have answered := started.result e w.hub (.error err)
    rw [← hub] at answered
    exact answered
  | ok key =>
    obtain rfl : key = e.key := by
      have entry := (Hub.entry_mem (Hub.lookup_eq_some (Hub.route_eq_ok found)).1).1
      exact congrArg Entry.key (unique _ entry rfl)
    have called : (f.call e).spread f = ⟨w'.sends, f.tag, e.id, e.key, .byId⟩ := by
      simp [Call.spread, Fan.call, number, sends]
    simp only
    rw [← called]
    exact started.offer (new_member members distinct) message.encode

structure Reaches (f : Fan) (come : List Entry) (w v : World) : Prop where
  entries : ∀ d ∈ v.hub.entries, d ∈ w.hub.entries
  lanes : ∀ key ∉ come.map (·.key), v.hub.lane? key = w.hub.lane? key
  places : v.Obeys (.places f.first fun key => if key ∈ come.map (·.key) then 1 else 0)

variable {v : World}

theorem Reaches.places_more (reaches : f.Reaches come w v) (e : Entry) :
    v.Obeys (.places f.first fun key => if key ∈ (come ++ [e]).map (·.key) then 1 else 0) := by
  refine fun key l there => Nat.le_trans (reaches.places key l there) ?_
  by_cases old : key ∈ come.map (·.key)
  · simp only [if_pos old, List.map_append, if_pos (List.mem_append_left _ old), Nat.le_refl]
  · simp only [if_neg old, Nat.zero_le]

theorem count_offered {s session : Session} {n : Nat} {payload : String} {patience : Patience}
    {now : Nat} (none : s.callers.count (.sender n) = 0)
    (offered : session = { s with queue := s.queue ++ [⟨.sender n, payload⟩] } ∨
      session = { s with waiting := s.waiting ++ [⟨⟨.sender n, payload⟩, patience, now⟩] }) :
    session.callers.count (.sender n) ≤ 1 := by
  simp only [Session.callers, List.count_append, Session.line, List.map_append, Session.inFlight,
    Session.waitingCallers] at none
  rcases offered with rfl | rfl <;>
    simp only [Session.callers, List.count_append, Session.line, List.map_append, Session.inFlight,
      Session.waitingCallers, List.map_cons, List.map_nil, List.count_singleton_self] <;>
    omega

theorem Reaches.offer (reaches : f.Reaches come w v) (new : e.key ∉ come.map (·.key))
    (payload : String) : f.Reaches (come ++ [e]) w (v.offer (f.call e) payload .endless) := by
  have narrows := v.narrows_offer (f.call e) payload .endless
  have apart {key : Key} (other : key ∉ (come ++ [e]).map (·.key)) :
      key ∉ come.map (·.key) ∧ e.key ≠ key := by
    simp only [List.map_append, List.map_cons, List.map_nil, List.mem_append, List.mem_singleton,
      not_or] at other
    exact ⟨other.1, Ne.symm other.2⟩
  refine ⟨fun d there => reaches.entries d (narrows.entries d there), fun key other => ?_, ?_⟩
  all_goals
    rcases v.offer_outcome (f.call e) payload .endless with
      ⟨why, refused⟩ | ⟨l, session, there, offered, taken⟩
  · rw [refused, conclude_member rfl]
    calc (v.hub.conclude e.id e.key (.refused why)).1.lane? key
      _ = v.hub.lane? key := Hub.lane?_conclude v.hub e.id (apart other).2 _
      _ = w.hub.lane? key := reaches.lanes key (apart other).1
  · rw [taken]
    calc (v.hub.setLane e.key { l with session }).lane? key
      _ = v.hub.lane? key := List.getElem?_set_ne (apart other).2
      _ = w.hub.lane? key := reaches.lanes key (apart other).1
  · rw [refused]
    exact (tells_conclude v _ _).does.obeys (reaches.places_more e)
  · rw [taken]
    refine Hub.Obeys.setLane (reaches.places_more e) e.key ?_
    have few : l.session.callers.count (.sender f.first) ≤
        if e.key ∈ come.map (·.key) then 1 else 0 := reaches.places e.key l there
    have here : e.key ∈ (come ++ [e]).map (·.key) := by simp
    rw [if_neg new] at few
    exact (count_offered (Nat.le_zero.mp few) offered).trans (Nat.le_of_eq (if_pos here).symm)

theorem Reaches.member (reaches : f.Reaches come w v) (new : e.key ∉ come.map (·.key))
    (unique : ∀ d ∈ v.hub.entries, d.id = e.id → d = e) (payload : String) :
    f.Reaches (come ++ [e]) w (beginMember payload f.first f.tag v e.id) := by
  unfold World.beginMember
  cases found : v.hub.route e.id with
  | error err =>
    refine ⟨reaches.entries, fun key other => reaches.lanes key fun old => other ?_,
      reaches.places_more e⟩
    rw [List.map_append]
    exact List.mem_append_left _ old
  | ok key =>
    obtain rfl : key = e.key := by
      have entry := (Hub.entry_mem (Hub.lookup_eq_some (Hub.route_eq_ok found)).1).1
      exact congrArg Entry.key (unique _ entry rfl)
    exact reaches.offer new payload

/-- The send comes to all members, and as many sends begin in the other world. -/
theorem members_come (distinct : f.keys.Nodup)
    (unique : ∀ d ∈ w.hub.entries, ∀ e ∈ f.members, d.id = e.id → d = e) (message : Message)
    {rest : List Entry} (members : f.members = come ++ rest)
    (mirrors : f.Mirrors come (f.first + come.length) v w') (reaches : f.Reaches come w v) :
    f.Mirrors f.members (f.first + f.members.length)
      ((rest.map (·.id)).foldl (beginMember message.encode f.first f.tag) v)
      ((separately f.tag message (rest.map (·.id))).foldl World.begin w') ∧
    f.Reaches f.members w
      ((rest.map (·.id)).foldl (beginMember message.encode f.first f.tag) v) := by
  induction rest generalizing come v w' with
  | nil =>
    rw [List.append_nil] at members
    rw [members]
    exact ⟨mirrors, reaches⟩
  | cons e rest ih =>
    have known : ∀ d ∈ v.hub.entries, d.id = e.id → d = e := fun d there =>
      unique d (reaches.entries d there) e (by simp [members])
    exact ih (by simp [members]) (mirrors.member members distinct known message)
      (reaches.member (new_member members distinct) known message.encode)

theorem Mirrors.beside (mirrors : f.Mirrors f.members (f.first + f.members.length) w w')
    (begun : w.sends = f.first + 1) (some : f.members ≠ []) : f.Beside (w.gather f.first) w' := by
  obtain ⟨tags, finished, results, rfl, gathers⟩ := mirrors
  have sends := (tells_gather w f.first).sends
  have later : f.later (f.first + 1) = f.first + f.members.length := by
    have positive := List.length_pos_iff.mpr some
    unfold later
    split <;> omega
  refine ⟨by omega, tags, finished, ?_, gathers.gather⟩
  rw [spread_gather, spread, begun, later]

theorem Reaches.gather (reaches : f.Reaches come w v) (sender : Nat) :
    f.Reaches come w (v.gather sender) where
  entries := hub_gather v sender ▸ reaches.entries
  lanes := hub_gather v sender ▸ reaches.lanes
  places := (tells_gather v sender).does.obeys reaches.places

end Fan

namespace World

variable {config : Config} {w : World}

def fan (w : World) (group tag : String) (abortable : Prop) : Fan :=
  ⟨w.sends, tag, w.hub.inGroup group, abortable⟩

theorem Reached.reaches (reached : Reached config w) (group tag : String) (abortable : Prop)
    (gatherings : List Gathering) :
    (w.fan group tag abortable).Reaches [] w (w.started tag gatherings) := by
  refine ⟨fun _ there => there, fun _ _ => rfl, fun key l there => ?_⟩
  have before := reached.counted.callers key l there
  have none : l.session.callers.count (.sender w.sends) = 0 :=
    List.count_eq_zero.mpr fun own => (before _ own).ne rfl
  exact Nat.le_trans (Nat.le_of_eq none) (Nat.zero_le _)

/-- Once the send to the group has begun, each member might as well have one of its own. -/
theorem Reached.fans (reached : Reached config w) (group tag : String) (abortable : Prop)
    (message : Message) : (w.hub.inGroup group ≠ [] →
      (w.fan group tag abortable).Beside (w.begin (together tag message group))
        ((separately tag message ((w.hub.inGroup group).map (·.id))).foldl begin w)) ∧
    (w.fan group tag abortable).Reaches (w.hub.inGroup group) w
      (w.begin (together tag message group)) := by
  have sound := reached.sound
  have within := w.hub.inGroup_sublist group
  have distinct : (w.fan group tag abortable).keys.Nodup :=
    sound.distinct_keys.sublist (within.map _)
  have members : (w.fan group tag abortable).members = [] ++ w.hub.inGroup group := rfl
  obtain ⟨mirrors, reaches⟩ := Fan.members_come distinct
    (fun d there e member same => List.inj_on_of_nodup_map sound.faithful.distinct there
      (within.subset member) same) message members
    (Fan.mirrors_started reached.counted reached.ordered rfl)
    (reached.reaches group tag abortable _)
  have begun : w.begin (together tag message group) = _ := begin_eq w (together tag message group)
  have sends := w.sends_begin (together tag message group)
  rw [begun] at sends ⊢
  exact ⟨mirrors.beside ((tells_gather _ _).sends.symm.trans sends), reaches.gather _⟩

theorem Reached.fans_nobody (reached : Reached config w) (group tag : String) (message : Message)
    (nobody : w.hub.inGroup group = []) :
    w.begin (together tag message group) = { w with
      sends := w.sends + 1
      tags := w.tags ++ [tag]
      gatherings := w.gatherings ++ [⟨w.sends, tag, [], true⟩]
      finished := w.finished ++ [⟨tag, none, .members []⟩] } := by
  have quiet : w.calls.any (·.sender == w.sends) = false := List.any_eq_false.mpr fun c there => by
    simpa using Nat.ne_of_lt (reached.ordered.early c there)
  have others {g : Gathering} (there : g ∈ w.gatherings) : g.sender ≠ w.sends :=
    Nat.ne_of_lt (reached.counted.gatherings g there)
  have found : ((w.gatherings ++ [(⟨w.sends, tag, [], false⟩ : Gathering)]).find? fun g =>
      g.sender == w.sends && !g.complete) = some ⟨w.sends, tag, [], false⟩ := by
    rw [List.find?_append, List.find?_eq_none.mpr fun g there => by simp [others there]]
    simp
  have completed : w.gatherings.map (fun g : Gathering =>
      if g.sender == w.sends then { g with complete := true } else g) = w.gatherings := by
    conv_rhs => rw [← List.map_id w.gatherings]
    exact List.map_congr_left fun g there => by simp [others there]
  rw [begin_eq]
  simp only [together, nobody, List.map_nil, List.foldl_nil, gather, World.started, quiet, found,
    List.map_append, completed]
  simp [finish]

end World

/-- What may happen to a world. -/
inductive Occurrence
  | step (s : Step)
  | move
  | time (ms : Nat)
  | look

namespace World

variable {r : Regime} {config : Config} {w : World}

def occur (w : World) : Occurrence → World
  | .step s => (w.perform s).1
  | .move => w.step?.getD w
  | .time ms => { w with now := w.now + ms }
  | .look => w.visitAll.1

def after (course : List Occurrence) (w : World) : World := course.foldl occur w

theorem leads_occur (hasty : ¬r.prompt) (adds : r.adds)
    (permitted : ∀ n, w.sends ≤ n → r.permits (.sender n)) (o : Occurrence) : Leads r w (w.occur o) := by
  cases o with
  | step s => exact leads_perform (fun n after _ => permitted n after) (fun _ => hasty) fun _ => adds
  | move =>
    unfold occur step?
    cases next : w.next? with
    | none => exact .refl w
    | some m => exact (does_make next).leads
  | time ms => exact leads_time hasty (Nat.le_add_right ..)
  | look => exact (does_visitAll w).leads

theorem leads_after (hasty : ¬r.prompt) (adds : r.adds)
    (permitted : ∀ n, w.sends ≤ n → r.permits (.sender n)) (course : List Occurrence) :
    Leads r w (w.after course) := by
  unfold after
  induction course generalizing w with
  | nil => exact .refl w
  | cons o course ih =>
    have first := leads_occur hasty adds permitted o
    exact first.trans (ih fun n after => permitted n (Nat.le_trans first.sends after))

theorem after_append (course later : List Occurrence) (w : World) :
    w.after (course ++ later) = (w.after course).after later := List.foldl_append

theorem sends_lt_begin (w : World) (s : Send) : w.sends < (w.begin s).sends := by
  rw [sends_begin]
  exact Nat.lt_succ_self _

theorem leads_begun {n : Nat} (begun : n < w.sends) (most : Key → Nat) (course : List Occurrence) :
    Leads (Session.Rule.places n most).regime w (w.after course) :=
  leads_after id trivial (fun m after own => by
    obtain rfl := Caller.sender.inj own
    omega) course

theorem places_after {n : Nat} (begun : n < w.sends) {course : List Occurrence} {key : Key}
    {l l' : Lane} (there : w.hub.lane? key = some l)
    (there' : (w.after course).hub.lane? key = some l') :
    l'.session.callers.count (.sender n) ≤ l.session.callers.count (.sender n) := by
  let most (key : Key) : Nat := ((w.hub.lane? key).map (·.session.callers.count (.sender n))).getD 0
  have now : w.Obeys (.places n most) := fun key l there => by
    have own : most key = l.session.callers.count (.sender n) := by simp [most, there]
    exact Nat.le_of_eq own.symm
  have after : l'.session.callers.count (.sender n) ≤ most key :=
    (leads_begun begun most course).obeys now key l' there'
  simpa [most, there] using after

end World

theorem Fan.Beside.after {f : Fan} {w w' : World} (beside : f.Beside w w')
    {course : List Occurrence} (may : .step (.abort f.tag) ∈ course → f.abortable) :
    f.Beside (w.after course) (w'.after course) := by
  unfold World.after
  induction course generalizing w w' with
  | nil => exact beside
  | cons o course ih =>
    refine ih ?_ fun later => may (List.mem_cons_of_mem _ later)
    cases o with
    | step s => exact beside.perform fun own => may (by rw [own]; exact List.mem_cons_self)
    | move =>
      rcases beside.step? with ⟨none, none'⟩ | ⟨u, u', did, did', next⟩
      · simpa only [World.occur, none, none', Option.getD_none] using beside
      · simpa only [World.occur, did, did', Option.getD_some] using next
    | time ms =>
      simp only [World.occur, beside.now]
      exact beside.at _
    | look => exact beside.visitAll

namespace World

/-- What a send to a group comes to. -/
structure FansOut (w : World) (group tag : String) (message : Message) : Prop where
  /-- Its members are the live sessions of the group, each once. -/
  distinct : ((w.hub.inGroup group).map (·.id)).Nodup
  members : ∀ id, id ∈ (w.hub.inGroup group).map (·.id) ↔
    ∃ key l, w.hub.lookup id = some key ∧ w.hub.lane? key = some l ∧ l.client.group = group
  /-- It does nothing to the sessions of others. -/
  others : ∀ key ∉ (w.hub.inGroup group).map (·.key),
    (w.begin (together tag message group)).hub.lane? key = w.hub.lane? key
  /-- Each member has one parcel of it at most, and nobody else has any, whatever happens. -/
  once : ∀ course key l,
    ((w.begin (together tag message group)).after course).hub.lane? key = some l →
      l.session.callers.count (.sender w.sends) ≤
        if key ∈ (w.hub.inGroup group).map (·.key) then 1 else 0
  /-- A parcel that has left a session does not come again. -/
  never : ∀ course later key l l',
    ((w.begin (together tag message group)).after course).hub.lane? key = some l →
    ((w.begin (together tag message group)).after (course ++ later)).hub.lane? key = some l' →
      l'.session.callers.count (.sender w.sends) ≤ l.session.callers.count (.sender w.sends)
  /-- Without members it is answered at once. -/
  nobody : w.hub.inGroup group = [] → w.begin (together tag message group) = { w with
    sends := w.sends + 1
    tags := w.tags ++ [tag]
    gatherings := w.gatherings ++ [⟨w.sends, tag, [], true⟩]
    finished := w.finished ++ [⟨tag, none, .members []⟩] }
  /-- With members, everything happens as if each of them had a send by id of its own that began at
  the same time; and the results are the same. -/
  separate : w.hub.inGroup group ≠ [] → ∀ course,
    (w.fan group tag (.step (.abort tag) ∈ course)).Beside
      ((w.begin (together tag message group)).after course)
      (((separately tag message ((w.hub.inGroup group).map (·.id))).foldl begin w).after course)

/-- A send to a group is a send by id to each of its live sessions, to which all results are given
back at once. -/
theorem group_fans_out (config : Config) (w : World) (reached : Reached config w)
    (group tag : String) (message : Message) : w.FansOut group tag message where
  distinct := reached.sound.faithful.distinct.sublist ((w.hub.inGroup_sublist group).map _)
  members := Hub.mem_inGroup_ids reached.sound group
  others := (reached.fans group tag False message).2.lanes
  once course key l there :=
    (leads_begun (sends_lt_begin w _) _ course).obeys
      (reached.fans group tag False message).2.places key l there
  never course later key l l' there there' := by
    have begun := sends_lt_begin w (together tag message group)
    have leads := leads_begun begun (fun _ => 0) course
    rw [after_append] at there'
    exact places_after (Nat.lt_of_lt_of_le begun leads.sends) there there'
  nobody := reached.fans_nobody group tag message
  separate some course := ((reached.fans group tag _ message).1 some).after id

theorem group_fans_out_pair :
    let w := ((start .default).runAll [
      .enter ⟨"a", ⟨"a"⟩, .plain "s" "g" .subscribe, .plain, false⟩,
      .enter ⟨"b", ⟨"b"⟩, .plain "s" "h" .subscribe, .plain, false⟩,
      .enter ⟨"c", ⟨"c"⟩, .plain "s" "g" .publish, .plain, false⟩]).1
    Reached .default w ∧ w.hub.inGroup "g" = [⟨⟨"a"⟩, 0⟩, ⟨⟨"c"⟩, 2⟩] ∧
      w.FansOut "g" "all" ⟨.default, .success⟩ := by
  intro w
  have reached : Reached .default w := Reached.start.runAll _
  exact ⟨reached, by decide, group_fans_out .default w reached "g" "all" ⟨.default, .success⟩⟩

end World

end Scenario

end Courier
