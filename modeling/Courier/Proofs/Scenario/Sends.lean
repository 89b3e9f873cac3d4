import Courier.Proofs.Scenario.Moves
import Courier.Proofs.Scenario.Perform

set_option autoImplicit false

namespace Courier.Scenario.World

variable {A : SessionId} {own : String → Bool}

theorem Alike.waits_own {w w' : World} (alike : Alike A own w w') {c : Call} (mine : c.id = A)
    (wired : w.hub.idOf? c.key = some A) : Alike A own { w with calls := w.calls ++ [c] } w' := by
  refine { alike with calls := ?_, callsWired := alike.callsWired.concat (mine ▸ wired) }
  rw [← alike.calls]
  simp [mine]

theorem Alike.waits {w w' : World} (alike : Alike A own w w') {c : Call}
    (wired : w.hub.idOf? c.key = some c.id) :
    Alike A own { w with calls := w.calls ++ [c] } { w' with calls := w'.calls ++ [c] } := by
  refine { alike with
    calls := ?_
    callsWired := alike.callsWired.concat wired
    otherCallsWired := alike.otherCallsWired.concat ((alike.hub.idOf c.key).symm.trans wired) }
  simp only [List.filter_append, alike.calls]

theorem offer_keeps (h : Hub) (key : Key) (p : Parcel) (patience : Patience) (spent : Bool)
    (now : Nat) : h.Keeps (h.offer key p patience spent now).1 := by
  rw [Hub.offer_eq]
  exact h.keeps_modify key _ fun _ _ => rfl

theorem Alike.offer_own {w w' : World} (alike : Alike A own w w') {c : Call} (mine : c.id = A)
    (wired : w.hub.idOf? c.key = some A) (payload : String) (patience : Patience) :
    Alike A own (w.offer c payload patience) w' := by
  unfold World.offer
  simp only
  generalize (patience.deadline.any (· ≤ w.now) || patience.token.any w.cancelled.contains) = spent
  have there := alike.hub.offer_own wired ⟨.sender c.sender, payload⟩ patience spent w.now
  have keeps := offer_keeps w.hub c.key ⟨.sender c.sender, payload⟩ patience spent w.now
  rcases offered : w.hub.offer c.key ⟨.sender c.sender, payload⟩ patience spent w.now with
    ⟨hub, _ | refusal⟩ <;> rw [offered] at there keeps
  · exact (alike.hub_left there keeps).waits_own mine (keeps c.key A wired)
  · exact (alike.hub_left there keeps).conclude_own mine (.refused refusal)

theorem Alike.offer {w w' : World} (alike : Alike A own w w') (now : w.now = w'.now) {c : Call}
    (wired : w.hub.idOf? c.key = some c.id) (other : c.id ≠ A) (payload : String)
    (patience : Patience) :
    Alike A own (w.offer c payload patience) (w'.offer c payload patience) := by
  have apart : w.hub.idOf? c.key ≠ some A := by simpa [wired] using other
  have equally : (patience.deadline.any (· ≤ w.now) || patience.token.any w.cancelled.contains) =
      (patience.deadline.any (· ≤ w'.now) || patience.token.any w'.cancelled.contains) := by
    rw [now, alike.cancelled]
  unfold World.offer
  simp only [equally]
  generalize (patience.deadline.any (· ≤ w'.now) || patience.token.any w'.cancelled.contains) = spent
  have there : Hub.Alike A
      (w.hub.offer c.key ⟨.sender c.sender, payload⟩ patience spent w.now).1
      (w'.hub.offer c.key ⟨.sender c.sender, payload⟩ patience spent w'.now).1 := by
    rw [← now]
    exact alike.hub.offer c.key _ patience spent w.now
  have same : (w.hub.offer c.key ⟨.sender c.sender, payload⟩ patience spent w.now).2 =
      (w'.hub.offer c.key ⟨.sender c.sender, payload⟩ patience spent w'.now).2 := by
    rw [← now]
    exact alike.hub.offer_snd apart _ patience spent w.now
  have keeps := offer_keeps w.hub c.key ⟨.sender c.sender, payload⟩ patience spent w.now
  have keeps' := offer_keeps w'.hub c.key ⟨.sender c.sender, payload⟩ patience spent w'.now
  rcases offered : w.hub.offer c.key ⟨.sender c.sender, payload⟩ patience spent w.now with
    ⟨hub, refusal⟩
  rcases offered' : w'.hub.offer c.key ⟨.sender c.sender, payload⟩ patience spent w'.now with
    ⟨hub', refusal'⟩
  rw [offered, offered'] at there same
  rw [offered] at keeps
  rw [offered'] at keeps'
  simp only at same
  subst same
  have both := alike.hub_both there keeps keeps'
  cases refusal with
  | none => exact both.waits (keeps c.key c.id wired)
  | some refusal => exact both.conclude c (.refused refusal)

theorem Alike.beginMember_own {w w' : World} (alike : Alike A own w w') (payload : String)
    (sender : Nat) (tag : String) : Alike A own (beginMember payload sender tag w A) w' := by
  unfold World.beginMember
  split
  · exact alike.addResult_own sender _
  · rename_i key found
    exact alike.offer_own rfl (alike.hub.wired.route found) payload .endless

theorem Alike.beginMember {w w' : World} (alike : Alike A own w w') (now : w.now = w'.now)
    (payload : String) (sender : Nat) (tag : String) {id : SessionId} (other : id ≠ A) :
    Alike A own (beginMember payload sender tag w id) (beginMember payload sender tag w' id) := by
  unfold World.beginMember
  rw [← alike.hub.route other]
  split
  · exact alike.addResult sender id _
  · rename_i key found
    exact alike.offer now (alike.hub.wired.route found) other payload .endless

theorem Alike.inGroup {w w' : World} (alike : Alike A own w w') (group : String) :
    ((w.hub.inGroup group).map (·.id)).filter (· != A) =
      ((w'.hub.inGroup group).map (·.id)).filter (· != A) := by
  have others {v : World} : ((v.hub.inGroup group).map (·.id)).filter (· != A) =
      (((v.hub.entries.filter (·.id != A)).filter fun e =>
        (v.hub.lane? e.key).any fun l => l.isLive && l.client.group == group).map (·.id)) := by
    rw [Hub.inGroup, List.filter_map, List.filter_comm]
    rfl
  rw [others, others, ← alike.hub.entries]
  congr 1
  refine List.filter_congr fun e there => ?_
  obtain ⟨there, other⟩ := List.mem_filter.mp there
  rw [alike.hub.lane (Hub.Matches.apart alike.hub.wired there (by simpa using other))]

theorem Alike.beginMembers {w w' : World} (alike : Alike A own w w') (now : w.now = w'.now)
    (payload : String) (sender : Nat) (tag : String) {ids ids' : List SessionId}
    (same : ids.filter (· != A) = ids'.filter (· != A)) :
    Alike A own (ids.foldl (World.beginMember payload sender tag) w)
      (ids'.foldl (World.beginMember payload sender tag) w') := by
  have steady (v : World) (id : SessionId) :=
    (steady_beginMember payload sender tag v id).now
  have members : Alike A own (ids.foldl (World.beginMember payload sender tag) w)
      (ids'.foldl (World.beginMember payload sender tag) w') ∧
      (ids.foldl (World.beginMember payload sender tag) w).now =
        (ids'.foldl (World.beginMember payload sender tag) w').now := by
    refine foldl_related (fun v v' => Alike A own v v' ∧ v.now = v'.now) (· != A) same ?_ ?_ ?_
      ⟨alike, now⟩
    · rintro v v' id _ mine ⟨alike, now⟩
      obtain rfl : id = A := by simpa using mine
      exact ⟨alike.beginMember_own payload sender tag, (steady v id).trans now⟩
    · rintro v v' id _ mine ⟨alike, now⟩
      obtain rfl : id = A := by simpa using mine
      exact ⟨(alike.symm.beginMember_own payload sender tag).symm, now.trans (steady v' id).symm⟩
    · rintro v v' id _ other ⟨alike, now⟩
      refine ⟨alike.beginMember now payload sender tag (by simpa using other), ?_⟩
      calc (World.beginMember payload sender tag v id).now
        _ = v.now := steady v id
        _ = v'.now := now
        _ = (World.beginMember payload sender tag v' id).now := (steady v' id).symm
  exact members.1

theorem lookup_filter {bindings : List (String × Key)} {name : String} (kept : own name = false) :
    (bindings.filter fun b => !own b.1).lookup name = bindings.lookup name := by
  induction bindings with
  | nil => rfl
  | cons b bindings ih =>
    obtain ⟨n, key⟩ := b
    by_cases mine : own n = true
    · have apart : (name == n) = false := by
        rw [beq_eq_false_iff_ne]
        rintro rfl
        simp [mine] at kept
      rw [List.filter_cons_of_neg (by simp [mine]), ih, List.lookup_cons, apart]
    · rw [List.filter_cons_of_pos (by simp [mine]), List.lookup_cons, List.lookup_cons, ih]

theorem named_lookup {h : Hub} {bindings : List (String × Key)} (named : Named A own h bindings)
    {name : String} {key : Key} (found : bindings.lookup name = some key) :
    ∃ id, h.idOf? key = some id ∧ (own name = true ↔ id = A) := by
  obtain ⟨_, _, rfl, _⟩ := List.lookup_eq_some_iff.mp found
  exact named (name, key) (by simp)

theorem Alike.handle {w w' : World} (alike : Alike A own w w') (name : String) :
    ((∀ key, w.handle? name = some key → w.hub.idOf? key = some A) ∧
      ∀ key, w'.handle? name = some key → w'.hub.idOf? key = some A) ∨
    (w.handle? name = w'.handle? name ∧
      ∀ key, w.handle? name = some key → ∃ id, w.hub.idOf? key = some id ∧ id ≠ A) := by
  unfold handle?
  split
  · by_cases mine : (⟨name⟩ : SessionId) = A
    · subst mine
      exact .inl ⟨fun key => alike.hub.wired.lookup, fun key => alike.hub.otherWired.lookup⟩
    · exact .inr ⟨alike.hub.lookup mine, fun key found => ⟨_, alike.hub.wired.lookup found, mine⟩⟩
  · cases mine : own name with
    | true =>
      refine .inl ⟨fun key found => ?_, fun key found => ?_⟩
      · obtain ⟨id, lane, iff⟩ := named_lookup alike.handlesNamed found
        exact iff.mp mine ▸ lane
      · obtain ⟨id, lane, iff⟩ := named_lookup alike.otherHandlesNamed found
        exact iff.mp mine ▸ lane
    | false =>
      refine .inr ⟨?_, fun key found => ?_⟩
      · rw [← lookup_filter mine, alike.handles, lookup_filter mine]
      · obtain ⟨id, lane, iff⟩ := named_lookup alike.handlesNamed found
        exact ⟨id, lane, fun same => by simp [iff.mpr same] at mine⟩

theorem held_own {w : World} {name : String}
    (mine : ∀ key, w.handle? name = some key → w.hub.idOf? key = some A) {id : SessionId} {key : Key}
    (held : w.held? name = some (id, key)) : id = A ∧ w.hub.idOf? key = some A := by
  obtain ⟨k, found, there⟩ := Option.bind_eq_some_iff.mp held
  obtain ⟨i, lane, same⟩ := Option.map_eq_some_iff.mp there
  obtain ⟨rfl, rfl⟩ := Prod.mk.inj same
  have own_lane := mine k found
  rw [lane] at own_lane
  exact ⟨Option.some.inj own_lane, lane.trans own_lane⟩

theorem held_wired {w : World} {name : String} {id : SessionId} {key : Key}
    (held : w.held? name = some (id, key)) :
    w.handle? name = some key ∧ w.hub.idOf? key = some id := by
  obtain ⟨k, found, there⟩ := Option.bind_eq_some_iff.mp held
  obtain ⟨i, lane, same⟩ := Option.map_eq_some_iff.mp there
  obtain ⟨rfl, rfl⟩ := Prod.mk.inj same
  exact ⟨found, lane⟩

theorem Alike.held {w w' : World} (alike : Alike A own w w') {name : String}
    (same : w.handle? name = w'.handle? name) : w.held? name = w'.held? name := by
  simp only [held?, same, alike.hub.idOf]

/-- A send to a session of the id is not seen once it is counted. -/
theorem Alike.begin_own {w w' : World} (alike : Alike A own { w with sends := w.sends + 1 } w')
    {s : Send} (mine : s.address = .id A ∨ ∃ name, s.address = .handle name ∧
      ∀ key, w.handle? name = some key → w.hub.idOf? key = some A) :
    Alike A own (w.begin s) w' := by
  have started : Alike A own { w with sends := w.sends + 1, tags := w.tags ++ [s.tag] } w' :=
    { alike with }
  unfold World.begin
  rcases mine with address | ⟨name, address, mine⟩
  · simp only [address]
    split
    · exact started.finish_own s.tag (by simp) _
    · rename_i key found
      exact started.offer_own rfl (alike.hub.wired.route found) _ _
  · simp only [address]
    split
    · exact alike.finish_own s.tag rfl _
    · rename_i id key held
      obtain ⟨rfl, lane⟩ := held_own mine held
      exact started.offer_own rfl lane _ _

theorem Alike.begin {w w' : World} (alike : Alike A own w w') (now : w.now = w'.now) (s : Send) :
    Alike A own (w.begin s) (w'.begin s) := by
  have counted : Alike A own { w with sends := w.sends + 1 } { w' with sends := w'.sends + 1 } :=
    { alike with sends := congrArg (· + 1) alike.sends }
  have started : Alike A own { w with sends := w.sends + 1, tags := w.tags ++ [s.tag] }
      { w' with sends := w'.sends + 1, tags := w'.tags ++ [s.tag] } := { counted with }
  have deadline : s.timeout.map (w'.now + ·) = s.timeout.map (w.now + ·) := by rw [now]
  have call (id : SessionId) (key : Key) (addressee : Addressee) :
      (⟨w'.sends, s.tag, id, key, addressee⟩ : Call) = ⟨w.sends, s.tag, id, key, addressee⟩ := by
    rw [alike.sends]
  have unseen (mine : s.address = .id A ∨ ∃ name, s.address = .handle name ∧
        ∀ key, w.handle? name = some key → w.hub.idOf? key = some A)
      (mine' : s.address = .id A ∨ ∃ name, s.address = .handle name ∧
        ∀ key, w'.handle? name = some key → w'.hub.idOf? key = some A) :
      Alike A own (w.begin s) (w'.begin s) :=
    ((counted.begin_own mine).symm.begin_own mine').symm
  cases address : s.address with
  | nowhere =>
    simp only [World.begin, address]
    exact started.finish s.tag none .sent
  | handle name =>
    rcases alike.handle name with ⟨mine, mine'⟩ | ⟨same, other⟩
    · exact unseen (.inr ⟨name, address, mine⟩) (.inr ⟨name, address, mine'⟩)
    · simp only [World.begin, address, ← counted.held same]
      split
      · exact counted.finish s.tag none .noHandle
      · rename_i id key held
        obtain ⟨found, wired⟩ := held_wired held
        obtain ⟨i, lane, apart⟩ := other key found
        obtain rfl : i = id := Option.some.inj (lane.symm.trans wired)
        rw [call, deadline]
        exact started.offer now wired apart _ _
  | id id =>
    by_cases mine : id = A
    · exact unseen (.inl (mine ▸ address)) (.inl (mine ▸ address))
    · simp only [World.begin, address, ← alike.hub.route mine]
      split
      · exact started.finish s.tag (some id) _
      · rename_i key found
        rw [call, deadline]
        exact started.offer now (alike.hub.wired.route found) mine _ _
  | group group =>
    have gathered (sender : Nat) : Alike A own
        { w with
          sends := sender + 1
          tags := w.tags ++ [s.tag]
          gatherings := w.gatherings ++ [⟨sender, s.tag, [], false⟩] }
        { w' with
          sends := sender + 1
          tags := w'.tags ++ [s.tag]
          gatherings := w'.gatherings ++ [⟨sender, s.tag, [], false⟩] } := by
      refine { alike with sends := rfl, gatherings := ?_ }
      simp only [List.map_append, alike.gatherings]
    simp only [World.begin, address, ← alike.sends]
    exact ((gathered w.sends).beginMembers now s.message.encode w.sends s.tag
      (alike.inGroup group)).gather w.sends

theorem Alike.forget {w w' : World} (alike : Alike A own w w') (tag : String) :
    Alike A own ((w.calls.filter (·.tag == tag)).foldl giveUp w)
        ((w'.calls.filter (·.tag == tag)).foldl giveUp w') ∧
      ((w.calls.filter (·.tag == tag)).foldl giveUp w).calls = w.calls ∧
      ((w'.calls.filter (·.tag == tag)).foldl giveUp w').calls = w'.calls := by
  refine foldl_related
    (fun v v' : World => Alike A own v v' ∧ v.calls = w.calls ∧ v'.calls = w'.calls) (·.id != A)
    (by rw [List.filter_comm, alike.calls, List.filter_comm]) ?_ ?_ ?_ ⟨alike, rfl, rfl⟩
  · rintro v v' c there mine ⟨alike, calls, calls'⟩
    have wired := alike.callsWired c (calls ▸ List.mem_of_mem_filter there)
    have own_call : c.id = A := by simpa using mine
    exact ⟨alike.modify_own (own_call ▸ wired) _ fun _ _ => rfl, calls, calls'⟩
  · rintro v v' c there mine ⟨alike, calls, calls'⟩
    have wired := alike.otherCallsWired c (calls' ▸ List.mem_of_mem_filter there)
    have own_call : c.id = A := by simpa using mine
    have right := alike.symm.modify_own (own_call ▸ wired)
      (fun l => { l with session := l.session.forget (.sender c.sender) }) fun _ _ => rfl
    exact ⟨right.symm, calls, calls'⟩
  · rintro v v' c _ _ ⟨alike, calls, calls'⟩
    exact ⟨alike.modify c.key _ fun _ => rfl, calls, calls'⟩

theorem Alike.abort {w w' : World} (alike : Alike A own w w') (tag : String) :
    Alike A own (w.abort tag) (w'.abort tag) := by
  obtain ⟨left, _, _⟩ := alike.forget tag
  have others (gs : List Gathering) : (gs.filter (·.tag != tag)).map (·.others A) =
      (gs.map (·.others A)).filter (·.2.1 != tag) := by
    rw [List.filter_map]
    rfl
  have kept := left.calls_both (·.tag != tag)
  refine { kept with
    gatherings := ?_
    watches := ?_
    watchesWired := left.watchesWired.sublist List.filter_sublist
    otherWatchesWired := left.otherWatchesWired.sublist List.filter_sublist }
  · simp only [World.abort, others, left.gatherings]
  · simp only [World.abort]
    rw [List.filter_comm, left.watches, List.filter_comm]

theorem Alike.cancelIn_own {w w' : World} (alike : Alike A own w w') (token : String) {key : Key}
    (mine : w'.hub.idOf? key = some A) : Alike A own (cancelIn token w key) w' := by
  unfold World.cancelIn
  split
  · exact alike
  · refine List.foldlRecOn (motive := fun v => Alike A own v w') _ _ alike fun v alike q _ => ?_
    have lane_own : v.hub.idOf? key = some A := (alike.hub.idOf key).trans mine
    cases lane : v.hub.lane? key with
    | none => exact alike
    | some l =>
      exact alike.update_own lane (by simpa [Hub.idOf_of_lane lane] using lane_own) rfl

theorem Alike.cancelIn {w w' : World} (alike : Alike A own w w') (token : String) {key : Key}
    (other : w.hub.idOf? key ≠ some A) :
    Alike A own (cancelIn token w key) (cancelIn token w' key) := by
  unfold World.cancelIn
  rw [← alike.hub.lane other]
  split
  · exact alike
  · refine And.left (foldl_related
      (fun v v' : World => Alike A own v v' ∧ v.hub.idOf? key ≠ some A) (fun _ => true) rfl
      (by simp) (by simp) ?_ ⟨alike, other⟩)
    rintro v v' q _ _ ⟨alike, other⟩
    rw [← alike.hub.lane other]
    cases lane : v.hub.lane? key with
    | none => exact ⟨alike, other⟩
    | some l =>
      have apart : l.id ≠ A := by simpa [Hub.idOf_of_lane lane] using other
      have same : (l.lapse q.parcel.caller).1.id = l.id := rfl
      have kept := update_keeps alike.alone lane same key l.id (Hub.idOf_of_lane lane)
      refine ⟨alike.update lane apart same, ?_⟩
      rw [kept]
      simpa using apart

theorem Alike.cancel {w w' : World} (alike : Alike A own w w') (token : String) :
    Alike A own (w.cancel token) (w'.cancel token) := by
  have noted : Alike A own { w with cancelled := token :: w.cancelled }
      { w' with cancelled := token :: w'.cancelled } :=
    { alike with cancelled := congrArg (token :: ·) alike.cancelled }
  unfold World.cancel
  simp only [← alike.hub.length]
  generalize List.range w.hub.lanes.length = keys
  refine foldl_related (Alike A own) (fun _ => true) rfl (by simp) (by simp) ?_ noted
  intro v v' key _ _ alike
  by_cases mine : v.hub.idOf? key = some A
  · have mine' := (alike.hub.idOf key).symm.trans mine
    have left := alike.cancelIn_own token mine'
    have own : (World.cancelIn token v key).hub.idOf? key = some A :=
      calc _ = v'.hub.idOf? key := left.hub.idOf key
        _ = some A := mine'
    exact (left.symm.cancelIn_own token own).symm
  · exact alike.cancelIn token mine

end Courier.Scenario.World
