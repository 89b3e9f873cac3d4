import Courier.Proofs.Hub.Isolation
import Courier.Proofs.Scenario.Settle

set_option autoImplicit false

namespace Courier.Scenario

/-- The names in `own`, and no others, stand for lanes of the id. -/
def Named (A : SessionId) (own : String → Bool) (h : Hub) (bindings : List (String × Key)) :
    Prop :=
  ∀ b ∈ bindings, ∃ id, h.idOf? b.2 = some id ∧ (own b.1 = true ↔ id = A)

theorem Named.keeps {A : SessionId} {own : String → Bool} {h h' : Hub}
    {bindings : List (String × Key)} (named : Named A own h bindings) (keeps : h.Keeps h') :
    Named A own h' bindings := by
  intro b there
  obtain ⟨id, lane, iff⟩ := named b there
  exact ⟨id, keeps b.2 id lane, iff⟩

/-- A send to a group without the results of an id. -/
def Gathering.others (A : SessionId) (g : Gathering) :
    Nat × String × List (SessionId × Except SendError Nat) :=
  (g.sender, g.tag, g.results.filter (·.1 != A))

def Finish.isOther (A : SessionId) (f : Finish) : Bool := f.about.any (· != A)

namespace World

variable {A : SessionId} {own : String → Bool}

structure Alike (A : SessionId) (own : String → Bool) (w w' : World) : Prop where
  hub : Hub.Alike A w.hub w'.hub
  handles : w.handles.filter (fun b => !own b.1) = w'.handles.filter fun b => !own b.1
  probes : w.probes = w'.probes
  sends : w.sends = w'.sends
  calls : w.calls.filter (·.id != A) = w'.calls.filter (·.id != A)
  gatherings : w.gatherings.map (·.others A) = w'.gatherings.map (·.others A)
  watches : w.watches.filter (·.id != A) = w'.watches.filter (·.id != A)
  cancelled : w.cancelled = w'.cancelled
  sweepers : w.sweepers = w'.sweepers
  finished : w.finished.filter (·.isOther A) = w'.finished.filter (·.isOther A)
  alone : w.visitors = []
  otherAlone : w'.visitors = []
  handlesNamed : Named A own w.hub w.handles
  otherHandlesNamed : Named A own w'.hub w'.handles
  probesNamed : Named A own w.hub w.probes
  callsWired : Hub.Matches Call.key Call.id w.hub w.calls
  otherCallsWired : Hub.Matches Call.key Call.id w'.hub w'.calls
  watchesWired : Hub.Matches Watch.key Watch.id w.hub w.watches
  otherWatchesWired : Hub.Matches Watch.key Watch.id w'.hub w'.watches

theorem Alike.otherProbesNamed {w w' : World} (alike : Alike A own w w') :
    Named A own w'.hub w'.probes := by
  intro b there
  rw [← alike.hub.idOf]
  exact alike.probesNamed b (alike.probes ▸ there)

theorem Alike.symm {w w' : World} (alike : Alike A own w w') : Alike A own w' w where
  hub := alike.hub.symm
  handles := alike.handles.symm
  probes := alike.probes.symm
  sends := alike.sends.symm
  calls := alike.calls.symm
  gatherings := alike.gatherings.symm
  watches := alike.watches.symm
  cancelled := alike.cancelled.symm
  sweepers := alike.sweepers.symm
  finished := alike.finished.symm
  alone := alike.otherAlone
  otherAlone := alike.alone
  handlesNamed := alike.otherHandlesNamed
  otherHandlesNamed := alike.handlesNamed
  probesNamed := alike.otherProbesNamed
  callsWired := alike.otherCallsWired
  otherCallsWired := alike.callsWired
  watchesWired := alike.otherWatchesWired
  otherWatchesWired := alike.watchesWired

theorem Alike.hub_left {w w' : World} (alike : Alike A own w w') {h : Hub}
    (hub : Hub.Alike A h w'.hub) (keeps : w.hub.Keeps h) : Alike A own { w with hub := h } w' :=
  { alike with
    hub
    handlesNamed := alike.handlesNamed.keeps keeps
    probesNamed := alike.probesNamed.keeps keeps
    callsWired := alike.callsWired.keeps keeps
    watchesWired := alike.watchesWired.keeps keeps }

theorem Alike.hub_both {w w' : World} (alike : Alike A own w w') {h h' : Hub}
    (hub : Hub.Alike A h h') (keeps : w.hub.Keeps h) (keeps' : w'.hub.Keeps h') :
    Alike A own { w with hub := h } { w' with hub := h' } :=
  { alike with
    hub
    handlesNamed := alike.handlesNamed.keeps keeps
    otherHandlesNamed := alike.otherHandlesNamed.keeps keeps'
    probesNamed := alike.probesNamed.keeps keeps
    callsWired := alike.callsWired.keeps keeps
    otherCallsWired := alike.otherCallsWired.keeps keeps'
    watchesWired := alike.watchesWired.keeps keeps
    otherWatchesWired := alike.otherWatchesWired.keeps keeps' }

theorem Alike.modify_own {w w' : World} (alike : Alike A own w w') {key : Key}
    (mine : w.hub.idOf? key = some A) (f : Lane → Lane)
    (keeps : ∀ l, w.hub.lane? key = some l → (f l).id = l.id) :
    Alike A own { w with hub := { w.hub with lanes := w.hub.lanes.modify key f } } w' :=
  alike.hub_left (alike.hub.modify_own mine f keeps) (w.hub.keeps_modify key f keeps)

theorem Alike.modify {w w' : World} (alike : Alike A own w w') (key : Key) (f : Lane → Lane)
    (keeps : ∀ l, (f l).id = l.id) :
    Alike A own { w with hub := { w.hub with lanes := w.hub.lanes.modify key f } }
      { w' with hub := { w'.hub with lanes := w'.hub.lanes.modify key f } } :=
  alike.hub_both (alike.hub.modify key f keeps) (w.hub.keeps_modify key f fun l _ => keeps l)
    (w'.hub.keeps_modify key f fun l _ => keeps l)

theorem Alike.finish_own {w w' : World} (alike : Alike A own w w') (tag : String)
    {about : Option SessionId} (unseen : about.any (· != A) = false) (r : Reply) :
    Alike A own (w.finish tag about r) w' := by
  refine { alike with finished := ?_ }
  rw [← alike.finished]
  simp [finish, List.filter_append, Finish.isOther, unseen]

theorem Alike.finish {w w' : World} (alike : Alike A own w w') (tag : String)
    (about : Option SessionId) (r : Reply) :
    Alike A own (w.finish tag about r) (w'.finish tag about r) := by
  refine { alike with finished := ?_ }
  simp only [World.finish, List.filter_append, alike.finished]

theorem Alike.addResult_own {w w' : World} (alike : Alike A own w w') (sender : Nat)
    (r : Except SendError Nat) : Alike A own (w.addResult sender A r) w' := by
  refine { alike with gatherings := ?_ }
  rw [← alike.gatherings]
  simp only [addResult, List.map_map]
  refine List.map_congr_left fun g _ => ?_
  by_cases mine : g.sender = sender
  · simp [Gathering.others, mine]
  · simp [mine]

theorem Alike.addResult {w w' : World} (alike : Alike A own w w') (sender : Nat) (id : SessionId)
    (r : Except SendError Nat) :
    Alike A own (w.addResult sender id r) (w'.addResult sender id r) := by
  have through (gs : List Gathering) : (gs.map fun (g : Gathering) =>
        if g.sender == sender then { g with results := g.results ++ [(id, r)] } else g).map
          (·.others A) =
      (gs.map (·.others A)).map fun o =>
        if o.1 = sender then (o.1, o.2.1, o.2.2 ++ if id = A then [] else [(id, r)]) else o := by
    simp only [List.map_map]
    refine List.map_congr_left fun g _ => ?_
    by_cases mine : g.sender = sender
    · by_cases about : id = A <;> simp [Gathering.others, mine, about]
    · simp [mine, Gathering.others]
  refine { alike with gatherings := ?_ }
  simp only [World.addResult, through, alike.gatherings]

theorem Alike.gather_left {w w' : World} (alike : Alike A own w w') (sender : Nat) :
    Alike A own (w.gather sender) w' := by
  unfold gather
  split
  · exact alike
  · split
    · exact alike
    · rename_i g _
      refine Alike.finish_own ?_ g.tag rfl _
      refine { alike with gatherings := ?_ }
      rw [← alike.gatherings, List.map_map]
      refine List.map_congr_left fun g _ => ?_
      simp only [Function.comp_apply]
      split <;> rfl

theorem Alike.gather {w w' : World} (alike : Alike A own w w') (sender : Nat) :
    Alike A own (w.gather sender) (w'.gather sender) :=
  ((alike.gather_left sender).symm.gather_left sender).symm

theorem conclude_keeps (w : World) (c : Call) (outcome : Outcome) :
    w.hub.Keeps (w.conclude c outcome).hub := by
  have concluded := (w.hub.change_conclude c.id c.key outcome).follows.keeps
  unfold conclude
  cases c.addressee with
  | byHandle =>
    simp only
    split <;> exact .refl _
  | byId =>
    simp only
    split <;> exact concluded
  | member => exact concluded

theorem Alike.conclude_own {w w' : World} (alike : Alike A own w w') {c : Call} (mine : c.id = A)
    (outcome : Outcome) : Alike A own (w.conclude c outcome) w' := by
  have concluded := alike.hub_left (alike.hub.conclude_own c.key outcome)
    (w.hub.change_conclude A c.key outcome).follows.keeps
  unfold conclude
  rw [mine]
  cases c.addressee with
  | byHandle =>
    simp only
    split <;> exact alike.finish_own c.tag (by simp) _
  | byId =>
    simp only
    split <;> exact concluded.finish_own c.tag (by simp) _
  | member => exact concluded.addResult_own c.sender _

theorem Alike.conclude {w w' : World} (alike : Alike A own w w') (c : Call) (outcome : Outcome) :
    Alike A own (w.conclude c outcome) (w'.conclude c outcome) := by
  have concluded := alike.hub_both (alike.hub.conclude c.id c.key outcome)
    (w.hub.change_conclude c.id c.key outcome).follows.keeps
    (w'.hub.change_conclude c.id c.key outcome).follows.keeps
  unfold World.conclude
  cases c.addressee with
  | byHandle =>
    simp only
    split <;> exact alike.finish c.tag _ _
  | byId =>
    simp only [Hub.conclude_snd]
    split <;> exact concluded.finish c.tag _ _
  | member =>
    simp only [Hub.conclude_snd]
    exact concluded.addResult c.sender c.id _

theorem find?_filter_imp {α : Type} {l : List α} {p q : α → Bool}
    (imp : ∀ a ∈ l, p a = true → q a = true) : l.find? p = (l.filter q).find? p := by
  induction l with
  | nil => rfl
  | cons a l ih =>
    have rest := ih fun b there => imp b (List.mem_cons_of_mem a there)
    by_cases on : p a = true
    · simp [on, imp a List.mem_cons_self on]
    · rw [List.find?_cons_of_neg on, rest]
      by_cases kept : q a = true
      · rw [List.filter_cons_of_pos kept, List.find?_cons_of_neg on]
      · rw [List.filter_cons_of_neg kept]

theorem Alike.calls_own {w w' : World} (alike : Alike A own w w') {p : Call → Bool}
    (mine : ∀ c ∈ w.calls, p c = false → c.id = A) :
    Alike A own { w with calls := w.calls.filter p } w' := by
  refine { alike with calls := ?_, callsWired := alike.callsWired.sublist List.filter_sublist }
  rw [← alike.calls, List.filter_filter]
  refine List.filter_congr fun c there => ?_
  cases on : p c with
  | true => simp
  | false => simp [mine c there on]

theorem Alike.calls_both {w w' : World} (alike : Alike A own w w') (p : Call → Bool) :
    Alike A own { w with calls := w.calls.filter p } { w' with calls := w'.calls.filter p } := by
  refine { alike with
    calls := ?_
    callsWired := alike.callsWired.sublist List.filter_sublist
    otherCallsWired := alike.otherCallsWired.sublist List.filter_sublist }
  simp only
  rw [List.filter_comm, alike.calls, List.filter_comm]

theorem deliver_keeps {w : World} (alone : w.visitors = []) (key : Key) (n : Notice) :
    w.hub.Keeps (w.deliver key n).hub := by
  unfold deliver
  cases n.caller with
  | sender sender =>
    simp only
    split
    · rename_i c _
      rw [hub_gather]
      exact conclude_keeps { w with calls := w.calls.filter fun c =>
        !(c.sender == sender && c.key == key) } c n.outcome
    · exact .refl _
  | connection name =>
    simp only [visitor?, alone]
    exact .refl _

theorem Alike.deliver_own {w w' : World} (alike : Alike A own w w') {key : Key}
    (mine : w'.hub.idOf? key = some A) (n : Notice) : Alike A own (w.deliver key n) w' := by
  rw [← alike.hub.idOf] at mine
  unfold deliver
  cases n.caller with
  | sender sender =>
    simp only
    split
    · rename_i c found
      have meant := List.find?_some found
      simp only [Bool.and_eq_true, beq_iff_eq] at meant
      have there := alike.callsWired c (List.mem_of_find?_eq_some found)
      have own_call : c.id = A := by
        rw [meant.2, mine] at there
        exact (Option.some.inj there).symm
      refine Alike.gather_left ?_ sender
      refine Alike.conclude_own ?_ own_call n.outcome
      refine alike.calls_own fun d member dropped => ?_
      have wired := alike.callsWired d member
      simp only [Bool.not_eq_false', Bool.and_eq_true, beq_iff_eq] at dropped
      rw [dropped.2, mine] at wired
      exact (Option.some.inj wired).symm
    · exact alike
  | connection name =>
    simp only [visitor?, alike.alone]
    exact alike

theorem Alike.deliver {w w' : World} (alike : Alike A own w w') {key : Key} {id : SessionId}
    (lane : w.hub.idOf? key = some id) (other : id ≠ A) (n : Notice) :
    Alike A own (w.deliver key n) (w'.deliver key n) := by
  unfold World.deliver
  cases n.caller with
  | sender sender =>
    have meant {v : World} (wired : Hub.Matches Call.key Call.id v.hub v.calls)
        (at_key : v.hub.idOf? key = some id) :
        (v.calls.find? fun c => c.sender == sender && c.key == key) =
          (v.calls.filter (·.id != A)).find? fun c => c.sender == sender && c.key == key := by
      refine find?_filter_imp fun c there on => ?_
      simp only [Bool.and_eq_true, beq_iff_eq] at on
      have same := wired c there
      rw [on.2, at_key, Option.some.injEq] at same
      simpa [← same] using other
    have same : (w.calls.find? fun c => c.sender == sender && c.key == key) =
        w'.calls.find? fun c => c.sender == sender && c.key == key := by
      rw [meant alike.callsWired lane, alike.calls,
        ← meant alike.otherCallsWired ((alike.hub.idOf key).symm.trans lane)]
    simp only
    rw [same]
    split
    · exact ((alike.calls_both _).conclude _ n.outcome).gather sender
    · exact alike
  | connection name =>
    simp only [visitor?, alike.alone, alike.otherAlone]
    exact alike

theorem Alike.deliverAll_own {w w' : World} (alike : Alike A own w w') {key : Key}
    (mine : w'.hub.idOf? key = some A) (notices : List Notice) :
    Alike A own (w.deliverAll key notices) w' :=
  List.foldlRecOn (motive := fun v => Alike A own v w') notices _ alike
    fun _ alike n _ => alike.deliver_own mine n

theorem Alike.deliverAll {w w' : World} (alike : Alike A own w w') {key : Key} {id : SessionId}
    (lane : w.hub.idOf? key = some id) (other : id ≠ A) (notices : List Notice) :
    Alike A own (w.deliverAll key notices) (w'.deliverAll key notices) := by
  unfold World.deliverAll
  induction notices generalizing w w' with
  | nil => exact alike
  | cons n notices ih =>
    exact ih (alike.deliver lane other n) (deliver_keeps alike.alone key n key id lane)

theorem deliverAll_keeps {w : World} (alone : w.visitors = []) (key : Key) (notices : List Notice) :
    w.hub.Keeps (w.deliverAll key notices).hub := by
  unfold deliverAll
  induction notices generalizing w with
  | nil => exact .refl _
  | cons n notices ih =>
    exact (deliver_keeps alone key n).trans (ih ((told_deliver alone key n).visitors.trans alone))

theorem same_id {h : Hub} {key : Key} {l l' : Lane} (lane : h.lane? key = some l)
    (same : l'.id = l.id) : ∀ k, h.lane? key = some k → l'.id = k.id := by
  intro k there
  rw [lane, Option.some.injEq] at there
  exact there ▸ same

theorem setLane_keeps {h : Hub} {key : Key} {l : Lane}
    (keeps : ∀ k, h.lane? key = some k → l.id = k.id) : h.Keeps (h.setLane key l) := by
  rw [Hub.setLane_eq]
  exact h.keeps_modify key _ keeps

theorem update_keeps {w : World} (alone : w.visitors = []) {key : Key} {l : Lane}
    (lane : w.hub.lane? key = some l) {moved : Lane × List Notice} (same : moved.1.id = l.id) :
    w.hub.Keeps (w.update key moved).hub :=
  (setLane_keeps (same_id lane same)).trans
    (deliverAll_keeps (w := { w with hub := w.hub.setLane key moved.1 }) alone key moved.2)

theorem Alike.update_own {w w' : World} (alike : Alike A own w w') {key : Key} {l : Lane}
    (lane : w.hub.lane? key = some l) (mine : l.id = A) {moved : Lane × List Notice}
    (same : moved.1.id = l.id) : Alike A own (w.update key moved) w' := by
  have keeps := same_id lane same
  have at_key : w.hub.idOf? key = some A := mine ▸ Hub.idOf_of_lane lane
  refine Alike.deliverAll_own ?_ ((alike.hub.idOf key).symm.trans at_key) moved.2
  rw [Hub.setLane_eq]
  exact alike.modify_own at_key _ keeps

theorem Alike.update {w w' : World} (alike : Alike A own w w') {key : Key} {l : Lane}
    (lane : w.hub.lane? key = some l) (other : l.id ≠ A) {moved : Lane × List Notice}
    (same : moved.1.id = l.id) : Alike A own (w.update key moved) (w'.update key moved) := by
  have at_key : w.hub.idOf? key = some l.id := Hub.idOf_of_lane lane
  have apart : w.hub.idOf? key ≠ some A := by simpa [at_key] using other
  have keeps := same_id lane same
  have keeps' : ∀ k, w'.hub.lane? key = some k → moved.1.id = k.id := by
    rw [← alike.hub.lane apart]
    exact keeps
  have set := alike.hub_both (alike.hub.setLane apart moved.1 keeps) (setLane_keeps keeps)
    (setLane_keeps keeps')
  exact set.deliverAll (setLane_keeps keeps key l.id at_key) other moved.2

end World

end Courier.Scenario
