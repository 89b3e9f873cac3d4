import Courier.Proofs.Scenario.Holding
import Courier.Proofs.Scenario.Rules

set_option autoImplicit false

namespace Courier

def Outcome.IsLate (o : Outcome) : Prop := o = .refused .lapsed ∨ o = .refused .full

namespace Scenario

def Reply.IsLate (r : Reply) : Prop :=
  ∃ id, r = .error (.timeout id) ∨ r = .error (.backpressure id)

/-- What calls, gatherings and waits may bear. -/
structure Labels where
  call : Nat → String → Prop
  gathering : Nat → String → Prop
  watch : String → Prop

def Labels.owned (n : Nat) (tag : String) : Labels where
  call m t := t = tag ↔ m = n
  gathering m t := m ≠ n ∧ t ≠ tag
  watch t := t ≠ tag

def Labels.earlier (n : Nat) (tag : String) : Labels where
  call m t := m < n ∧ t ≠ tag
  gathering m t := m < n ∧ t ≠ tag
  watch t := t ≠ tag

namespace World

theorem sends_begin (w : World) (s : Send) : (w.begin s).sends = w.sends + 1 :=
  (comes_begin (r := .free False) trivial s).sends

theorem sends_foldl (sends : List Send) (w : World) :
    (sends.foldl begin w).sends = w.sends + sends.length := by
  induction sends generalizing w with
  | nil => rfl
  | cons s sends ih =>
    rw [List.foldl_cons, ih, sends_begin, List.length_cons]
    omega

theorem sends_perform {w : World} (sane : w.Sane) (settled : w.next? = none) {s : Step}
    (apart : s.connects = false) : (w.perform s).1.sends = w.sends + s.begun := by
  have stirs := stirs sane settled apart
  generalize (w.perform s).1 = v at stirs ⊢
  cases stirs with
  | idles silent idles => rw [idles.sends, silent, Nat.add_zero]
  | narrows silent narrows => rw [narrows.sends, silent, Nat.add_zero]
  | watches => rfl
  | sends sends => exact sends_foldl sends w

theorem tags_begin (w : World) (s : Send) : ∀ t ∈ (w.begin s).tags, t ∈ w.tags ∨ t = s.tag :=
  w.begin_induct s (P := fun v => ∀ t ∈ v.tags, t ∈ w.tags ∨ t = s.tag) (fun _ new => new)
    (fun _ before => before) (fun _ _ _ before => before)
    (fun v c payload patience _ _ _ before => (v.narrows_offer c payload patience).tags ▸ before)
    (fun _ _ _ before => before) fun v before => (narrows_gather v w.sends).tags ▸ before

theorem tags_foldl (sends : List Send) (w : World) :
    ∀ t ∈ (sends.foldl begin w).tags, t ∈ w.tags ∨ t ∈ sends.map (·.tag) := by
  induction sends generalizing w with
  | nil => exact fun t there => .inl there
  | cons s sends ih =>
    intro t there
    rcases ih (w.begin s) t there with begun | later
    · refine (w.tags_begin s t begun).imp_right fun same => ?_
      rw [same]
      exact List.mem_cons_self
    · exact .inr (List.mem_cons_of_mem _ later)

theorem tags_perform {w : World} (sane : w.Sane) (settled : w.next? = none) {s : Step}
    (apart : s.connects = false) : ∀ t ∈ (w.perform s).1.tags, t ∈ w.tags ∨ t ∈ s.tags := by
  have stirs := stirs sane settled apart
  generalize (w.perform s).1 = v at stirs ⊢
  cases stirs with
  | idles _ idles => exact fun t there => .inl (idles.tags ▸ there)
  | narrows _ narrows => exact fun t there => .inl (narrows.tags ▸ there)
  | watches => exact fun t there => List.mem_append.mp there
  | sends sends => exact tags_foldl sends w

structure Bears (L : Labels) (w : World) : Prop where
  calls : ∀ c ∈ w.calls, L.call c.sender c.tag
  gatherings : ∀ g ∈ w.gatherings, L.gathering g.sender g.tag
  watches : ∀ v ∈ w.watches, L.watch v.tag

variable {L : Labels} {w w' : World}

theorem Bears.narrows (bears : w.Bears L) (narrows : Narrows w w') : w'.Bears L where
  calls c there := bears.calls c (narrows.calls c there)
  gatherings g there := by
    obtain ⟨g₀, there₀, sender, tag⟩ := narrows.gatherings g there
    rw [sender, tag]
    exact bears.gatherings g₀ there₀
  watches v there := bears.watches v (narrows.watches v there)

theorem Bears.idles (bears : w.Bears L) (idles : Idles w w') : w'.Bears L :=
  ⟨idles.calls ▸ bears.calls, idles.gatherings ▸ bears.gatherings, idles.watches ▸ bears.watches⟩

theorem Bears.begins (bears : w.Bears L) {n : Nat} {tag : String} (begins : Begins n tag w w')
    (call : L.call n tag) (gathering : L.gathering n tag) : w'.Bears L := by
  induction begins with
  | counts => exact { bears with }
  | call sender label held =>
    refine { bears with calls := fun d there => ?_ }
    rcases List.mem_append.mp there with there | there
    · exact bears.calls d there
    · obtain rfl := List.mem_singleton.mp there
      exact sender ▸ label ▸ call
  | gathering =>
    refine { bears with gatherings := fun g there => ?_ }
    rcases List.mem_append.mp there with there | there
    · exact bears.gatherings g there
    · obtain rfl := List.mem_singleton.mp there
      exact gathering
  | narrows narrows => exact bears.narrows narrows
  | trans _ _ first second => exact second (first bears)

theorem Bears.offer (bears : w.Bears L) {c : Call} (call : L.call c.sender c.tag) (payload : String)
    (patience : Patience) : (w.offer c payload patience).Bears L := by
  have waits : Bears L { w with calls := w.calls ++ [c] } := by
    refine { bears with calls := fun d there => ?_ }
    rcases List.mem_append.mp there with there | there
    · exact bears.calls d there
    · obtain rfl := List.mem_singleton.mp there
      exact call
  exact waits.narrows (w.narrows_offer c payload patience)

theorem Bears.beginMember (bears : w.Bears L) {n : Nat} {tag : String} (call : L.call n tag)
    (payload : String) (id : SessionId) : (beginMember payload n tag w id).Bears L := by
  unfold World.beginMember
  split
  · exact bears.narrows (narrows_addResult _ _ _ _)
  · exact bears.offer call _ _

theorem Bears.sends (bears : w.Bears L) {sends : List Send}
    (fits : ∀ s ∈ sends, ∀ m, w.sends ≤ m → m < w.sends + sends.length →
      L.call m s.tag ∧ L.gathering m s.tag) : (sends.foldl begin w).Bears L := by
  induction sends generalizing w with
  | nil => exact bears
  | cons s sends ih =>
    obtain ⟨call, gathering⟩ := fits s List.mem_cons_self w.sends (Nat.le_refl _) (by simp)
    refine ih (bears.begins (begins_begin w s) call gathering) fun t there m after before => ?_
    rw [sends_begin] at after before
    refine fits t (List.mem_cons_of_mem _ there) m ?_ ?_
    · omega
    · rw [List.length_cons]
      omega

/-- What begins with a step bears the tags of the step. -/
theorem Bears.perform (bears : w.Bears L) (sane : w.Sane) (settled : w.next? = none) {s : Step}
    (apart : s.connects = false)
    (fits : ∀ t ∈ s.tags, L.watch t ∧ ∀ m, w.sends ≤ m → m < w.sends + s.begun →
      L.call m t ∧ L.gathering m t) : (w.perform s).1.Bears L := by
  have stirs := stirs sane settled apart
  generalize (w.perform s).1 = v at stirs ⊢
  cases stirs with
  | idles _ idles => exact bears.idles idles
  | narrows _ narrows => exact bears.narrows narrows
  | watches tag =>
    refine { bears with watches := fun v there => ?_ }
    rcases List.mem_append.mp there with there | there
    · exact bears.watches v there
    · obtain rfl := List.mem_singleton.mp there
      exact (fits tag List.mem_cons_self).1
  | sends sends => exact bears.sends fun s there => (fits s.tag (List.mem_map_of_mem there)).2

theorem isLate_answer {id : SessionId} {o : Outcome} {e : SendError}
    (answer : Hub.answer id o = .error e) (late : Reply.IsLate (.error e)) : o.IsLate := by
  obtain ⟨why, same⟩ := late
  simp only [Reply.error.injEq] at same
  unfold Hub.answer at answer
  split at answer
  · simp at answer
  · obtain rfl := Except.error.inj answer
    simp [SendError.ofFault] at same
  · exact .inr rfl
  · exact .inl rfl

theorem answer_conclude {h : Hub} {id : SessionId} {key : Key} {o : Outcome} {e : SendError}
    (concluded : (h.conclude id key o).2 = .error e) : Hub.answer id o = .error e := by
  unfold Hub.conclude at concluded
  split at concluded
  · simp at concluded
  · rename_i found
    rw [found]
    exact concluded

theorem finished_conclude (w : World) (c : Call) (o : Outcome) :
    ∃ fs, (w.conclude c o).finished = w.finished ++ fs ∧
      ∀ f ∈ fs, f.tag = c.tag ∧ (f.reply.IsLate → o.IsLate) := by
  unfold conclude
  cases c.addressee with
  | byHandle =>
    cases answer : Hub.answer c.id o with
    | ok n => exact ⟨_, rfl, by simp [Reply.IsLate]⟩
    | error e => exact ⟨_, rfl, by simpa using isLate_answer answer⟩
  | byId =>
    cases concluded : (w.hub.conclude c.id c.key o).2 with
    | ok n => simp only [concluded]; exact ⟨_, rfl, by simp [Reply.IsLate]⟩
    | error e =>
      simp only [concluded]
      exact ⟨_, rfl, by simpa using isLate_answer (answer_conclude concluded)⟩
  | member => exact ⟨[], (List.append_nil _).symm, by simp⟩

theorem finished_gather (w : World) (sender : Nat) :
    ∃ fs, (w.gather sender).finished = w.finished ++ fs ∧
      ∀ f ∈ fs, ∃ g ∈ w.gatherings, f.tag = g.tag := by
  unfold gather
  split
  · exact ⟨[], (List.append_nil _).symm, by simp⟩
  · split
    · exact ⟨[], (List.append_nil _).symm, by simp⟩
    · rename_i g found
      exact ⟨_, rfl, by simpa using ⟨g, List.mem_of_find?_eq_some found, rfl⟩⟩

theorem finished_offer (w : World) (c : Call) (payload : String) (patience : Patience) :
    ∃ fs, (w.offer c payload patience).finished = w.finished ++ fs ∧ ∀ f ∈ fs, f.tag = c.tag := by
  unfold offer
  simp only
  split
  · exact ⟨[], (List.append_nil _).symm, by simp⟩
  · rename_i hub why _
    obtain ⟨fs, same, tags⟩ := finished_conclude { w with hub } c (.refused why)
    exact ⟨fs, same, fun f there => (tags f there).1⟩

def Spared (tag : String) (w : World) : Prop := ∀ f ∈ w.finished, f.tag = tag → ¬f.reply.IsLate

variable {n : Nat} {tag : String}

theorem Spared.more (spared : w.Spared tag) {fs : List Finish} (same : w'.finished = w.finished ++ fs)
    (fine : ∀ f ∈ fs, f.tag = tag → ¬f.reply.IsLate) : w'.Spared tag := by
  intro f there
  rw [same] at there
  exact (List.mem_append.mp there).elim (spared f) (fine f)

theorem Spared.gather (spared : w.Spared tag) (others : ∀ g ∈ w.gatherings, g.tag ≠ tag)
    (sender : Nat) : (w.gather sender).Spared tag := by
  obtain ⟨fs, same, tags⟩ := w.finished_gather sender
  refine spared.more same fun f there own => ?_
  obtain ⟨g, at_g, label⟩ := tags f there
  exact absurd (label.symm.trans own) (others g at_g)

theorem Spared.deliver (spared : w.Spared tag) (alone : w.visitors = [])
    (bears : w.Bears (.owned n tag)) (key : Key) {m : Notice}
    (early : m.caller = .sender n → ¬m.outcome.IsLate) : (w.deliver key m).Spared tag := by
  unfold World.deliver
  cases caller : m.caller with
  | connection name =>
    simp only [visitor?, alone]
    exact spared
  | sender sender =>
    simp only
    split
    · rename_i c found
      obtain ⟨fs, same, tags⟩ := finished_conclude { w with
        calls := w.calls.filter fun c => !(c.sender == sender && c.key == key) } c m.outcome
      refine Spared.gather (spared.more same fun f there own late => ?_) ?_ sender
      · have number : c.sender = n :=
          (bears.calls c (List.mem_of_find?_eq_some found)).mp ((tags f there).1.symm.trans own)
        have meant := List.find?_some found
        simp only [Bool.and_eq_true, beq_iff_eq] at meant
        exact early (by rw [caller, ← meant.1, number]) ((tags f there).2 late)
      · have narrows := (w.narrows_calls fun c => !(c.sender == sender && c.key == key)).trans
          (narrows_conclude _ c m.outcome)
        exact fun g there => ((bears.narrows narrows).gatherings g there).2
    · exact spared

theorem Spared.deliverAll (spared : w.Spared tag) (alone : w.visitors = [])
    (bears : w.Bears (.owned n tag)) (key : Key) {notices : List Notice}
    (early : ∀ m ∈ notices, m.caller = .sender n → ¬m.outcome.IsLate) :
    (w.deliverAll key notices).Spared tag := by
  unfold World.deliverAll
  induction notices generalizing w with
  | nil => exact spared
  | cons m notices ih =>
    have narrows := narrows_deliver alone key m
    exact ih (spared.deliver alone bears key (early m List.mem_cons_self))
      (narrows.visitors.trans alone) (bears.narrows narrows)
      fun m there => early m (List.mem_cons_of_mem _ there)

theorem Spared.update (spared : w.Spared tag) (alone : w.visitors = [])
    (bears : w.Bears (.owned n tag)) (key : Key) {moved : Lane × List Notice}
    (early : ∀ m ∈ moved.2, m.caller = .sender n → ¬m.outcome.IsLate) :
    (w.update key moved).Spared tag :=
  Spared.deliverAll (w := { w with hub := w.hub.setLane key moved.1 }) spared alone { bears with } key
    early

theorem early_moves {l l' : Lane} {told : List Notice}
    (moves : l.Moves Session.Act.IsWriters l' told) : ∀ m ∈ told, ¬m.outcome.IsLate := by
  rintro m there late
  rcases moves.session with ⟨_, silent⟩ | ⟨a, own, acted⟩
  · simp [silent] at there
  · have told : m ∈ (l.session.act a).2 := by rwa [acted]
    rcases late with outcome | outcome <;>
      rcases Session.refused_told told outcome (by simp) with ⟨_, _, _, _, rfl, _⟩ | ⟨_, rfl, _⟩ <;>
        exact own

theorem Spared.make (spared : w.Spared tag) (alone : w.visitors = [])
    (bears : w.Bears (.owned n tag)) {m : Move} (next : w.next? = some m)
    (other : ∀ key, m ≠ .ring (.waiter key (.sender n))) : (w.make m).Spared tag := by
  cases coming_of_next? alone next with
  | @lane key l moved there act =>
    have step : w.laneStep? key = some moved := Option.bind_eq_some_iff.mpr ⟨l, there, act⟩
    simp only [World.make, step]
    exact spared.update alone bears key fun m member _ => early_moves (Lane.act?_moves act) m member
  | @watch v waits =>
    refine Spared.more (w := { w with watches := w.watches.erase v }) spared rfl fun f there own => ?_
    obtain rfl := List.mem_singleton.mp there
    exact absurd own (bears.watches v waits)
  | orphan there unaware => exact spared
  | ring ringsFor due =>
    cases ringsFor with
    | @writer key l there alarm =>
      simp only [World.make, ring, there]
      exact spared.update alone bears key fun m member _ => early_moves (l.ring_moves w.now) m member
    | @waiter key l v there waits =>
      simp only [World.make, ring, there]
      refine spared.update alone bears key fun m member own => ?_
      obtain rfl := List.mem_singleton.mp member
      exact absurd (congrArg (fun c => Move.ring (.waiter key c)) own) (other key)
    | sweeper there at_i same =>
      simp only [World.make, ring]
      split <;> exact spared

theorem Spared.begin (spared : w.Spared tag) (bears : w.Bears (.owned n tag)) {s : Send}
    (other : w.sends ≠ n) (named : s.tag ≠ tag) : (w.begin s).Spared tag := by
  have fits : Labels.call (.owned n tag) w.sends s.tag ∧ Labels.gathering (.owned n tag) w.sends s.tag :=
    ⟨iff_of_false named other, other, named⟩
  refine (w.begin_induct s (P := fun v => v.Spared tag ∧ v.Bears (.owned n tag))
    (fun _ _ => ⟨spared, { bears with }⟩) ?_ ?_ ?_ ?_ ?_).1
  · exact fun v before => ⟨before.1, before.2.begins (.gathering v) fits.1 fits.2⟩
  · refine fun v about reply before => ⟨before.1.more rfl fun f there own => ?_, { before.2 with }⟩
    obtain rfl := List.mem_singleton.mp there
    exact absurd own named
  · refine fun v c payload patience sender label held before => ⟨?_, ?_⟩
    · obtain ⟨fs, same, tags⟩ := v.finished_offer c payload patience
      refine before.1.more same fun f there own => absurd ?_ named
      calc s.tag
        _ = c.tag := label.symm
        _ = f.tag := (tags f there).symm
        _ = tag := own
    · exact (before.2.begins (.call sender label held) fits.1 fits.2).narrows
        (v.narrows_offer c payload patience)
  · exact fun v id result before => ⟨before.1, before.2.narrows (narrows_addResult _ _ _ _)⟩
  · exact fun v before => ⟨before.1.gather (fun g there => (before.2.gatherings g there).2) _,
      before.2.narrows (narrows_gather _ _)⟩

end World

end Scenario

end Courier
