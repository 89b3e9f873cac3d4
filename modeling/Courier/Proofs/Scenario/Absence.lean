import Courier.Proofs.Hub.Absence
import Courier.Proofs.Scenario.Moves
import Courier.Proofs.Scenario.Waiting

set_option autoImplicit false

namespace Courier

/-- The number of a sender if the `n`-th had not begun. -/
def fewer (n m : Nat) : Nat := if n < m then m - 1 else m

theorem fewer_inj {n a b : Nat} (first : a ≠ n) (second : b ≠ n) : fewer n a = fewer n b ↔ a = b := by
  unfold fewer
  split <;> split <;> omega

theorem fewer_beq {n a b : Nat} (first : a ≠ n) (second : b ≠ n) :
    (fewer n a == fewer n b) = (a == b) := by
  rw [Bool.eq_iff_iff, beq_iff_eq, beq_iff_eq, fewer_inj first second]

def Omission.sender (n : Nat) : Omission where
  gone := .sender n
  name
    | .sender m => .sender (fewer n m)
    | .connection name => .connection name
  distinct := by
    intro c d other other' same
    cases c with
    | connection name => cases d <;> simp_all
    | sender a =>
      cases d with
      | connection name => simp at same
      | sender b =>
        have apart : a ≠ n := fun own => other (own ▸ rfl)
        have apart' : b ≠ n := fun own => other' (own ▸ rfl)
        rw [Caller.sender.injEq, fewer_inj apart apart'] at same
        exact same ▸ rfl

namespace Scenario

def Call.without (n : Nat) (c : Call) : Call := { c with sender := fewer n c.sender }

def Gathering.without (n : Nat) (g : Gathering) : Gathering := { g with sender := fewer n g.sender }

namespace World

def without (n : Nat) (tag : String) (left : Key → Bool) (w : World) : World :=
  { w with
    hub := w.hub.without (.sender n) left
    sends := w.sends - 1
    calls := (w.calls.filter (·.sender != n)).map (·.without n)
    gatherings := w.gatherings.map (·.without n)
    tags := w.tags.filter (· != tag)
    finished := w.finished.filter (·.tag != tag) }

variable {n : Nat} {tag : String} {left : Key → Bool} {w : World}

theorem finish_without {t : String} (other : t ≠ tag) (about : Option SessionId) (reply : Reply) :
    (w.finish t about reply).without n tag left = (w.without n tag left).finish t about reply := by
  simp [finish, without, other]

theorem addResult_without (bears : w.Bears (.owned n tag)) {sender : Nat} (other : sender ≠ n)
    (id : SessionId)
    (result : Except SendError Nat) : (w.addResult sender id result).without n tag left =
      (w.without n tag left).addResult (fewer n sender) id result := by
  simp only [addResult, without, List.map_map, World.mk.injEq, true_and, and_true]
  refine List.map_congr_left fun g there => ?_
  simp only [Function.comp_apply, Gathering.without,
    fewer_beq (bears.gatherings g there).1 other]
  split <;> rfl

theorem any_calls (w : World) (p q : Call → Bool)
    (same : ∀ c ∈ w.calls, c.sender ≠ n → q (c.without n) = p c)
    (none : ∀ c ∈ w.calls, c.sender = n → p c = false) :
    ((w.calls.filter (·.sender != n)).map (·.without n)).any q = w.calls.any p := by
  rw [List.any_map, List.any_filter, Bool.eq_iff_iff, List.any_eq_true, List.any_eq_true]
  constructor
  · rintro ⟨c, there, on⟩
    simp only [Function.comp_apply, Bool.and_eq_true, bne_iff_ne, ne_eq] at on
    exact ⟨c, there, (same c there on.1).symm.trans on.2⟩
  · rintro ⟨c, there, on⟩
    have other : c.sender ≠ n := fun own => by simp [none c there own] at on
    exact ⟨c, there, by simp [other, same c there other, on]⟩

theorem gather_without (bears : w.Bears (.owned n tag)) {sender : Nat} (other : sender ≠ n) :
    (w.gather sender).without n tag left = (w.without n tag left).gather (fewer n sender) := by
  have waits : (w.without n tag left).calls.any (·.sender == fewer n sender) =
      w.calls.any (·.sender == sender) := any_calls w _ _
    (fun c _ apart => fewer_beq apart other) fun c _ own => by simpa [own] using other.symm
  have found : ((w.without n tag left).gatherings.find? fun g =>
      g.sender == fewer n sender && !g.complete) =
      (w.gatherings.find? fun g => g.sender == sender && !g.complete).map (·.without n) := by
    simp only [without, List.find?_map]
    congr 1
    refine find?_congr_mem fun g there => ?_
    simp [Gathering.without, fewer_beq (bears.gatherings g there).1 other]
  unfold gather
  rw [waits, found]
  split
  · rfl
  · cases first : w.gatherings.find? fun g => g.sender == sender && !g.complete with
    | none => rfl
    | some g =>
      have there := List.mem_of_find?_eq_some first
      simp only [Option.map_some]
      rw [finish_without (bears.gatherings g there).2]
      congr 1
      simp only [without, List.map_map, World.mk.injEq, true_and, and_true]
      refine List.map_congr_left fun g there => ?_
      simp only [Function.comp_apply, Gathering.without,
        fewer_beq (bears.gatherings g there).1 other]
      split <;> rfl

theorem conclude_without (bears : w.Bears (.owned n tag)) {c : Call} (other : c.sender ≠ n)
    (named : c.tag ≠ tag)
    (outcome : Outcome) : (w.conclude c outcome).without n tag left =
      (w.without n tag left).conclude (c.without n) outcome := by
  have concluded := Hub.without_conclude (o := .sender n) (q := left) w.hub c.id c.key outcome
  unfold conclude
  rw [show (c.without n).addressee = c.addressee from rfl]
  cases c.addressee with
  | byHandle =>
    simp only [Call.without]
    split <;> exact finish_without named _ _
  | byId =>
    simp only [Call.without, without, concluded]
    split <;> exact finish_without named _ _
  | member =>
    simp only [Call.without, without, concluded]
    exact addResult_without (w := { w with hub := (w.hub.conclude c.id c.key outcome).1 }) { bears with }
      other c.id _

theorem deliver_without (alone : w.visitors = []) (bears : w.Bears (.owned n tag)) (key : Key)
    {m : Notice}
    (other : m.caller ≠ .sender n) : (w.deliver key m).without n tag left =
      (w.without n tag left).deliver key (m.without (.sender n)) := by
  unfold deliver
  cases caller : m.caller with
  | connection name => simp [Notice.without, Omission.sender, caller, visitor?, without, alone]
  | sender sender =>
    have apart : sender ≠ n := fun own => other (by rw [caller, own])
    have meant {c : Call} (own : c.sender ≠ n) : ((c.without n).sender == fewer n sender &&
        (c.without n).key == key) = (c.sender == sender && c.key == key) := by
      rw [Call.without, fewer_beq own apart]
    have renamed : (m.without (.sender n)).caller = .sender (fewer n sender) := by
      simp [Omission.sender, caller]
    have found : ((w.without n tag left).calls.find? fun c =>
        c.sender == fewer n sender && c.key == key) =
        (w.calls.find? fun c => c.sender == sender && c.key == key).map (·.without n) := by
      simp only [without, List.find?_map, List.find?_filter]
      congr 1
      refine find?_congr_mem fun c there => ?_
      by_cases own : c.sender = n
      · simp [own, apart.symm]
      · rw [Function.comp_apply, meant own, Bool.eq_iff_iff]
        simp [own]
    have rest : without n tag left { w with
          calls := w.calls.filter fun c => !(c.sender == sender && c.key == key) } =
        { w.without n tag left with
          calls := (w.without n tag left).calls.filter fun c =>
            !(c.sender == fewer n sender && c.key == key) } := by
      simp only [without, List.filter_map, List.filter_filter, World.mk.injEq, true_and, and_true]
      congr 1
      refine List.filter_congr fun c there => ?_
      by_cases own : c.sender = n
      · simp [own]
      · rw [Function.comp_apply, meant own, Bool.and_comm]
    simp only [renamed, found]
    cases first : w.calls.find? fun c => c.sender == sender && c.key == key with
    | none => rfl
    | some c =>
      have there := List.mem_of_find?_eq_some first
      have own : c.sender ≠ n := by
        have on := List.find?_some first
        simp only [Bool.and_eq_true, beq_iff_eq] at on
        exact on.1 ▸ apart
      have named : c.tag ≠ tag := fun same => own ((bears.calls c there).mp same)
      have bears := bears.narrows (w.narrows_calls fun c => !(c.sender == sender && c.key == key))
      simp only [Option.map_some]
      rw [gather_without (bears.narrows (narrows_conclude _ c m.outcome)) apart,
        conclude_without bears own named, rest]
      rfl

theorem deliverAll_without (alone : w.visitors = []) (bears : w.Bears (.owned n tag)) (key : Key)
    {notices : List Notice} (others : Caller.sender n ∉ notices.map (·.caller)) :
    (w.deliverAll key notices).without n tag left =
      (w.without n tag left).deliverAll key (notices.map (·.without (.sender n))) := by
  unfold deliverAll
  induction notices generalizing w with
  | nil => rfl
  | cons m notices ih =>
    simp only [List.map_cons, List.mem_cons, not_or] at others
    have narrows := narrows_deliver alone key m
    rw [List.foldl_cons, ih (narrows.visitors.trans alone) (bears.narrows narrows) others.2,
      deliver_without alone bears key (Ne.symm others.1)]
    rfl

theorem update_without (alone : w.visitors = []) (bears : w.Bears (.owned n tag)) (key : Key)
    {moved : Lane × List Notice} (others : Caller.sender n ∉ moved.2.map (·.caller)) :
    (w.update key moved).without n tag left = (w.without n tag left).update key
      (moved.1.without (.sender n) (left key), moved.2.map (·.without (.sender n))) := by
  unfold update
  rw [deliverAll_without (w := { w with hub := w.hub.setLane key moved.1 }) alone
    { bears with } key others]
  simp only [without, Hub.without_setLane]

theorem gather_own (bears : w.Bears (.owned n tag)) : w.gather n = w := by
  have none : (w.gatherings.find? fun g => g.sender == n && !g.complete) = none := by
    rw [List.find?_eq_none]
    intro g there
    simp [(bears.gatherings g there).1]
  unfold gather
  rw [none]
  split <;> rfl

theorem addResult_own (bears : w.Bears (.owned n tag)) (id : SessionId) (result : Except SendError Nat) :
    w.addResult n id result = w := by
  have same : (w.gatherings.map fun (g : Gathering) =>
      if g.sender == n then { g with results := g.results ++ [(id, result)] } else g) =
      w.gatherings := by
    conv_rhs => rw [← List.map_id w.gatherings]
    refine List.map_congr_left fun g there => ?_
    simp [(bears.gatherings g there).1]
  rw [addResult, same]

theorem deliver_lapsed (bears : w.Bears (.owned n tag)) (key : Key) :
    ∃ finished, w.deliver key ⟨.sender n, .refused .lapsed⟩ =
      { w with
        calls := w.calls.filter fun c => !(c.sender == n && c.key == key)
        finished := w.finished ++ finished } ∧ ∀ f ∈ finished, f.tag = tag := by
  unfold deliver
  simp only
  split
  · rename_i c found
    have own := List.find?_some found
    simp only [Bool.and_eq_true, beq_iff_eq] at own
    have named := (bears.calls c (List.mem_of_find?_eq_some found)).mpr own.1
    have rest : Bears (.owned n tag) { w with
        calls := w.calls.filter fun c => !(c.sender == n && c.key == key) } :=
      bears.narrows (w.narrows_calls _)
    unfold conclude
    cases c.addressee with
    | byHandle =>
      refine ⟨[⟨c.tag, some c.id, .error (.timeout c.id.text)⟩], ?_, by simpa using named⟩
      exact gather_own (rest.narrows (narrows_finish _ _ _ _))
    | byId =>
      refine ⟨[⟨c.tag, some c.id, .error (.timeout c.id.text)⟩], ?_, by simpa using named⟩
      exact gather_own (rest.narrows (narrows_finish _ _ _ _))
    | member =>
      refine ⟨[], ?_, by simp⟩
      rw [List.append_nil]
      change gather (addResult { w with
        calls := w.calls.filter fun c => !(c.sender == n && c.key == key) } c.sender c.id
          (.error (.timeout c.id.text))) n = _
      rw [own.1, addResult_own rest, gather_own rest]
  · rename_i none
    refine ⟨[], ?_, by simp⟩
    rw [List.find?_eq_none] at none
    rw [List.append_nil, List.filter_eq_self.mpr]
    intro c there
    rw [Bool.not_eq_true']
    exact Bool.eq_false_iff.mpr (none c there)

theorem deliver_lapsed_without (bears : w.Bears (.owned n tag)) (key : Key) :
    (w.deliver key ⟨.sender n, .refused .lapsed⟩).without n tag left = w.without n tag left := by
  obtain ⟨finished, done, named⟩ := deliver_lapsed bears key
  have unheard : finished.filter (·.tag != tag) = [] :=
    List.filter_eq_nil_iff.mpr (by simpa using named)
  rw [done]
  simp only [without, List.filter_filter, List.filter_append, unheard, List.append_nil,
    World.mk.injEq, true_and, and_true]
  congr 1
  refine List.filter_congr fun c _ => ?_
  by_cases own : c.sender = n <;> simp [own]

theorem offer_without (bears : w.Bears (.owned n tag)) {c : Call} (other : c.sender ≠ n)
    (named : c.tag ≠ tag) (payload : String) (patience : Patience) :
    (w.offer c payload patience).without n tag left =
      (w.without n tag left).offer (c.without n) payload patience := by
  have apart : Caller.sender c.sender ≠ (Omission.sender n).gone := fun same =>
    other (Caller.sender.inj same)
  have offered := Hub.without_offer (q := left) w.hub c.key (p := ⟨.sender c.sender, payload⟩) apart
    patience (patience.deadline.any (· ≤ w.now) || patience.token.any w.cancelled.contains) w.now
  generalize outcome : w.hub.offer c.key ⟨.sender c.sender, payload⟩ patience
    (patience.deadline.any (· ≤ w.now) || patience.token.any w.cancelled.contains) w.now = done
    at offered
  obtain ⟨hub, refusal⟩ := done
  cases refusal with
  | none =>
    rw [offer_taken outcome, offer_taken (w := w.without n tag left) (c := c.without n) offered]
    simp [without, other]
  | some why =>
    rw [offer_refused outcome, offer_refused (w := w.without n tag left) (c := c.without n) offered]
    exact conclude_without (w := { w with hub }) { bears with } other named _

theorem beginMember_without (bears : w.Bears (.owned n tag)) {sender : Nat} (other : sender ≠ n)
    {t : String}
    (named : t ≠ tag) (payload : String) (id : SessionId) :
    (beginMember payload sender t w id).without n tag left =
      beginMember payload (fewer n sender) t (w.without n tag left) id := by
  have route := Hub.route_without (o := .sender n) (q := left) w.hub id
  unfold beginMember
  simp only [without, route]
  split
  · exact addResult_without bears other id _
  · exact offer_without bears (c := ⟨sender, t, id, _, .member⟩) other named payload .endless

theorem handle_without (w : World) (name : String) :
    (w.without n tag left).handle? name = w.handle? name := by
  unfold handle?
  split
  · exact w.hub.lookup_without _
  · rfl

@[simp]
theorem held_without (w : World) (name : String) :
    (w.without n tag left).held? name = w.held? name := by
  unfold held?
  rw [handle_without]
  congr 1
  funext key
  exact congrArg _ (w.hub.idOf?_without key)

theorem started_without (began : n < w.sends) {t : String} (named : t ≠ tag)
    (gatherings : List Gathering) : (w.started t gatherings).without n tag left =
      (w.without n tag left).started t (gatherings.map (·.without n)) := by
  have next : w.sends + 1 - 1 = w.sends - 1 + 1 := by omega
  simp [World.started, without, next, named]

theorem members_without (bears : w.Bears (.owned n tag)) {sender : Nat} (other : sender ≠ n) {t : String}
    (named : t ≠ tag) (payload : String) (ids : List SessionId) :
    (ids.foldl (beginMember payload sender t) w).without n tag left =
      ids.foldl (beginMember payload (fewer n sender) t) (w.without n tag left) ∧
    (ids.foldl (beginMember payload sender t) w).Bears (.owned n tag) := by
  induction ids generalizing w with
  | nil => exact ⟨rfl, bears⟩
  | cons id ids ih =>
    rw [List.foldl_cons, List.foldl_cons, ← beginMember_without bears other named]
    exact ih (bears.beginMember (iff_of_false named other) payload id)

theorem begin_without (bears : w.Bears (.owned n tag)) (began : n < w.sends) {s : Send}
    (named : s.tag ≠ tag) : (w.begin s).without n tag left = (w.without n tag left).begin s := by
  have other : w.sends ≠ n := Nat.ne_of_gt began
  have number : fewer n w.sends = (w.without n tag left).sends := by simp [fewer, began, without]
  have begun : Bears (.owned n tag) (w.started s.tag w.gatherings) := { bears with }
  have same : (w.started s.tag w.gatherings).without n tag left =
      (w.without n tag left).started s.tag (w.gatherings.map (·.without n)) :=
    started_without began named w.gatherings
  rw [begin_eq, begin_eq]
  cases s.address with
  | nowhere =>
    simp only
    rw [finish_without named, same]
    rfl
  | handle name =>
    simp only [held_without]
    cases w.held? name with
    | none =>
      have next : w.sends + 1 - 1 = w.sends - 1 + 1 := by omega
      simp only
      rw [finish_without named]
      simp [without, next]
    | some found =>
      simp only
      rw [offer_without begun other named, same, ← number]
      rfl
  | id id =>
    have route : (w.without n tag left).hub.route id = w.hub.route id := w.hub.route_without id
    simp only [route]
    cases w.hub.route id with
    | error e =>
      simp only
      rw [finish_without named, same]
      rfl
    | ok key =>
      simp only
      rw [offer_without begun other named, same, ← number]
      rfl
  | group group =>
    have members : (w.without n tag left).hub.inGroup group = w.hub.inGroup group :=
      w.hub.inGroup_without group
    have gathers : Bears (.owned n tag)
        (w.started s.tag (w.gatherings ++ [⟨w.sends, s.tag, [], false⟩])) :=
      begun.begins (.gathering _) (iff_of_false named other) ⟨other, named⟩
    obtain ⟨done, bears'⟩ := members_without gathers other named s.message.encode
      ((w.hub.inGroup group).map (·.id))
    simp only [members]
    rw [gather_without bears' other, done, started_without began named, ← number]
    simp [Gathering.without, without]

theorem sends_without (bears : w.Bears (.owned n tag)) (began : n < w.sends) {sends : List Send}
    (named : tag ∉ sends.map (·.tag)) :
    (sends.foldl begin w).without n tag left = sends.foldl begin (w.without n tag left) := by
  induction sends generalizing w with
  | nil => rfl
  | cons s sends ih =>
    simp only [List.map_cons, List.mem_cons, not_or] at named
    have other : w.sends ≠ n := Nat.ne_of_gt began
    have apart := Ne.symm named.1
    rw [List.foldl_cons, List.foldl_cons, ← begin_without bears began apart]
    refine ih (bears.begins (begins_begin w s) (iff_of_false apart other) ⟨other, apart⟩) ?_ named.2
    rw [sends_begin]
    omega

theorem giveUp_without {c : Call} (other : c.sender ≠ n) :
    (w.giveUp c).without n tag left = (w.without n tag left).giveUp (c.without n) := by
  have forgot : (w.hub.updateSession c.key (·.forget (.sender c.sender))).without (.sender n) left =
      (w.hub.without (.sender n) left).updateSession c.key
        (·.forget ((Omission.sender n).name (.sender c.sender))) :=
    Hub.without_updateSession fun s => (s.forget_without fun same => other (Caller.sender.inj same)).symm
  simp only [giveUp, without, forgot]
  rfl

theorem abort_without (bears : w.Bears (.owned n tag)) {t : String} (named : t ≠ tag) :
    (w.abort t).without n tag left = (w.without n tag left).abort t := by
  have mine : (w.without n tag left).calls.filter (·.tag == t) =
      (w.calls.filter (·.tag == t)).map (·.without n) := by
    simp only [without, List.filter_map, List.filter_filter]
    congr 1
    refine List.filter_congr fun c there => ?_
    have label := bears.calls c there
    by_cases own : c.tag = t
    · have other : c.sender ≠ n := fun same => named (own.symm.trans (label.mpr same))
      simp [own, other, Call.without]
    · simp [own, Call.without]
  have gaveUp (cs : List Call) (others : ∀ c ∈ cs, c.sender ≠ n) : ∀ v : World,
      (cs.foldl giveUp v).without n tag left =
        (cs.map (·.without n)).foldl giveUp (v.without n tag left) := by
    induction cs with
    | nil => exact fun _ => rfl
    | cons c cs ih =>
      intro v
      rw [List.foldl_cons, List.map_cons, List.foldl_cons,
        ih (fun c there => others c (List.mem_cons_of_mem _ there)),
        giveUp_without (others c List.mem_cons_self)]
  have done := gaveUp (w.calls.filter (·.tag == t)) (fun c there => by
    obtain ⟨there, own⟩ := List.mem_filter.mp there
    exact fun same => named ((beq_iff_eq.mp own).symm.trans ((bears.calls c there).mpr same))) w
  unfold abort
  rw [mine, ← done]
  generalize (w.calls.filter (·.tag == t)).foldl giveUp w = v
  simp only [without, List.filter_map, List.filter_filter, World.mk.injEq, true_and, and_true]
  refine ⟨?_, rfl⟩
  congr 1
  exact List.filter_congr fun c _ => Bool.and_comm _ _

theorem lapseAt_without (alone : w.visitors = []) (bears : w.Bears (.owned n tag)) (key : Key)
    {u : Waiter} (other : u.parcel.caller ≠ .sender n) : (lapseAt key w u).without n tag left =
      lapseAt key (w.without n tag left) (u.without (.sender n)) := by
  unfold lapseAt
  rw [show (w.without n tag left).hub.lane? key =
    (w.hub.lane? key).map (·.without (.sender n) (left key)) from w.hub.lane?_without key]
  cases w.hub.lane? key with
  | none => rfl
  | some l =>
    simp only [Option.map_some]
    rw [update_without alone bears key (by simpa [Lane.lapse] using Ne.symm other)]
    exact congrArg _ (l.lapse_without other).symm

theorem update_own (bears : w.Bears (.owned n tag)) {key : Key} {l : Lane}
    (there : w.hub.lane? key = some l) :
    (w.update key (l.lapse (.sender n))).without n tag left = w.without n tag left := by
  have same : (w.hub.setLane key (l.lapse (.sender n)).1).without (.sender n) left =
      w.hub.without (.sender n) left :=
    Hub.setLane_gone there (Lane.lapse_gone (o := .sender n) l)
  refine (deliver_lapsed_without (w := { w with hub := w.hub.setLane key (l.lapse (.sender n)).1 })
    { bears with } key).trans ?_
  simp only [without, same]

theorem cancelIn_without (alone : w.visitors = []) (bears : w.Bears (.owned n tag)) (token : String)
    (key : Key) : (cancelIn token w key).without n tag left =
      cancelIn token (w.without n tag left) key := by
  have each (us : List Waiter) : ∀ v : World, v.visitors = [] → v.Bears (.owned n tag) →
      (us.foldl (lapseAt key) v).without n tag left =
        ((us.filter (·.parcel.caller != .sender n)).map (·.without (.sender n))).foldl (lapseAt key)
          (v.without n tag left) := by
    induction us with
    | nil => exact fun _ _ _ => rfl
    | cons u us ih =>
      intro v alone bears
      have narrows : Narrows v (lapseAt key v u) := by
        unfold lapseAt
        split
        · exact narrows_update alone key _
        · exact .refl v
      rw [List.foldl_cons, ih _ (narrows.visitors.trans alone) (bears.narrows narrows)]
      by_cases own : u.parcel.caller = .sender n
      · rw [List.filter_cons_of_neg (by simp [own])]
        congr 1
        unfold lapseAt
        cases there : v.hub.lane? key with
        | none => rfl
        | some l =>
          simp only [own]
          exact update_own bears there
      · rw [List.filter_cons_of_pos (by simpa using own), List.map_cons, List.foldl_cons,
          lapseAt_without alone bears key own]
  have lane := w.hub.lane?_without (o := .sender n) (q := left) key
  rw [cancelIn_eq, cancelIn_eq,
    show (w.without n tag left).hub = w.hub.without (.sender n) left from rfl]
  rw [lane]
  cases w.hub.lane? key with
  | none => rfl
  | some l =>
    simp only [Option.map_some]
    rw [each _ w alone bears]
    congr 1
    simp only [Lane.without, Session.without, List.filter_map, List.filter_filter]
    congr 1
    exact List.filter_congr fun u _ => Bool.and_comm _ _

theorem cancel_without (alone : w.visitors = []) (bears : w.Bears (.owned n tag)) (token : String) :
    (w.cancel token).without n tag left = (w.without n tag left).cancel token := by
  have each (keys : List Key) : ∀ v : World, v.visitors = [] → v.Bears (.owned n tag) →
      (keys.foldl (cancelIn token) v).without n tag left =
        keys.foldl (cancelIn token) (v.without n tag left) := by
    induction keys with
    | nil => exact fun _ _ _ => rfl
    | cons key keys ih =>
      intro v alone bears
      have narrows := narrows_cancelIn token alone key
      rw [List.foldl_cons, List.foldl_cons, ih _ (narrows.visitors.trans alone)
        (bears.narrows narrows), cancelIn_without alone bears]
  have length : (w.without n tag left).hub.lanes.length = w.hub.lanes.length := w.hub.length_without
  unfold cancel
  simp only [length]
  exact each _ { w with cancelled := token :: w.cancelled } alone { bears with }

theorem new_without {o : Omission} {s : Session} (new : s.IsNew) : s.without o false = s := by
  obtain ⟨c, since, rfl | rfl⟩ := new <;>
    simp [Session.without, Session.crashed, Writer.without]

theorem lane_without (w : World) (o : Opening) (config : Config)
    (new : left w.hub.lanes.length = false) :
    (w.lane o config).without (.sender n) (left w.hub.lanes.length) = w.lane o config := by
  rw [new, Lane.without, new_without (w.isFresh_lane o config).session]

theorem enter_without (w : World) (o : Opening) (new : left w.hub.lanes.length = false) :
    (w.enter o).1.without n tag left = ((w.without n tag left).enter o).1 := by
  have entered := Hub.without_enter (lane_without (n := n) w o w.hub.config new)
  have length : (w.without n tag left).hub.lanes.length = w.hub.lanes.length := w.hub.length_without
  have lane : (w.without n tag left).lane o (w.without n tag left).hub.config =
      w.lane o w.hub.config := rfl
  have hub : (w.without n tag left).hub = w.hub.without (.sender n) left := rfl
  unfold enter
  simp only [length, lane]
  simp only [hub, entered]
  cases (w.hub.enter (w.lane o w.hub.config)).2 <;> rfl

theorem withHandle_without (w : World) (name : String) {f g : Key → World × Result}
    (each : ∀ key, (f key).1.without n tag left = (g key).1) :
    (w.withHandle name f).1.without n tag left = ((w.without n tag left).withHandle name g).1 := by
  unfold withHandle
  rw [handle_without]
  cases w.handle? name with
  | none => rfl
  | some key => exact each key

theorem registerLane_without (w : World) (key : Key) :
    (w.registerLane key).1.without n tag left = ((w.without n tag left).registerLane key).1 := by
  have registered := w.hub.without_register (o := .sender n) (q := left) key
  unfold registerLane
  rw [show (w.without n tag left).hub = w.hub.without (.sender n) left from rfl, registered]
  cases w.hub.register key <;> rfl

theorem session_without (w : World) (key : Key) {f : Session → Session}
    (same : ∀ (s : Session) (b : Bool), (f s).without (.sender n) b = f (s.without (.sender n) b)) :
    without n tag left { w with hub := w.hub.updateSession key f } =
      { w.without n tag left with hub := (w.without n tag left).hub.updateSession key f } := by
  have updated : (w.hub.updateSession key f).without (.sender n) left =
      (w.hub.without (.sender n) left).updateSession key f :=
    Hub.without_updateSession fun s => same s (left key)
  simp only [without, updated]

theorem changeScript_without {o : Omission} {b : Bool} (change : ProbeScript → ProbeScript) (l : Lane) :
    (changeScript change l).without o b = changeScript change (l.without o b) := by
  unfold changeScript
  cases stream : l.stream <;> simp [Lane.without, stream]

/-- Whatever the others do at once comes to the same without the sender. -/
theorem perform_without (alone : w.visitors = []) (bears : w.Bears (.owned n tag))
    (began : n < w.sends) (new : left w.hub.lanes.length = false) {s : Step}
    (timeless : s.elapses = false) (apart : s.connects = false) (named : tag ∉ s.tags)
    (kept : s ≠ .abort tag) :
    (w.perform s).1.without n tag left = ((w.without n tag left).perform s).1 := by
  cases s with
  | enter o => exact w.enter_without o new
  | spawn o config =>
    have length : (w.without n tag left).hub.lanes.length = w.hub.lanes.length := w.hub.length_without
    have added := Hub.without_addLane
      (lane_without (n := n) w o (config.getD w.hub.config) new)
    simp only [perform, spawn, length]
    simp only [without, added]
    rfl
  | register name => exact w.withHandle_without name w.registerLane_without
  | remove id reason =>
    have removed := w.hub.without_remove (o := .sender n) (q := left) id reason
    simp only [perform, without, removed]
  | removeIfSame id name reason =>
    refine w.withHandle_without name fun key => ?_
    have removed := w.hub.without_removeIfSame (o := .sender n) (q := left) id key reason
    simp only [without, removed]
  | touch id =>
    have touched := w.hub.without_touch (o := .sender n) (q := left) id w.now
    simp only [perform, without, touched]
  | touchHandle name =>
    exact w.withHandle_without name fun key => w.session_without key fun _ _ => rfl
  | sweep maxIdle =>
    have swept := w.hub.without_sweepIdle (o := .sender n) (q := left) maxIdle w.now
    simp only [perform, without, swept]
  | reject subsystem =>
    have rejected := w.hub.without_rejectBySubsystem (o := .sender n) (q := left) subsystem
    simp only [perform, without, rejected]
  | closeAll =>
    have closed := w.hub.without_closeAll (o := .sender n) (q := left)
    simp only [perform, without, closed]
  | close name =>
    exact w.withHandle_without name fun key => w.session_without key fun _ _ => rfl
  | times name =>
    refine w.withHandle_without name fun key => ?_
    have looked (v : World) : (v.laneTimes key).1 = v := by
      unfold laneTimes
      split <;> rfl
    rw [looked, looked]
  | frames name => rw [perform_frames, perform_frames]
  | watch name t =>
    -- a wait under the tag of the sender would be left out with it
    have other : t ≠ tag := fun same => named (by simp [same])
    simp only [perform, held_without]
    cases w.held? name with
    | none => rfl
    | some found => simp [without, other]
  | send sends => exact sends_without bears began named
  | abort t => exact abort_without bears fun same => kept (by rw [same])
  | cancel token => exact cancel_without alone bears token
  | script name change =>
    simp only [perform, show (w.without n tag left).probes = w.probes from rfl]
    cases w.probes.lookup name with
    | none => rfl
    | some key =>
      have changed : Hub.without (.sender n) left
          { w.hub with lanes := w.hub.lanes.modify key (changeScript change) } = _ :=
        Hub.without_modify fun l => changeScript_without change l
      simp only [without, changed]
  | events name =>
    simp only [perform, show (w.without n tag left).subscriptions = w.subscriptions from rfl]
    cases w.subscriptions.find? (·.name == name) <;> rfl
  | startSweeper name times starts =>
    simp only [perform]
    cases times with
    | some p => rfl
    | none =>
      rw [show Sweeper.ofConfig? (w.without n tag left).hub.config starts (w.without n tag left).now =
        Sweeper.ofConfig? w.hub.config starts w.now from rfl]
      cases Sweeper.ofConfig? w.hub.config starts w.now <;> rfl
  | stopSweeper name =>
    simp only [perform, show (w.without n tag left).sweepers = w.sweepers from rfl]
    cases w.sweepers.lookup name <;> rfl
  | client name action =>
    simp only [perform, visitor?, alone, without, List.find?_nil]
  | advance ms => simp at timeless
  | jump ms => simp at timeless
  | connect name peer maxRequest => simp at apart
  | _ => rfl

end World

end Scenario

end Courier
