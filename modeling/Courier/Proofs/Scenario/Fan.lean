import Courier.Proofs.Connection.Renaming
import Courier.Proofs.Scenario.Deeds

/-!
# A send to a group, and a send to each of its members

Two worlds are beside each other if one has a send to a group, and the other has a send by id to
each of the members in its place. The senders after it have later numbers there; all the rest is the
same. The two give the same results, one after the other as the members have them, or all at once
when the last has its own.
-/

set_option autoImplicit false

namespace Courier.Scenario

/-- The send to a group: its number, its tag, the members that it goes to, and whether it may be
aborted. -/
structure Fan where
  first : Nat
  tag : String
  members : List Entry
  abortable : Prop

namespace Fan

variable (f : Fan)

def keys : List Key := f.members.map (·.key)

def ids : List SessionId := f.members.map (·.id)

def later (m : Nat) : Nat := if m < f.first then m else m + (f.members.length - 1)

/-- The number that a sender has at the session of a key. -/
def number (key : Key) (m : Nat) : Nat :=
  if m = f.first ∧ key ∈ f.keys then f.first + f.keys.idxOf key else f.later m

def caller (key : Key) : Caller → Caller
  | .sender m => .sender (f.number key m)
  | .connection name => .connection name

def answer (r : SessionId × Except SendError Nat) : Finish :=
  match r.2 with
  | .ok _ => ⟨f.tag, some r.1, .sent⟩
  | .error e => ⟨f.tag, some r.1, .error e⟩

def groupAnswer (results : List (SessionId × Except SendError Nat)) : Finish :=
  ⟨f.tag, none, .members (results.mergeSort fun a b => a.1.le b.1)⟩

variable {f} {key : Key} {a b m : Nat}

theorem later_inj (same : f.later a = f.later b) : a = b := by
  unfold later at same
  split at same <;> split at same <;> omega

theorem later_succ (begun : f.first < m) : f.later (m + 1) = f.later m + 1 := by
  unfold later
  split <;> split <;> omega

theorem number_other (other : m ≠ f.first) : f.number key m = f.later m :=
  if_neg fun own => other own.1

theorem idxOf_lt (there : key ∈ f.keys) : f.keys.idxOf key < f.members.length := by
  simpa [keys] using List.idxOf_lt_length_of_mem there

theorem number_absent (absent : key ∉ f.keys) : f.number key m = f.later m :=
  if_neg fun own => absent own.2

theorem number_inj (same : f.number key a = f.number key b) : a = b := by
  by_cases there : key ∈ f.keys
  · have inside := idxOf_lt there
    simp only [number, later, there, and_true] at same
    split_ifs at same <;> omega
  · rw [number_absent there, number_absent there] at same
    exact later_inj same

theorem number_eq_later (key : Key) (other : m ≠ f.first) :
    f.number key a = f.later m ↔ a = m := by
  have numbered : f.number key m = f.later m := number_other other
  rw [← numbered]
  exact ⟨number_inj, congrArg _⟩

theorem number_beq (key : Key) (a b : Nat) : (f.number key a == f.number key b) = (a == b) := by
  rw [Bool.eq_iff_iff, beq_iff_eq, beq_iff_eq]
  exact ⟨number_inj, congrArg _⟩

theorem caller_inj {c d : Caller} (same : f.caller key c = f.caller key d) : c = d := by
  cases c <;> cases d <;>
    simp only [caller, Caller.sender.injEq, Caller.connection.injEq, reduceCtorEq] at same
  · exact congrArg _ (number_inj same)
  · exact congrArg _ same

variable (f)

/-- The send to the group has come to some of its members. So many of them have a result; each of
the others has a call at a session of its own. -/
structure Gathers (come : List Entry) (own : List Call) (gathered : List Gathering)
    (finished separate : List Finish) (results : List (SessionId × Except SendError Nat)) :
    Prop where
  gathering : gathered = [⟨f.first, f.tag, results, false⟩]
  separate : separate.Perm (finished ++ results.map f.answer)
  calls : ∀ c ∈ own, c.tag = f.tag ∧ c.addressee = .member ∧ ⟨c.id, c.key⟩ ∈ come
  single : (own.map (·.key)).Nodup
  ids : (results.map (·.1) ++ own.map (·.id)).Perm (come.map (·.id))

/-- What has finished with a send to the group that has these calls and gatherings, and with
separate ones to its members. -/
inductive Accounts (own : List Call) (gathered : List Gathering)
    (finished separate : List Finish) : Prop
  /-- The results of some of the members are there, others wait for theirs. -/
  | gathers {results : List (SessionId × Except SendError Nat)}
      (gathers : f.Gathers f.members own gathered finished separate results) (waits : own ≠ [])
  /-- The results of all members were given back, at once and one by one. -/
  | returned {others : List Finish} {results : List (SessionId × Except SendError Nat)}
      (done : own = []) (complete : ∀ g ∈ gathered, g.complete = true)
      (ids : (results.map (·.1)).Perm f.ids)
      (finished : finished.Perm (others ++ [f.groupAnswer results]))
      (separate : separate.Perm (others ++ results.map f.answer))
  | aborted {results : List (SessionId × Except SendError Nat)} (may : f.abortable)
      (done : own = []) (dropped : gathered = []) (ids : (results.map (·.1)).Subperm f.ids)
      (separate : separate.Perm (finished ++ results.map f.answer))

variable {f} {own : List Call} {gathered : List Gathering} {finished separate : List Finish}

theorem perm_finish {rest : List Finish} (same : separate.Perm (finished ++ rest)) (x : Finish) :
    (separate ++ [x]).Perm (finished ++ [x] ++ rest) := by
  rw [List.append_assoc]
  refine (same.append_right [x]).trans ?_
  rw [List.append_assoc]
  exact List.perm_append_comm.append_left finished

theorem Accounts.finish (accounts : f.Accounts own gathered finished separate) (x : Finish) :
    f.Accounts own gathered (finished ++ [x]) (separate ++ [x]) := by
  cases accounts with
  | gathers gathers waits =>
    exact .gathers { gathers with separate := perm_finish gathers.separate x } waits
  | returned done complete ids given separate =>
    exact .returned done complete ids (perm_finish given x) (perm_finish separate x)
  | aborted may done dropped ids separate =>
    exact .aborted may done dropped ids (perm_finish separate x)

end Fan

def Call.spread (f : Fan) (c : Call) : Call :=
  { c with
    sender := f.number c.key c.sender
    addressee := if c.sender = f.first then .byId else c.addressee }

def Gathering.spread (f : Fan) (g : Gathering) : Gathering := { g with sender := f.later g.sender }

namespace World

def callsOf (n : Nat) (w : World) : List Call := w.calls.filter (·.sender == n)

def gatheringsOf (n : Nat) (w : World) : List Gathering := w.gatherings.filter (·.sender == n)

/-- The world in which each member has a send of its own, but for what has finished. -/
def spread (f : Fan) (tags : List String) (finished : List Finish) (w : World) : World :=
  { w with
    hub := w.hub.rename f.caller
    sends := f.later w.sends
    calls := w.calls.map (·.spread f)
    gatherings := (w.gatherings.filter (·.sender != f.first)).map (·.spread f)
    tags, finished }

end World

/-- In the second world each member has a send of its own. -/
structure Fan.Beside (f : Fan) (w w' : World) : Prop where
  begun : f.first < w.sends
  same : ∃ tags finished, w' = w.spread f tags finished ∧
    f.Accounts (w.callsOf f.first) (w.gatheringsOf f.first) w.finished finished

namespace Fan

open World

variable {f : Fan} {w w' : World}

theorem Beside.hub (beside : f.Beside w w') (h : Hub) :
    f.Beside { w with hub := h } { w' with hub := h.rename f.caller } := by
  obtain ⟨begun, tags, finished, rfl, accounts⟩ := beside
  exact ⟨begun, tags, finished, rfl, accounts⟩

theorem Beside.finish (beside : f.Beside w w') (tag : String) (about : Option SessionId)
    (reply : Reply) : f.Beside (w.finish tag about reply) (w'.finish tag about reply) := by
  obtain ⟨begun, tags, finished, rfl, accounts⟩ := beside
  refine ⟨begun, tags, finished ++ [⟨tag, about, reply⟩], rfl, ?_⟩
  exact accounts.finish _

theorem filter_regathered (gathered : List Gathering) {q : Gathering → Gathering}
    (sender : ∀ g, (q g).sender = g.sender) (p : Nat → Bool) :
    (gathered.map q).filter (fun g => p g.sender) =
      (gathered.filter fun g => p g.sender).map q := by
  have same : (fun g : Gathering => p g.sender) ∘ q = fun g => p g.sender :=
    funext fun g => congrArg p (sender g)
  rw [List.filter_map, same]

theorem Beside.regather (beside : f.Beside w w') {q q' : Gathering → Gathering}
    (sender : ∀ g, (q g).sender = g.sender) (own : ∀ g, g.sender = f.first → q g = g)
    (same : ∀ g, (q g).spread f = q' (g.spread f)) :
    f.Beside { w with gatherings := w.gatherings.map q }
      { w' with gatherings := w'.gatherings.map q' } := by
  obtain ⟨begun, tags, finished, rfl, accounts⟩ := beside
  have kept : (w.gatherings.map q).filter (·.sender == f.first) = w.gatheringsOf f.first := by
    refine (filter_regathered w.gatherings sender (· == f.first)).trans ?_
    rw [List.map_congr_left (g := id), List.map_id, gatheringsOf]
    exact fun g there => own g (beq_iff_eq.mp (List.mem_filter.mp there).2)
  have others : (w.gatherings.map q).filter (·.sender != f.first) =
      (w.gatherings.filter (·.sender != f.first)).map q :=
    filter_regathered w.gatherings sender (· != f.first)
  refine ⟨begun, tags, finished, ?_, by rw [gatheringsOf, kept]; exact accounts⟩
  simp only [spread, others, List.map_map, World.mk.injEq, true_and, and_true]
  exact List.map_congr_left fun g _ => (same g).symm

@[simp]
theorem later_beq (a b : Nat) : (f.later a == f.later b) = (a == b) := by
  rw [Bool.eq_iff_iff, beq_iff_eq, beq_iff_eq]
  exact ⟨later_inj, congrArg _⟩

theorem Beside.addResult (beside : f.Beside w w') {sender : Nat} (other : sender ≠ f.first)
    (id : SessionId) (result : Except SendError Nat) :
    f.Beside (w.addResult sender id result) (w'.addResult (f.later sender) id result) := by
  refine beside.regather (fun g => ?_) (fun g own => ?_) fun g => ?_
  · split <;> rfl
  · simp [own, other.symm]
  · simp only [Gathering.spread, later_beq]
    split <;> rfl

theorem Beside.gather (beside : f.Beside w w') {sender : Nat} (other : sender ≠ f.first) :
    f.Beside (w.gather sender) (w'.gather (f.later sender)) := by
  have same := beside
  obtain ⟨begun, tags, finished, rfl, accounts⟩ := beside
  have waits : (w.spread f tags finished).calls.any (·.sender == f.later sender) =
      w.calls.any (·.sender == sender) := by
    simp only [spread, List.any_map, Function.comp_def, Call.spread]
    congr 1
    funext c
    have numbered : f.number c.key sender = f.later sender := number_other other
    rw [← numbered, number_beq]
  have found : ((w.spread f tags finished).gatherings.find? fun g =>
      g.sender == f.later sender && !g.complete) =
      (w.gatherings.find? fun g => g.sender == sender && !g.complete).map (·.spread f) := by
    simp only [spread, List.find?_map, List.find?_filter]
    congr 2
    funext g
    by_cases own : g.sender = f.first
    · simp [own, other.symm]
    · simp only [Function.comp_apply, Gathering.spread, later_beq, bne_iff_ne.mpr own, true_and,
        Bool.decide_eq_true]
  unfold World.gather
  rw [waits, found]
  split
  · exact same
  · cases w.gatherings.find? fun g => g.sender == sender && !g.complete with
    | none => exact same
    | some g =>
      refine Beside.finish (same.regather (fun g => ?_) (fun g own => ?_) fun g => ?_) _ _ _
      · split <;> rfl
      · simp [own, other.symm]
      · simp only [Gathering.spread, later_beq]
        split <;> rfl

theorem Beside.hub_eq (beside : f.Beside w w') : w'.hub = w.hub.rename f.caller := by
  obtain ⟨_, _, _, rfl, _⟩ := beside
  rfl

theorem Beside.concludes (beside : f.Beside w w') (id : SessionId) (key : Key) (outcome : Outcome) :
    w'.hub.conclude id key outcome = ((w.hub.conclude id key outcome).1.rename f.caller,
      (w.hub.conclude id key outcome).2) := by
  rw [beside.hub_eq]
  exact w.hub.recast_conclude (Hub.disguise_rename f.caller) id key outcome

theorem Beside.conclude (beside : f.Beside w w') {c : Call} (other : c.sender ≠ f.first)
    (outcome : Outcome) : f.Beside (w.conclude c outcome) (w'.conclude (c.spread f) outcome) := by
  have concluded := beside.concludes c.id c.key outcome
  have heard := beside.hub (w.hub.conclude c.id c.key outcome).1
  have addressee : (c.spread f).addressee = c.addressee := if_neg other
  have number : (c.spread f).sender = f.later c.sender := number_other other
  unfold World.conclude
  rw [addressee, number]
  cases c.addressee with
  | byHandle =>
    simp only [Call.spread]
    split <;> exact beside.finish _ _ _
  | byId =>
    simp only [Call.spread, concluded]
    split <;> exact heard.finish _ _ _
  | member =>
    simp only [Call.spread, concluded]
    exact heard.addResult other _ _

section Members

variable {own : List Call} {finished : List Finish} {tags : List String} {come : List Entry}
  {results : List (SessionId × Except SendError Nat)}

theorem conclude_member {c : Call} (member : c.addressee = .member) (outcome : Outcome) :
    w.conclude c outcome =
      { w with hub := (w.hub.conclude c.id c.key outcome).1 }.addResult c.sender c.id
        (w.hub.conclude c.id c.key outcome).2 := by
  unfold World.conclude
  rw [member]

theorem conclude_spread {c : Call} (mine : c.sender = f.first) (label : c.tag = f.tag)
    (outcome : Outcome) : (w.spread f tags finished).conclude (c.spread f) outcome =
      spread f tags (finished ++ [f.answer (c.id, (w.hub.conclude c.id c.key outcome).2)])
        { w with hub := (w.hub.conclude c.id c.key outcome).1 } := by
  have concluded : (w.hub.rename f.caller).conclude c.id c.key outcome = _ :=
    w.hub.recast_conclude (Hub.disguise_rename f.caller) c.id c.key outcome
  have apart : (c.spread f).addressee = .byId := if_pos mine
  unfold World.conclude
  rw [apart]
  simp only [Call.spread, spread, concluded]
  generalize w.hub.conclude c.id c.key outcome = done
  obtain ⟨hub, result⟩ := done
  cases result <;> simp only [answer, ← label] <;> rfl

theorem gatheringsOf_addResult (id : SessionId) (result : Except SendError Nat) :
    (w.addResult f.first id result).gatheringsOf f.first =
      (w.gatheringsOf f.first).map fun g => { g with results := g.results ++ [(id, result)] } := by
  refine (filter_regathered w.gatherings (fun g => by split <;> rfl) (· == f.first)).trans ?_
  exact List.map_congr_left fun g there => if_pos (List.mem_filter.mp there).2

theorem others_map {q : Gathering → Gathering} (sender : ∀ g, (q g).sender = g.sender)
    (others : ∀ g, g.sender ≠ f.first → q g = g) :
    (w.gatherings.map q).filter (·.sender != f.first) =
      w.gatherings.filter (·.sender != f.first) := by
  refine (filter_regathered w.gatherings sender (· != f.first)).trans ?_
  rw [List.map_congr_left (g := id), List.map_id]
  exact fun g there => others g (bne_iff_ne.mp (List.mem_filter.mp there).2)

theorem spread_addResult (id : SessionId) (result : Except SendError Nat) :
    (w.addResult f.first id result).spread f tags finished = w.spread f tags finished := by
  simp only [spread, World.addResult]
  rw [others_map (fun g => by split <;> rfl) fun g other => if_neg (by simpa using other)]

theorem spread_gather : (w.gather f.first).spread f tags finished = w.spread f tags finished := by
  unfold World.gather
  split
  · rfl
  · split
    · rfl
    · simp only [spread, World.finish]
      rw [others_map (fun g => by split <;> rfl) fun g other => if_neg (by simpa using other)]

theorem gather_spread (key : Key) :
    (w.spread f tags finished).gather (f.number key f.first) = w.spread f tags finished := by
  have none : ((w.spread f tags finished).gatherings.find? fun g =>
      g.sender == f.number key f.first && !g.complete) = none := by
    rw [List.find?_eq_none]
    intro g there
    obtain ⟨h, other, rfl⟩ := List.mem_map.mp there
    have apart : h.sender ≠ f.first := by simpa using (List.mem_filter.mp other).2
    have later : f.later h.sender ≠ f.number key f.first := fun same =>
      apart ((number_eq_later key apart).mp same.symm).symm
    simp [Gathering.spread, later]
  unfold World.gather
  rw [none]
  split <;> rfl

theorem Gathers.addResult
    (gathers : f.Gathers come own (w.gatheringsOf f.first) w.finished finished results)
    {come' : List Entry} {own' : List Call} (id : SessionId) (result : Except SendError Nat)
    (calls : ∀ c ∈ own', c.tag = f.tag ∧ c.addressee = .member ∧ ⟨c.id, c.key⟩ ∈ come')
    (single : (own'.map (·.key)).Nodup)
    (ids : (results.map (·.1) ++ id :: own'.map (·.id)).Perm (come'.map (·.id))) :
    f.Gathers come' own' ((w.addResult f.first id result).gatheringsOf f.first) w.finished
      (finished ++ [f.answer (id, result)]) (results ++ [(id, result)]) where
  gathering := by rw [gatheringsOf_addResult, gathers.gathering, List.map_singleton]
  separate := by
    rw [List.map_append, ← List.append_assoc]
    exact gathers.separate.append_right _
  calls := calls
  single := single
  ids := by simpa using ids

/-- With the last result all are given back. -/
theorem Gathers.gather (gathers : f.Gathers f.members (w.callsOf f.first) (w.gatheringsOf f.first)
      w.finished finished results) :
    f.Accounts ((w.gather f.first).callsOf f.first) ((w.gather f.first).gatheringsOf f.first)
      (w.gather f.first).finished finished := by
  have found : (w.gatherings.find? fun g => g.sender == f.first && !g.complete) =
      some ⟨f.first, f.tag, results, false⟩ := by
    have narrowed : (w.gatheringsOf f.first).find? (!·.complete) =
        w.gatherings.find? fun g => g.sender == f.first && !g.complete := by
      simp only [gatheringsOf, List.find?_filter, Bool.decide_and, Bool.decide_eq_true]
    rw [← narrowed, gathers.gathering]
    rfl
  unfold World.gather
  rw [found]
  split
  · rename_i waiting
    refine .gathers gathers fun none => ?_
    obtain ⟨c, there, own⟩ := List.any_eq_true.mp waiting
    exact List.filter_eq_nil_iff.mp none c there own
  · rename_i done
    have none : w.callsOf f.first = [] :=
      List.filter_eq_nil_iff.mpr fun c there own => done (List.any_eq_true.mpr ⟨c, there, own⟩)
    refine .returned none (fun g there => ?_) ?_ (.refl _) gathers.separate
    · obtain ⟨there, own⟩ := List.mem_filter.mp there
      obtain ⟨h, _, rfl⟩ := List.mem_map.mp there
      by_cases mine : h.sender == f.first
      · simp [mine]
      · simp [mine] at own
    · simpa [none, Fan.ids] using gathers.ids

end Members

theorem meant_spread (key : Key) (sender : Nat) (c : Call) :
    ((c.spread f).sender == f.number key sender && (c.spread f).key == key) =
      (c.sender == sender && c.key == key) := by
  by_cases there : c.key = key
  · simp only [Call.spread, there, number_beq]
  · have apart : (c.key == key) = false := by simpa using there
    simp only [Call.spread, apart, Bool.and_false]

theorem Beside.spare (beside : f.Beside w w') {p q : Call → Bool}
    (same : ∀ c, q (c.spread f) = p c) (own : ∀ c, c.sender = f.first → p c = true) :
    f.Beside { w with calls := w.calls.filter p } { w' with calls := w'.calls.filter q } := by
  obtain ⟨begun, tags, finished, rfl, accounts⟩ := beside
  have kept : (w.calls.filter p).filter (·.sender == f.first) = w.callsOf f.first := by
    rw [callsOf, List.filter_filter]
    refine List.filter_congr fun c _ => ?_
    by_cases mine : c.sender = f.first <;> simp [mine, own]
  refine ⟨begun, tags, finished, ?_, by rw [callsOf, kept]; exact accounts⟩
  have spared : q ∘ (·.spread f) = p := funext same
  simp only [spread, List.filter_map, spared]

theorem Beside.setVisitor (beside : f.Beside w w') (v : Visitor) :
    f.Beside (w.setVisitor v) (w'.setVisitor v) := by
  obtain ⟨begun, tags, finished, rfl, accounts⟩ := beside
  exact ⟨begun, tags, finished, rfl, accounts⟩

theorem perm_spared {own : List Call} (single : (own.map (·.key)).Nodup) {c : Call}
    (there : c ∈ own) : (c :: own.filter fun d => !(d.key == c.key)).Perm own := by
  induction own with
  | nil => simp at there
  | cons d own ih =>
    obtain ⟨new, single⟩ := List.nodup_cons.mp single
    rcases List.mem_cons.mp there with rfl | there
    · rw [List.filter_cons_of_neg (by simp), List.filter_eq_self.mpr]
      intro d there
      have apart : d.key ≠ c.key := fun same => new (List.mem_map.mpr ⟨d, there, same⟩)
      simpa using apart
    · have apart : d.key ≠ c.key := fun same => new (List.mem_map.mpr ⟨c, there, same.symm⟩)
      rw [List.filter_cons_of_pos (by simpa using apart)]
      exact (List.Perm.swap d c _).trans ((ih single there).cons d)

/-- A member has its result, and with the last one the group has its answer. -/
theorem Beside.deliver_own (beside : f.Beside w w') {key : Key} {c : Call}
    (found : w.calls.find? (fun c => c.sender == f.first && c.key == key) = some c)
    (outcome : Outcome) :
    f.Beside (({ w with
        calls := w.calls.filter fun c => !(c.sender == f.first && c.key == key)
      }.conclude c outcome).gather f.first)
      (({ w' with
        calls := w'.calls.filter fun c => !(c.sender == f.number key f.first && c.key == key)
      }.conclude (c.spread f) outcome).gather (f.number key f.first)) := by
  obtain ⟨begun, tags, finished, rfl, accounts⟩ := beside
  have on := List.find?_some found
  simp only [Bool.and_eq_true, beq_iff_eq] at on
  obtain ⟨mine, rfl⟩ := on
  have there : c ∈ w.callsOf f.first :=
    List.mem_filter.mpr ⟨List.mem_of_find?_eq_some found, beq_iff_eq.mpr mine⟩
  cases accounts with
  | returned done => simp [done] at there
  | aborted _ done => simp [done] at there
  | @gathers results gathers waits =>
    obtain ⟨label, member, come⟩ := gathers.calls c there
    let v : World := { w with
      hub := (w.hub.conclude c.id c.key outcome).1
      calls := w.calls.filter fun d => !(d.sender == f.first && d.key == c.key) }
    have rest : v.callsOf f.first = (w.callsOf f.first).filter fun d => !(d.key == c.key) := by
      simp only [v, callsOf, List.filter_filter]
      refine List.filter_congr fun d _ => ?_
      cases d.sender == f.first <;> simp
    have spared := perm_spared gathers.single there
    have answered : f.Gathers f.members (v.callsOf f.first) _ _ _ _ :=
      gathers.addResult (w := v) c.id (w.hub.conclude c.id c.key outcome).2
        (fun d left => gathers.calls d (List.mem_of_mem_filter (rest ▸ left)))
        (by
          rw [rest]
          exact gathers.single.sublist (List.filter_sublist.map _))
        (by
          rw [rest]
          exact ((spared.map (·.id)).append_left _).trans gathers.ids)
    have left : { w.spread f tags finished with
        calls := (w.spread f tags finished).calls.filter fun d =>
          !(d.sender == f.number c.key f.first && d.key == c.key) } =
        spread f tags finished { w with
          calls := w.calls.filter fun d => !(d.sender == f.first && d.key == c.key) } := by
      simp only [spread, List.filter_map, Function.comp_def, meant_spread]
    rw [left, conclude_spread mine label, gather_spread, conclude_member member, mine]
    refine ⟨?_, tags, _, ?_, Gathers.gather answered⟩
    · rw [(tells_gather _ f.first).sends]
      exact begun
    · rw [spread_gather]
      exact (spread_addResult (w := v) c.id _).symm

theorem Beside.deliver (beside : f.Beside w w') (key : Key) (m : Notice) :
    f.Beside (w.deliver key m) (w'.deliver key (m.rename (f.caller key))) := by
  unfold World.deliver
  cases caller : m.caller with
  | connection name =>
    have kept : (m.rename (f.caller key)).caller = .connection name := by
      simp only [Notice.rename, caller, Fan.caller]
    have visitor : w'.visitor? name = w.visitor? name := by
      obtain ⟨_, _, _, rfl, _⟩ := beside
      rfl
    simp only [kept, visitor]
    cases w.visitor? name with
    | none => exact beside
    | some v =>
      have notified := v.connection.notified_rename (ρ := f.caller) w.hub m.outcome
      simp only [beside.hub_eq]
      change f.Beside _ (World.setVisitor { w' with
        hub := (v.connection.notified (w.hub.rename f.caller) m.outcome).2 }
        { v with connection := (v.connection.notified (w.hub.rename f.caller) m.outcome).1 })
      rw [notified]
      exact (beside.hub _).setVisitor _
  | sender sender =>
    have renamed : (m.rename (f.caller key)).caller = .sender (f.number key sender) := by
      simp only [Notice.rename, caller, Fan.caller]
    have found : (w'.calls.find? fun c => c.sender == f.number key sender && c.key == key) =
        (w.calls.find? fun c => c.sender == sender && c.key == key).map (·.spread f) := by
      obtain ⟨_, _, _, rfl, _⟩ := beside
      simp only [spread, List.find?_map]
      congr 2
      exact funext fun c => meant_spread key sender c
    simp only [renamed, found]
    cases meant : w.calls.find? fun c => c.sender == sender && c.key == key with
    | none => exact beside
    | some c =>
      simp only [Option.map_some]
      by_cases own : sender = f.first
      · subst own
        exact beside.deliver_own meant m.outcome
      · have other : c.sender ≠ f.first := by
          have on := List.find?_some meant
          simp only [Bool.and_eq_true, beq_iff_eq] at on
          exact on.1 ▸ own
        have numbered : f.number key sender = f.later sender := number_other own
        rw [numbered]
        refine (Beside.conclude (beside.spare (fun d => ?_) fun d mine => ?_) other _).gather own
        · rw [← numbered, meant_spread]
        · simp [mine, Ne.symm own]

end Fan

end Courier.Scenario
