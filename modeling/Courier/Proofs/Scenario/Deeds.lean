import Courier.Proofs.Hub.Deeds
import Courier.Proofs.Scenario.Holding

set_option autoImplicit false

namespace Courier.Scenario

open Hub (Deed Deeds Hush)
open Session (Act)

@[simp]
def Step.spawns : Step → Bool
  | .spawn _ _ => true
  | _ => false

namespace World

variable {r : Regime} {w w' v : World}

def scene (w : World) : Hub.Scene := ⟨w.now, w.cancelled, w.hub⟩

theorem calls_conclude (w : World) (c : Call) (o : Outcome) : (w.conclude c o).calls = w.calls := by
  unfold conclude
  cases c.addressee with
  | member => rfl
  | _ =>
    simp only
    split <;> rfl

theorem calls_gather (w : World) (sender : Nat) : (w.gather sender).calls = w.calls := by
  unfold gather
  split
  · rfl
  · split <;> rfl

theorem calls_of_deliver {key : Key} {m : Notice} {c : Call} (there : c ∈ (w.deliver key m).calls) :
    c ∈ w.calls ∧ (c.key = key → m.caller ≠ .sender c.sender) := by
  unfold deliver at there
  cases caller : m.caller with
  | connection name =>
    simp only [caller] at there
    exact ⟨by split at there <;> exact there, by simp⟩
  | sender sender =>
    simp only [caller] at there
    split at there
    · rw [calls_gather, calls_conclude] at there
      obtain ⟨there, spared⟩ := List.mem_filter.mp there
      refine ⟨there, fun at_key own => ?_⟩
      obtain rfl := Caller.sender.inj own
      simp [at_key] at spared
    · rename_i nobody
      refine ⟨there, fun at_key own => ?_⟩
      obtain rfl := Caller.sender.inj own
      simpa [at_key] using List.find?_eq_none.mp nobody c there

theorem calls_of_deliverAll {key : Key} {notices : List Notice} {c : Call}
    (there : c ∈ (w.deliverAll key notices).calls) :
    c ∈ w.calls ∧ (c.key = key → .sender c.sender ∉ notices.map (·.caller)) := by
  unfold deliverAll at there
  induction notices generalizing w with
  | nil => exact ⟨there, by simp⟩
  | cons m notices ih =>
    obtain ⟨there, others⟩ := ih there
    obtain ⟨there, spared⟩ := calls_of_deliver there
    refine ⟨there, fun at_key member => ?_⟩
    rcases List.mem_cons.mp member with own | later
    · exact spared at_key own.symm
    · exact others at_key later

/-- Callers have been told something. That closes sessions at most. -/
structure Tells (w w' : World) : Prop where
  now : w'.now = w.now
  cancelled : w'.cancelled = w.cancelled
  sends : w'.sends = w.sends
  quietly : w.hub.Quietly w'.hub
  calls : ∀ c ∈ w'.calls, c ∈ w.calls

theorem Tells.refl (w : World) : w.Tells w := ⟨rfl, rfl, rfl, .refl w.hub, fun _ there => there⟩

theorem Tells.trans {a b c : World} (first : a.Tells b) (second : b.Tells c) : a.Tells c :=
  ⟨second.now.trans first.now, second.cancelled.trans first.cancelled,
    second.sends.trans first.sends, first.quietly.trans second.quietly,
    fun d there => first.calls d (second.calls d there)⟩

theorem tells_conclude (w : World) (c : Call) (outcome : Outcome) : w.Tells (w.conclude c outcome) := by
  have quietly := w.hub.quietly_conclude c.id c.key outcome
  unfold conclude
  cases c.addressee with
  | byHandle =>
    simp only
    split <;> exact ⟨rfl, rfl, rfl, .refl w.hub, fun _ there => there⟩
  | byId =>
    simp only
    split <;> exact ⟨rfl, rfl, rfl, quietly, fun _ there => there⟩
  | member => exact ⟨rfl, rfl, rfl, quietly, fun _ there => there⟩

theorem tells_gather (w : World) (sender : Nat) : w.Tells (w.gather sender) := by
  unfold gather
  split
  · exact .refl w
  · split <;> exact ⟨rfl, rfl, rfl, .refl w.hub, fun _ there => there⟩

theorem tells_deliver (w : World) (key : Key) (n : Notice) : w.Tells (w.deliver key n) := by
  unfold deliver
  cases n.caller with
  | sender sender =>
    simp only
    split
    · rename_i c _
      have told := tells_conclude { w with calls := w.calls.filter fun c =>
        !(c.sender == sender && c.key == key) } c n.outcome
      refine Tells.trans ⟨told.now, told.cancelled, told.sends, told.quietly, fun d there => ?_⟩
        (tells_gather _ sender)
      exact List.mem_of_mem_filter (told.calls d there)
    · exact .refl w
  | connection name =>
    simp only
    split
    · rename_i v _
      exact ⟨rfl, rfl, rfl, v.connection.quietly_notified w.hub n.outcome, fun _ there => there⟩
    · exact .refl w

theorem tells_deliverAll (w : World) (key : Key) (notices : List Notice) :
    w.Tells (w.deliverAll key notices) := by
  unfold deliverAll
  induction notices generalizing w with
  | nil => exact .refl w
  | cons n notices ih => exact (w.tells_deliver key n).trans (ih (w.deliver key n))

/-- Something has happened at one time, and nobody has begun to send. Calls that are still there are of
senders that were not told anything, and did not leave. -/
structure Does (r : Regime) (w w' : World) : Prop where
  now : w'.now = w.now
  cancelled : w'.cancelled = w.cancelled
  sends : w'.sends = w.sends
  deeds : ∃ told left, Deeds r w.scene told left w'.scene ∧ ∀ c ∈ w'.calls, c ∈ w.calls ∧
    .sender c.sender ∉ (told c.key).map (·.caller) ∧ .sender c.sender ∉ left c.key

theorem Does.refl (w : World) : Does r w w :=
  ⟨rfl, rfl, rfl, _, _, .refl, fun _ there => ⟨there, by simp, by simp⟩⟩

theorem Does.trans {a b c : World} (first : Does r a b) (second : Does r b c) : Does r a c := by
  obtain ⟨told, left, deeds, calls⟩ := first.deeds
  obtain ⟨more, gone, deeds', calls'⟩ := second.deeds
  refine ⟨second.now.trans first.now, second.cancelled.trans first.cancelled,
    second.sends.trans first.sends, _, _, deeds.trans deeds', fun d there => ?_⟩
  obtain ⟨there, unheard', stays'⟩ := calls' d there
  obtain ⟨there, unheard, stays⟩ := calls d there
  refine ⟨there, ?_, by simp [stays, stays']⟩
  simp only [List.map_append, List.mem_append, not_or]
  exact ⟨unheard, unheard'⟩

theorem does_of_hush (now : w'.now = w.now) (cancelled : w'.cancelled = w.cancelled)
    (sends : w'.sends = w.sends) (calls : ∀ c ∈ w'.calls, c ∈ w.calls)
    (hush : Hush r ⟨w.now, w.cancelled, w.hub⟩ ⟨w.now, w.cancelled, w'.hub⟩) : Does r w w' := by
  refine ⟨now, cancelled, sends, fun _ => [], fun _ => [], ?_,
    fun c there => ⟨calls c there, by simp, by simp⟩⟩
  rw [scene, scene, now, cancelled]
  exact hush

theorem Tells.does (tells : w.Tells w') : Does r w w' :=
  does_of_hush tells.now tells.cancelled tells.sends tells.calls (tells.quietly.hush r _ _)

theorem does_update {key : Key} {l : Lane} (there : w.hub.lane? key = some l)
    {moved : Lane × List Notice} {told : List Notice}
    (step : Lane.Step r ⟨w.now, w.cancelled, l⟩ told [] ⟨w.now, w.cancelled, moved.1⟩)
    (heard : told ⊆ moved.2) : Does r w (w.update key moved) := by
  have tells := tells_deliverAll { w with hub := w.hub.setLane key moved.1 } key moved.2
  have deed : Deed r w.scene (Hub.only key told) (Hub.only key [])
      ⟨w.now, w.cancelled, w.hub.setLane key moved.1⟩ := .lane there step
  have after : Hush r ⟨w.now, w.cancelled, w.hub.setLane key moved.1⟩ (w.update key moved).scene := by
    have hush := tells.quietly.hush r w.now w.cancelled
    rwa [scene, update, tells.now, tells.cancelled]
  refine ⟨tells.now, tells.cancelled, tells.sends, _, _, deed.deeds.trans after, fun c member => ?_⟩
  obtain ⟨member, spared⟩ := calls_of_deliverAll member
  refine ⟨member, ?_, by simp [Hub.only]⟩
  simp only [Hub.only, List.append_nil]
  split
  · rename_i at_key
    exact fun told => spared at_key (List.map_subset _ heard told)
  · simp

def Places (w : World) (c : Call) : Prop :=
  ∃ l, w.hub.lane? c.key = some l ∧ .sender c.sender ∈ l.session.callers

theorem Places.deeds {c : Call} {told : Key → List Notice} {left : Key → List Caller}
    (places : w.Places c) (deeds : Deeds r w.scene told left w'.scene)
    (unheard : .sender c.sender ∉ (told c.key).map (·.caller))
    (stays : .sender c.sender ∉ left c.key) : w'.Places c := by
  obtain ⟨l, there, member⟩ := places
  obtain ⟨l', there', run⟩ := deeds.run there
  exact ⟨l', there', run.stays member unheard stays⟩

structure Comes (r : Regime) (n : Nat) (tag : String) (w w' : World) : Prop where
  now : w'.now = w.now
  cancelled : w'.cancelled = w.cancelled
  sends : w'.sends = w.sends
  hush : Hush r w.scene w'.scene
  calls : ∀ c ∈ w'.calls, c ∈ w.calls ∨ (c.sender = n ∧ c.tag = tag ∧ w'.Places c)

variable {n : Nat} {tag : String}

theorem Comes.trans {a b c : World} (first : Comes r n tag a b) (second : Comes r n tag b c) :
    Comes r n tag a c where
  now := second.now.trans first.now
  cancelled := second.cancelled.trans first.cancelled
  sends := second.sends.trans first.sends
  hush := first.hush.trans second.hush
  calls d there := by
    rcases second.calls d there with old | new
    · exact (first.calls d old).imp_right fun ⟨sender, label, places⟩ =>
        ⟨sender, label, places.deeds second.hush (by simp) (by simp)⟩
    · exact .inr new

theorem Tells.comes (tells : w.Tells w') : Comes r n tag w w' := by
  refine ⟨tells.now, tells.cancelled, tells.sends, ?_, fun c there => .inl (tells.calls c there)⟩
  rw [scene, scene, tells.now, tells.cancelled]
  exact tells.quietly.hush r _ _

theorem comes_offer (w : World) {c : Call} (permitted : r.permits (.sender c.sender))
    (payload : String) (patience : Patience) :
    Comes r c.sender c.tag w (w.offer c payload patience) := by
  rcases w.hub.offer_cases c.key ⟨.sender c.sender, payload⟩ patience
    (patience.isOver w.now w.cancelled) w.now with ⟨why, refused⟩ | ⟨l, there, unheard, taken⟩
  · rw [offer_refused refused]
    exact (w.tells_conclude c _).comes
  · have hush : Hush r w.scene ⟨w.now, w.cancelled, _⟩ :=
      Hub.hush_offer (r := r) (h := w.hub) (p := ⟨.sender c.sender, payload⟩) permitted taken
    have turnover := l.session.act_turnover
      (.offer ⟨.sender c.sender, payload⟩ patience (patience.isOver w.now w.cancelled) w.now)
    have member := turnover.stays (c := .sender c.sender) (.inr (by simp [Act.sender?]))
    rw [unheard] at member
    rw [offer_taken taken]
    refine ⟨rfl, rfl, rfl, hush, fun d there' => ?_⟩
    rcases List.mem_append.mp there' with old | new
    · exact .inl old
    · obtain rfl := List.mem_singleton.mp new
      refine .inr ⟨rfl, rfl, _, Hub.lane?_setLane_self there _, ?_⟩
      simpa [Act.leavers] using member

theorem comes_begin (permitted : r.permits (.sender w.sends)) (s : Send) :
    Comes r w.sends s.tag { w with sends := w.sends + 1 } (w.begin s) :=
  w.begin_induct s (P := Comes r w.sends s.tag { w with sends := w.sends + 1 })
    (fun _ _ => ⟨rfl, rfl, rfl, .refl, fun _ => .inl⟩)
    (fun _ before => { before with })
    (fun _ _ _ before => { before with })
    (fun v _ payload patience sender label _ before =>
      before.trans (sender ▸ label ▸ comes_offer v (sender ▸ permitted) payload patience))
    (fun _ _ _ before => { before with })
    fun v before => before.trans (tells_gather v _).comes

structure Ordered (w : World) : Prop where
  early : ∀ c ∈ w.calls, c.sender < w.sends
  tagged : ∀ c ∈ w.calls, ∀ d ∈ w.calls, c.sender = d.sender → c.tag = d.tag

/-- Each call has a parcel in the session that it went to. -/
def Linked (w : World) : Prop := ∀ c ∈ w.calls, w.Places c

structure Leads (r : Regime) (w w' : World) : Prop where
  sends : w.sends ≤ w'.sends
  ordered : w.Ordered → w'.Ordered
  linked : w.Ordered → w.Linked → w'.Linked
  deeds : ∃ told left, Deeds r w.scene told left w'.scene ∧
    (w.Ordered → ∀ c ∈ w'.calls, c.sender < w.sends →
      c ∈ w.calls ∧ .sender c.sender ∉ (told c.key).map (·.caller))

theorem Leads.refl (w : World) : Leads r w w :=
  ⟨Nat.le_refl _, id, fun _ => id, _, _, .refl, fun _ _ there _ => ⟨there, by simp⟩⟩

theorem Leads.trans {a b c : World} (first : Leads r a b) (second : Leads r b c) : Leads r a c := by
  obtain ⟨told, left, deeds, calls⟩ := first.deeds
  obtain ⟨more, gone, deeds', calls'⟩ := second.deeds
  refine ⟨Nat.le_trans first.sends second.sends, second.ordered ∘ first.ordered,
    fun ordered => second.linked (first.ordered ordered) ∘ first.linked ordered, _, _,
    deeds.trans deeds', fun ordered d there early => ?_⟩
  obtain ⟨there, unheard'⟩ := calls' (first.ordered ordered) d there
    (Nat.lt_of_lt_of_le early first.sends)
  obtain ⟨there, unheard⟩ := calls ordered d there early
  refine ⟨there, ?_⟩
  simp only [List.map_append, List.mem_append, not_or]
  exact ⟨unheard, unheard'⟩

theorem Ordered.fewer (ordered : w.Ordered) (sends : w'.sends = w.sends)
    (calls : ∀ c ∈ w'.calls, c ∈ w.calls) : w'.Ordered :=
  ⟨fun c there => sends ▸ ordered.early c (calls c there),
    fun c there d there' => ordered.tagged c (calls c there) d (calls d there')⟩

theorem Does.leads (does : Does r w w') : Leads r w w' := by
  obtain ⟨told, left, deeds, calls⟩ := does.deeds
  refine ⟨Nat.le_of_eq does.sends.symm, fun ordered => ordered.fewer does.sends fun c there =>
    (calls c there).1, fun _ linked c there => ?_, told, left, deeds, fun _ c there _ =>
    ⟨(calls c there).1, (calls c there).2.1⟩⟩
  obtain ⟨there, unheard, stays⟩ := calls c there
  exact (linked c there).deeds deeds unheard stays

theorem leads_begin (permitted : r.permits (.sender w.sends)) (s : Send) :
    Leads r w (w.begin s) := by
  have comes := comes_begin permitted s
  have hush : Hush r w.scene (w.begin s).scene := comes.hush
  have sends : (w.begin s).sends = w.sends + 1 := comes.sends
  have known (ordered : w.Ordered) {c : Call} (there : c ∈ w.calls) : c.sender ≠ w.sends :=
    Nat.ne_of_lt (ordered.early c there)
  refine ⟨by omega, fun ordered => ⟨fun c there => ?_, fun c there d there' same => ?_⟩,
    fun ordered linked c there => ?_, _, _, hush, fun ordered c there early => ?_⟩
  · rcases comes.calls c there with old | ⟨sender, _⟩
    · have early := ordered.early c old
      omega
    · omega
  · rcases comes.calls c there with old | ⟨sender, label, _⟩ <;>
      rcases comes.calls d there' with old' | ⟨sender', label', _⟩
    · exact ordered.tagged c old d old' same
    · exact absurd (same.trans sender') (known ordered old)
    · exact absurd (same.symm.trans sender) (known ordered old')
    · exact label.trans label'.symm
  · rcases comes.calls c there with old | ⟨_, _, places⟩
    · exact Places.deeds (linked c old) hush (by simp) (by simp)
    · exact places
  · rcases comes.calls c there with old | ⟨sender, _⟩
    · exact ⟨old, by simp⟩
    · omega

def Welcomes (permits : Caller → Prop) (w : World) (count : Nat) : Prop :=
  ∀ n, w.sends ≤ n → n < w.sends + count → permits (.sender n)

theorem leads_sends {sends : List Send} (welcomes : w.Welcomes r.permits sends.length) :
    Leads r w (sends.foldl begin w) := by
  induction sends generalizing w with
  | nil => exact .refl w
  | cons s sends ih =>
    have permitted := welcomes w.sends (Nat.le_refl _) (by simp)
    have sends : (w.begin s).sends = w.sends + 1 := (comes_begin permitted s).sends
    refine (leads_begin permitted s).trans (ih fun n after before => welcomes n ?_ ?_)
    · omega
    · rw [List.length_cons]
      omega

theorem deeds_giveUp (w : World) (c : Call) : ∃ left, Deeds r w.scene (fun _ => []) left
    (w.giveUp c).scene ∧ ∀ k, ∀ d ∈ left k, d = .sender c.sender := by
  cases there : w.hub.lane? c.key with
  | none =>
    have same : w.giveUp c = w := by
      simp [giveUp, Hub.updateSession, List.modify_eq_set_getElem?,
        show w.hub.lanes[c.key]? = none from there]
    refine ⟨fun _ => [], ?_, by simp⟩
    rw [same]
    exact .refl
  | some l =>
    have deed : Deed r w.scene (Hub.only c.key [])
        (Hub.only c.key ((Act.abort (.sender c.sender)).leavers l.session))
        ⟨w.now, w.cancelled, w.hub.setLane c.key
          { l with session := l.session.forget (.sender c.sender) }⟩ :=
      .lane there (.meets (x := ⟨w.now, w.cancelled, l⟩) (b := .abort (.sender c.sender)) id trivial
        (by simp [Act.sender?]))
    have moved : (w.giveUp c).hub =
        w.hub.setLane c.key { l with session := l.session.forget (.sender c.sender) } :=
      Hub.modify_lane there _
    rw [Hub.only_nil, ← moved] at deed
    refine ⟨_, deed.deeds, fun k d member => ?_⟩
    simp only [Hub.only] at member
    split at member
    · simpa using (List.mem_filter.mp member).2
    · simp at member

theorem deeds_abort (w : World) (tag : String) : ∃ left, Deeds r w.scene (fun _ => []) left
    (w.abort tag).scene ∧ ∀ k, ∀ d ∈ left k, ∃ c ∈ w.calls, c.tag = tag ∧ d = .sender c.sender := by
  have each (cs : List Call) (v : World) : ∃ left, Deeds r v.scene (fun _ => []) left
      (cs.foldl giveUp v).scene ∧ ∀ k, ∀ d ∈ left k, ∃ c ∈ cs, d = .sender c.sender := by
    induction cs generalizing v with
    | nil => exact ⟨fun _ => [], .refl, by simp⟩
    | cons c cs ih =>
      obtain ⟨left, deeds, who⟩ := v.deeds_giveUp c
      obtain ⟨gone, deeds', who'⟩ := ih (v.giveUp c)
      refine ⟨_, deeds.trans deeds', fun k d member => ?_⟩
      rcases List.mem_append.mp member with first | later
      · exact ⟨c, List.mem_cons_self, who k d first⟩
      · obtain ⟨e, there, own⟩ := who' k d later
        exact ⟨e, List.mem_cons_of_mem _ there, own⟩
  obtain ⟨left, deeds, who⟩ := each (w.calls.filter (·.tag == tag)) w
  refine ⟨left, deeds, fun k d member => ?_⟩
  obtain ⟨c, there, own⟩ := who k d member
  obtain ⟨there, label⟩ := List.mem_filter.mp there
  exact ⟨c, there, by simpa using label, own⟩

theorem calls_abort (w : World) (tag : String) :
    (w.abort tag).calls = w.calls.filter (·.tag != tag) := by
  have kept : ((w.calls.filter (·.tag == tag)).foldl giveUp w).calls = w.calls :=
    List.foldlRecOn (motive := fun v : World => v.calls = w.calls) _ giveUp rfl
      fun _ before _ _ => before
  simp only [abort, kept]

theorem sends_abort (w : World) (tag : String) : (w.abort tag).sends = w.sends := by
  unfold abort
  exact List.foldlRecOn (motive := fun v : World => v.sends = w.sends) (w.calls.filter (·.tag == tag))
    giveUp rfl fun _ before _ _ => before

theorem leads_abort (w : World) (tag : String) : Leads r w (w.abort tag) := by
  obtain ⟨left, deeds, who⟩ := w.deeds_abort (r := r) tag
  have fewer {c : Call} (there : c ∈ (w.abort tag).calls) : c ∈ w.calls ∧ c.tag ≠ tag := by
    rw [calls_abort] at there
    simpa using List.mem_filter.mp there
  refine ⟨Nat.le_of_eq (w.sends_abort tag).symm, fun ordered => ordered.fewer (w.sends_abort tag)
    fun c there => (fewer there).1, fun ordered linked c there => ?_, _, left, deeds,
    fun _ c there _ => ⟨(fewer there).1, by simp⟩⟩
  obtain ⟨there, other⟩ := fewer there
  refine (linked c there).deeds deeds (by simp) fun gone => ?_
  obtain ⟨d, there', label, own⟩ := who c.key _ gone
  exact other ((ordered.tagged c there d there' (Caller.sender.inj own)).trans label)

theorem does_lapse {key : Key} {l : Lane} (there : w.hub.lane? key = some l) {u : Waiter}
    (late : u.patience.isOver w.now w.cancelled = true)
    (waits : u ∈ l.session.waiting ∨ u.parcel.caller ∉ l.session.waitingCallers) :
    Does r w (w.update key (l.lapse u.parcel.caller)) := by
  rcases waits with waits | none
  · have step := Lane.Step.meets (r := r) (x := ⟨w.now, w.cancelled, l⟩) (b := .lapse u.parcel.caller)
      id ⟨u, waits, rfl, late⟩ (by simp [Act.sender?])
    simp only [Session.act, Session.isWaiting_of_mem waits, if_true] at step
    exact does_update there step (List.Subset.refl _)
  · have all : l.session.waiting.filter (·.parcel.caller != u.parcel.caller) = l.session.waiting := by
      refine List.filter_eq_self.mpr fun v there => ?_
      simp only [bne_iff_ne, ne_eq]
      exact fun own => none (List.mem_map.mpr ⟨v, there, own⟩)
    have same : (l.lapse u.parcel.caller).1 = l := by simp [Lane.lapse, Session.forget, all]
    have still : Lane.Step r ⟨w.now, w.cancelled, l⟩ [] []
        ⟨w.now, w.cancelled, (l.lapse u.parcel.caller).1⟩ := by
      rw [same]
      exact .shifts (x := ⟨w.now, w.cancelled, l⟩) rfl
    exact does_update there still (List.nil_subset _)

/-- The token is cancelled already. Those who waited with it lapse one after the other. -/
theorem does_cancelIn {token : String} {w : World} (done : token ∈ w.cancelled) (key : Key) :
    Does r w (cancelIn token w key) := by
  have each (us : List Waiter) : ∀ v : World, v.cancelled = w.cancelled →
      (∀ l, v.hub.lane? key = some l → ∀ u ∈ us,
        u ∈ l.session.waiting ∨ u.parcel.caller ∉ l.session.waitingCallers) →
      (∀ u ∈ us, u.patience.token = some token) →
      Does r v (us.foldl (lapseAt key) v) := by
    induction us with
    | nil => exact fun v _ _ _ => .refl v
    | cons u us ih =>
      intro v cancelled waiting tokens
      rw [List.foldl_cons, lapseAt]
      cases there : v.hub.lane? key with
      | none =>
        refine ih v cancelled (fun l there' => ?_) fun u member =>
          tokens u (List.mem_cons_of_mem _ member)
        simp [there] at there'
      | some l =>
        have late : u.patience.isOver v.now v.cancelled = true := by
          simp [Patience.isOver, tokens u List.mem_cons_self, cancelled, done]
        have lapsed := does_lapse (r := r) there late (waiting l there u List.mem_cons_self)
        refine lapsed.trans (ih _ (lapsed.cancelled.trans cancelled) (fun l' there' x member => ?_)
          fun u member => tokens u (List.mem_cons_of_mem _ member))
        -- Notices of the others move nobody, so the one that lapsed is all that is gone.
        have told := tells_deliverAll { v with
          hub := v.hub.setLane key (l.lapse u.parcel.caller).1 } key (l.lapse u.parcel.caller).2
        obtain ⟨k, at_key, same⟩ :=
          told.quietly.lane (Hub.lane?_setLane_self there _)
        obtain rfl : k = l' := Option.some.inj (at_key.symm.trans there')
        rw [Session.waitingCallers, same]
        rcases waiting l there x (List.mem_cons_of_mem _ member) with waits | none
        · by_cases own : x.parcel.caller = u.parcel.caller
          · exact .inr (by simp [Lane.lapse, Session.forget, own])
          · exact .inl (List.mem_filter.mpr ⟨waits, by simpa using own⟩)
        · refine .inr fun waits => none ?_
          obtain ⟨y, there, own⟩ := List.mem_map.mp waits
          exact List.mem_map.mpr ⟨y, List.mem_of_mem_filter there, own⟩
  rw [cancelIn_eq]
  cases there : w.hub.lane? key with
  | none => exact .refl w
  | some l =>
    refine each _ w rfl (fun l' there' u member => .inl ?_) fun u member => ?_
    · obtain rfl : l = l' := Option.some.inj (there.symm.trans there')
      exact List.mem_of_mem_filter member
    · simpa using (List.mem_filter.mp member).2

theorem leads_later {now : Nat} {cancelled : List String} (forward : w.now ≤ now)
    (grown : ∀ token ∈ w.cancelled, token ∈ cancelled)
    (rests : r.prompt → w.now < now → ∀ key l, w.hub.lane? key = some l → l.Rests w.now now) :
    Leads r w { w with now, cancelled } := by
  have deed : Deed r w.scene _ _ ⟨now, cancelled, w.hub⟩ := .passes forward grown rests
  exact ⟨Nat.le_refl _, fun ordered => { ordered with }, fun _ linked => linked, _, _, deed.deeds,
    fun _ c there _ => ⟨there, by simp⟩⟩

theorem leads_cancel (w : World) (token : String) : Leads r w (w.cancel token) := by
  have each (keys : List Key) : ∀ v : World, token ∈ v.cancelled →
      Does r v (keys.foldl (cancelIn token) v) := by
    induction keys with
    | nil => exact fun v _ => .refl v
    | cons key keys ih =>
      intro v done
      have first := does_cancelIn (r := r) done key
      exact first.trans (ih _ (first.cancelled ▸ done))
  have noted : Leads r w { w with cancelled := token :: w.cancelled } :=
    leads_later (Nat.le_refl w.now) (fun _ => List.mem_cons_of_mem token)
      fun _ later => absurd later (Nat.lt_irrefl _)
  exact noted.trans (each _ { w with cancelled := token :: w.cancelled } List.mem_cons_self).leads

def LanesStill (w : World) : Prop := ∀ key l, w.hub.lane? key = some l → l.act? w.now = none

theorem lanesStill_of_find? (none : (w.keys.find? fun key => (w.laneStep? key).isSome) = none) :
    w.LanesStill := by
  intro key l there
  have inside := (List.getElem?_eq_some_iff.mp there).1
  have rests := List.find?_eq_none.mp none key (List.mem_range.mpr inside)
  simpa [laneStep?, there] using rests

theorem next?_ring {w : World} {b : Bell} (next : w.next? = some (.ring b)) :
    ∃ a, (a, b) ∈ w.alarms ∧ a.due ≤ w.now ∧ w.LanesStill := by
  unfold next? at next
  simp only [Option.orElse_eq_some, Option.map_eq_some_iff, reduceCtorEq, and_false, exists_false,
    false_or, Move.ring.injEq] at next
  obtain ⟨still, _, _, _, ⟨a, _⟩, first, rfl⟩ := next
  obtain ⟨earliest, due⟩ := Option.filter_eq_some_iff.mp first
  exact ⟨a, earliest?_mem earliest, by simpa using due,
    lanesStill_of_find? (Option.map_eq_none_iff.mp still)⟩

theorem does_quiet (w : World) {a : Hub.Act} (quiet : a.Quiet) :
    Does r w { w with hub := w.hub.act a } :=
  does_of_hush rfl rfl rfl (fun _ there => there) ((w.hub.quietly_act quiet).hush r _ _)

theorem does_session (w : World) (key : Key) {b : Act} (outer : ¬b.IsWriters)
    (timely : ∀ s, b.Timely s w.now w.cancelled) (silent : b.sender? = none)
    (unheard : ∀ s : Session, (s.act b).2 = [] ∧ b.leavers s = []) :
    Does r w { w with hub := w.hub.act (.session key b) } :=
  does_of_hush rfl rfl rfl (fun _ there => there)
    (w.hub.hush_session key outer timely silent unheard)

theorem does_ring {a : Alarm} {b : Bell} (member : (a, b) ∈ w.alarms) (due : a.due ≤ w.now)
    (still : w.LanesStill) : Does r w (w.ring b) := by
  cases ringsFor_of_mem member with
  | @writer key l there alarm =>
    simp only [ring, there]
    exact does_update there
      (.rings (x := ⟨w.now, w.cancelled, l⟩) (still key l there) alarm due) (List.Subset.refl _)
  | waiter there waits deadline =>
    simp only [ring, there]
    exact does_lapse there (by simp [Patience.isOver, deadline, due]) (.inl waits)
  | sweeper =>
    simp only [ring]
    split
    · rename_i s _
      have swept := w.does_quiet (r := r) (a := .sweep s.maxIdle w.now) ⟨by simp, by simp, by simp⟩
      exact { swept with }
    · exact .refl w

theorem does_visitorStep? {v : Visitor} (did : w.visitorStep? v = some w') : Does r w w' := by
  obtain ⟨⟨connection, hub⟩, acted, did⟩ := Option.bind_eq_some_iff.mp did
  obtain rfl := Option.some.inj did
  exact does_of_hush rfl rfl rfl (fun _ there => there) (Connection.hush_act? rfl acted)

theorem does_make {m : Move} (next : w.next? = some m) : Does r w (w.make m) := by
  cases m with
  | lane key =>
    simp only [make]
    split
    · rename_i moved step
      obtain ⟨l, there, act⟩ := Option.bind_eq_some_iff.mp step
      exact does_update there (.acts (x := ⟨w.now, w.cancelled, l⟩) act) (List.Subset.refl _)
    · exact .refl w
  | visitor v =>
    simp only [make]
    cases did : w.visitorStep? v with
    | none => exact .refl w
    | some w' => exact does_visitorStep? did
  | watch v => exact { Does.refl w with }
  | orphan key =>
    exact w.does_session key (b := .orphan) id (fun _ => trivial) rfl fun _ => ⟨rfl, rfl⟩
  | ring b =>
    obtain ⟨a, member, due, still⟩ := next?_ring next
    exact does_ring member due still

theorem settleFor_keeps {R : World → World → Prop} (refl : ∀ w, R w w)
    (trans : ∀ {u v w : World}, R u v → R v w → R u w)
    (make : ∀ {w : World} {m : Move}, w.next? = some m → R w (w.make m)) (fuel : Nat) (w : World) :
    R w (w.settleFor fuel) := by
  induction fuel generalizing w with
  | zero => exact refl w
  | succ fuel ih =>
    unfold settleFor step?
    cases next : w.next? with
    | none => exact refl w
    | some m => exact trans (make next) (ih (w.make m))

theorem does_settleFor (fuel : Nat) (w : World) : Does r w (w.settleFor fuel) :=
  settleFor_keeps .refl .trans does_make fuel w

theorem now_settle (w : World) : w.settle.now = w.now :=
  (does_settleFor (r := .free False) w.effort w).now

section Time

variable {R : World → World → Prop} (refl : ∀ w, R w w)
  (trans : ∀ {u v w : World}, R u v → R v w → R u w)
  (make : ∀ {w : World} {m : Move}, w.next? = some m → R w (w.make m))
  (time : ∀ {w : World} {now : Nat}, w.now ≤ now → R w { w with now })

include refl trans make time

theorem settleAt_keeps {w : World} {now : Nat} (forward : w.now ≤ now) :
    R w ({ w with now } : World).settle :=
  trans (time forward) (settleFor_keeps refl trans make _ _)

/-- What the moves and the time keep is kept while alarms come, one after the other. -/
theorem advanceTo_keeps {target : Nat} (fuel : Nat) {w : World} (past : w.now ≤ target) :
    R w (advanceTo target fuel w) := by
  induction fuel generalizing w with
  | zero => exact settleAt_keeps refl trans make time past
  | succ fuel ih =>
    unfold advanceTo
    split
    · rename_i alarm _ _
      split
      · rename_i due
        have first := settleAt_keeps refl trans make time (Nat.le_max_left w.now alarm.due)
        refine trans first (ih ?_)
        rw [now_settle]
        exact Nat.max_le.mpr ⟨past, due⟩
      · exact settleAt_keeps refl trans make time past
    · exact settleAt_keeps refl trans make time past

end Time

theorem leads_time (hasty : ¬r.prompt) {now : Nat} (forward : w.now ≤ now) :
    Leads r w { w with now } :=
  leads_later forward (fun _ there => there) fun prompt => absurd prompt hasty

theorem isFresh_lane (w : World) (o : Opening) (config : Config) : (w.lane o config).IsFresh := by
  refine ⟨?_, rfl⟩
  cases discarded : o.discarded <;> exact ⟨config, w.now, by simp [lane, discarded]⟩

theorem openedBy_lane (w : World) (o : Opening) (config : Config) :
    (w.lane o config).OpenedBy config := by
  cases discarded : o.discarded <;> exact ⟨w.now, by simp [lane, discarded]⟩

theorem does_enter (w : World) (o : Opening) : Does r w (w.enter o).1 := by
  have entered : Does r w { w with hub := (w.hub.enter (w.lane o w.hub.config)).1 } :=
    does_of_hush rfl rfl rfl (fun _ there => there)
      (w.hub.hush_enter (w.isFresh_lane o w.hub.config) (w.openedBy_lane o w.hub.config) w.now
        w.cancelled)
  unfold enter
  simp only
  split <;> exact { entered with }

theorem does_spawn (adds : r.adds) (w : World) (o : Opening) (config : Config) :
    Does r w (w.spawn o config).1 := by
  have fresh : Hub.Act.Plain r w.hub.config (.add (w.lane o config)) :=
    ⟨by simp, by simp, by simpa using w.isFresh_lane o config, by simp, by simp [adds]⟩
  exact does_of_hush rfl rfl rfl (fun _ there => there)
    (Deed.acts (x := ⟨w.now, w.cancelled, w.hub⟩) fresh).deeds

theorem does_modify (w : World) (key : Key) {f : Lane → Lane}
    (shifts : ∀ l, ∃ s : Stream, f l = { l with stream := s } ∧ s.closes = l.stream.closes) :
    Does r w { w with hub := { w.hub with lanes := w.hub.lanes.modify key f } } :=
  does_of_hush rfl rfl rfl (fun _ there => there) (w.hub.hush_modify key shifts w.now w.cancelled)

theorem does_changeSocketOf (w : World) (c : Connection) {change : Socket → Socket}
    (kept : ∀ s, (change s).shut = s.shut) : Does r w (w.changeSocketOf c change) := by
  unfold changeSocketOf
  split
  · exact .refl w
  · refine w.does_modify _ fun l => ?_
    unfold changeSocket
    split
    · rename_i s same
      exact ⟨_, rfl, by simp [same, kept]⟩
    · exact ⟨l.stream, rfl, rfl⟩

theorem shut_setReader (s : Socket) (reader : Reader) : (s.setReader reader).shut = s.shut := by
  unfold Socket.setReader Socket.absorb
  split <;> rfl

theorem does_act (w : World) (v : Visitor) (action : ClientAction) : Does r w (w.act v action) := by
  have seen (v' : Visitor) : Does r w (w.setVisitor v') := { Does.refl w with }
  exact (seen _).trans (does_changeSocketOf _ _ fun s => shut_setReader s _)

/-- What a step leads to. Time may pass with it only if it may pass beyond what is due, and a session
may be added without being registered only if that is allowed. -/
theorem leads_perform {s : Step} (welcomes : w.Welcomes r.permits s.begun)
    (hasty : s.elapses = true → ¬r.prompt) (adds : s.spawns = true → r.adds) :
    Leads r w (w.perform s).1 := by
  have done := w.performs s
  generalize (w.perform s).1 = v at done ⊢
  cases done with
  | enters o => exact (w.does_enter o).leads
  | spawns o config => exact (w.does_spawn (adds rfl) o _).leads
  | registers => exact (w.does_quiet (a := .register _) ⟨by simp, by simp, by simp⟩).leads
  | acts instant quiet => exact (w.does_quiet quiet).leads
  | moves instant key sort =>
    rcases sort with rfl | rfl
    · exact (w.does_session key (b := .close) id (fun _ => trivial) rfl fun _ => ⟨rfl, rfl⟩).leads
    · exact (w.does_session key (b := .touch w.now) id (fun _ => trivial) rfl
        fun _ => ⟨rfl, rfl⟩).leads
  | script name change key =>
    refine (w.does_modify key fun l => ?_).leads
    unfold changeScript
    split
    · rename_i p same
      exact ⟨_, rfl, by simp [same]⟩
    · exact ⟨l.stream, rfl, rfl⟩
  | client action => exact (w.does_act _ action).leads
  | sends sends => exact leads_sends welcomes
  | aborts tag => exact w.leads_abort tag
  | cancels token => exact w.leads_cancel token
  | advances ms =>
    exact advanceTo_keeps .refl .trans (fun next => (does_make next).leads)
      (leads_time (hasty rfl)) _ (Nat.le_add_right ..)
  | jumps ms =>
    exact settleAt_keeps .refl .trans (fun next => (does_make next).leads)
      (leads_time (hasty rfl)) (Nat.le_add_right ..)
  | still => exact .refl w
  | _ => exact Does.leads { Does.refl w with }

theorem does_visit (w : World) (v : Visitor) : Does r w (w.visit v).1 := by
  have read : Does r w (w.changeSocketOf v.connection Socket.readAll) :=
    w.does_changeSocketOf v.connection fun _ => rfl
  unfold visit collect
  simp only
  split
  · exact { read with }
  · exact { Does.refl w with }

theorem does_visitAll (w : World) : Does r w w.visitAll.1 := by
  rw [visitAll_fst]
  exact w.visitors.foldlRecOn (motive := Does r w) _ (.refl w) fun v done u _ =>
    done.trans (v.does_visit u)

end World

end Courier.Scenario
