import Courier.Proofs.Hub.Journal

set_option autoImplicit false

namespace Courier

structure Errand where
  id : SessionId
  key : Key
  /-- How many events there were when it was found. -/
  since : Nat
  outcome : Option Outcome
  deriving DecidableEq, Repr

/-- The hub and the sends by id, which are numbered as they come. -/
structure Traffic where
  hub : Hub
  errands : List Errand

namespace Traffic

inductive Act
  | hub (a : Hub.Act)
  | find (id : SessionId)
  /-- A producer offers its parcel to the session that it found. -/
  | hand (number : Nat) (payload : String) (patience : Patience) (spent : Bool) (now : Nat)
  /-- A producer that knows the outcome of its parcel cleans up and returns. -/
  | conclude (number : Nat)

@[simp]
def start (config : Config) : Traffic := ⟨.start config, []⟩

def hear (t : Traffic) (key : Key) (notices : List Notice) : Traffic :=
  { t with errands := t.errands.mapIdx fun number d =>
      match notices.find? fun n => n.caller == .sender number && d.key == key with
      | some n => { d with outcome := d.outcome.getD n.outcome }
      | none => d }

def notices (h : Hub) (key : Key) (a : Session.Act) : List Notice :=
  ((h.lane? key).map fun l => (l.session.act a).2).getD []

def act (t : Traffic) : Act → Traffic
  | .hub (.session key a) =>
    { t with hub := t.hub.act (.session key a) }.hear key (notices t.hub key a)
  | .hub a => { t with hub := t.hub.act a }
  | .find id =>
    match t.hub.route id with
    | .ok key => { t with errands := t.errands ++ [⟨id, key, t.hub.journal.length, none⟩] }
    | .error _ => t
  | .hand number payload patience spent now =>
    match t.errands[number]? with
    | some d =>
      let (hub, refusal) := t.hub.offer d.key ⟨.sender number, payload⟩ patience spent now
      { t with hub }.hear d.key (refusal.toList.map fun r => ⟨.sender number, .refused r⟩)
    | none => t
  | .conclude number =>
    match t.errands[number]?.bind fun d => d.outcome.map fun o => t.hub.conclude d.id d.key o with
    | some (hub, _) => { t with hub }
    | none => t

def run (t : Traffic) (acts : List Act) : Traffic := acts.foldl act t

end Traffic

namespace Hub

/-- The lane that was registered under an id when there were `since` events has been taken out. -/
def Gone (h : Hub) (id : SessionId) (key : Key) (since : Nat) : Prop :=
  h.isLive key = false ∧ ∃ removal rest,
    eventsOf (h.journal.drop since) id = removal :: rest ∧ removal.isRemoval = true

structure Tracked (h : Hub) (id : SessionId) (key : Key) (since : Nat) : Prop where
  past : since ≤ h.journal.length
  lane : ∃ l, h.lane? key = some l
  state : (h.entry? id = some ⟨id, key⟩ ∧ eventsOf (h.journal.drop since) id = []) ∨
    h.Gone id key since

theorem eventsOf_grown {old more : List Event} {since : Nat} (past : since ≤ old.length)
    (id : SessionId) :
    eventsOf ((old ++ more).drop since) id = eventsOf (old.drop since) id ++ eventsOf more id := by
  rw [List.drop_append_of_le_length past, eventsOf_append]

theorem Change.grows {h h' : Hub} {m n : Nat} (change : Change h h' m n) :
    ∃ more, h'.journal = h.journal ++ more := by
  induction change with
  | quiet _ _ journal => exact ⟨[], by rw [journal, List.append_nil]⟩
  | enrolled _ _ _ _ _ _ journal => exact ⟨_, journal⟩
  | takenOut _ _ _ _ _ _ _ journal => exact ⟨_, journal⟩
  | replaced _ _ _ _ _ _ _ _ _ journal => exact ⟨_, journal⟩
  | trans _ _ first second =>
    obtain ⟨more, grown⟩ := first
    obtain ⟨more', grown'⟩ := second
    exact ⟨more ++ more', by rw [grown', grown, List.append_assoc]⟩

theorem Gone.change {h h' : Hub} {m n : Nat} {id : SessionId} {key : Key} {since : Nat}
    (gone : h.Gone id key since) (change : Change h h' m n) (past : since ≤ h.journal.length)
    (lane : ∃ l, h.lane? key = some l) : h'.Gone id key since := by
  obtain ⟨dead, removal, rest, events, isRemoval⟩ := gone
  obtain ⟨l, there⟩ := lane
  obtain ⟨more, grown⟩ := change.grows
  refine ⟨change.follows.dead there dead, removal, rest ++ eventsOf more id, ?_, isRemoval⟩
  rw [grown, eventsOf_grown past, events, List.cons_append]

theorem Change.entry_cases {h h' : Hub} {m n : Nat} (change : Change h h' m n) {id : SessionId}
    {key : Key} {l : Lane} (lane : h.lane? key = some l) (entry : h.entry? id = some ⟨id, key⟩) :
    (h'.entry? id = some ⟨id, key⟩ ∧
      ∃ more, h'.journal = h.journal ++ more ∧ eventsOf more id = []) ∨
    (h'.isLive key = false ∧ ∃ more removal rest, h'.journal = h.journal ++ more ∧
      eventsOf more id = removal :: rest ∧ removal.isRemoval = true) := by
  induction change generalizing l with
  | quiet _ entries journal =>
    exact .inl ⟨by rw [entry_eq, entries]; exact entry, [], by rw [journal, List.append_nil], rfl⟩
  | @enrolled h h' k l' _ free _ entries journal =>
    have other : l'.id ≠ id := fun same => by
      simp [entry_none.mpr (same ▸ free)] at entry
    refine .inl ⟨?_, _, journal, by rw [eventsOf_singleton]; exact if_neg other⟩
    rw [entry_eq, entries, List.find?_append]
    rw [entry_eq] at entry
    rw [entry, Option.some_or]
  | @takenOut h h' e reason sent there _ dead entries journal =>
    by_cases same : e.id = id
    · have this : e = ⟨id, key⟩ := by
        rw [same, entry, Option.some.injEq] at there
        exact there.symm
      rw [this] at dead
      refine .inr ⟨dead, _, .removed e.id reason sent, [], journal, ?_, rfl⟩
      rw [eventsOf_singleton]
      exact if_pos same
    · refine .inl ⟨?_, _, journal, by rw [eventsOf_singleton]; exact if_neg same⟩
      rw [entry_eq, entries, List.find?_filter]
      rw [entry_eq] at entry
      rw [← entry]
      congr 1
      funext f
      by_cases about : f.id = id <;> simp [about, Ne.symm same]
  | @replaced h h' k l' old sent _ there dead follows entries journal =>
    by_cases same : l'.id = id
    -- it is the session in question that is replaced, and only a dead one is
    · have this : old = ⟨id, key⟩ := by
        rw [same, entry, Option.some.injEq] at there
        exact there.symm
      rw [this] at dead
      refine .inr ⟨follows.dead lane dead, _, .removed l'.id .replaced sent,
        [.registered l'.id l'.client], journal, ?_, rfl⟩
      simp [eventsOf, same]
    · refine .inl ⟨?_, _, journal, by simp [eventsOf, same]⟩
      rw [entry_eq, entries, rebind, List.find?_map]
      have unmoved : (fun e : Entry => e.id == id) ∘
          (fun e : Entry => if e.id == l'.id then ⟨l'.id, k⟩ else e) = fun e => e.id == id := by
        funext f
        by_cases about : f.id = l'.id <;> simp [about]
      rw [unmoved]
      rw [entry_eq] at entry
      simp [entry, Ne.symm same]
  | @trans a b c _ _ _ _ first second ih ih' =>
    obtain ⟨lb, laneb, _⟩ := first.follows key l lane
    rcases ih lane entry with ⟨kept, more, grown, none⟩ | ⟨dead, more, removal, rest, grown, own, is⟩
    · rcases ih' laneb kept with ⟨kept', more', grown', none'⟩ |
        ⟨dead', more', removal, rest, grown', own, is⟩
      · exact .inl ⟨kept', more ++ more', by rw [grown', grown, List.append_assoc],
          by rw [eventsOf_append, none, none', List.append_nil]⟩
      · exact .inr ⟨dead', more ++ more', removal, rest, by rw [grown', grown, List.append_assoc],
          by rw [eventsOf_append, none, own, List.nil_append], is⟩
    · obtain ⟨more', grown'⟩ := second.grows
      exact .inr ⟨second.follows.dead laneb dead, more ++ more', removal, rest ++ eventsOf more' id,
        by rw [grown', grown, List.append_assoc], by rw [eventsOf_append, own, List.cons_append], is⟩

theorem Tracked.change {h h' : Hub} {m n : Nat} {id : SessionId} {key : Key} {since : Nat}
    (tracked : h.Tracked id key since) (change : Change h h' m n) : h'.Tracked id key since := by
  obtain ⟨past, ⟨l, lane⟩, state⟩ := tracked
  obtain ⟨l', lane', _⟩ := change.follows key l lane
  obtain ⟨all, grown⟩ := change.grows
  refine ⟨?_, ⟨l', lane'⟩, ?_⟩
  · rw [grown, List.length_append]
    omega
  rcases state with ⟨entry, none⟩ | gone
  · rcases change.entry_cases lane entry with ⟨kept, more, grown, none'⟩ |
      ⟨dead, more, removal, rest, grown, own, is⟩
    · exact .inl ⟨kept, by rw [grown, eventsOf_grown past, none, none', List.append_nil]⟩
    · exact .inr ⟨dead, removal, rest, by rw [grown, eventsOf_grown past, none, own]; rfl, is⟩
  · exact .inr (gone.change change past ⟨l, lane⟩)

theorem lookup_eq_some {h : Hub} {id : SessionId} {key : Key} (found : h.lookup id = some key) :
    h.entry? id = some ⟨id, key⟩ ∧ h.isLive key = true := by
  obtain ⟨there, live⟩ := Option.filter_eq_some_iff.mp found
  obtain ⟨⟨id', key'⟩, entry, same⟩ := Option.map_eq_some_iff.mp there
  have own : id' = id := (entry_mem entry).2
  exact ⟨by rw [entry, own]; exact congrArg _ (congrArg _ same), live⟩

theorem route_eq_ok {h : Hub} {id : SessionId} {key : Key} (found : h.route id = .ok key) :
    h.lookup id = some key := by
  unfold route at found
  cases lookup : h.lookup id with
  | none => simp [lookup] at found
  | some k =>
    simp only [lookup, Except.ok.injEq] at found
    rw [found]

theorem route_unknown {h : Hub} {id : SessionId} (absent : id ∉ h.ids) :
    h.route id = .error (.unknownSession id.text) := by
  simp [route, lookup, entry_none.mpr absent]

theorem tracked_route {h : Hub} {id : SessionId} {key : Key} (found : h.route id = .ok key) :
    h.Tracked id key h.journal.length := by
  obtain ⟨entry, live⟩ := lookup_eq_some (route_eq_ok found)
  refine ⟨le_refl _, ?_, .inl ⟨entry, by rw [List.drop_length]; rfl⟩⟩
  cases lane : h.lane? key with
  | none => simp [isLive, lane] at live
  | some l => exact ⟨l, rfl⟩

/-- Once a lane has been taken out, the events of its id start with one removal, and the id is unknown
until it is registered anew. -/
theorem Gone.events {h : Hub} {id : SessionId} {key : Key} {since : Nat} (gone : h.Gone id key since)
    (faithful : h.Faithful) : ∃ removal rest,
      eventsOf (h.journal.drop since) id = removal :: rest ∧ removal.isRemoval = true ∧
      (∀ e, rest.head? = some e → e.isRemoval = false) ∧
      ((∀ e ∈ rest, e.isRemoval = true) → h.route id = .error (.unknownSession id.text)) := by
  obtain ⟨_, removal, rest, events, is⟩ := gone
  have all : eventsOf h.journal id = eventsOf (h.journal.take since) id ++ removal :: rest := by
    rw [← events, ← eventsOf_append, List.take_append_drop]
  have turn := faithful.alternate.turns id (eventsOf (h.journal.take since) id).length removal
    (by rw [all, List.getElem?_append_right (le_refl _)]; simp)
  have next : ∀ e, rest.head? = some e → e.isRemoval = false := by
    intro e head
    have after := faithful.alternate.turns id ((eventsOf (h.journal.take since) id).length + 1) e (by
      rw [all, List.getElem?_append_right (by omega), Nat.add_sub_cancel_left, ← head]
      simp [List.head?_eq_getElem?])
    rw [← Bool.not_eq_true, after]
    have odd := turn.mp is
    omega
  refine ⟨removal, rest, events, is, next, ?_⟩
  intro removals
  have last : rest = [] := by
    cases rest with
    | nil => rfl
    | cons e rest => simpa [next e rfl] using removals e List.mem_cons_self
  apply route_unknown
  rw [← faithful.mem_replay, faithful.alternate.present, all, last, List.length_append,
    List.length_singleton]
  have odd := turn.mp is
  omega

theorem entry_removeIfSame (h : Hub) (id : SessionId) (key : Key) (reason : Reason) :
    Hub.entry? (h.removeIfSame id key reason).1 id ≠ some ⟨id, key⟩ := by
  unfold removeIfSame
  cases entry : h.entry? id with
  | none => simp [entry]
  | some e =>
    have own : e.id = id := (entry_mem entry).2
    by_cases same : e.key = key
    · have out : Hub.entry? (h.takeOut e reason) id = none := by
        rw [entry_none, takeOut, ids]
        simp [own]
      simp [same, out]
    · have kept : e ≠ ⟨id, key⟩ := fun this => same (congrArg Entry.key this)
      simpa [same, entry] using kept

theorem removeIfSame_other {h : Hub} {id : SessionId} {key : Key} {reason : Reason} {e : Entry}
    (entry : h.entry? id = some e) (other : e.key ≠ key) : (h.removeIfSame id key reason).1 = h := by
  simp [removeIfSame, entry, other]

theorem conclude_fatal {h : Hub} {id : SessionId} {key : Key} {o : Outcome} {why : String}
    (failed : answer id o = .error (.sendFailed id.text why)) :
    (h.conclude id key o).1 = (h.removeIfSame id key .sendFailed).1 := by
  simp [conclude, failed, SendError.isFatal]

theorem conclude_harmless {h : Hub} {id : SessionId} {key : Key} {o : Outcome}
    (fine : ∀ why, answer id o ≠ .error (.sendFailed id.text why)) : (h.conclude id key o).1 = h := by
  unfold conclude
  cases o with
  | written n => rfl
  | refused r =>
    cases r with
    | failed f => exact absurd rfl (fine f.message)
    | full => rfl
    | lapsed => rfl

end Hub

namespace Traffic

theorem act_change (t : Traffic) (a : Act) : ∃ m n, Hub.Change t.hub (t.act a).hub m n := by
  cases a with
  | hub a =>
    have change := t.hub.act_change a
    cases a <;> exact ⟨_, _, change⟩
  | find id =>
    simp only [act]
    cases t.hub.route id <;> exact ⟨_, _, .refl t.hub⟩
  | hand number payload patience spent now =>
    simp only [act]
    cases t.errands[number]? with
    | none => exact ⟨_, _, .refl t.hub⟩
    | some d =>
      have change := t.hub.act_change
        (.session d.key (.offer ⟨.sender number, payload⟩ patience spent now))
      rw [← Hub.offer_eq] at change
      exact ⟨_, _, change⟩
  | conclude number =>
    simp only [act]
    split
    · rename_i hub result concluded
      obtain ⟨d, _, concluded⟩ := Option.bind_eq_some_iff.mp concluded
      obtain ⟨o, _, concluded⟩ := Option.map_eq_some_iff.mp concluded
      have change := t.hub.change_conclude d.id d.key o
      rw [concluded] at change
      exact ⟨_, _, change⟩
    · exact ⟨_, _, .refl t.hub⟩

theorem run_change (t : Traffic) (acts : List Act) : ∃ m n, Hub.Change t.hub (t.run acts).hub m n := by
  induction acts generalizing t with
  | nil => exact ⟨_, _, .refl t.hub⟩
  | cons a acts ih =>
    obtain ⟨_, _, first⟩ := t.act_change a
    obtain ⟨_, _, rest⟩ := ih (t.act a)
    exact ⟨_, _, first.trans rest⟩

theorem errands_act {t : Traffic} {a : Act} {d : Errand} (member : d ∈ (t.act a).errands) :
    (∃ d' ∈ t.errands, d'.id = d.id ∧ d'.key = d.key ∧ d'.since = d.since) ∨
    (t.hub.route d.id = .ok d.key ∧ d.since = t.hub.journal.length ∧ (t.act a).hub = t.hub) := by
  have heard (h : Hub) (key : Key) (notices : List Notice)
      (member : d ∈ (hear { t with hub := h } key notices).errands) :
      ∃ d' ∈ t.errands, d'.id = d.id ∧ d'.key = d.key ∧ d'.since = d.since := by
    obtain ⟨number, inside, rfl⟩ := List.mem_mapIdx.mp member
    refine ⟨t.errands[number], List.getElem_mem inside, ?_⟩
    split <;> exact ⟨rfl, rfl, rfl⟩
  cases a with
  | hub a =>
    cases a with
    | session key a => exact .inl (heard _ key _ member)
    | _ => exact .inl ⟨d, member, rfl, rfl, rfl⟩
  | find id =>
    simp only [act] at member ⊢
    cases found : t.hub.route id with
    | error e => exact .inl ⟨d, by simpa [found] using member, rfl, rfl, rfl⟩
    | ok key =>
      simp only [found, List.mem_append, List.mem_singleton] at member
      rcases member with old | rfl
      · exact .inl ⟨d, old, rfl, rfl, rfl⟩
      · exact .inr ⟨found, rfl, rfl⟩
  | hand number payload patience spent now =>
    simp only [act] at member
    cases found : t.errands[number]? with
    | none => exact .inl ⟨d, by simpa [found] using member, rfl, rfl, rfl⟩
    | some d' =>
      simp only [found] at member
      exact .inl (heard _ d'.key _ member)
  | conclude number =>
    simp only [act] at member
    split at member <;> exact .inl ⟨d, member, rfl, rfl, rfl⟩

structure Sound (t : Traffic) : Prop where
  faithful : t.hub.Faithful
  tracked : ∀ d ∈ t.errands, t.hub.Tracked d.id d.key d.since

theorem Sound.act {t : Traffic} (sound : t.Sound) (a : Act) : (t.act a).Sound := by
  obtain ⟨m, n, change⟩ := t.act_change a
  refine ⟨change.faithful sound.faithful, fun d member => ?_⟩
  rcases errands_act member with ⟨d', old, id, key, since⟩ | ⟨found, since, same⟩
  · rw [← id, ← key, ← since]
    exact (sound.tracked d' old).change change
  · rw [since, same]
    exact Hub.tracked_route found

theorem Sound.run {t : Traffic} (sound : t.Sound) (acts : List Act) : (t.run acts).Sound := by
  induction acts generalizing t with
  | nil => exact sound
  | cons a acts ih => exact ih (sound.act a)

theorem sound_start (config : Config) : (start config).Sound :=
  ⟨Hub.faithful_start config, by simp⟩

theorem hub_conclude {t : Traffic} {number : Nat} {d : Errand} {o : Outcome}
    (found : t.errands[number]? = some d) (known : d.outcome = some o) :
    (t.act (.conclude number)).hub = (t.hub.conclude d.id d.key o).1 := by
  simp [act, found, known]

theorem hub_find (t : Traffic) (id : SessionId) : (t.act (.find id)).hub = t.hub := by
  simp only [act]
  cases t.hub.route id <;> rfl

theorem hub_hand (t : Traffic) (number : Nat) (payload : String) (patience : Patience) (spent : Bool)
    (now : Nat) :
    (t.act (.hand number payload patience spent now)).hub.entries = t.hub.entries ∧
    ∀ key, ((t.act (.hand number payload patience spent now)).hub.lane? key).map (·.session.life) =
      (t.hub.lane? key).map (·.session.life) := by
  simp only [act]
  cases t.errands[number]? with
  | none => exact ⟨rfl, fun _ => rfl⟩
  | some d =>
    simp only [hear, Hub.offer_eq, Hub.act]
    refine ⟨rfl, fun key => ?_⟩
    rw [Hub.updateSession, Hub.lane?_modify]
    cases t.hub.lane? key with
    | none => rfl
    | some l =>
      by_cases same : d.key = key <;>
        simp [same, Session.act, l.session.life_offer ⟨.sender number, payload⟩]

/-- When a send by id returns that it failed, the session that it found is dead and will not be found
again, and whatever else is registered under the id by then is left as it is. Since it was found, the
events of the id begin with one removal, and sends to the id find nothing until it is registered
anew. A call that returns anything else changes neither what is registered nor the life of a
session, in any of its steps. -/
theorem failed_send_cleans_up (config : Config) (acts : List Act) (number : Nat) (d : Errand)
    (o : Outcome) (found : ((start config).run acts).errands[number]? = some d)
    (known : d.outcome = some o) :
    let t := (start config).run acts
    let t' := t.act (.conclude number)
    (∀ why, Hub.answer d.id o = .error (.sendFailed d.id.text why) →
      t'.hub.isLive d.key = false ∧
      (∀ e, t.hub.entry? d.id = some e → e.key ≠ d.key → t'.hub = t.hub) ∧
      ∀ later,
        let h := (t'.run later).hub
        (∀ id, h.lookup id ≠ some d.key) ∧
        ∃ removal rest, eventsOf (h.journal.drop d.since) d.id = removal :: rest ∧
          removal.isRemoval = true ∧ (∀ e, rest.head? = some e → e.isRemoval = false) ∧
          ((∀ e ∈ rest, e.isRemoval = true) → h.route d.id = .error (.unknownSession d.id.text))) ∧
    ((∀ why, Hub.answer d.id o ≠ .error (.sendFailed d.id.text why)) → t'.hub = t.hub) ∧
    (∀ id, (t.act (.find id)).hub = t.hub) ∧
    ∀ n payload patience spent now, let h := (t.act (.hand n payload patience spent now)).hub
      h.entries = t.hub.entries ∧
      ∀ key, (h.lane? key).map (·.session.life) = (t.hub.lane? key).map (·.session.life) := by
  intro t t'
  have sound : t.Sound := (sound_start config).run acts
  have sound' : t'.Sound := sound.act (.conclude number)
  have returned : t'.hub = (t.hub.conclude d.id d.key o).1 := hub_conclude found known
  refine ⟨?_, fun fine => returned.trans (Hub.conclude_harmless fine), t.hub_find, t.hub_hand⟩
  intro why failed
  rw [Hub.conclude_fatal failed] at returned
  have tracked : t'.hub.Tracked d.id d.key d.since := by
    obtain ⟨_, _, change⟩ := t.act_change (.conclude number)
    exact (sound.tracked d (List.mem_of_getElem? found)).change change
  have gone : t'.hub.Gone d.id d.key d.since := by
    rcases tracked.state with ⟨entry, _⟩ | gone
    · rw [returned] at entry
      exact absurd entry (t.hub.entry_removeIfSame d.id d.key .sendFailed)
    · exact gone
  refine ⟨gone.1, fun e entry other => returned.trans (Hub.removeIfSame_other entry other), ?_⟩
  intro later h
  obtain ⟨_, _, change⟩ := t'.run_change later
  have still : h.Gone d.id d.key d.since := gone.change change tracked.past tracked.lane
  refine ⟨fun id again => ?_, still.events (sound'.run later).faithful⟩
  have live := (Hub.lookup_eq_some again).2
  rw [still.1] at live
  exact Bool.false_ne_true live

/-- The writer of a session dies while a parcel of one producer waits in the queue; another producer
sends once more before both clean up. -/
def deadWriter (l : Lane) : List Act := [
  .hub (.enter l), .find l.id, .hand 0 "first" .endless false 0, .find l.id,
  .hub (.session 0 .crash), .hand 1 "second" .endless false 0, .conclude 0]

theorem dead_writer_cleans_up :
    let l : Lane := ⟨⟨"id"⟩, .default, Session.start .default 0, .probe (.start .plain)⟩
    let t := (start .default).run (deadWriter l)
    t.errands[1]? = some ⟨⟨"id"⟩, 0, 1, some .closed⟩ ∧ (t.act (.conclude 1)).hub.isLive 0 = false ∧
    (t.act (.conclude 1)).hub.journal.length = 2 := by
  intro l t
  have found : t.errands[1]? = some ⟨⟨"id"⟩, 0, 1, some .closed⟩ := by decide
  exact ⟨found,
    ((failed_send_cleans_up _ (deadWriter l) 1 _ .closed found rfl).1 _ rfl).1, by decide⟩

end Traffic

end Courier
