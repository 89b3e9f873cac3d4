import Courier.Proofs.Hub.Act
import Mathlib.Data.Finset.Dedup
import Mathlib.Data.Finset.Basic

set_option autoImplicit false

namespace Courier

namespace Event

def isRemoval : Event → Bool
  | .registered _ _ => false
  | .removed _ _ _ => true

def replay (ids : Finset SessionId) : Event → Finset SessionId
  | .registered id _ => insert id ids
  | .removed id _ _ => ids.erase id

variable {id : SessionId} {client : Client} {reason : Reason} {sent : Nat}

@[simp] theorem id_registered : (registered id client).id = id := rfl
@[simp] theorem id_removed : (removed id reason sent).id = id := rfl

@[simp] theorem isRemoval_registered : (registered id client).isRemoval = false := rfl
@[simp] theorem isRemoval_removed : (removed id reason sent).isRemoval = true := rfl

@[simp] theorem replay_registered (ids : Finset SessionId) :
    replay ids (registered id client) = insert id ids := rfl
@[simp] theorem replay_removed (ids : Finset SessionId) :
    replay ids (removed id reason sent) = ids.erase id := rfl

end Event

def replay (events : List Event) : Finset SessionId := events.foldl Event.replay ∅

@[simp]
theorem replay_concat (events : List Event) (e : Event) :
    replay (events ++ [e]) = e.replay (replay events) := by
  simp [replay]

theorem mem_replay_concat (events : List Event) (e : Event) (id : SessionId) :
    id ∈ replay (events ++ [e]) ↔ if e.id = id then e.isRemoval = false else id ∈ replay events := by
  rw [replay_concat]
  by_cases about : e.id = id
  · rw [if_pos about]
    cases e with
    | registered _ client => simp [← about]
    | removed _ reason sent => simp [← about]
  · rw [if_neg about]
    cases e with
    | registered other client =>
      have apart : id ≠ other := Ne.symm about
      simp [apart]
    | removed other reason sent =>
      have apart : id ≠ other := Ne.symm about
      simp [apart]

def eventsOf (events : List Event) (id : SessionId) : List Event := events.filter (·.id == id)

theorem eventsOf_append (events more : List Event) (id : SessionId) :
    eventsOf (events ++ more) id = eventsOf events id ++ eventsOf more id :=
  List.filter_append _ _

theorem eventsOf_singleton (e : Event) (id : SessionId) :
    eventsOf [e] id = if e.id = id then [e] else [] := by
  by_cases same : e.id = id <;> simp [eventsOf, same]

/-- The events of each id take turns, and an id is registered after a registration. -/
structure Alternate (events : List Event) : Prop where
  turns : ∀ id i e, (eventsOf events id)[i]? = some e → (e.isRemoval = true ↔ i % 2 = 1)
  present : ∀ id, id ∈ replay events ↔ (eventsOf events id).length % 2 = 1

theorem alternate_nil : Alternate [] := ⟨by simp [eventsOf], by simp [eventsOf, replay]⟩

/-- An event may follow if it is a removal exactly when its id is registered. -/
theorem Alternate.concat {events : List Event} (h : Alternate events) {e : Event}
    (turn : e.isRemoval = true ↔ e.id ∈ replay events) : Alternate (events ++ [e]) := by
  have parity := h.present e.id
  constructor
  · intro id i f there
    rw [eventsOf_append, eventsOf_singleton] at there
    by_cases about : e.id = id
    · rw [if_pos about] at there
      by_cases old : i < (eventsOf events id).length
      · rw [List.getElem?_append_left old] at there
        exact h.turns id i f there
      · have last : i = (eventsOf events id).length := by
          have bound := (List.getElem?_eq_some_iff.mp there).1
          simp only [List.length_append, List.length_singleton] at bound
          omega
        rw [last, List.getElem?_concat_length, Option.some.injEq] at there
        rw [← there, turn, parity, last, about]
    · rw [if_neg about, List.append_nil] at there
      exact h.turns id i f there
  · intro id
    rw [mem_replay_concat, eventsOf_append, eventsOf_singleton, List.length_append]
    by_cases about : e.id = id
    · rw [if_pos about, if_pos about, List.length_singleton, ← about, ← Bool.not_eq_true, turn, parity]
      omega
    · rw [if_neg about, if_neg about, List.length_nil, Nat.add_zero]
      exact h.present id

namespace Hub

structure Faithful (h : Hub) : Prop where
  distinct : h.ids.Nodup
  replayed : replay h.journal = h.ids.toFinset
  alternate : Alternate h.journal

theorem Faithful.mem_replay {h : Hub} (faithful : h.Faithful) (id : SessionId) :
    id ∈ replay h.journal ↔ id ∈ h.ids := by
  rw [faithful.replayed, List.mem_toFinset]

theorem faithful_start (config : Config) : (start config).Faithful :=
  ⟨List.nodup_nil, rfl, alternate_nil⟩

theorem Change.faithful {h h' : Hub} {m n : Nat} (change : Change h h' m n) (before : h.Faithful) :
    h'.Faithful := by
  induction change with
  | quiet _ entries journal =>
    obtain ⟨distinct, replayed, alternate⟩ := before
    exact ⟨by rw [ids, entries]; exact distinct, by rw [ids, entries, journal]; exact replayed,
      journal ▸ alternate⟩
  | @enrolled h h' key l _ free _ entries journal =>
    have grown : h'.ids = h.ids ++ [l.id] := by simp [ids, entries]
    refine ⟨?_, ?_, ?_⟩
    · rw [grown, List.nodup_append]
      exact ⟨before.distinct, List.nodup_singleton _,
        by simpa using fun a there => ne_of_mem_of_not_mem there free⟩
    · rw [journal, replay_concat, before.replayed, grown]
      ext id
      simp only [Event.replay, Finset.mem_insert, List.mem_toFinset, List.mem_append,
        List.mem_singleton]
      exact or_comm
    · rw [journal]
      refine before.alternate.concat ?_
      simpa [before.mem_replay] using free
  | @takenOut h h' e reason sent there _ _ entries journal =>
    have shrunk : h'.ids = h.ids.filter (· != e.id) := by
      simp only [ids, entries, List.filter_map]
      rfl
    have known : e.id ∈ h.ids := List.mem_map.mpr ⟨e, (entry_mem there).1, rfl⟩
    refine ⟨?_, ?_, ?_⟩
    · rw [shrunk]
      exact before.distinct.filter _
    · rw [journal, replay_concat, before.replayed, shrunk]
      ext id
      simp [and_comm]
    · rw [journal]
      refine before.alternate.concat ?_
      simpa [before.mem_replay] using known
  | @replaced h h' key l old sent _ there _ _ entries journal =>
    have same : h'.ids = h.ids := by
      rw [ids, entries]
      exact h.ids_rebind l.id key
    have known : l.id ∈ h.ids := List.mem_map.mpr ⟨old, entry_mem there⟩
    have parts : h'.journal =
        (h.journal ++ [.removed l.id .replaced sent]) ++ [.registered l.id l.client] := by
      simp [journal]
    -- the removal of the dead entry comes first, and makes room for the registration
    have removed : Alternate (h.journal ++ [.removed l.id .replaced sent]) :=
      before.alternate.concat (by simpa [before.mem_replay] using known)
    refine ⟨same ▸ before.distinct, ?_, ?_⟩
    · rw [parts, replay_concat, replay_concat, before.replayed, same]
      simp [Finset.insert_erase, known]
    · rw [parts]
      refine removed.concat ?_
      simp
  | trans _ _ first second => exact second (first before)

theorem Change.removals {h h' : Hub} {m n : Nat} (change : Change h h' m n) :
    h'.journal.countP (·.isRemoval) = h.journal.countP (·.isRemoval) + m + n := by
  induction change with
  | quiet _ _ journal => simp [journal]
  | enrolled _ _ _ _ _ _ journal => simp [journal, List.countP_append]
  | takenOut _ _ _ _ _ _ _ journal => simp [journal, List.countP_append]
  | replaced _ _ _ _ _ _ _ _ _ journal => simp [journal, List.countP_append, List.countP_cons]
  | trans _ _ first second =>
    rw [second, first]
    omega

end Hub

/-- A hub with how many removals were reported and how many dead entries were replaced. -/
structure Tally where
  hub : Hub
  reported : Nat
  replaced : Nat

namespace Tally

@[simp]
def start (config : Config) : Tally := ⟨.start config, 0, 0⟩

def act (t : Tally) (a : Hub.Act) : Tally :=
  ⟨t.hub.act a, t.reported + a.reported t.hub, t.replaced + a.replaced t.hub⟩

def run (t : Tally) (acts : List Hub.Act) : Tally := acts.foldl act t

theorem faithful_run (t : Tally) (faithful : t.hub.Faithful) (acts : List Hub.Act) :
    (t.run acts).hub.Faithful := by
  induction acts generalizing t with
  | nil => exact faithful
  | cons a acts ih => exact ih (t.act a) ((t.hub.act_change a).faithful faithful)

theorem removals_run (t : Tally)
    (balance : t.hub.journal.countP (·.isRemoval) = t.reported + t.replaced) (acts : List Hub.Act) :
    (t.run acts).hub.journal.countP (·.isRemoval) = (t.run acts).reported + (t.run acts).replaced := by
  induction acts generalizing t with
  | nil => exact balance
  | cons a acts ih =>
    refine ih (t.act a) ?_
    simp only [act, (t.hub.act_change a).removals, balance]
    omega

/-- After any run the journal replays to the ids that are registered, each of them once; the events of
an id are a registration, a removal, a registration and so on; and there is one removal for each one
reported and each dead entry replaced. -/
theorem journal_faithful (config : Config) (acts : List Hub.Act) :
    let t := (start config).run acts
    replay t.hub.journal = t.hub.ids.toFinset ∧ t.hub.ids.Nodup ∧
    (∀ id i e, (eventsOf t.hub.journal id)[i]? = some e → (e.isRemoval = true ↔ i % 2 = 1)) ∧
    t.hub.journal.countP (·.isRemoval) = t.reported + t.replaced := by
  intro t
  have faithful : t.hub.Faithful := faithful_run _ (Hub.faithful_start config) acts
  exact ⟨faithful.replayed, faithful.distinct, faithful.alternate.turns, removals_run _ rfl acts⟩

end Tally

end Courier
