import Courier.Proofs.Hub.Act

set_option autoImplicit false

namespace Courier

/-- A relation survives two folds if it survives what only one of them does, and what both do. -/
theorem foldl_related {σ τ α : Type} (R : σ → τ → Prop) {f : σ → α → σ} {g : τ → α → τ}
    (p : α → Bool) {l l' : List α} (same : l.filter p = l'.filter p)
    (left : ∀ s t, ∀ a ∈ l, p a = false → R s t → R (f s a) t)
    (right : ∀ s t, ∀ a ∈ l', p a = false → R s t → R s (g t a))
    (both : ∀ s t, ∀ a ∈ l, p a = true → R s t → R (f s a) (g t a)) {s : σ} {t : τ} (h : R s t) :
    R (l.foldl f s) (l'.foldl g t) := by
  induction l generalizing l' s t with
  | nil =>
    refine List.foldlRecOn l' g h fun t h a there => right s t a there ?_ h
    by_contra on
    have kept := List.mem_filter.mpr ⟨there, by simpa using on⟩
    rw [← same] at kept
    simp at kept
  | cons a l ih =>
    have left' : ∀ s t, ∀ b ∈ l, p b = false → R s t → R (f s b) t :=
      fun s t b there => left s t b (List.mem_cons_of_mem a there)
    have both' : ∀ s t, ∀ b ∈ l, p b = true → R s t → R (f s b) (g t b) :=
      fun s t b there => both s t b (List.mem_cons_of_mem a there)
    by_cases on : p a = true
    · rw [List.filter_cons_of_pos on] at same
      obtain ⟨before, after, rfl, off, _, rest⟩ := List.filter_eq_cons_iff.mp same.symm
      rw [List.foldl_append]
      have first : R s (before.foldl g t) := List.foldlRecOn before g h fun t h b there =>
        right s t b (List.mem_append_left _ there) (by simpa using off b there) h
      exact ih rest.symm left'
        (fun s t b there => right s t b (List.mem_append_right _ (List.mem_cons_of_mem a there)))
        both' (both _ _ a List.mem_cons_self on first)
    · rw [List.filter_cons_of_neg on] at same
      exact ih same left' right both' (left s t a List.mem_cons_self (by simpa using on) h)

namespace Hub

variable {A : SessionId}

def mask (A : SessionId) (l : Lane) : Option Lane := if l.id = A then none else some l

structure Alike (A : SessionId) (h h' : Hub) : Prop where
  config : h.config = h'.config
  lanes : h.lanes.map (mask A) = h'.lanes.map (mask A)
  entries : h.entries.filter (·.id != A) = h'.entries.filter (·.id != A)
  wired : h.Wired
  otherWired : h'.Wired

theorem Alike.symm {h h' : Hub} (alike : Alike A h h') : Alike A h' h :=
  ⟨alike.config.symm, alike.lanes.symm, alike.entries.symm, alike.otherWired, alike.wired⟩

theorem Alike.at_key {h h' : Hub} (alike : Alike A h h') (key : Key) :
    (h.lane? key).map (mask A) = (h'.lane? key).map (mask A) := by
  have same := congrArg (·[key]?) alike.lanes
  simpa only [List.getElem?_map, lane?] using same

theorem masks_eq {h h' : Hub}
    (same : ∀ key, (h.lane? key).map (mask A) = (h'.lane? key).map (mask A)) :
    h.lanes.map (mask A) = h'.lanes.map (mask A) := by
  apply List.ext_getElem?
  intro key
  simpa only [List.getElem?_map, lane?] using same key

theorem Alike.length {h h' : Hub} (alike : Alike A h h') : h.lanes.length = h'.lanes.length := by
  simpa using congrArg List.length alike.lanes

theorem Alike.lane {h h' : Hub} (alike : Alike A h h') {key : Key} (other : h.idOf? key ≠ some A) :
    h.lane? key = h'.lane? key := by
  have same := alike.at_key key
  unfold idOf? at other
  cases lane : h.lane? key with
  | none =>
    cases lane' : h'.lane? key with
    | none => rfl
    | some l' => simp [lane, lane'] at same
  | some l =>
    cases lane' : h'.lane? key with
    | none => simp [lane, lane'] at same
    | some l' =>
      have apart : l.id ≠ A := by simpa [lane] using other
      simp only [lane, lane', Option.map_some, Option.some.injEq, mask, apart, if_false] at same
      split at same
      · simp at same
      · rw [Option.some.inj same]

theorem Alike.idOf {h h' : Hub} (alike : Alike A h h') (key : Key) : h.idOf? key = h'.idOf? key := by
  by_cases own : h.idOf? key = some A
  · by_cases own' : h'.idOf? key = some A
    · rw [own, own']
    · have same := alike.symm.lane own'
      rw [idOf?, idOf?, same]
  · rw [idOf?, idOf?, alike.lane own]

theorem find?_entry {h : Hub} {id : SessionId} (other : id ≠ A) :
    h.entry? id = (h.entries.filter (·.id != A)).find? (·.id == id) := by
  rw [entry_eq, List.find?_filter]
  congr 1
  funext e
  by_cases same : e.id = id <;> simp [same, other]

theorem Alike.entry {h h' : Hub} (alike : Alike A h h') {id : SessionId} (other : id ≠ A) :
    h.entry? id = h'.entry? id := by
  rw [find?_entry other, find?_entry other, alike.entries]

theorem Wired.idOf {h : Hub} (wired : h.Wired) {id : SessionId} {e : Entry}
    (entry : h.entry? id = some e) : h.idOf? e.key = some id := by
  obtain ⟨there, own⟩ := entry_mem entry
  rw [wired e there, own]

theorem idOf_modify (h : Hub) (key : Key) (f : Lane → Lane)
    (keeps : ∀ l, h.lane? key = some l → (f l).id = l.id) (k : Key) :
    idOf? { h with lanes := h.lanes.modify key f } k = h.idOf? k := by
  rw [idOf?, lane?_modify, idOf?]
  cases lane : h.lane? k with
  | none => rfl
  | some l =>
    by_cases same : key = k
    · simp [same, keeps l (same ▸ lane)]
    · simp [same]

theorem wired_modify {h : Hub} (wired : h.Wired) (key : Key) (f : Lane → Lane)
    (keeps : ∀ l, h.lane? key = some l → (f l).id = l.id) :
    Wired { h with lanes := h.lanes.modify key f } :=
  fun e there => (h.idOf_modify key f keeps e.key).trans (wired e there)

theorem keeps_modify (h : Hub) (key : Key) (f : Lane → Lane)
    (keeps : ∀ l, h.lane? key = some l → (f l).id = l.id) :
    h.Keeps { h with lanes := h.lanes.modify key f } :=
  fun k _ there => (h.idOf_modify key f keeps k).trans there

theorem Alike.modify_own {h h' : Hub} (alike : Alike A h h') {key : Key} (own : h.idOf? key = some A)
    (f : Lane → Lane) (keeps : ∀ l, h.lane? key = some l → (f l).id = l.id) :
    Alike A { h with lanes := h.lanes.modify key f } h' := by
  refine ⟨alike.config, masks_eq fun k => ?_, alike.entries,
    wired_modify alike.wired key f keeps, alike.otherWired⟩
  rw [← alike.at_key k, lane?_modify]
  cases lane : h.lane? k with
  | none => rfl
  | some l =>
    by_cases same : key = k
    · have mine : l.id = A := by simpa [idOf_of_lane lane, same] using own
      simp [same, mask, keeps l (same ▸ lane), mine]
    · simp [same]

theorem Alike.modify {h h' : Hub} (alike : Alike A h h') (key : Key) (f : Lane → Lane)
    (keeps : ∀ l, (f l).id = l.id) :
    Alike A { h with lanes := h.lanes.modify key f } { h' with lanes := h'.lanes.modify key f } := by
  refine ⟨alike.config, masks_eq fun k => ?_, alike.entries,
    wired_modify alike.wired key f (fun l _ => keeps l),
    wired_modify alike.otherWired key f (fun l _ => keeps l)⟩
  have through (o : Option Lane) : (o.map fun l => if key = k then f l else l).map (mask A) =
      (o.map (mask A)).map fun m => if key = k then m.map f else m := by
    cases o with
    | none => rfl
    | some l =>
      by_cases same : key = k
      · by_cases mine : l.id = A <;> simp [same, mask, keeps, mine]
      · simp [same]
  rw [lane?_modify, lane?_modify, through, through, alike.at_key k]

theorem setLane_eq (h : Hub) (key : Key) (l : Lane) :
    h.setLane key l = { h with lanes := h.lanes.modify key fun _ => l } := by
  simp only [setLane, Hub.mk.injEq, true_and, and_true]
  apply List.ext_getElem?
  intro k
  rw [List.getElem?_set', List.getElem?_modify]
  by_cases same : key = k
  · subst same
    cases h.lanes[key]? <;> simp
  · cases h.lanes[k]? <;> simp [same]

theorem Alike.setLane {h h' : Hub} (alike : Alike A h h') {key : Key} (other : h.idOf? key ≠ some A)
    (l : Lane) (keeps : ∀ k, h.lane? key = some k → l.id = k.id) :
    Alike A (h.setLane key l) (h'.setLane key l) := by
  have same := alike.lane other
  refine ⟨alike.config, masks_eq fun k => ?_, alike.entries, ?_, ?_⟩
  · rw [setLane_eq, setLane_eq, lane?_modify, lane?_modify]
    by_cases at_key : key = k
    · subst at_key
      rw [same]
    · simp only [at_key, if_false, Option.map_id']
      exact alike.at_key k
  · rw [setLane_eq]
    exact wired_modify alike.wired key _ keeps
  · rw [setLane_eq]
    exact wired_modify alike.otherWired key _ (same ▸ keeps)

theorem Alike.addLane {h h' : Hub} (alike : Alike A h h') {l l' : Lane}
    (same : mask A l = mask A l') : Alike A (h.addLane l) (h'.addLane l') := by
  refine ⟨alike.config, ?_, alike.entries, ?_, ?_⟩
  · simp only [Hub.addLane, List.map_append, alike.lanes, List.map_cons, same, List.map_nil]
  · exact (h.follows_addLane l).keeps.wired (fun _ => id) alike.wired
  · exact (h'.follows_addLane l').keeps.wired (fun _ => id) alike.otherWired

theorem Alike.close_own {h h' : Hub} (alike : Alike A h h') {key : Key} (own : h.idOf? key = some A) :
    Alike A (h.close key).1 h' :=
  alike.modify_own own _ fun _ _ => rfl

theorem Alike.close {h h' : Hub} (alike : Alike A h h') (key : Key) :
    Alike A (h.close key).1 (h'.close key).1 :=
  alike.modify key _ fun _ => rfl

theorem Alike.isLive {h h' : Hub} (alike : Alike A h h') {key : Key} (other : h.idOf? key ≠ some A) :
    h.isLive key = h'.isLive key := by
  rw [Hub.isLive, Hub.isLive, alike.lane other]

theorem Alike.log {h h' : Hub} (alike : Alike A h h') (e e' : Event) :
    Alike A (h.log e) (h'.log e') :=
  ⟨alike.config, alike.lanes, alike.entries, alike.wired, alike.otherWired⟩

theorem Alike.log_own {h h' : Hub} (alike : Alike A h h') (e : Event) : Alike A (h.log e) h' :=
  ⟨alike.config, alike.lanes, alike.entries, alike.wired, alike.otherWired⟩

theorem Alike.filter_own {h h' : Hub} (alike : Alike A h h') :
    Alike A { h with entries := h.entries.filter (·.id != A) } h' := by
  refine ⟨alike.config, alike.lanes, ?_, ?_, alike.otherWired⟩
  · rw [← alike.entries]
    simp
  · exact fun e there => alike.wired e (List.mem_of_mem_filter there)

theorem Alike.filter {h h' : Hub} (alike : Alike A h h') (id : SessionId) :
    Alike A { h with entries := h.entries.filter (·.id != id) }
      { h' with entries := h'.entries.filter (·.id != id) } := by
  refine ⟨alike.config, alike.lanes, ?_, ?_, ?_⟩
  · have swap (es : List Entry) : (es.filter (·.id != id)).filter (·.id != A) =
        (es.filter (·.id != A)).filter (·.id != id) := List.filter_comm _ _ _
    rw [swap, swap, alike.entries]
  · exact fun e there => alike.wired e (List.mem_of_mem_filter there)
  · exact fun e there => alike.otherWired e (List.mem_of_mem_filter there)

theorem Alike.takeOut_own {h h' : Hub} (alike : Alike A h h') {e : Entry} (entry : h.entry? A = some e)
    (reason : Reason) : Alike A (h.takeOut e reason) h' := by
  have own := alike.wired.idOf entry
  have mine : e.id = A := (entry_mem entry).2
  rw [takeOut, mine]
  exact (alike.filter_own.close_own own).log_own _

theorem Alike.takeOut {h h' : Hub} (alike : Alike A h h') (e : Entry) (reason : Reason) :
    Alike A (h.takeOut e reason) (h'.takeOut e reason) :=
  ((alike.filter e.id).close e.key).log _ _

theorem Alike.remove_own {h h' : Hub} (alike : Alike A h h') (reason : Reason) :
    Alike A (h.remove A reason).1 h' := by
  unfold Hub.remove
  cases entry : h.entry? A with
  | none => exact alike
  | some e => exact alike.takeOut_own entry reason

theorem Alike.remove {h h' : Hub} (alike : Alike A h h') (id : SessionId) (reason : Reason) :
    Alike A (h.remove id reason).1 (h'.remove id reason).1 := by
  by_cases own : id = A
  · subst own
    exact ((alike.remove_own reason).symm.remove_own reason).symm
  · unfold Hub.remove
    rw [alike.entry own]
    cases h'.entry? id with
    | none => exact alike
    | some e => exact alike.takeOut e reason

theorem Alike.removeIfSame_own {h h' : Hub} (alike : Alike A h h') (key : Key) (reason : Reason) :
    Alike A (h.removeIfSame A key reason).1 h' := by
  unfold Hub.removeIfSame
  cases entry : h.entry? A with
  | none => exact alike
  | some e =>
    simp only
    split
    · exact alike.takeOut_own entry reason
    · exact alike

theorem Alike.removeIfSame_held {h h' : Hub} (alike : Alike A h h') {key : Key}
    (own : h.idOf? key = some A) (id : SessionId) (reason : Reason) :
    Alike A (h.removeIfSame id key reason).1 h' := by
  by_cases mine : id = A
  · subst mine
    exact alike.removeIfSame_own key reason
  · unfold Hub.removeIfSame
    cases entry : h.entry? id with
    | none => exact alike
    | some e =>
      have apart : e.key ≠ key := by
        intro same
        have wired := alike.wired.idOf entry
        rw [same, own, Option.some.injEq] at wired
        exact mine wired.symm
      simp only [beq_iff_eq, apart, if_false]
      exact alike

theorem Alike.removeIfSame {h h' : Hub} (alike : Alike A h h') (id : SessionId) (key : Key)
    (reason : Reason) :
    Alike A (h.removeIfSame id key reason).1 (h'.removeIfSame id key reason).1 := by
  by_cases own : id = A
  · subst own
    exact ((alike.removeIfSame_own key reason).symm.removeIfSame_own key reason).symm
  · unfold Hub.removeIfSame
    rw [alike.entry own]
    cases h'.entry? id with
    | none => exact alike
    | some e =>
      simp only
      split
      · exact alike.takeOut e reason
      · exact alike

theorem Alike.removeOne_own {d d' : Hub × List SessionId} (alike : Alike A d.1 d'.1)
    (reason? : Entry → Option Reason) {e : Entry} (own : e.id = A) :
    Alike A (removeOne reason? d e).1 d'.1 := by
  unfold removeOne
  cases reason? e with
  | none => exact alike
  | some reason =>
    rw [own]
    exact alike.removeIfSame_own e.key reason

theorem Alike.removeOne {d d' : Hub × List SessionId} (alike : Alike A d.1 d'.1)
    {reason? reason?' : Entry → Option Reason} {e : Entry} (same : reason? e = reason?' e) :
    Alike A (removeOne reason? d e).1 (removeOne reason?' d' e).1 := by
  unfold Hub.removeOne
  rw [same]
  cases reason?' e with
  | none => exact alike
  | some reason => exact alike.removeIfSame e.id e.key reason

theorem Alike.removeWhere {h h' : Hub} (alike : Alike A h h') {reason? reason?' : Entry → Option Reason}
    (same : ∀ e ∈ h.entries, e.id ≠ A → reason? e = reason?' e) :
    Alike A (h.removeWhere reason?).1 (h'.removeWhere reason?').1 := by
  refine foldl_related (fun (d d' : Hub × List SessionId) => Alike A d.1 d'.1)
    (fun e : Entry => e.id != A) alike.entries ?_ ?_ ?_ alike
  · exact fun d d' e _ own alike => alike.removeOne_own reason? (by simpa using own)
  · exact fun d d' e _ own alike => (alike.symm.removeOne_own reason?' (by simpa using own)).symm
  · exact fun d d' e there other alike => alike.removeOne (same e there (by simpa using other))

theorem Alike.sweepIdle {h h' : Hub} (alike : Alike A h h') (maxIdle now : Nat) :
    Alike A (h.sweepIdle maxIdle now).1 (h'.sweepIdle maxIdle now).1 := by
  refine alike.removeWhere fun e there other => ?_
  rw [sweepReason?, sweepReason?, alike.lane (Matches.apart alike.wired there other)]

theorem Alike.rejectBySubsystem {h h' : Hub} (alike : Alike A h h') (subsystem : String) :
    Alike A (h.rejectBySubsystem subsystem).1 (h'.rejectBySubsystem subsystem).1 := by
  refine alike.removeWhere fun e there other => ?_
  rw [alike.lane (Matches.apart alike.wired there other)]

theorem Alike.ids {h h' : Hub} (alike : Alike A h h') :
    h.ids.filter (· != A) = h'.ids.filter (· != A) := by
  have others (h : Hub) : h.ids.filter (· != A) = (h.entries.filter (·.id != A)).map (·.id) := by
    rw [Hub.ids, List.filter_map]
    rfl
  rw [others, others, alike.entries]

theorem Alike.closeAll {h h' : Hub} (alike : Alike A h h') : Alike A h.closeAll.1 h'.closeAll.1 := by
  refine foldl_related (fun (d d' : Hub × Nat) => Alike A d.1 d'.1) (· != A) alike.ids ?_ ?_ ?_ alike
  · intro d d' id _ own alike
    obtain rfl : id = A := by simpa using own
    exact alike.remove_own .shutdown
  · intro d d' id _ own alike
    obtain rfl : id = A := by simpa using own
    exact (alike.symm.remove_own .shutdown).symm
  · exact fun d d' id _ _ alike => alike.remove id .shutdown

theorem Alike.touch {h h' : Hub} (alike : Alike A h h') (id : SessionId) (now : Nat) :
    Alike A (h.touch id now).1 (h'.touch id now).1 := by
  have touch_own {h h' : Hub} (alike : Alike A h h') : Alike A (h.touch A now).1 h' := by
    unfold Hub.touch
    cases entry : h.entry? A with
    | none => exact alike
    | some e => exact alike.modify_own (alike.wired.idOf entry) _ fun _ _ => rfl
  by_cases own : id = A
  · subst own
    exact (touch_own (touch_own alike).symm).symm
  · unfold Hub.touch
    rw [alike.entry own]
    cases h'.entry? id with
    | none => exact alike
    | some e => exact alike.modify e.key _ fun _ => rfl

theorem keeps_touch (h : Hub) (id : SessionId) (now : Nat) : h.Keeps (h.touch id now).1 := by
  unfold touch
  cases h.entry? id with
  | none => exact .refl h
  | some e => exact h.keeps_modify e.key _ fun _ _ => rfl

theorem Alike.lookup {h h' : Hub} (alike : Alike A h h') {id : SessionId} (other : id ≠ A) :
    h.lookup id = h'.lookup id := by
  unfold Hub.lookup
  rw [← alike.entry other]
  cases entry : h.entry? id with
  | none => rfl
  | some e =>
    obtain ⟨there, own⟩ := entry_mem entry
    have apart := Matches.apart alike.wired there (own ▸ other)
    simp only [Option.map_some, Option.filter_some, alike.isLive apart]

theorem Wired.lookup {h : Hub} (wired : h.Wired) {id : SessionId} {key : Key}
    (found : h.lookup id = some key) : h.idOf? key = some id := by
  obtain ⟨there, _⟩ := Option.filter_eq_some_iff.mp found
  obtain ⟨e, entry, rfl⟩ := Option.map_eq_some_iff.mp there
  exact wired.idOf entry

theorem Alike.route {h h' : Hub} (alike : Alike A h h') {id : SessionId} (other : id ≠ A) :
    h.route id = h'.route id := by
  rw [Hub.route, Hub.route, alike.lookup other]

theorem Wired.route {h : Hub} (wired : h.Wired) {id : SessionId} {key : Key}
    (found : h.route id = .ok key) : h.idOf? key = some id := by
  unfold Hub.route at found
  cases lookup : h.lookup id with
  | none => simp [lookup] at found
  | some k =>
    simp only [lookup, Except.ok.injEq] at found
    exact found ▸ wired.lookup lookup

theorem Alike.conclude_own {h h' : Hub} (alike : Alike A h h') (key : Key) (outcome : Outcome) :
    Alike A (h.conclude A key outcome).1 h' := by
  unfold Hub.conclude
  cases answer A outcome with
  | ok n => exact alike
  | error e =>
    simp only
    split
    · exact alike.removeIfSame_own key .sendFailed
    · exact alike

theorem Alike.conclude {h h' : Hub} (alike : Alike A h h') (id : SessionId) (key : Key)
    (outcome : Outcome) :
    Alike A (h.conclude id key outcome).1 (h'.conclude id key outcome).1 := by
  unfold Hub.conclude
  cases answer id outcome with
  | ok n => exact alike
  | error e =>
    simp only
    split
    · exact alike.removeIfSame id key .sendFailed
    · exact alike

theorem conclude_snd (h : Hub) (id : SessionId) (key : Key) (outcome : Outcome) :
    (h.conclude id key outcome).2 = answer id outcome := by
  unfold conclude
  cases answer id outcome <;> rfl

theorem Alike.offer_own {h h' : Hub} (alike : Alike A h h') {key : Key} (own : h.idOf? key = some A)
    (p : Parcel) (patience : Patience) (spent : Bool) (now : Nat) :
    Alike A (h.offer key p patience spent now).1 h' := by
  rw [offer_eq]
  exact alike.modify_own own _ fun _ _ => rfl

theorem Alike.offer {h h' : Hub} (alike : Alike A h h') (key : Key) (p : Parcel)
    (patience : Patience) (spent : Bool) (now : Nat) :
    Alike A (h.offer key p patience spent now).1 (h'.offer key p patience spent now).1 := by
  rw [offer_eq, offer_eq]
  exact alike.modify key _ fun _ => rfl

theorem Alike.offer_snd {h h' : Hub} (alike : Alike A h h') {key : Key} (other : h.idOf? key ≠ some A)
    (p : Parcel) (patience : Patience) (spent : Bool) (now : Nat) :
    (h.offer key p patience spent now).2 = (h'.offer key p patience spent now).2 := by
  unfold Hub.offer
  rw [alike.lane other]
  cases h'.lane? key <;> rfl

theorem register_replaced {h g : Hub} {key : Key} {l : Lane} {old : Entry}
    (lane : h.lane? key = some l) (entry : h.entry? l.id = some old) (dead : h.isLive old.key = false)
    (done : h.register key = .ok g) : g.config = h.config ∧
      g.lanes = ((h.rebind l.id key).close old.key).1.lanes ∧
      g.entries = (h.rebind l.id key).entries := by
  simp only [Hub.register, lane, entry, dead, Bool.false_eq_true, if_false, Except.ok.injEq] at done
  subst done
  exact ⟨rfl, rfl, rfl⟩

theorem register_new {h g : Hub} {key : Key} {l : Lane} (lane : h.lane? key = some l)
    (free : h.entry? l.id = none) (done : h.register key = .ok g) : g.config = h.config ∧
      g.lanes = h.lanes ∧ g.entries = h.entries ++ [⟨l.id, key⟩] := by
  simp only [Hub.register, lane, free, Except.ok.injEq] at done
  subst done
  exact ⟨rfl, rfl, rfl⟩

theorem filter_rebind_own (h : Hub) (key : Key) :
    (h.rebind A key).entries.filter (·.id != A) = h.entries.filter (·.id != A) := by
  simp only [rebind, beq_iff_eq]
  induction h.entries with
  | nil => rfl
  | cons e es ih => by_cases own : e.id = A <;> simp [own, ih]

theorem filter_rebind (h : Hub) {id : SessionId} (other : id ≠ A) (key : Key) :
    (h.rebind id key).entries.filter (·.id != A) =
      (h.entries.filter (·.id != A)).map fun e => if e.id == id then ⟨id, key⟩ else e := by
  simp only [rebind, beq_iff_eq]
  induction h.entries with
  | nil => rfl
  | cons e es ih =>
    by_cases own : e.id = A
    · simp [own, other.symm, ih]
    · by_cases same : e.id = id <;> simp [own, same, other, ih]

theorem Alike.register_own {h h' g : Hub} (alike : Alike A h h') {key : Key}
    (own : h.idOf? key = some A) (done : h.register key = .ok g) : Alike A g h' := by
  have wired := (change_register done).wired alike.wired
  obtain ⟨l, lane, mine⟩ := Option.map_eq_some_iff.mp own
  cases entry : h.entry? l.id with
  | none =>
    obtain ⟨config, lanes, entries⟩ := register_new lane entry done
    refine ⟨config.trans alike.config, lanes ▸ alike.lanes, ?_, wired, alike.otherWired⟩
    rw [entries, ← alike.entries]
    simp [mine]
  | some old =>
    cases live : h.isLive old.key with
    | true => simp [Hub.register, lane, entry, live] at done
    | false =>
      obtain ⟨config, lanes, entries⟩ := register_replaced lane entry live done
      have old_own : h.idOf? old.key = some A := mine ▸ alike.wired.idOf entry
      have closed := alike.close_own old_own
      refine ⟨config.trans alike.config, lanes ▸ closed.lanes, ?_, wired, alike.otherWired⟩
      rw [entries, mine, filter_rebind_own]
      exact alike.entries

theorem Alike.register {h h' : Hub} (alike : Alike A h h') {key : Key}
    (other : h.idOf? key ≠ some A) :
    (∃ g g', h.register key = .ok g ∧ h'.register key = .ok g' ∧ Alike A g g') ∨
    ∃ e, h.register key = .error e ∧ h'.register key = .error e := by
  have same := alike.lane other
  cases lane : h.lane? key with
  | none =>
    exact .inl ⟨h, h', by simp [Hub.register, lane], by simp [Hub.register, ← same, lane], alike⟩
  | some l =>
    have lane' : h'.lane? key = some l := same ▸ lane
    have apart : l.id ≠ A := by simpa [idOf_of_lane lane] using other
    have both := alike.entry apart
    cases entry : h.entry? l.id with
    | none =>
      rw [entry] at both
      have done : ∃ g, h.register key = .ok g := by simp [Hub.register, lane, entry]
      have done' : ∃ g', h'.register key = .ok g' := by simp [Hub.register, lane', ← both]
      obtain ⟨g, done⟩ := done
      obtain ⟨g', done'⟩ := done'
      obtain ⟨config, lanes, entries⟩ := register_new lane entry done
      obtain ⟨config', lanes', entries'⟩ := register_new lane' both.symm done'
      refine .inl ⟨g, g', done, done', ?_, ?_, ?_, (change_register done).wired alike.wired,
        (change_register done').wired alike.otherWired⟩
      · rw [config, config', alike.config]
      · rw [lanes, lanes', alike.lanes]
      · rw [entries, entries', List.filter_append, List.filter_append, alike.entries]
    | some old =>
      rw [entry] at both
      have old_other : h.idOf? old.key ≠ some A := by
        rw [alike.wired.idOf entry]
        simpa using apart
      have live := alike.isLive old_other
      cases lives : h.isLive old.key with
      | true =>
        rw [lives] at live
        exact .inr ⟨.duplicateSession l.id.text, by simp [Hub.register, lane, entry, lives],
          by simp [Hub.register, lane', ← both, ← live]⟩
      | false =>
        rw [lives] at live
        have done : ∃ g, h.register key = .ok g := by simp [Hub.register, lane, entry, lives]
        have done' : ∃ g', h'.register key = .ok g' := by
          simp [Hub.register, lane', ← both, ← live]
        obtain ⟨g, done⟩ := done
        obtain ⟨g', done'⟩ := done'
        obtain ⟨config, lanes, entries⟩ := register_replaced lane entry lives done
        obtain ⟨config', lanes', entries'⟩ := register_replaced lane' both.symm live.symm done'
        have closed := alike.close old.key
        refine .inl ⟨g, g', done, done', ?_, ?_, ?_, (change_register done).wired alike.wired,
          (change_register done').wired alike.otherWired⟩
        · rw [config, config', alike.config]
        · rw [lanes, lanes']
          exact closed.lanes
        · rw [entries, entries', filter_rebind h apart, filter_rebind h' apart, alike.entries]

theorem idOf_enter (h : Hub) (l : Lane) : (h.enter l).1.idOf? h.lanes.length = some l.id := by
  have added := h.idOf_addLane l
  unfold enter
  cases done : (h.addLane l).register h.lanes.length with
  | ok g =>
    simp only [done]
    exact (change_register done).follows.keeps _ _ added
  | error e =>
    simp only [done]
    exact ((h.addLane l).follows_close h.lanes.length).keeps _ _ added

theorem enter_ok {h : Hub} {l : Lane} {key : Key} (done : (h.enter l).2 = .ok key) :
    key = h.lanes.length := by
  unfold enter at done
  cases entered : (h.addLane l).register h.lanes.length with
  | ok g =>
    simp only [entered, Except.ok.injEq] at done
    exact done.symm
  | error e => simp [entered] at done

/-- To open a session of the id is not seen, once it has a lane. -/
theorem Alike.enter_own {h h' : Hub} {l : Lane} (alike : Alike A (h.addLane l) h') (own : l.id = A) :
    Alike A (h.enter l).1 h' := by
  have added := h.idOf_addLane l
  rw [own] at added
  unfold Hub.enter
  cases done : (h.addLane l).register h.lanes.length with
  | ok g =>
    simp only [done]
    exact alike.register_own added done
  | error e =>
    simp only [done]
    exact alike.close_own added

theorem Alike.enter {h h' : Hub} (alike : Alike A h h') {l l' : Lane} (id : l'.id = l.id)
    (same : mask A l = mask A l') :
    Alike A (h.enter l).1 (h'.enter l').1 ∧ (l.id ≠ A → (h.enter l).2 = (h'.enter l').2) := by
  have added := alike.addLane same
  by_cases own : l.id = A
  · have left := added.enter_own own
    exact ⟨(left.symm.enter_own (id.trans own)).symm, fun other => absurd own other⟩
  · have apart : (h.addLane l).idOf? h.lanes.length ≠ some A := by
      rw [h.idOf_addLane l]
      simpa using own
    unfold Hub.enter
    rcases added.register apart with ⟨g, g', done, done', both⟩ | ⟨e, failed, failed'⟩
    · simp only [done, ← alike.length, done']
      exact ⟨both, fun _ => trivial⟩
    · simp only [failed, ← alike.length, failed']
      exact ⟨added.close h.lanes.length, fun _ => trivial⟩

end Hub

end Courier
