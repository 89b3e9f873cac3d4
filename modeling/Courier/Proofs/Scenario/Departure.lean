import Courier.Proofs.Scenario.Rules
import Courier.Proofs.Scenario.Course

/-!
# Senders that leave before they get a place

A sender stands among those who wait, and either gets a place, or is refused by a queue that is shut,
or leaves. While it waits, and when it has left, the world is as if it had never begun; only that a
session which nobody else holds is let go of may have to be noticed later.
-/

set_option autoImplicit false

namespace Courier

/-- Whoever is told something by a lane, or is in its session afterwards, was there before. -/
theorem Lane.Moves.count_le {l l' : Lane} {told : List Notice}
    (moves : l.Moves Session.Act.IsWriters l' told) (c : Caller) :
    (told.map (·.caller)).count c + l'.session.callers.count c ≤ l.session.callers.count c := by
  rcases moves.session with ⟨same, silent⟩ | ⟨a, own, acted⟩
  · simp [same, silent]
  · have counted := (l.session.act_turnover a).count_le c
    rw [(Session.timely_of_isWriters own l.session 0 []).2.1, acted] at counted
    simpa using counted

def Session.Rule.apart (n : Nat) : Session.Rule :=
  .waiters (·.parcel.caller ≠ .sender n) fun _ _ own => by simp [own]

theorem Hub.lane?_conclude (h : Hub) (id : SessionId) {k key : Key} (apart : k ≠ key) (o : Outcome) :
    (h.conclude id k o).1.lane? key = h.lane? key := by
  unfold conclude
  split
  · rfl
  · split
    · unfold removeIfSame
      split
      · rename_i e _
        by_cases own : e.key = k
        · simp only [own, beq_self_eq_true, if_true, takeOut, log, close, updateSession]
          exact (lane?_modify _ k _ key).trans (by simp [apart])
        · simp [own]
      · rfl
    · rfl

namespace Scenario.World

variable {n : Nat} {tag : String} {home : Key} {x : Waiter} {left : Bool} {u v w w' v' : World}

structure Owned (n : Nat) (tag : String) (w : World) : Prop where
  sane : w.Sane
  bears : w.Bears (.owned n tag)
  began : n < w.sends

theorem Owned.narrows (owned : w.Owned n tag) (narrows : Narrows w v) (sane : v.Sane) :
    v.Owned n tag :=
  ⟨sane, owned.bears.narrows narrows, narrows.sends ▸ owned.began⟩

theorem Owned.make (owned : w.Owned n tag) {m : Move} (next : w.next? = some m) :
    (w.make m).Owned n tag :=
  owned.narrows (narrows_make owned.sane.alone next) (sane_make owned.sane next).1

theorem Owned.time (owned : w.Owned n tag) (t : Nat) : Owned n tag { w with now := t } :=
  owned.narrows (narrows_now w t) (sane_now owned.sane t)

theorem Departed.count (departed : w.Departed n) {key : Key} {l : Lane}
    (there : w.hub.lane? key = some l) : l.session.callers.count (.sender n) = 0 :=
  Nat.le_zero.mp (departed.nowhere key l there)

theorem Departed.make (departed : w.Departed n) (alone : w.visitors = []) {m : Move}
    (next : w.next? = some m) : (w.make m).Departed n :=
  ⟨(does_make next).obeys departed.nowhere, fun c there =>
    departed.silent c ((narrows_make alone next).calls c there)⟩

theorem Departed.time (departed : w.Departed n) (t : Nat) : Departed n { w with now := t } :=
  { departed with }

theorem Departed.passed (departed : w.Departed n) {m : Move} {key : Key} {moved : Lane × List Notice}
    (did : w.moved? m = some (key, moved)) : Passed n moved := by
  obtain ⟨l, there, moves⟩ := moves_moved did
  have counted := moves.count_le (.sender n)
  rw [departed.count there] at counted
  simp only [Session.callers, List.count_append] at counted
  refine ⟨List.count_eq_zero.mp ?_, List.count_eq_zero.mp ?_⟩ <;> omega

theorem waiter_rings (next : w.next? = some (.ring (.waiter home (.sender n)))) :
    ∃ l, w.hub.lane? home = some l ∧ Caller.sender n ∈ l.session.waitingCallers := by
  obtain ⟨a, member, _⟩ := next?_ring next
  generalize same : Bell.waiter home (.sender n) = b at member
  cases ringsFor_of_mem member with
  | writer | sweeper => simp at same
  | @waiter key l v there waits =>
    obtain ⟨rfl, own⟩ := Bell.waiter.inj same
    exact ⟨l, there, List.mem_map.mpr ⟨v, waits, own.symm⟩⟩

theorem Departed.other (departed : w.Departed n) (key : Key) :
    w.next? ≠ some (.ring (.waiter key (.sender n))) := by
  intro next
  obtain ⟨l, there, waits⟩ := waiter_rings next
  have counted := departed.count there
  rw [Session.callers, List.count_append] at counted
  have first := List.count_pos_iff.mpr waits
  omega

theorem hides_nowhere (w : World) : w.Hides fun _ => false :=
  fun _ _ _ seen => absurd seen (by simp)

/-- The sender has left, and the other world is the one without it. -/
structure Absent (n : Nat) (tag : String) (w w' : World) : Prop extends w.Owned n tag where
  departed : w.Departed n
  same : w' = w.without n tag fun _ => false

theorem Absent.next (absent : Absent n tag w w') : w'.next? = w.next?.map (Move.without n) := by
  rw [absent.same]
  refine (next?_without_of_lefts absent.sane.alone w.hides_nowhere ?_).resolve_left
    fun ⟨key, own⟩ => absent.departed.other key own
  exact find?_congr_mem fun key _ => w.isLeft_without
    (fun c there own => absurd own (absent.departed.silent c there)) rfl

theorem Absent.make (absent : Absent n tag w w') {m : Move} (next : w.next? = some m) :
    Absent n tag (w.make m) (w'.make (m.without n)) where
  toOwned := absent.toOwned.make next
  departed := absent.departed.make absent.sane.alone next
  same := by
    rw [absent.same]
    exact (make_without absent.sane.alone absent.bears w.hides_nowhere next
      (fun _ _ did => absent.departed.passed did) fun key own => absent.departed.other key (own ▸ next)).symm

theorem Absent.settles (absent : Absent n tag w w') (settles : Settles w v)
    (settles' : Settles w' v') : Absent n tag v v' := by
  induction settles generalizing w' with
  | still none =>
    cases settles' with
    | still => exact absent
    | move next' => simp [absent.next, none] at next'
  | move next _ ih =>
    have next' := absent.next
    rw [next, Option.map_some] at next'
    cases settles' with
    | still none => simp [none] at next'
    | move first rest =>
      obtain rfl := Option.some.inj (next'.symm.trans first)
      exact ih (absent.make next) rest

theorem Absent.time (absent : Absent n tag w w') (t : Nat) :
    Absent n tag { w with now := t } { w' with now := t } where
  toOwned := absent.toOwned.time t
  departed := absent.departed.time t
  same := by rw [absent.same]; rfl

theorem Absent.passes {target : Nat} (absent : Absent n tag w w') (settled : w.next? = none)
    (passes : Passes target w v) (passes' : Passes target w' v') : Absent n tag v v' := by
  induction passes generalizing w' with
  | arrive none rest =>
    refine (absent.time target).settles rest (passes'.arrives ?_)
    rw [absent.same]
    refine due_without (p := (target < ·)) fun a there => ?_
    obtain ⟨b, first⟩ := exists_earliest? there
    exact Nat.lt_of_lt_of_le (none b first) (earliest?_le first there)
  | ring first due moves _ ih =>
    have settled' : w'.next? = none := by rw [absent.next, settled]; rfl
    have alone' : w'.visitors = [] := by rw [absent.same]; exact absent.sane.alone
    obtain ⟨u', moves', rest'⟩ := passes'.until alone' settled' due (by
      rw [absent.same]
      exact due_without (p := (_ ≤ ·)) fun a there => earliest?_le first there)
    exact ih ((absent.time _).settles moves moves') (moves.settled (sane_now absent.sane _)).1 rest'

theorem lane?_update (alone : w.visitors = []) {k key : Key} (apart : k ≠ key)
    (moved : Lane × List Notice) : (w.update k moved).hub.lane? key = w.hub.lane? key := by
  have concluded (v : World) {c : Call} (here : c.key = k) (o : Outcome) :
      (v.conclude c o).hub.lane? key = v.hub.lane? key := by
    have same := v.hub.lane?_conclude c.id (here ▸ apart : c.key ≠ key) o
    unfold conclude
    cases c.addressee with
    | byHandle => simp only; split <;> rfl
    | byId => simp only; split <;> exact same
    | member => exact same
  have delivered (v : World) (none : v.visitors = []) (m : Notice) :
      (v.deliver k m).hub.lane? key = v.hub.lane? key := by
    unfold deliver
    cases m.caller with
    | connection name => simp only [visitor?, none, List.find?_nil]
    | sender sender =>
      simp only
      split
      · rename_i c found
        have meant := List.find?_some found
        simp only [Bool.and_eq_true, beq_iff_eq] at meant
        rw [hub_gather]
        exact concluded { v with calls := v.calls.filter fun c => !(c.sender == sender && c.key == k) }
          meant.2 m.outcome
      · rfl
  have all (ms : List Notice) : ∀ v : World, v.visitors = [] →
      (ms.foldl (fun v m => v.deliver k m) v).hub.lane? key = v.hub.lane? key := by
    induction ms with
    | nil => exact fun _ _ => rfl
    | cons m ms ih =>
      intro v none
      have still : (v.deliver k m).visitors = [] := (narrows_deliver none k m).visitors.trans none
      calc (ms.foldl (fun v m => v.deliver k m) (v.deliver k m)).hub.lane? key
        _ = (v.deliver k m).hub.lane? key := ih _ still
        _ = v.hub.lane? key := delivered v none m
  calc (w.update k moved).hub.lane? key
    _ = (w.hub.setLane k moved.1).lane? key := all moved.2 { w with hub := w.hub.setLane k moved.1 } alone
    _ = w.hub.lane? key := List.getElem?_set_ne apart

theorem hub_deliver_lapsed (alone : w.visitors = []) (key : Key) (c : Caller) :
    (w.deliver key ⟨c, .refused .lapsed⟩).hub = w.hub := by
  unfold deliver
  cases c with
  | connection name => simp only [visitor?, alone, List.find?_nil]
  | sender sender =>
    simp only
    split
    · rename_i c _
      rw [hub_gather]
      unfold conclude
      cases c.addressee <;> rfl
    · rfl

def IsStuck (now : Nat) (l : Lane) : Prop := l.act? now = none ∧ l.session.queue ≠ []

theorem IsStuck.lapse {now : Nat} {l : Lane} (stuck : IsStuck now l) (c : Caller) :
    IsStuck now (l.lapse c).1 := by
  -- Both are the same once the caller is left out, and that leaves them as much to do.
  let o : Omission := ⟨c, id, fun _ _ _ _ same => same⟩
  have acts (l : Lane) : ((l.without o false).act? now).isSome = (l.act? now).isSome :=
    Lane.isSome_act?_without (fun seen => absurd seen (by simp)) now
  have gone : (l.lapse c).1.without o false = l.without o false := Lane.lapse_gone (o := o) l
  have same := acts (l.lapse c).1
  rw [gone, acts l, stuck.1] at same
  exact ⟨Option.isSome_eq_false_iff.mp same.symm |> Option.isNone_iff_eq_none.mp, stuck.2⟩

theorem orphan_without (w : World) {t : String} (left : Key → Bool) (key : Key) :
    (w.make (.orphan key)).without n t left = w.without n t fun k => left k || k == key := by
  have lanes : (w.hub.updateSession key ({ · with orphaned := true })).without (.sender n) left =
      w.hub.without (.sender n) fun k => left k || k == key := by
    simp only [Hub.without, Hub.updateSession, Hub.mk.injEq, true_and, and_true]
    apply List.ext_getElem?
    intro k
    simp only [List.getElem?_mapIdx, List.getElem?_modify]
    cases w.hub.lanes[k]? with
    | none => rfl
    | some l =>
      by_cases here : key = k
      · simp [here, Lane.without, Session.without]
      · have apart : (k == key) = false := beq_false_of_ne (Ne.symm here)
        simp [here, apart]
  simp only [make, without, lanes]

theorem next?_orphan {key : Key} (next : w.next? = some (.orphan key)) :
    key ∈ w.keys ∧ w.isLeft key = true := by
  rw [next?_eq] at next
  rcases (Option.orElse_eq_some _ _ _).mp next with early | ⟨_, next⟩
  · unfold early? at early
    simp at early
  · rcases (Option.orElse_eq_some _ _ _).mp next with found | ⟨_, due⟩
    · obtain ⟨k, first, same⟩ := Option.map_eq_some_iff.mp found
      obtain rfl := Move.orphan.inj same
      exact ⟨List.mem_of_find?_eq_some first, List.find?_some first⟩
    · simp [due?] at due

/-- As long as a session is let go of and this is not noticed, no alarm rings. -/
theorem next?_left {key : Key} (there : key ∈ w.keys) (left : w.isLeft key = true) :
    ∃ m, w.next? = some m ∧ ∀ b, m ≠ .ring b := by
  rw [next?_eq]
  cases early : w.early? with
  | some m =>
    refine ⟨m, rfl, ?_⟩
    rintro b rfl
    exact w.early?_silent b early
  | none =>
    cases found : w.keys.find? w.isLeft with
    | some k => exact ⟨.orphan k, rfl, by simp⟩
    | none => exact absurd left (List.find?_eq_none.mp found key there)

/-- The sender has left, and with it the last one that held a session, which has not been noticed yet
as it has been in the other world. -/
structure Lags (n : Nat) (tag : String) (home : Key) (w w' : World) : Prop extends w.Owned n tag where
  departed : w.Departed n
  forlorn : w.Forlorn home
  stuck : ∃ l, w.hub.lane? home = some l ∧ IsStuck w.now l ∧ l.session.orphaned = false
  same : w' = w.without n tag (· == home)

theorem Lags.isLeft (lags : Lags n tag home w w') : w.isLeft home = true := by
  obtain ⟨l, there, _, unaware⟩ := lags.stuck
  have free : w.isHeld home = false :=
    Bool.eq_false_iff.mpr fun held => lags.forlorn.free ((isHeld_iff lags.sane.alone home).mp held)
  simp [World.isLeft, free, there, unaware]

theorem Lags.hides (lags : Lags n tag home w w') : w.Hides (· == home) := by
  intro key l there seen
  obtain ⟨m, there', ⟨_, queued⟩, _⟩ := lags.stuck
  obtain rfl : key = home := by simpa using seen
  obtain rfl : l = m := Option.some.inj (there.symm.trans there')
  exact .inr (.inl queued)

theorem Lags.there (lags : Lags n tag home w w') : home ∈ w.keys :=
  List.mem_range.mpr lags.forlorn.there

theorem Lags.next (lags : Lags n tag home w w') :
    w.next? = some (.orphan home) ∨
      ∃ m, w.next? = some m ∧ w'.next? = some (m.without n) ∧ ∀ b, m ≠ .ring b := by
  have lefts : ∀ key ∈ w.keys, key ≠ home →
      (w.without n tag (· == home)).isLeft key = w.isLeft key := fun key _ apart =>
    w.isLeft_without (fun c there own => absurd own (lags.departed.silent c there)) (by simpa using apart)
  obtain ⟨m, next, silent⟩ := next?_left lags.there lags.isLeft
  rw [lags.same]
  rcases next?_without lags.sane.alone lags.hides lefts with told | noticed | ⟨key, lapses⟩ | same
  · have leaves := (next?_orphan told).2
    have aware : (w.without n tag (· == home)).isLeft home = false := w.isLeft_noticed (by simp)
    simp [aware] at leaves
  · exact .inl noticed
  · exact absurd lapses (lags.departed.other key)
  · exact .inr ⟨m, next, by rw [same, next]; rfl, silent⟩

theorem Lags.make (lags : Lags n tag home w w') {m : Move} (next : w.next? = some m)
    (other : m ≠ .orphan home) (silent : ∀ b, m ≠ .ring b) :
    Lags n tag home (w.make m) (w'.make (m.without n)) where
  toOwned := lags.toOwned.make next
  departed := lags.departed.make lags.sane.alone next
  forlorn := (narrows_make lags.sane.alone next).forlorn lags.forlorn
  stuck := by
    obtain ⟨l, there, stuck, unaware⟩ := lags.stuck
    rw [(sane_make lags.sane next).2]
    refine ⟨l, ?_, stuck, unaware⟩
    rw [← there]
    cases coming_of_next? lags.sane.alone next with
    | @lane key k moved at_key act =>
      have apart : key ≠ home := by
        rintro rfl
        obtain rfl : k = l := Option.some.inj (at_key.symm.trans there)
        simp [stuck.1] at act
      have step : w.laneStep? key = some moved := Option.bind_eq_some_iff.mpr ⟨k, at_key, act⟩
      simp only [World.make, step]
      exact lane?_update lags.sane.alone apart moved
    | watch waits => rfl
    | @orphan key k _ _ =>
      have apart : key ≠ home := fun same => other (by rw [same])
      exact (Hub.lane?_modify w.hub key _ home).trans (by simp [apart])
    | ring => exact absurd rfl (silent _)
  same := by
    rw [lags.same]
    exact (make_without lags.sane.alone lags.bears lags.hides next
      (fun _ _ did => lags.departed.passed did) fun key own => silent _ own).symm

theorem Lags.notice (lags : Lags n tag home w w') (next : w.next? = some (.orphan home)) :
    Absent n tag (w.make (.orphan home)) w' where
  toOwned := lags.toOwned.make next
  departed := lags.departed.make lags.sane.alone next
  same := by
    rw [lags.same, orphan_without]
    simp

theorem Lags.settles (lags : Lags n tag home w w') (settles : Settles w v)
    (settles' : Settles w' v') : Absent n tag v v' := by
  induction settles generalizing w' with
  | still none =>
    obtain ⟨m, next, _⟩ := next?_left lags.there lags.isLeft
    simp [none] at next
  | @move w v m next rest ih =>
    by_cases noticed : m = .orphan home
    · subst noticed
      exact (lags.notice next).settles rest settles'
    · obtain ⟨m', next', first', silent⟩ := lags.next.resolve_left fun same =>
        noticed (Option.some.inj (next.symm.trans same))
      obtain rfl := Option.some.inj (next.symm.trans next')
      cases settles' with
      | still none => simp [none] at first'
      | move first rest' =>
        obtain rfl := Option.some.inj (first'.symm.trans first)
        exact ih (lags.make next noticed silent) rest'

/-- The sender has left, and the other world is or will be the one without it. -/
def Leaves (n : Nat) (tag : String) (home : Key) (w w' : World) : Prop :=
  Absent n tag w w' ∨ Lags n tag home w w'

theorem Leaves.settles (leaves : Leaves n tag home w w') (settles : Settles w v)
    (settles' : Settles w' v') : Absent n tag v v' :=
  leaves.elim (·.settles settles settles') (·.settles settles settles')

theorem leaves_of (owned : w.Owned n tag) (departed : w.Departed n)
    (same : w' = w.without n tag fun key => left && key == home)
    (forlorn : left = true → w'.Forlorn home)
    (stuck : ∃ l, w.hub.lane? home = some l ∧ IsStuck w.now l) : Leaves n tag home w w' := by
  cases left with
  | false => exact .inl ⟨owned, departed, same⟩
  | true =>
    simp only [Bool.true_and] at same
    obtain ⟨l, there, stuck⟩ := stuck
    cases aware : l.session.orphaned with
    | true =>
      have still : w.make (.orphan home) = w := by
        have lanes : w.hub.updateSession home ({ · with orphaned := true }) = w.hub := by
          unfold Hub.updateSession
          congr 1
          apply List.ext_getElem?
          intro k
          rw [List.getElem?_modify]
          by_cases here : home = k
          · subst here
            rw [show w.hub.lanes[home]? = some l from there]
            simp [← aware]
          · simp [here]
        simp only [make, lanes]
      have seen : w.without n tag (fun _ => false) = w.without n tag (· == home) := by
        have noticed := w.orphan_without (n := n) (t := tag) (fun _ => false) home
        simpa only [still, Bool.false_or] using noticed
      exact .inl ⟨owned, departed, same.trans seen.symm⟩
    | false =>
      have held : (w.without n tag (· == home)).isHeld home = w.isHeld home :=
        w.isHeld_without fun c there own => absurd own (departed.silent c there)
      have there' := (forlorn rfl).there
      have free' := (forlorn rfl).free
      rw [same] at there' free'
      refine .inr ⟨owned, departed, ⟨by simpa [without, Hub.without] using there', fun holds => ?_⟩,
        ⟨l, there, stuck, aware⟩, same⟩
      have alone : (w.without n tag (· == home)).visitors = [] := owned.sane.alone
      exact free' ((isHeld_iff alone home).mp
        (held.trans ((isHeld_iff owned.sane.alone home).mpr holds)))

structure Arrived (n : Nat) (tag : String) (w : World) : Prop extends w.Owned n tag where
  spared : w.Spared tag
  nowhere : w.Obeys (.apart n)

theorem Arrived.other (arrived : w.Arrived n tag) (key : Key) :
    w.next? ≠ some (.ring (.waiter key (.sender n))) := by
  intro next
  obtain ⟨l, there, waits⟩ := waiter_rings next
  obtain ⟨v, member, own⟩ := List.mem_map.mp waits
  exact arrived.nowhere key l there v member own

theorem Arrived.make (arrived : w.Arrived n tag) {m : Move} (next : w.next? = some m) :
    (w.make m).Arrived n tag where
  toOwned := arrived.toOwned.make next
  spared := arrived.spared.make arrived.sane.alone arrived.bears next
    fun key own => arrived.other key (own ▸ next)
  nowhere := (does_make next).obeys arrived.nowhere

theorem Arrived.settles (arrived : w.Arrived n tag) (settles : Settles w v) : v.Arrived n tag := by
  induction settles with
  | still => exact arrived
  | move next _ ih => exact ih (arrived.make next)

theorem Arrived.passes {target : Nat} (arrived : w.Arrived n tag) (settled : w.next? = none)
    (past : w.now ≤ target) (passes : Passes target w v) : v.Arrived n tag := by
  have time {w : World} (arrived : w.Arrived n tag) {t : Nat} (forward : w.now ≤ t) :
      Arrived n tag { w with now := t } :=
    ⟨arrived.toOwned.time t, arrived.spared, arrived.nowhere.later forward⟩
  induction passes with
  | arrive _ rest => exact (time arrived past).settles rest
  | ring first due moves _ ih =>
    have later := alarm_later settled (earliest?_mem first)
    obtain ⟨settled', now, _⟩ := moves.settled (sane_now arrived.sane _)
    exact ih ((time arrived (Nat.le_of_lt later)).settles moves) settled' (now ▸ due)

theorem Stands.key (stands : w.Stands n home x) {key : Key} {l : Lane}
    (there : w.hub.lane? key = some l) (waits : Caller.sender n ∈ l.session.waitingCallers) :
    key = home := by
  have once : l.session.callers.count (.sender n) ≤ if key = home then 1 else 0 :=
    stands.once key l there
  have first := List.count_pos_iff.mpr waits
  rw [Session.callers, List.count_append] at once
  by_contra apart
  rw [if_neg apart] at once
  omega

/-- What the writer of a session does leaves a sender that waits there waiting, if it passes it. -/
theorem Stands.moved (stands : w.Stands n home x) {m : Move} {key : Key} {moved : Lane × List Notice}
    (did : w.moved? m = some (key, moved)) (passed : Passed n moved) :
    key = home → x ∈ moved.1.session.waiting := by
  rintro rfl
  obtain ⟨l, there, moves⟩ := moves_moved did
  obtain ⟨k, there', waits⟩ := stands.awaits
  obtain rfl : l = k := Option.some.inj (there.symm.trans there')
  rcases moves.session with ⟨same, _⟩ | ⟨a, own, acted⟩
  · exact same ▸ waits
  · rcases Session.waiter_act waits a with still | queued | ⟨_, told⟩ | ⟨rfl, _⟩ | rfl
    · rwa [acted] at still
    · rw [acted] at queued
      refine absurd (List.mem_map.mpr ⟨x.parcel, ?_, stands.caller⟩) passed.1
      exact List.mem_append_right _ queued
    · rw [acted] at told
      exact absurd (List.mem_map.mpr ⟨_, told, stands.caller⟩) passed.2
    · exact own.elim
    · exact own.elim

theorem Stands.make (stands : w.Stands n home x) (alone : w.visitors = []) {m : Move}
    (next : w.next? = some m)
    (passed : ∀ key moved, w.moved? m = some (key, moved) → Passed n moved)
    (other : ∀ key, m ≠ .ring (.waiter key (.sender n))) :
    (w.make m).Stands n home x ∧ ∀ c ∈ w.calls, c.sender = n → c ∈ (w.make m).calls := by
  have once := (does_make next).obeys stands.once
  have keyed (c : Call) (there : c ∈ (w.make m).calls) (own : c.sender = n) : c.key = home :=
    stands.keyed c ((narrows_make alone next).calls c there) own
  suffices goes : (w.make m).Awaits home x ∧ ∀ c ∈ w.calls, c.sender = n → c ∈ (w.make m).calls from
    ⟨⟨stands.caller, goes.1, once, keyed⟩, goes.2⟩
  cases did : w.moved? m with
  | some did' =>
    obtain ⟨key, moved⟩ := did'
    have passed := passed key moved did
    rw [make_moved did]
    exact ⟨stands.awaits.update (stands.moved did passed), fun c there own =>
      calls_update alone key there (own ▸ passed.2)⟩
  | none =>
    cases coming_of_next? alone next with
    | lane there act => simp [moved?, laneStep?, there, act] at did
    | watch waits => exact ⟨stands.awaits, fun _ there _ => there⟩
    | orphan there unaware =>
      exact ⟨stands.awaits.session (b := .orphan) fun _ => id, fun _ there _ => there⟩
    | ring ringsFor due =>
      cases ringsFor with
      | writer there alarm => simp [moved?, there] at did
      | @waiter key l v there waits =>
        have apart : v.parcel.caller ≠ .sender n := fun own => other key (by rw [own])
        simp only [World.make, ring, there]
        exact ⟨(stands.lapse_other alone there fun own => absurd own apart).awaits, fun c there own =>
          calls_update alone key there (by simpa [Lane.lapse, own] using Ne.symm apart)⟩
      | sweeper there at_i same =>
        simp only [World.make, ring]
        split
        · rename_i s _
          have quietly := w.hub.quietly_act (a := .sweep s.maxIdle w.now) ⟨by simp, by simp, by simp⟩
          obtain ⟨l, there, waits⟩ := stands.awaits
          obtain ⟨l', there', same⟩ := quietly.lane there
          exact ⟨⟨l', there', same ▸ waits⟩, fun _ there _ => there⟩
        · exact ⟨stands.awaits, fun _ there _ => there⟩

theorem Stands.nowhere (stands : w.Stands n home x) {m : Move} {key : Key}
    {moved : Lane × List Notice} (did : w.moved? m = some (key, moved)) (concerned : ¬Passed n moved) :
    (w.make m).Obeys (.apart n) := by
  obtain ⟨l, there, moves⟩ := moves_moved did
  have counted := moves.count_le (.sender n)
  have once : l.session.callers.count (.sender n) ≤ if key = home then 1 else 0 :=
    stands.once key l there
  have there' : 0 < (moved.1.session.line.map (·.caller)).count (.sender n) +
      (moved.2.map (·.caller)).count (.sender n) := by
    by_contra none
    exact concerned ⟨List.count_eq_zero.mp (by omega), List.count_eq_zero.mp (by omega)⟩
  rw [Session.callers, List.count_append] at counted
  have here : key = home := by
    by_contra apart
    rw [if_neg apart] at once
    omega
  rw [if_pos here] at once
  rw [make_moved did]
  refine (tells_deliverAll { w with hub := w.hub.setLane key moved.1 } key moved.2).does.obeys ?_
  intro k m at_k v waits own
  have waiting : 0 < m.session.waitingCallers.count (.sender n) :=
    List.count_pos_iff.mpr (List.mem_map.mpr ⟨v, waits, own⟩)
  simp only [Hub.lane?, Hub.setLane, List.getElem?_set] at at_k
  split at at_k
  · split at at_k
    · obtain rfl := Option.some.inj at_k
      omega
    · simp at at_k
  · rename_i apart
    have none : m.session.callers.count (.sender n) ≤ if k = home then 1 else 0 :=
      stands.once k m at_k
    rw [if_neg (fun same => apart (here.trans same.symm)), Session.callers, List.count_append] at none
    omega

structure Waits (n : Nat) (tag : String) (home : Key) (x : Waiter) (w : World) : Prop
    extends w.Owned n tag where
  stands : w.Stands n home x
  called : ∃ c ∈ w.calls, c.sender = n
  spared : w.Spared tag

/-- The sender waits. The other world is the one without it, where it may have been noticed that nobody
else holds the session. -/
structure Lingers (n : Nat) (tag : String) (home : Key) (x : Waiter) (left : Bool) (w w' : World) :
    Prop extends w.Waits n tag home x where
  admitted : w.Obeys Session.admission
  same : w' = w.without n tag fun key => left && key == home
  forlorn : left = true → w'.Forlorn home

theorem Lingers.queued (lingers : Lingers n tag home x left w w') {l : Lane}
    (there : w.hub.lane? home = some l) : l.session.queue ≠ [] := by
  obtain ⟨k, there', waits⟩ := lingers.stands.awaits
  obtain rfl : l = k := Option.some.inj (there.symm.trans there')
  obtain ⟨c, since, discarded, ledger, kept, same⟩ := lingers.admitted home l there
  have packed := kept.packed
  rw [same] at packed
  have full := packed.full (List.ne_nil_of_mem waits)
  have places := packed.places
  exact List.ne_nil_of_length_pos (by omega)

theorem Lingers.hides (lingers : Lingers n tag home x left w w') :
    w.Hides fun key => left && key == home := by
  intro key l there seen
  obtain rfl : key = home := by simpa using (Bool.and_eq_true_iff.mp seen).2
  exact .inr (.inl (lingers.queued there))

theorem Lingers.held (lingers : Lingers n tag home x left w w') : w.isLeft home = false := by
  obtain ⟨c, there, own⟩ := lingers.called
  have held := (isHeld_iff lingers.sane.alone home).mpr
    (.inr (.inr (.inl ⟨c, there, lingers.stands.keyed c there own⟩)))
  simp [isLeft, held]

/-- What happens next: in the other world it is noticed that nobody holds the session, or the sender
lapses, or both worlds go on alike. -/
theorem Lingers.next (lingers : Lingers n tag home x left w w') :
    w'.next? = some (.orphan home) ∨ w.next? = some (.ring (.waiter home (.sender n))) ∨
      (w'.next? = w.next?.map (Move.without n) ∧
        ∀ key, w.next? ≠ some (.ring (.waiter key (.sender n)))) := by
  have lefts : ∀ key ∈ w.keys, key ≠ home →
      (w.without n tag fun key => left && key == home).isLeft key = w.isLeft key :=
    fun key _ apart => w.isLeft_without
      (fun c there own same => apart (same ▸ lingers.stands.keyed c there own))
      (by simp [apart])
  by_cases lapses : ∃ key, w.next? = some (.ring (.waiter key (.sender n)))
  · obtain ⟨key, lapses⟩ := lapses
    obtain ⟨l, there, waits⟩ := waiter_rings lapses
    exact .inr (.inl (lingers.stands.key there waits ▸ lapses))
  · rw [lingers.same]
    rcases next?_without lingers.sane.alone lingers.hides lefts with told | noticed | own | same
    · exact .inl told
    · exact absurd (next?_orphan noticed).2 (by simp [lingers.held])
    · exact absurd own lapses
    · exact .inr (.inr ⟨same, fun key own => lapses ⟨key, own⟩⟩)

theorem Lingers.catchUp (lingers : Lingers n tag home x left w w') (settles' : Settles w' v') :
    ∃ left u, Lingers n tag home x left w u ∧ Settles u v' ∧ u.next? ≠ some (.orphan home) := by
  by_cases noticed : w'.next? = some (.orphan home)
  · cases settles' with
    | still none => simp [none] at noticed
    | move first rest =>
      obtain rfl := Option.some.inj (first.symm.trans noticed)
      have same : w'.make (.orphan home) = w.without n tag fun key => true && key == home := by
        have noticed : (w.make (.orphan home)).without n tag (fun key => left && key == home) =
            (w.without n tag fun key => left && key == home).make (.orphan home) :=
          w.session_without home fun s b => by simp [Session.without]
        rw [lingers.same, ← noticed, orphan_without]
        cases left <;> simp
      have alone' : w'.visitors = [] := by rw [lingers.same]; exact lingers.sane.alone
      obtain ⟨there, leaves⟩ := next?_orphan noticed
      have free : ¬w'.Holds home := fun holds => by
        simp [isLeft, (isHeld_iff alone' home).mpr holds] at leaves
      have forlorn : (w'.make (.orphan home)).Forlorn home :=
        (narrows_make alone' noticed).forlorn ⟨List.mem_range.mp there, free⟩
      refine ⟨true, _, { lingers with same, forlorn := fun _ => forlorn }, rest, fun again => ?_⟩
      have leaves' := (next?_orphan again).2
      have aware : (w.without n tag fun key => true && key == home).isLeft home = false :=
        w.isLeft_noticed (by simp)
      rw [same, aware] at leaves'
      simp at leaves'
  · exact ⟨left, w', lingers, settles', noticed⟩

theorem Lingers.make (lingers : Lingers n tag home x left w w') {m : Move} (next : w.next? = some m)
    (next' : w'.next? = some (m.without n))
    (passed : ∀ key moved, w.moved? m = some (key, moved) → Passed n moved)
    (other : ∀ key, m ≠ .ring (.waiter key (.sender n))) :
    Lingers n tag home x left (w.make m) (w'.make (m.without n)) := by
  have alone' : w'.visitors = [] := by rw [lingers.same]; exact lingers.sane.alone
  obtain ⟨stands, calls⟩ := lingers.stands.make lingers.sane.alone next passed other
  obtain ⟨c, there, own⟩ := lingers.called
  refine ⟨⟨lingers.toOwned.make next, stands, ⟨c, calls c there own, own⟩,
    lingers.spared.make lingers.sane.alone lingers.bears next other⟩,
    (does_make next).obeys lingers.admitted, ?_,
    fun seen => (narrows_make alone' next').forlorn (lingers.forlorn seen)⟩
  rw [lingers.same]
  exact (make_without lingers.sane.alone lingers.bears lingers.hides next passed other).symm

theorem Lingers.lapses (lingers : Lingers n tag home x left w w')
    (next : w.next? = some (.ring (.waiter home (.sender n)))) :
    Leaves n tag home (w.make (.ring (.waiter home (.sender n)))) w' := by
  obtain ⟨l, there, _⟩ := lingers.stands.awaits
  have rung : w.make (.ring (.waiter home (.sender n))) = w.update home (l.lapse (.sender n)) := by
    simp only [World.make, ring, there]
  have early : w.early? = none := by
    rw [next?_eq] at next
    cases early : w.early? with
    | none => rfl
    | some m =>
      obtain rfl : m = .ring _ := Option.some.inj (by simpa [early] using next)
      exact absurd early (w.early?_silent _)
  have owned := lingers.toOwned.make next
  have now := (sane_make lingers.sane next).2
  rw [rung] at owned now ⊢
  refine leaves_of owned (lingers.stands.lapse_own lingers.sane.alone there)
    (lingers.same.trans (update_own lingers.bears there).symm) lingers.forlorn
    ⟨(l.lapse (.sender n)).1, ?_, ?_⟩
  · have inside := (List.getElem?_eq_some_iff.mp there).1
    have hub := hub_deliver_lapsed (w := { w with hub := w.hub.setLane home (l.lapse (.sender n)).1 })
      lingers.sane.alone home (.sender n)
    exact (congrArg (·.lane? home) hub).trans (List.getElem?_set_self inside)
  · rw [now]
    exact IsStuck.lapse ⟨still_of_early? early there, lingers.queued there⟩ _

/-- A sender that waits goes on to wait, or leaves, or arrives. -/
def Fate (n : Nat) (tag : String) (home : Key) (x : Waiter) (w w' : World) : Prop :=
  (∃ left, Lingers n tag home x left w w') ∨ Absent n tag w w' ∨ w.Arrived n tag

theorem Lingers.settles (lingers : Lingers n tag home x left w w') (settles : Settles w v)
    (settles' : Settles w' v') : Fate n tag home x v v' := by
  induction settles generalizing w' left with
  | @still w none =>
    obtain ⟨left, u, lingers, rest, awake⟩ := lingers.catchUp settles'
    obtain noticed | lapses | ⟨same, _⟩ := lingers.next
    · exact absurd noticed awake
    · simp [none] at lapses
    · rw [none, Option.map_none] at same
      cases rest with
      | still => exact .inl ⟨left, lingers⟩
      | move first => simp [same] at first
  | @move w v m next rest ih =>
    obtain ⟨left, u, lingers, rest', awake⟩ := lingers.catchUp settles'
    obtain noticed | lapses | ⟨same, other⟩ := lingers.next
    · exact absurd noticed awake
    · obtain rfl := Option.some.inj (next.symm.trans lapses)
      exact .inr (.inl ((lingers.lapses lapses).settles rest rest'))
    · rw [next, Option.map_some] at same
      have other' : ∀ key, m ≠ .ring (.waiter key (.sender n)) := fun key own => other key (own ▸ next)
      by_cases passed : ∀ key moved, w.moved? m = some (key, moved) → Passed n moved
      · cases rest' with
        | still none => simp [none] at same
        | move first rest' =>
          obtain rfl := Option.some.inj (same.symm.trans first)
          exact ih (lingers.make next same passed other') rest'
      · push Not at passed
        obtain ⟨key, moved, did, concerned⟩ := passed
        have arrived : (w.make m).Arrived n tag :=
          ⟨lingers.toOwned.make next, lingers.spared.make lingers.sane.alone lingers.bears next other',
            lingers.stands.nowhere did concerned⟩
        exact .inr (.inr (arrived.settles rest))

theorem Lingers.time (lingers : Lingers n tag home x left w w') {t : Nat} (forward : w.now ≤ t) :
    Lingers n tag home x left { w with now := t } { w' with now := t } where
  toOwned := lingers.toOwned.time t
  stands := { lingers.stands with once := lingers.stands.once.later forward }
  called := lingers.called
  spared := lingers.spared
  admitted := lingers.admitted.later forward
  same := by rw [lingers.same]; rfl
  forlorn seen := { lingers.forlorn seen with }

theorem Lingers.passes {target : Nat} (lingers : Lingers n tag home x left w w')
    (settled : w.next? = none) (settled' : w'.next? = none) (past : w.now ≤ target)
    (passes : Passes target w v) (passes' : Passes target w' v') : Fate n tag home x v v' := by
  induction passes generalizing w' left with
  | arrive none rest =>
    refine (lingers.time past).settles rest (passes'.arrives ?_)
    rw [lingers.same]
    refine due_without (p := (target < ·)) fun a there => ?_
    obtain ⟨b, first⟩ := exists_earliest? there
    exact Nat.lt_of_lt_of_le (none b first) (earliest?_le first there)
  | ring first due moves rest ih =>
    have alone' : w'.visitors = [] := by rw [lingers.same]; exact lingers.sane.alone
    have later := alarm_later settled (earliest?_mem first)
    obtain ⟨u', moves', rest'⟩ := passes'.until alone' settled' due (by
      rw [lingers.same]
      exact due_without (p := (_ ≤ ·)) fun a there => earliest?_le first there)
    obtain ⟨still, now, _⟩ := moves.settled (sane_now lingers.sane _)
    have sane' : w'.Sane := by rw [lingers.same]; exact { lingers.sane with }
    obtain ⟨still', _, _⟩ := moves'.settled (sane_now sane' _)
    rcases (lingers.time (Nat.le_of_lt later)).settles moves moves' with
      ⟨left, lingers⟩ | absent | arrived
    · exact ih lingers still still' (now ▸ due) rest'
    · exact .inr (.inl (absent.passes still rest rest'))
    · exact .inr (.inr (arrived.passes still (now ▸ due) rest))

end Scenario.World

end Courier
