import Courier.Proofs.Scenario.Absence

set_option autoImplicit false

namespace Courier.Scenario.World

variable {n : Nat} {tag : String} {left : Key → Bool} {w : World}

def Bell.without (n : Nat) : Bell → Bell
  | .waiter key caller => .waiter key ((Omission.sender n).name caller)
  | b => b

def Bell.isOf (n : Nat) : Bell → Bool
  | .waiter _ caller => caller == .sender n
  | _ => false

theorem laneAlarms_without (w : World) (key : Key) : (w.without n tag left).laneAlarms key =
    ((w.laneAlarms key).filter (!·.2.isOf n)).map fun a => (a.1, a.2.without n) := by
  have lane : (w.without n tag left).hub.lane? key =
      (w.hub.lane? key).map (·.without (.sender n) (left key)) := w.hub.lane?_without key
  unfold laneAlarms
  rw [lane]
  cases w.hub.lane? key with
  | none => rfl
  | some l =>
    simp only [Option.map_some, Lane.alarm?_without, Lane.waiterAlarms_without, List.filter_append,
      List.map_append, List.filter_map, List.map_map]
    congr 1
    cases l.alarm? <;> simp [Bell.isOf, Bell.without]

theorem keys_without (w : World) : (w.without n tag left).keys = w.keys := by
  rw [keys, keys, show (w.without n tag left).hub.lanes.length = w.hub.lanes.length from
    w.hub.length_without]

theorem alarms_without (w : World) : (w.without n tag left).alarms =
    (w.alarms.filter (!·.2.isOf n)).map fun a => (a.1, a.2.without n) := by
  have lanes : (w.without n tag left).laneAlarms = fun key =>
      ((w.laneAlarms key).filter (!·.2.isOf n)).map fun a => (a.1, a.2.without n) :=
    funext w.laneAlarms_without
  unfold alarms
  simp only [keys_without, lanes, List.filter_append, List.map_append, List.filter_flatMap,
    List.map_flatMap]
  congr 1
  refine List.flatMap_congr fun s _ => ?_
  rw [List.filter_eq_self.mpr, List.map_map]
  · rfl
  · intro a there
    obtain ⟨_, _, rfl⟩ := List.mem_map.mp there
    rfl

theorem earliest?_map (f : Bell → Bell) (alarms : List (Alarm × Bell)) :
    earliest? (alarms.map fun a => (a.1, f a.2)) = (earliest? alarms).map fun a => (a.1, f a.2) := by
  have each (alarms : List (Alarm × Bell)) : ∀ best : Option (Alarm × Bell),
      (alarms.map fun a => (a.1, f a.2)).foldl sooner (best.map fun a => (a.1, f a.2)) =
        (alarms.foldl sooner best).map fun a => (a.1, f a.2) := by
    induction alarms with
    | nil => exact fun _ => rfl
    | cons a alarms ih =>
      intro best
      rw [List.map_cons, List.foldl_cons, List.foldl_cons, ← ih]
      congr 1
      cases best with
      | none => rfl
      | some b =>
        simp only [Option.map_some, sooner]
        split <;> rfl
  exact each alarms none

def Move.without (n : Nat) : Move → Move
  | .ring b => .ring (b.without n)
  | m => m

/-- Nobody notices at any session that it is held no more, but where that makes no difference yet. -/
def Hides (left : Key → Bool) (w : World) : Prop :=
  ∀ key l, w.hub.lane? key = some l → l.session.Hides (left key)

theorem isSome_laneStep?_without (hides : w.Hides left) (key : Key) :
    ((w.without n tag left).laneStep? key).isSome = (w.laneStep? key).isSome := by
  have lane : (w.without n tag left).hub.lane? key =
      (w.hub.lane? key).map (·.without (.sender n) (left key)) := w.hub.lane?_without key
  rw [laneStep?, laneStep?, lane]
  cases there : w.hub.lane? key with
  | none => rfl
  | some l => exact Lane.isSome_act?_without (hides key l there) w.now

theorem isOver_without (w : World) (v : Watch) : (w.without n tag left).isOver v = w.isOver v := by
  have lane : (w.without n tag left).hub.lane? v.key =
      (w.hub.lane? v.key).map (·.without (.sender n) (left v.key)) := w.hub.lane?_without v.key
  rw [isOver, isOver, lane, Option.any_map]
  rfl

theorem isHeld_without (w : World) {key : Key} (apart : ∀ c ∈ w.calls, c.sender = n → c.key ≠ key) :
    (w.without n tag left).isHeld key = w.isHeld key := by
  have called : (w.without n tag left).calls.any (·.key == key) = w.calls.any (·.key == key) :=
    any_calls w (·.key == key) (·.key == key) (fun _ _ _ => rfl) fun c there own => by
      simpa using apart c there own
  unfold isHeld
  rw [called]
  rfl

theorem isLeft_without (w : World) {key : Key} (apart : ∀ c ∈ w.calls, c.sender = n → c.key ≠ key)
    (unseen : left key = false) : (w.without n tag left).isLeft key = w.isLeft key := by
  have lane : (w.without n tag left).hub.lane? key =
      (w.hub.lane? key).map (·.without (.sender n) (left key)) := w.hub.lane?_without key
  rw [isLeft, isLeft, isHeld_without w apart, lane, Option.any_map, unseen]
  congr 1
  cases w.hub.lane? key with
  | none => rfl
  | some l => simp

theorem isLeft_noticed (w : World) {key : Key} (seen : left key = true) :
    (w.without n tag left).isLeft key = false := by
  have lane : (w.without n tag left).hub.lane? key =
      (w.hub.lane? key).map (·.without (.sender n) (left key)) := w.hub.lane?_without key
  rw [isLeft, lane, Option.any_map, seen]
  cases w.hub.lane? key <;> simp

theorem find?_apart {α : Type} {l : List α} {p q : α → Bool} {a : α}
    (same : ∀ b ∈ l, b ≠ a → p b = q b) :
    l.find? p = some a ∨ l.find? q = some a ∨ l.find? p = l.find? q := by
  induction l with
  | nil => exact .inr (.inr rfl)
  | cons b l ih =>
    by_cases here : b = a
    · subst here
      cases on : p b with
      | true => exact .inl (List.find?_cons_of_pos on)
      | false =>
        cases on' : q b with
        | true => exact .inr (.inl (List.find?_cons_of_pos on'))
        | false =>
          rw [List.find?_cons_of_neg (by simp [on]), List.find?_cons_of_neg (by simp [on'])]
          exact ih fun c there => same c (List.mem_cons_of_mem _ there)
    · have agree := same b List.mem_cons_self here
      cases on : p b with
      | true =>
        exact .inr (.inr (by
          rw [List.find?_cons_of_pos on, List.find?_cons_of_pos (agree ▸ on)]))
      | false =>
        rw [List.find?_cons_of_neg (by simp [on]), List.find?_cons_of_neg (by simp [← agree, on])]
        exact ih fun c there => same c (List.mem_cons_of_mem _ there)

/-- What happens before anybody notices that a session is held no more. -/
def early? (w : World) : Option Move :=
  (w.keys.find? fun key => (w.laneStep? key).isSome).map .lane <|>
  (w.visitors.find? fun v => (w.visitorStep? v).isSome).map .visitor <|>
  (w.watches.find? w.isOver).map .watch

theorem early?_silent (w : World) (b : Bell) : w.early? ≠ some (.ring b) := by
  unfold early?
  simp

def due? (w : World) : Option Move :=
  ((earliest? w.alarms).filter (·.1.due ≤ w.now)).map fun a => .ring a.2

theorem next?_eq (w : World) :
    w.next? = (w.early? <|> (w.keys.find? w.isLeft).map .orphan <|> w.due?) := by
  unfold next? early? due?
  cases w.keys.find? fun key => (w.laneStep? key).isSome with
  | some key => rfl
  | none => cases w.visitors.find? fun v => (w.visitorStep? v).isSome <;> rfl

theorem still_of_early? (early : w.early? = none) {key : Key} {l : Lane}
    (there : w.hub.lane? key = some l) : l.act? w.now = none := by
  unfold early? at early
  rw [Option.orElse_eq_none, Option.map_eq_none_iff, List.find?_eq_none] at early
  have still := early.1 key (List.mem_range.mpr (List.getElem?_eq_some_iff.mp there).1)
  simpa [laneStep?, there] using still

theorem early?_without (alone : w.visitors = []) (hides : w.Hides left) :
    (w.without n tag left).early? = w.early?.map (Move.without n) := by
  have lanes : (w.keys.find? fun key => ((w.without n tag left).laneStep? key).isSome) =
      w.keys.find? fun key => (w.laneStep? key).isSome :=
    find?_congr_mem fun key _ => isSome_laneStep?_without hides key
  have watches : w.watches.find? (w.without n tag left).isOver = w.watches.find? w.isOver :=
    find?_congr_mem fun v _ => w.isOver_without v
  have visitors : (w.without n tag left).visitors = [] := alone
  have same : (w.without n tag left).watches = w.watches := rfl
  unfold early?
  rw [keys_without, lanes, visitors, alone, same, watches]
  cases w.keys.find? fun key => (w.laneStep? key).isSome with
  | some key => rfl
  | none => cases w.watches.find? w.isOver <;> rfl

theorem due?_without (w : World) : (∃ key, w.due? = some (.ring (.waiter key (.sender n)))) ∨
    (w.without n tag left).due? = w.due?.map (Move.without n) := by
  have now : (w.without n tag left).now = w.now := rfl
  unfold due?
  rw [alarms_without, earliest?_map, now]
  cases first : earliest? w.alarms with
  | none =>
    have none : w.alarms.filter (!·.2.isOf n) = [] := by
      rw [List.filter_eq_nil_iff]
      intro a there
      obtain ⟨b, found⟩ := exists_earliest? there
      simp [first] at found
    exact .inr (by rw [none]; rfl)
  | some a =>
    obtain ⟨alarm, bell⟩ := a
    by_cases due : alarm.due ≤ w.now
    · cases own : bell.isOf n with
      | false =>
        right
        rw [earliest?_filter first (by simp [own])]
        simp [Option.filter_some, due, Move.without]
      | true =>
        left
        cases bell with
        | waiter key caller =>
          obtain rfl : caller = .sender n := by simpa [Bell.isOf] using own
          exact ⟨key, by simp [Option.filter_some, due]⟩
        | _ => simp [Bell.isOf] at own
    · right
      have later : ∀ b, earliest? (w.alarms.filter (!·.2.isOf n)) = some b → ¬b.1.due ≤ w.now := by
        intro b found
        have least := earliest?_le first (List.mem_of_mem_filter (earliest?_mem found))
        simp only at least
        omega
      cases rest : earliest? (w.alarms.filter (!·.2.isOf n)) with
      | none => simp [Option.filter_some, Nat.lt_of_not_le due]
      | some b => simp [Option.filter_some, due, later b rest]

theorem next?_without_of_lefts (alone : w.visitors = []) (hides : w.Hides left)
    (lefts : w.keys.find? (w.without n tag left).isLeft = w.keys.find? w.isLeft) :
    (∃ key, w.next? = some (.ring (.waiter key (.sender n)))) ∨
      (w.without n tag left).next? = w.next?.map (Move.without n) := by
  rw [next?_eq, next?_eq, keys_without, lefts, early?_without alone hides]
  cases w.early? with
  | some m => exact .inr rfl
  | none =>
    cases w.keys.find? w.isLeft with
    | some key => exact .inr rfl
    | none => exact w.due?_without

/-- It is the same where one session only is let go of earlier or later, unless it is the turn of that
session. -/
theorem next?_without (alone : w.visitors = []) (hides : w.Hides left) {home : Key}
    (lefts : ∀ key ∈ w.keys, key ≠ home → (w.without n tag left).isLeft key = w.isLeft key) :
    (w.without n tag left).next? = some (.orphan home) ∨ w.next? = some (.orphan home) ∨
      (∃ key, w.next? = some (.ring (.waiter key (.sender n)))) ∨
      (w.without n tag left).next? = w.next?.map (Move.without n) := by
  rcases find?_apart lefts with found | found | found
  · rw [next?_eq, next?_eq, keys_without, found, early?_without alone hides]
    cases w.early? with
    | some m => exact .inr (.inr (.inr rfl))
    | none => exact .inl rfl
  · rw [next?_eq, next?_eq, found, early?_without alone hides]
    cases w.early? with
    | some m => exact .inr (.inr (.inr rfl))
    | none => exact .inr (.inl rfl)
  · exact .inr (.inr (next?_without_of_lefts alone hides found))

def moved? (w : World) : Move → Option (Key × Lane × List Notice)
  | .lane key => (w.laneStep? key).map fun moved => (key, moved)
  | .ring (.writer key) => (w.hub.lane? key).map fun l => (key, l.ring w.now)
  | _ => none

theorem make_moved {m : Move} {key : Key} {moved : Lane × List Notice}
    (did : w.moved? m = some (key, moved)) : w.make m = w.update key moved := by
  unfold moved? at did
  split at did
  · obtain ⟨moved, step, same⟩ := Option.map_eq_some_iff.mp did
    obtain ⟨rfl, rfl⟩ := Prod.mk.inj same
    simp only [make, step]
  · obtain ⟨l, there, same⟩ := Option.map_eq_some_iff.mp did
    obtain ⟨rfl, rfl⟩ := Prod.mk.inj same
    simp only [make, ring, there]
  · simp at did

theorem moves_moved {m : Move} {key : Key} {moved : Lane × List Notice}
    (did : w.moved? m = some (key, moved)) : ∃ l, w.hub.lane? key = some l ∧
      l.Moves Session.Act.IsWriters moved.1 moved.2 := by
  unfold moved? at did
  split at did
  · obtain ⟨moved, step, same⟩ := Option.map_eq_some_iff.mp did
    obtain ⟨rfl, rfl⟩ := Prod.mk.inj same
    obtain ⟨l, there, act⟩ := Option.bind_eq_some_iff.mp step
    exact ⟨l, there, Lane.act?_moves act⟩
  · obtain ⟨l, there, same⟩ := Option.map_eq_some_iff.mp did
    obtain ⟨rfl, rfl⟩ := Prod.mk.inj same
    exact ⟨l, there, l.ring_moves w.now⟩
  · simp at did

def Passed (n : Nat) (moved : Lane × List Notice) : Prop :=
  Caller.sender n ∉ moved.1.session.line.map (·.caller) ∧ Caller.sender n ∉ moved.2.map (·.caller)

theorem moved?_without (t : String) (hides : w.Hides left) {m : Move}
    (passed : ∀ key moved, w.moved? m = some (key, moved) → Passed n moved) :
    (w.without n t left).moved? (m.without n) = (w.moved? m).map fun (key, moved) =>
      (key, moved.1.without (.sender n) (left key), moved.2.map (·.without (.sender n))) := by
  have lane (key : Key) : (w.without n t left).hub.lane? key =
      (w.hub.lane? key).map (·.without (.sender n) (left key)) := w.hub.lane?_without key
  cases m with
  | lane key =>
    simp only [Move.without, moved?, laneStep?, lane]
    cases there : w.hub.lane? key with
    | none => rfl
    | some l =>
      simp only [Option.map_some, Option.bind_some]
      have acted : (l.without (.sender n) (left key)).act? w.now = _ :=
        Lane.act?_without (hides key l there) fun r act =>
          passed key r (by simp [moved?, laneStep?, there, act])
      change Option.map _ ((l.without (.sender n) (left key)).act? w.now) = _
      rw [acted, Option.map_map, Option.map_map]
      rfl
  | ring b =>
    cases b with
    | writer key =>
      simp only [Move.without, Bell.without, moved?, lane]
      cases there : w.hub.lane? key with
      | none => rfl
      | some l =>
        have rung := Lane.ring_without (o := .sender n) (b := left key) (l := l)
          (passed key (l.ring w.now) (by simp only [moved?, there]; rfl)).2
        simp only [Option.map_some]
        change some (key, (l.without (.sender n) (left key)).ring w.now) = _
        rw [rung]
    | _ => rfl
  | _ => rfl

/-- A move of the others comes to the same without the sender. -/
theorem make_without (alone : w.visitors = []) (bears : w.Bears (.owned n tag)) (hides : w.Hides left)
    {m : Move} (next : w.next? = some m)
    (passed : ∀ key moved, w.moved? m = some (key, moved) → Passed n moved)
    (other : ∀ key, m ≠ .ring (.waiter key (.sender n))) :
    (w.make m).without n tag left = (w.without n tag left).make (m.without n) := by
  have same := moved?_without tag hides passed
  cases did : w.moved? m with
  | some did' =>
    obtain ⟨key, moved⟩ := did'
    rw [did, Option.map_some] at same
    rw [make_moved did, make_moved same]
    exact update_without alone bears key (passed key moved did).2
  | none =>
    cases coming_of_next? alone next with
    | lane there act => simp [moved?, laneStep?, there, act] at did
    | @watch v waits => exact finish_without (bears.watches v waits) _ _
    | @orphan key l there unaware => exact w.session_without key fun s b => by simp [Session.without]
    | ring ringsFor due =>
      cases ringsFor with
      | writer there alarm => simp [moved?, there] at did
      | @waiter key l v there waits =>
        have apart : v.parcel.caller ≠ .sender n := fun own => other key (by rw [own])
        exact lapseAt_without alone bears key apart
      | @sweeper name s i loop there at_i same =>
        have swept (s : Sweeper) := w.hub.without_sweepIdle (o := .sender n) (q := left) s.maxIdle
          w.now
        simp only [make, ring, Move.without, Bell.without,
          show (w.without n tag left).sweepers = w.sweepers from rfl]
        cases w.sweepers.lookup name with
        | none => rfl
        | some s => simp only [without, swept]

theorem settled_until (alone : w.visitors = []) (settled : w.next? = none) {t : Nat}
    (later : ∀ a ∈ w.alarms, t < a.1.due) : next? { w with now := t } = none := by
  have acts (key : Key) : (laneStep? { w with now := t } key).isSome = (w.laneStep? key).isSome := by
    simp only [laneStep?]
    cases w.hub.lane? key with
    | none => rfl
    | some l => exact l.act?_isSome t w.now
  have lanes : (w.keys.find? fun key => (laneStep? { w with now := t } key).isSome) =
      w.keys.find? fun key => (w.laneStep? key).isSome := find?_congr_mem fun key _ => acts key
  have early : early? { w with now := t } = w.early? := by
    unfold early?
    simp only [alone]
    change ((w.keys.find? fun key => (laneStep? { w with now := t } key).isSome).map _ <|> _) = _
    rw [lanes]
    rfl
  rw [next?_eq, Option.orElse_eq_none, Option.orElse_eq_none] at settled
  rw [next?_eq, early, settled.1, Option.orElse_eq_none, Option.orElse_eq_none]
  refine ⟨rfl, settled.2.1, ?_⟩
  unfold due?
  rw [Option.map_eq_none_iff, Option.filter_eq_none_iff]
  intro a first
  have after := later a (earliest?_mem first)
  simp only [decide_eq_true_eq]
  omega

theorem Passes.until {target : Nat} {v : World} (passes : Passes target w v) (alone : w.visitors = [])
    (settled : w.next? = none) {t : Nat} (before : t ≤ target) (least : ∀ a ∈ w.alarms, t ≤ a.1.due) :
    ∃ u, Settles { w with now := t } u ∧ Passes target u v := by
  cases passes with
  | arrive none rest =>
    have later : ∀ a ∈ w.alarms, t < a.1.due := by
      intro a there
      obtain ⟨b, first⟩ := exists_earliest? there
      have after := none b first
      have least := earliest?_le first there
      omega
    exact ⟨{ w with now := t }, .still (settled_until alone settled later), .arrive none rest⟩
  | @ring _ u _ a first due moves rest =>
    by_cases instant : a.1.due = t
    · exact ⟨u, instant ▸ moves, rest⟩
    · have later : ∀ b ∈ w.alarms, t < b.1.due := by
        intro b there
        have sooner := least a (earliest?_mem first)
        have least := earliest?_le first there
        omega
      exact ⟨{ w with now := t }, .still (settled_until alone settled later),
        .ring (w := { w with now := t }) first due moves rest⟩

theorem Passes.arrives {target : Nat} {v : World} (passes : Passes target w v)
    (later : ∀ a ∈ w.alarms, target < a.1.due) : Settles { w with now := target } v := by
  cases passes with
  | arrive _ rest => exact rest
  | @ring _ _ _ a first due _ _ =>
    have after := later a (earliest?_mem first)
    omega

theorem due_without {p : Nat → Prop} (all : ∀ a ∈ w.alarms, p a.1.due) :
    ∀ a ∈ (w.without n tag left).alarms, p a.1.due := by
  intro a there
  rw [alarms_without] at there
  obtain ⟨b, kept, rfl⟩ := List.mem_map.mp there
  exact all b (List.mem_of_mem_filter kept)

end Courier.Scenario.World
