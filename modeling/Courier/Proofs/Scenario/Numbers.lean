import Courier.Proofs.Scenario.Becomes
import Courier.Proofs.Scenario.Fresh

set_option autoImplicit false

namespace Courier.Scenario.World

variable {w w' : World}

def Collects (w w' : World) : Prop := ∀ g ∈ w'.gatherings, ∃ h ∈ w.gatherings, g.sender = h.sender

theorem Collects.refl (w : World) : Collects w w := fun g there => ⟨g, there, rfl⟩

theorem Collects.trans {a b c : World} (first : Collects a b) (second : Collects b c) :
    Collects a c := by
  intro g there
  obtain ⟨h, there, same⟩ := second g there
  obtain ⟨k, there, same'⟩ := first h there
  exact ⟨k, there, same.trans same'⟩

theorem Narrows.collects (narrows : Narrows w w') : Collects w w' := fun g there => by
  obtain ⟨h, there, same, _⟩ := narrows.gatherings g there
  exact ⟨h, there, same⟩

theorem collects_foldl {α : Type} {f : World → α → World} (each : ∀ v a, Collects v (f v a))
    (l : List α) (w : World) : Collects w (l.foldl f w) :=
  l.foldlRecOn (motive := Collects w) f (.refl w) fun v before a _ => before.trans (each v a)

theorem collects_deliver (w : World) (key : Key) (n : Notice) : Collects w (w.deliver key n) := by
  unfold deliver
  cases n.caller with
  | connection name =>
    simp only
    split <;> exact .refl w
  | sender sender =>
    simp only
    split
    · refine Narrows.collects ?_
      calc Narrows w _ := w.narrows_calls _
        Narrows _ _ := narrows_conclude _ _ _
        Narrows _ _ := narrows_gather _ sender
    · exact .refl w

theorem collects_update (w : World) (key : Key) (moved : Lane × List Notice) :
    Collects w (w.update key moved) :=
  collects_foldl (fun v n => v.collects_deliver key n) moved.2
    { w with hub := w.hub.setLane key moved.1 }

theorem collects_abort (w : World) (tag : String) : Collects w (w.abort tag) := by
  have gaveUp := collects_foldl (f := giveUp) (fun v _ => .refl v) (w.calls.filter (·.tag == tag)) w
  intro g there
  exact gaveUp g (List.mem_of_mem_filter there)

theorem collects_cancel (w : World) (token : String) : Collects w (w.cancel token) := by
  refine collects_foldl (fun v key => ?_) _ { w with cancelled := token :: w.cancelled }
  rw [cancelIn_eq]
  split
  · exact .refl v
  · refine collects_foldl (fun u x => ?_) _ v
    unfold lapseAt
    split
    · exact u.collects_update key _
    · exact .refl u

theorem collects_ring (w : World) (b : Bell) : Collects w (w.ring b) := by
  cases b with
  | sweeper name i =>
    simp only [ring]
    split <;> exact .refl w
  | _ =>
    simp only [ring]
    split
    · exact w.collects_update _ _
    · exact .refl w

theorem collects_make (w : World) (m : Move) : Collects w (w.make m) := by
  cases m with
  | lane key =>
    simp only [make]
    split
    · exact w.collects_update _ _
    · exact .refl w
  | visitor v =>
    simp only [make]
    cases did : w.visitorStep? v with
    | none => exact .refl w
    | some u =>
      obtain ⟨_, _, did⟩ := Option.bind_eq_some_iff.mp did
      obtain rfl := Option.some.inj did
      exact .refl w
  | ring b => exact w.collects_ring b
  | _ => exact .refl w

theorem collects_changeSocketOf (w : World) (c : Connection) (change : Socket → Socket) :
    Collects w (w.changeSocketOf c change) := by
  unfold changeSocketOf
  split <;> exact .refl w

theorem collects_visitAll (w : World) : Collects w w.visitAll.1 := by
  rw [visitAll_fst]
  refine collects_foldl (fun u v => ?_) _ w
  unfold visit collect
  simp only
  split
  · exact u.collects_changeSocketOf v.connection Socket.readAll
  · exact .refl u

theorem collects_perform (w : World) {s : Step} (silent : s.begun = 0) :
    Collects w (w.perform s).1 := by
  have done := w.performs s
  generalize (w.perform s).1 = v at done ⊢
  cases done with
  | enters o =>
    unfold enter
    simp only
    split <;> exact .refl w
  | @client name action v there => exact collects_changeSocketOf (w.setVisitor _) _ _
  | sends sends =>
    obtain rfl := List.eq_nil_of_length_eq_zero silent
    exact .refl w
  | aborts tag => exact w.collects_abort tag
  | cancels token => exact w.collects_cancel token
  | advances ms =>
    exact advanceTo_keeps .refl .trans (fun _ => collects_make _ _) (fun _ => .refl _) _
      (Nat.le_add_right ..)
  | jumps ms =>
    exact settleAt_keeps .refl .trans (fun _ => collects_make _ _) (fun _ => .refl _)
      (Nat.le_add_right ..)
  | _ => exact .refl w

/-- Whatever bears a number of a sender bears one that was given. -/
structure Counted (w : World) : Prop where
  gatherings : ∀ g ∈ w.gatherings, g.sender < w.sends
  callers : w.Obeys (.before w.sends)

theorem Obeys.before {n m : Nat} (obeys : w.Obeys (.before n)) (more : n ≤ m) :
    w.Obeys (.before m) := fun key l there c member => by
  have before := obeys key l there c member
  cases c with
  | connection name => trivial
  | sender k => exact Nat.lt_of_lt_of_le before more

theorem Counted.narrows (counted : w.Counted) (sends : w.sends ≤ w'.sends)
    (collects : Collects w w') (callers : w'.Obeys (.before w'.sends)) : w'.Counted where
  gatherings g there := by
    obtain ⟨h, there, same⟩ := collects g there
    exact same ▸ Nat.lt_of_lt_of_le (counted.gatherings h there) sends
  callers := callers

theorem Counted.begin (counted : w.Counted) (s : Send) : (w.begin s).Counted where
  gatherings := by
    rw [sends_begin]
    have narrow {v v' : World} (before : ∀ g ∈ v.gatherings, g.sender < w.sends + 1)
        (narrows : Narrows v v') : ∀ g ∈ v'.gatherings, g.sender < w.sends + 1 := fun g there => by
      obtain ⟨h, there, same⟩ := narrows.collects g there
      exact same ▸ before h there
    refine w.begin_induct s (P := fun v => ∀ g ∈ v.gatherings, g.sender < w.sends + 1)
      (fun _ _ g there => Nat.lt_succ_of_lt (counted.gatherings g there))
      (fun v before g there => ?_) (fun _ _ _ before => before)
      (fun v c payload patience _ _ _ before =>
        narrow (v := { v with calls := v.calls ++ [c] }) before (v.narrows_offer c payload patience))
      (fun v _ _ before => narrow before (narrows_addResult v _ _ _))
      fun v before => narrow before (narrows_gather v _)
    rcases List.mem_append.mp there with old | new
    · exact before g old
    · obtain rfl := List.mem_singleton.mp new
      exact Nat.lt_succ_self _
  callers := by
    rw [sends_begin]
    exact (counted.callers.before (Nat.le_succ _)).begin (Nat.lt_succ_self _)

theorem Counted.perform (counted : w.Counted) (s : Step) : (w.perform s).1.Counted := by
  by_cases silent : s.begun = 0
  · have sends : w.sends ≤ (w.perform s).1.sends :=
      (leads_perform (r := .free False) (fun _ _ _ => trivial) (fun _ => id) fun _ => trivial).sends
    refine counted.narrows sends (w.collects_perform silent)
      ((counted.callers.before sends).perform fun n after before => ?_)
    omega
  · cases s with
    | send sends =>
      exact sends.foldlRecOn (motive := Counted) World.begin counted fun _ before s _ =>
        before.begin s
    | _ => simp at silent

/-- No number is borne before it is given, whatever is done to the world. -/
theorem Reached.counted {config : Config} (reached : Reached config w) : w.Counted := by
  induction reached with
  | start =>
    refine ⟨by simp, fun key l there => ?_⟩
    simp at there
  | step _ s ih => exact ih.perform s
  | @move w _ m next ih =>
    have does := does_make (r := (Session.Rule.before w.sends).regime) next
    exact ih.narrows (Nat.le_of_eq does.sends.symm) (w.collects_make m)
      (by rw [does.sends]; exact does.obeys ih.callers)
  | time _ forward ih => exact ⟨ih.gatherings, ih.callers.later forward⟩
  | @look w _ ih =>
    have does := does_visitAll (r := (Session.Rule.before w.sends).regime) w
    exact ih.narrows (Nat.le_of_eq does.sends.symm) w.collects_visitAll
      (by rw [does.sends]; exact does.obeys ih.callers)
  | clear _ ih => exact ⟨ih.gatherings, ih.callers⟩

end Courier.Scenario.World
