import Courier.Proofs.Scenario.Isolation
import Courier.Proofs.Scenario.Rules

set_option autoImplicit false

namespace Courier.Scenario

/-- Steps at which no client connects, and time does not jump over what is due on the way. -/
@[simp]
def Step.isSmooth : Step → Bool
  | .connect _ _ _ => false
  | .jump _ => false
  | _ => true

namespace World

variable {prompt : Prop} {config : Config} {u v w w' : World}

/-- The worlds that can come of a scenario, also while they settle. -/
inductive Reached (config : Config) : World → Prop
  | start : Reached config (.start config)
  | step {w : World} (before : Reached config w) (s : Step) : Reached config (w.perform s).1
  | move {w : World} (before : Reached config w) {m : Move} (next : w.next? = some m) :
      Reached config (w.make m)
  | time {w : World} (before : Reached config w) {now : Nat} (forward : w.now ≤ now) :
      Reached config { w with now }
  | look {w : World} (before : Reached config w) : Reached config w.visitAll.1
  | clear {w : World} (before : Reached config w) : Reached config { w with finished := [] }

theorem Reached.obeys {config : Config} {w : World} (reached : Reached config w) :
    w.Obeys Session.admission := by
  induction reached with
  | start =>
    intro key l there
    simp at there
  | step _ s ih => exact ih.perform fun _ _ _ => trivial
  | move _ next ih => exact (does_make next).obeys ih
  | time _ forward ih => exact ih.later forward
  | look _ ih => exact (does_visitAll _).obeys ih
  | clear _ ih => exact ih

theorem Reached.settleFor {config : Config} {w : World} (reached : Reached config w) (fuel : Nat) :
    Reached config (w.settleFor fuel) :=
  settleFor_keeps (R := fun w w' => Reached config w → Reached config w') (fun _ => id)
    (fun first second => second ∘ first) (fun next reached => reached.move next) fuel w reached

theorem Reached.runAll {config : Config} {w : World} (reached : Reached config w)
    (steps : List Step) : Reached config (w.runAll steps).1 := by
  rw [runAll_fst]
  exact steps.foldlRecOn (motive := Reached config) _ reached fun _ done s _ =>
    ((done.clear.step s).settleFor _).look

structure RestsUntil (w : World) (later : Nat) : Prop where
  settled : w.next? = none
  alarms : ∀ a ∈ w.alarms, later ≤ a.1.due

/-- What can become of a world, also while it settles. -/
inductive Becomes (prompt : Prop) (w : World) : World → Prop
  | refl : Becomes prompt w w
  | step {v : World} (before : Becomes prompt w v) (s : Step)
      (instant : prompt → s.elapses = false) : Becomes prompt w (v.perform s).1
  | move {v : World} (before : Becomes prompt w v) {m : Move} (next : v.next? = some m) :
      Becomes prompt w (v.make m)
  | time {v : World} (before : Becomes prompt w v) {now : Nat} (forward : v.now ≤ now)
      (rests : prompt → v.RestsUntil now) : Becomes prompt w { v with now }
  | look {v : World} (before : Becomes prompt w v) : Becomes prompt w v.visitAll.1
  | clear {v : World} (before : Becomes prompt w v) : Becomes prompt w { v with finished := [] }

theorem Becomes.reached (becomes : Becomes prompt w w') (reached : Reached config w) :
    Reached config w' := by
  induction becomes with
  | refl => exact reached
  | step _ s _ ih => exact ih.step s
  | move _ next ih => exact ih.move next
  | time _ forward _ ih => exact ih.time forward
  | look _ ih => exact ih.look
  | clear _ ih => exact ih.clear

theorem Reached.becomes (reached : Reached config w) :
    Becomes False (.start config) w := by
  induction reached with
  | start => exact .refl
  | step _ s ih => exact ih.step s False.elim
  | move _ next ih => exact ih.move next
  | time _ forward ih => exact ih.time forward False.elim
  | look _ ih => exact ih.look
  | clear _ ih => exact ih.clear

theorem still_of_settled (settled : w.next? = none) :
    w.LanesStill ∧ ∀ key ∈ w.keys, w.isLeft key = false := by
  unfold next? at settled
  simp only [Option.orElse_eq_none, Option.map_eq_none_iff] at settled
  refine ⟨lanesStill_of_find? settled.1, fun key inside => ?_⟩
  simpa using List.find?_eq_none.mp settled.2.2.2.1 key inside

theorem mem_alarms_of_lane {key : Key} {l : Lane} (there : w.hub.lane? key = some l) {a : Alarm}
    (alarm : l.alarm? = some a) : (a, .writer key) ∈ w.alarms := by
  have inside := (List.getElem?_eq_some_iff.mp there).1
  refine List.mem_append_left _ (List.mem_flatMap.mpr ⟨key, List.mem_range.mpr inside, ?_⟩)
  simp [laneAlarms, there, alarm]

theorem RestsUntil.lane {later : Nat} (rests : w.RestsUntil later) {key : Key} {l : Lane}
    (there : w.hub.lane? key = some l) : l.Rests w.now later :=
  ⟨(still_of_settled rests.settled).1 key l there, fun _ alarm =>
    rests.alarms _ (mem_alarms_of_lane there alarm)⟩

theorem Becomes.leads (becomes : Becomes prompt w w') : Leads (.free prompt) w w' := by
  induction becomes with
  | refl => exact .refl w
  | step _ s instant ih =>
    refine ih.trans (leads_perform (fun _ _ _ => trivial) (fun elapses prompt => ?_) fun _ => trivial)
    exact absurd elapses (by rw [instant prompt]; decide)
  | move _ next ih => exact ih.trans (does_make next).leads
  | time _ forward rests ih =>
    exact ih.trans (leads_later forward (fun _ there => there) fun prompt _ _ _ there =>
      (rests prompt).lane there)
  | look _ ih => exact ih.trans (does_visitAll _).leads
  | clear _ ih => exact ih.trans (Does.leads { Does.refl _ with })

theorem ordered_start (config : Config) : (start config).Ordered :=
  ⟨by simp, by simp⟩

theorem linked_start (config : Config) : (start config).Linked := by simp [Linked]

/-- What holds of fresh lanes and is kept by their runs holds of every lane. -/
theorem Becomes.keep (becomes : Becomes prompt (start config) w)
    {P : Lane.Scene → Prop} (fresh : ∀ s : Lane.Scene, s.lane.IsFresh → P s)
    (run : ∀ s told left t, Lane.Run (.free prompt) s told left t → P s → P t)
    {key : Key} {l : Lane} (there : w.hub.lane? key = some l) : P ⟨w.now, w.cancelled, l⟩ := by
  obtain ⟨_, _, deeds, _⟩ := becomes.leads.deeds
  refine deeds.keep (P := fun _ => P) (fun _ s new _ => fresh s new) (fun _ => run)
    (fun k m nothing => ?_) key l there
  simp [scene] at nothing

theorem Settles.becomes (settles : Settles w v) (before : Becomes prompt u w) :
    Becomes prompt u v := by
  induction settles with
  | still => exact before
  | move next _ ih => exact ih (before.move next)

theorem restsUntil_of_earliest {t : Nat} (settled : w.next? = none)
    (first : ∀ a, earliest? w.alarms = some a → t ≤ a.1.due) : w.RestsUntil t :=
  ⟨settled, fun _ there => by
    obtain ⟨a, earliest⟩ := exists_earliest? there
    exact Nat.le_trans (first a earliest) (earliest?_le earliest there)⟩

theorem Passes.becomes {target : Nat} (passes : Passes target w v) (sane : w.Sane)
    (settled : w.next? = none) (past : w.now ≤ target) (before : Becomes prompt u w) :
    Becomes prompt u v := by
  induction passes with
  | arrive none rest =>
    exact rest.becomes (before.time past fun _ =>
      restsUntil_of_earliest settled fun a first => Nat.le_of_lt (none a first))
  | @ring w _ _ a first due moves _ ih =>
    obtain ⟨none, now, sane'⟩ := moves.settled (sane_now sane _)
    have later := alarm_later settled (earliest?_mem first)
    refine ih sane' none (now ▸ due) (moves.becomes (before.time (Nat.le_of_lt later) fun _ =>
      restsUntil_of_earliest settled fun b same => ?_))
    obtain rfl := Option.some.inj (first.symm.trans same)
    exact Nat.le_refl _

/-- A world that comes of another one on a prompt course, and rests. -/
structure Smooth (u w : World) : Prop where
  becomes : Becomes True u w
  sane : w.Sane
  settled : w.next? = none

theorem Smooth.run (smooth : Smooth u w) {s : Step} (continuous : s.isSmooth = true) :
    Smooth u (w.run s).1 := by
  have apart : s.connects = false := by cases s <;> first | rfl | simp at continuous
  have sane : Sane { w with finished := [] } :=
    ⟨smooth.sane.alone, smooth.sane.named, smooth.sane.periodic⟩
  have settled := (next?_finished smooth.sane.alone []).trans smooth.settled
  have clear : Becomes True u { w with finished := [] } := smooth.becomes.clear
  have done : Becomes True u ({ w with finished := [] }.perform s).1 := by
    cases s with
    | advance ms =>
      exact (passes_advance sane settled ms).becomes sane settled (Nat.le_add_right ..) clear
    | jump ms => simp at continuous
    | _ => exact clear.step _ fun _ => rfl
  obtain ⟨sane', _⟩ := perform_sane sane settled apart
  have settles := settles_settle sane'
  obtain ⟨none, _, sane''⟩ := settles.settled sane'
  rw [run_fst w s sane''.alone]
  exact ⟨settles.becomes done, sane'', none⟩

theorem Smooth.runAll (smooth : Smooth u w) (steps : List Step)
    (continuous : ∀ s ∈ steps, s.isSmooth = true) : Smooth u (w.runAll steps).1 := by
  rw [runAll_fst]
  induction steps generalizing w with
  | nil => exact smooth
  | cons s steps ih =>
    exact ih (smooth.run (continuous s List.mem_cons_self)) fun s member =>
      continuous s (List.mem_cons_of_mem _ member)

theorem smooth_start (config : Config) : Smooth (start config) (start config) :=
  ⟨.refl, ⟨rfl, by simp, by simp⟩, rfl⟩

end World

end Courier.Scenario
