import Courier.Proofs.Hub.Rules
import Courier.Proofs.Scenario.Deeds

set_option autoImplicit false

namespace Courier

def Session.admission : Session.Rule where
  holds _ now cancelled s := ∃ c since discarded ledger,
    Ledger.Kept c since discarded now cancelled ledger ∧ ledger.session = s
  permits _ := True
  connections _ := trivial
  new := by
    rintro _ now cancelled s ⟨c, since, rfl | rfl⟩
    · exact ⟨c, since, false, _, .start now cancelled, rfl⟩
    · exact ⟨c, since, true, _, .start now cancelled, rfl⟩
  act := by
    rintro _ _ _ _ a ⟨c, since, discarded, ledger, kept, rfl⟩ timely _
    exact ⟨c, since, discarded, _, kept.record a timely, rfl⟩
  later := by
    rintro _ _ _ _ _ _ ⟨c, since, discarded, ledger, kept, same⟩ forward grown
    exact ⟨c, since, discarded, ledger, kept.passes forward grown, same⟩

namespace Scenario.World

variable {r : Session.Rule} {w w' : World}

def Obeys (r : Session.Rule) (w : World) : Prop := w.hub.Obeys r w.now w.cancelled

theorem Obeys.deeds (obeys : w.Obeys r) {told : Key → List Notice} {left : Key → List Caller}
    (deeds : Hub.Deeds r.regime w.scene told left w'.scene) : w'.Obeys r :=
  Hub.Obeys.deeds (x := w.scene) (y := w'.scene) obeys deeds

theorem Does.obeys (does : Does r.regime w w') (obeys : w.Obeys r) : w'.Obeys r := by
  obtain ⟨_, _, deeds, _⟩ := does.deeds
  exact obeys.deeds deeds

theorem Comes.obeys {n : Nat} {tag : String} (comes : Comes r.regime n tag w w')
    (obeys : w.Obeys r) : w'.Obeys r :=
  obeys.deeds comes.hush

theorem Leads.obeys (leads : Leads r.regime w w') (obeys : w.Obeys r) : w'.Obeys r := by
  obtain ⟨_, _, deeds, _⟩ := leads.deeds
  exact obeys.deeds deeds

theorem Obeys.update (obeys : w.Obeys r) (key : Key) {moved : Lane × List Notice}
    (lane : r.holds key w.now w.cancelled moved.1.session) : (w.update key moved).Obeys r := by
  have set : Obeys r { w with hub := w.hub.setLane key moved.1 } := Hub.Obeys.setLane obeys key lane
  exact (tells_deliverAll _ key moved.2).does.obeys set

theorem Obeys.giveUp (obeys : w.Obeys r) (c : Call) : (w.giveUp c).Obeys r := by
  obtain ⟨_, deeds, _⟩ := w.deeds_giveUp c
  exact obeys.deeds deeds

theorem Obeys.later (obeys : w.Obeys r) {now : Nat} (forward : w.now ≤ now) :
    Obeys r { w with now } :=
  Hub.Obeys.later obeys forward fun _ => id

theorem Obeys.begin (obeys : w.Obeys r) {s : Send} (permitted : r.permits (.sender w.sends)) :
    (w.begin s).Obeys r :=
  (comes_begin permitted s).obeys obeys

theorem Obeys.perform (obeys : w.Obeys r) {s : Step} (welcomes : w.Welcomes r.permits s.begun) :
    (w.perform s).1.Obeys r :=
  (leads_perform welcomes (fun _ => id) fun _ => trivial).obeys obeys

end Scenario.World

end Courier
