import Courier.Proofs.Hub.Deeds

set_option autoImplicit false

namespace Courier

/-- A rule says something about the session of each lane, at a time when some tokens are cancelled,
and names the callers that may come. -/
structure Session.Rule where
  holds : Key → Nat → List String → Session → Prop
  permits : Caller → Prop
  connections : ∀ name, permits (.connection name)
  new : ∀ key now cancelled s, s.IsNew → holds key now cancelled s
  act : ∀ key now cancelled s a, holds key now cancelled s → a.Timely s now cancelled →
    (∀ c, a.sender? = some c → permits c) → holds key now cancelled (s.act a).1
  later : ∀ key now now' cancelled cancelled' s, holds key now cancelled s → now ≤ now' →
    (∀ token ∈ cancelled, token ∈ cancelled') → holds key now' cancelled' s

/-- The callers that the rule permits may come, and time may pass at will. -/
def Session.Rule.regime (r : Session.Rule) : Regime := ⟨r.permits, r.connections, False, True⟩

variable {r : Session.Rule} {key : Key}

theorem Lane.Run.obeys {x y : Scene} {told : List Notice} {left : List Caller}
    (run : Run r.regime x told left y) (obeys : r.holds key x.now x.cancelled x.lane.session) :
    r.holds key y.now y.cancelled y.lane.session := by
  induction run with
  | refl => exact obeys
  | @tail _ _ _ _ y _ _ step ih =>
    rcases step.session with ⟨same, _⟩ | ⟨a, acted, _, timely, allowed, now, cancelled⟩
    · rw [same]
      exact r.later key _ _ _ _ _ ih step.forward step.grown
    · have moved := r.act key y.now y.cancelled y.lane.session a ih timely allowed
      rwa [acted, ← now, ← cancelled] at moved

namespace Hub

def Obeys (r : Session.Rule) (now : Nat) (cancelled : List String) (h : Hub) : Prop :=
  ∀ key l, h.lane? key = some l → r.holds key now cancelled l.session

variable {h : Hub} {now : Nat} {cancelled : List String}

theorem Obeys.later (obeys : h.Obeys r now cancelled) {now' : Nat} {cancelled' : List String}
    (forward : now ≤ now') (grown : ∀ token ∈ cancelled, token ∈ cancelled') :
    h.Obeys r now' cancelled' :=
  fun key l there => r.later key now now' cancelled cancelled' l.session (obeys key l there) forward
    grown

theorem Obeys.setLane (obeys : h.Obeys r now cancelled) (key : Key) {l : Lane}
    (lane : r.holds key now cancelled l.session) : (h.setLane key l).Obeys r now cancelled := by
  intro k l' there
  rw [lane?, Hub.setLane, List.getElem?_set] at there
  split at there
  · rename_i same
    split at there
    · exact same ▸ Option.some.inj there ▸ lane
    · simp at there
  · exact obeys k l' there

theorem Obeys.deeds {x y : Scene} {told : Key → List Notice} {left : Key → List Caller}
    (obeys : x.hub.Obeys r x.now x.cancelled) (deeds : Deeds r.regime x told left y) :
    y.hub.Obeys r y.now y.cancelled :=
  deeds.keep (P := fun key s => r.holds key s.now s.cancelled s.lane.session)
    (fun key s fresh _ => r.new key s.now s.cancelled s.lane.session fresh.session)
    (fun _ _ _ _ _ run => run.obeys) obeys

end Hub

end Courier
