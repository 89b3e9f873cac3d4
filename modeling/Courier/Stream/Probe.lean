import Courier.Fault

set_option autoImplicit false

namespace Courier

inductive WriteEnd
  | done
  | failed (f : StreamFault)
  | crashed
  deriving DecidableEq, Repr

structure ProbeScript where
  hold : Bool
  /-- How long a write takes, read when it is not held any more. -/
  delay : Nat
  fault : Option (Nat × StreamFault)
  /-- The writer dies once so many are recorded. -/
  crashAfter : Option Nat
  closeDelay : Nat
  deriving DecidableEq, Repr

def ProbeScript.plain : ProbeScript := ⟨false, 0, none, none, 0⟩

/-- What a probe is doing. A step without a due time is over at once. -/
inductive ProbeStage
  | idle
  | held (payload : String)
  | passing (payload : String) (due : Option Nat)
  | releasing (due : Option Nat)
  deriving DecidableEq, Repr

structure Probe where
  script : ProbeScript
  stage : ProbeStage
  started : Nat
  recorded : List String
  closes : Nat
  deriving DecidableEq, Repr

namespace Probe

def start (script : ProbeScript) : Probe := ⟨script, .idle, 0, [], 0⟩

def after? (delay now : Nat) : Option Nat := if delay = 0 then none else some (now + delay)

def begin (p : Probe) (payload : String) : Probe :=
  { p with stage := .held payload, started := p.started + 1 }

def pass? (p : Probe) (now : Nat) : Option Probe :=
  match p.stage with
  | .held payload =>
    if p.script.hold then none
    else some { p with stage := .passing payload (after? p.script.delay now) }
  | _ => none

def finish (p : Probe) : WriteEnd × Probe :=
  match p.stage with
  | .passing payload _ =>
    let p := { p with stage := .idle }
    if p.script.crashAfter.any (· ≤ p.recorded.length) then (.crashed, p)
    else
      match p.script.fault with
      | some (n, f) =>
        if n ≤ p.recorded.length then (.failed f, p)
        else (.done, { p with recorded := p.recorded ++ [payload] })
      | none => (.done, { p with recorded := p.recorded ++ [payload] })
  | _ => (.done, p)

def abandon (p : Probe) : Probe := { p with stage := .idle }

def release (p : Probe) (now : Nat) : Probe :=
  { p with stage := .releasing (after? p.script.closeDelay now), closes := p.closes + 1 }

def isOver (p : Probe) : Bool :=
  match p.stage with
  | .passing _ none => true
  | .releasing none => true
  | _ => false

def due? (p : Probe) : Option Nat :=
  match p.stage with
  | .passing _ due => due
  | .releasing due => due
  | _ => none

end Probe

end Courier
