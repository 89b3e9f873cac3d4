import Courier.Hub

set_option autoImplicit false

namespace Courier

/-- A running loop: when it ticks next, and when that was settled. It ticks at once when it is
started and then after every period; a loop that ticks late puts off its next tick. -/
structure SweepLoop where
  due : Nat
  since : Nat
  deriving DecidableEq, Repr

structure Sweeper where
  maxIdle : Nat
  period : Nat
  stopped : Bool
  loops : List SweepLoop
  deriving DecidableEq, Repr

/-- A tick that comes so much later than it was due counts as missed, in milliseconds. -/
def tickTolerance : Nat := 5

namespace Sweeper

/-- A sweeper with `starts` loops; without a period between ticks there are none. -/
@[simp]
def start (maxIdle period starts now : Nat) : Sweeper :=
  ⟨maxIdle, period, false, if period = 0 then [] else List.replicate starts ⟨now, now⟩⟩

def ofConfig? (c : Config) (starts now : Nat) : Option Sweeper :=
  c.maxIdle?.map fun maxIdle => start maxIdle c.sweepPeriod starts now

def stop (s : Sweeper) : Sweeper := { s with stopped := true, loops := [] }

def nextTick (s : Sweeper) (l : SweepLoop) (now : Nat) : SweepLoop :=
  ⟨(if l.due + tickTolerance < now then now else l.due) + s.period, now⟩

def alarms (s : Sweeper) : List (Alarm × Nat) :=
  s.loops.mapIdx fun i l => (⟨l.due, l.since, 2⟩, i)

def effort (s : Sweeper) (now : Nat) : Nat :=
  total (s.loops.map fun l => if l.due ≤ now then min (now - l.due) tickTolerance + 1 else 0)

def ticked (s : Sweeper) (i now : Nat) : Sweeper :=
  { s with loops := s.loops.modify i fun l => s.nextTick l now }

end Sweeper

end Courier
