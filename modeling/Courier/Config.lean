import Courier.Json.Record
import Courier.Json.Value

set_option autoImplicit false

namespace Courier

inductive Backpressure
  | block
  | failFast
  deriving DecidableEq, Repr

structure Config where
  queueCapacity : Nat
  backpressure : Backpressure
  /-- In milliseconds; a longer write fails. -/
  writeTimeout : Nat
  /-- In seconds; 0 disables idle sweeping. -/
  idleTimeout : Nat
  /-- In seconds. -/
  sweepInterval : Nat
  journalCapacity : Nat
  deriving DecidableEq, Repr

def Config.default : Config := ⟨64, .block, 5000, 120, 1, 100⟩

inductive ConfigError
  | noQueue
  | noWriteTimeout
  | noSweepInterval
  | noJournal
  deriving DecidableEq, Repr

def ConfigError.message : ConfigError → String
  | .noQueue => "Configuration error: queue_capacity must be >= 1 (mpsc::channel panics on 0)"
  | .noWriteTimeout => "Configuration error: write_timeout_ms must be >= 1"
  | .noSweepInterval =>
    "Configuration error: sweep_interval_secs must be >= 1 when idle sweeping is enabled"
  | .noJournal =>
    "Configuration error: event_channel_capacity must be >= 1 (broadcast::channel panics on 0)"

def Config.validate (c : Config) : Except ConfigError Unit :=
  if c.queueCapacity = 0 then .error .noQueue
  else if c.writeTimeout = 0 then .error .noWriteTimeout
  else if 0 < c.idleTimeout ∧ c.sweepInterval = 0 then .error .noSweepInterval
  else if c.journalCapacity = 0 then .error .noJournal
  else .ok ()

/-- How long a session may be silent, in milliseconds; nothing if sweeping is disabled. -/
def Config.maxIdle? (c : Config) : Option Nat :=
  if 0 < c.idleTimeout then some (c.idleTimeout * 1000) else none

def Config.sweepPeriod (c : Config) : Nat := c.sweepInterval * 1000

def Backpressure.names : List (String × Backpressure) :=
  [("block", .block), ("fail-fast", .failFast)]

def Backpressure.ofName? (s : String) : Option Backpressure := Backpressure.names.lookup s

def Backpressure.name : Backpressure → String
  | .block => "block"
  | .failFast => "fail-fast"

def Config.record : Json.Record Config where
  name := "EmitterConfig"
  fields := [
    ⟨"queue_capacity", fun d c => (d.natural 64 "usize").map ({ c with queueCapacity := · })⟩,
    ⟨"backpressure", fun d c => (d.variant Backpressure.names).map ({ c with backpressure := · })⟩,
    ⟨"write_timeout_ms", fun d c => (d.natural 64 "u64").map ({ c with writeTimeout := · })⟩,
    ⟨"idle_timeout_secs", fun d c => (d.natural 64 "u64").map ({ c with idleTimeout := · })⟩,
    ⟨"sweep_interval_secs", fun d c => (d.natural 64 "u64").map ({ c with sweepInterval := · })⟩,
    ⟨"event_channel_capacity", fun d c =>
      (d.natural 64 "usize").map ({ c with journalCapacity := · })⟩]
  required := false
  start := .default

def Config.decode (s : String) : Except Json.Error Config := Json.decode Config.record.read s

def Config.value (c : Config) : Json.Value :=
  .object [
    ("queue_capacity", .natural c.queueCapacity),
    ("backpressure", .text c.backpressure.name),
    ("write_timeout_ms", .natural c.writeTimeout),
    ("idle_timeout_secs", .natural c.idleTimeout),
    ("sweep_interval_secs", .natural c.sweepInterval),
    ("event_channel_capacity", .natural c.journalCapacity)]

def durationText (ms : Nat) : String :=
  let places := toString (ms % 1000 * 1000000)
  toString (ms / 1000) ++ "." ++ String.ofList (List.replicate (9 - places.length) '0') ++ places

end Courier
