import Courier.Config
import Courier.Net.Address
import Courier.Yaml.Reader

set_option autoImplicit false

namespace Courier.Server

open Net (Address)

structure Settings where
  address : Address
  listenPort : Nat
  maxRequest : Nat
  sessions : Config

def Settings.default : Settings := ⟨.unspecified, 10000, 64 * 1024, .default⟩

inductive SettingsError
  | unreadable (file : String)
  | unparsable (file : String)
  | noRequest
  | invalid (e : ConfigError)

def SettingsError.message : SettingsError → String
  | .unreadable file => "Failed to read config file: " ++ file
  | .unparsable file => "Failed to parse config file: " ++ file
  | .noRequest => "max_request_len must be >= 1"
  | .invalid e => e.message

def sessionFields : List (Yaml.Field Config) := [
  ⟨"queue_capacity", fun n c => (n.natural? 64).map ({ c with queueCapacity := · })⟩,
  ⟨"backpressure", fun n c =>
    (n.variant?.bind Backpressure.ofName?).map ({ c with backpressure := · })⟩,
  ⟨"write_timeout_ms", fun n c => (n.natural? 64).map ({ c with writeTimeout := · })⟩,
  ⟨"idle_timeout_secs", fun n c => (n.natural? 64).map ({ c with idleTimeout := · })⟩,
  ⟨"sweep_interval_secs", fun n c => (n.natural? 64).map ({ c with sweepInterval := · })⟩,
  ⟨"event_channel_capacity", fun n c => (n.natural? 64).map ({ c with journalCapacity := · })⟩]

def fields : List (Yaml.Field Settings) := [
  ⟨"bind_address", fun n s => (n.text?.bind Address.ofText?).map ({ s with address := · })⟩,
  ⟨"bind_port", fun n s => (n.natural? 16).map ({ s with listenPort := · })⟩,
  ⟨"max_request_len", fun n s => (n.natural? 64).map ({ s with maxRequest := · })⟩,
  ⟨"emitter", fun n s =>
    (n.fields? sessionFields Config.default).map ({ s with sessions := · })⟩]

def Settings.ofFile? (text : String) : Option Settings :=
  (Yaml.Node.ofText? text).bind (Yaml.Node.fields? fields .default)

/-- A text that is a natural number below `2 ^ bits`: digits after at most one plus sign. -/
def unsigned? (bits : Nat) (s : String) : Option Nat :=
  let digits : List Char := match s.toList with
    | '+' :: rest => rest
    | cs => cs
  (Yaml.naturalIn? 10 digits).filter (· < Nat.pow 2 bits)

abbrev Environment := String → Option String

def Environment.value? {α : Type} (env : Environment) (name : String)
    (parse : String → Option α) : Option α :=
  (env name).bind parse

def Settings.override (s : Settings) (env : Environment) : Settings where
  address := (env.value? "EMITTER_BIND_ADDRESS" Address.ofText?).getD s.address
  listenPort := (env.value? "EMITTER_BIND_PORT" (unsigned? 16)).getD s.listenPort
  maxRequest := (env.value? "EMITTER_MAX_REQUEST_LEN" (unsigned? 64)).getD s.maxRequest
  sessions := { s.sessions with
    queueCapacity :=
      (env.value? "EMITTER_QUEUE_CAPACITY" (unsigned? 64)).getD s.sessions.queueCapacity
    writeTimeout :=
      (env.value? "EMITTER_WRITE_TIMEOUT_MS" (unsigned? 64)).getD s.sessions.writeTimeout
    idleTimeout :=
      (env.value? "EMITTER_IDLE_TIMEOUT_SECS" (unsigned? 64)).getD s.sessions.idleTimeout
    backpressure :=
      (env.value? "EMITTER_BACKPRESSURE" Backpressure.ofName?).getD s.sessions.backpressure }

def Settings.validate (s : Settings) : Except SettingsError Unit :=
  if s.maxRequest = 0 then .error .noRequest
  else
    match s.sessions.validate with
    | .error e => .error (.invalid e)
    | .ok () => .ok ()

structure File where
  name : String
  bytes : ByteArray

def File.settings (f : File) : Except SettingsError Settings :=
  match String.fromUTF8? f.bytes with
  | none => .error (.unreadable f.name)
  | some text =>
    match Settings.ofFile? text with
    | none => .error (.unparsable f.name)
    | some s => .ok s

def Settings.load (file : Option File) (env : Environment) : Except SettingsError Settings := do
  let base ← match file with
    | some f => f.settings
    | none => .ok .default
  let merged := base.override env
  merged.validate
  return merged

end Courier.Server
