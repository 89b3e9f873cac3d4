import Courier.Json.Record
import Courier.Json.Value

set_option autoImplicit false

namespace Courier

/-- Ids are compared by their bytes, which is the order of their characters. -/
structure SessionId where
  text : String
  deriving DecidableEq, Repr

def SessionId.le (a b : SessionId) : Bool := a.text ≤ b.text

def SessionId.decode (s : String) : Except Json.Error SessionId :=
  (Json.decode Json.Doc.text s).map SessionId.mk

def SessionId.value (id : SessionId) : Json.Value := .text id.text

inductive Purpose
  | publish
  | subscribe
  deriving DecidableEq, Repr

structure Client where
  subsystem : String
  group : String
  purpose : Purpose
  host : String
  pid : Nat
  deriving DecidableEq, Repr

def Client.default : Client := ⟨"", "", .subscribe, "", 0⟩

def Client.plain (subsystem group : String) (purpose : Purpose) : Client :=
  { Client.default with subsystem, group, purpose }

def Purpose.names : List (String × Purpose) := [("pub", .publish), ("sub", .subscribe)]

def Purpose.name : Purpose → String
  | .publish => "pub"
  | .subscribe => "sub"

def Purpose.title : Purpose → String
  | .publish => "Pub"
  | .subscribe => "Sub"

def Client.display (c : Client) : String :=
  c.subsystem ++ "/" ++ c.group ++ "(" ++ c.purpose.title ++ ")@" ++ c.host ++ ":" ++ toString c.pid

def Client.record : Json.Record Client where
  name := "ClientInfo"
  fields := [
    ⟨"subsystem", fun d c => d.text.map ({ c with subsystem := · })⟩,
    ⟨"group", fun d c => d.text.map ({ c with group := · })⟩,
    ⟨"purpose", fun d c => (d.variant Purpose.names).map ({ c with purpose := · })⟩,
    ⟨"host", fun d c => d.text.map ({ c with host := · })⟩,
    ⟨"pid", fun d c => (d.natural 32 "u32").map ({ c with pid := · })⟩]
  required := false
  start := .default

def Client.decode (s : String) : Except Json.Error Client := Json.decode Client.record.read s

def Client.value (c : Client) : Json.Value :=
  .object [
    ("subsystem", .text c.subsystem),
    ("group", .text c.group),
    ("purpose", .text c.purpose.name),
    ("host", .text c.host),
    ("pid", .natural c.pid)]

end Courier
