import Courier.Json.Record
import Courier.Json.Value

set_option autoImplicit false

namespace Courier

structure Header where
  env : String
  idc : String
  ip : String
  pid : String
  sys : String
  username : String
  language : String
  protocolType : String
  protocolVersion : String
  protocolDesc : String
  correlationId : Option String
  topic : Option String
  deriving DecidableEq, Repr

def Header.default : Header := ⟨"", "", "", "", "", "", "", "", "", "", none, none⟩

def Header.correlated (id : String) : Header := { Header.default with correlationId := some id }

structure Status where
  code : String
  text : String
  deriving DecidableEq, Repr

def Status.success : Status := ⟨"0", "success"⟩
def Status.overload : Status := ⟨"1", "eventMesh overload, try later"⟩
def Status.invalidRequest : Status := ⟨"2", "requestCode can't be null, or must be number"⟩
def Status.sendFailed : Status := ⟨"14", "send async msg err"⟩
def Status.subscribeFailed : Status := ⟨"17", "subscribe err"⟩
def Status.heartbeatFailed : Status := ⟨"19", "heartbeat err"⟩
def Status.runtimeFailed : Status := ⟨"28", "eventMesh runtime err"⟩

def Status.withDetail (s : Status) (detail : String) : Status :=
  { s with text := s.text ++ ": " ++ detail }

def Status.isSuccess (s : Status) : Bool := s.code == Status.success.code

structure Message where
  header : Header
  status : Status
  deriving DecidableEq, Repr

def Header.record : Json.Record Header where
  name := "RequestHeader"
  fields := [
    ⟨"env", fun d h => d.text.map ({ h with env := · })⟩,
    ⟨"idc", fun d h => d.text.map ({ h with idc := · })⟩,
    ⟨"ip", fun d h => d.text.map ({ h with ip := · })⟩,
    ⟨"pid", fun d h => d.text.map ({ h with pid := · })⟩,
    ⟨"sys", fun d h => d.text.map ({ h with sys := · })⟩,
    ⟨"username", fun d h => d.text.map ({ h with username := · })⟩,
    ⟨"language", fun d h => d.text.map ({ h with language := · })⟩,
    ⟨"protocolType", fun d h => d.text.map ({ h with protocolType := · })⟩,
    ⟨"protocolVersion", fun d h => d.text.map ({ h with protocolVersion := · })⟩,
    ⟨"protocolDesc", fun d h => d.text.map ({ h with protocolDesc := · })⟩,
    ⟨"correlationId", fun d h => d.optionalText.map ({ h with correlationId := · })⟩,
    ⟨"topic", fun d h => d.optionalText.map ({ h with topic := · })⟩]
  required := false
  start := .default

def Header.decode (s : String) : Except Json.Error Header := Json.decode Header.record.read s

def optionalMember (name : String) : Option String → List (String × Json.Value)
  | some s => [(name, .text s)]
  | none => []

def Header.value (h : Header) : Json.Value :=
  .object ([
    ("env", .text h.env),
    ("idc", .text h.idc),
    ("ip", .text h.ip),
    ("pid", .text h.pid),
    ("sys", .text h.sys),
    ("username", .text h.username),
    ("language", .text h.language),
    ("protocolType", .text h.protocolType),
    ("protocolVersion", .text h.protocolVersion),
    ("protocolDesc", .text h.protocolDesc)] ++
    optionalMember "correlationId" h.correlationId ++ optionalMember "topic" h.topic)

def Status.record : Json.Record Status where
  name := "StatusCode"
  fields := [
    ⟨"retCode", fun d s => d.text.map ({ s with code := · })⟩,
    ⟨"errMsg", fun d s => d.text.map ({ s with text := · })⟩]
  required := true
  start := ⟨"", ""⟩

def Status.decode (s : String) : Except Json.Error Status := Json.decode Status.record.read s

def Status.value (s : Status) : Json.Value :=
  .object [("retCode", .text s.code), ("errMsg", .text s.text)]

def Message.value (m : Message) : Json.Value :=
  .object [("header", m.header.value), ("status", m.status.value)]

def Message.encode (m : Message) : String := m.value.render

def Message.record : Json.Record Message where
  name := "Message"
  fields := [
    ⟨"header", fun d m => (Header.record.read d).map ({ m with header := · })⟩,
    ⟨"status", fun d m => (Status.record.read d).map ({ m with status := · })⟩]
  required := true
  start := ⟨.default, Status.record.start⟩

def Message.decode (s : String) : Except Json.Error Message := Json.decode Message.record.read s

end Courier
