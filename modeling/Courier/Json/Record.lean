import Courier.Json.Error
import Courier.Json.Reader

/-!
# Reading documents into fields

A record is a list of named fields in declared order. It is read from an object, whose members may
come in any order and among members it does not know, or from an array of the fields' values in
declared order. The first problem in the order of the text decides.
-/

set_option autoImplicit false

namespace Courier.Json

def Doc.unexpected (expected : String) : Doc → Error
  | .cut f _ => .fault f
  | .null => .mismatch (.invalidType .null expected)
  | .bool b => .mismatch (.invalidType (.bool b) expected)
  | .number (.natural n) => .mismatch (.invalidType (.natural n) expected)
  | .number (.negative n) => .mismatch (.invalidType (.negative n) expected)
  | .number (.float x) => .mismatch (.invalidType (.float x) expected)
  | .number .outOfRange => .fault .malformed
  | .literal (.text s) => .mismatch (.invalidType (.text s) expected)
  | .literal .unpaired => .fault .malformed
  | .array _ _ => .mismatch (.invalidType .sequence expected)
  | .object _ _ => .mismatch (.invalidType .map expected)
  | .unnamed _ => .mismatch (.invalidType .map expected)

def Doc.text : Doc → Except Error String
  | .literal (.text s) => .ok s
  | d => .error (d.unexpected "a string")

def Doc.optionalText : Doc → Except Error (Option String)
  | .null => .ok none
  | d => d.text.map some

/-- A natural number of at most the given bits; `expected` names them. -/
def Doc.natural (bits : Nat) (expected : String) : Doc → Except Error Nat
  | .number (.natural n) =>
    if n < Nat.pow 2 bits then .ok n
    else .error (.mismatch (.invalidValue (.natural n) expected))
  | .number (.negative n) => .error (.mismatch (.invalidValue (.negative n) expected))
  | d => .error (d.unexpected expected)

def variantNamed {α : Type} (known : List (String × α)) (name : String) : Except Error α :=
  match known.lookup name with
  | some a => .ok a
  | none => .error (.mismatch (.unknownVariant name (known.map (·.1))))

/-- A variant is its name, or an object with the name as its only key and null as its value. -/
def Doc.variant {α : Type} (known : List (String × α)) : Doc → Except Error α
  | .cut f _ => .error (.fault f)
  | .literal (.text name) => variantNamed known name
  | .unnamed key => .error (key.unexpected "variant identifier")
  | .object [] (.cut f) => .error (.fault f)
  | .object ((.text name, value) :: more) ending => do
    let a ← variantNamed known name
    match value, more, ending with
    | .null, [], .closed => return a
    | .null, [], .cut f => throw (.fault f)
    | .null, _, _ => throw (.fault .malformed)
    | d, _, _ => throw (d.unexpected "unit")
  | _ => .error (.fault .malformed)

structure Field (σ : Type) where
  name : String
  read : Doc → σ → Except Error σ

/-- `required`: every field has to be there. Otherwise the fields left out stay as in `start`. -/
structure Record (σ : Type) where
  name : String
  fields : List (Field σ)
  required : Bool
  start : σ

def Record.expected {σ : Type} (r : Record σ) : String := "struct " ++ r.name

def Record.field? {σ : Type} (r : Record σ) (name : String) : Option (Field σ) :=
  r.fields.find? (·.name == name)

def Record.readMember {σ : Type} (r : Record σ) (seen : List String) (so : σ) :
    Literal × Doc → Except Error (List String × σ)
  | (.unpaired, _) => .error (.fault .malformed)
  | (.text name, value) =>
    match r.field? name with
    | some f =>
      if seen.contains name then .error (.mismatch (.duplicateField name))
      else (f.read value so).map fun so => (name :: seen, so)
    | none =>
      match value.skipFault? with
      | some fault => .error (.fault fault)
      | none => .ok (seen, so)

def Record.readMembers {σ : Type} (r : Record σ) :
    List (Literal × Doc) → List String → σ → Except Error (List String × σ)
  | [], seen, so => .ok (seen, so)
  | m :: ms, seen, so =>
    match r.readMember seen so m with
    | .error e => .error e
    | .ok (seen, so) => r.readMembers ms seen so

def Record.missing? {σ : Type} (r : Record σ) (seen : List String) : Option String :=
  if r.required then (r.fields.map (·.name)).find? (!seen.contains ·) else none

def Record.readElements {σ : Type} (r : Record σ) (n : Nat) :
    List (Field σ) → List Doc → Ending → σ → Except Error σ
  | [], [], .closed, so => .ok so
  | [], [], .cut f, _ => .error (.fault f)
  | [], _, _, _ => .error (.fault .malformed)
  | f :: fs, d :: ds, ending, so =>
    match f.read d so with
    | .error e => .error e
    | .ok so => r.readElements (n + 1) fs ds ending so
  | _ :: _, [], ending, so =>
    match ending.fault? with
    | some fault => .error (.fault fault)
    | none =>
      if r.required then
        .error (.mismatch (.invalidLength n
          (r.expected ++ " with " ++ toString r.fields.length ++ " elements")))
      else .ok so

def Record.read {σ : Type} (r : Record σ) : Doc → Except Error σ
  | .array elements ending => r.readElements 0 r.fields elements ending r.start
  | .object members ending =>
    match r.readMembers members [] r.start with
    | .error e => .error e
    | .ok (seen, so) =>
      match ending.fault?, r.missing? seen with
      | some fault, _ => .error (.fault fault)
      | none, some name => .error (.mismatch (.missingField name))
      | none, none => .ok so
  | .unnamed _ => .error (.fault .malformed)
  | d => .error (d.unexpected r.expected)

/-- Reads a text that holds one document and nothing else but white space. -/
def decode {α : Type} (read : Doc → Except Error α) (s : String) : Except Error α :=
  match Doc.read s.toList with
  | (d, rest) =>
    match read d with
    | .error e => .error e
    | .ok a =>
      match rest with
      | some cs => if (skipSpaces cs).isEmpty then .ok a else .error (.fault .malformed)
      | none => .error (.fault .malformed)

end Courier.Json
