set_option autoImplicit false

namespace Courier.Yaml

inductive Node
  /-- A scalar without quotes; an empty place is an empty one. -/
  | plain (s : String)
  | quoted (s : String)
  | sequence (items : List Node)
  | mapping (entries : List (Node × Node))
  | tagged (tag : String) (n : Node)
  | anchored (name : String) (n : Node)
  | alias (name : String)

def Node.empty : Node := .plain ""

abbrev Anchors := List (String × Node)

mutual

/-- Puts in place of each alias what it repeats, if that comes before it. -/
def Node.resolve? (known : Anchors) : Node → Option (Node × Anchors)
  | .plain s => some (.plain s, known)
  | .quoted s => some (.quoted s, known)
  | .sequence items =>
    (resolveItems? known items).map fun (items, known) => (.sequence items, known)
  | .mapping entries =>
    (resolveEntries? known entries).map fun (entries, known) => (.mapping entries, known)
  | .tagged tag n => (n.resolve? known).map fun (n, known) => (.tagged tag n, known)
  | .anchored name n => (n.resolve? known).map fun (n, known) => (n, (name, n) :: known)
  | .alias name => (known.lookup name).map fun n => (n, known)

def resolveItems? (known : Anchors) : List Node → Option (List Node × Anchors)
  | [] => some ([], known)
  | n :: items => do
    let (n, known) ← n.resolve? known
    let (items, known) ← resolveItems? known items
    some (n :: items, known)

def resolveEntries? (known : Anchors) :
    List (Node × Node) → Option (List (Node × Node) × Anchors)
  | [] => some ([], known)
  | (key, value) :: entries => do
    let (key, known) ← key.resolve? known
    let (value, known) ← value.resolve? known
    let (entries, known) ← resolveEntries? known entries
    some ((key, value) :: entries, known)

end

def Node.bare : Node → Node
  | .tagged _ n => n
  | n => n

def Node.text? (n : Node) : Option String :=
  match n.bare with
  | .plain s => some s
  | .quoted s => some s
  | _ => none

def nullTexts : List String := ["", "~", "null", "Null", "NULL"]

def Node.isNull : Node → Bool
  | .plain s => nullTexts.contains s
  | _ => false

/-- The name of a variant: a text, or a tag of the document's own on nothing. -/
def Node.variant? (n : Node) : Option String :=
  match n with
  | .tagged tag value =>
    match tag.toList with
    | '!' :: name => if value.isNull then some (String.ofList name) else none
    | _ => value.text?
  | n => n.text?

def digitIn? (base : Nat) (c : Char) : Option Nat :=
  let value :=
    if '0' ≤ c ∧ c ≤ '9' then c.toNat - '0'.toNat
    else if 'a' ≤ c ∧ c ≤ 'f' then c.toNat - 'a'.toNat + 10
    else if 'A' ≤ c ∧ c ≤ 'F' then c.toNat - 'A'.toNat + 10
    else base
  if value < base then some value else none

def naturalIn? (base : Nat) (cs : List Char) : Option Nat :=
  if cs.isEmpty then none else (cs.mapM (digitIn? base)).map (·.foldl (· * base + ·) 0)

/-- An unquoted natural number: decimal without needless zeros in front, or after `0x`, `0o` or
`0b` in another base. -/
def naturalText? (s : String) : Option Nat :=
  let unsigned : List Char := match s.toList with
    | '+' :: rest => rest
    | cs => cs
  match unsigned with
  | '0' :: 'x' :: rest => naturalIn? 16 rest
  | '0' :: 'o' :: rest => naturalIn? 8 rest
  | '0' :: 'b' :: rest => naturalIn? 2 rest
  | '0' :: _ :: _ => none
  | cs => naturalIn? 10 cs

def Node.natural? (bits : Nat) (n : Node) : Option Nat :=
  match n.bare with
  | .plain s => (naturalText? s).filter (· < Nat.pow 2 bits)
  | _ => none

structure Field (σ : Type) where
  name : String
  read : Node → σ → Option σ

def readEntries {σ : Type} (fields : List (Field σ)) :
    List (Node × Node) → List String → σ → Option σ
  | [], _, so => some so
  | (key, value) :: entries, seen, so => do
    let name ← key.text?
    match fields.find? (·.name == name) with
    | none => readEntries fields entries seen so
    | some f =>
      if seen.contains name then none
      else readEntries fields entries (name :: seen) (← f.read value so)

def Node.fields? {σ : Type} (fields : List (Field σ)) (so : σ) (n : Node) : Option σ :=
  match n.bare with
  | .plain "" => some so
  | .mapping entries => readEntries fields entries [] so
  | _ => none

end Courier.Yaml
