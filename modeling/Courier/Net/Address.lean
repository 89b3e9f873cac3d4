import Courier.Text.Quoted

set_option autoImplicit false

namespace Courier.Net

inductive Address
  | v4 (a b c d : Nat)
  | v6 (groups : List Nat)
  deriving DecidableEq, Repr

def Address.unspecified : Address := .v4 0 0 0 0

def digitOf? (base : Nat) (c : Char) : Option Nat :=
  let value :=
    if '0' ≤ c ∧ c ≤ '9' then c.toNat - '0'.toNat
    else if 'a' ≤ c ∧ c ≤ 'z' then c.toNat - 'a'.toNat + 10
    else if 'A' ≤ c ∧ c ≤ 'Z' then c.toNat - 'A'.toNat + 10
    else base
  if value < base then some value else none

def takeDigits (base : Nat) : List Char → List Nat × List Char
  | [] => ([], [])
  | c :: rest =>
    match digitOf? base c with
    | some d => let (ds, left) := takeDigits base rest; (d :: ds, left)
    | none => ([], c :: rest)

def ofDigits (base : Nat) (ds : List Nat) : Nat := ds.foldl (fun n d => n * base + d) 0

/-- A decimal number below 256 of at most three digits, without needless zeros in front. -/
def readOctet (cs : List Char) : Option (Nat × List Char) :=
  match takeDigits 10 cs with
  | (ds, rest) =>
    if ds.isEmpty || 3 < ds.length || (ds.head? == some 0 && 1 < ds.length) then none
    else if ofDigits 10 ds < 256 then some (ofDigits 10 ds, rest) else none

def readGroup (cs : List Char) : Option (Nat × List Char) :=
  match takeDigits 16 cs with
  | (ds, rest) => if ds.isEmpty || 4 < ds.length then none else some (ofDigits 16 ds, rest)

def readChar (c : Char) : List Char → Option (List Char)
  | d :: rest => if c == d then some rest else none
  | [] => none

def readV4 (cs : List Char) : Option ((Nat × Nat × Nat × Nat) × List Char) := do
  let (a, cs) ← readOctet cs
  let (b, cs) ← readChar '.' cs >>= readOctet
  let (c, cs) ← readChar '.' cs >>= readOctet
  let (d, cs) ← readChar '.' cs >>= readOctet
  return ((a, b, c, d), cs)

/-- Reads up to `left` groups between colons. The last two may be written as four octets, which is
said beside the groups. -/
def readGroups : Nat → Bool → List Char → List Nat × Bool × List Char
  | 0, _, cs => ([], false, cs)
  | left + 1, first, cs =>
    match if first then some cs else readChar ':' cs with
    | none => ([], false, cs)
    | some inner =>
      match if 0 < left then readV4 inner else none with
      | some ((a, b, c, d), rest) => ([a * 256 + b, c * 256 + d], true, rest)
      | none =>
        match readGroup inner with
        | some (g, rest) =>
          let (gs, octets, rest) := readGroups left false rest
          (g :: gs, octets, rest)
        | none => ([], false, cs)

def readV6 (cs : List Char) : Option (List Nat × List Char) :=
  let (head, octets, rest) := readGroups 8 true cs
  if head.length == 8 then some (head, rest)
  else if octets then none
  else do
    let rest ← readChar ':' rest >>= readChar ':'
    let (tail, _, rest) := readGroups (7 - head.length) true rest
    return (head ++ List.replicate (8 - head.length - tail.length) 0 ++ tail, rest)

def Address.ofChars? (cs : List Char) : Option Address :=
  match readV4 cs with
  | some ((a, b, c, d), []) => some (.v4 a b c d)
  | some _ => none
  | none =>
    match readV6 cs with
    | some (groups, []) => some (.v6 groups)
    | _ => none

def Address.ofText? (s : String) : Option Address := Address.ofChars? s.toList

/-- The address of a peer that is given with a number behind a colon; one with groups stands in
brackets. -/
def Address.ofPeer? (s : String) : Option Address :=
  match s.toList with
  | '[' :: rest => Address.ofChars? (rest.takeWhile fun c => c != ']' && c != '%')
  | cs => Address.ofChars? (cs.takeWhile (· != ':'))

def octetsText (a b c d : Nat) : String :=
  toString a ++ "." ++ toString b ++ "." ++ toString c ++ "." ++ toString d

def groupsText (groups : List Nat) : String :=
  String.intercalate ":" (groups.map Text.hexDigits)

def leadingZeros (groups : List Nat) : Nat := (groups.takeWhile (· == 0)).length

def longestZeros (groups : List Nat) : Nat × Nat :=
  (List.range groups.length).foldl (fun best start =>
    let size := leadingZeros (groups.drop start)
    if best.2 < size then (start, size) else best) (0, 0)

def Address.text : Address → String
  | .v4 a b c d => octetsText a b c d
  | .v6 [0, 0, 0, 0, 0, 0xffff, g, h] =>
    "::ffff:" ++ octetsText (g / 256) (g % 256) (h / 256) (h % 256)
  | .v6 groups =>
    let (start, size) := longestZeros groups
    if 1 < size then
      groupsText (groups.take start) ++ "::" ++ groupsText (groups.drop (start + size))
    else groupsText groups

end Courier.Net
