import Courier.Json.Doc

set_option autoImplicit false

namespace Courier.Json

def isSpace (c : Char) : Bool := c == ' ' || c == '\n' || c == '\t' || c == '\r'

def skipSpaces (cs : List Char) : List Char := cs.dropWhile isSpace

def isDigit (c : Char) : Bool := '0' ≤ c && c ≤ '9'

def digitValue (c : Char) : Nat := c.toNat - '0'.toNat

def hexValue? (c : Char) : Option Nat :=
  if '0' ≤ c ∧ c ≤ '9' then some (c.toNat - '0'.toNat)
  else if 'a' ≤ c ∧ c ≤ 'f' then some (c.toNat - 'a'.toNat + 10)
  else if 'A' ≤ c ∧ c ≤ 'F' then some (c.toNat - 'A'.toNat + 10)
  else none

def hexQuad? (a b c d : Char) : Option Nat := do
  let a ← hexValue? a
  let b ← hexValue? b
  let c ← hexValue? c
  let d ← hexValue? d
  return ((a * 16 + b) * 16 + c) * 16 + d

def isLeading (n : Nat) : Bool := 0xD800 ≤ n && n ≤ 0xDBFF

def isTrailing (n : Nat) : Bool := 0xDC00 ≤ n && n ≤ 0xDFFF

def joinSurrogates (high low : Nat) : Char :=
  Char.ofNat (0x10000 + (high - 0xD800) * 0x400 + (low - 0xDC00))

def escapedChar? : Char → Option Char
  | '"' => some '"'
  | '\\' => some '\\'
  | '/' => some '/'
  | 'b' => some '\x08'
  | 'f' => some '\x0c'
  | 'n' => some '\n'
  | 'r' => some '\r'
  | 't' => some '\t'
  | _ => none

/-- What stands after `\u` is too short to hold four digits: the count is of bytes. -/
def quadFault (cs : List Char) : Fault :=
  if cs.foldl (fun bytes c => bytes + c.utf8Size) 0 < 4 then .truncated else .malformed

inductive Partial
  | chars (sofar : List Char)
  | lead (sofar : List Char) (high : Nat)
  | unpaired

def Partial.push : Partial → Char → Partial
  | .chars sofar, c => .chars (c :: sofar)
  | _, _ => .unpaired

def Partial.unit : Partial → Nat → Partial
  | .chars sofar, n =>
    if isTrailing n then .unpaired
    else if isLeading n then .lead sofar n
    else .chars (Char.ofNat n :: sofar)
  | .lead sofar high, n =>
    if isTrailing n then .chars (joinSurrogates high n :: sofar) else .unpaired
  | .unpaired, _ => .unpaired

/-- An unpaired surrogate is the first fault of a wanted string. -/
def Partial.cut (p : Partial) (f : Fault) : Doc × Option (List Char) :=
  match p with
  | .unpaired => (.cut .malformed f, none)
  | _ => (.cut f f, none)

def Partial.literal : Partial → Literal
  | .chars sofar => .text (String.ofList sofar.reverse)
  | _ => .unpaired

def readString : Partial → List Char → Doc × Option (List Char)
  | p, [] => p.cut .truncated
  | p, '"' :: rest => (.literal p.literal, some rest)
  | p, '\\' :: 'u' :: a :: b :: c :: d :: rest =>
    match hexQuad? a b c d with
    | some n => readString (p.unit n) rest
    | none => p.cut (quadFault (a :: b :: c :: d :: rest))
  | p, '\\' :: 'u' :: short => p.cut (quadFault short)
  | p, ['\\'] => p.cut .truncated
  | p, '\\' :: c :: rest =>
    match escapedChar? c with
    | some e => readString (p.push e) rest
    | none => p.cut .malformed
  | p, c :: rest => if c.toNat < 0x20 then p.cut .malformed else readString (p.push c) rest

/-- Takes digits into a significand while it stays below 2^64; the digits left are returned. -/
def takeIn (significand : Nat) : List Char → Nat × List Char
  | [] => (significand, [])
  | c :: rest =>
    let next := significand * 10 + digitValue c
    if next < UInt64.size then takeIn next rest else (significand, c :: rest)

/-- `significand * 10 ^ exponent` by one multiplication or division, after steps of `10 ^ 308` for
small numbers; `none` when it is infinite. -/
def scale (x : Float) (exponent : Int) : Nat → Option Float
  | 0 => some x
  | fuel + 1 =>
    if exponent.natAbs ≤ 308 then
      let power := Float.ofScientific 1 false exponent.natAbs
      if 0 ≤ exponent then
        if (x * power).isInf then none else some (x * power)
      else some (x / power)
    else if x == 0 then some x
    else if 0 ≤ exponent then none
    else scale (x / Float.ofScientific 1 false 308) (exponent + 308) fuel

def Number.scaled (negative : Bool) (significand : Nat) (exponent : Int) : Number :=
  match scale (Float.ofNat significand) exponent 8 with
  | none => .outOfRange
  | some x => .float (if negative then -x else x)

def Number.whole (negative : Bool) (significand : Nat) : Number :=
  if !negative then .natural significand
  else if significand == 0 || UInt64.size < 2 * significand then .float (-(Float.ofNat significand))
  else .negative significand

/-- A number that misses digits: at the end of the text only a wanted number is truncated. -/
def missingDigits (rest : List Char) : Doc × Option (List Char) :=
  (.cut (if rest.isEmpty then .truncated else .malformed) .malformed, none)

def readExponent (negative : Bool) (significand : Nat) (exponent : Int) (cs : List Char) :
    Doc × Option (List Char) :=
  let (minus, cs) := match cs with
    | '+' :: rest => (false, rest)
    | '-' :: rest => (true, rest)
    | _ => (false, cs)
  let digits := cs.takeWhile isDigit
  let rest := cs.dropWhile isDigit
  if digits.isEmpty then missingDigits rest
  else
    let size := digits.foldl (fun n c => n * 10 + digitValue c) 0
    let number : Number :=
      if size ≤ 2147483647 then
        .scaled negative significand (if minus then exponent - size else exponent + size)
      else if significand != 0 && !minus then .outOfRange
      else .float (if negative then -0.0 else 0.0)
    (.number number, some rest)

def readFraction (negative : Bool) (significand : Nat) (exponent : Int) (cs : List Char) :
    Doc × Option (List Char) :=
  let digits := cs.takeWhile isDigit
  let rest := cs.dropWhile isDigit
  if digits.isEmpty then missingDigits rest
  else
    let (significand, left) := takeIn significand digits
    let exponent := exponent - (digits.length - left.length : Nat)
    match rest with
    | 'e' :: rest => readExponent negative significand exponent rest
    | 'E' :: rest => readExponent negative significand exponent rest
    | _ => (.number (.scaled negative significand exponent), some rest)

def readNumber (negative : Bool) (cs : List Char) : Doc × Option (List Char) :=
  let digits := cs.takeWhile isDigit
  let rest := cs.dropWhile isDigit
  match digits with
  | [] => missingDigits rest
  | '0' :: _ :: _ => (.cut .malformed .malformed, none)
  | _ =>
    let (significand, left) := takeIn 0 digits
    match rest with
    | '.' :: rest => readFraction negative significand left.length rest
    | 'e' :: rest => readExponent negative significand left.length rest
    | 'E' :: rest => readExponent negative significand left.length rest
    | _ =>
      if left.isEmpty then (.number (.whole negative significand), some rest)
      else (.number (.scaled negative significand left.length), some rest)

def readWord (value : Doc) : List Char → List Char → Doc × Option (List Char)
  | [], rest => (value, some rest)
  | _ :: _, [] => (.cut .truncated .truncated, none)
  | w :: word, c :: rest =>
    if w == c then readWord value word rest else (.cut .malformed .malformed, none)

def startsKey (cs : List Char) : Bool :=
  match skipSpaces cs with
  | [] => true
  | c :: _ => c == '"' || c == '\x7d'

mutual

/-- Reads one value; the fuel bounds the number of tokens. -/
def readValue : Nat → List Char → Doc × Option (List Char)
  | 0, _ => (.cut .truncated .truncated, none)
  | fuel + 1, cs =>
    match skipSpaces cs with
    | [] => (.cut .truncated .truncated, none)
    | '"' :: rest => readString (.chars []) rest
    | '[' :: rest =>
      let (elements, ending, rest) := readElements fuel true rest
      (.array elements ending, rest)
    | '{' :: rest =>
      if startsKey rest then
        let (members, ending, rest) := readMembers fuel true rest
        (.object members ending, rest)
      else (.unnamed (readValue fuel rest).1, none)
    | 'n' :: rest => readWord .null ['u', 'l', 'l'] rest
    | 't' :: rest => readWord (.bool true) ['r', 'u', 'e'] rest
    | 'f' :: rest => readWord (.bool false) ['a', 'l', 's', 'e'] rest
    | '-' :: rest => readNumber true rest
    | c :: rest =>
      if isDigit c then readNumber false (c :: rest) else (.cut .malformed .malformed, none)

def readElements : Nat → Bool → List Char → List Doc × Ending × Option (List Char)
  | 0, _, _ => ([], .cut .truncated, none)
  | fuel + 1, first, cs =>
    match skipSpaces cs with
    | [] => ([], .cut .truncated, none)
    | ']' :: rest => ([], .closed, some rest)
    | c :: rest =>
      if first then readElement fuel (c :: rest)
      else if c == ',' then
        match skipSpaces rest with
        | [] => ([], .comma .truncated, none)
        | ']' :: _ => ([], .comma .malformed, none)
        | rest => readElement fuel rest
      else ([], .cut .malformed, none)

def readElement : Nat → List Char → List Doc × Ending × Option (List Char)
  | 0, _ => ([], .cut .truncated, none)
  | fuel + 1, cs =>
    match readValue fuel cs with
    | (d, none) => ([d], .cut .malformed, none)
    | (d, some rest) =>
      let (ds, ending, rest) := readElements fuel false rest
      (d :: ds, ending, rest)

def readMembers : Nat → Bool → List Char → List (Literal × Doc) × Ending × Option (List Char)
  | 0, _, _ => ([], .cut .truncated, none)
  | fuel + 1, first, cs =>
    match skipSpaces cs with
    | [] => ([], .cut .truncated, none)
    | '\x7d' :: rest => ([], .closed, some rest)
    | c :: rest =>
      if first then readMember fuel (c :: rest)
      else if c == ',' then
        match readMember fuel (skipSpaces rest) with
        | ([], ending, rest) => ([], ending.afterComma, rest)
        | read => read
      else ([], .cut .malformed, none)

def readMember : Nat → List Char → List (Literal × Doc) × Ending × Option (List Char)
  | 0, _ => ([], .cut .truncated, none)
  | fuel + 1, cs =>
    match cs with
    | [] => ([], .cut .truncated, none)
    | '"' :: rest =>
      match readString (.chars []) rest with
      | (.literal key, some rest) =>
        match skipSpaces rest with
        | [] => ([(key, .cut .truncated .truncated)], .cut .malformed, none)
        | ':' :: rest =>
          match readValue fuel rest with
          | (d, none) => ([(key, d)], .cut .malformed, none)
          | (d, some rest) =>
            let (ms, ending, rest) := readMembers fuel false rest
            ((key, d) :: ms, ending, rest)
        | _ => ([(key, .cut .malformed .malformed)], .cut .malformed, none)
      | (.cut wanted skipped, _) =>
        if wanted = skipped then ([], .cut wanted, none)
        else ([(.unpaired, .cut wanted skipped)], .cut .malformed, none)
      | _ => ([], .cut .malformed, none)
    | _ => ([], .cut .malformed, none)

end

def Doc.read (cs : List Char) : Doc × Option (List Char) := readValue (4 * cs.length + 4) cs

end Courier.Json
