import Mathlib.Algebra.Group.Nat.Defs
import Courier.Json.Value
import Courier.Proofs.Text.Digits

/-!
# JSON texts

The texts that are JSON, as trees that keep everything a text can choose: white space, the spelling
of strings and numbers, and the order of members. `Tree.chars` is the text of a tree. What a tree
says is apart from its text: a string says the characters whose code units its pieces stand for, and
strings with unpaired surrogates say nothing.
-/

set_option autoImplicit false

namespace Courier.Json

open Text (HexDigit)

inductive Space
  | blank
  | tab
  | lineFeed
  | carriageReturn

def Space.char : Space → Char
  | .blank => ' '
  | .tab => '\t'
  | .lineFeed => '\n'
  | .carriageReturn => '\r'

def spaces (gap : List Space) : List Char := gap.map Space.char

structure Padded (α : Type) where
  before : List Space
  inner : α
  after : List Space

def shorthands : List (Char × Char) :=
  [('"', '"'), ('\\', '\\'), ('/', '/'), ('b', '\x08'), ('f', '\x0c'), ('n', '\n'), ('r', '\r'),
    ('t', '\t')]

inductive Piece
  | plain (c : Char) (visible : 0x20 ≤ c.toNat) (noQuote : c ≠ '"') (noBackslash : c ≠ '\\')
  | short (letter meaning : Char) (known : (letter, meaning) ∈ shorthands)
  | unit (a b c d : HexDigit)

def Piece.chars : Piece → List Char
  | .plain c _ _ _ => [c]
  | .short letter _ _ => ['\\', letter]
  | .unit a b c d => ['\\', 'u', a.char, b.char, c.char, d.char]

abbrev Token := List Piece

def tokenChars (t : Token) : List Char := '"' :: (t.flatMap Piece.chars ++ ['"'])

/-- The code units of a character, which has a pair of surrogates if one unit cannot hold it. -/
def units (c : Char) : List Nat :=
  if c.toNat < 0x10000 then [c.toNat]
  else [0xD800 + (c.toNat - 0x10000) / 0x400, 0xDC00 + (c.toNat - 0x10000) % 0x400]

def Piece.units : Piece → List Nat
  | .plain c _ _ _ => Json.units c
  | .short _ meaning _ => Json.units meaning
  | .unit a b c d => [HexDigit.number [a, b, c, d]]

def Spells (t : Token) (s : String) : Prop := t.flatMap Piece.units = s.toList.flatMap units

instance (t : Token) (s : String) : Decidable (Spells t s) :=
  inferInstanceAs (Decidable (t.flatMap Piece.units = s.toList.flatMap units))

structure Digits where
  chars : List Char
  nonempty : chars ≠ []
  digits : ∀ c ∈ chars, c.isDigit = true

structure Exponent where
  upper : Bool
  minus : Option Bool
  size : Digits

def Exponent.signed (e : Exponent) : List Char :=
  (match e.minus with
    | none => []
    | some false => ['+']
    | some true => ['-']) ++ e.size.chars

def exponentChars : Option Exponent → List Char
  | none => []
  | some e => (if e.upper then 'E' else 'e') :: e.signed

def fractionChars : Option Digits → List Char
  | none => []
  | some ds => '.' :: ds.chars

/-- The digits before the point have no needless zeros in front. -/
structure Numeral where
  negative : Bool
  whole : Nat
  fraction : Option Digits
  exponent : Option Exponent

def Numeral.natural (n : Nat) : Numeral := ⟨false, n, none, none⟩

def Numeral.unsigned (n : Numeral) : List Char :=
  Nat.toDigits 10 n.whole ++ (fractionChars n.fraction ++ exponentChars n.exponent)

def Numeral.chars (n : Numeral) : List Char :=
  if n.negative then '-' :: n.unsigned else n.unsigned

inductive Tree
  | null
  | bool (b : Bool)
  | number (n : Numeral)
  | text (t : Token)
  | array (items : List (Padded Tree)) (close : List Space)
  | object (members : List (Padded Token × Padded Tree)) (close : List Space)

mutual

def Tree.chars : Tree → List Char
  | .null => ['n', 'u', 'l', 'l']
  | .bool true => ['t', 'r', 'u', 'e']
  | .bool false => ['f', 'a', 'l', 's', 'e']
  | .number n => n.chars
  | .text t => tokenChars t
  | .array items close => '[' :: (Tree.itemChars true items ++ (spaces close ++ [']']))
  | .object members close =>
    '\x7b' :: (Tree.memberChars true members ++ (spaces close ++ ['\x7d']))

def Tree.itemChars (first : Bool) : List (Padded Tree) → List Char
  | [] => []
  | ⟨before, t, after⟩ :: items =>
    (if first then [] else [',']) ++
      (spaces before ++ (t.chars ++ (spaces after ++ Tree.itemChars false items)))

def Tree.memberChars (first : Bool) : List (Padded Token × Padded Tree) → List Char
  | [] => []
  | (⟨before, key, after⟩, ⟨before', t, after'⟩) :: members =>
    (if first then [] else [',']) ++
      (spaces before ++ (tokenChars key ++ (spaces after ++ ':' ::
        (spaces before' ++ (t.chars ++ (spaces after' ++ Tree.memberChars false members))))))

end

/-- What a tree says, as far as some field may want it: a number that is written as a natural one
and is below `2 ^ 64`, and of the objects the one of a single name with nothing to it. -/
inductive Tree.Says : Tree → Value → Prop
  | null : Says .null .null
  | text {t : Token} {s : String} (spells : Spells t s) : Says (.text t) (.text s)
  | natural {n : Nat} (fits : n < 2 ^ 64) : Says (.number (.natural n)) (.natural n)
  | single {before after before' after' close : List Space} {t : Token} {s : String}
      (spells : Spells t s) :
      Says (.object [(⟨before, t, after⟩, ⟨before', .null, after'⟩)] close) (.object [(s, .null)])

end Courier.Json
