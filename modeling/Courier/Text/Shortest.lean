/-!
# Shortest decimal of a binary64 number

The fewest digits that read back as the same number, and of those the nearest to it. A number is
given by its integer significand and its power of two; the text is positional for exponents from
-5 to 15 and scientific otherwise.
-/

set_option autoImplicit false

namespace Courier.Text.Shortest

/-- The leading bit of a significand, `2 ^ 52`, which the format leaves out of most numbers. -/
def leadingBit : Nat := 1 <<< 52

/-- The positive number `significand * 2 ^ exponent`, as the format stores it. -/
structure Dyadic where
  significand : Nat
  exponent : Int

/-- The positive decimal `digits * 10 ^ exponent`. -/
structure Decimal where
  digits : Nat
  exponent : Int

def ratio (n : Nat) (two ten : Int) : Nat × Nat :=
  (n * Nat.pow 2 two.toNat * Nat.pow 10 ten.toNat,
    Nat.pow 2 (-two).toNat * Nat.pow 10 (-ten).toNat)

def ratioLe (a b : Nat × Nat) : Bool := a.1 * b.2 ≤ b.1 * a.2

def ratioLt (a b : Nat × Nat) : Bool := a.1 * b.2 < b.1 * a.2

/-- The ends of the interval that rounds to `x`, in quarters of its last place. -/
def Dyadic.ends (x : Dyadic) : Nat × Nat :=
  let below := if x.significand == leadingBit && x.exponent != -1074 then 1 else 2
  (4 * x.significand - below, 4 * x.significand + 2)

/-- `n * 10 ^ ten` lies in the interval that rounds to `x`; the ends count for even significands. -/
def Dyadic.holds (x : Dyadic) (n : Nat) (ten : Int) : Bool :=
  let value := ratio n 0 ten
  let low := ratio x.ends.1 (x.exponent - 2) 0
  let high := ratio x.ends.2 (x.exponent - 2) 0
  if x.significand % 2 == 0 then ratioLe low value && ratioLe value high
  else ratioLt low value && ratioLt value high

/-- `n` or `n + 1` on the grid of step `10 ^ ten`, whichever is nearer to `x`; even on a tie. -/
def Dyadic.nearer (x : Dyadic) (n : Nat) (ten : Int) : Nat :=
  let twice := ratio (2 * x.significand) x.exponent (-ten)
  let middle := (2 * n + 1, 1)
  if ratioLt twice middle then n
  else if ratioLt middle twice then n + 1
  else if n % 2 == 0 then n else n + 1

/-- The decimal on the grid of step `10 ^ ten` that reads back as `x`. -/
def Dyadic.onGrid? (x : Dyadic) (ten : Int) : Option Decimal :=
  let scaled := ratio x.significand x.exponent (-ten)
  let n := scaled.1 / scaled.2
  match x.holds n ten && n != 0, x.holds (n + 1) ten with
  | true, true => some ⟨x.nearer n ten, ten⟩
  | true, false => some ⟨n, ten⟩
  | false, true => some ⟨n + 1, ten⟩
  | false, false => none

/-- The exponent of the first digit of `x`: `10 ^ e ≤ x < 10 ^ (e + 1)`. -/
def Dyadic.magnitude (x : Dyadic) : Int :=
  let r := ratio x.significand x.exponent 0
  if r.2 ≤ r.1 then (Nat.log2 (r.1 / r.2) : Int) * 1233 / 4096 |> fixUp r 4
  else -((Nat.log2 (r.2 / r.1) : Int) * 1233 / 4096) - 2 |> fixUp r 4
where
  fixUp (r : Nat × Nat) : Nat → Int → Int
    | 0, e => e
    | k + 1, e =>
      if ratioLe (ratio 1 0 (e + 1)) r then fixUp r k (e + 1) else e

/-- The first of the grids with one, two, … seventeen digits that has a decimal for `x`. -/
def Dyadic.shortest (x : Dyadic) : Decimal :=
  let top := x.magnitude
  ((List.range 17).findSome? fun (k : Nat) => x.onGrid? (top - (k : Int))).getD ⟨x.significand, 0⟩

def zeros (n : Nat) : String := String.ofList (List.replicate n '0')

def Decimal.text (d : Decimal) : String :=
  let ds := Nat.toDigits 10 d.digits
  let first : Int := d.exponent + ds.length - 1
  if 0 ≤ first ∧ first ≤ 15 then
    let whole := first.toNat + 1
    if ds.length ≤ whole then String.ofList ds ++ zeros (whole - ds.length) ++ ".0"
    else String.ofList (ds.take whole) ++ "." ++ String.ofList (ds.drop whole)
  else if -5 ≤ first ∧ first < 0 then
    "0." ++ zeros ((-first).toNat - 1) ++ String.ofList ds
  else
    let fraction := if ds.length ≤ 1 then "" else "." ++ String.ofList (ds.drop 1)
    let sign := if first < 0 then "-" else "+"
    String.ofList (ds.take 1) ++ fraction ++ "e" ++ sign ++ toString first.natAbs

def Decimal.trimmed : Nat → Decimal → Decimal
  | 0, d => d
  | fuel + 1, d =>
    if 10 ∣ d.digits ∧ d.digits ≠ 0 then trimmed fuel ⟨d.digits / 10, d.exponent + 1⟩ else d

def text (x : Float) : String :=
  let bits : Nat := x.toBits.toNat
  let sign := if bits >>> 63 == 1 then "-" else ""
  let stored : Nat := (bits / leadingBit) % 2048
  let fraction : Nat := bits % leadingBit
  if stored == 0 && fraction == 0 then sign ++ "0.0"
  else
    let value : Dyadic :=
      if stored == 0 then ⟨fraction, -1074⟩ else ⟨leadingBit + fraction, (stored : Int) - 1075⟩
    sign ++ (Decimal.trimmed 20 value.shortest).text

end Courier.Text.Shortest
