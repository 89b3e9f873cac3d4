import Mathlib.Data.Fintype.Basic
import Courier.Json.Reader
import Courier.Net.Address

set_option autoImplicit false

namespace Courier.Text

structure HexDigit where
  value : Fin 16
  upper : Bool
  deriving DecidableEq

namespace HexDigit

def char (d : HexDigit) : Char :=
  if d.upper then (Nat.digitChar d.value).toUpper else Nat.digitChar d.value

/-- The number of some digits, the first of which counts most. -/
def number (ds : List HexDigit) : Nat := ds.foldl (fun n d => n * 16 + d.value) 0

theorem hexValue?_char (d : HexDigit) : Json.hexValue? d.char = some d.value.val := by
  have each : ∀ (v : Fin 16) (u : Bool), Json.hexValue? (char ⟨v, u⟩) = some v.val := by decide
  exact each d.value d.upper

theorem hexQuad?_chars (a b c d : HexDigit) :
    Json.hexQuad? a.char b.char c.char d.char = some (number [a, b, c, d]) := by
  simp [Json.hexQuad?, hexValue?_char, number]

theorem digitOf?_char (d : HexDigit) : Net.digitOf? 16 d.char = some d.value.val := by
  have each : ∀ (v : Fin 16) (u : Bool), Net.digitOf? 16 (char ⟨v, u⟩) = some v.val := by decide
  exact each d.value d.upper

theorem of_digitOf? {c : Char} {n : Nat} (digit : Net.digitOf? 16 c = some n) :
    ∃ d : HexDigit, d.char = c ∧ d.value = n := by
  have each : ∀ k < 128, ∀ m < 16, Net.digitOf? 16 (Char.ofNat k) = some m →
      ∃ (v : Fin 16) (u : Bool), char ⟨v, u⟩ = Char.ofNat k ∧ v = m := by decide +kernel
  have bounds := digit
  simp only [Net.digitOf?, Option.ite_none_right_eq_some, Option.some.injEq] at bounds
  obtain ⟨below, value⟩ := bounds
  have small : n < 16 := value ▸ below
  have ascii : c.toNat < 128 := by
    split_ifs at below with decimal lower upper
    · exact Nat.lt_of_le_of_lt decimal.2 (by decide)
    · exact Nat.lt_of_le_of_lt lower.2 (by decide)
    · exact Nat.lt_of_le_of_lt upper.2 (by decide)
    · exact absurd below (Nat.lt_irrefl 16)
  rw [← Char.ofNat_toNat c] at digit ⊢
  obtain ⟨v, u, char, value⟩ := each c.toNat ascii n small digit
  exact ⟨⟨v, u⟩, char, value⟩

end HexDigit

end Courier.Text
