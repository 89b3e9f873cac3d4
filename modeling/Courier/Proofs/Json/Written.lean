import Mathlib.Data.Nat.Basic
import Courier.Json.Record
import Courier.Json.Value

set_option autoImplicit false

namespace Courier.Json

def textChars (s : String) : List Char := '"' :: (s.toList.flatMap escape ++ ['"'])

mutual

def Value.chars : Value → List Char
  | .null => ['n', 'u', 'l', 'l']
  | .natural n => Nat.toDigits 10 n
  | .text s => textChars s
  | .object [] => ['\x7b', '\x7d']
  | .object ((key, v) :: ms) =>
    '\x7b' :: (textChars key ++ ':' :: (v.chars ++ (Value.moreChars ms ++ ['\x7d'])))

def Value.moreChars : List (String × Value) → List Char
  | [] => []
  | (key, v) :: ms => ',' :: (textChars key ++ ':' :: (v.chars ++ Value.moreChars ms))

end

theorem toList_pushAll (cs : List Char) (out : String) :
    (cs.foldl String.push out).toList = out.toList ++ cs := by
  induction cs generalizing out with
  | nil => simp
  | cons c cs ih => simp [ih]

theorem toList_writeText (out s : String) :
    (writeText out s).toList = out.toList ++ textChars s := by
  have chars (cs : List Char) (out : String) :
      (cs.foldl (fun out c => (escape c).foldl String.push out) out).toList =
        out.toList ++ cs.flatMap escape := by
    induction cs generalizing out with
    | nil => simp
    | cons c cs ih => simp [ih, toList_pushAll]
  rw [writeText, String.foldl_eq_foldl_toList, String.toList_push, chars, String.toList_push,
    textChars]
  simp

mutual

theorem Value.toList_write (out : String) : (v : Value) →
    (v.write out).toList = out.toList ++ v.chars
  | .null => by simp [Value.write, Value.chars]
  | .natural n => by
    rw [Value.write, Value.chars, Nat.toString_eq_ofList_toDigits, String.toList_append,
      String.toList_ofList]
  | .text s => by rw [Value.write, Value.chars, toList_writeText]
  | .object [] => by simp [Value.write, Value.chars]
  | .object ((key, v) :: ms) => by
    rw [Value.write, Value.chars, String.toList_push, Value.toList_writeMore, v.toList_write,
      String.toList_push, toList_writeText, String.toList_push]
    simp

theorem Value.toList_writeMore (out : String) : (ms : List (String × Value)) →
    (Value.writeMore out ms).toList = out.toList ++ Value.moreChars ms
  | [] => by simp [Value.writeMore, Value.moreChars]
  | (key, v) :: ms => by
    rw [Value.writeMore, Value.moreChars, Value.toList_writeMore, v.toList_write,
      String.toList_push, toList_writeText, String.toList_push]
    simp

end

theorem Value.toList_render (v : Value) : v.render.toList = v.chars := by
  simp [Value.render, Value.toList_write]

theorem readString_unicodeEscape {c : Char} (control : c.toNat < 0x20) (sofar rest : List Char) :
    readString (.chars sofar) (unicodeEscape c ++ rest) = readString (.chars (c :: sofar)) rest := by
  have each : ∀ n < 0x20,
      unicodeEscape (Char.ofNat n) =
        ['\\', 'u', '0', '0', Nat.digitChar (n / 16), Nat.digitChar (n % 16)] ∧
      hexQuad? '0' '0' (Nat.digitChar (n / 16)) (Nat.digitChar (n % 16)) = some n := by decide
  obtain ⟨shape, value⟩ := each c.toNat control
  rw [Char.ofNat_toNat] at shape
  have whole : isTrailing c.toNat = false ∧ isLeading c.toNat = false := by
    simp only [isTrailing, isLeading, Bool.and_eq_false_iff, decide_eq_false_iff_not]
    omega
  simp [shape, readString, value, Partial.unit, whole]

theorem readString_plain {c : Char} (quote : c ≠ '"') (backslash : c ≠ '\\')
    (control : ¬ c.toNat < 0x20) (p : Partial) (rest : List Char) :
    readString p (c :: rest) = readString (p.push c) rest := by
  rw [readString.eq_def]
  split
  case h_7 c _ _ _ same =>
    obtain ⟨rfl, rfl⟩ := List.cons.inj same
    rw [if_neg control]
  all_goals simp_all

theorem readString_escape (c : Char) (sofar rest : List Char) :
    readString (.chars sofar) (escape c ++ rest) = readString (.chars (c :: sofar)) rest := by
  unfold escape
  split
  case h_8 c quote backslash _ _ _ _ _ =>
    split
    · exact readString_unicodeEscape ‹_› sofar rest
    · exact readString_plain quote backslash ‹_› (.chars sofar) rest
  all_goals simp [readString, escapedChar?, Partial.push]

theorem readString_text (cs : List Char) (sofar rest : List Char) :
    readString (.chars sofar) (cs.flatMap escape ++ '"' :: rest) =
      (.literal (.text (String.ofList (sofar.reverse ++ cs))), some rest) := by
  induction cs generalizing sofar with
  | nil => simp [readString, Partial.literal]
  | cons c cs ih =>
    rw [List.flatMap_cons, List.append_assoc, readString_escape, ih]
    simp

theorem readString_whole (s : String) (rest : List Char) :
    readString (.chars []) (s.toList.flatMap escape ++ '"' :: rest) =
      (.literal (.text s), some rest) := by
  rw [readString_text, List.reverse_nil, List.nil_append, String.ofList_toList]

/-- A number ends here: the characters do not go on with it. -/
def EndsNumber (rest : List Char) : Prop :=
  ∀ c ∈ rest.head?, isDigit c = false ∧ c ≠ '.' ∧ c ≠ 'e' ∧ c ≠ 'E'

theorem EndsNumber.digits {rest : List Char} (ends : EndsNumber rest) :
    ∀ c ∈ rest.head?, isDigit c = false :=
  fun c first => (ends c first).1

theorem isDigit_of_mem_toDigits {n : Nat} {c : Char} (there : c ∈ Nat.toDigits 10 n) :
    isDigit c = true :=
  Nat.isDigit_of_mem_toDigits (by decide) (by decide) there

theorem toDigits_cons (n : Nat) : ∃ c cs, Nat.toDigits 10 n = c :: cs ∧ isDigit c = true := by
  obtain ⟨c, cs, shape⟩ := List.exists_cons_of_ne_nil (Nat.toDigits_ne_nil : Nat.toDigits 10 n ≠ [])
  exact ⟨c, cs, shape, isDigit_of_mem_toDigits (n := n) (by rw [shape]; exact List.mem_cons_self)⟩

theorem toDigits_head {n : Nat} (positive : 0 < n) : (Nat.toDigits 10 n).head? ≠ some '0' := by
  induction n using Nat.strongRecOn with
  | _ n ih =>
    rw [Nat.toDigits_eq_if (by decide)]
    split
    case isTrue small =>
      have each : ∀ d < 10, 0 < d → [Nat.digitChar d].head? ≠ some '0' := by decide
      exact each n small positive
    case isFalse large =>
      have first := ih (n / 10) (by omega) (by omega)
      obtain ⟨d, ds, shape, -⟩ := toDigits_cons (n / 10)
      rw [shape] at first ⊢
      exact first

theorem le_ofDigitChars (cs : List Char) (n : Nat) : n ≤ Nat.ofDigitChars 10 cs n := by
  induction cs generalizing n with
  | nil => exact Nat.le_refl n
  | cons c cs ih =>
    rw [Nat.ofDigitChars_cons]
    have := ih (10 * n + (c.toNat - '0'.toNat))
    omega

theorem takeIn_eq {cs : List Char} {n : Nat} (fits : Nat.ofDigitChars 10 cs n < UInt64.size) :
    takeIn n cs = (Nat.ofDigitChars 10 cs n, []) := by
  induction cs generalizing n with
  | nil => rfl
  | cons c cs ih =>
    rw [Nat.ofDigitChars_cons] at fits ⊢
    have next : n * 10 + digitValue c = 10 * n + (c.toNat - '0'.toNat) := by
      rw [digitValue, Nat.mul_comm]
    have below := le_ofDigitChars cs (10 * n + (c.toNat - '0'.toNat))
    rw [takeIn, next, if_pos (by omega)]
    exact ih fits

theorem digits_apart {ds rest : List Char} (digits : ∀ c ∈ ds, isDigit c = true)
    (ends : ∀ c ∈ rest.head?, isDigit c = false) :
    (ds ++ rest).takeWhile isDigit = ds ∧ (ds ++ rest).dropWhile isDigit = rest := by
  have none : rest.takeWhile isDigit = [] ∧ rest.dropWhile isDigit = rest := by
    cases rest with
    | nil => exact ⟨rfl, rfl⟩
    | cons c rest => simp [ends c rfl]
  rw [List.takeWhile_append_of_pos digits, List.dropWhile_append_of_pos digits, none.1, none.2,
    List.append_nil]
  exact ⟨rfl, rfl⟩

theorem toDigits_ne_zeros {n : Nat} {c : Char} {cs : List Char} :
    Nat.toDigits 10 n ≠ '0' :: c :: cs := by
  intro shape
  have zero : n = 0 := by
    by_contra positive
    exact toDigits_head (Nat.pos_of_ne_zero positive) (by rw [shape]; rfl)
  subst zero
  simp at shape

theorem readNumber_toDigits {n : Nat} (fits : n < UInt64.size) {rest : List Char}
    (ends : EndsNumber rest) :
    readNumber false (Nat.toDigits 10 n ++ rest) = (.number (.natural n), some rest) := by
  obtain ⟨apart, left⟩ := digits_apart (fun _ => isDigit_of_mem_toDigits) ends.digits
  have taken : takeIn 0 (Nat.toDigits 10 n) = (n, []) := by
    rw [takeIn_eq (by rw [Nat.ofDigitChars_ten_toDigits]; exact fits),
      Nat.ofDigitChars_ten_toDigits]
  rw [readNumber, apart, left]
  simp only
  split
  case h_1 empty => exact absurd empty Nat.toDigits_ne_nil
  case h_2 shape => exact absurd shape toDigits_ne_zeros
  case h_3 =>
    rw [taken]
    cases rest with
    | nil => simp [Number.whole]
    | cons c rest =>
      obtain ⟨-, dot, e, upper⟩ := ends c rfl
      simp only
      split <;> simp_all [Number.whole]

mutual

def Value.doc : Value → Doc
  | .null => .null
  | .natural n => .number (.natural n)
  | .text s => .literal (.text s)
  | .object ms => .object (Value.docs ms) .closed

def Value.docs : List (String × Value) → List (Literal × Doc)
  | [] => []
  | (key, v) :: ms => (.text key, v.doc) :: Value.docs ms

end

mutual

/-- The numbers are ones that are read whole; a larger one would become a float. -/
def Value.Fits : Value → Prop
  | .natural n => n < UInt64.size
  | .object ms => Value.AllFit ms
  | _ => True

def Value.AllFit : List (String × Value) → Prop
  | [] => True
  | (_, v) :: ms => v.Fits ∧ Value.AllFit ms

end

theorem skipSpaces_cons {c : Char} (dark : isSpace c = false) (cs : List Char) :
    skipSpaces (c :: cs) = c :: cs := by
  rw [skipSpaces, List.dropWhile_cons_of_neg (by simp [dark])]

theorem isSpace_of_isDigit {c : Char} (digit : isDigit c = true) : isSpace c = false := by
  by_contra space
  simp only [isSpace, Bool.not_eq_false, Bool.or_eq_true, beq_iff_eq] at space
  rcases space with ((rfl | rfl) | rfl) | rfl <;> exact absurd digit (by decide)

theorem readValue_digit {c : Char} (digit : isDigit c = true) (fuel : Nat) (rest : List Char) :
    readValue (fuel + 1) (c :: rest) = readNumber false (c :: rest) := by
  rw [readValue, skipSpaces_cons (isSpace_of_isDigit digit)]
  split
  case h_9 c _ _ _ _ _ _ _ _ same =>
    obtain ⟨rfl, rfl⟩ := List.cons.inj same
    rw [if_pos digit]
  all_goals
    first
      | exact absurd ‹c :: rest = []› (List.cons_ne_nil c rest)
      | (rename_i same; obtain ⟨rfl, -⟩ := List.cons.inj same; exact absurd digit (by decide))

theorem readMember_textChars {fuel : Nat} (key : String) {cs tail : List Char}
    {rest : Option (List Char)} {d : Doc} {ms : List (Literal × Doc)} {ending : Ending}
    (value : readValue fuel cs = (d, some tail))
    (more : readMembers fuel false tail = (ms, ending, rest)) :
    readMember (fuel + 1) (textChars key ++ ':' :: cs) = ((.text key, d) :: ms, ending, rest) := by
  simp only [textChars, List.cons_append, List.append_assoc, List.nil_append, readMember,
    readString_whole, skipSpaces_cons (by decide : isSpace ':' = false), value, more]

theorem skipSpaces_textChars (key : String) (cs : List Char) :
    skipSpaces (textChars key ++ cs) = textChars key ++ cs :=
  skipSpaces_cons (by decide) _

theorem readValue_textChars (s : String) (fuel : Nat) (rest : List Char) :
    readValue (fuel + 1) (textChars s ++ rest) = (.literal (.text s), some rest) := by
  simp only [textChars, List.cons_append, List.append_assoc, List.nil_append, readValue,
    skipSpaces_cons (by decide : isSpace '"' = false), readString_whole]

theorem readValue_opened {fuel : Nat} {key : String} {cs : List Char} {rest : Option (List Char)}
    {ms : List (Literal × Doc)} {ending : Ending}
    (member : readMember fuel (textChars key ++ cs) = (ms, ending, rest)) :
    readValue (fuel + 2) ('\x7b' :: (textChars key ++ cs)) = (.object ms ending, rest) := by
  have starts : startsKey (textChars key ++ cs) = true := by
    rw [startsKey, skipSpaces_textChars]
    rfl
  have members : readMembers (fuel + 1) true (textChars key ++ cs) = (ms, ending, rest) := by
    rw [readMembers, skipSpaces_textChars]
    exact member
  rw [readValue, skipSpaces_cons (by decide)]
  simp only [starts, if_true, members]

theorem readMembers_comma {fuel : Nat} {key : String} {cs : List Char} {rest : Option (List Char)}
    {m : Literal × Doc} {ms : List (Literal × Doc)} {ending : Ending}
    (member : readMember fuel (textChars key ++ cs) = (m :: ms, ending, rest)) :
    readMembers (fuel + 1) false (',' :: (textChars key ++ cs)) = (m :: ms, ending, rest) := by
  rw [readMembers, skipSpaces_cons (by decide)]
  simp [skipSpaces_textChars, member]

theorem endsNumber_moreChars (ms : List (String × Value)) (rest : List Char) :
    EndsNumber (Value.moreChars ms ++ '\x7d' :: rest) := by
  intro c first
  cases ms with
  | nil =>
    obtain rfl : '\x7d' = c := by simpa [Value.moreChars] using first
    decide
  | cons m ms =>
    obtain rfl : ',' = c := by simpa [Value.moreChars] using first
    decide

mutual

/-- A written value is read back, and what follows it is left. The fuel is enough when it is no less
than the characters of the value: a member takes three steps and has five characters around its
value. -/
theorem readValue_chars {fuel : Nat} {rest : List Char} : (v : Value) → v.Fits → EndsNumber rest →
    v.chars.length ≤ fuel → readValue fuel (v.chars ++ rest) = (v.doc, some rest)
  | .null, _, _, enough => by
    obtain ⟨fuel, rfl⟩ := Nat.exists_eq_add_of_le' (Nat.lt_of_lt_of_le (by decide : 0 < 4) enough)
    rfl
  | .natural n, fits, ends, enough => by
    obtain ⟨fuel, rfl⟩ := Nat.exists_eq_add_of_le' (Nat.le_trans Nat.length_toDigits_pos enough)
    have number := readNumber_toDigits fits ends
    obtain ⟨d, ds, shape, digit⟩ := toDigits_cons n
    rw [Value.chars, Value.doc]
    calc readValue (fuel + 1) (Nat.toDigits 10 n ++ rest)
      _ = readNumber false (d :: (ds ++ rest)) := by rw [shape, List.cons_append, readValue_digit digit]
      _ = readNumber false (Nat.toDigits 10 n ++ rest) := by rw [shape, List.cons_append]
      _ = _ := number
  | .text s, _, _, enough => by
    obtain ⟨fuel, rfl⟩ := Nat.exists_eq_add_of_le' (Nat.le_trans (Nat.le_add_left 1 _) enough)
    exact readValue_textChars s fuel rest
  | .object [], _, _, enough => by
    obtain ⟨fuel, rfl⟩ := Nat.exists_eq_add_of_le' (enough : 2 ≤ fuel)
    rfl
  | .object ((key, v) :: ms), fits, _, enough => by
    simp only [Value.chars, textChars, List.length_cons, List.length_append] at enough
    obtain ⟨fuel, rfl⟩ := Nat.exists_eq_add_of_le' (by omega : 3 ≤ fuel)
    have value : readValue fuel (v.chars ++ (Value.moreChars ms ++ '\x7d' :: rest)) =
        (v.doc, some (Value.moreChars ms ++ '\x7d' :: rest)) :=
      readValue_chars v fits.1 (endsNumber_moreChars ms rest) (by omega)
    have more : readMembers fuel false (Value.moreChars ms ++ '\x7d' :: rest) =
        (Value.docs ms, .closed, some rest) := readMembers_moreChars ms fits.2 (by omega)
    have members := readValue_opened (readMember_textChars key value more)
    rw [Value.chars, Value.doc, Value.docs]
    simpa using members

theorem readMembers_moreChars {fuel : Nat} {rest : List Char} : (ms : List (String × Value)) →
    Value.AllFit ms → (Value.moreChars ms).length < fuel →
    readMembers fuel false (Value.moreChars ms ++ '\x7d' :: rest) =
      (Value.docs ms, .closed, some rest)
  | [], _, enough => by
    obtain ⟨fuel, rfl⟩ := Nat.exists_eq_add_of_le' enough
    rfl
  | (key, v) :: ms, fits, enough => by
    simp only [Value.moreChars, textChars, List.length_cons, List.length_append] at enough
    obtain ⟨fuel, rfl⟩ := Nat.exists_eq_add_of_le' (by omega : 2 ≤ fuel)
    have value : readValue fuel (v.chars ++ (Value.moreChars ms ++ '\x7d' :: rest)) =
        (v.doc, some (Value.moreChars ms ++ '\x7d' :: rest)) :=
      readValue_chars v fits.1 (endsNumber_moreChars ms rest) (by omega)
    have more : readMembers fuel false (Value.moreChars ms ++ '\x7d' :: rest) =
        (Value.docs ms, .closed, some rest) := readMembers_moreChars ms fits.2 (by omega)
    have members := readMembers_comma (readMember_textChars key value more)
    rw [Value.moreChars, Value.docs]
    simpa using members

end

theorem Value.read_render {v : Value} (fits : v.Fits) :
    Doc.read v.render.toList = (v.doc, some []) := by
  have read : readValue (4 * v.chars.length + 4) (v.chars ++ []) = (v.doc, some []) :=
    readValue_chars v fits (fun _ none => by cases none) (by omega)
  rwa [List.append_nil, ← toList_render] at read

theorem Value.decode_render {α : Type} {v : Value} (fits : v.Fits) (read : Doc → Except Error α) :
    decode read v.render = read v.doc := by
  simp only [decode, Value.read_render fits]
  cases read v.doc with
  | error e => rfl
  | ok a => rfl

end Courier.Json
