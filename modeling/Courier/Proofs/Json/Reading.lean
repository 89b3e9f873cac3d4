import Courier.Proofs.Json.Grammar
import Courier.Proofs.Json.Written

set_option autoImplicit false

namespace Courier.Json

open Text (HexDigit)

@[simp]
theorem skipSpaces_spaces (gap : List Space) (cs : List Char) :
    skipSpaces (spaces gap ++ cs) = skipSpaces cs := by
  induction gap with
  | nil => rfl
  | cons space gap ih =>
    have light : isSpace space.char = true := by cases space <;> rfl
    change (space.char :: (spaces gap ++ cs)).dropWhile isSpace = _
    rw [List.dropWhile_cons_of_pos light]
    exact ih

theorem readValue_spaces (fuel : Nat) (gap : List Space) (cs : List Char) :
    readValue fuel (spaces gap ++ cs) = readValue fuel cs := by
  cases fuel with
  | zero => rfl
  | succ fuel => rw [readValue, readValue, skipSpaces_spaces]

theorem readElements_spaces (fuel : Nat) (first : Bool) (gap : List Space) (cs : List Char) :
    readElements fuel first (spaces gap ++ cs) = readElements fuel first cs := by
  cases fuel with
  | zero => rfl
  | succ fuel => rw [readElements, readElements, skipSpaces_spaces]

theorem readMembers_spaces (fuel : Nat) (first : Bool) (gap : List Space) (cs : List Char) :
    readMembers fuel first (spaces gap ++ cs) = readMembers fuel first cs := by
  cases fuel with
  | zero => rfl
  | succ fuel => rw [readMembers, readMembers, skipSpaces_spaces]

def Partial.take (p : Partial) : Piece → Partial
  | .plain c _ _ _ => p.push c
  | .short _ meaning _ => p.push meaning
  | .unit a b c d => p.unit (HexDigit.number [a, b, c, d])

theorem readString_piece (p : Partial) (x : Piece) (rest : List Char) :
    readString p (x.chars ++ rest) = readString (p.take x) rest := by
  cases x with
  | plain c visible noQuote noBackslash =>
    exact readString_plain noQuote noBackslash (Nat.not_lt.mpr visible) p rest
  | short letter meaning known =>
    simp only [shorthands, List.mem_cons, Prod.mk.injEq, List.not_mem_nil, or_false] at known
    rcases known with ⟨rfl, rfl⟩ | ⟨rfl, rfl⟩ | ⟨rfl, rfl⟩ | ⟨rfl, rfl⟩ | ⟨rfl, rfl⟩ | ⟨rfl, rfl⟩ |
      ⟨rfl, rfl⟩ | ⟨rfl, rfl⟩
    all_goals simp [Piece.chars, readString, escapedChar?, Partial.take]
  | unit a b c d =>
    simp [Piece.chars, readString, HexDigit.hexQuad?_chars, Partial.take]

theorem readString_pieces (t : Token) (p : Partial) (rest : List Char) :
    readString p (t.flatMap Piece.chars ++ '"' :: rest) =
      (.literal (t.foldl Partial.take p).literal, some rest) := by
  induction t generalizing p with
  | nil => rfl
  | cons x t ih => rw [List.flatMap_cons, List.append_assoc, readString_piece, ih, List.foldl_cons]

theorem scalar_range (c : Char) : c.toNat < 0xD800 ∨ 0xDFFF < c.toNat ∧ c.toNat < 0x110000 :=
  c.valid

theorem units_append_inj {c d : Char} {xs ys : List Nat} (same : units c ++ xs = units d ++ ys) :
    c = d ∧ xs = ys := by
  have rangeC := scalar_range c
  have rangeD := scalar_range d
  have number : c.toNat = d.toNat ∧ xs = ys := by
    unfold units at same
    split_ifs at same <;> simp only [List.cons_append, List.nil_append, List.cons.injEq] at same
    · exact same
    · omega
    · omega
    · exact ⟨by omega, same.2.2⟩
  exact ⟨Char.toNat_inj.mp number.1, number.2⟩

theorem units_head {c : Char} {n : Nat} {xs ys : List Nat} (same : units c ++ xs = n :: ys) :
    isTrailing n = false := by
  have range := scalar_range c
  have first : n = c.toNat ∨ n = 0xD800 + (c.toNat - 0x10000) / 0x400 := by
    unfold units at same
    split_ifs at same <;> simp only [List.cons_append, List.cons.injEq] at same
    · exact .inl same.1.symm
    · exact .inr same.1.symm
  simp only [isTrailing, Bool.and_eq_false_iff, decide_eq_false_iff_not]
  rcases first with rfl | rfl <;> omega

theorem unit_single {c : Char} (single : c.toNat < 0x10000) (sofar : List Char) :
    (Partial.chars sofar).unit c.toNat = .chars (c :: sofar) := by
  have range := scalar_range c
  have whole : isTrailing c.toNat = false ∧ isLeading c.toNat = false := by
    simp only [isTrailing, isLeading, Bool.and_eq_false_iff, decide_eq_false_iff_not]
    omega
  simp [Partial.unit, whole, Char.ofNat_toNat]

theorem unit_pair {c : Char} (pair : ¬c.toNat < 0x10000) (sofar : List Char) :
    ((Partial.chars sofar).unit (0xD800 + (c.toNat - 0x10000) / 0x400)).unit
      (0xDC00 + (c.toNat - 0x10000) % 0x400) = .chars (c :: sofar) := by
  have range := scalar_range c
  generalize leads : 0xD800 + (c.toNat - 0x10000) / 0x400 = high
  generalize trails : 0xDC00 + (c.toNat - 0x10000) % 0x400 = low
  have leading : isTrailing high = false ∧ isLeading high = true := by
    simp only [isTrailing, isLeading, Bool.and_eq_false_iff, Bool.and_eq_true,
      decide_eq_false_iff_not, decide_eq_true_eq]
    omega
  have trailing : isTrailing low = true := by
    simp only [isTrailing, Bool.and_eq_true, decide_eq_true_eq]
    omega
  have joined : 0x10000 + (high - 0xD800) * 0x400 + (low - 0xDC00) = c.toNat := by omega
  have lead : (Partial.chars sofar).unit high = .lead sofar high := by simp [Partial.unit, leading]
  rw [lead, Partial.unit, if_pos trailing, joinSurrogates, joined, Char.ofNat_toNat]

theorem trailing_piece {t : Token} {n : Nat} {ns : List Nat} (trailing : isTrailing n = true)
    (same : t.flatMap Piece.units = n :: ns) :
    ∃ a b c d t', t = .unit a b c d :: t' ∧ HexDigit.number [a, b, c, d] = n ∧
      t'.flatMap Piece.units = ns := by
  cases t with
  | nil => simp at same
  | cons x t =>
    rw [List.flatMap_cons] at same
    cases x with
    | plain f _ _ _ => exact absurd trailing (by rw [units_head same]; decide)
    | short _ f _ => exact absurd trailing (by rw [units_head same]; decide)
    | unit a b c d =>
      obtain ⟨number, rest⟩ := List.cons.inj same
      exact ⟨a, b, c, d, t, rfl, number, rest⟩

theorem units_cons (c : Char) : ∃ n ns, units c = n :: ns := by
  unfold units
  split <;> exact ⟨_, _, rfl⟩

/-- Pieces whose code units are those of some characters are read as these characters. A character
of two units may be spelled by two pieces, so that the induction is on the characters. -/
theorem take_spelled {t : Token} {cs : List Char} (same : t.flatMap Piece.units = cs.flatMap units)
    (sofar : List Char) :
    t.foldl Partial.take (.chars sofar) = .chars (cs.reverse ++ sofar) := by
  induction cs generalizing t sofar with
  | nil =>
    cases t with
    | nil => rfl
    | cons x t =>
      rw [List.flatMap_cons, List.flatMap_nil, List.append_eq_nil_iff] at same
      cases x with
      | plain d _ _ _ => obtain ⟨n, ns, shape⟩ := units_cons d; simp [Piece.units, shape] at same
      | short _ d _ => obtain ⟨n, ns, shape⟩ := units_cons d; simp [Piece.units, shape] at same
      | unit a b c d => simp [Piece.units] at same
  | cons c cs ih =>
    have more (t : Token) (rest : t.flatMap Piece.units = cs.flatMap units) :
        t.foldl Partial.take (.chars (c :: sofar)) = .chars ((c :: cs).reverse ++ sofar) := by
      rw [ih rest (c :: sofar), List.reverse_cons, List.append_assoc]
      rfl
    cases t with
    | nil => obtain ⟨n, ns, shape⟩ := units_cons c; simp [shape] at same
    | cons x t =>
      rw [List.flatMap_cons, List.flatMap_cons] at same
      cases x with
      | plain d _ _ _ =>
        obtain ⟨rfl, rest⟩ := units_append_inj same
        exact more t rest
      | short _ d _ =>
        obtain ⟨rfl, rest⟩ := units_append_inj same
        exact more t rest
      | unit a b d e =>
        change HexDigit.number [a, b, d, e] :: t.flatMap Piece.units = _ at same
        rw [List.foldl_cons, Partial.take]
        -- a unit is a whole character, or its leading half: then the next piece is the trailing one
        by_cases single : c.toNat < 0x10000
        · rw [units, if_pos single] at same
          obtain ⟨number, rest⟩ := List.cons.inj same
          rw [number, unit_single single]
          exact more t rest
        · rw [units, if_neg single] at same
          obtain ⟨number, same⟩ := List.cons.inj same
          have trailing : isTrailing (0xDC00 + (c.toNat - 0x10000) % 0x400) = true := by
            simp only [isTrailing, Bool.and_eq_true, decide_eq_true_eq]
            omega
          obtain ⟨a', b', d', e', t, rfl, number', rest⟩ := trailing_piece trailing same
          rw [List.foldl_cons, Partial.take, number, number', unit_pair single]
          exact more t rest

theorem literal_spelled {t : Token} {s : String} (spells : Spells t s) :
    (t.foldl Partial.take (.chars [])).literal = .text s := by
  rw [take_spelled spells, List.append_nil, Partial.literal, List.reverse_reverse,
    String.ofList_toList]

theorem Digits.shape (ds : Digits) : ∃ c cs, ds.chars = c :: cs ∧ isDigit c = true := by
  obtain ⟨c, cs, shape⟩ := List.exists_cons_of_ne_nil ds.nonempty
  exact ⟨c, cs, shape, ds.digits c (by rw [shape]; exact List.mem_cons_self)⟩

@[simp]
theorem Digits.isEmpty_chars (ds : Digits) : ds.chars.isEmpty = false := by
  obtain ⟨c, cs, shape, -⟩ := ds.shape
  rw [shape]
  rfl

theorem readExponent_signed (negative : Bool) (significand : Nat) (exponent : Int) (e : Exponent)
    {rest : List Char} (ends : EndsNumber rest) :
    ∃ n, readExponent negative significand exponent (e.signed ++ rest) =
      (.number n, some rest) := by
  obtain ⟨upper, minus, size⟩ := e
  obtain ⟨apart, left⟩ := digits_apart size.digits ends.digits
  cases minus with
  | some minus =>
    cases minus
    all_goals
      simp only [Exponent.signed, List.cons_append, List.nil_append, readExponent, apart, left,
        size.isEmpty_chars, Bool.false_eq_true, if_false]
      exact ⟨_, rfl⟩
  | none =>
    obtain ⟨c, cs, shape, digit⟩ := size.shape
    have unsigned (sign : Char) (other : isDigit sign = false) (cs' : List Char)
        (same : size.chars ++ rest = sign :: cs') : False := by
      rw [shape, List.cons_append] at same
      rw [(List.cons.inj same).1, other] at digit
      exact Bool.false_ne_true digit
    rw [Exponent.signed, List.nil_append, readExponent]
    · simp only [apart, left, size.isEmpty_chars, Bool.false_eq_true, if_false]
      exact ⟨_, rfl⟩
    · exact unsigned '+' rfl
    · exact unsigned '-' rfl

theorem head_exponentChars (e : Option Exponent) {rest : List Char} (ends : EndsNumber rest) :
    ∀ c ∈ (exponentChars e ++ rest).head?, isDigit c = false ∧ c ≠ '.' := by
  intro c first
  cases e with
  | none => exact ⟨(ends c first).1, (ends c first).2.1⟩
  | some e =>
    obtain rfl : (if e.upper then 'E' else 'e') = c := by simpa [exponentChars] using first
    cases e.upper <;> decide

theorem readFraction_chars (negative : Bool) (significand : Nat) (exponent : Int) (ds : Digits)
    (e : Option Exponent) {rest : List Char} (ends : EndsNumber rest) :
    ∃ n, readFraction negative significand exponent (ds.chars ++ (exponentChars e ++ rest)) =
      (.number n, some rest) := by
  obtain ⟨apart, left⟩ :=
    digits_apart ds.digits fun c first => (head_exponentChars e ends c first).1
  simp only [readFraction, apart, left, ds.isEmpty_chars, Bool.false_eq_true, if_false]
  cases e with
  | some e =>
    obtain ⟨upper, minus, size⟩ := e
    cases upper
    all_goals exact readExponent_signed _ _ _ ⟨_, minus, size⟩ ends
  | none =>
    rw [exponentChars, List.nil_append]
    split
    · exact absurd rfl (ends 'e' rfl).2.2.1
    · exact absurd rfl (ends 'E' rfl).2.2.2
    · exact ⟨_, rfl⟩

theorem readNumber_unsigned (n : Numeral) (negative : Bool) {rest : List Char}
    (ends : EndsNumber rest) :
    ∃ x, readNumber negative (n.unsigned ++ rest) = (.number x, some rest) := by
  obtain ⟨_, whole, fraction, exponent⟩ := n
  have digits : ∀ c ∈ Nat.toDigits 10 whole, isDigit c = true := fun _ => isDigit_of_mem_toDigits
  have next : ∀ c ∈ (fractionChars fraction ++ (exponentChars exponent ++ rest)).head?,
      isDigit c = false := by
    cases fraction with
    | none => exact fun c first => (head_exponentChars exponent ends c first).1
    | some ds => rintro c ⟨⟩; rfl
  obtain ⟨apart, left⟩ := digits_apart digits next
  rw [Numeral.unsigned, List.append_assoc, List.append_assoc, readNumber, apart, left]
  simp only
  split
  case h_1 empty => exact absurd empty Nat.toDigits_ne_nil
  case h_2 shape => exact absurd shape toDigits_ne_zeros
  case h_3 =>
    cases fraction with
    | some ds => exact readFraction_chars _ _ _ ds exponent ends
    | none =>
      cases exponent with
      | some e =>
        obtain ⟨upper, minus, size⟩ := e
        cases upper
        all_goals exact readExponent_signed _ _ _ ⟨_, minus, size⟩ ends
      | none =>
        rw [fractionChars, exponentChars, List.nil_append, List.nil_append]
        split
        · exact absurd rfl (ends '.' rfl).2.1
        · exact absurd rfl (ends 'e' rfl).2.2.1
        · exact absurd rfl (ends 'E' rfl).2.2.2
        · split
          · exact ⟨_, rfl⟩
          · exact ⟨_, rfl⟩

structure Tree.ReadAs (t : Tree) (d : Doc) : Prop where
  skipped : d.skipFault? = none
  said : ∀ v, t.Says v → d = v.doc

def tokenLiteral (t : Token) : Literal := (t.foldl Partial.take (.chars [])).literal

theorem endsNumber_spaces (gap : List Space) {rest : List Char} (ends : EndsNumber rest) :
    EndsNumber (spaces gap ++ rest) := by
  cases gap with
  | nil => exact ends
  | cons space gap =>
    intro c first
    obtain rfl : space.char = c := by simpa [spaces] using first
    cases space <;> decide

theorem Tree.chars_cons (t : Tree) : ∃ c cs, t.chars = c :: cs ∧ isSpace c = false ∧ c ≠ ']' := by
  cases t with
  | null => exact ⟨_, _, rfl, by decide, by decide⟩
  | bool b => cases b <;> exact ⟨_, _, rfl, by decide, by decide⟩
  | text t => exact ⟨_, _, rfl, by decide, by decide⟩
  | array items close => exact ⟨_, _, rfl, by decide, by decide⟩
  | object members close => exact ⟨_, _, rfl, by decide, by decide⟩
  | number n =>
    obtain ⟨negative, whole, fraction, exponent⟩ := n
    cases negative with
    | true => exact ⟨_, _, rfl, by decide, by decide⟩
    | false =>
      obtain ⟨c, cs, shape, digit⟩ := toDigits_cons whole
      refine ⟨c, cs ++ (fractionChars fraction ++ exponentChars exponent), ?_,
        isSpace_of_isDigit digit, ?_⟩
      · change Nat.toDigits 10 whole ++ _ = _
        rw [shape, List.cons_append]
      · rintro rfl
        exact absurd digit (by decide)

theorem readValue_number (n : Numeral) (fuel : Nat) {rest : List Char} (ends : EndsNumber rest) :
    ∃ d, (Tree.number n).ReadAs d ∧ readValue (fuel + 1) (n.chars ++ rest) = (d, some rest) := by
  obtain ⟨x, read⟩ := readNumber_unsigned n n.negative ends
  refine ⟨.number x, ⟨rfl, ?_⟩, ?_⟩
  · rintro v (_ | _ | @⟨k, fits⟩ | _)
    have natural := readNumber_toDigits fits ends
    change readNumber false ((Nat.toDigits 10 k ++ []) ++ rest) = _ at read
    rw [List.append_nil, natural, Prod.mk.injEq] at read
    exact read.1.symm
  · obtain ⟨negative, whole, fraction, exponent⟩ := n
    cases negative with
    | true => rw [← read]; rfl
    | false =>
      obtain ⟨c, cs, shape, digit⟩ := toDigits_cons whole
      rw [← read]
      change readValue (fuel + 1) ((Nat.toDigits 10 whole ++ _) ++ rest) =
        readNumber false ((Nat.toDigits 10 whole ++ _) ++ rest)
      rw [shape, List.cons_append, List.cons_append, readValue_digit digit]

theorem readValue_token (t : Token) (fuel : Nat) (rest : List Char) :
    ∃ d, (Tree.text t).ReadAs d ∧ readValue (fuel + 1) (tokenChars t ++ rest) = (d, some rest) := by
  refine ⟨.literal (tokenLiteral t), ⟨rfl, ?_⟩, ?_⟩
  · rintro v (_ | ⟨spells⟩ | _ | _)
    exact congrArg Doc.literal (literal_spelled spells)
  · simp only [tokenChars, List.cons_append, List.append_assoc, List.nil_append, readValue,
      skipSpaces_cons (by decide : isSpace '"' = false), readString_pieces, tokenLiteral]

theorem skipFault?_elements {ts : List Tree} {ds : List Doc}
    (read : List.Forall₂ Tree.ReadAs ts ds) : Doc.skipFault?.elements ds = none := by
  induction read with
  | nil => rfl
  | cons first _ ih => rw [Doc.skipFault?.elements, first.skipped, ih]; rfl

theorem readElements_item (fuel : Nat) (first : Bool) (gap : List Space) {c : Char} {cs : List Char}
    (dark : isSpace c = false) (goesOn : c ≠ ']') :
    readElements (fuel + 1) first ((if first then [] else [',']) ++ (spaces gap ++ c :: cs)) =
      readElement fuel (c :: cs) := by
  cases first with
  | true =>
    simp only [if_true, List.nil_append, readElements_spaces]
    rw [readElements, skipSpaces_cons dark]
    simp
  | false =>
    simp only [Bool.false_eq_true, if_false, List.cons_append, List.nil_append]
    rw [readElements, skipSpaces_cons (by decide)]
    simp [skipSpaces_cons dark, goesOn]

theorem readElement_cons {fuel : Nat} {cs tail : List Char} {rest : Option (List Char)} {d : Doc}
    {ds : List Doc} {ending : Ending} (value : readValue fuel cs = (d, some tail))
    (more : readElements fuel false tail = (ds, ending, rest)) :
    readElement (fuel + 1) cs = (d :: ds, ending, rest) := by
  simp only [readElement, value, more]

structure ReadMember (m : Padded Token × Padded Tree) (read : Literal × Doc) : Prop where
  key : read.1 = tokenLiteral m.1.inner
  value : m.2.inner.ReadAs read.2

theorem skipFault?_members {ms : List (Padded Token × Padded Tree)} {ds : List (Literal × Doc)}
    (read : List.Forall₂ ReadMember ms ds) : Doc.skipFault?.members ds = none := by
  induction read with
  | nil => rfl
  | @cons m d _ _ first _ ih =>
    obtain ⟨l, d⟩ := d
    rw [Doc.skipFault?.members, first.value.skipped, ih]
    rfl

theorem readMembers_member {fuel : Nat} (first : Bool) (gap : List Space) {key : Token}
    {cs : List Char} {rest : Option (List Char)} {m : Literal × Doc} {ms : List (Literal × Doc)}
    {ending : Ending} (member : readMember fuel (tokenChars key ++ cs) = (m :: ms, ending, rest)) :
    readMembers (fuel + 1) first
      ((if first then [] else [',']) ++ (spaces gap ++ (tokenChars key ++ cs))) =
        (m :: ms, ending, rest) := by
  have starts : skipSpaces (tokenChars key ++ cs) = tokenChars key ++ cs :=
    skipSpaces_cons (by decide) _
  cases first with
  | true =>
    simp only [if_true, List.nil_append, readMembers_spaces]
    rw [readMembers, starts]
    exact member
  | false =>
    simp only [Bool.false_eq_true, if_false, List.cons_append, List.nil_append]
    rw [readMembers, skipSpaces_cons (by decide)]
    simp [starts, member]

theorem readMember_token {fuel : Nat} (key : Token) (gap : List Space) {cs tail : List Char}
    {rest : Option (List Char)} {d : Doc} {ms : List (Literal × Doc)} {ending : Ending}
    (value : readValue fuel cs = (d, some tail))
    (more : readMembers fuel false tail = (ms, ending, rest)) :
    readMember (fuel + 1) (tokenChars key ++ (spaces gap ++ ':' :: cs)) =
      ((tokenLiteral key, d) :: ms, ending, rest) := by
  simp only [tokenChars, List.cons_append, List.append_assoc, List.nil_append, readMember,
    readString_pieces, skipSpaces_spaces, skipSpaces_cons (by decide : isSpace ':' = false), value,
    more, tokenLiteral]

theorem endsNumber_items (items : List (Padded Tree)) (close : List Space) (rest : List Char) :
    EndsNumber (Tree.itemChars false items ++ (spaces close ++ ']' :: rest)) := by
  cases items with
  | nil =>
    refine endsNumber_spaces close ?_
    rintro c ⟨⟩
    decide
  | cons item items =>
    rintro c ⟨⟩
    decide

theorem endsNumber_members (members : List (Padded Token × Padded Tree)) (close : List Space)
    (rest : List Char) :
    EndsNumber (Tree.memberChars false members ++ (spaces close ++ '\x7d' :: rest)) := by
  cases members with
  | nil =>
    refine endsNumber_spaces close ?_
    rintro c ⟨⟩
    decide
  | cons member members =>
    rintro c ⟨⟩
    decide

theorem startsKey_members (members : List (Padded Token × Padded Tree)) (close : List Space)
    (rest : List Char) :
    startsKey (Tree.memberChars true members ++ (spaces close ++ '\x7d' :: rest)) = true := by
  cases members with
  | nil =>
    change startsKey (spaces close ++ '\x7d' :: rest) = true
    rw [startsKey, skipSpaces_spaces, skipSpaces_cons (by decide)]
    rfl
  | cons member members =>
    obtain ⟨⟨before, key, after⟩, ⟨before', t, after'⟩⟩ := member
    simp only [Tree.memberChars, if_true, List.nil_append, List.append_assoc]
    rw [startsKey, skipSpaces_spaces, tokenChars, List.cons_append, skipSpaces_cons (by decide)]
    rfl

theorem readValue_array {fuel : Nat} {items : List (Padded Tree)} {close : List Space}
    {rest : List Char} {ds : List Doc}
    (read : readElements fuel true (Tree.itemChars true items ++ (spaces close ++ ']' :: rest)) =
      (ds, .closed, some rest)) :
    readValue (fuel + 1) ((Tree.array items close).chars ++ rest) =
      (.array ds .closed, some rest) := by
  simp only [Tree.chars, List.cons_append, List.append_assoc, List.nil_append]
  rw [readValue, skipSpaces_cons (by decide)]
  simp only [read]

theorem readValue_object {fuel : Nat} {members : List (Padded Token × Padded Tree)}
    {close : List Space} {rest : List Char} {ds : List (Literal × Doc)}
    (read : readMembers fuel true
      (Tree.memberChars true members ++ (spaces close ++ '\x7d' :: rest)) =
        (ds, .closed, some rest)) :
    readValue (fuel + 1) ((Tree.object members close).chars ++ rest) =
      (.object ds .closed, some rest) := by
  simp only [Tree.chars, List.cons_append, List.append_assoc, List.nil_append]
  rw [readValue, skipSpaces_cons (by decide)]
  simp only [startsKey_members, if_true, read]

mutual

/-- A value is read to its end. The fuel is enough when it is twice the characters of the value:
each element and each member takes two steps, and has a comma or a bracket besides its value. -/
theorem readValue_tree (fuel : Nat) (rest : List Char) : (t : Tree) → EndsNumber rest →
    2 * t.chars.length ≤ fuel →
    ∃ d, t.ReadAs d ∧ readValue fuel (t.chars ++ rest) = (d, some rest)
  | .null, _, enough => by
    obtain ⟨fuel, rfl⟩ := Nat.exists_eq_add_of_le' (Nat.lt_of_lt_of_le (by decide : 0 < 8) enough)
    refine ⟨.null, ⟨rfl, ?_⟩, rfl⟩
    rintro v ⟨⟩
    rfl
  | .bool true, _, enough => by
    obtain ⟨fuel, rfl⟩ := Nat.exists_eq_add_of_le' (Nat.lt_of_lt_of_le (by decide : 0 < 8) enough)
    exact ⟨.bool true, ⟨rfl, fun v said => by cases said⟩, rfl⟩
  | .bool false, _, enough => by
    obtain ⟨fuel, rfl⟩ := Nat.exists_eq_add_of_le' (Nat.lt_of_lt_of_le (by decide : 0 < 10) enough)
    exact ⟨.bool false, ⟨rfl, fun v said => by cases said⟩, rfl⟩
  | .number n, ends, enough => by
    obtain ⟨c, cs, shape, -⟩ := (Tree.number n).chars_cons
    rw [shape, List.length_cons] at enough
    obtain ⟨fuel, rfl⟩ := Nat.exists_eq_add_of_le' (by omega : 1 ≤ fuel)
    exact readValue_number n fuel ends
  | .text t, _, enough => by
    simp only [Tree.chars, tokenChars, List.length_cons] at enough
    obtain ⟨fuel, rfl⟩ := Nat.exists_eq_add_of_le' (by omega : 1 ≤ fuel)
    exact readValue_token t fuel rest
  | .array items close, _, enough => by
    simp only [Tree.chars, List.length_cons, List.length_append, List.length_nil] at enough
    obtain ⟨fuel, rfl⟩ := Nat.exists_eq_add_of_le' (by omega : 1 ≤ fuel)
    obtain ⟨ds, each, read⟩ := readElements_items fuel true close rest items (by omega)
    refine ⟨.array ds .closed, ⟨?_, fun v said => by cases said⟩, readValue_array read⟩
    rw [Doc.skipFault?, skipFault?_elements each]
    rfl
  | .object members close, _, enough => by
    simp only [Tree.chars, List.length_cons, List.length_append, List.length_nil] at enough
    obtain ⟨fuel, rfl⟩ := Nat.exists_eq_add_of_le' (by omega : 1 ≤ fuel)
    obtain ⟨ds, each, read⟩ := readMembers_members fuel true close rest members (by omega)
    refine ⟨.object ds .closed, ⟨?_, ?_⟩, readValue_object read⟩
    · rw [Doc.skipFault?, skipFault?_members each]
      rfl
    · rintro v (_ | _ | _ | ⟨spells⟩)
      obtain ⟨⟨key, value⟩, is, rfl⟩ : ∃ m, ReadMember _ m ∧ ds = [m] := by
        cases each with
        | cons first none => cases none; exact ⟨_, first, rfl⟩
      obtain rfl : value = .null := is.value.said _ .null
      obtain rfl : key = .text _ := is.key.trans (literal_spelled spells)
      rfl

theorem readElements_items (fuel : Nat) (first : Bool) (close : List Space) (rest : List Char) :
    (items : List (Padded Tree)) → 2 * (Tree.itemChars first items).length + 3 ≤ fuel →
    ∃ ds, List.Forall₂ Tree.ReadAs (items.map Padded.inner) ds ∧
      readElements fuel first (Tree.itemChars first items ++ (spaces close ++ ']' :: rest)) =
        (ds, .closed, some rest)
  | [], enough => by
    obtain ⟨fuel, rfl⟩ := Nat.exists_eq_add_of_le' (by omega : 1 ≤ fuel)
    refine ⟨[], .nil, ?_⟩
    rw [Tree.itemChars, List.nil_append, readElements_spaces, readElements,
      skipSpaces_cons (by decide)]
    rfl
  | ⟨before, t, after⟩ :: items, enough => by
    obtain ⟨c, cs, shape, dark, goesOn⟩ := t.chars_cons
    have length : t.chars.length = cs.length + 1 := by rw [shape, List.length_cons]
    have comma : (if first then [] else [',']).length + (if first then 1 else 0) = 1 := by
      cases first <;> rfl
    simp only [Tree.itemChars, List.length_append] at enough
    obtain ⟨fuel, rfl⟩ := Nat.exists_eq_add_of_le' (by omega : 2 ≤ fuel)
    obtain ⟨d, is, value⟩ := readValue_tree fuel _ t
      (endsNumber_spaces after (endsNumber_items items close rest)) (by omega)
    obtain ⟨ds, each, more⟩ := readElements_items fuel false close rest items (by omega)
    refine ⟨d :: ds, .cons is each, ?_⟩
    rw [← readElements_spaces fuel false after] at more
    have element := readElement_cons value more
    rw [shape, List.cons_append] at element
    simp only [Tree.itemChars, List.append_assoc]
    rw [shape, List.cons_append, readElements_item (fuel + 1) first before dark goesOn, element]

theorem readMembers_members (fuel : Nat) (first : Bool) (close : List Space) (rest : List Char) :
    (members : List (Padded Token × Padded Tree)) →
    2 * (Tree.memberChars first members).length + 3 ≤ fuel →
    ∃ ds, List.Forall₂ ReadMember members ds ∧
      readMembers fuel first (Tree.memberChars first members ++ (spaces close ++ '\x7d' :: rest)) =
        (ds, .closed, some rest)
  | [], enough => by
    obtain ⟨fuel, rfl⟩ := Nat.exists_eq_add_of_le' (by omega : 1 ≤ fuel)
    refine ⟨[], .nil, ?_⟩
    rw [Tree.memberChars, List.nil_append, readMembers_spaces, readMembers,
      skipSpaces_cons (by decide)]
    rfl
  | (⟨before, key, after⟩, ⟨before', t, after'⟩) :: members, enough => by
    simp only [Tree.memberChars, tokenChars, List.length_append, List.length_cons] at enough
    obtain ⟨fuel, rfl⟩ := Nat.exists_eq_add_of_le' (by omega : 2 ≤ fuel)
    obtain ⟨d, is, value⟩ := readValue_tree fuel _ t
      (endsNumber_spaces after' (endsNumber_members members close rest)) (by omega)
    obtain ⟨ds, each, more⟩ := readMembers_members fuel false close rest members (by omega)
    refine ⟨(tokenLiteral key, d) :: ds, .cons ⟨rfl, is⟩ each, ?_⟩
    rw [← readValue_spaces fuel before'] at value
    rw [← readMembers_spaces fuel false after'] at more
    have member := readMembers_member first before (readMember_token key after value more)
    simpa only [Tree.memberChars, List.append_assoc, List.cons_append] using member

end

theorem read_object (before close after : List Space)
    (members : List (Padded Token × Padded Tree)) :
    ∃ ds, List.Forall₂ ReadMember members ds ∧
      Doc.read (spaces before ++ ((Tree.object members close).chars ++ spaces after)) =
        (.object ds .closed, some (spaces after)) := by
  generalize length :
    (spaces before ++ ((Tree.object members close).chars ++ spaces after)).length = n
  simp only [Tree.chars, List.length_cons, List.length_append] at length
  obtain ⟨ds, each, read⟩ :=
    readMembers_members (4 * n + 3) true close (spaces after) members (by omega)
  refine ⟨ds, each, ?_⟩
  rw [Doc.read, readValue_spaces]
  simp only [Tree.chars, List.length_cons, List.length_append, length]
  exact readValue_object read

theorem read_array (before close after : List Space) (items : List (Padded Tree)) :
    ∃ ds, List.Forall₂ Tree.ReadAs (items.map Padded.inner) ds ∧
      Doc.read (spaces before ++ ((Tree.array items close).chars ++ spaces after)) =
        (.array ds .closed, some (spaces after)) := by
  generalize length : (spaces before ++ ((Tree.array items close).chars ++ spaces after)).length = n
  simp only [Tree.chars, List.length_cons, List.length_append] at length
  obtain ⟨ds, each, read⟩ :=
    readElements_items (4 * n + 3) true close (spaces after) items (by omega)
  refine ⟨ds, each, ?_⟩
  rw [Doc.read, readValue_spaces]
  simp only [Tree.chars, List.length_cons, List.length_append, length]
  exact readValue_array read

theorem decode_of_read {α : Type} (read : Doc → Except Error α) {cs : List Char} {d : Doc}
    {gap : List Space} (whole : Doc.read cs = (d, some (spaces gap))) :
    decode read (String.ofList cs) = read d := by
  have nothing : skipSpaces (spaces gap) = [] := by
    rw [← List.append_nil (spaces gap), skipSpaces_spaces]
    rfl
  simp only [decode, String.toList_ofList, whole, nothing]
  cases read d with
  | error e => rfl
  | ok a => rfl

end Courier.Json
