import Mathlib.Data.Nat.Basic
import Mathlib.Data.List.Basic
import Courier.Proofs.Text.Digits

set_option autoImplicit false

namespace Courier.Net

open Text (HexDigit)

structure Octets where
  a : Fin 256
  b : Fin 256
  c : Fin 256
  d : Fin 256

namespace Octets

def chars (q : Octets) : List Char :=
  Nat.toDigits 10 q.a ++ '.' :: (Nat.toDigits 10 q.b ++ '.' ::
    (Nat.toDigits 10 q.c ++ '.' :: Nat.toDigits 10 q.d))

def values (q : Octets) : Nat × Nat × Nat × Nat := (q.a, q.b, q.c, q.d)

def address (q : Octets) : Address := .v4 q.a q.b q.c q.d

def groups (q : Octets) : List Nat := [q.a * 256 + q.b, q.c * 256 + q.d]

end Octets

structure Group where
  digits : List HexDigit
  nonempty : digits ≠ []
  few : digits.length ≤ 4

def Group.chars (g : Group) : List Char := g.digits.map HexDigit.char

def Group.number (g : Group) : Nat := HexDigit.number g.digits

/-- Texts of one or more groups, whose end may be written as octets if `octets` is true. -/
inductive Groups : (octets : Bool) → List Char → List Nat → Prop
  | last (octets : Bool) (g : Group) : Groups octets g.chars [g.number]
  | octets (q : Octets) : Groups true q.chars q.groups
  | more {octets : Bool} {cs : List Char} {gs : List Nat} (g : Group) (rest : Groups octets cs gs) :
      Groups octets (g.chars ++ ':' :: cs) (g.number :: gs)

inductive Run : (octets : Bool) → List Char → List Nat → Prop
  | none (octets : Bool) : Run octets [] []
  | some {octets : Bool} {cs : List Char} {gs : List Nat} (groups : Groups octets cs gs) :
      Run octets cs gs

inductive AddressText : List Char → Address → Prop
  | octets (q : Octets) : AddressText q.chars q.address
  | groups {cs : List Char} {gs : List Nat} (text : Groups true cs gs) (eight : gs.length = 8) :
      AddressText cs (.v6 gs)
  | shortened {cs cs' : List Char} {gs gs' : List Nat} (front : Run false cs gs)
      (back : Run true cs' gs') (fewer : gs.length + gs'.length < 8) :
      AddressText (cs ++ ':' :: ':' :: cs')
        (.v6 (gs ++ List.replicate (8 - gs.length - gs'.length) 0 ++ gs'))

def NoDigit (base : Nat) (cs : List Char) : Prop := ∀ c ∈ cs.head?, digitOf? base c = none

theorem noDigit_nil (base : Nat) : NoDigit base [] := by
  rintro c ⟨⟩

theorem noDigit_cons {base : Nat} {c : Char} (other : digitOf? base c = none) (cs : List Char) :
    NoDigit base (c :: cs) := by
  rintro _ ⟨⟩
  exact other

theorem takeDigits_append {base : Nat} {cs rest : List Char} {ds : List Nat}
    (digits : cs.map (digitOf? base) = ds.map some) (ends : NoDigit base rest) :
    takeDigits base (cs ++ rest) = (ds, rest) := by
  induction cs generalizing ds with
  | nil =>
    obtain rfl : ds = [] := by simpa using digits.symm
    cases rest with
    | nil => rfl
    | cons c rest =>
      rw [List.nil_append, takeDigits, ends c rfl]
  | cons c cs ih =>
    cases ds with
    | nil => simp at digits
    | cons d ds =>
      simp only [List.map_cons, List.cons.injEq] at digits
      rw [List.cons_append, takeDigits, digits.1, ih digits.2]

theorem takeDigits_front (base : Nat) (cs : List Char) :
    ∃ front, cs = front ++ (takeDigits base cs).2 ∧
      front.map (digitOf? base) = (takeDigits base cs).1.map some ∧
      NoDigit base (takeDigits base cs).2 := by
  induction cs with
  | nil => exact ⟨[], rfl, rfl, noDigit_nil base⟩
  | cons c cs ih =>
    rw [takeDigits]
    cases digit : digitOf? base c with
    | none => exact ⟨[], rfl, rfl, noDigit_cons digit cs⟩
    | some d =>
      obtain ⟨front, split, digits, ends⟩ := ih
      exact ⟨c :: front, congrArg (c :: ·) split, by simp [digit, digits], ends⟩

theorem digitOf?_of_isDigit {base : Nat} (tens : 10 ≤ base) {c : Char} (digit : c.isDigit = true) :
    digitOf? base c = some (c.toNat - '0'.toNat) := by
  have bounds : 48 ≤ c.toNat ∧ c.toNat ≤ 57 := Char.isDigit_iff_toNat.mp digit
  have decimal : '0' ≤ c ∧ c ≤ '9' := bounds
  have zero : '0'.toNat = 48 := rfl
  rw [digitOf?, if_pos decimal]
  exact if_pos (by omega)

theorem digitChar_of_digitOf? {c : Char} {d : Nat} (digit : digitOf? 10 c = some d) :
    d < 10 ∧ Nat.digitChar d = c := by
  by_cases decimal : c.isDigit = true
  · have bounds : 48 ≤ c.toNat ∧ c.toNat ≤ 57 := Char.isDigit_iff_toNat.mp decimal
    have zero : '0'.toNat = 48 := rfl
    obtain rfl : c.toNat - '0'.toNat = d :=
      Option.some.inj ((digitOf?_of_isDigit (Nat.le_refl 10) decimal).symm.trans digit)
    refine ⟨by omega, Char.toNat_inj.mp ?_⟩
    rw [Nat.toNat_digitChar_of_lt_ten (by omega)]
    omega
  · have letter : ¬('0' ≤ c ∧ c ≤ '9') := fun bounds => decimal (Char.isDigit_iff_toNat.mpr bounds)
    rw [digitOf?, if_neg letter] at digit
    -- letters are worth ten and more
    simp only [Option.ite_none_right_eq_some] at digit
    split_ifs at digit <;> omega

theorem toDigits_foldl {ds : List Nat} (small : ∀ d ∈ ds, d < 10) {n : Nat} (positive : 0 < n) :
    Nat.toDigits 10 (ds.foldl (fun n d => n * 10 + d) n) =
      Nat.toDigits 10 n ++ ds.map Nat.digitChar := by
  induction ds generalizing n with
  | nil => simp
  | cons d ds ih =>
    have digit : d < 10 := small d List.mem_cons_self
    have next := Nat.toDigits_append_toDigits (by decide : 1 < 10) positive digit
    rw [Nat.toDigits_of_lt_base digit, Nat.mul_comm] at next
    rw [List.foldl_cons, ih (fun d there => small d (List.mem_cons_of_mem _ there)) (by omega),
      ← next, List.append_assoc]
    rfl

theorem toDigits_ofDigits {ds : List Nat} (nonempty : ds ≠ []) (small : ∀ d ∈ ds, d < 10)
    (needed : ¬(ds.head? = some 0 ∧ 1 < ds.length)) :
    Nat.toDigits 10 (ofDigits 10 ds) = ds.map Nat.digitChar := by
  cases ds with
  | nil => exact absurd rfl nonempty
  | cons d ds =>
    have digit : d < 10 := small d List.mem_cons_self
    have first : ofDigits 10 (d :: ds) = ds.foldl (fun n d => n * 10 + d) d := by simp [ofDigits]
    rw [first]
    cases ds with
    | nil => exact Nat.toDigits_of_lt_base digit
    | cons e ds =>
      have positive : 0 < d := Nat.pos_of_ne_zero fun zero => needed (by simp [zero])
      rw [toDigits_foldl (fun d there => small d (List.mem_cons_of_mem _ there)) positive,
        Nat.toDigits_of_lt_base digit]
      rfl

theorem digitChars_of_digits {cs : List Char} {ds : List Nat}
    (digits : cs.map (digitOf? 10) = ds.map some) :
    (∀ d ∈ ds, d < 10) ∧ ds.map Nat.digitChar = cs := by
  induction cs generalizing ds with
  | nil =>
    obtain rfl : ds = [] := by simpa using digits.symm
    simp
  | cons c cs ih =>
    cases ds with
    | nil => simp at digits
    | cons d ds =>
      simp only [List.map_cons, List.cons.injEq] at digits
      obtain ⟨small, char⟩ := digitChar_of_digitOf? digits.1
      obtain ⟨all, chars⟩ := ih digits.2
      exact ⟨List.forall_mem_cons.mpr ⟨small, all⟩, by rw [List.map_cons, char, chars]⟩

theorem readOctet_chars {cs rest : List Char} {n : Nat} (read : readOctet cs = some (n, rest)) :
    ∃ o : Fin 256, o = n ∧ cs = Nat.toDigits 10 o ++ rest := by
  obtain ⟨front, split, digits, -⟩ := takeDigits_front 10 cs
  obtain ⟨small, chars⟩ := digitChars_of_digits digits
  rw [readOctet] at read
  simp only [Bool.or_eq_true, List.isEmpty_iff, decide_eq_true_eq, Bool.and_eq_true, beq_iff_eq,
    Option.ite_none_left_eq_some, Option.ite_none_right_eq_some, Option.some.injEq,
    Prod.mk.injEq, not_or] at read
  obtain ⟨⟨⟨nonempty, -⟩, needed⟩, below, value, rfl⟩ := read
  refine ⟨⟨n, value ▸ below⟩, rfl, ?_⟩
  change cs = Nat.toDigits 10 n ++ _
  rw [← value, toDigits_ofDigits nonempty small needed, chars]
  exact split

theorem takeDigits_toDigits {base n : Nat} (tens : 10 ≤ base) {rest : List Char}
    (ends : NoDigit base rest) :
    takeDigits base (Nat.toDigits 10 n ++ rest) =
      ((Nat.toDigits 10 n).map fun c => c.toNat - '0'.toNat, rest) := by
  refine takeDigits_append ?_ ends
  rw [List.map_map]
  refine List.map_congr_left fun c there => ?_
  exact digitOf?_of_isDigit tens (Nat.isDigit_of_mem_toDigits (by decide) (by decide) there)

theorem readOctet_toDigits (o : Fin 256) {rest : List Char} (ends : NoDigit 10 rest) :
    readOctet (Nat.toDigits 10 o ++ rest) = some (o.val, rest) := by
  have each : ∀ o : Fin 256, readOctet (Nat.toDigits 10 o) = some (o.val, []) := by decide +kernel
  have alone := each o
  rw [← List.append_nil (Nat.toDigits 10 o), readOctet,
    takeDigits_toDigits (Nat.le_refl 10) (noDigit_nil 10)] at alone
  rw [readOctet, takeDigits_toDigits (Nat.le_refl 10) ends]
  simp only [Option.ite_none_left_eq_some, Option.ite_none_right_eq_some, Option.some.injEq,
    Prod.mk.injEq] at alone ⊢
  exact ⟨alone.1, alone.2.1, alone.2.2.1, trivial⟩

theorem readChar_eq_some {c : Char} {cs rest : List Char} (read : readChar c cs = some rest) :
    cs = c :: rest := by
  cases cs with
  | nil => cases read
  | cons d cs =>
    rw [readChar] at read
    split_ifs at read with same
    cases read
    rw [eq_of_beq same]

theorem readV4_chars {cs rest : List Char} {v : Nat × Nat × Nat × Nat}
    (read : readV4 cs = some (v, rest)) : ∃ q : Octets, q.values = v ∧ cs = q.chars ++ rest := by
  simp only [readV4, Option.bind_eq_bind, Option.bind_eq_some_iff] at read
  obtain ⟨⟨a, cs₁⟩, first, ⟨b, cs₂⟩, ⟨cs₁', dot₁, second⟩, ⟨c, cs₃⟩, ⟨cs₂', dot₂, third⟩,
    ⟨d, cs₄⟩, ⟨cs₃', dot₃, fourth⟩, result⟩ := read
  cases result
  obtain ⟨a, rfl, rfl⟩ := readOctet_chars first
  obtain rfl := readChar_eq_some dot₁
  obtain ⟨b, rfl, rfl⟩ := readOctet_chars second
  obtain rfl := readChar_eq_some dot₂
  obtain ⟨c, rfl, rfl⟩ := readOctet_chars third
  obtain rfl := readChar_eq_some dot₃
  obtain ⟨d, rfl, rfl⟩ := readOctet_chars fourth
  exact ⟨⟨a, b, c, d⟩, rfl, by simp [Octets.chars]⟩

theorem readV4_octets (q : Octets) {rest : List Char} (ends : NoDigit 10 rest) :
    readV4 (q.chars ++ rest) = some (q.values, rest) := by
  have dot (cs : List Char) : NoDigit 10 ('.' :: cs) := noDigit_cons (by decide) cs
  simp [readV4, Octets.chars, readOctet_toDigits, dot, ends, readChar, Octets.values]

theorem hexDigits_of_digits {cs : List Char} {ds : List Nat}
    (digits : cs.map (digitOf? 16) = ds.map some) :
    ∃ hs : List HexDigit, hs.map HexDigit.char = cs ∧ hs.map (·.value.val) = ds := by
  induction cs generalizing ds with
  | nil =>
    obtain rfl : ds = [] := by simpa using digits.symm
    exact ⟨[], rfl, rfl⟩
  | cons c cs ih =>
    cases ds with
    | nil => simp at digits
    | cons d ds =>
      simp only [List.map_cons, List.cons.injEq] at digits
      obtain ⟨h, rfl, rfl⟩ := HexDigit.of_digitOf? digits.1
      obtain ⟨hs, rfl, rfl⟩ := ih digits.2
      exact ⟨h :: hs, rfl, rfl⟩

theorem takeDigits_group (g : Group) {rest : List Char} (ends : NoDigit 16 rest) :
    takeDigits 16 (g.chars ++ rest) = (g.digits.map (·.value.val), rest) := by
  refine takeDigits_append ?_ ends
  rw [Group.chars, List.map_map, List.map_map]
  exact List.map_congr_left fun h _ => h.digitOf?_char

theorem readGroup_chars {cs rest : List Char} {n : Nat} (read : readGroup cs = some (n, rest)) :
    ∃ g : Group, g.number = n ∧ cs = g.chars ++ rest := by
  obtain ⟨front, split, digits, -⟩ := takeDigits_front 16 cs
  obtain ⟨hs, chars, values⟩ := hexDigits_of_digits digits
  rw [readGroup] at read
  simp only [Bool.or_eq_true, List.isEmpty_iff, decide_eq_true_eq, Option.ite_none_left_eq_some,
    Option.some.injEq, Prod.mk.injEq, not_or, Nat.not_lt] at read
  obtain ⟨⟨nonempty, few⟩, rfl, rfl⟩ := read
  rw [← values] at nonempty few ⊢
  refine ⟨⟨hs, by simpa using nonempty, by simpa using few⟩, ?_, ?_⟩
  · rw [Group.number, HexDigit.number, ofDigits, List.foldl_map]
  · rw [Group.chars, chars]
    exact split

theorem readGroup_group (g : Group) {rest : List Char} (ends : NoDigit 16 rest) :
    readGroup (g.chars ++ rest) = some (g.number, rest) := by
  have nonempty : (g.digits.map (·.value.val)).isEmpty = false := by simpa using g.nonempty
  rw [readGroup, takeDigits_group g ends]
  simp only [nonempty, List.length_map, Nat.not_lt.mpr g.few, decide_false, Bool.or_self,
    Bool.false_eq_true, if_false, Group.number, HexDigit.number, ofDigits, List.foldl_map]

theorem Groups.weaken {octets : Bool} {cs : List Char} {gs : List Nat}
    (groups : Groups octets cs gs) : Groups true cs gs := by
  induction groups with
  | last _ g => exact .last true g
  | octets q => exact .octets q
  | more g _ ih => exact .more g ih

theorem Run.weaken {octets : Bool} {cs : List Char} {gs : List Nat} (run : Run octets cs gs) :
    Run true cs gs := by
  cases run with
  | none => exact .none true
  | some groups => exact .some groups.weaken

theorem Groups.positive {octets : Bool} {cs : List Char} {gs : List Nat}
    (groups : Groups octets cs gs) : 0 < gs.length := by
  cases groups <;> exact Nat.succ_pos _

theorem readV4_group (g : Group) {rest : List Char} (ends : NoDigit 16 rest)
    (noDot : rest.head? ≠ some '.') : readV4 (g.chars ++ rest) = none := by
  cases read : readV4 (g.chars ++ rest) with
  | none => rfl
  | some result =>
    obtain ⟨q, -, same⟩ := readV4_chars read
    have first := takeDigits_group g ends
    rw [same, Octets.chars, List.append_assoc, List.cons_append,
      takeDigits_toDigits (by decide) (noDigit_cons (by decide) _)] at first
    obtain ⟨-, rfl⟩ := Prod.mk.inj first
    exact absurd rfl noDot

def separator (first : Bool) : List Char := if first then [] else [':']

theorem readGroups_groups {left : Nat} {first octets : Bool} {cs rest : List Char} {gs : List Nat}
    (read : readGroups left first cs = (gs, octets, rest)) :
    gs.length ≤ left ∧ ((gs = [] ∧ octets = false ∧ rest = cs) ∨
      ∃ text, Groups octets text gs ∧ cs = separator first ++ (text ++ rest)) := by
  induction left generalizing first octets cs rest gs with
  | zero =>
    cases read
    exact ⟨Nat.le_refl 0, .inl ⟨rfl, rfl, rfl⟩⟩
  | succ left ih =>
    have separated {inner : List Char}
        (found : (if first then some cs else readChar ':' cs) = some inner) :
        cs = separator first ++ inner := by
      cases first with
      | true =>
        cases found
        rfl
      | false => exact readChar_eq_some found
    rw [readGroups] at read
    split at read
    · cases read
      exact ⟨Nat.zero_le _, .inl ⟨rfl, rfl, rfl⟩⟩
    next inner found =>
      split at read
      next a b c d rest' quad =>
        cases read
        -- octets stand for two groups, so there has to be room for both
        split_ifs at quad with room
        obtain ⟨q, values, rfl⟩ := readV4_chars quad
        cases values
        exact ⟨Nat.succ_le_succ room, .inr ⟨q.chars, .octets q, separated found⟩⟩
      next =>
        split at read
        next n inner' group =>
          obtain ⟨g, rfl, rfl⟩ := readGroup_chars group
          obtain ⟨gs', octets', rest', more⟩ : ∃ gs' octets' rest',
              readGroups left false inner' = (gs', octets', rest') := ⟨_, _, _, rfl⟩
          rw [more] at read
          cases read
          obtain ⟨few, ⟨rfl, rfl, rfl⟩ | ⟨text, groups, rfl⟩⟩ := ih more
          · exact ⟨Nat.succ_le_succ few, .inr ⟨g.chars, .last false g, separated found⟩⟩
          · refine ⟨Nat.succ_le_succ few, .inr ⟨_, .more g groups, ?_⟩⟩
            rw [separated found, List.append_assoc]
            rfl
        next =>
          cases read
          exact ⟨Nat.zero_le _, .inl ⟨rfl, rfl, rfl⟩⟩

def Gap (rest : List Char) : Prop := rest = [] ∨ ∃ cs, rest = ':' :: ':' :: cs

theorem Gap.noDigit {rest : List Char} (gap : Gap rest) {base : Nat}
    (colon : digitOf? base ':' = none) : NoDigit base rest := by
  obtain rfl | ⟨cs, rfl⟩ := gap
  · exact noDigit_nil base
  · exact noDigit_cons colon _

theorem Gap.noDot {rest : List Char} (gap : Gap rest) : rest.head? ≠ some '.' := by
  obtain rfl | ⟨cs, rfl⟩ := gap
  · simp
  · simp

theorem readGroups_gap {rest : List Char} (gap : Gap rest) (left : Nat) (first : Bool) :
    readGroups left first rest = ([], false, rest) := by
  cases left with
  | zero => rfl
  | succ left =>
    obtain rfl | ⟨cs, rfl⟩ := gap
    · cases first <;> cases left <;> rfl
    · cases first <;> cases left <;> rfl

theorem readGroups_octets (q : Octets) {rest : List Char} (ends : NoDigit 10 rest) {left : Nat}
    (room : 0 < left) (first : Bool) :
    readGroups (left + 1) first (separator first ++ (q.chars ++ rest)) =
      (q.groups, true, rest) := by
  have inner : (if first then some (separator first ++ (q.chars ++ rest))
      else readChar ':' (separator first ++ (q.chars ++ rest))) = some (q.chars ++ rest) := by
    cases first <;> rfl
  rw [readGroups, inner]
  simp only [if_pos room, readV4_octets q ends]
  rfl

theorem readGroups_group (g : Group) {rest rest' : List Char} (ends : NoDigit 16 rest)
    (noDot : rest.head? ≠ some '.') {left : Nat} {octets : Bool} {gs : List Nat}
    (more : readGroups left false rest = (gs, octets, rest')) (first : Bool) :
    readGroups (left + 1) first (separator first ++ (g.chars ++ rest)) =
      (g.number :: gs, octets, rest') := by
  have inner : (if first then some (separator first ++ (g.chars ++ rest))
      else readChar ':' (separator first ++ (g.chars ++ rest))) = some (g.chars ++ rest) := by
    cases first <;> rfl
  rw [readGroups, inner]
  simp only [readV4_group g ends noDot, ite_self, readGroup_group g ends, more]

theorem readGroups_text {octets : Bool} {text rest : List Char} {gs : List Nat}
    (groups : Groups octets text gs) (gap : Gap rest) {left : Nat} (enough : gs.length ≤ left)
    (first : Bool) :
    ∃ written, (written = true → octets = true) ∧
      readGroups left first (separator first ++ (text ++ rest)) = (gs, written, rest) := by
  obtain ⟨left, rfl⟩ := Nat.exists_eq_add_of_le' (Nat.le_trans groups.positive enough)
  induction groups generalizing left first with
  | last octets g =>
    exact ⟨false, nofun, readGroups_group g (gap.noDigit (by decide)) gap.noDot
      (readGroups_gap gap left false) first⟩
  | octets q =>
    exact ⟨true, fun _ => rfl, readGroups_octets q (gap.noDigit (by decide))
      (Nat.le_of_succ_le_succ enough) first⟩
  | @more octets cs gs g groups ih =>
    have room : gs.length ≤ left := Nat.le_of_succ_le_succ enough
    obtain ⟨left, rfl⟩ := Nat.exists_eq_add_of_le' (Nat.le_trans groups.positive room)
    obtain ⟨written, only, read⟩ := ih false left room
    refine ⟨written, only, ?_⟩
    rw [List.append_assoc]
    exact readGroups_group g (noDigit_cons (by decide) _) (by simp) read first

theorem readGroups_run {octets : Bool} {text rest : List Char} {gs : List Nat}
    (run : Run octets text gs) (gap : Gap rest) {left : Nat} (enough : gs.length ≤ left) :
    ∃ written, (written = true → octets = true) ∧
      readGroups left true (text ++ rest) = (gs, written, rest) := by
  cases run with
  | none => exact ⟨false, nofun, readGroups_gap gap left true⟩
  | some groups => exact readGroups_text groups gap enough true

theorem run_of_readGroups {left : Nat} {octets : Bool} {cs rest : List Char} {gs : List Nat}
    (read : readGroups left true cs = (gs, octets, rest)) :
    gs.length ≤ left ∧ ∃ text, Run octets text gs ∧ cs = text ++ rest := by
  obtain ⟨few, ⟨rfl, rfl, rfl⟩ | ⟨text, groups, split⟩⟩ := readGroups_groups read
  · exact ⟨few, [], .none false, rfl⟩
  · exact ⟨few, text, .some groups, split⟩

theorem addressText_of_readV6 {cs : List Char} {gs : List Nat} (read : readV6 cs = some (gs, [])) :
    AddressText cs (.v6 gs) := by
  obtain ⟨head, octets, rest, front⟩ : ∃ head octets rest,
      readGroups 8 true cs = (head, octets, rest) := ⟨_, _, _, rfl⟩
  obtain ⟨few, text, run, rfl⟩ := run_of_readGroups front
  rw [readV6, front] at read
  simp only [beq_iff_eq] at read
  split_ifs at read with eight written
  · cases read
    rw [List.append_nil]
    cases run with
    | none => cases eight
    | some groups => exact .groups groups.weaken eight
  · obtain rfl : octets = false := by simpa using written
    simp only [Option.bind_eq_bind, Option.bind_eq_some_iff] at read
    obtain ⟨rest₂, ⟨rest₁, colon₁, colon₂⟩, result⟩ := read
    obtain rfl := readChar_eq_some colon₁
    obtain rfl := readChar_eq_some colon₂
    obtain ⟨tail, octets', rest₃, back⟩ : ∃ tail octets' rest₃,
        readGroups (7 - head.length) true rest₂ = (tail, octets', rest₃) := ⟨_, _, _, rfl⟩
    obtain ⟨few', text', run', rfl⟩ := run_of_readGroups back
    rw [back] at result
    cases result
    rw [List.append_nil]
    have fewer : head.length + tail.length < 8 := by omega
    exact .shortened run run'.weaken fewer

theorem addressText_of_ofChars? {cs : List Char} {a : Address}
    (read : Address.ofChars? cs = some a) : AddressText cs a := by
  rw [Address.ofChars?] at read
  split at read
  next quad =>
    cases read
    obtain ⟨q, values, rfl⟩ := readV4_chars quad
    cases values
    rw [List.append_nil]
    exact .octets q
  next => cases read
  next =>
    split at read
    next gs groups =>
      cases read
      exact addressText_of_readV6 groups
    next => cases read

theorem readV4_run {text cs : List Char} {gs : List Nat} (run : Run false text gs) :
    readV4 (text ++ ':' :: ':' :: cs) = none := by
  have colon (cs : List Char) : NoDigit 16 (':' :: cs) := noDigit_cons (by decide) cs
  cases run with
  | none => rfl
  | some groups =>
    cases groups with
    | last _ g => exact readV4_group g (colon _) (by simp)
    | more g _ =>
      rw [List.append_assoc]
      exact readV4_group g (colon _) (by simp)

theorem readV4_groups {text : List Char} {gs : List Nat} (groups : Groups true text gs)
    (eight : gs.length = 8) : readV4 text = none := by
  cases groups with
  | last _ g => cases eight
  | octets q => cases eight
  | more g _ => exact readV4_group g (noDigit_cons (by decide) _) (by simp)

theorem readV6_groups {text : List Char} {gs : List Nat} (groups : Groups true text gs)
    (eight : gs.length = 8) : readV6 text = some (gs, []) := by
  obtain ⟨written, -, read⟩ :=
    readGroups_run (.some groups) (.inl rfl) (Nat.le_of_eq eight)
  rw [List.append_nil] at read
  simp only [readV6, read, eight, beq_self_eq_true, if_true]

theorem readV6_shortened {text text' : List Char} {gs gs' : List Nat} (front : Run false text gs)
    (back : Run true text' gs') (fewer : gs.length + gs'.length < 8) :
    readV6 (text ++ ':' :: ':' :: text') =
      some (gs ++ List.replicate (8 - gs.length - gs'.length) 0 ++ gs', []) := by
  have short : ¬gs.length = 8 := by omega
  obtain ⟨written, none, head⟩ :=
    readGroups_run front (.inr ⟨text', rfl⟩) (by omega : gs.length ≤ 8)
  obtain rfl : written = false := by simpa using none
  obtain ⟨_, -, tail⟩ := readGroups_run back (.inl rfl) (by omega : gs'.length ≤ 7 - gs.length)
  rw [List.append_nil] at tail
  simp [readV6, head, short, readChar, tail]

theorem ofChars?_of_addressText {cs : List Char} {a : Address} (text : AddressText cs a) :
    Address.ofChars? cs = some a := by
  rw [Address.ofChars?]
  cases text with
  | octets q =>
    have read := readV4_octets q (noDigit_nil 10)
    rw [List.append_nil] at read
    rw [read]
    rfl
  | groups text eight => rw [readV4_groups text eight, readV6_groups text eight]
  | shortened front back fewer => rw [readV4_run front, readV6_shortened front back fewer]

/-- The reader takes exactly the texts of the grammar, for what they stand for. -/
theorem Address.ofText?_eq_some_iff (s : String) (a : Address) :
    Address.ofText? s = some a ↔ AddressText s.toList a :=
  ⟨addressText_of_ofChars?, ofChars?_of_addressText⟩

/-- One run of zeros and four octets. -/
example : Address.ofText? "::ffff:1.2.3.4" = some (.v6 [0, 0, 0, 0, 0, 0xffff, 0x102, 0x304]) := by
  decide

end Courier.Net
