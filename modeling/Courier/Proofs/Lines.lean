import Courier.Lines
import Mathlib.Data.List.TakeWhile

set_option autoImplicit false

namespace Courier

/-- What may be behind the last line feed and still is no line. -/
def IsLoose (line : List UInt8) : Prop := line = [] ∨ line = [carriageReturn]

instance (line : List UInt8) : Decidable (IsLoose line) := inferInstanceAs (Decidable (_ ∨ _))

/-- The lines of a stream that has ended. -/
def linesOf (bytes : List UInt8) : List (List UInt8) :=
  let pieces := bytes.splitOn lineFeed
  pieces.dropLast ++ pieces.getLast?.toList.filter fun last => ¬IsLoose last

/-- What a line says. One of more than so many bytes is not read. -/
def readLine (longest : Nat) (line : List UInt8) : Except LineError String :=
  if longest < line.length then .error .tooLong else lineText line

theorem linesOf_line {line : List UInt8} (single : lineFeed ∉ line) (rest : List UInt8) :
    linesOf (line ++ lineFeed :: rest) = line :: linesOf rest := by
  have split := List.splitOn_append_cons_self_of_not_mem single rest
  have some : rest.splitOn lineFeed ≠ [] := List.splitOn_ne_nil lineFeed rest
  simp only [linesOf, split, List.dropLast_cons_of_ne_nil some, List.cons_append]
  rw [List.getLast?_cons_of_ne_nil some]

theorem linesOf_last {bytes : List UInt8} (single : lineFeed ∉ bytes) :
    linesOf bytes = if IsLoose bytes then [] else [bytes] := by
  have split : bytes.splitOn lineFeed = [bytes] := List.splitOn_eq_singleton single
  by_cases loose : IsLoose bytes <;> simp [linesOf, split, loose]

theorem linesOf_begin {start : List UInt8} (single : lineFeed ∉ start) (some : start ≠ [])
    (rest : List UInt8) : (∃ line lines, linesOf (start ++ rest) = line :: lines ∧
      start.length ≤ line.length) ∨ start.length = 1 ∧ linesOf (start ++ rest) = [] := by
  by_cases whole : lineFeed ∈ rest
  · obtain ⟨before, after, rfl, free⟩ := List.eq_append_cons_of_mem whole
    have none : lineFeed ∉ start ++ before := by simp [single, free]
    refine .inl ⟨start ++ before, linesOf after, ?_, by simp⟩
    rw [← List.append_assoc, linesOf_line none]
  · have none : lineFeed ∉ start ++ rest := by simp [single, whole]
    by_cases loose : IsLoose (start ++ rest)
    · refine .inr ⟨?_, by rw [linesOf_last none, if_pos loose]⟩
      have first := List.length_pos_iff.mpr some
      rcases loose with nothing | lone
      · exact absurd (List.append_eq_nil_iff.mp nothing).1 some
      · have length := congrArg List.length lone
        simp only [List.length_append, List.length_singleton] at length
        omega
    · exact .inl ⟨start ++ rest, [], by rw [linesOf_last none, if_neg loose], by simp⟩

/-- The lines of bytes whose line feed is there. -/
def wholeLines (bytes : List UInt8) : List (List UInt8) := (bytes.splitOn lineFeed).dropLast

theorem wholeLines_line {line : List UInt8} (single : lineFeed ∉ line) (rest : List UInt8) :
    wholeLines (line ++ lineFeed :: rest) = line :: wholeLines rest := by
  rw [wholeLines, List.splitOn_append_cons_self_of_not_mem single rest]
  exact List.dropLast_cons_of_ne_nil (List.splitOn_ne_nil lineFeed rest)

theorem wholeLines_none {bytes : List UInt8} (single : lineFeed ∉ bytes) : wholeLines bytes = [] := by
  rw [wholeLines, List.splitOn_eq_singleton single]
  rfl

theorem wholeLines_append (bytes more : List UInt8) :
    wholeLines bytes <+: wholeLines (bytes ++ more) := by
  induction length : bytes.length using Nat.strong_induction_on generalizing bytes with
  | _ n ih =>
    by_cases some : lineFeed ∈ bytes
    · obtain ⟨line, rest, rfl, single⟩ := List.eq_append_cons_of_mem some
      simp only [List.length_append, List.length_cons] at length
      rw [List.append_assoc, List.cons_append, wholeLines_line single, wholeLines_line single]
      exact (List.prefix_cons_inj line).mpr (ih rest.length (by omega) rest rfl)
    · rw [wholeLines_none some]
      exact List.nil_prefix

/-- What is read next of the bytes that have arrived. -/
inductive Incoming.Next (i : Incoming) (longest : Nat) : LineRead → Prop
  | line (line rest : List UInt8) (bytes : i.bytes = line ++ lineFeed :: rest)
      (single : lineFeed ∉ line) (fits : line.length ≤ longest) :
      Next i longest (.ofLine line { i with bytes := rest })
  | tooLong (start rest : List UInt8) (bytes : i.bytes = start ++ rest)
      (single : lineFeed ∉ start) (long : longest < start.length) :
      Next i longest (.error .tooLong)
  | pending (single : lineFeed ∉ i.bytes) (fits : i.bytes.length ≤ longest)
      (more : i.ended = false) : Next i longest .pending
  | last (single : lineFeed ∉ i.bytes) (fits : i.bytes.length ≤ longest) (ended : i.ended = true)
      (tight : ¬IsLoose i.bytes) : Next i longest (.ofLine i.bytes { i with bytes := [] })
  | finished (single : lineFeed ∉ i.bytes) (ended : i.ended = true) (loose : IsLoose i.bytes) :
      Next i longest .finished

namespace LineRead

theorem ofLine_eq_line {line : List UInt8} {rest rest' : Incoming} {text : String} :
    ofLine line rest = .line text rest' ↔ lineText line = .ok text ∧ rest = rest' := by
  unfold ofLine
  cases lineText line <;> simp

theorem ofLine_eq_error {line : List UInt8} {rest : Incoming} {e : LineError} :
    ofLine line rest = .error e ↔ lineText line = .error e := by
  unfold ofLine
  cases lineText line <;> simp

theorem ofLine_ne_finished (line : List UInt8) (rest : Incoming) : ofLine line rest ≠ .finished := by
  unfold ofLine
  cases lineText line <;> simp

theorem ofLine_ne_pending (line : List UInt8) (rest : Incoming) : ofLine line rest ≠ .pending := by
  unfold ofLine
  cases lineText line <;> simp

end LineRead

namespace Incoming

theorem next_next (i : Incoming) (longest : Nat) : i.Next longest (i.next longest) := by
  unfold next
  -- the window is one byte longer than a line may be: a line feed in it ends a line that is short
  -- enough, and without one the line is too long as soon as the window is full
  by_cases whole : (i.bytes.take (longest + 1)).contains lineFeed = true
  · simp only [whole, if_true]
    obtain ⟨line, after, window, single⟩ :=
      List.eq_append_cons_of_mem (List.contains_iff_mem.mp whole)
    have piece : (i.bytes.take (longest + 1)).takeWhile (· != lineFeed) = line := by
      have apart : ∀ b ∈ line, (b != lineFeed) = true := fun b member =>
        bne_iff_ne.mpr (ne_of_mem_of_not_mem member single)
      rw [window, List.takeWhile_append_of_pos apart]
      simp
    have bytes : i.bytes = line ++ lineFeed :: (after ++ i.bytes.drop (longest + 1)) := by
      have split := (List.take_append_drop (longest + 1) i.bytes).symm
      rw [window, List.append_assoc, List.cons_append] at split
      exact split
    have rest : i.bytes.drop (line.length + 1) = after ++ i.bytes.drop (longest + 1) := by
      have dropped := congrArg (List.drop (line.length + 1)) bytes
      have gone : line.drop (line.length + 1) = [] := List.drop_eq_nil_of_le (by omega)
      simpa [List.drop_append, gone] using dropped
    have fits : line.length ≤ longest := by
      have length := congrArg List.length window
      simp only [List.length_take, List.length_append, List.length_cons] at length
      omega
    rw [piece, rest]
    exact .line line _ bytes single fits
  · simp only [whole, Bool.false_eq_true, if_false]
    have single : lineFeed ∉ i.bytes.take (longest + 1) := fun there =>
      whole (List.contains_iff_mem.mpr there)
    by_cases long : longest < i.bytes.length
    · simp only [long, if_true]
      refine .tooLong _ _ (List.take_append_drop (longest + 1) i.bytes).symm single ?_
      rw [List.length_take]
      omega
    · simp only [long, if_false]
      rw [List.take_of_length_le (by omega)] at single
      cases ended : i.ended with
      | false => exact .pending single (by omega) ended
      | true =>
        by_cases loose : IsLoose i.bytes
        · have done : (i.bytes.isEmpty || i.bytes == [carriageReturn]) = true := by
            rcases loose with none | lone
            · simp [none]
            · simp [lone]
          simp only [Bool.not_true, Bool.false_eq_true, if_false, done, if_true]
          exact .finished single ended loose
        · have left : (i.bytes.isEmpty || i.bytes == [carriageReturn]) = false := by
            simpa [IsLoose] using loose
          simp only [Bool.not_true, Bool.false_eq_true, if_false, left]
          exact ended ▸ .last single (by omega) ended loose

theorem next_eq_line {i rest : Incoming} {longest : Nat} {text : String}
    (read : i.next longest = .line text rest) :
    (∃ line left, i.bytes = line ++ lineFeed :: left ∧ lineFeed ∉ line ∧
      readLine longest line = .ok text ∧ rest = { i with bytes := left }) ∨
    (lineFeed ∉ i.bytes ∧ i.ended = true ∧ ¬IsLoose i.bytes ∧
      readLine longest i.bytes = .ok text ∧ rest = { i with bytes := [] }) := by
  have next := i.next_next longest
  rw [read] at next
  generalize same : LineRead.line text rest = r at next
  cases next with
  | line line left bytes single fits =>
    obtain ⟨said, rfl⟩ := LineRead.ofLine_eq_line.mp same.symm
    exact .inl ⟨line, left, bytes, single, by rw [readLine, if_neg (by omega), said], rfl⟩
  | last single fits ended tight =>
    obtain ⟨said, rfl⟩ := LineRead.ofLine_eq_line.mp same.symm
    exact .inr ⟨single, ended, tight, by rw [readLine, if_neg (by omega), said], rfl⟩
  | tooLong | pending | finished => simp at same

/-- A line that is read is the next one of the stream, whatever is still to come of it. -/
theorem next_line {i rest : Incoming} {longest : Nat} {text : String}
    (read : i.next longest = .line text rest) (more : List UInt8)
    (whole : i.ended = true → more = []) :
    ∃ line, linesOf (i.bytes ++ more) = line :: linesOf (rest.bytes ++ more) ∧
      readLine longest line = .ok text ∧ rest.ended = i.ended := by
  rcases next_eq_line read with ⟨line, left, bytes, single, said, rfl⟩ |
    ⟨single, ended, tight, said, rfl⟩
  · refine ⟨line, ?_, said, rfl⟩
    rw [bytes, List.append_assoc, List.cons_append, linesOf_line single]
  · refine ⟨i.bytes, ?_, said, rfl⟩
    rw [whole ended, List.append_nil, linesOf_last single, if_neg tight]
    rfl

theorem next_whole {i rest : Incoming} {longest : Nat} {text : String}
    (read : i.next longest = .line text rest) :
    (∃ line, wholeLines i.bytes = line :: wholeLines rest.bytes ∧ readLine longest line = .ok text) ∨
      wholeLines i.bytes = [] := by
  rcases next_eq_line read with ⟨line, left, bytes, single, said, rfl⟩ | ⟨single, _⟩
  · exact .inl ⟨line, by rw [bytes, wholeLines_line single], said⟩
  · exact .inr (wholeLines_none single)

theorem next_shorter {i rest : Incoming} {longest : Nat} {text : String}
    (read : i.next longest = .line text rest) : rest.bytes.length < i.bytes.length := by
  rcases next_eq_line read with ⟨line, left, bytes, _, _, rfl⟩ | ⟨_, _, tight, _, rfl⟩
  · simp only [bytes, List.length_append, List.length_cons]
    omega
  · exact List.length_pos_iff.mpr fun none => tight (.inl none)

/-- A line that cannot be read is the next one of the stream. Where no byte is accepted, what is
refused may be no line. -/
theorem next_error {i : Incoming} {longest : Nat} {e : LineError} (read : i.next longest = .error e)
    (more : List UInt8) (whole : i.ended = true → more = []) :
    (∃ line lines, linesOf (i.bytes ++ more) = line :: lines ∧ readLine longest line = .error e) ∨
      longest = 0 ∧ linesOf (i.bytes ++ more) = [] := by
  have next := i.next_next longest
  rw [read] at next
  generalize same : LineRead.error e = r at next
  cases next with
  | line line left bytes single fits =>
    have said := LineRead.ofLine_eq_error.mp same.symm
    refine .inl ⟨line, linesOf (left ++ more), ?_, by rw [readLine, if_neg (by omega), said]⟩
    rw [bytes, List.append_assoc, List.cons_append, linesOf_line single]
  | last single fits ended tight =>
    have said := LineRead.ofLine_eq_error.mp same.symm
    refine .inl ⟨i.bytes, [], ?_, by rw [readLine, if_neg (by omega), said]⟩
    rw [whole ended, List.append_nil, linesOf_last single, if_neg tight]
  | tooLong start left bytes single long =>
    obtain rfl := LineRead.error.inj same
    have some : start ≠ [] := List.ne_nil_of_length_pos (by omega)
    rw [bytes, List.append_assoc]
    rcases linesOf_begin single some (left ++ more) with ⟨line, lines, begins, length⟩ | ⟨one, none⟩
    · exact .inl ⟨line, lines, begins, by rw [readLine, if_pos (by omega)]⟩
    · exact .inr ⟨by omega, none⟩
  | pending | finished => simp at same

theorem next_finished {i : Incoming} {longest : Nat} (read : i.next longest = .finished) :
    i.ended = true ∧ linesOf i.bytes = [] := by
  have next := i.next_next longest
  rw [read] at next
  generalize same : LineRead.finished = r at next
  cases next with
  | line line rest => exact absurd same.symm (LineRead.ofLine_ne_finished line _)
  | last => exact absurd same.symm (LineRead.ofLine_ne_finished i.bytes _)
  | finished single ended loose => exact ⟨ended, by rw [linesOf_last single, if_pos loose]⟩
  | tooLong | pending => simp at same

theorem next_pending {i : Incoming} {longest : Nat} (read : i.next longest = .pending) :
    i.ended = false ∧ lineFeed ∉ i.bytes ∧ i.bytes.length ≤ longest := by
  have next := i.next_next longest
  rw [read] at next
  generalize same : LineRead.pending = r at next
  cases next with
  | line line rest => exact absurd same.symm (LineRead.ofLine_ne_pending line _)
  | last => exact absurd same.symm (LineRead.ofLine_ne_pending i.bytes _)
  | pending single fits more => exact ⟨more, single, fits⟩
  | tooLong | finished => simp at same

end Incoming

end Courier
