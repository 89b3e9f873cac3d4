import Courier.Lane
import Courier.Message

set_option autoImplicit false

namespace Courier

namespace Json

theorem size_pushAll (cs : List Char) (out : String) :
    (cs.foldl String.push out).utf8ByteSize = out.utf8ByteSize + total (cs.map Char.utf8Size) := by
  induction cs generalizing out with
  | nil => rfl
  | cons c cs ih =>
    rw [List.foldl_cons, ih, String.utf8ByteSize_push, List.map_cons, total]
    omega

theorem size_unicodeEscape {c : Char} (control : c.toNat < 0x20) :
    total ((unicodeEscape c).map Char.utf8Size) = 6 := by
  have each : ∀ n < 0x20, total ((unicodeEscape (Char.ofNat n)).map Char.utf8Size) = 6 := by decide
  rw [← Char.ofNat_toNat c]
  exact each c.toNat control

theorem size_escape (c : Char) : total ((escape c).map Char.utf8Size) ≤ 6 * c.utf8Size := by
  have some := c.utf8Size_pos
  unfold escape
  split
  case h_8 c _ _ _ _ _ _ _ =>
    split
    · rw [size_unicodeEscape ‹_›]
      omega
    · simp only [List.map_cons, List.map_nil, total]
      omega
  all_goals decide

theorem size_writeText (out s : String) :
    (writeText out s).utf8ByteSize ≤ out.utf8ByteSize + (6 * s.utf8ByteSize + 2) := by
  have quote : Char.utf8Size '"' = 1 := by decide
  have chars (cs : List Char) (out : String) :
      (cs.foldl (fun out c => (escape c).foldl String.push out) out).utf8ByteSize ≤
        out.utf8ByteSize + 6 * (String.ofList cs).utf8ByteSize := by
    induction cs generalizing out with
    | nil => simp
    | cons c cs ih =>
      have first := size_escape c
      have rest := ih ((escape c).foldl String.push out)
      rw [size_pushAll] at rest
      rw [String.ofList_cons, String.utf8ByteSize_append, String.utf8ByteSize_singleton,
        List.foldl_cons]
      omega
  have text := chars s.toList (out.push '"')
  rw [String.ofList_toList, String.utf8ByteSize_push] at text
  rw [writeText, String.foldl_eq_foldl_toList, String.utf8ByteSize_push]
  omega

mutual

def Value.bound : Value → Nat
  | .null => 4
  | .natural n => (toString n).utf8ByteSize
  | .text s => 6 * s.utf8ByteSize + 2
  | .object members => Value.boundAll members + 2

def Value.boundAll : List (String × Value) → Nat
  | [] => 0
  | (key, v) :: members => (6 * key.utf8ByteSize + 4 + v.bound) + Value.boundAll members

end

mutual

theorem Value.size_write (out : String) : (v : Value) →
    (v.write out).utf8ByteSize ≤ out.utf8ByteSize + v.bound
  | .null => by
    rw [Value.write, String.utf8ByteSize_append, Value.bound]
    exact Nat.le_refl _
  | .natural n =>
    Nat.le_of_eq (by rw [Value.write, String.utf8ByteSize_append, Value.bound])
  | .text s => by
    rw [Value.write, Value.bound]
    exact size_writeText out s
  | .object [] => by
    rw [Value.write, String.utf8ByteSize_append, Value.bound, Value.boundAll]
    exact Nat.le_refl _
  | .object ((key, v) :: members) => by
    have name := size_writeText (out.push '\x7b') key
    have value := v.size_write ((writeText (out.push '\x7b') key).push ':')
    have more := Value.size_writeMore (v.write ((writeText (out.push '\x7b') key).push ':')) members
    rw [String.utf8ByteSize_push] at name value
    have signs : Char.utf8Size '\x7b' = 1 ∧ Char.utf8Size ':' = 1 ∧ Char.utf8Size '\x7d' = 1 := by
      decide
    rw [Value.write, String.utf8ByteSize_push, Value.bound, Value.boundAll]
    omega

theorem Value.size_writeMore (out : String) : (members : List (String × Value)) →
    (Value.writeMore out members).utf8ByteSize ≤ out.utf8ByteSize + Value.boundAll members
  | [] => by
    rw [Value.writeMore, Value.boundAll]
    exact Nat.le_refl _
  | (key, v) :: members => by
    have name := size_writeText (out.push ',') key
    have value := v.size_write ((writeText (out.push ',') key).push ':')
    have more := Value.size_writeMore (v.write ((writeText (out.push ',') key).push ':')) members
    rw [String.utf8ByteSize_push] at name value
    have signs : Char.utf8Size ',' = 1 ∧ Char.utf8Size ':' = 1 := by decide
    rw [Value.writeMore, Value.boundAll]
    omega

end

end Json

/-- The payload of a message that says only what it answers, and its status. -/
theorem Message.size_correlated (id : String) (status : Status) :
    (Message.mk (.correlated id) status).encode.utf8ByteSize ≤
      6 * (id.utf8ByteSize + status.code.utf8ByteSize + status.text.utf8ByteSize) + 900 := by
  refine Nat.le_trans (Json.Value.size_write "" _) ?_
  simp only [Message.value, Header.value, Header.correlated, Header.default, Status.value,
    optionalMember, Json.Value.bound, Json.Value.boundAll, List.cons_append, List.nil_append]
  have names : "header".utf8ByteSize + "env".utf8ByteSize + "idc".utf8ByteSize + "ip".utf8ByteSize +
      "pid".utf8ByteSize + "sys".utf8ByteSize + "username".utf8ByteSize + "language".utf8ByteSize +
      "protocolType".utf8ByteSize + "protocolVersion".utf8ByteSize + "protocolDesc".utf8ByteSize +
      "correlationId".utf8ByteSize + "status".utf8ByteSize + "retCode".utf8ByteSize +
      "errMsg".utf8ByteSize = 107 := rfl
  have nothing : "".utf8ByteSize = 0 := rfl
  omega

end Courier
