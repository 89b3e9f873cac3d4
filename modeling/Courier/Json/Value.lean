import Courier.Text.Quoted

set_option autoImplicit false

namespace Courier.Json

inductive Value
  | null
  | natural (n : Nat)
  | text (s : String)
  | object (members : List (String × Value))

def unicodeEscape (c : Char) : List Char :=
  let digits := Nat.toDigits 16 c.toNat
  '\\' :: 'u' :: (List.replicate (4 - digits.length) '0' ++ digits)

def escape (c : Char) : List Char :=
  match c with
  | '"' => ['\\', '"']
  | '\\' => ['\\', '\\']
  | '\x08' => ['\\', 'b']
  | '\t' => ['\\', 't']
  | '\n' => ['\\', 'n']
  | '\x0c' => ['\\', 'f']
  | '\r' => ['\\', 'r']
  | c => if c.toNat < 0x20 then unicodeEscape c else [c]

def writeText (out : String) (s : String) : String :=
  (s.foldl (fun out c => (escape c).foldl String.push out) (out.push '"')).push '"'

mutual

def Value.write (out : String) : Value → String
  | .null => out ++ "null"
  | .natural n => out ++ toString n
  | .text s => writeText out s
  | .object [] => out ++ "\x7b\x7d"
  | .object ((key, v) :: ms) =>
    (Value.writeMore (v.write ((writeText (out.push '\x7b') key).push ':')) ms).push '\x7d'

def Value.writeMore (out : String) : List (String × Value) → String
  | [] => out
  | (key, v) :: ms => Value.writeMore (v.write ((writeText (out.push ',') key).push ':')) ms

end

def Value.render (v : Value) : String := v.write ""

end Courier.Json
