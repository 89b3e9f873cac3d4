/-!
# Lines of a byte stream

Bytes that arrive are cut into lines. A line ends with a line feed, and one carriage return before
it does not belong to it. A line has a greatest length, counted with the carriage return; what is
longer is an error as soon as it is seen. At the end of the stream the rest is a line too.
-/

set_option autoImplicit false

namespace Courier

namespace Text

/-- The characters with the Unicode property White_Space. -/
def isBlank (c : Char) : Bool :=
  let n := c.toNat
  (0x09 ≤ n && n ≤ 0x0D) || n == 0x20 || n == 0x85 || n == 0xA0 || n == 0x1680 ||
    (0x2000 ≤ n && n ≤ 0x200A) || n == 0x2028 || n == 0x2029 || n == 0x202F ||
    n == 0x205F || n == 0x3000

def trimChars (cs : List Char) : List Char :=
  ((cs.dropWhile isBlank).reverse.dropWhile isBlank).reverse

def trim (s : String) : String := String.ofList (trimChars s.toList)

end Text

def lineFeed : UInt8 := 10

def carriageReturn : UInt8 := 13

inductive LineError
  | tooLong
  | notText
  deriving DecidableEq, Repr

def LineError.message : LineError → String
  | .tooLong => "max line length exceeded"
  | .notText => "Unable to decode input as UTF8"

/-- The bytes that arrived and are in no line yet. -/
structure Incoming where
  bytes : List UInt8
  ended : Bool
  deriving DecidableEq, Repr

def Incoming.empty : Incoming := ⟨[], false⟩

def Incoming.add (i : Incoming) (bytes : List UInt8) : Incoming :=
  { i with bytes := i.bytes ++ bytes }

def stripReturn (line : List UInt8) : List UInt8 :=
  if line.getLast? == some carriageReturn then line.dropLast else line

def lineText (line : List UInt8) : Except LineError String :=
  match String.fromUTF8? ⟨(stripReturn line).toArray⟩ with
  | some s => .ok s
  | none => .error .notText

inductive LineRead
  | line (text : String) (rest : Incoming)
  | error (e : LineError)
  | pending
  | finished

def LineRead.ofLine (line : List UInt8) (rest : Incoming) : LineRead :=
  match lineText line with
  | .ok text => .line text rest
  | .error e => .error e

def Incoming.next (i : Incoming) (longest : Nat) : LineRead :=
  let window := i.bytes.take (longest + 1)
  if window.contains lineFeed then
    let line := window.takeWhile (· != lineFeed)
    .ofLine line { i with bytes := i.bytes.drop (line.length + 1) }
  else if longest < i.bytes.length then .error .tooLong
  else if !i.ended then .pending
  else if i.bytes.isEmpty || i.bytes == [carriageReturn] then .finished
  else .ofLine i.bytes { i with bytes := [] }

end Courier
