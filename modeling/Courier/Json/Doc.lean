/-!
# JSON documents as read

A text is read into a document as far as it is JSON. Where it stops being JSON the document says
so at that place, so a reader of fields meets the faults and its own complaints in the order of the
text. Values of fields nobody asked for are only skipped, and a skipped value is judged more
mildly: its numbers may be too large and its strings may hold unpaired surrogates.
-/

set_option autoImplicit false

namespace Courier.Json

inductive Fault
  | malformed
  | truncated
  deriving DecidableEq, Repr

inductive Number
  | natural (n : Nat)
  | negative (n : Nat)
  | float (x : Float)
  | outOfRange

/-- A complete string token; `unpaired` holds a surrogate escape without its other half. -/
inductive Literal
  | text (s : String)
  | unpaired
  deriving DecidableEq

inductive Ending
  | closed
  | cut (fault : Fault)
  | comma (fault : Fault)
  deriving DecidableEq

def Ending.afterComma : Ending → Ending
  | .cut f => .comma f
  | ending => ending

inductive Doc
  /-- The text went wrong inside this value: for who wants it, and for who skips it. -/
  | cut (wanted skipped : Fault)
  | null
  | bool (b : Bool)
  | number (n : Number)
  | literal (l : Literal)
  | array (elements : List Doc) (ending : Ending)
  | object (members : List (Literal × Doc)) (ending : Ending)
  | unnamed (key : Doc)

def Ending.fault? : Ending → Option Fault
  | .closed => none
  | .cut f => some f
  | .comma f => some f

def Doc.skipFault? : Doc → Option Fault
  | .cut _ f => some f
  | .array es ending => (elements es).or ending.fault?
  | .object ms ending => (members ms).or ending.fault?
  | .unnamed _ => some .malformed
  | _ => none
where
  elements : List Doc → Option Fault
    | [] => none
    | d :: ds => d.skipFault?.or (elements ds)
  members : List (Literal × Doc) → Option Fault
    | [] => none
    | (_, d) :: ms => d.skipFault?.or (members ms)

end Courier.Json
