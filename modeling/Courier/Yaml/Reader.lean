import Courier.Yaml.Scalar

/-!
# Reading YAML text

Block mappings and sequences by indentation, flow collections, and the marks around one document.
Explicit keys are refused. Readers return what follows the part they read; block readers stop at the
start of a line.
-/

set_option autoImplicit false

namespace Courier.Yaml

def skipGaps : Nat → List Char → List Char
  | 0, cs => cs
  | fuel + 1, cs =>
    match cs.dropWhile isGap with
    | '#' :: rest => if gapFollows cs then skipGaps fuel (dropLine rest) else '#' :: rest
    | rest => rest

def colon? : List Char → Option (List Char)
  | ':' :: rest => some rest
  | _ => none

mutual

def flowNode? : Nat → List Char → Option (Node × List Char)
  | 0, _ => none
  | fuel + 1, cs =>
    match cs with
    | '[' :: rest => (flowItems? fuel rest).map fun (items, rest) => (.sequence items, rest)
    | '\x7b' :: rest => (flowEntries? fuel rest).map fun (entries, rest) => (.mapping entries, rest)
    | '"' :: _ => quoted? cs
    | '\'' :: _ => quoted? cs
    | '*' :: rest => alias? rest
    | _ =>
      if startsPlain true cs then
        let (word, rest) := plainChars true cs
        some (.plain (String.ofList (trimEnd word)), rest)
      else do
        let (p, rest) ← properties? true cs
        if p.isNone then none
        else
          let (node, rest) ← flowRest? fuel (skipGaps fuel rest)
          some (p.apply node, rest)

def flowRest? : Nat → List Char → Option (Node × List Char)
  | 0, _ => none
  | _, [] => none
  | fuel + 1, c :: rest =>
    if c == ',' || c == ']' || c == '\x7d' || c == ':' then some (.empty, c :: rest)
    else flowNode? fuel (c :: rest)

/-- A key with its value, or a node alone, which is a key without a value. -/
def flowEntry? : Nat → List Char → Option ((Node × Option Node) × List Char)
  | 0, _ => none
  | fuel + 1, cs => do
    let (key, rest) ← if (colon? cs).isSome then some (.empty, cs) else flowNode? fuel cs
    let after := skipGaps fuel rest
    match colon? after with
    | none => some ((key, none), after)
    | some rest =>
      let rest := skipGaps fuel rest
      match rest with
      | [] => none
      | c :: _ =>
        if c == ',' || c == ']' || c == '\x7d' then some ((key, some .empty), rest)
        else
          let (value, rest) ← flowNode? fuel rest
          some ((key, some value), skipGaps fuel rest)

def flowItems? : Nat → List Char → Option (List Node × List Char)
  | 0, _ => none
  | fuel + 1, cs =>
    match skipGaps fuel cs with
    | ']' :: rest => some ([], rest)
    | rest => do
      let (entry, rest) ← flowEntry? fuel rest
      let item : Node := match entry with
        | (key, some value) => .mapping [(key, value)]
        | (node, none) => node
      match rest with
      | ',' :: rest => (flowItems? fuel rest).map fun (items, rest) => (item :: items, rest)
      | ']' :: rest => some ([item], rest)
      | _ => none

def flowEntries? : Nat → List Char → Option ((List (Node × Node)) × List Char)
  | 0, _ => none
  | fuel + 1, cs =>
    match skipGaps fuel cs with
    | '\x7d' :: rest => some ([], rest)
    | rest => do
      let ((key, value), rest) ← flowEntry? fuel rest
      let entry := (key, value.getD .empty)
      match rest with
      | ',' :: rest => (flowEntries? fuel rest).map fun (entries, rest) => (entry :: entries, rest)
      | '\x7d' :: rest => some ([entry], rest)
      | _ => none

end

/-- A scalar or flow collection that begins inside a line, up to the start of a line. -/
def inline? (least : Nat) (cs : List Char) : Option (Node × List Char) :=
  match cs with
  | '"' :: _ => quoted? cs >>= finish
  | '\'' :: _ => quoted? cs >>= finish
  | '[' :: _ => flowNode? (4 * cs.length + 4) cs >>= finish
  | '\x7b' :: _ => flowNode? (4 * cs.length + 4) cs >>= finish
  | '|' :: rest => blockScalar? false least rest
  | '>' :: rest => blockScalar? true least rest
  | '*' :: rest => alias? rest >>= finish
  | _ =>
    if startsPlain false cs then
      (plainLines? least (cs.length + 1) [] cs).map fun (word, rest) =>
        (.plain (String.ofList word), rest)
    else none
where
  finish (found : Node × List Char) : Option (Node × List Char) :=
    (endLine? found.2).map (found.1, ·)

def key? (cs : List Char) : Option (Node × List Char) := do
  let (p, rest) ← properties? false cs
  let (key, rest) ← word (if p.isNone then cs else rest.dropWhile isSpace)
  some (p.apply key, rest)
where
  word (cs : List Char) : Option (Node × List Char) :=
    match cs with
    | '"' :: _ => quoted? cs >>= colonAfter
    | '\'' :: _ => quoted? cs >>= colonAfter
    | '*' :: rest => alias? rest >>= colonAfter
    | _ =>
      if startsPlain false cs then
        let (word, rest) := plainChars false cs
        colonAfter (.plain (String.ofList (trimEnd word)), rest)
      else none
  colonAfter (found : Node × List Char) : Option (Node × List Char) :=
    match found.2.dropWhile isSpace with
    | ':' :: rest => if gapFollows rest then some (found.1, rest) else none
    | _ => none

def startsItem : List Char → Bool
  | '-' :: rest => gapFollows rest
  | _ => false

mutual

def blockNode? : Nat → Nat → Nat → List Char → Option (Node × List Char)
  | 0, _, _, _ => none
  | fuel + 1, least, column, body =>
    if startsItem body then
      (blockItems? fuel column body).map fun (items, rest) => (.sequence items, rest)
    else if (key? body).isSome then
      (blockEntries? fuel column body).map fun (entries, rest) => (.mapping entries, rest)
    else blockValue? fuel least false body

/-- The node that begins in the rest of a line, or in the lines below if nothing is left there; they
are indented by at least `least`. A sequence may stand below its key without being deeper. -/
def blockValue? : Nat → Nat → Bool → List Char → Option (Node × List Char)
  | 0, _, _, _ => none
  | fuel + 1, least, keyed, cs => do
    let (p, rest) ← properties? false cs
    match endLine? rest with
    | none =>
      let (node, rest) ← inline? least (rest.dropWhile isSpace)
      some (p.apply node, rest)
    | some rest =>
      match lineAt? rest with
      | none => some (p.apply .empty, rest)
      | some (indent, body) =>
        if least ≤ indent || (keyed && indent + 1 == least && startsItem body) then
          let (node, rest) ← blockNode? fuel least indent body
          some (p.apply node, rest)
        else some (p.apply .empty, rest)

def blockEntries? : Nat → Nat → List Char → Option ((List (Node × Node)) × List Char)
  | 0, _, _ => none
  | fuel + 1, column, body => do
    let (key, rest) ← key? body
    let (value, rest) ← blockValue? fuel (column + 1) true rest
    match lineAt? rest with
    | none => some ([(key, value)], rest)
    | some (indent, body) =>
      if indent < column then some ([(key, value)], rest)
      else if indent == column then
        let (entries, rest) ← blockEntries? fuel column body
        some ((key, value) :: entries, rest)
      else none

def blockItems? : Nat → Nat → List Char → Option (List Node × List Char)
  | 0, _, _ => none
  | fuel + 1, column, body =>
    if startsItem body then do
      let rest := body.drop 1
      let spaces := (rest.takeWhile (· == ' ')).length
      let (item, rest) ←
        if (endLine? rest).isSome then blockValue? fuel (column + 1) false rest
        else blockNode? fuel (column + 1) (column + 1 + spaces) (rest.drop spaces)
      match lineAt? rest with
      | none => some ([item], rest)
      | some (indent, body) =>
        if indent < column || (indent == column && !startsItem body) then some ([item], rest)
        else if indent == column then
          let (items, rest) ← blockItems? fuel column body
          some (item :: items, rest)
        else none
    else none

end

def isFinished : Nat → List Char → Bool
  | 0, _ => false
  | fuel + 1, cs =>
    if (lineAt? cs).isSome then false
    else
      match cs.dropWhile isGap with
      | [] => true
      | '#' :: rest => isFinished fuel (dropLine rest)
      | '.' :: '.' :: '.' :: rest =>
        match endLine? rest with
        | some rest => isFinished fuel rest
        | none => false
      | _ => false

def document? (cs : List Char) : Option (Node × List Char) :=
  match lineAt? cs with
  | some (indent, body) => blockNode? (4 * cs.length + 4) 0 indent body
  | none =>
    match cs.dropWhile isGap with
    | '-' :: '-' :: '-' :: rest =>
      if gapFollows rest then blockValue? (4 * cs.length + 4) 0 false rest else none
    | _ => some (.empty, cs)

def dropByteOrder : List Char → List Char
  | '\uFEFF' :: rest => rest
  | cs => cs

/-- Passes a line that says which version the text has; a document has to be opened after it. -/
def dropVersion? (cs : List Char) : Option (List Char) :=
  if "%YAML 1.".toList.isPrefixOf cs then do
    let rest ← match cs.drop 8 with
      | '1' :: rest => endLine? rest
      | '2' :: rest => endLine? rest
      | _ => none
    if (lineAt? rest).isNone && "---".toList.isPrefixOf (rest.dropWhile isGap) then some rest
    else none
  else some cs

def Node.ofText? (s : String) : Option Node := do
  let cs := dropByteOrder (unifyBreaks s.toList)
  if cs.all isAllowed then
    let (node, rest) ← dropVersion? cs >>= document?
    if isFinished (rest.length + 1) rest then (node.resolve? []).map (·.1) else none
  else none

end Courier.Yaml
