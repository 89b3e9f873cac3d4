import Courier.Yaml.Node

set_option autoImplicit false

namespace Courier.Yaml

def isSpace (c : Char) : Bool := c == ' ' || c == '\t'

def isGap (c : Char) : Bool := isSpace c || c == '\n'

def isFlowMark (c : Char) : Bool :=
  c == ',' || c == '[' || c == ']' || c == '\x7b' || c == '\x7d'

def isAllowed (c : Char) : Bool :=
  let n := c.toNat
  n == 0x09 || n == 0x0A || n == 0x0D || (0x20 ≤ n && n ≤ 0x7E) || n == 0x85 ||
    (0xA0 ≤ n && n != 0xFEFF && n != 0xFFFE && n != 0xFFFF)

def unifyBreaks : List Char → List Char
  | '\r' :: '\n' :: rest => '\n' :: unifyBreaks rest
  | c :: rest => (if "\r\u0085\u2028\u2029".toList.contains c then '\n' else c) :: unifyBreaks rest
  | [] => []

def dropLine (cs : List Char) : List Char := (cs.dropWhile (· != '\n')).drop 1

def gapFollows : List Char → Bool
  | [] => true
  | c :: _ => isGap c

def endLine? (cs : List Char) : Option (List Char) :=
  match cs, cs.dropWhile isSpace with
  | _, [] => some []
  | _, '\n' :: rest => some rest
  | c :: _, '#' :: rest => if isSpace c then some (dropLine rest) else none
  | _, _ => none

/-- A line that ends a document: three dashes or dots and a gap. -/
def isMark : List Char → Bool
  | '-' :: '-' :: '-' :: rest => gapFollows rest
  | '.' :: '.' :: '.' :: rest => gapFollows rest
  | _ => false

def nextLine? : Nat → List Char → Option (Nat × List Char)
  | 0, _ => none
  | fuel + 1, cs =>
    let indent := (cs.takeWhile (· == ' ')).length
    let body := cs.dropWhile (· == ' ')
    match body.dropWhile isSpace with
    | [] => none
    | '\n' :: rest => nextLine? fuel rest
    | '#' :: rest => nextLine? fuel (dropLine rest)
    | _ => if indent == 0 && isMark body then none else some (indent, body)

def lineAt? (cs : List Char) : Option (Nat × List Char) := nextLine? (cs.length + 1) cs

/-- May a plain scalar start so? In a flow collection a question mark or colon never starts one. -/
def startsPlain (flow : Bool) : List Char → Bool
  | [] => false
  | c :: rest =>
    if c == '-' then !gapFollows rest
    else if c == '?' || c == ':' then !flow && !gapFollows rest
    else !(isGap c || isFlowMark c || "#&*!|>'\"%@`".toList.contains c)

def plainChars (flow : Bool) : List Char → List Char × List Char
  | [] => ([], [])
  | c :: rest =>
    let colon := c == ':' &&
      (gapFollows rest || (flow && (rest.head?.map isFlowMark).getD true))
    let comment := isSpace c && rest.head? == some '#'
    if c == '\n' || colon || comment || (flow && isFlowMark c) then ([], c :: rest)
    else
      let (cs, rest) := plainChars flow rest
      (c :: cs, rest)

def trimEnd (cs : List Char) : List Char := (cs.reverse.dropWhile isSpace).reverse

def hexDigits? (n : Nat) (cs : List Char) : Option (Char × List Char) :=
  if (cs.take n).length < n then none
  else
    match naturalIn? 16 (cs.take n) with
    | some v => if h : v.isValidChar then some (Char.ofNatAux v h, cs.drop n) else none
    | none => none

def escaped? : List Char → Option (Char × List Char)
  | '0' :: rest => some ('\x00', rest)
  | 'a' :: rest => some ('\x07', rest)
  | 'b' :: rest => some ('\x08', rest)
  | 't' :: rest => some ('\t', rest)
  | '\t' :: rest => some ('\t', rest)
  | 'n' :: rest => some ('\n', rest)
  | 'v' :: rest => some ('\x0b', rest)
  | 'f' :: rest => some ('\x0c', rest)
  | 'r' :: rest => some ('\r', rest)
  | 'e' :: rest => some ('\x1b', rest)
  | ' ' :: rest => some (' ', rest)
  | '"' :: rest => some ('"', rest)
  | '/' :: rest => some ('/', rest)
  | '\\' :: rest => some ('\\', rest)
  | 'N' :: rest => some ('\u0085', rest)
  | '_' :: rest => some ('\u00a0', rest)
  | 'L' :: rest => some ('\u2028', rest)
  | 'P' :: rest => some ('\u2029', rest)
  | 'x' :: rest => hexDigits? 2 rest
  | 'u' :: rest => hexDigits? 4 rest
  | 'U' :: rest => hexDigits? 8 rest
  | _ => none

/-- A line end inside a quoted scalar: one is a space, each further one stays. -/
def folded (cs : List Char) : List Char × List Char :=
  let gap := cs.takeWhile isGap
  let breaks := gap.filter (· == '\n')
  (if breaks.length == 1 then [' '] else breaks.drop 1, cs.dropWhile isGap)

def doubleQuoted? : Nat → List Char → List Char → Option (List Char × List Char)
  | 0, _, _ => none
  | _, sofar, '"' :: rest => some (sofar.reverse, rest)
  | fuel + 1, sofar, '\\' :: '\n' :: rest => doubleQuoted? fuel sofar (rest.dropWhile isSpace)
  | fuel + 1, sofar, '\\' :: rest => do
    let (c, rest) ← escaped? rest
    doubleQuoted? fuel (c :: sofar) rest
  | fuel + 1, sofar, '\n' :: rest =>
    let (gap, rest) := folded ('\n' :: rest)
    doubleQuoted? fuel (gap.reverse ++ sofar.dropWhile isSpace) rest
  | fuel + 1, sofar, c :: rest => doubleQuoted? fuel (c :: sofar) rest
  | _, _, [] => none

def singleQuoted? : Nat → List Char → List Char → Option (List Char × List Char)
  | 0, _, _ => none
  | fuel + 1, sofar, '\'' :: '\'' :: rest => singleQuoted? fuel ('\'' :: sofar) rest
  | _, sofar, '\'' :: rest => some (sofar.reverse, rest)
  | fuel + 1, sofar, '\n' :: rest =>
    let (gap, rest) := folded ('\n' :: rest)
    singleQuoted? fuel (gap.reverse ++ sofar.dropWhile isSpace) rest
  | fuel + 1, sofar, c :: rest => singleQuoted? fuel (c :: sofar) rest
  | _, _, [] => none

def quoted? : List Char → Option (Node × List Char)
  | '"' :: rest =>
    (doubleQuoted? (rest.length + 1) [] rest).map fun (cs, rest) =>
      (.quoted (String.ofList cs), rest)
  | '\'' :: rest =>
    (singleQuoted? (rest.length + 1) [] rest).map fun (cs, rest) =>
      (.quoted (String.ofList cs), rest)
  | _ => none

def plainLines? (least : Nat) : Nat → List Char → List Char → Option (List Char × List Char)
  | 0, _, _ => none
  | fuel + 1, sofar, cs =>
    let (word, rest) := plainChars false cs
    let sofar := sofar ++ trimEnd word
    match rest with
    | [] => some (sofar, [])
    | '\n' :: rest =>
      match lineAt? rest, rest.dropWhile isGap with
      | some (indent, body), c :: _ =>
        if indent < least || c == '#' then some (sofar, rest)
        else plainLines? least fuel (sofar ++ [' ']) (body.dropWhile isSpace)
      | _, _ => some (sofar, rest)
    | ':' :: _ => none
    | _ => (endLine? rest).map (sofar, ·)

inductive Chomping
  | strip
  | clip
  | keep
  deriving DecidableEq, Repr

structure BlockHeader where
  folded : Bool
  chomping : Chomping
  deeper : Option Nat

def blockHeader? (folded : Bool) : List Char → Option BlockHeader
  | [] => some ⟨folded, .clip, none⟩
  | [c] => (chomping? c).map (⟨folded, ·, none⟩) <|> (deeper? c).map (⟨folded, .clip, some ·⟩)
  | [c, d] =>
    (do some ⟨folded, ← chomping? c, some (← deeper? d)⟩) <|>
      do some ⟨folded, ← chomping? d, some (← deeper? c)⟩
  | _ => none
where
  chomping? : Char → Option Chomping
    | '-' => some .strip
    | '+' => some .keep
    | _ => none
  deeper? (c : Char) : Option Nat := (digitIn? 10 c).filter (0 < ·)

def firstIndent : Nat → List Char → Nat
  | 0, _ => 0
  | fuel + 1, cs =>
    let indent := (cs.takeWhile (· == ' ')).length
    match cs.drop indent with
    | '\n' :: rest => firstIndent fuel rest
    | _ => indent

/-- The lines that are indented by `indent`, without their indentation, what follows them, and
whether the last of them has an end. -/
def blockLines (indent : Nat) : Nat → List Char → List (List Char) × List Char × Bool
  | 0, cs => ([], cs, true)
  | fuel + 1, cs =>
    let found := min indent (cs.takeWhile (· == ' ')).length
    match cs.drop found with
    | [] => ([], [], true)
    | '\n' :: rest =>
      let (lines, rest, ended) := blockLines indent fuel rest
      ([] :: lines, rest, ended)
    | body =>
      if found < indent then ([], cs, true)
      else
        let line := body.takeWhile (· != '\n')
        match body.drop line.length with
        | [] => ([line], [], false)
        | _ :: rest =>
          let (lines, rest, ended) := blockLines indent fuel rest
          (line :: lines, rest, ended)

/-- Joins lines by spaces. Blank lines between them stay, as do the ends of lines that begin with a
blank and of those before them. `indented` says that the line before does so, `empty` counts the
blank lines since. -/
def foldLines (indented : Bool) (empty : Nat) : List (List Char) → List Char
  | [] => []
  | line :: lines =>
    if line.isEmpty then foldLines indented (empty + 1) lines
    else
      let begins := line.head?.any isSpace
      let gap :=
        if indented || begins then List.replicate (empty + 1) '\n'
        else if empty == 0 then [' ']
        else List.replicate empty '\n'
      gap ++ line ++ foldLines begins 0 lines

def BlockHeader.text (h : BlockHeader) (lines : List (List Char)) (ended : Bool) : List Char :=
  let body := (lines.reverse.dropWhile (·.isEmpty)).reverse
  let blank := lines.length - body.length
  let text :=
    if h.folded then
      let empty := body.takeWhile (·.isEmpty)
      let first := (body.drop empty.length).head?.getD []
      List.replicate empty.length '\n' ++ first ++
        foldLines (first.head?.any isSpace) 0 (body.drop (empty.length + 1))
    else (body.intersperse ['\n']).flatten
  let breaks := if body.isEmpty then blank else if ended then blank + 1 else 0
  match h.chomping with
  | .strip => text
  | .clip => text ++ List.replicate (if body.isEmpty then 0 else min 1 breaks) '\n'
  | .keep => text ++ List.replicate breaks '\n'

def blockScalar? (folded : Bool) (least : Nat) (cs : List Char) : Option (Node × List Char) := do
  let signs := cs.takeWhile fun c => c == '+' || c == '-' || c.isDigit
  let h ← blockHeader? folded signs
  let rest ← endLine? (cs.drop signs.length)
  let indent := match h.deeper with
    | some n => least - 1 + n
    | none => max 1 (max least (firstIndent (rest.length + 1) rest))
  let (lines, rest, ended) := blockLines indent (rest.length + 1) rest
  some (.quoted (String.ofList (h.text lines ended)), rest)

structure Properties where
  tag : Option String
  anchor : Option String

def Properties.none : Properties := ⟨.none, .none⟩

def Properties.isNone (p : Properties) : Bool := p.tag.isNone && p.anchor.isNone

def Properties.apply (p : Properties) (n : Node) : Node :=
  let tagged : Node := match p.tag with
    | some tag => .tagged tag n
    | .none => n
  match p.anchor with
  | some name => .anchored name tagged
  | .none => tagged

def isNameChar (c : Char) : Bool := c.isAlphanum || c == '_' || c == '-'

def anchorName? (cs : List Char) : Option (String × List Char) :=
  let name := cs.takeWhile isNameChar
  let rest := cs.dropWhile isNameChar
  let ends := gapFollows rest || rest.head?.any "?:,]\x7d%@`".toList.contains
  if !name.isEmpty && ends then some (String.ofList name, rest) else none

def isTagChar (c : Char) : Bool := isNameChar c || ";/?:@&=+$.~*'()%".toList.contains c

def tag? (flow : Bool) (cs : List Char) : Option (String × List Char) :=
  match cs with
  | '<' :: rest =>
    let uri := rest.takeWhile (· != '>')
    match rest.drop uri.length with
    | _ :: rest => ends uri rest (String.ofList uri)
    | [] => none
  | '!' :: rest =>
    let suffix := rest.takeWhile isTagChar
    ends suffix (rest.drop suffix.length) ("tag:yaml.org,2002:" ++ String.ofList suffix)
  | _ =>
    let suffix := cs.takeWhile isTagChar
    ends ['!'] (cs.drop suffix.length) ("!" ++ String.ofList suffix)
where
  ends (needed rest : List Char) (tag : String) : Option (String × List Char) :=
    if !needed.isEmpty && (gapFollows rest || (flow && rest.head? == some ',')) then
      some (tag, rest)
    else none

def property? (flow : Bool) (p : Properties) (cs : List Char) : Option (Properties × List Char) :=
  match cs.dropWhile isSpace with
  | '&' :: rest =>
    if p.anchor.isSome then none
    else (anchorName? rest).map fun (name, rest) => ({ p with anchor := some name }, rest)
  | '!' :: rest =>
    if p.tag.isSome then none
    else (tag? flow rest).map fun (tag, rest) => ({ p with tag := some tag }, rest)
  | _ => some (p, cs)

def properties? (flow : Bool) (cs : List Char) : Option (Properties × List Char) := do
  let (p, rest) ← property? flow .none cs
  property? flow p rest

def alias? (cs : List Char) : Option (Node × List Char) :=
  (anchorName? cs).map fun (name, rest) => (.alias name, rest)

end Courier.Yaml
