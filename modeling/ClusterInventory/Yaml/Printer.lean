import ClusterInventory.Yaml.Scalar

/-! # Writing YAML

Values are written in block style. A list under a key is not indented, and no line is folded. A
text is plain where it may be; else it is a literal block if it has lines, and quoted if not.
-/

namespace ClusterInventory.Yaml

/-! ## Characters -/

def isBreak (c : Char) : Bool :=
  c = '\n' || c = '\r' || c.toNat = 0x85 || c.toNat = 0x2028 || c.toNat = 0x2029

def isBlank (c : Char) : Bool := c = ' ' || c = '\t'

def isPrintable (c : Char) : Bool :=
  let n := c.toNat
  n = 0x0A || (0x20 ≤ n && n ≤ 0x7E) ||
    (0xA0 ≤ n && n != 0xFEFF && n != 0xFFFE && n != 0xFFFF)

/-- A character that is a blank, a break, or the end of the text. -/
def endsToken (c : Option Char) : Bool := c.all fun c => isBlank c || isBreak c

/-! ## What a text allows -/

/-- Characters with a meaning at the start of a node. -/
def isIndicator (c : Char) : Bool := "#,[]\x7b\x7d&*!|>'\"%@\x60".toList.contains c

/-- Whether a text has at its start something with a meaning of its own. -/
def startsIndicator (cs : List Char) : Bool :=
  "---".toList.isPrefixOf cs || "...".toList.isPrefixOf cs ||
    match cs with
    | [] => false
    | c :: r => isIndicator c || ((c = '?' || c = ':' || c = '-') && endsToken r.head?)

/-- Whether a colon before a blank, or a number sign after one, stands in a text. -/
def hasIndicator (cs : List Char) : Bool :=
  (cs.zip (cs.tail.map some ++ [none])).any (fun (c, next) => c = ':' && endsToken next) ||
    (cs.zip cs.tail).any (fun (c, next) => next = '#' && endsToken (some c))

def hasPair (first second : Char → Bool) (cs : List Char) : Bool :=
  (cs.zip cs.tail).any fun (c, d) => first c && second d

inductive Style where
  | plain
  | single
  | double
  | literal
  deriving DecidableEq, Repr

def isSpecial (cs : List Char) : Bool :=
  cs.any (!isPrintable ·) || hasPair (· == ' ') isBreak cs

def atEnds (p : Char → Bool) (cs : List Char) : Bool := cs.head?.any p || cs.getLast?.any p

def allowsPlain (cs : List Char) : Bool :=
  cs ≠ [] && !atEnds (fun c => c = ' ' || isBreak c) cs && !isSpecial cs && !cs.any isBreak &&
    !startsIndicator cs && !hasIndicator cs

def allowsSingle (cs : List Char) : Bool := !isSpecial cs && !hasPair isBreak (· == ' ') cs

def allowsLiteral (cs : List Char) : Bool :=
  cs ≠ [] && !isSpecial cs && cs.getLast? != some ' '

/-- The style of a text; a key on a line of its own cannot be a block. -/
def styleOf (isKey : Bool) (s : String) : Style :=
  let cs := s.toList
  let quotedStyle := if allowsSingle cs then Style.single else .double
  if cs.contains '\n' then
    if allowsLiteral cs && !isKey then .literal else .double
  else if isKey && cs.any isBreak then .double
  else if readsAsText s && allowsPlain cs then .plain
  else quotedStyle

/-! ## Scalars -/

def spaces (n : Nat) : String := String.ofList (List.replicate n ' ')

def hex (width n : Nat) : List Char :=
  let digits := (Nat.toDigits 16 n).map Char.toUpper
  List.replicate (width - digits.length) '0' ++ digits

def escapeChar (c : Char) : List Char :=
  let n := c.toNat
  if c = '"' then ['\\', '"']
  else if c = '\\' then ['\\', '\\']
  else if isPrintable c && !isBreak c then [c]
  else if n = 0 then ['\\', '0']
  else if n = 7 then ['\\', 'a']
  else if n = 8 then ['\\', 'b']
  else if n = 9 then ['\\', 't']
  else if n = 10 then ['\\', 'n']
  else if n = 11 then ['\\', 'v']
  else if n = 12 then ['\\', 'f']
  else if n = 13 then ['\\', 'r']
  else if n = 27 then ['\\', 'e']
  else if n = 0x85 then ['\\', 'N']
  else if n = 0x2028 then ['\\', 'L']
  else if n = 0x2029 then ['\\', 'P']
  else if n ≤ 0xFF then '\\' :: 'x' :: hex 2 n
  else if n ≤ 0xFFFF then '\\' :: 'u' :: hex 4 n
  else '\\' :: 'U' :: hex 8 n

def doubleQuoted (s : String) : String :=
  String.ofList ('"' :: s.toList.flatMap escapeChar ++ ['"'])

/-- A quote is written twice. After line breaks the text goes on at the indentation. -/
def singleQuotedBody (indent : Nat) (afterBreak : Bool) : List Char → List Char
  | [] => if afterBreak then List.replicate indent ' ' else []
  | c :: r =>
      if isBreak c then c :: singleQuotedBody indent true r
      else
        let shift := if afterBreak then List.replicate indent ' ' else []
        shift ++ (if c = '\'' then [c, c] else [c]) ++ singleQuotedBody indent false r

def singleQuoted (indent : Nat) (s : String) : String :=
  String.ofList ('\'' :: singleQuotedBody indent false s.toList ++ ['\''])

/-- The lines of a block, each at the indentation but the empty ones. -/
def literalBody (indent : Nat) (afterBreak : Bool) : List Char → List Char
  | [] => []
  | c :: r =>
      if isBreak c then c :: literalBody indent true r
      else
        let shift := if afterBreak then List.replicate indent ' ' else []
        shift ++ c :: literalBody indent false r

/-- What the header of a block says about the breaks at its end. -/
def chomping (cs : List Char) : String :=
  match cs.reverse with
  | [c] => if isBreak c then "+" else "-"
  | c :: d :: _ => if !isBreak c then "-" else if isBreak d then "+" else ""
  | [] => "-"

/-- A block says its indentation where the first line would not show it. It ends with a break. -/
def literal (indent : Nat) (s : String) : String :=
  let cs := s.toList
  let hint := if cs.head?.any fun c => c = ' ' || isBreak c then "2" else ""
  let body := String.ofList (literalBody indent true cs)
  "|" ++ hint ++ chomping cs ++ "\n" ++ body ++ (if cs.getLast?.any isBreak then "" else "\n")

def textLine (indent : Nat) (s : String) : String :=
  match styleOf false s with
  | .plain => s ++ "\n"
  | .single => singleQuoted indent s ++ "\n"
  | .double => doubleQuoted s ++ "\n"
  | .literal => literal indent s

def keyText (indent : Nat) (s : String) : String :=
  match styleOf true s with
  | .plain => s
  | .single => singleQuoted indent s
  | _ => doubleQuoted s

def writeDouble (d : Double) : String :=
  if d.isNaN then ".nan"
  else if d.isFinite then d.write ""
  else if d.isNegative then "-.inf"
  else ".inf"

/-! ## Values -/

/-- A key may stand before its colon if it is short and has no line breaks. -/
def isSimpleKey (s : String) : Bool := !s.toList.any isBreak && s.utf8ByteSize ≤ 128

mutual

/-- What follows a dash, or the mark of a long key, at the given indentation. -/
def afterDash (indent : Nat) : Json → String
  | .array [] => " []\n"
  | .array (v :: r) => " -" ++ afterDash (indent + 2) v ++ items (indent + 2) r
  | .object [] => " \x7b\x7d\n"
  | .object (e :: r) => " " ++ entry (indent + 2) e ++ entries (indent + 2) r
  | .string s => " " ++ textLine (indent + 2) s
  | .null => " null\n"
  | .bool b => if b then " true\n" else " false\n"
  | .int n => " " ++ toString n ++ "\n"
  | .double d => " " ++ writeDouble d ++ "\n"

/-- What follows the colon of a key at the given indentation. -/
def afterKey (indent : Nat) : Json → String
  | .array [] => " []\n"
  | .array (v :: r) => "\n" ++ spaces indent ++ "-" ++ afterDash indent v ++ items indent r
  | .object [] => " \x7b\x7d\n"
  | .object (e :: r) =>
      "\n" ++ spaces (indent + 2) ++ entry (indent + 2) e ++ entries (indent + 2) r
  | .string s => " " ++ textLine (indent + 2) s
  | .null => " null\n"
  | .bool b => if b then " true\n" else " false\n"
  | .int n => " " ++ toString n ++ "\n"
  | .double d => " " ++ writeDouble d ++ "\n"

def items (indent : Nat) : List Json → String
  | [] => ""
  | v :: r => spaces indent ++ "-" ++ afterDash indent v ++ items indent r

/-- A field without the indentation of its first line. -/
def entry (indent : Nat) : String × Json → String
  | (k, v) =>
      if isSimpleKey k then keyText (indent + 2) k ++ ":" ++ afterKey indent v
      else "? " ++ textLine (indent + 2) k ++ spaces indent ++ ":" ++ afterDash indent v

def entries (indent : Nat) : List (String × Json) → String
  | [] => ""
  | e :: r => spaces indent ++ entry indent e ++ entries indent r

end

/-- A document; it ends with a line break. -/
def print : Json → String
  | .array (v :: r) => items 0 (v :: r)
  | .object (e :: r) => entries 0 (e :: r)
  | .string s => textLine 2 s
  | v => String.ofList ((afterDash 0 v).toList.drop 1)

end ClusterInventory.Yaml
