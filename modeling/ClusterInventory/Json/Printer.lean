import ClusterInventory.Json.Basic

/-! # Writing JSON

Two layouts: compact, and indented by two spaces per level. In both an empty array is `[]` and an
empty object is written as two braces.
-/

namespace ClusterInventory.Json

def hexDigit (n : Nat) : Char := (Nat.toDigits 16 n).headD '0'

/-- Control characters are escaped, by their short form where there is one. -/
def escapeChar (c : Char) : List Char :=
  if c = '"' then ['\\', '"']
  else if c = '\\' then ['\\', '\\']
  else if c = '\n' then ['\\', 'n']
  else if c = '\r' then ['\\', 'r']
  else if c = '\t' then ['\\', 't']
  else if c.toNat = 8 then ['\\', 'b']
  else if c.toNat = 12 then ['\\', 'f']
  else if c.toNat < 32 then
    ['\\', 'u', '0', '0', hexDigit (c.toNat / 16), hexDigit (c.toNat % 16)]
  else [c]

def quote (s : String) : String :=
  String.ofList ('"' :: s.toList.flatMap escapeChar ++ ['"'])

/-- A number without a finite value is written as `null`. -/
def writeDouble (d : Double) : String := if d.isFinite then d.write "+" else "null"

mutual

def compact : Json → String
  | null => "null"
  | bool b => if b then "true" else "false"
  | int n => toString n
  | double d => writeDouble d
  | string s => quote s
  | array items => "[" ++ ",".intercalate (compactItems items) ++ "]"
  | object fields => "\x7b" ++ ",".intercalate (compactFields fields) ++ "\x7d"

def compactItems : List Json → List String
  | [] => []
  | v :: r => compact v :: compactItems r

def compactFields : List (String × Json) → List String
  | [] => []
  | (k, v) :: r => (quote k ++ ":" ++ compact v) :: compactFields r

end

/-- Encloses items that stand on lines of their own. -/
def enclose (opening closing indent : String) (items : List String) : String :=
  if items.isEmpty then opening ++ closing
  else
    let inner := "\n" ++ indent ++ "  "
    opening ++ inner ++ ("," ++ inner).intercalate items ++ "\n" ++ indent ++ closing

mutual

def pretty (indent : String) : Json → String
  | null => "null"
  | bool b => if b then "true" else "false"
  | int n => toString n
  | double d => writeDouble d
  | string s => quote s
  | array items => enclose "[" "]" indent (prettyItems (indent ++ "  ") items)
  | object fields => enclose "\x7b" "\x7d" indent (prettyFields (indent ++ "  ") fields)

def prettyItems (indent : String) : List Json → List String
  | [] => []
  | v :: r => pretty indent v :: prettyItems indent r

def prettyFields (indent : String) : List (String × Json) → List String
  | [] => []
  | (k, v) :: r => (quote k ++ ": " ++ pretty indent v) :: prettyFields indent r

end

end ClusterInventory.Json
