/-! # Addresses

An address has a scheme and an authority, or one of them is missing; a path; and perhaps a query.
What follows a number sign is dropped.
-/

namespace ClusterInventory

structure Uri where
  scheme : Option String
  authority : String
  path : String
  query : Option String
  deriving DecidableEq, Repr, Inhabited

namespace Uri

/-- Octets that may stand in a path as they are; those above the ASCII range are let through. -/
def isPathChar (c : Char) : Bool :=
  let n := c.toNat
  n = 0x21 || n = 0x22 || (0x24 ≤ n && n ≤ 0x3B) || n = 0x3D || (0x40 ≤ n && n ≤ 0x5F) ||
    (0x61 ≤ n && n ≤ 0x7E) || 0x7F ≤ n

def isQueryChar (c : Char) : Bool :=
  let n := c.toNat
  n = 0x21 || (0x24 ≤ n && n ≤ 0x3B) || n = 0x3D || (0x3F ≤ n && n ≤ 0x7E) || 0x80 ≤ n

def isSchemeChar (c : Char) : Bool := c.isAlphanum || c = '+' || c = '-' || c = '.'

def isAuthorityChar (c : Char) : Bool := c.isAlphanum || "!$&'()*+,-.:;=@[]_~%".toList.contains c

/-- The path and the query of the part after the authority, or of a whole target. -/
def target? (cs : List Char) : Option (List Char × Option (List Char)) :=
  let inPath (c : Char) : Bool := c ≠ '?' && c ≠ '#'
  let path := cs.takeWhile inPath
  let query := match cs.dropWhile inPath with
    | '?' :: r => some (r.takeWhile (· ≠ '#'))
    | _ => none
  if path.all isPathChar && query.all (·.all isQueryChar) then some (path, query) else none

/-- What the characters of an authority add up to. -/
structure Scan where
  colons : Nat := 0
  opened : Bool := false
  closed : Bool := false
  percent : Bool := false
  afterAt : Bool := false

/-- Colons and percent signs count again after an at sign and after a bracketed host. -/
def Scan.step (s : Scan) (c : Char) : Option Scan :=
  let s' := { s with afterAt := false }
  if ¬isAuthorityChar c then none
  else if c = ':' then (if 8 ≤ s.colons then none else some { s' with colons := s.colons + 1 })
  else if c = '[' then (if s.percent || s.opened then none else some { s' with opened := true })
  else if c = ']' then
    (if !s.opened || s.closed then none
    else some { s' with closed := true, colons := 0, percent := false })
  else if c = '@' then some { s with colons := 0, percent := false, afterAt := true }
  else if c = '%' then some { s' with percent := true }
  else some s'

def isAuthority (cs : List Char) : Bool :=
  match cs.foldlM Scan.step {} with
  | some s => s.opened == s.closed && s.colons ≤ 1 && !s.afterAt && !s.percent
  | none => false

/-- The scheme in front of a double slash, and the rest. -/
def splitScheme (cs : List Char) : Option (String × List Char) :=
  match cs.dropWhile isSchemeChar with
  | ':' :: '/' :: '/' :: rest =>
      let scheme := cs.takeWhile isSchemeChar
      let lower := String.ofList (scheme.map Char.toLower)
      if lower = "http" ∨ lower = "https" then some (lower, rest)
      else some (String.ofList scheme, rest)
  | _ => none

def maxLength : Nat := 65534

def maxScheme : Nat := 64

def parse? (text : String) : Option Uri :=
  let cs := text.toList
  if text.utf8ByteSize = 0 ∨ maxLength < text.utf8ByteSize then none
  else if text = "*" then some ⟨none, "", "*", none⟩
  else if cs.head? = some '/' then
    (target? cs).map fun (path, query) =>
      ⟨none, "", String.ofList path, query.map String.ofList⟩
  else
    match splitScheme cs with
    | none => if isAuthority cs then some ⟨none, text, "", none⟩ else none
    | some (scheme, rest) =>
        let inAuthority (c : Char) : Bool := c ≠ '/' && c ≠ '?' && c ≠ '#'
        let authority := rest.takeWhile inAuthority
        if authority = [] ∨ ¬isAuthority authority ∨ maxScheme < scheme.length then none
        else
          (target? (rest.dropWhile inAuthority)).map fun (path, query) =>
            ⟨some scheme, String.ofList authority, String.ofList path, query.map String.ofList⟩

/-- An address with a scheme always shows a path. -/
def write (u : Uri) : String :=
  let path := if u.path = "" ∧ u.scheme.isSome then "/" else u.path
  (u.scheme.map (· ++ "://")).getD "" ++ u.authority ++ path ++ (u.query.map ("?" ++ ·)).getD ""

/-- The path in front of every request; the slash at its end is dropped. -/
def base (u : Uri) : String :=
  String.ofList (u.path.toList.reverse.dropWhile (· = '/')).reverse

end Uri

end ClusterInventory
