import ClusterInventory.Yaml.Printer

/-! # YAML tokens

A text is cut into tokens. Besides the marks that stand in the text there are tokens for the start
and the end of block collections, which follow from indentation, and one for the start of a key,
which is known only when its colon is met and is put in front of the key then.
-/

namespace ClusterInventory.Yaml

/-- A tag is a suffix after a named handle, or given in full after an empty one. -/
structure Tag where
  handle : String
  suffix : String
  deriving DecidableEq, Repr

inductive Token where
  | streamEnd
  | versionDirective (major minor : Nat)
  | tagDirective (handle target : String)
  | documentStart
  | documentEnd
  | blockSequenceStart
  | blockMappingStart
  | blockEnd
  | flowSequenceStart
  | flowSequenceEnd
  | flowMappingStart
  | flowMappingEnd
  | blockEntry
  | flowEntry
  | key
  | value
  | alias (name : String)
  | anchor (name : String)
  | tag (tag : Tag)
  | scalar (plain : Bool) (text : String)
  deriving DecidableEq, Repr

/-! ## Cursors -/

/-- A place in the text; lines and columns are counted from zero. -/
structure Cursor where
  rest : List Char
  index : Nat
  line : Nat
  column : Nat

namespace Cursor

def skip (c : Cursor) (n : Nat) : Cursor :=
  { c with rest := c.rest.drop n, index := c.index + n, column := c.column + n }

def atBreak (c : Cursor) : Bool := c.rest.head?.any isBreak

def atEnd (c : Cursor) : Bool := c.rest.isEmpty

/-- Whether the character `n` places on is a blank, a break, or beyond the end. -/
def endsAt (c : Cursor) (n : Nat) : Bool := endsToken c.rest[n]?

def looksAt (c : Cursor) (ch : Char) : Bool := c.rest.head? == some ch

/-- Takes a line break; the usual ones are read as a line feed. -/
def takeBreak (c : Cursor) : List Char × Cursor :=
  match c.rest with
  | '\r' :: '\n' :: r => (['\n'], ⟨r, c.index + 2, c.line + 1, 0⟩)
  | ch :: r =>
      if isBreak ch then
        (if 0x2028 ≤ ch.toNat then [ch] else ['\n'], ⟨r, c.index + 1, c.line + 1, 0⟩)
      else ([], c)
  | [] => ([], c)

def takeRun (p : Char → Bool) (c : Cursor) : List Char × Cursor :=
  let run := c.rest.takeWhile fun ch => p ch && !isBreak ch
  (run, c.skip run.length)

/-- A mark of three characters at the start of a line that separates documents. -/
def atDocumentMark (c : Cursor) : Bool :=
  c.column == 0 && ("---".toList.isPrefixOf c.rest || "...".toList.isPrefixOf c.rest) && c.endsAt 3

end Cursor

def isWord (c : Char) : Bool := c.isAlphanum || c = '_' || c = '-'

/-! ## Gaps between the words of a scalar -/

/-- Blanks, or line breaks with what surrounds them. -/
structure Gap where
  blanks : List Char := []
  broken : Bool := false
  first : List Char := []
  more : List Char := []

/-- A single line break is read as a space; of several the first is dropped. -/
def Gap.text (g : Gap) : List Char :=
  if !g.broken then g.blanks
  else if g.first = ['\n'] then (if g.more.isEmpty then [' '] else g.more)
  else g.first ++ g.more

/-- Takes a gap. In a plain scalar no tab may stand left of the given column on a new line. -/
def takeGap (leftmost : Nat) (g : Gap) (c : Cursor) : Nat → Option (Gap × Cursor)
  | 0 => some (g, c)
  | fuel + 1 =>
      match c.rest with
      | [] => some (g, c)
      | ch :: _ =>
          if isBlank ch then
            if g.broken then
              if ch = '\t' && c.column < leftmost then none
              else takeGap leftmost g (c.skip 1) fuel
            else takeGap leftmost { g with blanks := g.blanks ++ [ch] } (c.skip 1) fuel
          else if isBreak ch then
            let (text, c) := c.takeBreak
            if g.broken then takeGap leftmost { g with more := g.more ++ text } c fuel
            else takeGap leftmost { g with broken := true, first := text } c fuel
          else some (g, c)

/-! ## Plain scalars -/

def isFlowMark (c : Char) : Bool := ",[]\x7b\x7d".toList.contains c

/-- A word of a plain scalar and the text after it; in a flow collection a colon must not stand
right before a mark. -/
def plainWord (inFlow : Bool) (acc : List Char) : List Char → Option (List Char)
  | [] => some acc.reverse
  | c :: r =>
      if isBlank c || isBreak c then some acc.reverse
      else if inFlow && c = ':' && r.head?.any (fun d => isFlowMark d || d = '?') then none
      else if c = ':' && endsToken r.head? then some acc.reverse
      else if inFlow && isFlowMark c then some acc.reverse
      else plainWord inFlow (c :: acc) r

/-- The text of a plain scalar, whether it ended after a line break, and the place after it. -/
def scanPlain (inFlow : Bool) (leftmost : Nat) (text : List Char) (g : Gap) (c : Cursor) :
    Nat → Option (List Char × Bool × Cursor)
  | 0 => some (text, g.broken, c)
  | fuel + 1 =>
      if c.atDocumentMark || c.looksAt '#' then some (text, g.broken, c)
      else
        match plainWord inFlow [] c.rest with
        | none => none
        | some [] => some (text, g.broken, c)
        | some word =>
            let text := text ++ g.text ++ word
            let c := c.skip word.length
            if c.atEnd || !c.endsAt 0 then some (text, false, c)
            else
              match takeGap leftmost {} c (c.rest.length + 1) with
              | none => none
              | some (g, c) =>
                  if !inFlow && c.column < leftmost then some (text, g.broken, c)
                  else scanPlain inFlow leftmost text g c fuel

/-! ## Quoted scalars -/

def hexValue (c : Char) : Option Nat := digit? 16 c

def hexNumber? (digits : List Char) : Option Nat :=
  digits.foldlM (fun n c => (hexValue c).map (n * 16 + ·)) 0

def escapes : List (Char × Nat) := [
  ('0', 0), ('a', 7), ('b', 8), ('t', 9), ('\t', 9), ('n', 10), ('v', 11), ('f', 12), ('r', 13),
  ('e', 27), (' ', 32), ('"', 34), ('/', 47), ('\\', 92), ('N', 0x85), ('_', 0xA0),
  ('L', 0x2028), ('P', 0x2029)]

def escapeWidth (c : Char) : Nat :=
  if c = 'x' then 2 else if c = 'u' then 4 else if c = 'U' then 8 else 0

/-- The character of an escape, and how many characters of the text it takes after the mark. -/
def unescape? (cs : List Char) : Option (Char × Nat) :=
  match cs with
  | [] => none
  | c :: r =>
      match escapes.lookup c with
      | some n => some (Char.ofNat n, 1)
      | none =>
          let width := escapeWidth c
          if width = 0 ∨ r.length < width then none
          else
            match hexNumber? (r.take width) with
            | some n =>
                if (0xD800 ≤ n ∧ n ≤ 0xDFFF) ∨ 0x10FFFF < n then none
                else some (Char.ofNat n, width + 1)
            | none => none

/-- How a word of a quoted scalar ends. -/
inductive WordEnd where
  | gap
  | quote
  /-- A line break that the text hides. -/
  | hidden
  deriving DecidableEq

/-- A word of a quoted scalar, how many characters it takes, and how it ends. -/
def quotedWord (quote : Char) (acc : List Char) (taken : Nat) (cs : List Char) :
    Nat → Option (List Char × Nat × WordEnd)
  | 0 => none
  | fuel + 1 =>
      match cs with
      | [] => none
      | c :: r =>
          if isBlank c || isBreak c then some (acc.reverse, taken, .gap)
          else if quote = '\'' && c = '\'' && r.head? == some '\'' then
            quotedWord quote (c :: acc) (taken + 2) (r.drop 1) fuel
          else if c = quote then some (acc.reverse, taken, .quote)
          else if quote = '"' && c = '\\' then
            if r.head?.any isBreak then some (acc.reverse, taken + 1, .hidden)
            else
              match unescape? r with
              | some (e, n) => quotedWord quote (e :: acc) (taken + 1 + n) (r.drop n) fuel
              | none => none
          else quotedWord quote (c :: acc) (taken + 1) r fuel

/-- The text of a quoted scalar after its opening quote. -/
def scanQuoted (quote : Char) (text : List Char) (c : Cursor) : Nat → Option (List Char × Cursor)
  | 0 => none
  | fuel + 1 =>
      if c.atDocumentMark then none
      else
        match quotedWord quote [] 0 c.rest (c.rest.length + 1) with
        | none => none
        | some (word, taken, ending) =>
            let text := text ++ word
            let c := c.skip taken
            match ending with
            | .quote => some (text, c.skip 1)
            | .gap =>
                (takeGap 0 {} c (c.rest.length + 1)).bind fun (g, c) =>
                  scanQuoted quote (text ++ g.text) c fuel
            | .hidden =>
                let (_, c) := c.takeBreak
                (takeGap 0 { broken := true } c (c.rest.length + 1)).bind fun (g, c) =>
                  scanQuoted quote (text ++ g.text) c fuel

/-! ## Block scalars -/

inductive Chomping where
  | strip
  | clip
  | keep
  deriving DecidableEq

/-- The header of a block: what to do with the breaks at its end, and its indentation if given. -/
def scanHeader (c : Cursor) : Option (Chomping × Option Nat × Cursor) :=
  let chomp (c : Cursor) : Option (Chomping × Cursor) :=
    if c.looksAt '+' then some (.keep, c.skip 1)
    else if c.looksAt '-' then some (.strip, c.skip 1)
    else none
  let digit (c : Cursor) : Option (Option Nat × Cursor) :=
    match c.rest.head? with
    | some d =>
        if d = '0' then none
        else if d.isDigit then some (some (d.toNat - 48), c.skip 1)
        else some (none, c)
    | none => some (none, c)
  match chomp c with
  | some (chomping, c) => (digit c).map fun (n, c) => (chomping, n, c)
  | none =>
      match digit c with
      | none => none
      | some (none, c) => some (.clip, none, c)
      | some (n, c) =>
          match chomp c with
          | some (chomping, c) => some (chomping, n, c)
          | none => some (.clip, n, c)

/-- Skips blanks and a comment to the end of the line; nothing else may stand there. -/
def skipToBreak (c : Cursor) : Option Cursor :=
  let (_, c) := c.takeRun isBlank
  let (_, c) := if c.looksAt '#' then c.takeRun fun _ => true else ([], c)
  if c.atEnd then some c else if c.atBreak then some c.takeBreak.2 else none

/-- Takes indentation and empty lines; `indent` is known or the widest indentation met is sought. -/
def takeEmptyLines (indent : Option Nat) (widest : Nat) (breaks : List Char) (c : Cursor) :
    Nat → Option (Nat × List Char × Cursor)
  | 0 => none
  | fuel + 1 =>
      let limit := indent.getD c.rest.length
      let blanks := (c.rest.take (limit - c.column)).takeWhile (· = ' ')
      let c := if indent.isNone || c.column < limit then c.skip blanks.length else c
      let widest := max widest c.column
      if (indent.isNone || c.column < limit) && c.looksAt '\t' then none
      else if c.atBreak then
        let (text, c) := c.takeBreak
        takeEmptyLines indent widest (breaks ++ text) c fuel
      else some (widest, breaks, c)

/-- The lines of a block. In a folded one a break between two lines without leading blanks is
read as a space, or dropped before an empty line. -/
def scanLines (folded : Bool) (indent : Nat) (text lineBreak breaks : List Char)
    (leadingBlank : Bool) (c : Cursor) : Nat → Option (List Char × List Char × List Char × Cursor)
  | 0 => none
  | fuel + 1 =>
      if c.column ≠ indent ∨ c.atEnd then some (text, lineBreak, breaks, c)
      else
        let blank := c.rest.head?.any isBlank
        let joint :=
          if folded && lineBreak = ['\n'] && !leadingBlank && !blank then
            (if breaks.isEmpty then [' '] else [])
          else lineBreak
        let (line, c) := c.takeRun fun _ => true
        let (lineBreak, c) := c.takeBreak
        match takeEmptyLines (some indent) 0 [] c (c.rest.length + 1) with
        | none => none
        | some (_, more, c) =>
            scanLines folded indent (text ++ joint ++ breaks ++ line) lineBreak more blank c fuel

/-- The text of a block after its mark, for the indentation of the collection around it. -/
def scanBlock (folded : Bool) (parent : Int) (c : Cursor) : Option (List Char × Cursor) := do
  let (chomping, increment, c) ← scanHeader c
  let c ← skipToBreak c
  let fuel := c.rest.length + 2
  let given := increment.map fun n => (max parent 0).toNat + n
  let (widest, breaks, c) ← takeEmptyLines given 0 [] c fuel
  let indent := given.getD (max widest (max (parent + 1) 1).toNat)
  let (text, lineBreak, breaks, c) ← scanLines folded indent [] [] breaks false c fuel
  let ending := match chomping with
    | .strip => []
    | .clip => lineBreak
    | .keep => lineBreak ++ breaks
  return (text ++ ending, c)

/-! ## Tags, anchors and directives -/

def isTagChar (verbatim : Bool) (c : Char) : Bool :=
  isWord c || ";/?:@&=+$.!~*'()".toList.contains c || (verbatim && ",[]".toList.contains c)

/-- The octets of a percent escape that make up one character. -/
def octets? (count : Nat) (cs : List Char) : Option (List Nat) :=
  match count, cs with
  | 0, _ => some []
  | n + 1, '%' :: a :: b :: r => do return (← hexNumber? [a, b]) :: (← octets? n r)
  | _, _ => none

def decodeOctets? : List Nat → Option Char
  | [a] => if a < 0x80 then some (Char.ofNat a) else none
  | a :: r =>
      if r.all fun b => 0x80 ≤ b && b < 0xC0 then
        let n := r.foldl (fun n b => n * 64 + b % 64) (a % Nat.pow 2 (6 - r.length))
        if n.isValidChar then some (Char.ofNat n) else none
      else none
  | [] => none

def octetCount (a : Nat) : Nat :=
  if a < 0x80 then 1 else if a < 0xC0 then 0 else if a < 0xE0 then 2 else if a < 0xF0 then 3
  else if a < 0xF8 then 4 else 0

def tagText (verbatim : Bool) (acc : List Char) (taken : Nat) (cs : List Char) :
    Nat → Option (List Char × Nat)
  | 0 => none
  | fuel + 1 =>
      match cs with
      | '%' :: a :: b :: r =>
          match hexNumber? [a, b] with
          | none => none
          | some n =>
              let count := octetCount n
              match (octets? count ('%' :: a :: b :: r)).bind decodeOctets? with
              | some c => tagText verbatim (c :: acc) (taken + 3 * count) (cs.drop (3 * count)) fuel
              | none => none
      | '%' :: _ => none
      | c :: r =>
          if isTagChar verbatim c then tagText verbatim (c :: acc) (taken + 1) r fuel
          else some (acc.reverse, taken)
      | [] => some (acc.reverse, taken)

def scanTagText (verbatim : Bool) (c : Cursor) : Option (List Char × Cursor) :=
  (tagText verbatim [] 0 c.rest (c.rest.length + 1)).map fun (text, n) => (text, c.skip n)

/-- A handle: an exclamation mark, perhaps with a word and a second mark. -/
def takeHandle (c : Cursor) : List Char × Cursor :=
  let word := (c.rest.drop 1).takeWhile isWord
  let c := c.skip (word.length + 1)
  if c.looksAt '!' then ('!' :: word ++ ['!'], c.skip 1) else ('!' :: word, c)

def scanTag (inFlow : Bool) (c : Cursor) : Option (Tag × Cursor) := do
  let (tag, c) ←
    if c.rest[1]? == some '<' then do
      let (suffix, c) ← scanTagText true (c.skip 2)
      if suffix.isEmpty || !c.looksAt '>' then none
      else some (Tag.mk "" (String.ofList suffix), c.skip 1)
    else
      let (handle, c) := takeHandle c
      if 1 < handle.length && handle.getLast? == some '!' then do
        let (suffix, c) ← scanTagText false c
        if suffix.isEmpty then none
        else some (Tag.mk (String.ofList handle) (String.ofList suffix), c)
      else do
        let (suffix, c) ← scanTagText false c
        let suffix := handle.drop 1 ++ suffix
        if suffix.isEmpty then some (Tag.mk "" "!", c)
        else some (Tag.mk "!" (String.ofList suffix), c)
  if c.endsAt 0 || (inFlow && c.looksAt ',') then some (tag, c) else none

def scanName (c : Cursor) : Option (String × Cursor) :=
  let (name, c) := (c.skip 1).takeRun isWord
  if name.isEmpty then none
  else if c.endsAt 0 || c.rest.head?.any ("?:,]\x7d%@\x60".toList.contains ·) then
    some (String.ofList name, c)
  else none

def scanNumber (c : Cursor) : Option (Nat × Cursor) :=
  let (digits, c) := c.takeRun Char.isDigit
  if digits.isEmpty ∨ 9 < digits.length then none
  else (natural? 10 digits).map (·, c)

def scanDirective (c : Cursor) : Option (Token × Cursor) := do
  let (name, c) := (c.skip 1).takeRun isWord
  if !c.endsAt 0 then none
  else
    let (token, c) ←
      if name = "YAML".toList then do
        let (_, c) := c.takeRun isBlank
        let (major, c) ← scanNumber c
        if !c.looksAt '.' then none
        else
          let (minor, c) ← scanNumber (c.skip 1)
          some (Token.versionDirective major minor, c)
      else if name = "TAG".toList then do
        let (_, c) := c.takeRun isBlank
        if !c.looksAt '!' then none
        else
          let (handle, c) := takeHandle c
          if handle ≠ ['!'] ∧ (handle.length = 1 ∨ handle.getLast? ≠ some '!') then none
          else
            let (blanks, c) := c.takeRun isBlank
            let (target, c) ← scanTagText true c
            if blanks.isEmpty || target.isEmpty || !c.endsAt 0 then none
            else some (Token.tagDirective (String.ofList handle) (String.ofList target), c)
      else none
    return (token, ← skipToBreak c)

/-! ## The stream -/

/-- Where a key may have started: its token counts from the start of the stream. -/
structure PossibleKey where
  token : Nat
  required : Bool
  index : Nat
  line : Nat
  column : Nat

structure Scanner where
  cursor : Cursor
  /-- The tokens so far, the last one first. -/
  tokens : List Token
  indent : Int
  indents : List Int
  keyAllowed : Bool
  /-- The possible key of the innermost flow collection, and those of the ones around it. -/
  possible : Option PossibleKey
  outer : List (Option PossibleKey)

namespace Scanner

def inFlow (s : Scanner) : Bool := !s.outer.isEmpty

def push (s : Scanner) (t : Token) : Scanner := { s with tokens := t :: s.tokens }

/-- Puts a token in front of the one of the given number. -/
def insert (s : Scanner) (number : Nat) (t : Token) : Scanner :=
  let after := s.tokens.length - number
  { s with tokens := s.tokens.take after ++ t :: s.tokens.drop after }

/-- Starts a block collection at a column further right than the ones around it. -/
def indentTo (s : Scanner) (column : Nat) (number : Nat) (t : Token) : Scanner :=
  if s.inFlow || (column : Int) ≤ s.indent then s
  else { s.insert number t with indents := s.indent :: s.indents, indent := column }

/-- Ends the block collections right of a column. -/
def dedentTo (s : Scanner) (column : Int) : Scanner :=
  if s.inFlow then s
  else
    let rec go (s : Scanner) : List Int → Scanner
      | [] => { s with indents := [] }
      | i :: r =>
          if column < s.indent then go { s.push .blockEnd with indent := i } r
          else { s with indents := i :: r }
    go s s.indents

/-- Gives up the possible key; one that had to be a key is an error. -/
def dropKey (s : Scanner) : Option Scanner :=
  if s.possible.any PossibleKey.required then none else some { s with possible := none }

/-- Gives up the possible keys that are too far behind. -/
def dropStale (s : Scanner) : Option Scanner :=
  let stale (k : PossibleKey) : Bool :=
    k.line < s.cursor.line || k.index + 1024 < s.cursor.index
  let fresh (k : Option PossibleKey) : Option (Option PossibleKey) :=
    match k with
    | some k => if stale k then (if k.required then none else some none) else some (some k)
    | none => some none
  do return { s with possible := ← fresh s.possible, outer := ← s.outer.mapM fresh }

def noteKey (s : Scanner) : Option Scanner :=
  if s.keyAllowed then do
    let s' ← s.dropKey
    let c := s.cursor
    return { s' with possible := some {
      token := s.tokens.length
      required := !s.inFlow && s.indent == (c.column : Int)
      index := c.index
      line := c.line
      column := c.column } }
  else some s

/-- Skips blanks, comments and line breaks. Tabs are blanks only where no key may start. -/
def skipBlanks (s : Scanner) : Nat → Scanner
  | 0 => s
  | fuel + 1 =>
      let c := s.cursor
      let c := if c.column = 0 ∧ c.rest.head?.any (·.toNat = 0xFEFF) then c.skip 1 else c
      let tabs := s.inFlow || !s.keyAllowed
      let (_, c) := c.takeRun fun ch => ch = ' ' || (tabs && ch = '\t')
      let (_, c) := if c.looksAt '#' then c.takeRun fun _ => true else ([], c)
      if c.atBreak then
        { s with cursor := c.takeBreak.2, keyAllowed := s.keyAllowed || !s.inFlow }.skipBlanks fuel
      else { s with cursor := c }

/-- Adds a token that stands at the cursor and takes `width` characters. -/
def mark (s : Scanner) (width : Nat) (t : Token) : Scanner :=
  { s with cursor := s.cursor.skip width }.push t

def openFlow (s : Scanner) (t : Token) : Option Scanner := do
  let s ← s.noteKey
  return { s.mark 1 t with possible := none, outer := s.possible :: s.outer, keyAllowed := true }

def closeFlow (s : Scanner) (t : Token) : Option Scanner := do
  let s ← s.dropKey
  let s := match s.outer with
    | k :: r => { s with possible := k, outer := r }
    | [] => s
  return { s.mark 1 t with keyAllowed := false }

def blockEntry (s : Scanner) : Option Scanner :=
  if !s.inFlow && !s.keyAllowed then none
  else do
    let s := s.indentTo s.cursor.column s.tokens.length .blockSequenceStart
    let s ← s.dropKey
    return { s.mark 1 .blockEntry with keyAllowed := true }

def explicitKey (s : Scanner) : Option Scanner :=
  if !s.inFlow && !s.keyAllowed then none
  else do
    let s := s.indentTo s.cursor.column s.tokens.length .blockMappingStart
    let s ← s.dropKey
    return { s.mark 1 .key with keyAllowed := !s.inFlow }

/-- A colon turns the possible key into a key. -/
def valueMark (s : Scanner) : Option Scanner :=
  match s.possible with
  | some k =>
      let s := (s.insert k.token .key).indentTo k.column k.token .blockMappingStart
      some { s.mark 1 .value with possible := none, keyAllowed := false }
  | none =>
      if s.inFlow then some { s.mark 1 .value with keyAllowed := false }
      else if !s.keyAllowed then none
      else
        let s := s.indentTo s.cursor.column s.tokens.length .blockMappingStart
        some { s.mark 1 .value with keyAllowed := true }

def documentMark (s : Scanner) (t : Token) : Option Scanner := do
  let s ← (s.dedentTo (-1)).dropKey
  return { s.mark 3 t with keyAllowed := false }

def directive (s : Scanner) : Option Scanner := do
  let s ← (s.dedentTo (-1)).dropKey
  let (t, c) ← scanDirective s.cursor
  return { s with cursor := c, keyAllowed := false }.push t

def finish (s : Scanner) : Option Scanner := do
  let s ← (s.dedentTo (-1)).dropKey
  return { s with keyAllowed := false }.push .streamEnd

def addName (s : Scanner) (t : String → Token) : Option Scanner := do
  let s ← s.noteKey
  let (name, c) ← scanName s.cursor
  return { s with cursor := c, keyAllowed := false }.push (t name)

def addTag (s : Scanner) : Option Scanner := do
  let s ← s.noteKey
  let (tag, c) ← scanTag s.inFlow s.cursor
  return { s with cursor := c, keyAllowed := false }.push (.tag tag)

def addBlock (s : Scanner) (folded : Bool) : Option Scanner := do
  let s ← s.dropKey
  let (text, c) ← scanBlock folded s.indent (s.cursor.skip 1)
  return { s with cursor := c, keyAllowed := true }.push (.scalar false (String.ofList text))

def addQuoted (s : Scanner) (quote : Char) : Option Scanner := do
  let s ← s.noteKey
  let (text, c) ← scanQuoted quote [] (s.cursor.skip 1) (s.cursor.rest.length + 1)
  return { s with cursor := c, keyAllowed := false }.push (.scalar false (String.ofList text))

def addPlain (s : Scanner) : Option Scanner := do
  let s ← s.noteKey
  let leftmost := (s.indent + 1).toNat
  let (text, broken, c) ← scanPlain s.inFlow leftmost [] {} s.cursor (s.cursor.rest.length + 1)
  return { s with cursor := c, keyAllowed := broken }.push (.scalar true (String.ofList text))

/-- Whether a plain scalar may start with the first of these characters. -/
def startsPlain (s : Scanner) (c : Char) (next : Option Char) : Bool :=
  if c = '-' then !next.any isBlank
  else if c = '?' || c = ':' then !s.inFlow && !endsToken next
  else !isBlank c && !isBreak c && !isIndicator c

/-- Goes on to the next token. -/
def settle (s : Scanner) : Option Scanner := (s.skipBlanks (s.cursor.rest.length + 1)).dropStale

/-- Adds the token at the cursor; the answer is the last one at the end of the text. -/
def dispatch (s : Scanner) : Option Scanner :=
  let c := s.cursor
  match c.rest with
  | [] => s.finish
  | ch :: _ =>
      if c.column = 0 ∧ ch = '%' then s.directive
      else if c.atDocumentMark then
        s.documentMark (if ch = '-' then .documentStart else .documentEnd)
      else if ch = '[' then s.openFlow .flowSequenceStart
      else if ch = '\x7b' then s.openFlow .flowMappingStart
      else if ch = ']' then s.closeFlow .flowSequenceEnd
      else if ch = '\x7d' then s.closeFlow .flowMappingEnd
      else if ch = ',' then do
        let s ← s.dropKey
        return { s.mark 1 .flowEntry with keyAllowed := true }
      else if ch = '-' ∧ c.endsAt 1 then s.blockEntry
      else if ch = '?' ∧ (s.inFlow || c.endsAt 1) then s.explicitKey
      else if ch = ':' ∧ (s.inFlow || c.endsAt 1) then s.valueMark
      else if ch = '*' then s.addName .alias
      else if ch = '&' then s.addName .anchor
      else if ch = '!' then s.addTag
      else if ch = '|' ∧ !s.inFlow then s.addBlock false
      else if ch = '>' ∧ !s.inFlow then s.addBlock true
      else if ch = '\'' ∨ ch = '"' then s.addQuoted ch
      else if s.startsPlain ch c.rest[1]? then s.addPlain
      else none

def step (s : Scanner) : Option Scanner :=
  s.settle.bind fun s => (s.dedentTo s.cursor.column).dispatch

def run (s : Scanner) : Nat → List Token
  | 0 => s.tokens.reverse
  | fuel + 1 =>
      match s.step with
      | none => s.tokens.reverse
      | some s =>
          if s.tokens.head? == some .streamEnd then s.tokens.reverse else s.run fuel

end Scanner

def isAllowed (c : Char) : Bool :=
  let n := c.toNat
  n = 0x09 || n = 0x0A || n = 0x0D || (0x20 ≤ n && n ≤ 0x7E) || n = 0x85 ||
    (0xA0 ≤ n && n ≤ 0xFFFD) || 0x10000 ≤ n

namespace Token

/-- The tokens of a text, up to the end of the stream or to an error. -/
def ofText (text : String) : List Token :=
  let cs := text.toList
  let cs := if cs.head?.any (·.toNat = 0xFEFF) then cs.drop 1 else cs
  if cs.all isAllowed then
    let start : Scanner := ⟨⟨cs, 0, 0, 0⟩, [], -1, [], true, none, []⟩
    start.run (cs.length + 2)
  else []

end Token

end ClusterInventory.Yaml
