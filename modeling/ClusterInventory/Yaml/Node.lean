import ClusterInventory.Yaml.Token

/-! # YAML documents

The tokens of a text make up a sequence of documents, each with one node at its root. An alias is
replaced by the node that it names; inside of that very node it stands for a node without an end.
-/

namespace ClusterInventory.Yaml

inductive Node where
  | scalar (tag : Option String) (plain : Bool) (text : String)
  | sequence (items : List Node)
  | mapping (entries : List (Node × Node))
  /-- The collection around an alias of it. -/
  | endless
  deriving Inhabited

namespace Node

/-- A node that is left out. -/
def empty : Node := scalar none true ""

end Node

/-! ## Tags -/

/-- What the handles of tags stand for. -/
abbrev Handles := List (String × String)

def standardHandles : Handles := [("!", "!"), ("!!", "tag:yaml.org,2002:")]

/-- The full text of a tag; a handle must be known. A lone exclamation mark says nothing. -/
def Tag.resolve? (handles : Handles) (t : Tag) : Option (Option String) :=
  let full :=
    if t.handle = "" then some t.suffix else (handles.lookup t.handle).map (· ++ t.suffix)
  full.map fun s => if s = "!" then none else some s

/-! ## Nodes -/

/-- The tokens that are left and the anchors so far, the last one first and each with a number. -/
structure Composer where
  tokens : List Token
  anchors : List (String × Nat × Node)

namespace Composer

def anchor (s : Composer) (name : Option String) (n : Node) : Composer :=
  match name with
  | some name => { s with anchors := (name, s.anchors.length, n) :: s.anchors }
  | none => s

/-- Gives the anchor of a number its node. -/
def settle (s : Composer) (name : Option String) (number : Nat) (n : Node) : Composer :=
  match name with
  | some _ =>
      { s with anchors := s.anchors.map fun (k, i, m) => (k, i, if i = number then n else m) }
  | none => s

def take (s : Composer) (tokens : List Token) : Composer := { s with tokens }

/-- An anchor and a tag in front of a node, in any order. -/
def properties : List Token → Option String × Option Tag × List Token
  | .anchor a :: .tag t :: r => (some a, some t, r)
  | .tag t :: .anchor a :: r => (some a, some t, r)
  | .anchor a :: r => (some a, none, r)
  | .tag t :: r => (none, some t, r)
  | r => (none, none, r)

def endsBlockNode : Option Token → Bool
  | some .key => true
  | some .value => true
  | some .blockEnd => true
  | _ => false

def endsEntry : Option Token → Bool
  | some .blockEntry => true
  | some .blockEnd => true
  | _ => false

def endsIndentless (t : Option Token) : Bool := t == some .blockEntry || endsBlockNode t

mutual

/-- A node; `block` allows block collections, `indentless` a list at the column of its key. -/
def node (handles : Handles) (block indentless : Bool) (s : Composer) :
    Nat → Option (Node × Composer)
  | 0 => none
  | fuel + 1 =>
      match s.tokens with
      | .alias name :: r => (s.anchors.lookup name).map fun (_, n) => (n, s.take r)
      | tokens =>
          let (name, tag, tokens) := properties tokens
          match (tag.map (Tag.resolve? handles)).getD (some none) with
          | none => none
          | some resolved =>
              let number := s.anchors.length
              let inside := (s.take (tokens.drop 1)).anchor name .endless
              let close (found : Option (Node × Composer)) : Option (Node × Composer) :=
                found.map fun (n, s) => (n, s.settle name number n)
              match tokens with
              | .scalar plain text :: r =>
                  let n := Node.scalar resolved plain text
                  some (n, (s.take r).anchor name n)
              | .flowSequenceStart :: _ =>
                  close (flowSequence handles true [] inside fuel)
              | .flowMappingStart :: _ =>
                  close (flowMapping handles true [] inside fuel)
              | .blockSequenceStart :: _ =>
                  if block then close (blockSequence handles [] inside fuel) else none
              | .blockMappingStart :: _ =>
                  if block then close (blockMapping handles [] inside fuel) else none
              | .blockEntry :: _ =>
                  if indentless then
                    close (indentlessSequence handles [] (inside.take tokens) fuel)
                  else if name.isSome || tag.isSome then emptyNode name resolved (s.take tokens)
                  else none
              | _ =>
                  if (name.isSome || tag.isSome) && !tokens.isEmpty then
                    emptyNode name resolved (s.take tokens)
                  else none
where
  emptyNode (name : Option String) (tag : Option String) (s : Composer) :
      Option (Node × Composer) :=
    some (.scalar tag true "", s.anchor name (.scalar tag true ""))

def blockSequence (handles : Handles) (acc : List Node) (s : Composer) :
    Nat → Option (Node × Composer)
  | 0 => none
  | fuel + 1 =>
      match s.tokens with
      | .blockEnd :: r => some (.sequence acc.reverse, s.take r)
      | .blockEntry :: r =>
          if endsEntry r.head? then blockSequence handles (.empty :: acc) (s.take r) fuel
          else
            match node handles true false (s.take r) fuel with
            | some (n, s) => blockSequence handles (n :: acc) s fuel
            | none => none
      | _ => none

def indentlessSequence (handles : Handles) (acc : List Node) (s : Composer) :
    Nat → Option (Node × Composer)
  | 0 => none
  | fuel + 1 =>
      match s.tokens with
      | .blockEntry :: r =>
          if endsIndentless r.head? then indentlessSequence handles (.empty :: acc) (s.take r) fuel
          else
            match node handles true false (s.take r) fuel with
            | some (n, s) => indentlessSequence handles (n :: acc) s fuel
            | none => none
      | [] => none
      | _ => some (.sequence acc.reverse, s)

def blockMapping (handles : Handles) (acc : List (Node × Node)) (s : Composer) :
    Nat → Option (Node × Composer)
  | 0 => none
  | fuel + 1 =>
      match s.tokens with
      | .blockEnd :: r => some (.mapping acc.reverse, s.take r)
      | .key :: r =>
          let key :=
            if endsBlockNode r.head? then some (Node.empty, s.take r)
            else node handles true true (s.take r) fuel
          match key with
          | none => none
          | some (k, s) =>
              match s.tokens with
              | .value :: r =>
                  if endsBlockNode r.head? then
                    blockMapping handles ((k, .empty) :: acc) (s.take r) fuel
                  else
                    match node handles true true (s.take r) fuel with
                    | some (v, s) => blockMapping handles ((k, v) :: acc) s fuel
                    | none => none
              | [] => none
              | _ => blockMapping handles ((k, .empty) :: acc) s fuel
      | _ => none

/-- The entries of a flow sequence; one with a key is a mapping of its own. -/
def flowSequence (handles : Handles) (first : Bool) (acc : List Node) (s : Composer) :
    Nat → Option (Node × Composer)
  | 0 => none
  | fuel + 1 =>
      let start :=
        match s.tokens with
        | .flowSequenceEnd :: _ => some s
        | .flowEntry :: r => if first then some s else some (s.take r)
        | _ => if first then some s else none
      match start with
      | none => none
      | some s =>
          match s.tokens with
          | .flowSequenceEnd :: r => some (.sequence acc.reverse, s.take r)
          | .key :: r =>
              match flowPair handles (s.take r) fuel with
              | some (k, v, s) => flowSequence handles false (.mapping [(k, v)] :: acc) s fuel
              | none => none
          | _ =>
              match node handles false false s fuel with
              | some (n, s) => flowSequence handles false (n :: acc) s fuel
              | none => none

/-- A single key and its value inside of a flow sequence. -/
def flowPair (handles : Handles) (s : Composer) : Nat → Option (Node × Node × Composer)
  | 0 => none
  | fuel + 1 =>
      let key :=
        match s.tokens with
        | .value :: r => some (Node.empty, s.take r)
        | .flowEntry :: r => some (Node.empty, s.take r)
        | .flowSequenceEnd :: r => some (Node.empty, s.take r)
        | _ => node handles false false s fuel
      match key with
      | none => none
      | some (k, s) =>
          match s.tokens with
          | .value :: .flowEntry :: r => some (k, .empty, s.take (.flowEntry :: r))
          | .value :: .flowSequenceEnd :: r => some (k, .empty, s.take (.flowSequenceEnd :: r))
          | .value :: r =>
              match node handles false false (s.take r) fuel with
              | some (v, s) => some (k, v, s)
              | none => none
          | [] => none
          | _ => some (k, .empty, s)

def flowMapping (handles : Handles) (first : Bool) (acc : List (Node × Node)) (s : Composer) :
    Nat → Option (Node × Composer)
  | 0 => none
  | fuel + 1 =>
      let start :=
        match s.tokens with
        | .flowMappingEnd :: _ => some s
        | .flowEntry :: r => if first then some s else some (s.take r)
        | _ => if first then some s else none
      match start with
      | none => none
      | some s =>
          match s.tokens with
          | .flowMappingEnd :: r => some (.mapping acc.reverse, s.take r)
          | .key :: r =>
              let key :=
                match r with
                | .value :: _ => some (Node.empty, s.take r)
                | .flowEntry :: _ => some (Node.empty, s.take r)
                | .flowMappingEnd :: _ => some (Node.empty, s.take r)
                | _ => node handles false false (s.take r) fuel
              match key with
              | none => none
              | some (k, s) =>
                  match s.tokens with
                  | .value :: .flowEntry :: r =>
                      flowMapping handles false ((k, .empty) :: acc) (s.take (.flowEntry :: r)) fuel
                  | .value :: .flowMappingEnd :: r =>
                      flowMapping handles false ((k, .empty) :: acc)
                        (s.take (.flowMappingEnd :: r)) fuel
                  | .value :: r =>
                      match node handles false false (s.take r) fuel with
                      | some (v, s) => flowMapping handles false ((k, v) :: acc) s fuel
                      | none => none
                  | _ => flowMapping handles false ((k, .empty) :: acc) s fuel
          | _ =>
              match node handles false false s fuel with
              | some (k, s) => flowMapping handles false ((k, .empty) :: acc) s fuel
              | none => none

end

end Composer

/-! ## Documents -/

/-- The handles that the directives of a document define, and the tokens after them. -/
def directives (version : Bool) (handles : Handles) : List Token → Option (Handles × List Token)
  | .versionDirective major minor :: r =>
      if version ∨ major ≠ 1 ∨ (minor ≠ 1 ∧ minor ≠ 2) then none
      else directives true handles r
  | .tagDirective handle target :: r =>
      if (handles.lookup handle).isSome then none
      else directives version ((handle, target) :: handles) r
  | r => some (handles, r)

def isBoundary : Option Token → Bool
  | some (.versionDirective ..) => true
  | some (.tagDirective ..) => true
  | some .documentStart => true
  | some .documentEnd => true
  | some .streamEnd => true
  | _ => false

def root (handles : Handles) (tokens : List Token) : Option (Node × List Token) :=
  if isBoundary tokens.head? then some (.empty, tokens)
  else
    (Composer.node handles true false ⟨tokens, []⟩ (4 * tokens.length + 8)).map fun (n, s) =>
      (n, s.tokens)

/-- The documents after the start of the stream or after another document. The last one is missing
where the text has an error. -/
def documents (first : Bool) (tokens : List Token) : Nat → List (Option Node)
  | 0 => [none]
  | fuel + 1 =>
      let tokens := if first then tokens else tokens.dropWhile (· == .documentEnd)
      if tokens.head? == some .streamEnd then []
      else
        let content :=
          if first && (tokens.head? == some .documentEnd || !isBoundary tokens.head?) then
            (Composer.node standardHandles true false ⟨tokens, []⟩ (4 * tokens.length + 8)).map
              fun (n, s) => (n, s.tokens)
          else
            match directives false [] tokens with
            | some (own, .documentStart :: r) => root (own ++ standardHandles) r
            | _ => none
        match content with
        | none => [none]
        | some (_, []) => [none]
        | some (n, .documentEnd :: r) => some n :: documents false r fuel
        | some (n, r) => some n :: documents false r fuel

namespace Node

/-- All documents of a text; an empty text is one empty document. -/
def documentsOf (text : String) : List (Option Node) :=
  let tokens := Token.ofText text
  match documents true tokens (tokens.length + 1) with
  | [] => [some .empty]
  | l => l

/-- The root of a text with no more than one document. -/
def ofText? (text : String) : Option Node :=
  match documentsOf text with
  | [some n] => some n
  | _ => none

/-! ## Reading documents of a fixed shape -/

/-- The text of a scalar, however it is written. -/
def text? : Node → Option String
  | scalar _ _ text => some text
  | _ => none

/-- A plain scalar without any text stands for a collection without entries. -/
def items? : Node → Option (List Node)
  | sequence items => some items
  | scalar _ true "" => some []
  | _ => none

def texts? (n : Node) : Option (List String) := n.items?.bind fun l => l.mapM text?

/-- The entries of a mapping by the text of their keys. -/
def entries? : Node → Option (List (String × Node))
  | mapping entries => entries.mapM fun (k, v) => k.text?.map (·, v)
  | scalar _ true "" => some []
  | _ => none

/-- An entry that may be missing but must not be repeated. -/
def entry? (key : String) (entries : List (String × Node)) : Option (Option Node) :=
  match entries.filter fun e => e.1 == key with
  | [] => some none
  | [(_, v)] => some (some v)
  | _ => none

end Node

end ClusterInventory.Yaml
