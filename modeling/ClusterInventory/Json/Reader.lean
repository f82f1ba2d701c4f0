import ClusterInventory.Json.Basic

/-! # Reading JSON

A reader takes characters from the front of the text and hands back the rest. Containers nest at
most 127 deep. Integers of 64 bits stay integers; every other number becomes a binary64 number,
computed from its first digits and one power of ten.
-/

namespace ClusterInventory.Json

/-- A value and the text after it, or nothing for a text that starts with no value. -/
abbrev Read (α : Type) := Option (α × List Char)

def isBlank (c : Char) : Bool := c = ' ' || c = '\t' || c = '\n' || c = '\r'

def skipBlanks (cs : List Char) : List Char := cs.dropWhile isBlank

def digitValue (c : Char) : Nat := c.toNat - '0'.toNat

/-! ## Numbers -/

def maxWord : Nat := Nat.pow 2 64 - 1

/-- The significand takes digits as long as it fits in a word; the rest is dropped. -/
structure Significand where
  value : Nat
  taken : Nat
  dropped : Nat

/-- Once a digit does not fit, no later one is taken. -/
def Significand.push (s : Significand) (c : Char) : Significand :=
  let next := s.value * 10 + digitValue c
  if s.dropped = 0 ∧ next ≤ maxWord then { s with value := next, taken := s.taken + 1 }
  else { s with dropped := s.dropped + 1 }

def powerOfTen (n : Nat) : Double := Double.ofDecimal false 1 n

/-- Scales by powers of ten, dividing by `10 ^ 308` as often as needed; an overflow has no value. -/
def scale (f : Double) (exponent : Int) : Nat → Option Double
  | 0 => some f
  | fuel + 1 =>
      if exponent.natAbs ≤ 308 then
        if 0 ≤ exponent then
          let product := f.mul (powerOfTen exponent.natAbs)
          if product.isFinite then some product else none
        else some (f.div (powerOfTen exponent.natAbs))
      else if f.magnitude = 0 then some f
      else if 0 ≤ exponent then none
      else scale (f.div (powerOfTen 308)) (exponent + 308) fuel

def ofSignificand (negative : Bool) (significand : Nat) (exponent : Int) : Option Json :=
  let f := Double.ofDecimal false significand 0
  (scale f exponent 5).map fun d => double (Double.ofMagnitude negative d.magnitude)

def maxExponent : Nat := Nat.pow 2 31 - 1

/-- The part of a number from `e` on. -/
def readExponent (negative : Bool) (significand : Nat) (start : Int) (cs : List Char) : Read Json :=
  let (negativeExponent, cs) :=
    match cs with
    | '+' :: r => (false, r)
    | '-' :: r => (true, r)
    | r => (false, r)
  let digits := cs.takeWhile Char.isDigit
  let rest := cs.dropWhile Char.isDigit
  if digits.isEmpty then none
  else
    let value := digits.foldl (fun n c => n * 10 + digitValue c) 0
    if maxExponent < value then
      if significand ≠ 0 ∧ negativeExponent = false then none
      else some (double (Double.ofMagnitude negative 0), rest)
    else
      let exponent := if negativeExponent then start - value else start + value
      (ofSignificand negative significand exponent).map (·, rest)

def finish (negative : Bool) (significand : Nat) (exponent : Int) : List Char → Read Json
  | 'e' :: r => readExponent negative significand exponent r
  | 'E' :: r => readExponent negative significand exponent r
  | r => (ofSignificand negative significand exponent).map (·, r)

/-- The part of a number from the point on. Digits after one that was dropped count for nothing. -/
def readFraction (negative : Bool) (s : Significand) (cs : List Char) : Read Json :=
  let digits := cs.takeWhile Char.isDigit
  let rest := cs.dropWhile Char.isDigit
  if digits.isEmpty then none
  else
    let t := digits.foldl Significand.push { s with taken := 0, dropped := 0 }
    finish negative t.value ((s.dropped : Int) - t.taken) rest

def readNumber (negative : Bool) (cs : List Char) : Read Json :=
  let digits := cs.takeWhile Char.isDigit
  let rest := cs.dropWhile Char.isDigit
  match digits with
  | [] => none
  | '0' :: _ :: _ => none
  | _ =>
      let s := digits.foldl Significand.push ⟨0, 0, 0⟩
      match rest with
      | '.' :: r => readFraction negative s r
      | 'e' :: r => readExponent negative s.value s.dropped r
      | 'E' :: r => readExponent negative s.value s.dropped r
      | r =>
          if s.dropped ≠ 0 then (ofSignificand negative s.value s.dropped).map (·, r)
          else if negative = false then some (int s.value, r)
          else if s.value = 0 ∨ Nat.pow 2 63 < s.value then (ofSignificand true s.value 0).map (·, r)
          else some (int (-s.value), r)

/-! ## Strings -/

def hexValue (c : Char) : Option Nat :=
  if c.isDigit then some (c.toNat - '0'.toNat)
  else if 'a' ≤ c ∧ c ≤ 'f' then some (c.toNat - 'a'.toNat + 10)
  else if 'A' ≤ c ∧ c ≤ 'F' then some (c.toNat - 'A'.toNat + 10)
  else none

def hex4 (a b c d : Char) : Option Nat := do
  let a ← hexValue a
  let b ← hexValue b
  let c ← hexValue c
  let d ← hexValue d
  return ((a * 16 + b) * 16 + c) * 16 + d

def simpleEscape : Char → Option Char
  | '"' => some '"'
  | '\\' => some '\\'
  | '/' => some '/'
  | 'b' => some (Char.ofNat 8)
  | 'f' => some (Char.ofNat 12)
  | 'n' => some '\n'
  | 'r' => some '\r'
  | 't' => some '\t'
  | _ => none

/-- The rest of a string after its opening quote; a surrogate stands only in a pair. -/
def readString (acc : List Char) : List Char → Read String
  | [] => none
  | '"' :: r => some (String.ofList acc.reverse, r)
  | '\\' :: 'u' :: a :: b :: c :: d :: r =>
      match hex4 a b c d with
      | none => none
      | some n =>
          if 0xD800 ≤ n ∧ n < 0xDC00 then
            match r with
            | '\\' :: 'u' :: a :: b :: c :: d :: r =>
                match hex4 a b c d with
                | none => none
                | some m =>
                    if 0xDC00 ≤ m ∧ m < 0xE000 then
                      readString
                        (Char.ofNat (0x10000 + (n - 0xD800) * 0x400 + (m - 0xDC00)) :: acc) r
                    else none
            | _ => none
          else if 0xDC00 ≤ n ∧ n < 0xE000 then none
          else readString (Char.ofNat n :: acc) r
  | '\\' :: c :: r =>
      match simpleEscape c with
      | none => none
      | some e => readString (e :: acc) r
  | c :: r => if c.toNat < 32 then none else readString (c :: acc) r

/-! ## Values -/

def keyword (word : String) (value : Json) (cs : List Char) : Read Json :=
  if word.toList.isPrefixOf cs then some (value, cs.drop word.length) else none

def maxDepth : Nat := 127

mutual

/-- The fuel bounds the number of values and separators that are read. -/
def readValue (depth : Nat) : Nat → List Char → Read Json
  | 0, _ => none
  | fuel + 1, cs =>
      match skipBlanks cs with
      | [] => none
      | 'n' :: r => keyword "null" null ('n' :: r)
      | 't' :: r => keyword "true" (bool true) ('t' :: r)
      | 'f' :: r => keyword "false" (bool false) ('f' :: r)
      | '"' :: r => (readString [] r).map fun (s, r) => (string s, r)
      | '-' :: r => readNumber true r
      | '[' :: r =>
          if depth = 0 then none
          else
            match skipBlanks r with
            | ']' :: r => some (array [], r)
            | r => (readItems (depth - 1) fuel [] r).map fun (items, r) => (array items, r)
      | '\x7b' :: r =>
          if depth = 0 then none
          else
            match skipBlanks r with
            | '\x7d' :: r => some (object [], r)
            | r => (readFields (depth - 1) fuel [] r).map fun (fields, r) => (object fields, r)
      | c :: r => readNumber false (c :: r)

def readItems (depth : Nat) : Nat → List Json → List Char → Read (List Json)
  | 0, _, _ => none
  | fuel + 1, acc, cs =>
      match readValue depth fuel cs with
      | none => none
      | some (v, r) =>
          match skipBlanks r with
          | ',' :: r => readItems depth fuel (v :: acc) r
          | ']' :: r => some ((v :: acc).reverse, r)
          | _ => none

def readFields (depth : Nat) :
    Nat → List (String × Json) → List Char → Read (List (String × Json))
  | 0, _, _ => none
  | fuel + 1, acc, cs =>
      match skipBlanks cs with
      | '"' :: r =>
          match readString [] r with
          | none => none
          | some (k, r) =>
              match skipBlanks r with
              | ':' :: r =>
                  match readValue depth fuel r with
                  | none => none
                  | some (v, r) =>
                      match skipBlanks r with
                      | ',' :: r => readFields depth fuel ((k, v) :: acc) r
                      | '\x7d' :: r => some (((k, v) :: acc).reverse, r)
                      | _ => none
              | _ => none
      | _ => none

end

/-- Reads a text that holds one value and nothing else. -/
def parse? (text : String) : Option Json :=
  let cs := text.toList
  match readValue maxDepth (2 * cs.length + 2) cs with
  | some (v, r) => if (skipBlanks r).isEmpty then some v else none
  | none => none

end ClusterInventory.Json
