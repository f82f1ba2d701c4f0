import ClusterInventory.Json.Basic

/-! # Plain scalars

What a scalar without quotes stands for: null, a truth value, a number, or else its own text.
-/

namespace ClusterInventory.Yaml

def isNull (s : String) : Bool :=
  s == "" || s == "~" || s == "null" || s == "Null" || s == "NULL"

def bool? (s : String) : Option Bool :=
  if s = "true" ∨ s = "True" ∨ s = "TRUE" then some true
  else if s = "false" ∨ s = "False" ∨ s = "FALSE" then some false
  else none

/-! ## Integers -/

def digit? (base : Nat) (c : Char) : Option Nat :=
  let n :=
    if c.isDigit then c.toNat - 48
    else if 'a' ≤ c ∧ c ≤ 'z' then c.toNat - 97 + 10
    else if 'A' ≤ c ∧ c ≤ 'Z' then c.toNat - 65 + 10
    else base
  if n < base then some n else none

def natural? (base : Nat) (digits : List Char) : Option Nat :=
  if digits.isEmpty then none
  else digits.foldlM (fun n c => (digit? base c).map (n * base + ·)) 0

/-- Digits after a leading zero make a text, not a number. -/
def isPadded (cs : List Char) : Bool :=
  let cs := match cs with
    | '-' :: r => r
    | '+' :: r => r
    | r => r
  match cs with
  | '0' :: c :: r => (c :: r).all Char.isDigit
  | _ => false

def magnitude? (cs : List Char) : Option Nat :=
  let based := match cs with
    | '0' :: 'x' :: r => natural? 16 r
    | '0' :: 'o' :: r => natural? 8 r
    | '0' :: 'b' :: r => natural? 2 r
    | _ => none
  based.or (if isPadded cs then none else natural? 10 cs)

/-- The first number that 128 bits cannot hold. -/
def integerLimit : Nat := Nat.pow 2 128

/-- Integers have at most 128 bits. -/
def int? (cs : List Char) : Option Int :=
  match cs with
  | '-' :: r => (magnitude? r).bind fun n => if n ≤ integerLimit / 2 then some (-(n : Int)) else none
  | '+' :: r => (magnitude? r).bind fun n => if n < integerLimit then some (n : Int) else none
  | r => (magnitude? r).bind fun n => if n < integerLimit then some (n : Int) else none

/-! ## Other numbers -/

def signedDigits? (cs : List Char) : Option Int :=
  match cs with
  | '-' :: r => (natural? 10 r).map fun n => -(n : Int)
  | '+' :: r => (natural? 10 r).map fun n => (n : Int)
  | r => (natural? 10 r).map fun n => (n : Int)

/-- Digits around an optional point, and an optional exponent; the value must be finite. -/
def decimal? (negative : Bool) (cs : List Char) : Option Double :=
  let whole := cs.takeWhile Char.isDigit
  let rest := cs.dropWhile Char.isDigit
  let (fraction, rest) := match rest with
    | '.' :: r => (r.takeWhile Char.isDigit, r.dropWhile Char.isDigit)
    | r => ([], r)
  let exponent := match rest with
    | [] => some 0
    | 'e' :: r => signedDigits? r
    | 'E' :: r => signedDigits? r
    | _ => none
  match natural? 10 (whole ++ fraction), exponent with
  | some n, some e =>
      let d := Double.ofDecimal negative n (e - fraction.length)
      if d.isFinite then some d else none
  | _, _ => none

def double? (s : String) : Option Double :=
  let special :=
    if s ∈ [".inf", ".Inf", ".INF", "+.inf", "+.Inf", "+.INF"] then
      some (Double.ofMagnitude false Double.infinite)
    else if s ∈ ["-.inf", "-.Inf", "-.INF"] then some (Double.ofMagnitude true Double.infinite)
    else if s ∈ [".nan", ".NaN", ".NAN"] then some Double.nan
    else none
  special.or (match s.toList with
    | '-' :: r => decimal? true r
    | '+' :: r => decimal? false r
    | r => decimal? false r)

def resolve (s : String) : Json :=
  if isNull s then .null
  else match bool? s with
    | some b => .bool b
    | none =>
        match int? s.toList with
        | some n => .int n
        | none =>
            if isPadded s.toList then .string s
            else match double? s with
              | some d => .double d
              | none => .string s

/-- Whether a text keeps its meaning without quotes; padded digits are quoted all the same. -/
def readsAsText (s : String) : Bool :=
  match resolve s with
  | .string _ => !isPadded s.toList
  | _ => false

end ClusterInventory.Yaml
