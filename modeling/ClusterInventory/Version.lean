/-! # API versions

Versions are ranked: stable ones first, then beta, then alpha, each by falling numbers, and all
other texts last in alphabetical order.
-/

namespace ClusterInventory

inductive Version where
  | stable (major : Nat)
  | beta (major : Nat) (minor : Option Nat)
  | alpha (major : Nat) (minor : Option Nat)
  | other (text : String)
  deriving DecidableEq, Repr

namespace Version

def wordLimit : Nat := Nat.pow 2 32

def value (digits : List Char) : Nat := digits.foldl (fun n c => n * 10 + (c.toNat - 48)) 0

/-- A number of 32 bits; it may begin with a plus sign. -/
def number? (cs : List Char) : Option Nat :=
  let digits := match cs with
    | '+' :: r => r
    | r => r
  if digits ≠ [] ∧ digits.all Char.isDigit ∧ value digits < wordLimit then some (value digits)
  else none

/-- The number after the name of an early stage; it may be missing. -/
def minor? (cs : List Char) : Option (Option Nat) :=
  if cs = [] then some none else (number? cs).map some

def parse? (cs : List Char) : Option Version :=
  match cs with
  | 'v' :: r =>
      let digits := r.takeWhile Char.isDigit
      let rest := r.dropWhile Char.isDigit
      if digits = [] ∨ wordLimit ≤ value digits then none
      else if rest = [] then some (stable (value digits))
      else if "alpha".toList.isPrefixOf rest then
        (minor? (rest.drop 5)).map (alpha (value digits))
      else if "beta".toList.isPrefixOf rest then
        (minor? (rest.drop 4)).map (beta (value digits))
      else none
  | _ => none

def ofText (text : String) : Version := (parse? text.toList).getD (other text)

def stage : Version → Nat
  | stable _ => 3
  | beta .. => 2
  | alpha .. => 1
  | other _ => 0

/-- No minor number ranks below zero. -/
def numbers : Version → Nat × Nat
  | stable n => (n, 0)
  | beta n m => (n, m.elim 0 (· + 1))
  | alpha n m => (n, m.elim 0 (· + 1))
  | other _ => (0, 0)

def before : Version → Version → Bool
  | other a, other b => decide (a ≤ b)
  | a, b =>
      if a.stage ≠ b.stage then b.stage < a.stage
      else if a.numbers.1 ≠ b.numbers.1 then b.numbers.1 < a.numbers.1
      else b.numbers.2 ≤ a.numbers.2

end Version

end ClusterInventory
