import ClusterInventory.Text.Blank

/-! # Points in time

A timestamp is read from a relaxed RFC 3339 text and written in UTC with whole seconds. Blanks may
stand between the parts, and a number may have fewer digits than its place; a leap second is kept.
-/

namespace ClusterInventory

structure Timestamp where
  /-- Seconds from the start of 1970; a leap second counts as the one before it. -/
  seconds : Int
  leap : Bool
  deriving DecidableEq, Repr

namespace Timestamp

/-! ## Calendar -/

def isLeapYear (y : Int) : Bool := y % 4 = 0 && (y % 100 ≠ 0 || y % 400 = 0)

def monthLength (y : Int) (m : Nat) : Nat :=
  if m = 2 then (if isLeapYear y then 29 else 28)
  else if m = 4 ∨ m = 6 ∨ m = 9 ∨ m = 11 then 30
  else 31

/-- Days from the start of 1970 to a date; years are counted from March. -/
def daysOfDate (year : Int) (month day : Nat) : Int :=
  let y := if month ≤ 2 then year - 1 else year
  let era := y / 400
  let yoe := y - era * 400
  let shifted : Int := if month ≤ 2 then month + 9 else (month : Int) - 3
  let doy := (153 * shifted + 2) / 5 + day - 1
  era * 146097 + (yoe * 365 + yoe / 4 - yoe / 100 + doy) - 719468

/-- The year, month and day of a day counted from the start of 1970. -/
def dateOfDays (days : Int) : Int × Nat × Nat :=
  let z := days + 719468
  let era := z / 146097
  let doe := z - era * 146097
  let yoe := (doe - doe / 1460 + doe / 36524 - doe / 146096) / 365
  let doy := doe - (365 * yoe + yoe / 4 - yoe / 100)
  let mp := (5 * doy + 2) / 153
  let day := doy - (153 * mp + 2) / 5 + 1
  let month := if mp < 10 then mp + 3 else mp - 9
  let year := yoe + era * 400 + (if month ≤ 2 then 1 else 0)
  (year, month.toNat, day.toNat)

/-! ## Reading -/

def skip (cs : List Char) : List Char := cs.dropWhile Text.isBlank

def value (digits : List Char) : Nat := digits.foldl (fun n c => n * 10 + (c.toNat - 48)) 0

/-- A number of one to `width` digits. -/
def number (width : Nat) (cs : List Char) : Option (Nat × List Char) :=
  let digits := (cs.take width).takeWhile Char.isDigit
  if digits.isEmpty then none else some (value digits, cs.drop digits.length)

/-- A year has up to four digits, or any number of them after a sign. -/
def readYear (cs : List Char) : Option (Int × List Char) :=
  match skip cs with
  | '-' :: r => (number r.length r).map fun (n, r) => (-(n : Int), r)
  | '+' :: r => (number r.length r).map fun (n, r) => ((n : Int), r)
  | r => (number 4 r).map fun (n, r) => ((n : Int), r)

def field (cs : List Char) : Option (Nat × List Char) := number 2 (skip cs)

def mark (c : Char) (cs : List Char) : Option (List Char) :=
  match skip cs with
  | d :: r => if d = c then some r else none
  | [] => none

/-- A fraction of a second is checked and dropped. -/
def skipFraction : List Char → Option (List Char)
  | '.' :: c :: r => if c.isDigit then some (r.dropWhile Char.isDigit) else none
  | ['.'] => none
  | r => some r

/-- The seconds by which local time is ahead. -/
def readOffset (cs : List Char) : Option (Int × List Char) :=
  match cs with
  | 'Z' :: r => some (0, r)
  | 'z' :: r => some (0, r)
  | sign :: h :: k :: r =>
      if sign ≠ '+' ∧ sign ≠ '-' ∧ sign.toNat ≠ 0x2212 then
        match cs.map Char.toUpper with
        | 'U' :: 'T' :: 'C' :: _ => some (0, r)
        | _ => none
      else if h.isDigit ∧ k.isDigit then
        match r.dropWhile fun c => c = ':' || Text.isBlank c with
        | m :: n :: r =>
            if '0' ≤ m ∧ m ≤ '5' ∧ n.isDigit then
              let offset : Int := value [h, k] * 3600 + value [m, n] * 60
              some (if sign = '+' then offset else -offset, r)
            else none
        | _ => none
      else none
  | _ => none

def maxYear : Int := 262142

def parse? (text : String) : Option Timestamp := do
  let (year, r) ← readYear text.toList
  let (month, r) ← field (← mark '-' r)
  let (day, r) ← field (← mark '-' r)
  let r ← match r with
    | 'T' :: r => some r
    | 't' :: r => some r
    | ' ' :: r => some r
    | _ => none
  let (hour, r) ← field r
  let (minute, r) ← field (← mark ':' r)
  let (second, r) ← field (← mark ':' r)
  let r ← skipFraction r
  let (offset, r) ← readOffset (skip r)
  if ¬(skip r).isEmpty then none
  else if month < 1 ∨ 12 < month ∨ day < 1 ∨ monthLength year month < day then none
  else if 24 ≤ hour ∨ 60 ≤ minute ∨ 60 < second ∨ 86400 ≤ offset.natAbs then none
  else if maxYear < year ∨ year < -maxYear - 1 then none
  else
    let clock : Int := hour * 3600 + minute * 60 + min second 59
    some ⟨daysOfDate year month day * 86400 + clock - offset, second = 60⟩

/-! ## Writing -/

def pad (width n : Nat) : String :=
  let digits := Nat.toDigits 10 n
  String.ofList (List.replicate (width - digits.length) '0' ++ digits)

/-- A year outside of four digits has a sign. -/
def writeYear (y : Int) : String :=
  if 0 ≤ y ∧ y ≤ 9999 then pad 4 y.toNat
  else (if y < 0 then "-" else "+") ++ pad 4 y.natAbs

def write (t : Timestamp) : String :=
  let (year, month, day) := dateOfDays (t.seconds / 86400)
  let clock := (t.seconds % 86400).toNat
  let second := clock % 60 + (if t.leap then 1 else 0)
  writeYear year ++ "-" ++ pad 2 month ++ "-" ++ pad 2 day ++ "T" ++ pad 2 (clock / 3600) ++ ":" ++
    pad 2 (clock / 60 % 60) ++ ":" ++ pad 2 second ++ "Z"

end Timestamp

end ClusterInventory
