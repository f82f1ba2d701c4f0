import ClusterInventory.FileSystem
import ClusterInventory.Text.Blank

/-! # Certificate bundles

A bundle holds blocks. Each stands between two marks with its label and has octets in base 64,
perhaps after headers; around the blocks there may be anything. One block that cannot be read spoils
the bundle.
-/

namespace ClusterInventory

/-! ## Base 64 -/

namespace Base64

def isDigit (c : Char) : Bool := c.isAlphanum || c = '+' || c = '/'

def value (c : Char) : Nat :=
  if c.isUpper then c.toNat - 65
  else if c.isLower then c.toNat - 71
  else if c.isDigit then c.toNat + 4
  else if c = '+' then 62
  else 63

/-- The octets that groups of four characters stand for; the last group may be padded, and then its
unused bits are zero. -/
def decode? : List Char → Option Octets
  | [] => some []
  | [a, b, '=', '='] =>
      if [a, b].all isDigit ∧ value b % 16 = 0 then some [value a * 4 + value b / 16] else none
  | [a, b, c, '='] =>
      if [a, b, c].all isDigit ∧ value c % 4 = 0 then
        some [value a * 4 + value b / 16, value b % 16 * 16 + value c / 4]
      else none
  | a :: b :: c :: d :: r =>
      if [a, b, c, d].all isDigit then
        (decode? r).map ([value a * 4 + value b / 16, value b % 16 * 16 + value c / 4,
          value c % 4 * 64 + value d] ++ ·)
      else none
  | _ => none

end Base64

namespace Pem

/-! ## Frames -/

/-- Reads up to a mark, of which the octets before `found` have just been read, and over it: what
stands before the mark, and what follows. The octet at which a match breaks off is not tried as the
beginning of another one. -/
def readUntil (mark : Octets) (found : Nat) (passed : Octets) : Octets → Option (Octets × Octets)
  | [] => none
  | o :: rest =>
      let found := if mark[found]? = some o then found + 1 else 0
      if found = mark.length then some (((o :: passed).drop mark.length).reverse, rest)
      else readUntil mark found (o :: passed) rest

def cutAt (mark : String) (octets : Octets) : Option (Octets × Octets) :=
  readUntil (Octets.ofText mark) 0 [] octets

def skipBlanks (octets : Octets) : Octets := octets.dropWhile (Octets.ofText " \n\r\t").contains

structure Frame where
  opening : Octets
  body : Octets
  closing : Octets
  deriving DecidableEq, Repr

def frame? (octets : Octets) : Option (Frame × Octets) := do
  let (_, octets) ← cutAt "-----BEGIN " octets
  let (opening, octets) ← cutAt "-----" octets
  let (body, octets) ← cutAt "-----END " (skipBlanks octets)
  let (closing, octets) ← cutAt "-----" octets
  return (⟨opening, body, closing⟩, skipBlanks octets)

/-- The first frames; a frame that is not closed is none. -/
def frames : Nat → Octets → List Frame
  | 0, _ => []
  | limit + 1, octets =>
      match frame? octets with
      | some (f, rest) => f :: frames limit rest
      | none => []

/-! ## Blocks -/

structure Block where
  label : String
  content : Octets
  deriving DecidableEq, Repr

def lines (text : String) : List (List Char) :=
  let all := (Path.split '\n' [] text.toList).map String.toList
  (if all.getLast? = some [] then all.dropLast else all).map Text.trimEnd

namespace Frame

/-- The headers, which an empty line ends, and the data. -/
def parts (f : Frame) : Octets × Octets :=
  ((cutAt "\n\n" f.body).or (cutAt "\r\n\r\n" f.body)).getD ([], f.body)

def block? (f : Frame) : Option Block := do
  let label ← f.opening.text?
  let closing ← f.closing.text?
  let headers ← f.parts.1.text?
  let data ← f.parts.2.text?
  if label = "" ∨ label ≠ closing ∨ ¬(lines headers).all (·.contains ':') then none
  else return ⟨label, ← Base64.decode? (lines data).flatten⟩

end Frame

/-- The certificates of a bundle. Each frame takes up an octet at least. -/
def certificates? (octets : Octets) : Option (List Octets) := do
  let blocks ← (frames octets.length octets).mapM Frame.block?
  return (blocks.filter (·.label = "CERTIFICATE")).map Block.content

end Pem

end ClusterInventory
