import ClusterInventory.Server

/-! # Requests and replies on the wire

A request asks for one path and ends the connection; its reply is a status, header lines, an empty
line and a body that ends with the connection.
-/

namespace ClusterInventory.Http

def lineEnd : String := "\r\n"

def requestText (host path : String) : String :=
  "GET " ++ path ++ " HTTP/1.0" ++ lineEnd ++ "Host: " ++ host ++ lineEnd ++
    "Accept: application/json" ++ lineEnd ++ lineEnd

/-- What stands after the first empty line. -/
def bodyOf : List Char → List Char
  | '\r' :: '\n' :: '\r' :: '\n' :: r => r
  | _ :: r => bodyOf r
  | [] => []

def statusOf (cs : List Char) : Option Nat :=
  let digits := ((cs.dropWhile (· ≠ ' ')).drop 1).take 3
  if digits.length = 3 ∧ digits.all Char.isDigit then
    some (digits.foldl (fun n c => n * 10 + (c.toNat - 48)) 0)
  else none

def answerOf (reply : String) : Answer :=
  let cs := reply.toList
  match statusOf cs with
  | some status => .reply status (String.ofList (bodyOf cs))
  | none => .unreachable "client error (SendRequest)"

/-- The host and the port that an authority names; the port may be left out. -/
def hostAndPort (authority : String) : String × Nat :=
  let cs := authority.toList
  let host := cs.takeWhile (· ≠ ':')
  let digits := (cs.dropWhile (· ≠ ':')).drop 1
  let port := digits.foldl (fun n c => n * 10 + (c.toNat - 48)) 0
  (String.ofList host, if digits = [] then 80 else port)

end ClusterInventory.Http
