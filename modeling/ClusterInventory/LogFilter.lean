import ClusterInventory.Log

/-! # Log filters

A filter is a list of directives. Each gives the highest level that is shown for the components
whose names begin with its target; the longest target counts, and of one target the last directive.
-/

namespace ClusterInventory

/-- A directive without a level shows nothing. -/
structure Directive where
  target : String
  level : Option Level
  deriving DecidableEq, Repr

abbrev LogFilter := List Directive

namespace LogFilter

def splitAt (c : Char) (acc : List Char) : List Char → List (List Char)
  | [] => [acc.reverse]
  | d :: r => if d = c then acc.reverse :: splitAt c [] r else splitAt c (d :: acc) r

/-- Levels are known by name in any case of letters, and by number. -/
def level? (cs : List Char) : Option (Option Level) :=
  match String.ofList (cs.map Char.toLower) with
  | "off" => some none
  | "0" => some none
  | "error" => some (some .error)
  | "1" => some (some .error)
  | "warn" => some (some .warn)
  | "2" => some (some .warn)
  | "info" => some (some .info)
  | "3" => some (some .info)
  | "debug" => some (some .debug)
  | "4" => some (some .debug)
  | "trace" => some (some .trace)
  | "5" => some (some .trace)
  | _ => none

def isTargetChar (c : Char) : Bool :=
  c.isAlphanum || c = '_' || c = '-' || c = ':' || 0x80 ≤ c.toNat

/-- A level alone is for every component; a target alone shows everything. -/
def directive? (cs : List Char) : Option Directive :=
  match level? cs with
  | some l => some ⟨"", l⟩
  | none =>
      let target := cs.takeWhile (· ≠ '=')
      if target = [] ∨ ¬target.all isTargetChar then none
      else
        match cs.dropWhile (· ≠ '=') with
        | [] => some ⟨String.ofList target, some .trace⟩
        | ['='] => some ⟨String.ofList target, some .trace⟩
        | _ :: l => (level? l).map fun l => ⟨String.ofList target, l⟩

/-- Reads a comma separated list. Where nothing is listed only errors are shown. -/
def parse? (text : String) : Option LogFilter :=
  if text = "" then some [⟨"", some .error⟩]
  else (splitAt ',' [] text.toList).mapM directive?

/-- The directives of an application: its own components show details, its clients only errors. -/
def defaultDirectives (application : String) : String :=
  let name := String.ofList (application.toList.map fun c => if c = '-' then '_' else c)
  "warn," ++ name ++ "=debug," ++ name ++ "_kube=debug," ++ name ++
    "_config=debug,kube=error,kube_client=error"

/-- The filter of an environment variable; one that cannot be read does not count. -/
def ofVariable (application : String) (value : Option String) : LogFilter :=
  ((value.bind parse?).or (parse? (defaultDirectives application))).getD []

def matching (f : LogFilter) (target : String) : LogFilter :=
  f.filter fun d => d.target.toList.isPrefixOf target.toList

/-- The directive with the longest target, and of equal ones the last. -/
def deciding (f : LogFilter) (target : String) : Option Directive :=
  (f.matching target).foldl (fun best d =>
    match best with
    | some b => if b.target.length ≤ d.target.length then some d else some b
    | none => some d) none

def shows (f : LogFilter) (r : Record) : Bool :=
  match f.deciding r.target with
  | some ⟨_, some l⟩ => r.level.rank ≤ l.rank
  | _ => false

end LogFilter

end ClusterInventory
