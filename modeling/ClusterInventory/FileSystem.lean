import ClusterInventory.Json.Basic

/-! # File systems

A file system is a value: directories and files at their places. A path leads to a place name by
name, and each name counts only in a directory that is there. Every operation answers as a system
call would, and says what the file system is afterwards.
-/

namespace ClusterInventory

inductive IoError where
  | notFound
  | isADirectory
  | notADirectory
  | alreadyExists
  /-- The content is no text. -/
  | invalidData
  deriving DecidableEq, Repr

/-- The names on the way to an entry. A path from the root begins with the name `/`, and any other
starts at the working directory. -/
abbrev Path := List String

/-- Where an entry is: the directories around it and its own name. Two dots stand only at the
beginning, for the directories above the working directory. -/
abbrev Place := List String

namespace Path

def split (c : Char) (acc : List Char) : List Char → List String
  | [] => [String.ofList acc.reverse]
  | d :: r =>
      if d = c then String.ofList acc.reverse :: split c [] r else split c (d :: acc) r

def ofText (text : String) : Path :=
  match split '/' [] text.toList with
  | [""] => []
  | "" :: rest => "/" :: rest
  | names => names

/-- A name that leads nowhere else. -/
def isIdle (name : String) : Bool := name == "" || name == "."

/-- The path of the directory around what a path leads to. -/
def directory : Path → Path
  | [] => []
  | name :: rest => if rest.all isIdle then [] else name :: directory rest

def bare : Path → Path
  | [] => []
  | name :: rest => if rest.all (· == "") then [name] else name :: bare rest

/-- Puts a relative path after a directory; an absolute one stands alone. -/
def join (directory name : String) : String :=
  if name.toList.head? = some '/' ∨ directory = "" then name
  else if directory.toList.getLast? = some '/' then directory ++ name
  else directory ++ "/" ++ name

end Path

namespace Place

def root : Place := ["/"]

/-- Whether a place is the working directory or above it. -/
def isAbove (place : Place) : Bool := place.all (· == "..")

/-- The directory around a place; the root is its own. -/
def parent (place : Place) : Place :=
  if place = root then root else if place.isAbove then place ++ [".."] else place.dropLast

/-- Where a name leads to from a directory. -/
def next (place : Place) (name : String) : Place :=
  if Path.isIdle name then place
  else if name = ".." then place.parent
  else place ++ [name]

end Place

abbrev Octets := List Nat

namespace Octets

def ofText (s : String) : Octets := s.toUTF8.toList.map UInt8.toNat

def text? (octets : Octets) : Option String :=
  String.fromUTF8? ⟨(octets.map UInt8.ofNat).toArray⟩

end Octets

inductive Content where
  | text (s : String)
  /-- Octets that are no text. -/
  | binary (octets : Octets)
  deriving DecidableEq, Repr

def Content.octets : Content → Octets
  | text s => .ofText s
  | binary octets => octets

inductive Entry where
  | file (content : Content)
  | directory
  deriving DecidableEq, Repr

/-- The entries below the root and the working directory, each place once. -/
structure FileSystem where
  entries : List (Place × Entry)
  deriving DecidableEq, Repr, Inhabited

namespace FileSystem

def find? (fs : FileSystem) (place : Place) : Option Entry :=
  if place.isAbove || place = Place.root then some .directory else fs.entries.lookup place

def put (fs : FileSystem) (place : Place) (entry : Entry) : FileSystem :=
  ⟨(place, entry) :: fs.entries.filter fun e => e.1 ≠ place⟩

/-- Follows names from a place; there must be a directory wherever one is followed. -/
def walk (fs : FileSystem) (here : Place) : Path → Except IoError Place
  | [] => .ok here
  | name :: rest =>
      match fs.find? here with
      | some .directory => fs.walk (here.next name) rest
      | some (.file _) => .error .notADirectory
      | none => .error .notFound

/-- The place that a path leads to; there need not be anything. -/
def locate (fs : FileSystem) (path : Path) : Except IoError Place :=
  if path = [] then .error .notFound else fs.walk [] path

def entry (fs : FileSystem) (path : Path) : Except IoError Entry := do
  match fs.find? (← fs.locate path) with
  | some e => .ok e
  | none => .error .notFound

def read (fs : FileSystem) (path : Path) : Except IoError String :=
  match fs.entry path with
  | .error e => .error e
  | .ok .directory => .error .isADirectory
  | .ok (.file (.text s)) => .ok s
  | .ok (.file (.binary _)) => .error .invalidData

/-- Makes a file hold a text; the directory must be there. -/
def write (fs : FileSystem) (path : Path) (text : String) : Except IoError FileSystem := do
  let place ← fs.locate path.bare
  if path ≠ path.bare ∨ fs.find? place = some .directory then .error .isADirectory
  else return fs.put place (.file (.text text))

/-- Makes every directory on the way of a path. Those that were made before a failure stay. A file
in the way says that it is there only if it has the last name, or if something was made already. -/
def makeFrom (fs : FileSystem) (made : Bool) (here : Place) :
    Path → Except IoError Unit × FileSystem
  | [] => (.ok (), fs)
  | name :: rest =>
      let place := here.next name
      match fs.find? place with
      | some .directory => fs.makeFrom made place rest
      | some (.file _) =>
          (.error (if made || rest.all Path.isIdle then .alreadyExists else .notADirectory), fs)
      | none => (fs.put place .directory).makeFrom true place rest

def makeDirectories (fs : FileSystem) (path : Path) : Except IoError Unit × FileSystem :=
  fs.makeFrom false [] path

def withFile (fs : FileSystem) (path : Path) (content : Content) : FileSystem :=
  let fs := (fs.makeDirectories path.directory).2
  match fs.locate path with
  | .ok place => fs.put place (.file content)
  | .error _ => fs

def files (fs : FileSystem) : List Place :=
  fs.entries.filterMap fun (place, e) => match e with
    | .file _ => some place
    | .directory => none

end FileSystem

/-! ## Environments -/

abbrev Environment := List (String × String)

def Environment.home (env : Environment) : Option String := env.lookup "HOME"

end ClusterInventory
