import JobConsole.Files.Error
import JobConsole.Files.Path

/-! # File systems

A file system maps locations, which are the names from the root down, to directories, files, symbolic
links and devices. Paths are resolved name by name: a link is replaced by its target, a dot stays, a
double dot goes up, and every step must start in a directory. At most forty links are followed.

Names are texts. Names whose octets are no UTF-8 are left out, and with them the marks that would stand
in a listing for what cannot be read.
-/

namespace JobConsole

/-- The names from the root down. -/
abbrev Location := List String

inductive Device where
  | sink
  | zeros
  deriving DecidableEq, Repr

inductive Entry where
  | directory
  | file (content : List UInt8)
  | link (target : String)
  | device (d : Device)
  /-- An installed command. -/
  | command (name : String)
  deriving DecidableEq, Repr

structure FileSystem where
  /-- Everything below the root. -/
  entries : List (Location × Entry)
  /-- The directory that relative paths start from. -/
  current : Location

namespace FileSystem

def maxLinks : Nat := 40

def maxNameBytes : Nat := 255

def maxPathBytes : Nat := 4095

def entry? (fs : FileSystem) (l : Location) : Option Entry :=
  if l = [] then some .directory else fs.entries.lookup l

/-- Where a path leads. -/
inductive Place where
  /-- Something is there. -/
  | taken (l : Location)
  /-- Only the last name is missing; it may be followed by a separator. -/
  | vacant (l : Location) (slash : Bool)
  deriving DecidableEq, Repr

/-- Follows names from a location up to a link; `jump` goes on there, from the location of the link,
with its target and the names behind it. With `follow` a link in last place is followed too. -/
def walkWith (fs : FileSystem) (follow : Bool)
    (jump : Location → String → List String → Except FileError Place) (l : Location) :
    List String → Except FileError Place
  | [] => .ok (.taken l)
  | s :: rest =>
    if fs.entry? l ≠ some .directory then .error .notDirectory
    else if s = "" ∨ s = "." then walkWith fs follow jump l rest
    else if s = ".." then walkWith fs follow jump l.dropLast rest
    else if maxNameBytes < s.utf8ByteSize then .error .nameTooLong
    else
      match fs.entry? (l ++ [s]) with
      | none =>
        if rest = [] then .ok (.vacant (l ++ [s]) false)
        else if rest.all (· = "") then .ok (.vacant (l ++ [s]) true)
        else .error .missing
      | some (.link target) =>
        if rest = [] ∧ follow = false then .ok (.taken (l ++ [s]))
        else jump l target rest
      | some _ => walkWith fs follow jump (l ++ [s]) rest

/-- Follows names from a location through so many links. -/
def walk (fs : FileSystem) (follow : Bool) :
    Nat → Location → List String → Except FileError Place
  | 0 => walkWith fs follow fun _ _ _ => .error .tooManyLinks
  | n + 1 =>
    walkWith fs follow fun l target rest =>
      if target = "" then .error .missing
      else
        let start := if Path.isAbsolute target then [] else l
        walk fs follow n start (Path.pieces target ++ rest)

def place (fs : FileSystem) (follow : Bool) (p : String) : Except FileError Place :=
  if p.toList.contains '\x00' then .error .nul
  else if p = "" then .error .missing
  else if maxPathBytes < p.utf8ByteSize then .error .nameTooLong
  else fs.walk follow maxLinks (if Path.isAbsolute p then [] else fs.current) (Path.pieces p)

/-- The location that a path leads to through links. -/
def find (fs : FileSystem) (p : String) : Except FileError Location :=
  match fs.place true p with
  | .ok (.taken l) => .ok l
  | .ok (.vacant ..) => .error .missing
  | .error e => .error e

/-- What a path leads to through links. -/
def stat (fs : FileSystem) (p : String) : Except FileError Entry :=
  match fs.find p with
  | .error e => .error e
  | .ok l =>
    match fs.entry? l with
    | some e => .ok e
    | none => .error .missing

def isDirectory (fs : FileSystem) (p : String) : Bool :=
  match fs.stat p with
  | .ok .directory => true
  | _ => false

/-- The content of the regular file that a path leads to. -/
def readFile (fs : FileSystem) (p : String) : Option (List UInt8) :=
  match fs.stat p with
  | .ok (.file content) => some content
  | _ => none

def fileSize? (fs : FileSystem) (p : String) : Option Nat := (fs.readFile p).map List.length

/-- The names directly in the directory `l`. -/
def namesIn (fs : FileSystem) (l : Location) : List String :=
  fs.entries.filterMap fun e => if e.1.dropLast = l then e.1.getLast? else none

/-- The names in a directory, in no particular order. -/
def readDirectory (fs : FileSystem) (p : String) : Except FileError (List String) :=
  match fs.find p with
  | .error e => .error e
  | .ok l =>
    match fs.entry? l with
    | some .directory => .ok (fs.namesIn l)
    | _ => .error .notDirectory

/-! ## Changing -/

def set (fs : FileSystem) (l : Location) (e : Entry) : FileSystem :=
  { fs with entries := fs.entries.filter (·.1 ≠ l) ++ [(l, e)] }

def removeTree (fs : FileSystem) (l : Location) : FileSystem :=
  { fs with entries := fs.entries.filter fun e => !l.isPrefixOf e.1 }

def makeDirectory (fs : FileSystem) (p : String) : Except FileError FileSystem :=
  match fs.place false p with
  | .error e => .error e
  | .ok (.taken _) => .error .alreadyExists
  | .ok (.vacant l _) => .ok (fs.set l .directory)

/-- The text of a path made of components. -/
def textOf : List Path.Component → String
  | .root :: cs => "/" ++ String.intercalate "/" (cs.map nameOf)
  | cs => String.intercalate "/" (cs.map nameOf)
where
  nameOf : Path.Component → String
    | .root => ""
    | .here => "."
    | .up => ".."
    | .name s => s

/-- The file system after an attempt, and the error it ended in, if any. What was made before the
error stays. -/
abbrev Attempt := FileSystem × Option FileError

/-- An error does not count where a directory is already. -/
def settle (fs : FileSystem) (p : String) (e : FileError) : Attempt :=
  if fs.isDirectory p then (fs, none) else (fs, some e)

/-- Makes the directory at `p`, unless there is one. -/
def makeAt (fs : FileSystem) (p : String) : Attempt :=
  match fs.makeDirectory p with
  | .ok fs' => (fs', none)
  | .error e => fs.settle p e

/-- Makes the directory at the first path, and before it those of the further paths that are missing.
Each further path leads to the directory that holds the one before. -/
def makeTree (fs : FileSystem) : List String → Attempt
  | [] => (fs, none)
  | p :: above =>
    match fs.makeDirectory p with
    | .ok fs' => (fs', none)
    | .error .missing =>
      match makeTree fs above with
      | (fs', some e) => (fs', some e)
      | (fs', none) => fs'.makeAt p
    | .error e => fs.settle p e

/-- The paths to the directories above the one that `cs` names, the nearest first. -/
def pathsAbove (cs : List Path.Component) : List String :=
  (List.range' 1 (cs.length - 1)).reverse.map fun n => textOf (cs.take n)

/-- Makes the directory at `p` and all that are missing above it. A dot at the end of the path stands
in a directory that must exist before. -/
def makeDirectories (fs : FileSystem) (p : String) : Attempt :=
  match Path.components p with
  | [] => (fs, none)
  | cs => fs.makeTree (p :: pathsAbove cs)

/-- Writes a file, through links; an existing file is replaced. -/
def writeFile (fs : FileSystem) (p : String) (content : List UInt8) :
    Except FileError FileSystem :=
  match fs.place true p with
  | .error e => .error e
  | .ok (.vacant _ true) => .error .isDirectory
  | .ok (.vacant l false) => .ok (fs.set l (.file content))
  | .ok (.taken l) =>
    match fs.entry? l with
    | some (.file _) => .ok (fs.set l (.file content))
    | some (.device _) => .ok fs
    | some .directory => .error .isDirectory
    | _ => .error .permission

/-- Where a file is written that a path leads to, and the file system in which it is there; a file
that is missing is made. -/
def provide (fs : FileSystem) (p : String) : Except FileError (Location × FileSystem) :=
  match fs.place true p with
  | .error e => .error e
  | .ok (.vacant _ true) => .error .isDirectory
  | .ok (.vacant l false) => .ok (l, fs.set l (.file []))
  | .ok (.taken l) =>
    match fs.entry? l with
    | some .directory => .error .isDirectory
    | some (.command _) => .error .permission
    | _ => .ok (l, fs)

def makeLink (fs : FileSystem) (p target : String) : Except FileError FileSystem :=
  if target = "" then .error .missing
  else if target.toList.contains '\x00' then .error .nul
  else
    match fs.place false p with
    | .error e => .error e
    | .ok (.taken _) => .error .alreadyExists
    | .ok (.vacant _ true) => .error .missing
    | .ok (.vacant l false) => .ok (fs.set l (.link target))

/-- Removes what a path names, with all below it; a link itself is removed, not its target. -/
def remove (fs : FileSystem) (p : String) : Except FileError FileSystem :=
  match fs.place false p with
  | .error e => .error e
  | .ok (.vacant ..) => .error .missing
  | .ok (.taken l) => .ok (fs.removeTree l)

end FileSystem

end JobConsole
