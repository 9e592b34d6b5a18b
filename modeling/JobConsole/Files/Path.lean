/-! # Paths as text

Paths are texts. Joining is textual: nothing is normalised, and an absolute right side replaces the
left one. Two paths are the same location by text when they have the same components: repeated
separators, trailing separators and inner dots do not count, while double dots do, and so does a dot
at the front of a relative path.
-/

namespace JobConsole.Path

def isAbsolute (p : String) : Bool :=
  p.toList.head? == some '/'

def endsWithSlash (p : String) : Bool :=
  p.toList.getLast? == some '/'

def join (base p : String) : String :=
  if isAbsolute p then p
  else if base = "" ∨ endsWithSlash base = true then base ++ p
  else base ++ "/" ++ p

/-- Cuts a text at every separator; there is always at least one piece. -/
def splitAt (sep : Char) : List Char → List (List Char)
  | [] => [[]]
  | c :: r =>
    if c = sep then [] :: splitAt sep r
    else
      match splitAt sep r with
      | [] => [[c]]
      | s :: ss => (c :: s) :: ss

def pieces (p : String) : List String := (splitAt '/' p.toList).map String.ofList

inductive Component where
  | root
  | here
  | up
  | name (s : String)
  deriving DecidableEq, Repr

def component? (s : String) : Option Component :=
  if s = "" ∨ s = "." then none
  else if s = ".." then some .up
  else some (.name s)

def components (p : String) : List Component :=
  let ps := pieces p
  let front : List Component :=
    if isAbsolute p then [.root]
    else if ps.head? = some "." then [.here]
    else []
  front ++ ps.filterMap component?

/-- The name a path ends in, or the whole path if it ends in no name. -/
def fileName (p : String) : String :=
  match (components p).getLast? with
  | some (.name s) => s
  | _ => p

end JobConsole.Path
