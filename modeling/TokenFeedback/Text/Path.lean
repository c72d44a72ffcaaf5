import TokenFeedback.Text.Pieces

/-!
# Paths

Paths as texts with slashes between their parts. A part that is empty or a single dot is idle: it
leads nowhere, unless it is the first one.

* `parent?`: the path without its last part; the root and the empty path have none.
* `under`: a path as seen from a directory.
* `resolved`: an absolute path without idle parts, steps up carried out.
* `stations`: the directories that a path leads through.
* `stem`: the name of a file without its ending.
-/

namespace TokenFeedback.Path

def slash : Char := '/'

def parts (path : String) : List (List Char) := Text.pieces slash path.toList

def ofParts (parts : List (List Char)) : String :=
  String.ofList ([slash].intercalate parts)

def isAbsolute (path : String) : Bool := path.startsWith "/"

def isIdle (part : List Char) : Bool := part == [] || part == ['.']

/-- Later parts without the idle ones at their end. -/
def busy (later : List (List Char)) : List (List Char) :=
  (later.reverse.dropWhile isIdle).reverse

def parent? (path : String) : Option String :=
  match parts path with
  | [] => none
  | first :: later =>
    match busy later with
    | [] => if first.isEmpty then none else some ""
    | kept =>
      match busy kept.dropLast with
      | [] => some (if first.isEmpty then "/" else String.ofList first)
      | kept => some (ofParts (first :: kept))

/-- `path` as seen from `directory`. -/
def under (directory path : String) : String :=
  if isAbsolute path then path
  else if directory.isEmpty || directory.endsWith "/" then directory ++ path
  else directory ++ "/" ++ path

/-- The parts behind the root, given those in front of them. -/
def walk (back : List (List Char)) : List (List Char) → List (List Char)
  | [] => back.reverse
  | part :: later =>
    if isIdle part then walk back later
    else if part = ['.', '.'] then walk back.tail later
    else walk (part :: back) later

/-- The path of a way from the root, its last step first. -/
def ofWay (back : List (List Char)) : String := "/" ++ ofParts back.reverse

def resolved (path : String) : String := "/" ++ ofParts (walk [] (parts path))

/-- The directories that an absolute path leads through, the last one included. -/
def stations (path : String) : List String :=
  let ps := parts path
  (List.range (ps.length + 1)).map fun n => resolved (ofParts (ps.take n))

/-- The name of a file without its last dot and what follows it. A dot in front belongs to
the name. -/
def stem (name : String) : String :=
  match (Text.pieces '.' name.toList).dropLast with
  | [] | [[]] => name
  | kept => String.ofList (['.'].intercalate kept)

end TokenFeedback.Path
