import Groundwork.Text
/-!
File paths as text. Two paths are the same when their components are: repeated separators, single
dots between them and a separator at the end do not count, a dot at the start and double dots do.
-/
namespace Groundwork.Path

inductive Component
  | root
  | here
  | up
  | name (text : String)
  deriving DecidableEq, Repr

/-- The text between the separators. -/
def pieces (path : String) : List String := (Text.split '/' path.toList).map String.ofList

def component? (piece : String) : Option Component :=
  if piece = "" ∨ piece = "." then none
  else if piece = ".." then some .up
  else some (.name piece)

def components (path : String) : List Component :=
  match pieces path with
  | [] => []
  | first :: rest =>
    let opening := if first = "" then (if rest.isEmpty then [] else [.root])
      else if first = "." then [.here]
      else (component? first).toList
    opening ++ rest.filterMap component?

def same (a b : String) : Bool := components a == components b

/-- The last component, if it is an ordinary name. -/
def fileName? (path : String) : Option String :=
  match (components path).getLast? with
  | some (.name text) => some text
  | _ => none

/-- The name of the directory that holds the last component. -/
def parentName? (path : String) : Option String :=
  match (components path).dropLast.getLast? with
  | some (.name text) => some text
  | _ => none

/-- Drops the pieces at the end that are no components. -/
def dropSilent (ps : List String) : List String :=
  (ps.reverse.dropWhile fun p => (component? p).isNone).reverse

/-- The path up to its last component, as it is written. -/
def parent? (path : String) : Option String :=
  match pieces path with
  | [] => none
  | first :: rest =>
    match dropSilent rest with
    | [] => if first = "" then none else some ""
    | shown =>
      match first, dropSilent shown.dropLast with
      | "", [] => some "/"
      | first, above => some (String.intercalate "/" (first :: above))

def isAbsolute (path : String) : Bool := path.toList.head? == some '/'

/-- Continues a path; an absolute continuation replaces it. -/
def join (base path : String) : String :=
  if isAbsolute path || base == "" then path
  else if base.toList.getLast? == some '/' then base ++ path
  else base ++ "/" ++ path

/-- The components of `path` that follow those of `base`. -/
def below? (base path : String) : Option (List Component) :=
  if (components base).isPrefixOf (components path) then
    some ((components path).drop (components base).length)
  else none

end Groundwork.Path
