/-! # Paths

Paths are texts with slashes between names. How a path is spelt and where it leads are two
things: `a//b/.` and `a/b` lead to the same place. Nothing here looks at a disk.
-/

namespace ZephirPhp.Path

def isAbsolute (path : String) : Bool :=
  path.toList.head? == some '/'

def endsInSlash (path : String) : Bool :=
  path.toList.getLast? == some '/'

/-- The second path as seen from the first. An absolute path stays as it is; otherwise
one slash divides the two, also if the second is empty. -/
def join (left right : String) : String :=
  if isAbsolute right then right
  else if left.isEmpty || endsInSlash left then left ++ right
  else left ++ "/" ++ right

example : join "a" "b" = "a/b" ∧ join "a/" "b" = "a/b" ∧ join "a" "/b" = "/b" ∧
    join "a" "" = "a/" ∧ join "" "b" = "b" := by decide

def pieces (path : String) : List String :=
  (path.toList.splitOn '/').map String.ofList

/-- The names on the way, with `..` but without empty pieces and without `.`. -/
def names (path : String) : List String :=
  (pieces path).filter fun piece => piece ≠ "" ∧ piece ≠ "."

/-! ## Places -/

inductive Component where
  | root
  | current
  | parent
  | normal (name : String)
deriving DecidableEq, Repr

namespace Component

def ofName (name : String) : Component :=
  if name = ".." then .parent else .normal name

-- In the order of the constructors, and names by their characters.
def rank : Component → Nat × String
  | .root => (0, "")
  | .current => (1, "")
  | .parent => (2, "")
  | .normal name => (3, name)

instance : LT Component where
  lt left right :=
    left.rank.1 < right.rank.1 ∨ left.rank.1 = right.rank.1 ∧ left.rank.2 < right.rank.2

instance : DecidableLT Component := fun _ _ =>
  inferInstanceAs (Decidable (_ ∨ _))

end Component

-- A point counts where a relative path begins, and nowhere else.
def start (path : String) : List Component :=
  if isAbsolute path then [.root]
  else if (pieces path).head? = some "." then [.current]
  else []

def place (path : String) : List Component :=
  start path ++ (names path).map .ofName

example : place "/a//b/." = [.root, .normal "a", .normal "b"] ∧
    place "a/../b" ≠ place "b" ∧
    place "./a" ≠ place "a" ∧ place "././a" = place "./a" ∧ place "" = [] := by decide

/-! ## Parts of paths -/

def parent (path : String) : String :=
  let isIdle (piece : String) : Bool := piece == "" || piece == "."
  let before := (((pieces path).reverse.dropWhile isIdle).drop 1).dropWhile isIdle
  "/".intercalate before.reverse

example : parent "a/b/c" = "a/b" ∧ parent "/a//b/./c/" = "/a//b" ∧ parent "a" = "" := by
  decide

-- A path that ends by going up has no file name.
def fileName? (path : String) : Option String :=
  (names path).getLast?.filter (· ≠ "..")

/-- What follows the last point of a name, if anything stands before it. -/
def extensionOf? (name : List Char) : Option (List Char) :=
  let after := name.reverse.takeWhile (· ≠ '.')
  let before := (name.reverse.dropWhile (· ≠ '.')).drop 1
  if before.isEmpty then none else some after.reverse

def extension? (path : String) : Option String := do
  return String.ofList (← extensionOf? (← fileName? path).toList)

example : extension? "a/b.c.zep" = some "zep" ∧ extension? "a/.zep" = none ∧
    extension? "b.zep/" = some "zep" := by decide

def flatten (path : String) : String :=
  String.ofList <| path.toList.map fun character =>
    if character = '/' ∨ character = '\\' ∨ character = ':' then '_' else character

example : flatten "/home/app/a.zep" = "_home_app_a.zep" := by decide

end ZephirPhp.Path
