import SmithyKotlin.Text.Blank

/-!
# Paths

Paths are texts with slashes between their names.  Two paths are the same file name (`same`) when their `components`
are: empty names and `.` count for nothing there.  Who follows a path takes its `steps`, of which `.` asks for a
directory and stays in it.

`join`, `parent?`, `fileName?` and `ending?` are functions on these texts, `around` on the steps.  Links are not
known, and `..` is a step like others here; what it leads to is decided by the tree (`FileTree.lookUp`).
-/

namespace SmithyKotlin.Path

def isAbsolute (path : String) : Bool := path.toList.head? = some '/'

/-- A path seen from another one; an absolute path stays as it is. -/
def join (base path : String) : String :=
  if isAbsolute path then path
  else if base.isEmpty || base.toList.getLast? = some '/' then base ++ path
  else base ++ "/" ++ path

/-- The names that a path leads through; an absolute one starts with `/`. -/
def steps (path : String) : List String :=
  let names := (Text.split '/' path).filter fun name => !name.isEmpty
  if isAbsolute path then "/" :: names else names

/-- The names of a path that lead somewhere. -/
def components (path : String) : List String := (steps path).filter (· ≠ ".")

def same (a b : String) : Bool := components a == components b

/-- The components joined again. -/
def ofComponents : List String → String
  | "/" :: names => "/" ++ "/".intercalate names
  | names => "/".intercalate names

/-- The last component, unless the path ends with `..` or has none. -/
def fileName? (path : String) : Option String :=
  (components path).getLast?.filter fun name => name ≠ ".." && name ≠ "/"

/-- What stands behind the last point of the file name, for a name with something before it. -/
def ending? (path : String) : Option String := do
  let name ← fileName? path
  let (behind, before) ← Text.cutList '.' name.toList.reverse
  if before.isEmpty then none else some (String.ofList behind.reverse)

/-- Names without those at the end that lead nowhere. -/
def dropIdle (names : List String) : List String :=
  (names.reverse.dropWhile fun name => name.isEmpty || name = ".").reverse

/-- The steps to the directory around the place where some steps lead. -/
def around (steps : List String) : List String := dropIdle (dropIdle steps).dropLast

/-- The directory around a path, as the path writes it. -/
def parent? (path : String) : Option String :=
  let names := Text.split '/' path
  let fixed := if isAbsolute path || names.head? = some "." then names.take 1 else []
  let body := dropIdle (names.drop fixed.length)
  if body.isEmpty then
    if fixed = ["."] then some "" else none
  else
    match fixed, dropIdle body.dropLast with
    | [""], [] => some "/"
    | fixed, names => some ("/".intercalate (fixed ++ names))

theorem length_dropIdle_le (names : List String) : (dropIdle names).length ≤ names.length := by
  have h := (List.dropWhile_suffix (l := names.reverse)
    fun name => name.isEmpty || name = ".").length_le
  simpa [dropIdle] using h

theorem length_around_lt {steps : List String} (h : steps ≠ []) :
    (around steps).length < steps.length := by
  have h0 := List.length_pos_iff.mpr h
  have h1 := length_dropIdle_le steps
  have h2 := length_dropIdle_le (dropIdle steps).dropLast
  simp only [List.length_dropLast] at h2
  unfold around
  omega

end SmithyKotlin.Path
