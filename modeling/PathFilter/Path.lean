import PathFilter.Text.Blank

/-!
# Paths as text

Directories, rule files and candidates are named by paths, sequences of names separated by slashes.
Paths are kept as they were written: joining two of them puts a slash between them and normalises
nothing.

## Main definitions

* `Path.join base name`: `name` as seen from `base`
* `Path.within base name`: the same, but an absolute `name` also lies below `base`
* `Path.absolute cwd path`: `path` as seen from the root of the file system

## Main results

* `Path.join_of_isAbsolute`: an absolute name is not seen from anywhere
* `Path.names_cons_slash`: a leading slash is an empty first name
-/

namespace PathFilter.Path

/-- Whether the path starts at the root of the file system. -/
def isAbsolute (path : Text) : Bool := path.head? == some '/'

/-- The names of the path, that is its pieces between the slashes. -/
def names (path : Text) : List Text := pieces (· == '/') path

@[simp] theorem names_nil : names [] = [[]] := rfl

theorem names_cons_slash (path : Text) : names ('/' :: path) = [] :: names path :=
  pieces_cons_mark (by simp) path

/-- **The path `name` as seen from `base`.** A slash separates the two unless `base` is empty or
ends with one. -/
def join (base name : Text) : Text :=
  if isAbsolute name || base.isEmpty then name
  else if base.endsWith '/' then base ++ name
  else base ++ '/' :: name

theorem join_of_isAbsolute {name : Text} (h : isAbsolute name = true) (base : Text) :
    join base name = name := by
  simp [join, h]

@[simp] theorem join_nil_left (name : Text) : join [] name = name := by simp [join]

/-- The path below a directory, its name following a slash. -/
def below (directory name : Text) : Text := directory ++ '/' :: name

/-- The names without those at their front that stand for nothing, the empty name and `.`. -/
def dropIdle (ns : List Text) : List Text := ns.dropWhile fun n => n == [] || n == ['.']

/-- The path from the root on, without the slashes and the names `.` around it. -/
def trimIdle (path : Text) : Text :=
  ['/'].intercalate (dropIdle (dropIdle (names path)).reverse).reverse

/-- The path `name` below `base`, whether it is absolute or not. -/
def within (base name : Text) : Text :=
  if isAbsolute name then join base (trimIdle name) else join base name

/-- The names of a path that lead somewhere. -/
def effectiveNames (path : Text) : List Text :=
  (names path).filter fun n => n != [] && n != ['.']

/-- **The path seen from the root.** A relative path is read from `cwd`; idle names are dropped,
but two leading slashes and a trailing one are kept, and so is every `..`. -/
def absolute (cwd path : Text) : Text :=
  let start : Text :=
    if isAbsolute path then
      if ['/', '/'].isPrefixOf path && !(['/', '/', '/'].isPrefixOf path) then ['/', '/'] else ['/']
    else cwd
  let whole := (effectiveNames path).foldl join start
  if path.endsWith '/' then join whole [] else whole

end PathFilter.Path
