import PathFilter.FileTree.Basic

/-!
# Where a path leads

A path is followed name by name from the root or the working directory. A symbolic link is replaced
by its target, `..` leads back to the directory above, and every name, an empty one included, needs
a directory before it.

## Main definitions

* `FileTree.follow`: the names still to go, followed from a place in the tree
* `FileTree.pathFault?`: why a path leads nowhere, whatever the tree holds
* `FileTree.resolve files path`: the place and the node that a path leads to
* `FileTree.read`: the place and the bytes of a file
* `FileTree.isFile`, `FileTree.isDirectory`: what a path leads to
* `FileTree.listingFault?`: why the entries of a directory cannot be listed

## Main results

* `FileTree.read_eq_ok_iff`: a file is read exactly if its path leads to a regular file
* `FileTree.listingFault?_eq_none_iff`: entries are listed exactly if the path leads to a directory
-/

namespace PathFilter.FileTree

/-- The greatest length of a name in bytes. -/
def maxName : Nat := 255

/-- The least length in bytes at which a path is too long. -/
def maxPath : Nat := 4096

/-- The number of links that a path may lead over. -/
def maxLinks : Nat := 40

/-- A place in a tree: the names that lead to it and the nodes on the way, the last one first. -/
abbrev Place := List (Text × Node)

/-- The names that lead to a place. -/
def Place.names (place : Place) : List Text := (place.map (·.1)).reverse

/-- The node at a place. -/
def Place.node (root : Node) : Place → Node
  | [] => root
  | (_, node) :: _ => node

/-- The names followed from a place up to the first link, where `onward` goes on. -/
def followEntries (root : Node) (onward : Place → List Text → Except ReadFailure Place)
    (place : Place) : List Text → Except ReadFailure Place
  | [] => .ok place
  | name :: rest =>
    match place.node root with
    | .directory entries =>
      if name = [] ∨ name = ['.'] then followEntries root onward place rest
      -- above the root is the root itself
      else if name = ['.', '.'] then followEntries root onward place.tail rest
      else if name.byteLength > maxName then .error .nameTooLong
      else
        match Node.lookup? entries name with
        | none => .error .notFound
        | some (.link target) =>
          -- a relative target starts from the directory that holds the link
          let start := if Path.isAbsolute target then [] else place
          onward start (Path.names target ++ rest)
        | some node => followEntries root onward ((name, node) :: place) rest
    | _ => .error .notDirectory

/-- **The place that the names lead to**, where `links` more links may be followed. -/
def follow (root : Node) : Nat → Place → List Text → Except ReadFailure Place
  | 0 => followEntries root fun _ _ => .error .tooManyLinks
  | links + 1 => followEntries root (follow root links)

theorem follow_zero (root : Node) :
    follow root 0 = followEntries root fun _ _ => .error .tooManyLinks := rfl

theorem follow_succ (root : Node) (links : Nat) :
    follow root (links + 1) = followEntries root (follow root links) := rfl

-- what a path leads to is told by lemmas, not by unfolding
attribute [irreducible] follow

/-- The place of the working directory. -/
def workingPlace (files : FileTree) : Except ReadFailure Place :=
  follow files.root maxLinks [] files.workingNames

/-- The place that paths start from, the root or the working directory. -/
def start (files : FileTree) (fromRoot : Bool) : Except ReadFailure Place :=
  if fromRoot then .ok [] else files.workingPlace

/-- The place that some names lead to, from the root or from the working directory. -/
def reach (files : FileTree) (fromRoot : Bool) (names : List Text) : Except ReadFailure Place :=
  match files.start fromRoot with
  | .error e => .error e
  | .ok start => follow files.root maxLinks start names

/-- Why a path leads nowhere, whatever the tree holds. -/
def pathFault? (path : Text) : Option ReadFailure :=
  if path = [] then some .notFound
  else if '\x00' ∈ path then some .nulInPath
  else if path.byteLength ≥ maxPath then some .nameTooLong
  else none

/-- **The place that a path leads to.** -/
def place (files : FileTree) (path : Text) : Except ReadFailure Place :=
  match pathFault? path with
  | some e => .error e
  | none => files.reach (Path.isAbsolute path) (Path.names path)

/-- The canonical path and the node that a path leads to. -/
def resolve (files : FileTree) (path : Text) : Except ReadFailure (Text × Node) :=
  match files.place path with
  | .error e => .error e
  | .ok p => .ok (pathOf p.names, p.node files.root)

/-- **The canonical path and the bytes of a file.** -/
def read (files : FileTree) (path : Text) : Except ReadFailure (Text × List UInt8) :=
  match files.resolve path with
  | .error e => .error e
  | .ok (canonical, .file bytes) => .ok (canonical, bytes)
  | .ok (_, _) => .error .isDirectory

/-- Whether the path leads to a regular file. -/
def isFile (files : FileTree) (path : Text) : Bool :=
  match files.resolve path with
  | .ok (_, .file _) => true
  | _ => false

/-- Whether the path leads to a directory. -/
def isDirectory (files : FileTree) (path : Text) : Bool :=
  match files.resolve path with
  | .ok (_, .directory _) => true
  | _ => false

/-- **Why the entries of a directory cannot be listed**, the directory being named by a path. -/
def listingFault? (files : FileTree) (path : Text) : Option ReadFailure :=
  match files.resolve path with
  | .error e => some e
  | .ok (_, .directory _) => none
  | .ok (_, _) => some .notDirectory

/-- The entries of a directory can be listed exactly if its path leads to a directory. -/
theorem listingFault?_eq_none_iff {files : FileTree} {path : Text} :
    files.listingFault? path = none ↔ files.isDirectory path = true := by
  unfold listingFault? isDirectory
  split <;> simp_all

/-- A file is read exactly if its path leads to a regular file. -/
theorem read_eq_ok_iff {files : FileTree} {path canonical : Text} {bytes : List UInt8} :
    files.read path = .ok (canonical, bytes) ↔
      files.resolve path = .ok (canonical, .file bytes) := by
  unfold read
  split <;> simp_all

end PathFilter.FileTree
