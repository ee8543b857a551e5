import PathFilter.Path
import PathFilter.FileTree.Failure

/-!
# File trees

A snapshot of a file system: regular files with their bytes, symbolic links with their targets, and
directories with their entries by name. Relative paths are read from a working directory.

Nothing else lies in a tree: there are no devices, sockets or pipes, and no owners or permissions.
Names and targets are text, so they are valid UTF-8, while the bytes of a file may be any.

## Main definitions

* `Node`: a file, a link or a directory
* `FileTree`: the root directory and the working directory
* `Node.sorted`: the same node, the entries of every directory in the order of their names
* `Node.put`, `Node.remove`: a node placed at a path, and the node at a path taken away
* `FileTree.regularFiles`: the paths of all regular files

## Main results

* `nameLe_trans`, `nameLe_total`: names are ordered by their characters
-/

namespace PathFilter

/-- **What a path leads to.** -/
inductive Node where
  /-- A regular file with its bytes. -/
  | file (bytes : List UInt8)
  /-- A symbolic link with its target. -/
  | link (target : Text)
  /-- A directory with its entries. -/
  | directory (entries : List (Text × Node))

/-- Whether a name does not come after another one. The order of characters is that of their UTF-8
bytes. -/
def nameLe : Text → Text → Bool
  | [], _ => true
  | _ :: _, [] => false
  | c :: s, d :: t => if c.val < d.val then true else if d.val < c.val then false else nameLe s t

theorem nameLe_total (s t : Text) : (nameLe s t || nameLe t s) = true := by
  induction s generalizing t with
  | nil => simp [nameLe]
  | cons c s ih =>
    cases t with
    | nil => simp [nameLe]
    | cons d t =>
      simp only [nameLe]
      by_cases h : c.val < d.val
      · simp [h]
      · by_cases h' : d.val < c.val
        · simp [h']
        · simpa [h, h'] using ih t

theorem nameLe_trans {s t u : Text} (h : nameLe s t = true) (h' : nameLe t u = true) :
    nameLe s u = true := by
  induction s generalizing t u with
  | nil => simp [nameLe]
  | cons c s ih =>
    cases t with
    | nil => simp [nameLe] at h
    | cons d t =>
      cases u with
      | nil => simp [nameLe] at h'
      | cons e u =>
        simp only [nameLe, UInt32.lt_iff_toNat_lt] at h h' ⊢
        split at h
        · split at h'
          · rw [if_pos (by omega)]
          · split at h'
            · simp at h'
            · rw [if_pos (by omega)]
        · split at h
          · simp at h
          · split at h'
            · rw [if_pos (by omega)]
            · split at h'
              · simp at h'
              · rw [if_neg (by omega), if_neg (by omega)]
                exact ih h h'

namespace Node

/-- Whether the node is a directory. -/
def isDirectory : Node → Bool
  | directory _ => true
  | _ => false

/-- The entry of a name. -/
def lookup? (entries : List (Text × Node)) (name : Text) : Option Node :=
  (entries.find? (·.1 == name)).map (·.2)

/-- Entries with one of them replaced, or added if there is none of its name. -/
def setEntry (name : Text) (node : Node) : List (Text × Node) → List (Text × Node)
  | [] => [(name, node)]
  | (n, old) :: entries =>
    if n == name then (name, node) :: entries else (n, old) :: setEntry name node entries

/-- Entries in the order of their names. -/
def sortEntries (entries : List (Text × Node)) : List (Text × Node) :=
  entries.mergeSort fun a b => nameLe a.1 b.1

mutual

/-- **The same node, its entries by name** in every directory. -/
def sorted : Node → Node
  | file bytes => file bytes
  | link target => link target
  | directory entries => directory (sortEntries (sortedEntries entries))

/-- The entries, each of them sorted. -/
def sortedEntries : List (Text × Node) → List (Text × Node)
  | [] => []
  | (name, node) :: entries => (name, node.sorted) :: sortedEntries entries

end

/-- The node with another one placed at a path below it. Directories on the way are made if they do
not exist, and what is in the way gives way. -/
def put (node : Node) : List Text → Node → Node
  | [], new => new
  | name :: names, new =>
    let entries := match node with
      | directory entries => entries
      | _ => []
    let below := (lookup? entries name).getD (directory [])
    directory (setEntry name (put below names new) entries)

/-- The node without what is at a path below it. -/
def remove (node : Node) : List Text → Node
  | [] => node
  | [name] =>
    match node with
    | directory entries => directory (entries.filter (·.1 != name))
    | _ => node
  | name :: names =>
    match node with
    | directory entries =>
      match lookup? entries name with
      | some below => directory (setEntry name (remove below names) entries)
      | none => node
    | _ => node

mutual

/-- The paths of the regular files of a node, as lists of names. -/
def filePaths : Node → List (List Text)
  | file _ => [[]]
  | link _ => []
  | directory entries => filePathsBelow entries

/-- The paths of the regular files of some entries. -/
def filePathsBelow : List (Text × Node) → List (List Text)
  | [] => []
  | (name, node) :: entries => node.filePaths.map (name :: ·) ++ filePathsBelow entries

end

end Node

/-- **A file system at one time.** -/
structure FileTree where
  /-- The root directory. -/
  root : Node
  /-- The names of the working directory. -/
  workingNames : List Text

namespace FileTree

/-- The path of some names from the root on. -/
def pathOf (names : List Text) : Text :=
  if names = [] then ['/'] else names.flatMap fun n => '/' :: n

/-- The path of the working directory. -/
def workingDirectory (files : FileTree) : Text := pathOf files.workingNames

/-- The paths of all regular files. -/
def regularFiles (files : FileTree) : List Text := files.root.filePaths.map pathOf

end FileTree

end PathFilter
