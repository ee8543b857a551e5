import PathFilter.FileTree.Resolve

/-!
# Changing a file tree

Files, links and directories are made where their paths lead, through links if need be. The
directories on the way are made too. What cannot be made is left out: nothing that lies somewhere
gives way, but for the bytes of a file that is written again.

## Main definitions

* `FileTree.isFree`: whether something may be made under a name in a directory
* `FileTree.writingNames?`: where a file is written
* `FileTree.makeDirectories`, `FileTree.writeFile`, `FileTree.makeLink`: something made at a path
* `FileTree.discard`: what is at a path taken away
* `FileTree.graft`: a node placed under names from the root on
* `FileTree.size?`: the number of bytes of a file

## Main results

* `FileTree.writeFile_of_pathFault`, `FileTree.makeLink_of_pathFault`,
  `FileTree.makeDirectories_of_pathFault`: nothing is made at a path that leads nowhere
-/

namespace PathFilter.FileTree

/-- A node placed under some names from the root on, whatever lay there. -/
def graft (files : FileTree) (names : List Text) (node : Node) : FileTree :=
  { files with root := files.root.put names node }

/-- **Whether something may be made under a name** in the directory at a place. -/
def isFree (root : Node) (place : Place) (name : Text) : Bool :=
  match follow root 0 place [name] with
  | .error .notFound => true
  | _ => false

/-- The entry of a name in the directory at a place, links not followed. -/
def entry? (root : Node) (place : Place) (name : Text) : Option Node :=
  match place.node root with
  | .directory entries => Node.lookup? entries name
  | _ => none

/-- **Where a file is written**: the names from the root on of the file that some names lead to, or
of the free name at their end. A link at the end is followed even if nothing lies where it leads. -/
def writingNames? (root : Node) (links : Nat) (start : Place) (names : List Text) :
    Option (List Text) :=
  match follow root maxLinks start names.dropLast with
  | .error _ => none
  | .ok p =>
    let last := names.getLastD []
    match entry? root p last, links with
    | some (.file _), _ => some (p.names ++ [last])
    | some (.link target), links + 1 =>
      writingNames? root links (if Path.isAbsolute target then [] else p) (Path.names target)
    | none, _ => if isFree root p last then some (p.names ++ [last]) else none
    | _, _ => none

/-- A node placed under a free name of the directory that some names lead to. -/
def occupy (files : FileTree) (fromRoot : Bool) (before : List Text) (name : Text) (node : Node) :
    FileTree :=
  match files.reach fromRoot before with
  | .error _ => files
  | .ok p => if isFree files.root p name then files.graft (p.names ++ [name]) node else files

/-- The directories along some names, the first of them following those in `before`. -/
def makeAlong (files : FileTree) (fromRoot : Bool) (before : List Text) : List Text → FileTree
  | [] => files
  | name :: names =>
    makeAlong (files.occupy fromRoot before name (.directory [])) fromRoot (before ++ [name]) names

/-- **Directories made along a path**, as far as there are none. -/
def makeDirectories (files : FileTree) (path : Text) : FileTree :=
  match pathFault? path with
  | some _ => files
  | none => files.makeAlong (Path.isAbsolute path) [] (Path.effectiveNames path)

/-- Directories made along a path up to its last name. -/
def makeParents (files : FileTree) (path : Text) : FileTree :=
  files.makeAlong (Path.isAbsolute path) [] (Path.effectiveNames path).dropLast

/-- **A file written at a path**, over the file that the path leads to. -/
def writeFile (files : FileTree) (path : Text) (bytes : List UInt8) : FileTree :=
  match pathFault? path with
  | some _ => files
  | none =>
    let files := files.makeParents path
    match files.start (Path.isAbsolute path) with
    | .error _ => files
    | .ok start =>
      match writingNames? files.root maxLinks start (Path.names path) with
      | none => files
      | some names => files.graft names (.file bytes)

/-- **A link made at a path.** -/
def makeLink (files : FileTree) (path target : Text) : FileTree :=
  match pathFault? path with
  | some _ => files
  | none =>
    let names := Path.names path
    (files.makeParents path).occupy (Path.isAbsolute path) names.dropLast (names.getLastD [])
      (.link target)

/-- **What is at a path taken away**, the link itself if it is one. A slash at the end of the path
asks for a directory. -/
def discard (files : FileTree) (path : Text) : FileTree :=
  let names := ((Path.names path).reverse.dropWhile (· == [])).reverse
  match files.reach (Path.isAbsolute path) names.dropLast with
  | .error _ => files
  | .ok p =>
    let last := names.getLastD []
    let without := { files with root := files.root.remove (p.names ++ [last]) }
    match entry? files.root p last with
    | some (.directory _) => without
    | _ => if path.endsWith '/' then files else without

/-- The number of bytes of a file. -/
def size? (files : FileTree) (path : Text) : Option Nat :=
  match files.read path with
  | .ok (_, bytes) => some bytes.length
  | .error _ => none

theorem makeDirectories_of_pathFault {path : Text} {e : ReadFailure}
    (h : pathFault? path = some e) (files : FileTree) : files.makeDirectories path = files := by
  simp [makeDirectories, h]

theorem writeFile_of_pathFault {path : Text} {e : ReadFailure} (h : pathFault? path = some e)
    (files : FileTree) (bytes : List UInt8) : files.writeFile path bytes = files := by
  simp [writeFile, h]

theorem makeLink_of_pathFault {path : Text} {e : ReadFailure} (h : pathFault? path = some e)
    (files : FileTree) (target : Text) : files.makeLink path target = files := by
  simp [makeLink, h]

end PathFilter.FileTree
