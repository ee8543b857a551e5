import PathFilter.CommandLine.Help
import PathFilter.CommandLine.Run
import PathFilter.FileTree.Update

/-!
# The program

The program takes a snapshot of the directory it is to list, runs its command line on the snapshot,
and puts out what the run leaves. A rule file that lies outside that directory is added to the
snapshot when the run asks for it. Files that cannot be opened are no part of a snapshot.

## Main definitions

* `Snapshot.node`, `Snapshot.load`: what lies at a path, taken into a snapshot
* `Snapshot.complete`: a snapshot with all rule files that a request asks for
* `main`: the program
-/

namespace PathFilter.Snapshot

/-- The target of a link that leads nowhere. No file has this name. -/
def nowhere : Text := ['\x00']

/-- Where a link leads. -/
def linkTarget (path : String) : IO Text := do
  try
    return (← IO.FS.realPath path).toString.toList
  catch _ => return nowhere

/-- What lies at a path in the file system, links not followed. -/
partial def node (path : String) : IO (Option Node) := do
  let here ← IO.FS.realPath path
  if ← here.isDir then
    let mut entries := #[]
    for e in ← here.readDir do
      let name := e.fileName.toList
      match (← e.path.symlinkMetadata).type with
      | .symlink =>
        entries := entries.push (name, Node.link (← linkTarget e.path.toString))
      | _ =>
        if let some n ← node e.path.toString then
          entries := entries.push (name, n)
    return some (.directory entries.toList)
  else
    try
      return some (.file (← IO.FS.readBinFile here).toList)
    catch _ => return none

/-- Whether a snapshot knows of nothing at a path. -/
def lacks (files : FileTree) (path : Text) : Bool :=
  match files.place path with
  | .ok _ => false
  | .error _ => true

/-- A snapshot with what lies at a path, and with the links that the path leads over. -/
def load (files : FileTree) (path : Text) : IO FileTree := do
  let mut links : List (Text × Text) := []
  let mut here : Text := ['/']
  for name in Path.effectiveNames (Path.absolute files.workingDirectory path) do
    let there := Path.join here name
    here := (← IO.FS.realPath there.toString).toString.toList
    if name ≠ ['.', '.'] ∧ there ≠ here then
      links := (there, here) :: links
  let some n ← node here.toString | return files
  let addLink (files : FileTree) (link : Text × Text) : FileTree :=
    if lacks files link.1 then files.graft (Path.effectiveNames link.1) (.link link.2) else files
  return links.foldl addLink (files.graft (Path.effectiveNames here) n)

/-- The rule file that a run cannot find. -/
def missing? (files : FileTree) (r : Request) : Option Text :=
  match (r.listing files).failure with
  | some (.unreadable file _ .notFound) => some file
  | _ => none

/-- A snapshot with the rule files that a request asks for, each of which is looked for once. -/
partial def complete (files : FileTree) (r : Request) (tried : List Text) : IO FileTree := do
  match missing? files r with
  | none => return files
  | some file =>
    if tried.contains file then return files
    let files ← try load files file catch _ => pure files
    complete files r (file :: tried)

/-- The snapshot that a request is run on. -/
def ofRequest (r : Request) : IO FileTree := do
  let working := (← IO.currentDir).toString.toList
  let names := Path.effectiveNames working
  let files : FileTree := ⟨(Node.directory []).put names (.directory []), names⟩
  let files ← try load files r.directory catch _ => pure files
  complete files r []

end PathFilter.Snapshot

open PathFilter in
/-- The program. -/
def main (args : List String) : IO UInt32 := do
  match Request.parse (args.map String.toList) with
  | .error .help =>
    CommandLine.helpLines.forM IO.println
    return 0
  | .error .version =>
    IO.println CommandLine.versionLine
    return 0
  | .error .misuse =>
    CommandLine.misuseLines.forM fun l => IO.eprintln l
    return 1
  | .ok r =>
    let report := r.run (← Snapshot.ofRequest r)
    report.stdout.forM IO.println
    report.stderr.forM fun l => IO.eprintln l
    return (CommandLine.exitCode report.status).toUInt32
