import PathFilter.CommandLine.Source
import PathFilter.Verbosity.Token

/-!
# Requests

The occurrences on a command line make up a request: the directory to list, the sources of rules in
the order in which they were given, and the verbosity.

## Main definitions

* `Request`: what a command line asks for
* `Request.verbosityOf`: the verbosity that some occurrences ask for
* `Request.parse args`: the request of a command line
-/

namespace PathFilter

/-- **What a command line asks for.** -/
structure Request where
  /-- The directory to list. -/
  directory : Text
  /-- The sources of rules, in order. -/
  sources : List RuleSource
  /-- Whether every entry is also checked for deletion. -/
  withDeletion : Bool
  /-- The verbosity, or the flag token that is refused. -/
  verbosity : Except FlagFault Verbosity

namespace Request

/-- The verbosity after some lists of flag tokens of a family. -/
def applyLists (v : Verbosity) (f : Family) : List Text → Except FlagFault Verbosity
  | [] => .ok v
  | list :: lists =>
    match v.applyList f list with
    | (w, none) => applyLists w f lists
    | (_, some fault) => .error fault

/-- The verbosity with the counts at level 2 at least. -/
def raiseStats (v : Verbosity) : Verbosity :=
  v.set (.info .stats) (max (v.level (.info .stats)) 2)

/-- **The verbosity that some occurrences ask for**: the number of requests for more comes first,
then the lists of info flags, then those of debug flags. -/
def verbosityOf (os : List Occurrence) : Except FlagFault Verbosity :=
  let count := min (os.count .verbose) CommandLine.maxCount
  let infoLists := os.filterMap fun | .info list => some list | _ => none
  let debugLists := os.filterMap fun | .debug list => some list | _ => none
  match applyLists (Verbosity.ofCount count) .info infoLists with
  | .error fault => .error fault
  | .ok v =>
    match applyLists v .debug debugLists with
    | .error fault => .error fault
    | .ok w => .ok (if .stats ∈ os then raiseStats w else w)

/-- The directory among some occurrences. -/
def directoryOf? (os : List Occurrence) : Option Text :=
  os.findSome? fun | .directory path => some path | _ => none

/-- **The request of a command line.** It has to name a directory. -/
def parse (args : List Text) : Except CommandLine.Stop Request :=
  match CommandLine.scan [] args with
  | .error s => .error s
  | .ok os =>
    match directoryOf? os with
    | none => .error .misuse
    | some directory =>
      .ok ⟨directory, RuleSource.collect args os, .delete ∈ os, verbosityOf os⟩

/-- A request is made up of what occurs on its command line. -/
theorem parse_of_scan {args : List Text} {os : List Occurrence} {directory : Text}
    {sources : List RuleSource} {verbosity : Except FlagFault Verbosity}
    (hscan : CommandLine.scan [] args = .ok os) (hdirectory : directoryOf? os = some directory)
    (hsources : RuleSource.collect args os = sources) (hverbosity : verbosityOf os = verbosity) :
    parse args = .ok ⟨directory, sources, .delete ∈ os, verbosity⟩ := by
  simp only [parse, hscan, hdirectory, hsources, hverbosity]

end Request

end PathFilter
