import PathFilter.CommandLine.Request
import PathFilter.Decimal.Tenths
import PathFilter.Listing.Output
import PathFilter.Listing.Traversal

/-!
# Runs

A run carries out a request on a snapshot of the file system. Its rules are read from their sources
in order, then the directory is walked, and the counts follow if they are wanted. The first failure
ends the run with a status that tells its kind.

## Main definitions

* `RuleSource.apply`: the rules of a source read into a chain
* `RunFailure`: the failures of a run, with their wording and status
* `Report`: what a run leaves
* `Request.run`: a request carried out
* `CommandLine.run`: a command line carried out

## Main results

* `Request.run_of_refused`: a refused flag token ends a run before anything is read
-/

namespace PathFilter

/-- The name of the usual rule file. -/
def ruleFileName : Text := ".rsync-filter".toList

/-- A rule added if it can be built. -/
def Chain.addBuilt (c : Chain) : Except FilterError Rule → Outcome
  | .error e => .fail c e
  | .ok r => c.addTraced r

/-- **The rules of a source** read into a chain. The first request for the usual rule file declares
it, and the second excludes it. -/
def RuleSource.apply (files : FileTree) (c : Chain) : RuleSource → Outcome
  | .filter line => c.read files line
  | .include pattern => c.addBuilt (Rule.including pattern)
  | .exclude pattern => c.addBuilt (Rule.excluding pattern)
  | .includeFrom file =>
    c.merge files (Path.absolute files.workingDirectory file) (.verbatim .include)
  | .excludeFrom file =>
    c.merge files (Path.absolute files.workingDirectory file) (.verbatim .exclude)
  | .usualRuleFile 0 => c.read files ("dir-merge /".toList ++ ruleFileName)
  | .usualRuleFile 1 => c.addBuilt (Rule.excluding ruleFileName)
  | .usualRuleFile _ => .idle c

/-- The rules of some sources read into a chain, up to the first failure. -/
def RuleSource.applyAll (files : FileTree) (c : Chain) : List RuleSource → Outcome
  | [] => .idle c
  | s :: ss => (s.apply files c).andThen fun c' => applyAll files c' ss

/-- **The failures of a run.** -/
inductive RunFailure where
  /-- A flag token is refused. -/
  | badFlag (fault : FlagFault)
  /-- What is to be listed is no directory. -/
  | noDirectory (path : Text)
  /-- Rules cannot be read. -/
  | badRules (e : FilterError)
  /-- Some directories cannot be listed. -/
  | incomplete (gaps : Nat)
deriving DecidableEq, Repr

namespace RunFailure

/-- The status of a failure: 1 for faults in arguments and rules, 11 for unreadable rule files, 23
for directories that cannot be listed. -/
def status : RunFailure → Nat
  | badFlag _ => 1
  | noDirectory _ => 23
  | badRules e => if e.isResource then 11 else 1
  | incomplete _ => 23

/-- The wording of a failure. -/
def message : RunFailure → String
  | badFlag fault => fault.message
  | noDirectory path => "'" ++ path.toString ++ "' is not a directory"
  | badRules e => e.message
  | incomplete gaps => "some entries could not be read (" ++ toString gaps ++ " errors)"

/-- The line that reports a failure. -/
def line (f : RunFailure) : String :=
  programName ++ " error: " ++ f.message ++ " (code " ++ toString f.status ++ ")"

end RunFailure

/-- **What a run leaves**: its status, the lines it put out, and the diagnostics that still wait. -/
structure Report where
  status : Nat
  stdout : List String
  stderr : List String
  pending : List Diagnostic
deriving DecidableEq, Repr

namespace Report

/-- The report of a run that failed after some output. -/
def failed (f : RunFailure) (o : Output) : Report :=
  ⟨f.status, o.stdout, o.stderr ++ [f.line], o.pending⟩

end Report

/-- The lines that show the counts. -/
def Tally.lines (v : Verbosity) (t : Tally) : List String :=
  let summary :=
    toString t.evaluated ++ " entries: " ++ toString t.passed ++ " included, " ++
      toString t.excluded ++ " excluded"
  let details :=
    ["Filter rules: " ++ toString t.rules,
      "Per-directory rule files: " ++ toString t.ruleFiles,
      "Matched no rule: " ++ toString t.neutral,
      "Pass ratio: " ++ (Binary.ofFloat (t.passRatio * 100)).toTenths ++ "%"]
  (if v.admits (.info .stats) 1 then [summary] else []) ++
    if v.admits (.info .stats) 2 then details else []

namespace Request

/-- The listing of a request: the events of reading its rules, then the walk. -/
def listing (files : FileTree) (r : Request) : Listing :=
  let rules := RuleSource.applyAll files (Chain.root r.directory) r.sources
  Listing.andThen ⟨rules.events.map .event, .zero, rules.failure⟩ fun _ =>
    Survey.listRoot ⟨files, r.withDeletion⟩ rules.chain r.directory

/-- **A request carried out** on a snapshot. -/
def run (files : FileTree) (r : Request) : Report :=
  match r.verbosity with
  | .error fault => .failed (.badFlag fault) (.waiting [])
  | .ok v =>
    if files.isDirectory r.directory then
      let l := r.listing files
      let o := Output.render v [] l.items
      match l.failure with
      | some e => .failed (.badRules e) o
      | none =>
        let counted : Output :=
          ⟨o.stdout ++ l.tally.lines v, o.stderr, o.pending ++ v.observe [.summarised l.tally]⟩
        if l.gaps = 0 then ⟨0, counted.stdout, counted.stderr, counted.pending⟩
        else .failed (.incomplete l.gaps) counted
    else .failed (.noDirectory r.directory) (.waiting [])

/-- A refused flag token ends a run before anything is read. -/
theorem run_of_refused {files : FileTree} {r : Request} {fault : FlagFault}
    (h : r.verbosity = .error fault) :
    r.run files = .failed (.badFlag fault) (.waiting []) := by
  simp [run, h]

end Request

namespace CommandLine

/-- The line that shows the version. -/
def versionLine : String := programName ++ " 0.6.1"

/-- **A command line carried out**, or the reason why there is nothing to carry out. -/
def run (files : FileTree) (args : List Text) : Except Stop Report :=
  match Request.parse args with
  | .error s => .error s
  | .ok r => .ok (r.run files)

/-- The exit code for a status: the nearest number that an exit code can be. -/
def exitCode (status : Int) : Nat := min status.toNat 255

end CommandLine

end PathFilter
