import PathFilter.Proofs.Chain.Outcome
import PathFilter.Proofs.CommandLine.Observation
import PathFilter.Proofs.Listing.Stopping

/-!
# How command lines end

A command line that is understood is carried out until something fails: its flags are read first,
then its directory is looked for, its sources of rules are read in order, and the directories of the
walk come last. The status tells the kind of the first failure, and the failure is reported in the
last line on the standard error.

## Main definitions

* `Request.SourceStops`, `Request.StopsWith`: the first failure among the sources and the
  directories
* `Request.Fails`: the failure of a run
* `CommandLine.status`: the status of a command line
* `CommandLine.EndsProperly`: how a command line ends

## Main results

* `RuleSource.failure_applyAll_iff`: reading sources fails with the first that fails
* `Request.failure_listing_iff`: a listing fails with the first failure among sources and
  directories
* `CommandLine.endsProperly`: every command line ends properly if directories can be listed
-/

namespace PathFilter

/-! ## The first failure -/

namespace FilterError

/-- Whether the text of a rule is at fault: a line is no rule, or its pattern is faulty. -/
def IsAboutText (e : FilterError) : Prop :=
  (∃ line directory fault, e = .malformed line directory fault) ∨
    ∃ path fault, e = .faultyPattern path fault

/-- Whether a rule file is at fault: it cannot be read, or it is being read already. -/
def IsAboutFile (e : FilterError) : Prop :=
  (∃ file directory failure, e = .unreadable file directory failure) ∨
    ∃ file, e = .recursive file

theorem isResource_eq_true_iff {e : FilterError} : e.isResource = true ↔ e.IsAboutFile := by
  cases e <;> simp [isResource, IsAboutFile]

theorem isResource_eq_false_iff {e : FilterError} : e.isResource = false ↔ e.IsAboutText := by
  cases e <;> simp [isResource, IsAboutText]

end FilterError

/-- **Reading sources fails with the first that fails**, the ones before it having been read. -/
theorem RuleSource.failure_applyAll_iff {files : FileTree} {c : Chain} {sources : List RuleSource}
    {e : FilterError} :
    (applyAll files c sources).failure = some e ↔
      ∃ before s after, sources = before ++ s :: after ∧
        (applyAll files c before).failure = none ∧
        (s.apply files (applyAll files c before).chain).failure = some e := by
  induction sources generalizing c with
  | nil => simp [applyAll, Outcome.idle]
  | cons s sources ih =>
    rw [applyAll, Outcome.failure_andThen]
    cases hs : (s.apply files c).failure with
    | some error =>
      constructor
      · intro h
        exact ⟨[], s, sources, rfl, rfl, hs.trans h⟩
      · rintro ⟨before, s', after, hsources, hbefore, hfail⟩
        cases before with
        | nil =>
          obtain ⟨rfl, rfl⟩ := List.cons.inj hsources
          exact hs.symm.trans hfail
        | cons _ before =>
          obtain ⟨rfl, rfl⟩ := List.cons.inj hsources
          rw [applyAll, Outcome.failure_andThen, hs] at hbefore
          cases hbefore
    | none =>
      have hcons (before : List RuleSource) : applyAll files c (s :: before) =
          ⟨(applyAll files (s.apply files c).chain before).chain,
            (s.apply files c).events ++ (applyAll files (s.apply files c).chain before).events,
            (applyAll files (s.apply files c).chain before).failure⟩ := by
        rw [applyAll, Outcome.andThen, hs]
      rw [Option.none_or, ih]
      constructor
      · rintro ⟨before, s', after, rfl, hbefore, hfail⟩
        refine ⟨s :: before, s', after, rfl, ?_, ?_⟩ <;> rw [hcons]
        · exact hbefore
        · exact hfail
      · rintro ⟨before, s', after, hsources, hbefore, hfail⟩
        cases before with
        | nil =>
          obtain ⟨rfl, rfl⟩ := List.cons.inj hsources
          have hnone : (s.apply files c).failure = some e := hfail
          rw [hs] at hnone
          cases hnone
        | cons _ before =>
          obtain ⟨rfl, rfl⟩ := List.cons.inj hsources
          rw [hcons] at hbefore hfail
          exact ⟨before, s', after, rfl, hbefore, hfail⟩

namespace Request

/-- **Whether a source of rules fails first**, those before it having been read. -/
def SourceStops (files : FileTree) (r : Request) (e : FilterError) : Prop :=
  ∃ before s after, r.sources = before ++ s :: after ∧
    (RuleSource.applyAll files (Chain.root r.directory) before).failure = none ∧
    (s.apply files (RuleSource.applyAll files (Chain.root r.directory) before).chain).failure =
      some e

/-- **What stops a run**: the first source of rules that fails, or if none does, the first directory
of the walk whose rule file cannot be read. -/
def StopsWith (files : FileTree) (r : Request) (e : FilterError) : Prop :=
  r.SourceStops files e ∨
    (∀ e', ¬ r.SourceStops files e') ∧ ∃ d, Visit.StopsFirst files (r.top files) d e

/-- Whether the entries of all directories that a run comes to can be listed. -/
def IsListable (files : FileTree) (r : Request) : Prop :=
  ∀ d, (r.top files).Reaches files d → d.IsListable files

/-- **The failure of a run**: flags that are refused, a directory that is none, or rules that cannot
be read. -/
inductive Fails (files : FileTree) (r : Request) : RunFailure → Prop where
  | badFlag {fault : FlagFault} (hv : r.verbosity = .error fault) : Fails files r (.badFlag fault)
  | noDirectory {v : Verbosity} (hv : r.verbosity = .ok v)
      (hdir : files.isDirectory r.directory = false) : Fails files r (.noDirectory r.directory)
  | badRules {v : Verbosity} {e : FilterError} (hv : r.verbosity = .ok v)
      (hdir : files.isDirectory r.directory = true) (h : r.StopsWith files e) :
      Fails files r (.badRules e)

variable {files : FileTree} {r : Request} {e : FilterError}

/-- **A listing fails with the first failure** among sources and directories. -/
theorem failure_listing_iff (hlist : r.IsListable files) :
    (r.listing files).failure = some e ↔ r.StopsWith files e := by
  have hsource (e : FilterError) : (RuleSource.applyAll files (Chain.root r.directory)
      r.sources).failure = some e ↔ r.SourceStops files e := RuleSource.failure_applyAll_iff
  rw [listing, Listing.failure_andThen, StopsWith]
  cases hrules : (RuleSource.applyAll files (Chain.root r.directory) r.sources).failure with
  | some error =>
    have herror : r.SourceStops files error := (hsource error).mp hrules
    rw [← hsource, hrules, Option.some_or]
    exact ⟨.inl, fun h => h.resolve_right fun hwalk => hwalk.1 error herror⟩
  | none =>
    have hnone (e' : FilterError) : ¬ r.SourceStops files e' := by
      rw [← hsource, hrules]
      simp
    have hwalk := Survey.failure_listRoot_iff ⟨files, r.withDeletion⟩
      (RuleSource.applyAll files (Chain.root r.directory) r.sources).chain r.directory hlist e
    rw [Option.none_or, hwalk]
    exact ⟨fun h => .inr ⟨hnone, h⟩, fun h => (h.resolve_left (hnone e)).2⟩

theorem gaps_listing (hlist : r.IsListable files) : (r.listing files).gaps = 0 := by
  obtain ⟨-, -, -, -, hgaps⟩ := Survey.stopsIn_listRoot ⟨files, r.withDeletion⟩
    (RuleSource.applyAll files (Chain.root r.directory) r.sources).chain r.directory hlist
  rw [listing]
  refine Listing.gaps_andThen ?_ hgaps
  simp [Listing.gaps, List.countP_eq_zero]

/-- **Nothing is listed if a source fails.** -/
theorem stdout_of_sourceStops {v : Verbosity} (hv : r.verbosity = .ok v)
    (h : r.SourceStops files e) : (r.run files).stdout = [] := by
  have hevents (pending : List Diagnostic) (events : List Event) :
      (Output.render v pending (events.map .event)).stdout = [] := by
    induction events generalizing pending with
    | nil => rfl
    | cons event events ih => exact ih _
  have hlisting : r.listing files =
      ⟨(RuleSource.applyAll files (Chain.root r.directory) r.sources).events.map .event, .zero,
        some e⟩ := by
    simp only [listing, Listing.andThen, RuleSource.failure_applyAll_iff.mpr h]
  simp only [run, hv, hlisting]
  split
  · exact hevents [] _
  · rfl

end Request

namespace CommandLine

open Request (parse)

/-- **The status of a command line**: that of its run, if there is one. -/
def status : Except Stop Report → Nat
  | .error .misuse => 1
  | .error .help => 0
  | .error .version => 0
  | .ok report => report.status

/-- Whether a command line is refused: its arguments, or a flag token. -/
def IsRefused (args : List Text) : Prop :=
  parse args = .error .misuse ∨ ∃ r fault, parse args = .ok r ∧ r.verbosity = .error fault

/-- Whether a command line makes up a request whose flags are accepted. -/
def IsAccepted (args : List Text) (r : Request) : Prop :=
  parse args = .ok r ∧ ∃ v, r.verbosity = .ok v

/-- **How a command line ends.** -/
structure EndsProperly (files : FileTree) (args : List Text) : Prop where
  /-- The status is 1 if the command line is refused, or the text of a rule is the first failure. -/
  refused : status (run files args) = 1 ↔ IsRefused args ∨
    ∃ r, IsAccepted args r ∧ files.isDirectory r.directory = true ∧
      ∃ e, r.StopsWith files e ∧ e.IsAboutText
  /-- It is 23 if there is no directory to list. -/
  noDirectory : status (run files args) = 23 ↔
    ∃ r, IsAccepted args r ∧ files.isDirectory r.directory = false
  /-- It is 11 if a rule file is the first failure. -/
  badFile : status (run files args) = 11 ↔
    ∃ r, IsAccepted args r ∧ files.isDirectory r.directory = true ∧
      ∃ e, r.StopsWith files e ∧ e.IsAboutFile
  /-- It is 0 if help or the version is asked for, and if nothing fails. -/
  success : status (run files args) = 0 ↔
    parse args = .error .help ∨ parse args = .error .version ∨
      ∃ r, IsAccepted args r ∧ files.isDirectory r.directory = true ∧ ∀ e, ¬ r.StopsWith files e
  /-- A failure is reported last on the standard error, with its wording and the status. -/
  reported : ∀ report, run files args = .ok report → report.status ≠ 0 →
    ∃ r f, parse args = .ok r ∧ r.Fails files f ∧
      report.stderr.getLast? = some ("rsync-filter error: " ++ f.message ++ " (code " ++
        toString report.status ++ ")")
  /-- If a source fails, no line is put out for an entry. -/
  unlisted : ∀ r e report, IsAccepted args r → r.SourceStops files e →
    run files args = .ok report → report.stdout = []

variable {files : FileTree} {args : List Text}

/-- A command line that makes up no request. -/
theorem endsProperly_of_stop {stop : Stop} (h : parse args = .error stop) :
    EndsProperly files args := by
  have hrun : run files args = .error stop := by rw [run, h]
  constructor
  case reported => simp [hrun]
  case unlisted => simp [hrun]
  all_goals cases stop <;> simp [hrun, h, status, IsRefused, IsAccepted]

/-- A command line with a flag token that is refused. -/
theorem endsProperly_of_refused {r : Request} {fault : FlagFault} (h : parse args = .ok r)
    (hv : r.verbosity = .error fault) : EndsProperly files args := by
  have hrun : run files args = .ok (.failed (.badFlag fault) (.waiting [])) := by
    rw [run, h]
    exact congrArg _ (Request.run_of_refused hv)
  have hstatus : status (run files args) = 1 := by rw [hrun]; rfl
  constructor
  case reported =>
    rw [hrun]
    rintro _ ⟨⟩ -
    exact ⟨r, _, h, .badFlag hv, rfl⟩
  case unlisted =>
    rintro r' e report ⟨hr', v, hv'⟩
    rw [h] at hr'
    cases hr'
    rw [hv] at hv'
    cases hv'
  all_goals simp [hstatus, h, hv, IsRefused, IsAccepted]

section Accepted

variable {r : Request} {v : Verbosity} (hr : parse args = .ok r) (hv : r.verbosity = .ok v)

include hr hv

theorem isAccepted_iff {r' : Request} : IsAccepted args r' ↔ r' = r := by
  rw [IsAccepted, hr]
  constructor
  · rintro ⟨⟨⟩, -⟩
    rfl
  · rintro rfl
    exact ⟨rfl, v, hv⟩

theorem not_isRefused : ¬ IsRefused args := by
  simp [IsRefused, hr, hv]

/-- A command line whose directory is none. -/
theorem endsProperly_of_noDirectory (hdir : files.isDirectory r.directory = false) :
    EndsProperly files args := by
  have hrun : run files args = .ok (.failed (.noDirectory r.directory) (.waiting [])) := by
    simp [run, hr, Request.run, hv, hdir]
  have hstatus : status (run files args) = 23 := by rw [hrun]; rfl
  constructor
  case reported =>
    rw [hrun]
    rintro _ ⟨⟩ -
    exact ⟨r, _, hr, .noDirectory hv hdir, rfl⟩
  case unlisted =>
    rw [hrun]
    rintro _ _ _ - - ⟨⟩
    rfl
  all_goals simp [hstatus, isAccepted_iff hr hv, not_isRefused hr hv, hr, hdir]

/-- A command line whose directory can be listed. -/
theorem endsProperly_of_isDirectory (hdir : files.isDirectory r.directory = true)
    (hlist : r.IsListable files) : EndsProperly files args := by
  have hrun : run files args = .ok (r.run files) := by rw [run, hr]
  have hstatus : status (run files args) = (r.run files).status := by rw [hrun]; rfl
  have hunlisted : ∀ r' e report, IsAccepted args r' → r'.SourceStops files e →
      run files args = .ok report → report.stdout = [] := by
    intro r' e report hr' he hreport
    obtain rfl := (isAccepted_iff hr hv).mp hr'
    rw [hrun] at hreport
    cases hreport
    exact Request.stdout_of_sourceStops hv he
  have hstops (e : FilterError) := Request.failure_listing_iff (e := e) hlist
  have hrunstatus : (r.run files).status = _ := Request.status_run hv
  rw [if_pos hdir, Request.gaps_listing hlist] at hrunstatus
  cases hfailure : (r.listing files).failure with
  | none =>
    have hnever (e : FilterError) : ¬ r.StopsWith files e := by
      rw [← hstops, hfailure]
      simp
    have hzero : (r.run files).status = 0 := by simpa [hfailure] using hrunstatus
    constructor
    case reported =>
      rw [hrun]
      rintro _ ⟨⟩ hne
      exact absurd hzero hne
    case unlisted => exact hunlisted
    all_goals simp [hstatus, hzero, isAccepted_iff hr hv, not_isRefused hr hv, hr, hdir, hnever]
  | some error =>
    have hstop : r.StopsWith files error := (hstops error).mp hfailure
    have hunique (e : FilterError) : r.StopsWith files e ↔ e = error := by
      rw [← hstops, hfailure, Option.some.injEq, eq_comm]
    have hcode : (r.run files).status = if error.isResource then 11 else 1 := by
      simpa [hfailure, RunFailure.status] using hrunstatus
    constructor
    case reported =>
      rw [hrun]
      rintro _ ⟨⟩ -
      refine ⟨r, _, hr, .badRules hv hdir hstop, ?_⟩
      simp only [Request.run, hv, hdir, if_true, hfailure, Report.failed, List.getLast?_concat]
      rfl
    case unlisted => exact hunlisted
    all_goals
      cases hresource : error.isResource <;>
        simp [hstatus, hcode, hresource, isAccepted_iff hr hv, not_isRefused hr hv, hr, hdir,
          hunique, ← FilterError.isResource_eq_true_iff, ← FilterError.isResource_eq_false_iff]

end Accepted

/-- **Every command line ends properly**, if the directories below the one that is to be listed can
be listed. -/
theorem endsProperly (hlist : ∀ r, parse args = .ok r → files.isDirectory r.directory = true →
    r.IsListable files) : EndsProperly files args := by
  rcases hr : parse args with stop | r
  · exact endsProperly_of_stop hr
  rcases hv : r.verbosity with fault | v
  · exact endsProperly_of_refused hr hv
  cases hdir : files.isDirectory r.directory with
  | false => exact endsProperly_of_noDirectory hr hv hdir
  | true => exact endsProperly_of_isDirectory hr hv hdir (hlist r hr hdir)

/-- A walk that stops in its second directory, whose rule file is malformed. -/
theorem endsProperly_malformed :
    let args : List Text := ["-F", "/w"].map String.toList
    let below : List (Text × Node) := [(ruleFileName, .file (Text.utf8 "nonsense".toList))]
    let entries : List (Text × Node) :=
      [("b".toList, .directory below), ("a".toList, .directory [])]
    let files : FileTree := ⟨.directory [("w".toList, .directory entries)], []⟩
    let r : Request := ⟨"/w".toList, [.usualRuleFile 0], false, .ok .silent⟩
    parse args = .ok r ∧ files.isDirectory r.directory = true ∧ r.IsListable files ∧
      status (run files args) = 1 ∧ ∃ e, r.StopsWith files e ∧ e.IsAboutText := by
  intro args below entries files r
  have hr : parse args = .ok r := by
    let os : List Occurrence := [.usualRuleFile, .directory "/w".toList]
    have hscan : scan [] args = .ok os := by decide +kernel
    have hverbosity : Request.verbosityOf os = .ok .silent := by decide +kernel
    have hsources : RuleSource.collect args os = [.usualRuleFile 0] := by decide +kernel
    exact Request.parse_of_scan hscan rfl hsources hverbosity
  have hw : files.resolve "/w".toList = .ok ("/w".toList, .directory entries) :=
    FileTree.resolve_pathOf ["w".toList] (by decide) (by decide) (by decide) rfl
      fun target h => by cases h
  have htopentries : (r.top files).entries = entries := by
    simp only [Request.top, Visit.top, show r.directory = "/w".toList from rfl, hw]
  have hstep (d : Visit) (h : (r.top files).Enters files d) :
      d = (r.top files).enter files "b".toList below ∨
        d = (r.top files).enter files "a".toList [] := by
    obtain ⟨name, es, hmem, -, rfl⟩ := h
    rw [htopentries] at hmem
    simp only [entries, List.mem_cons, Prod.mk.injEq, List.not_mem_nil, or_false] at hmem
    rcases hmem with ⟨rfl, ⟨⟩⟩ | ⟨rfl, ⟨⟩⟩
    · exact .inl rfl
    · exact .inr rfl
  have hlist : r.IsListable files := by
    intro d hreach
    rcases Relation.ReflTransGen.cases_head hreach with rfl | ⟨e, he, hrest⟩
    · exact ⟨by decide +kernel, by rw [htopentries]; decide⟩
    · rcases Relation.ReflTransGen.cases_head hrest with rfl | ⟨f, ⟨name, es, hmem, -⟩, -⟩
      · rcases hstep e he with rfl | rfl
        · exact ⟨by decide +kernel, by decide⟩
        · exact ⟨by decide +kernel, by decide⟩
      · rcases hstep e he with rfl | rfl <;> simp [Visit.enter, below] at hmem
  have hends : EndsProperly files args := endsProperly fun r' hr' _ => by
    rw [hr] at hr'
    cases hr'
    exact hlist
  have hsorted : Survey.sortedEntriesAt files r.directory =
      [("a".toList, .directory []), ("b".toList, .directory below)] := by
    rw [Survey.sortedEntriesAt, hw]
    cbv
  have hstatus : status (run files args) = 1 := by
    rw [run, hr]
    simp only [status, Request.run, Request.listing, Survey.listRoot, Survey.walk, hsorted]
    decide +kernel
  refine ⟨hr, by decide +kernel, hlist, hstatus, ?_⟩
  rcases hends.refused.mp hstatus with hrefused | ⟨r', hr', -, hstops⟩
  · exact absurd hrefused (not_isRefused hr rfl)
  · rwa [(isAccepted_iff hr rfl).mp hr'] at hstops

end CommandLine

end PathFilter
