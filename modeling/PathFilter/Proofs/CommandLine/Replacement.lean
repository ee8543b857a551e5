import PathFilter.Proofs.CommandLine.Diagnostics
import PathFilter.Proofs.Listing.Outside
import PathFilter.Proofs.Listing.Preorder
import Mathlib.Data.List.Permutation

/-!
# What a replaced file or directory changes

A rule file that is read in one directory only has no say elsewhere: with other contents it may
change what is listed below that directory, but no other line. What lies below a directory that is
excluded has no say at all, as long as no path of the run leads through it: whatever is put in its
place, the run is the same. Paths are not read as text but followed, and `d/e/../../f` leads nowhere
if there is no `e` in `d`.

## Main definitions

* `Request.entrances`: the directories that a run enters
* `Request.followed`: the paths that a run follows
* `Request.requestedOff`: the rule files that a run asks for outside a directory
* `Request.entryLines`: the lines of entries that a run puts out

## Main results

* `Request.listing_agreeOff`: two runs through trees that agree off a place
* `Request.entryLines_graft_file`: a rule file of one directory has no say elsewhere
* `Request.run_graft_excluded`: what lies below an excluded directory has no say
* `Request.not_forall_run_graft_excluded`: a path through an excluded directory may cease to lead on
-/

namespace PathFilter

/-! ## Lines of entries -/

/-- The entry that a line shows. -/
def OutputLine.entry? : OutputLine → Option Entry
  | entry e => some e
  | _ => none

theorem Output.entries_shown (v : Verbosity) (pending : List Diagnostic)
    (items : List ListingItem) :
    (shown v pending items).filterMap OutputLine.entry? = items.filterMap ListingItem.entry? := by
  induction items generalizing pending with
  | nil => rfl
  | cons item items ih =>
    cases item with
    | entry e => exact congrArg (e :: ·) (ih pending)
    | gap u => exact ih pending
    | event e => exact ih _
    | remark r => exact ih _
    | flush =>
      have hpending : (pending.map OutputLine.diagnostic).filterMap OutputLine.entry? = [] := by
        simp [List.filterMap_map, Function.comp_def, OutputLine.entry?]
      rw [shown, List.filterMap_append, hpending, List.nil_append]
      exact ih []

namespace Request

/-- **The lines of entries that a run puts out**, in order. -/
def entryLines (files : FileTree) (r : Request) : List Entry :=
  (r.shown files).filterMap OutputLine.entry?

variable {files files' : FileTree} {r : Request}

/-- A run with status 0 has come to the end of its listing, whose entries it puts out. -/
theorem entryLines_of_status (h : (r.run files).status = 0) :
    files.isDirectory r.directory = true ∧ (r.listing files).failure = none ∧
      r.entryLines files = (r.listing files).entries := by
  rcases hv : r.verbosity with fault | v
  · simp [run, hv, Report.failed, RunFailure.status] at h
  cases hdir : files.isDirectory r.directory with
  | false => simp [run, hv, hdir, Report.failed, RunFailure.status] at h
  | true =>
    cases hf : (r.listing files).failure with
    | some e =>
      have hstatus : (r.run files).status = (RunFailure.badRules e).status := by
        simp only [run, hv, hdir, if_true, hf, Report.failed]
      rw [hstatus, RunFailure.status] at h
      split at h <;> cases h
    | none =>
      refine ⟨rfl, rfl, ?_⟩
      have hcounts (texts : List String) :
          (texts.map OutputLine.count).filterMap OutputLine.entry? = [] := by
        simp [List.filterMap_map, Function.comp_def, OutputLine.entry?]
      have hend (p : Prop) [Decidable p] (f : RunFailure) :
          (if p then [] else [OutputLine.failure f]).filterMap OutputLine.entry? = [] := by
        split <;> rfl
      simp only [entryLines, shown, hv, hdir, if_true, hf, List.filterMap_append,
        Output.entries_shown, hcounts, hend, List.append_nil, Listing.entries_eq]

/-! ## What a run asks for -/

/-- The rule files that the sources of a run open. -/
def opened (files : FileTree) (r : Request) : List Text :=
  RuleSource.openedAll files (Chain.root r.directory) r.sources

/-- **The directories that a run enters**, up to its first failure. -/
def entrances (files : FileTree) (r : Request) : List Entrance :=
  (RuleSource.applyAll files (Chain.root r.directory) r.sources).onSuccess fun c =>
    Survey.entrancesFrom ⟨files, r.withDeletion⟩ ⟨c, r.directory, ['.']⟩
      (Survey.sortedEntriesAt files r.directory)

/-- **The paths that a run follows**, up to its first failure: that of its directory, those of the
rule files that its sources open, and at every directory that it enters, those of the directory and
of the rule files that are asked for there. -/
def followed (files : FileTree) (r : Request) : List Text :=
  r.directory :: r.opened files ++
    (r.entrances files).flatMap fun e => e.path :: e.outer.requested files e.path

/-- **The rule files that a run asks for outside a directory**: on behalf of its sources, and on
entering any directory but that one and those below. -/
def requestedOff (directory : Text) (files : FileTree) (r : Request) : List Text :=
  r.opened files ++
    ((r.entrances files).filter fun e => !Path.isWithin directory e.relative).flatMap fun e =>
      e.outer.requested files e.path

/-! ## Two runs -/

/-- **Two runs through trees that agree off a place say the same** if their sources read nothing
there, they see the same at every directory, and they stop above the place, unless a file lies
there. -/
theorem listing_agreeOff {R : Listing → Listing → Prop} {overlooked : Text → Prop}
    {isDir : Bool} {target : List Text}
    (hfollows : Survey.Follows R overlooked ⟨files, r.withDeletion⟩ ⟨files', r.withDeletion⟩)
    (h : files.AgreeOff isDir target files') {p : FileTree.Place}
    (hp : files.place r.directory = .ok p) (hdirectory : target ∉ files.searched r.directory)
    (hopened : ∀ path ∈ r.opened files, files.Avoids isDir target path)
    (hsame : ∀ e ∈ r.entrances files,
      Survey.AlikeAt overlooked ⟨files, r.withDeletion⟩ ⟨files', r.withDeletion⟩ e)
    (hshut : isDir = true → ∃ name names, target = p.names ++ name :: names ∧
      Shuts files (r.top files).chain r.directory ['.'] (name :: names)) :
    R (r.listing files) (r.listing files') := by
  have hrules := RuleSource.applyAll_congr_opened h.sameOn _ _ hopened
  have hrespects := hfollows.respects
  have hbelow : isDir = true → ∃ name names, target = p.names ++ name :: names := by
    intro hdir
    obtain ⟨name, names, htarget, -⟩ := hshut hdir
    exact ⟨name, names, htarget⟩
  obtain ⟨name, names, htarget, hentries⟩ := h.sortedEntriesAt hdirectory hp hbelow
  simp only [listing, ← hrules]
  refine hrespects.andThen (hrespects.refl _) fun hok => ?_
  rw [Survey.listRoot_eq, Survey.listRoot_eq]
  refine hrespects.andThen (hrespects.refl _) fun _ => ?_
  refine hrespects.andThen (hfollows.visit_agreeOff hentries (fun hdir => ?_) fun e he => ?_)
    fun _ => hrespects.refl _
  · obtain ⟨n, ns, hn, hshuts⟩ := hshut hdir
    rw [htarget hdir, List.append_cancel_left_eq] at hn
    rw [hn]
    exact hshuts
  · refine hsame e ?_
    rw [entrances, Outcome.onSuccess_of_none hok]
    exact he

/-! ### A file replaced -/

/-- **A rule file of one directory has no say elsewhere.** If a file is asked for on entering one
directory and those below it only, and has other bytes, then two runs that come to their ends put
out the same lines for all entries that do not lie below the directory, in the same order. -/
theorem entryLines_graft_file {target : List Text} {old new : List UInt8} {directory : Text}
    (hat : files.root.at? target = some (.file old))
    (hrequested : ∀ path ∈ r.requestedOff directory files, files.leadsTo path target = false)
    (hstatus : (r.run files).status = 0)
    (hstatus' : (r.run (files.graft target (.file new))).status = 0) :
    ((r.entryLines (files.graft target (.file new))).filter
        fun e => !Path.liesBelow directory e.path) =
      (r.entryLines files).filter fun e => !Path.liesBelow directory e.path := by
  have hagree : files.AgreeOff false target (files.graft target (.file new)) :=
    FileTree.agreeOff_graft hat rfl
  obtain ⟨hdir, hok, hentries⟩ := entryLines_of_status hstatus
  obtain ⟨-, hok', hentries'⟩ := entryLines_of_status hstatus'
  rw [requestedOff, List.forall_mem_append] at hrequested
  obtain ⟨hopened, hentered⟩ := hrequested
  have hsearched := FileTree.not_mem_searched_of_file hat
  have halike : Listing.AlikeOff directory (r.listing files)
      (r.listing (files.graft target (.file new))) := by
    obtain ⟨p, hp⟩ := FileTree.exists_place_of_isDirectory hdir
    refine listing_agreeOff (Survey.follows_alikeOff _ _ _ directory) hagree hp (hsearched _)
      (fun path hpath => ⟨hsearched path, fun _ => hopened path hpath⟩) ?_ (fun h => by cases h)
    intro e he
    cases hwithin : Path.isWithin directory e.relative with
    | true => exact .inl hwithin
    | false =>
      refine .inr (hagree.sameAt _ (hsearched _) fun path hpath => ⟨hsearched path, fun _ => ?_⟩)
      refine hentered path (List.mem_flatMap.mpr ⟨e, List.mem_filter.mpr ⟨he, ?_⟩, hpath⟩)
      rw [hwithin]
      rfl
  rw [hentries, hentries']
  exact (halike hok hok').symm

/-- A rule file excludes everything where it excluded one file. -/
theorem entryLines_graft_file_nested :
    let own : Text × Node := (ruleFileName, .file (Text.utf8 "- *.o\n".toList))
    let below : List (Text × Node) := [own, ("m.o".toList, .file [])]
    let entries : List (Text × Node) := [("a.o".toList, .file []), ("x".toList, .directory below)]
    let files : FileTree := ⟨.directory [("w".toList, .directory entries)], []⟩
    let r : Request := ⟨"/w".toList, [.usualRuleFile 0], false, .ok .silent⟩
    let directory : Text := "./x".toList
    let target : List Text := ["w".toList, "x".toList, ruleFileName]
    let files' := files.graft target (.file (Text.utf8 "- *\n".toList))
    files.root.at? target = some (.file (Text.utf8 "- *.o\n".toList)) ∧
      (∀ path ∈ r.requestedOff directory files, files.leadsTo path target = false) ∧
      (r.run files).status = 0 ∧ (r.run files').status = 0 ∧
      ((r.entryLines files').filter fun e => !Path.liesBelow directory e.path) =
        (r.entryLines files).filter fun e => !Path.liesBelow directory e.path := by
  intro own below entries files r directory target files'
  let own' : Text × Node := (ruleFileName, .file (Text.utf8 "- *\n".toList))
  let entries' : List (Text × Node) :=
    [("a.o".toList, .file []), ("x".toList, .directory [own', ("m.o".toList, .file [])])]
  have hw : files.resolve "/w".toList = .ok ("/w".toList, .directory entries) :=
    FileTree.resolve_pathOf ["w".toList] (by decide) (by decide) (by decide) rfl
      fun target h => by cases h
  have hw' : files'.resolve "/w".toList = .ok ("/w".toList, .directory entries') :=
    FileTree.resolve_pathOf ["w".toList] (by decide) (by decide) (by decide) rfl
      fun target h => by cases h
  have hsorted : Survey.sortedEntriesAt files r.directory = entries := by
    rw [Survey.sortedEntriesAt, hw]
    cbv
  have hsorted' : Survey.sortedEntriesAt files' r.directory = entries' := by
    rw [Survey.sortedEntriesAt, hw']
    cbv
  have hrequested : ∀ path ∈ r.requestedOff directory files,
      files.leadsTo path target = false := by
    rw [requestedOff, entrances, hsorted]
    decide +kernel
  have hstatus : (r.run files).status = 0 := by
    simp only [run, listing, Survey.listRoot, Survey.walk, hsorted]
    decide +kernel
  have hstatus' : (r.run files').status = 0 := by
    simp only [run, listing, Survey.listRoot, Survey.walk, hsorted']
    decide +kernel
  exact ⟨rfl, hrequested, hstatus, hstatus',
    entryLines_graft_file rfl hrequested hstatus hstatus'⟩

/-! ### A directory replaced -/

/-- **What lies below an excluded directory has no say.** If the line of a directory says that it is
excluded, and no path that the run follows looks up an entry of it, the run is the same whatever
entries the directory has. -/
theorem run_graft_excluded {names : List Text} {row : Row} {old new : List (Text × Node)}
    (hstart : files.leadsTo r.directory names = true)
    (hrow : (r.top files).Lists ⟨files, r.withDeletion⟩ row)
    (hdirectory : row.entry.isDirectory = true) (hexcluded : row.entry.verdict = .excluded)
    (hat : files.root.at? (names ++ row.names) = some (.directory old))
    (hfollowed : ∀ path ∈ r.followed files, names ++ row.names ∉ files.searched path) :
    r.run (files.graft (names ++ row.names) (.directory new)) = r.run files := by
  obtain ⟨start, hplace, rfl⟩ := FileTree.exists_place_of_leadsTo hstart
  have hagree : files.AgreeOff true (start.names ++ row.names)
      (files.graft (start.names ++ row.names) (.directory new)) :=
    FileTree.agreeOff_graft hat rfl
  rw [followed, List.cons_append, List.forall_mem_cons, List.forall_mem_append] at hfollowed
  obtain ⟨hroot, hopened, hentered⟩ := hfollowed
  have hshut : ∃ name names, start.names ++ row.names = start.names ++ name :: names ∧
      Shuts files (r.top files).chain r.directory ['.'] (name :: names) := by
    obtain ⟨names, hnames, hshuts⟩ := Visit.shuts_of_lists hrow hdirectory hexcluded
    cases names with
    | nil => exact hshuts.elim
    | cons name names => exact ⟨name, names, congrArg (start.names ++ ·) hnames, hshuts⟩
  have hlisting : r.listing files =
      r.listing (files.graft (start.names ++ row.names) (.directory new)) := by
    refine listing_agreeOff (Survey.Follows.of_eq _ _ _) hagree hplace hroot ?_ ?_ fun _ => hshut
    · intro path hpath
      exact ⟨hopened path hpath, fun h => by cases h⟩
    · intro e he
      have hpaths := fun path hpath => hentered path (List.mem_flatMap.mpr ⟨e, he, hpath⟩)
      obtain ⟨hpath, hrequested⟩ := List.forall_mem_cons.mp hpaths
      exact .inr (hagree.sameAt _ hpath fun path hp => ⟨hrequested path hp, fun h => by cases h⟩)
  simp only [run, ← hlisting, ← hagree.isDirectory hroot]

/-- A malformed rule file in an excluded directory makes way for a directory of its name. -/
theorem run_graft_excluded_malformed :
    let skipped : List (Text × Node) :=
      [(ruleFileName, .file (Text.utf8 "nonsense".toList)), ("f".toList, .file [])]
    let entries : List (Text × Node) :=
      [("d".toList, .directory skipped), ("k".toList, .directory [("f".toList, .file [])])]
    let files : FileTree := ⟨.directory [("w".toList, .directory entries)], []⟩
    let r : Request := ⟨"/w".toList, [.exclude "d".toList, .usualRuleFile 0], true, .ok .silent⟩
    let row : Row := ⟨["d".toList], "./d".toList, true, .excluded, some false⟩
    let target := ["w".toList] ++ row.names
    files.leadsTo r.directory ["w".toList] = true ∧
      (r.top files).Lists ⟨files, r.withDeletion⟩ row ∧
      row.entry.isDirectory = true ∧ row.entry.verdict = .excluded ∧
      files.root.at? target = some (.directory skipped) ∧
      (∀ path ∈ r.followed files, target ∉ files.searched path) ∧
      r.run (files.graft target (.directory [(ruleFileName, .directory [])])) = r.run files := by
  intro skipped entries files r row target
  have hw : files.resolve "/w".toList = .ok ("/w".toList, .directory entries) :=
    FileTree.resolve_pathOf ["w".toList] (by decide) (by decide) (by decide) rfl
      fun target h => by cases h
  have hentries : (r.top files).entries = entries := by
    simp only [top, Visit.top, show r.directory = "/w".toList from rfl, hw]
  have hsorted : Survey.sortedEntriesAt files r.directory = entries := by
    rw [Survey.sortedEntriesAt, hw]
    cbv
  have hstart : files.leadsTo r.directory ["w".toList] = true := by decide +kernel
  have hrow : (r.top files).Lists ⟨files, r.withDeletion⟩ row := by
    refine ⟨_, .refl, "d".toList, .directory skipped, ?_, ?_⟩
    · rw [hentries]
      exact List.mem_cons_self
    · decide +kernel
  have hfollowed : ∀ path ∈ r.followed files, target ∉ files.searched path := by
    rw [followed, entrances, hsorted]
    decide +kernel
  exact ⟨hstart, hrow, rfl, rfl, rfl, hfollowed,
    run_graft_excluded hstart hrow rfl rfl rfl hfollowed⟩

/-- **A path through an excluded directory may cease to lead on**, though it leads to no file there:
the names of a rule file are looked up one by one. -/
theorem not_forall_run_graft_excluded :
    ¬ ∀ (files : FileTree) (args : List Text) (r : Request) (names : List Text) (row : Row)
        (old new : List (Text × Node)),
      parse args = .ok r → files.leadsTo r.directory names = true →
      (r.top files).Lists ⟨files, r.withDeletion⟩ row →
      row.entry.isDirectory = true → row.entry.verdict = .excluded →
      files.root.at? (names ++ row.names) = some (.directory old) →
      let files' := files.graft (names ++ row.names) (.directory new)
      (∀ path ∈ r.followed files, files.leadsInto path (names ++ row.names) = false) →
      (∀ path ∈ r.followed files', files'.leadsInto path (names ++ row.names) = false) →
      r.run files' = r.run files := by
  intro h
  let skipped : List (Text × Node) := [("sub".toList, .directory [("f".toList, .file [])])]
  let entries : List (Text × Node) :=
    [("d".toList, .directory skipped), ("rules".toList, .file (Text.utf8 "- *.o\n".toList))]
  let files : FileTree := ⟨.directory [("w".toList, .directory entries)], []⟩
  let rule : Text := ". d/sub/../../rules".toList
  let args : List Text := ["--exclude=d".toList, "--filter=".toList ++ rule, "/w".toList]
  let r : Request := ⟨"/w".toList, [.exclude "d".toList, .filter rule], false, .ok .silent⟩
  let row : Row := ⟨["d".toList], "./d".toList, true, .excluded, none⟩
  have hparse : parse args = .ok r := by
    let occurrences : List Occurrence :=
      [.exclude "d".toList, .filter rule, .directory "/w".toList]
    have hscan : CommandLine.scan [] args = .ok occurrences := by decide +kernel
    have hverbosity : verbosityOf occurrences = .ok .silent := by decide +kernel
    have hsources : RuleSource.collect args occurrences =
        [.exclude "d".toList, .filter rule] := by decide +kernel
    rw [parse, hscan]
    simp only [hverbosity, hsources]
    rfl
  have hw : files.resolve "/w".toList = .ok ("/w".toList, .directory entries) :=
    FileTree.resolve_pathOf ["w".toList] (by decide) (by decide) (by decide) rfl
      fun target h => by cases h
  have hentries : (r.top files).entries = entries := by
    simp only [top, Visit.top, show r.directory = "/w".toList from rfl, hw]
  have hsorted : Survey.sortedEntriesAt files r.directory = entries := by
    rw [Survey.sortedEntriesAt, hw]
    cbv
  have hrow : (r.top files).Lists ⟨files, r.withDeletion⟩ row := by
    refine ⟨_, .refl, "d".toList, .directory skipped, ?_, ?_⟩
    · rw [hentries]
      exact List.mem_cons_self
    · decide +kernel
  have hfollowed : ∀ path ∈ r.followed files,
      files.leadsInto path ["w".toList, "d".toList] = false := by
    rw [followed, entrances, hsorted]
    decide +kernel
  have hsame := h files args r ["w".toList] row skipped [] hparse (by decide +kernel) hrow rfl rfl
    rfl hfollowed (by decide +kernel)
  have hstatus : (r.run files).status = 0 := by
    simp only [run, listing, Survey.listRoot, Survey.walk, hsorted]
    decide +kernel
  have hstatus' : (r.run (files.graft ["w".toList, "d".toList] (.directory []))).status = 11 := by
    decide +kernel
  rw [← hsame, List.singleton_append, hstatus'] at hstatus
  cases hstatus

end Request

end PathFilter
