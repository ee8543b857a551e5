import PathFilter.Proofs.CommandLine.Order
import PathFilter.Proofs.CommandLine.Replacement
import PathFilter.Proofs.Listing.OnDemand

/-!
# Verbosity only observes

What a command line says about verbosity has no say in what is listed. Without it the same request
is left, so the same rules are read into the same chains and give the same verdicts. A verbosity
chooses among the diagnostics: those of a run are the wanted ones among those of any other run that
is at least as verbose, although a run explains its verdicts only if it is asked to.

## Main definitions

* `CommandLine.AlikeButVerbosity`: two command lines that differ in verbosity only
* `Request.listingAt`, `Request.journal`: the listing of a run that explains on demand, and what is
  recorded while it goes on
* `Request.scopes`: the chains of a run

## Main results

* `Request.parse_alike`: such command lines make up requests that differ in verbosity only
* `Request.run_eq_ofListing`, `Request.kept_journal`: a run that explains on demand puts out and
  records what a run does
* `Request.run_observed`: verbosity only observes
-/

namespace PathFilter

open CommandLine

/-! ## What is said about verbosity -/

/-- Whether an occurrence is about verbosity. -/
def Occurrence.isAboutVerbosity : Occurrence → Bool
  | .verbose => true
  | .info _ => true
  | .debug _ => true
  | .stats => true
  | _ => false

namespace CommandLine

/-- Some occurrences without those about verbosity. -/
def withoutVerbosity (os : List Occurrence) : List Occurrence :=
  os.filter (!·.isAboutVerbosity)

/-- **Whether two command lines differ in verbosity only**: they are read, and what occurs on them
is the same otherwise. -/
def AlikeButVerbosity (args args' : List Text) : Prop :=
  ∃ os os', scan [] args = .ok os ∧ scan [] args' = .ok os' ∧
    withoutVerbosity os = withoutVerbosity os'

/-- What is looked for among occurrences of other kinds is found without those about verbosity. -/
theorem filterMap_withoutVerbosity {α : Type} {f : Occurrence → Option α}
    (h : ∀ o, o.isAboutVerbosity = true → f o = none) (os : List Occurrence) :
    (withoutVerbosity os).filterMap f = os.filterMap f := by
  rw [withoutVerbosity, List.filterMap_filter]
  refine List.filterMap_congr fun o _ => ?_
  cases ho : o.isAboutVerbosity with
  | true => simp [h o ho]
  | false => simp

/-- The sources of a command line are those of its other occurrences. -/
theorem values_withoutVerbosity (os : List Occurrence) :
    SourceKind.values (withoutVerbosity os) = SourceKind.values os := by
  have hvalues : (withoutVerbosity os).filterMap RuleSource.ofValue? =
      os.filterMap RuleSource.ofValue? :=
    filterMap_withoutVerbosity (fun o ho => by cases o <;> first | rfl | cases ho) os
  have hcount : (withoutVerbosity os).count .usualRuleFile = os.count .usualRuleFile :=
    List.count_filter rfl
  funext kind
  cases kind <;> simp only [SourceKind.values, hvalues, hcount]

theorem directoryOf?_withoutVerbosity (os : List Occurrence) :
    Request.directoryOf? (withoutVerbosity os) = Request.directoryOf? os := by
  rw [Request.directoryOf?, Request.directoryOf?, ← List.head?_filterMap, ← List.head?_filterMap,
    filterMap_withoutVerbosity fun o ho => by cases o <;> first | rfl | cases ho]

/-- The second pass over the arguments finds nothing about verbosity. -/
theorem locate_eq {args : List Text} {os : List Occurrence} (h : scan [] args = .ok os) :
    SourceKind.locate false args = (withoutVerbosity os).filterMap Occurrence.kind? := by
  obtain ⟨_, rfl, hspells⟩ := spells_of_scan h
  rw [SourceKind.locate_of_spells hspells,
    filterMap_withoutVerbosity fun o ho => by cases o <;> first | rfl | cases ho]

end CommandLine

namespace Request

variable {files : FileTree} {args args' : List Text} {r r' : Request}

/-- **Command lines that differ in verbosity only make up requests that do.** -/
theorem parse_alike (h : AlikeButVerbosity args args') (hr : parse args = .ok r)
    (hr' : parse args' = .ok r') : r' = { r with verbosity := r'.verbosity } := by
  obtain ⟨os, os', hscan, hscan', hos⟩ := h
  have hdirectory : directoryOf? os = directoryOf? os' := by
    rw [← directoryOf?_withoutVerbosity os, hos, directoryOf?_withoutVerbosity]
  have hsources : RuleSource.collect args os = RuleSource.collect args' os' := by
    rw [RuleSource.collect, RuleSource.collect, locate_eq hscan, locate_eq hscan', hos,
      ← values_withoutVerbosity os, hos, values_withoutVerbosity]
  have hdelete : (Occurrence.delete ∈ os) = (Occurrence.delete ∈ os') := by
    have hmem (os : List Occurrence) : .delete ∈ withoutVerbosity os ↔ Occurrence.delete ∈ os := by
      simp [withoutVerbosity, Occurrence.isAboutVerbosity]
    rw [← hmem os, hos, hmem os']
  unfold parse at hr hr'
  simp only [hscan, hscan', hdirectory, hsources, hdelete] at hr hr'
  split at hr
  · cases hr
  · next directory hd =>
    simp only [hd] at hr'
    cases hr
    cases hr'
    rfl

/-! ## Runs that explain on demand -/

/-- **The listing of a request by a walk that explains on demand.** -/
def listingAt (files : FileTree) (r : Request) (v : Verbosity) : Listing :=
  let rules := RuleSource.applyAll files (Chain.root r.directory) r.sources
  Listing.andThen ⟨rules.events.map .event, .zero, rules.failure⟩ fun _ =>
    Survey.listRootAt v ⟨files, r.withDeletion⟩ rules.chain r.directory

/-- **What is recorded in the course of a run** that explains on demand. A walk that comes to its
end is summarised. -/
def journal (files : FileTree) (r : Request) (v : Verbosity) : Journal :=
  if files.isDirectory r.directory then
    let l := r.listingAt files v
    let j := l.items.foldl Journal.note (.start v)
    match l.failure with
    | some _ => j
    | none => j.note (.event (.summarised l.tally))
  else .start v

/-- **The chains of a run**: that of its sources, and those of the directories that it enters. -/
def scopes (files : FileTree) (r : Request) : List Chain :=
  (RuleSource.applyAll files (Chain.root r.directory) r.sources).chain ::
    (r.entrances files).map (·.chain files)

end Request

/-- The report of a listing that is put out at a verbosity, with its counts. -/
def Report.ofListing (v : Verbosity) (l : Listing) : Report :=
  let o := Output.render v [] l.items
  match l.failure with
  | some e => .failed (.badRules e) o
  | none =>
    let counted : Output :=
      ⟨o.stdout ++ l.tally.lines v, o.stderr, o.pending ++ v.observe [.summarised l.tally]⟩
    if l.gaps = 0 then ⟨0, counted.stdout, counted.stderr, counted.pending⟩
    else .failed (.incomplete l.gaps) counted

theorem Listing.LooksLike.report {v : Verbosity} {l l' : Listing} (h : l.LooksLike v l') :
    Report.ofListing v l = Report.ofListing v l' := by
  simp only [Report.ofListing, Output.render_congr h.items, h.failure, h.tally, h.gaps]

namespace Request

variable {files : FileTree} {args args' : List Text} {r r' : Request} {v v' : Verbosity}

/-- **A listing with explanations on demand looks like one that has them all.** -/
theorem looksLike_listingAt (files : FileTree) (r : Request) (v : Verbosity) :
    (r.listingAt files v).LooksLike v (r.listing files) := by
  have hrespects := Listing.respects_looksLike v
  rw [listingAt, listing]
  exact hrespects.andThen (hrespects.refl _) fun _ => Survey.looksLike_listRootAt ..

/-- **A run puts out what one does that explains on demand.** -/
theorem run_eq_ofListing (hv : r.verbosity = .ok v) (hdir : files.isDirectory r.directory = true) :
    r.run files = .ofListing v (r.listingAt files v) := by
  rw [(looksLike_listingAt files r v).report]
  simp only [run, hv, hdir, if_true]
  rfl

/-- **A run records what one does that explains on demand.** -/
theorem kept_journal (hv : r.verbosity = .ok v) : (r.journal files v).kept = r.recorded files := by
  have hlooks := looksLike_listingAt files r v
  simp only [journal, recorded, hv]
  cases hdir : files.isDirectory r.directory with
  | false => rfl
  | true =>
    have hitems : ((r.listingAt files v).items.foldl Journal.note (.start v)) =
        ⟨v, (r.listing files).items.flatMap (Output.diagnosticsOf v)⟩ := by
      rw [Journal.foldl_note, ← Output.diagnosticsOf_congr hlooks.items]
      rfl
    simp only [if_true, hitems, hlooks.failure, hlooks.tally]
    cases (r.listing files).failure with
    | some e => simp only [List.append_nil]
    | none => simp only [Journal.note_eq, Output.diagnosticsOf]

/-- The status of a run whose flags are accepted is told by its directory and its listing. -/
theorem status_run (hv : r.verbosity = .ok v) :
    (r.run files).status =
      if files.isDirectory r.directory then
        match (r.listing files).failure with
        | some e => (RunFailure.badRules e).status
        | none => if (r.listing files).gaps = 0 then 0 else 23
      else 23 := by
  simp only [run, hv]
  cases hdir : files.isDirectory r.directory with
  | false => rfl
  | true =>
    simp only [if_true]
    cases hfailure : (r.listing files).failure with
    | some e => rfl
    | none =>
      dsimp only
      split <;> rfl

/-- The lines of entries of a run whose flags are accepted are those of its listing. -/
theorem entryLines_eq (hv : r.verbosity = .ok v) :
    r.entryLines files =
      if files.isDirectory r.directory then (r.listing files).entries else [] := by
  have hcounts (texts : List String) :
      (texts.map OutputLine.count).filterMap OutputLine.entry? = [] := by
    simp [List.filterMap_map, Function.comp_def, OutputLine.entry?]
  simp only [entryLines, shown, hv]
  cases hdir : files.isDirectory r.directory with
  | false => rfl
  | true =>
    simp only [if_true, List.filterMap_append, Output.entries_shown, Listing.entries_eq]
    cases hfailure : (r.listing files).failure with
    | some e => exact List.append_nil _
    | none =>
      simp only [List.filterMap_append, hcounts, List.nil_append]
      split <;> exact List.append_nil _

/-! ## Two verbosities -/

/-- What is recorded is what is wanted of what is recorded at a verbosity that is no lower. -/
theorem diagnosticsOf_eq_select (h : ∀ flag, v.level flag ≤ v'.level flag) (item : ListingItem) :
    Output.diagnosticsOf v item = v.select (Output.diagnosticsOf v' item) := by
  have hadmits {flag : Flag} {l : UInt8} (hl : v.admits flag l = true) :
      v'.admits flag l = true := by
    simp only [Verbosity.admits, decide_eq_true_eq] at hl ⊢
    exact UInt8.le_trans hl (h flag)
  cases item with
  | event e =>
    simp only [Output.diagnosticsOf, Verbosity.observe_eq_select, Verbosity.select,
      List.filter_filter]
    refine List.filter_congr fun d _ => ?_
    cases hd : v.admits d.flag d.level with
    | true => rw [hadmits hd]; rfl
    | false => rfl
  | remark r =>
    have hselect : v.select [r.diagnostic] =
        if v.admits r.flag r.level then [r.diagnostic] else [] := by
      cases hr : v.admits r.flag r.level <;> simp [Verbosity.select, Remark.diagnostic, hr]
    rw [Output.diagnosticsOf, Output.diagnosticsOf]
    cases hr : v.admits r.flag r.level with
    | true => rw [hadmits hr, if_pos rfl, hselect, hr, if_pos rfl]
    | false =>
      rw [if_neg Bool.false_ne_true]
      split
      · rw [hselect, hr, if_neg Bool.false_ne_true]
      · rfl
  | _ => rfl

/-- **What a run records is what is wanted of what a more verbose one records.** -/
theorem recorded_eq_select (hv : r.verbosity = .ok v)
    (hlevels : ∀ flag, v.level flag ≤ v'.level flag) :
    r.recorded files = v.select (recorded files { r with verbosity := .ok v' }) := by
  have hitems (items : List ListingItem) : items.flatMap (Output.diagnosticsOf v) =
      v.select (items.flatMap (Output.diagnosticsOf v')) := by
    rw [Verbosity.select, List.filter_flatMap]
    exact List.flatMap_congr fun item _ => diagnosticsOf_eq_select hlevels item
  have hlisting : listing files { r with verbosity := .ok v' } = r.listing files := rfl
  simp only [recorded, hv, hlisting]
  cases hdir : files.isDirectory r.directory with
  | false => rfl
  | true =>
    simp only [if_true, Verbosity.select_append, ← hitems]
    cases (r.listing files).failure with
    | some e => rfl
    | none => exact congrArg _ (diagnosticsOf_eq_select hlevels (.event _))

/-- **Verbosity only observes.** Two runs of command lines that differ in verbosity only end with
the same status, list the same entries, build the same chains and come to the same verdicts. If no
flag has a higher level in the first, then what is recorded in it is what is wanted there of what is
recorded in the second. The verdicts and the record are those of walks that explain on demand, and
each run puts out the listing of its walk, if it has a directory to list, and records what its walk
does. -/
theorem run_observed (halike : AlikeButVerbosity args args') (hr : parse args = .ok r)
    (hr' : parse args' = .ok r') (hv : r.verbosity = .ok v) (hv' : r'.verbosity = .ok v') :
    (r.run files).status = (r'.run files).status ∧
      r.entryLines files = r'.entryLines files ∧
      r.scopes files = r'.scopes files ∧
      (r.listingAt files v).verdicts = (r'.listingAt files v').verdicts ∧
      ((∀ flag, v.level flag ≤ v'.level flag) →
        (r.journal files v).kept = v.select (r'.journal files v').kept) ∧
      (files.isDirectory r.directory = true →
        r.run files = .ofListing v (r.listingAt files v) ∧
          r'.run files = .ofListing v' (r'.listingAt files v')) ∧
      (r.journal files v).kept = r.recorded files ∧
      (r'.journal files v').kept = r'.recorded files := by
  have heq := parse_alike halike hr hr'
  rw [hv'] at heq
  have hlisting : r'.listing files = r.listing files := by rw [heq]; rfl
  have hdirectory : r'.directory = r.directory := by rw [heq]
  refine ⟨?_, ?_, ?_, ?_, fun hlevels => ?_, fun hdir => ⟨run_eq_ofListing hv hdir, ?_⟩,
    kept_journal hv, kept_journal hv'⟩
  · rw [status_run hv, status_run hv', hlisting, hdirectory]
  · rw [entryLines_eq hv, entryLines_eq hv', hlisting, hdirectory]
  · rw [heq]
    rfl
  · rw [(looksLike_listingAt files r v).verdicts, (looksLike_listingAt files r' v').verdicts,
      hlisting]
  · rw [kept_journal hv, kept_journal hv', recorded_eq_select hv hlevels, heq]
  · exact run_eq_ofListing hv' (by rw [hdirectory, hdir])

/-- A run that is asked to explain itself, and one that is asked for all comparisons and the counts
too. -/
theorem run_observed_explained :
    let args : List Text := ["--debug=filter", "-F", "/w"].map String.toList
    let args' : List Text := ["-vvF", "/w", "-v", "--stats", "--info", "skip2"].map String.toList
    let entries : List (Text × Node) := [(ruleFileName, .file (Text.utf8 "- *.o\n".toList)),
      ("a.o".toList, .file []), ("b.c".toList, .file [])]
    let files : FileTree := ⟨.directory [("w".toList, .directory entries)], []⟩
    let v : Verbosity := ⟨⟨0, 0, 0, 0⟩, ⟨0, 1, 0⟩⟩
    let v' : Verbosity := ⟨⟨1, 2, 2, 2⟩, ⟨2, 2, 2⟩⟩
    let r : Request := ⟨"/w".toList, [.usualRuleFile 0], false, .ok v⟩
    let r' : Request := ⟨"/w".toList, [.usualRuleFile 0], false, .ok v'⟩
    AlikeButVerbosity args args' ∧ parse args = .ok r ∧ parse args' = .ok r' ∧
      (r.run files).status = (r'.run files).status ∧
      r.entryLines files = r'.entryLines files ∧
      (r.journal files v).kept = v.select (r'.journal files v').kept ∧
      r.run files = .ofListing v (r.listingAt files v) ∧
      r'.run files = .ofListing v' (r'.listingAt files v') := by
  intro args args' entries files v v' r r'
  let os : List Occurrence := [.debug "filter".toList, .usualRuleFile, .directory "/w".toList]
  let os' : List Occurrence := [.verbose, .verbose, .usualRuleFile, .directory "/w".toList,
    .verbose, .stats, .info "skip2".toList]
  have hscan : scan [] args = .ok os := by decide +kernel
  have hscan' : scan [] args' = .ok os' := by decide +kernel
  have hr : parse args = .ok r := by
    have hverbosity : verbosityOf os = .ok v := by decide +kernel
    have hsources : RuleSource.collect args os = [.usualRuleFile 0] := by decide +kernel
    exact parse_of_scan hscan rfl hsources hverbosity
  have hr' : parse args' = .ok r' := by
    have hverbosity : verbosityOf os' = .ok v' := by decide +kernel
    have hsources : RuleSource.collect args' os' = [.usualRuleFile 0] := by decide +kernel
    exact parse_of_scan hscan' rfl hsources hverbosity
  have halike : AlikeButVerbosity args args' := ⟨os, os', hscan, hscan', by decide +kernel⟩
  have hlevels : ∀ flag, v.level flag ≤ v'.level flag := by
    rintro ((_ | _ | _ | _) | (_ | _ | _)) <;> decide
  have hdir : files.isDirectory r.directory = true := by decide +kernel
  obtain ⟨hstatus, hlines, -, -, hrecorded, hruns, -, -⟩ := run_observed halike hr hr' rfl rfl
  exact ⟨halike, hr, hr', hstatus, hlines, hrecorded hlevels, hruns hdir⟩

end Request

end PathFilter
