import PathFilter.Proofs.Listing.Course
import PathFilter.Proofs.Listing.Written
import Mathlib.Order.Nat

/-!
# The diagnostics of a run

A walk puts out its diagnostics after every entry and once more at its end. What is recorded later
waits: the summary behind the counts, and the events of reading rules that turn out to be faulty. No
info diagnostic is among them.

## Main definitions

* `Request.shown`: the lines of a run, in order
* `Request.recorded`: the diagnostics of a run, in order
* `Request.Drains`: whether all of them are put out

## Main results

* `Survey.carries_isSettled`: every remark of a walk is put out
* `Request.diagnostics_of_run`: which diagnostics a run puts out, and which of them wait
* `Request.not_forall_pending_eq_nil`: the summary waits after a run that has not failed
-/

namespace PathFilter

/-! ## Remarks are put out -/

namespace Listing

/-- **Whether no remark stands behind the last flush** of a listing. -/
structure IsSettled (l : Listing) : Prop where
  not_remark : ∀ r, .remark r ∉ ListingItem.unflushed l.items

theorem isSettled_of_flush (items : List ListingItem) (tally : Tally)
    (failure : Option FilterError) : IsSettled ⟨items ++ [.flush], tally, failure⟩ := by
  refine ⟨fun r h => ?_⟩
  simp only [ListingItem.unflushed_concat_flush] at h
  cases h

theorem isSettled_events (events : List Event) (tally : Tally) (failure : Option FilterError) :
    IsSettled ⟨events.map .event, tally, failure⟩ := by
  refine ⟨fun r h => ?_⟩
  have hnone : ListingItem.flush ∉ events.map ListingItem.event := by simp
  rw [ListingItem.unflushed, ListingItem.foldl_wait, if_neg hnone] at h
  simp at h

theorem IsSettled.andThen {l : Listing} {next : Unit → Listing} (hl : l.IsSettled)
    (hnext : (next ()).IsSettled) : (l.andThen next).IsSettled := by
  unfold Listing.andThen
  split
  · exact hl
  · refine ⟨fun r h => ?_⟩
    exact (ListingItem.mem_of_mem_unflushed_append h).elim (hl.not_remark r) (hnext.not_remark r)

/-- Whether a listing that has not failed ends with a flush. -/
structure EndsFlushed (l : Listing) : Prop where
  exists_eq_concat : l.failure = none → ∃ items, l.items = items ++ [.flush]

theorem EndsFlushed.andThen (l : Listing) {next : Unit → Listing} (h : (next ()).EndsFlushed) :
    (l.andThen next).EndsFlushed := by
  refine ⟨fun hok => ?_⟩
  unfold Listing.andThen at hok ⊢
  cases hl : l.failure with
  | some e =>
    simp only [hl] at hok
    cases hok
  | none =>
    simp only [hl] at hok ⊢
    obtain ⟨items, hitems⟩ := h.exists_eq_concat hok
    exact ⟨l.items ++ items, by rw [hitems, List.append_assoc]⟩

theorem EndsFlushed.unflushed {l : Listing} (h : l.EndsFlushed) (hok : l.failure = none) :
    ListingItem.unflushed l.items = [] := by
  obtain ⟨items, hitems⟩ := h.exists_eq_concat hok
  rw [hitems, ListingItem.unflushed_concat_flush]

end Listing

namespace Survey

/-- **Every remark of a walk is put out.** -/
theorem carries_isSettled (s : Survey) : s.Carries fun _ l => l.IsSettled where
  events _ := Listing.isSettled_events
  gap _ _ := by
    refine ⟨fun r hr => ?_⟩
    simp [Listing.ofItems, ListingItem.unflushed, ListingItem.wait] at hr
  skipped _ candidate := Listing.isSettled_of_flush [.remark (.skipped candidate)] _ _
  mention _ _ _ _ := Listing.isSettled_of_flush _ _ _
  andThen := .andThen
  below h := h

theorem settled_listRoot (s : Survey) (c : Chain) (path : Text) :
    (s.listRoot c path).IsSettled := by
  rw [listRoot_eq]
  refine Listing.IsSettled.andThen (Listing.isSettled_events [] _ _) ?_
  exact (s.carries_isSettled.visitAll _ _).andThen (Listing.isSettled_of_flush [] _ _)

theorem endsFlushed_listRoot (s : Survey) (c : Chain) (path : Text) :
    (s.listRoot c path).EndsFlushed := by
  have hflush : (Listing.ofItems [.flush]).EndsFlushed := ⟨fun _ => ⟨[], rfl⟩⟩
  rw [listRoot, walk]
  exact .andThen _ (.andThen _ hflush)

end Survey

/-! ## Accounts -/

namespace Output

/-- **Whether some lines account for what was put out** and for what was recorded: the diagnostics
among them and then those that wait are the ones that were recorded, and what waits is of debug
flags only. -/
structure Accounts (o : Output) (lines : List OutputLine) (recorded : List Diagnostic) : Prop where
  stdout : o.stdout = OutputLine.textsOn .output lines
  stderr : o.stderr = OutputLine.textsOn .error lines
  recorded : OutputLine.diagnostics lines ++ o.pending = recorded
  family : ∀ d ∈ o.pending, d.flag.family = .debug

theorem family_of_mem_observe {v : Verbosity} {events : List Event} {d : Diagnostic}
    (h : d ∈ v.observe events) : d.flag.family = .debug := by
  obtain ⟨e, -, rfl⟩ := List.mem_map.mp h
  cases e <;> rfl

theorem accounts_nothing : (waiting []).Accounts [] [] := ⟨rfl, rfl, rfl, by simp [waiting]⟩

/-- The lines of a listing account for it if its remarks are put out. -/
theorem accounts_render (v : Verbosity) {l : Listing} (hl : l.IsSettled) :
    (render v [] l.items).Accounts (shown v [] l.items) (l.items.flatMap (diagnosticsOf v)) := by
  obtain ⟨hout, herr⟩ := textsOn_shown v [] l.items
  refine ⟨hout.symm, herr.symm, diagnostics_shown_append_pending v [] l.items, fun d hd => ?_⟩
  rw [pending_eq] at hd
  obtain ⟨item, hitem, hd⟩ := List.mem_flatMap.mp hd
  cases item with
  | event e => exact family_of_mem_observe hd
  | remark r => exact absurd hitem (hl.not_remark r)
  | _ => cases hd

variable {o : Output} {lines : List OutputLine} {recorded : List Diagnostic}

/-- The counts are put out, and an event behind them waits. -/
theorem Accounts.counted (h : o.Accounts lines recorded) (v : Verbosity) (counts : List String)
    (events : List Event) :
    Accounts ⟨o.stdout ++ counts, o.stderr, o.pending ++ v.observe events⟩
      (lines ++ counts.map .count) (recorded ++ v.observe events) where
  stdout := by
    have hcounts : OutputLine.textsOn .output (counts.map .count) = counts := by
      induction counts with
      | nil => rfl
      | cons count counts ih => exact congrArg (count :: ·) ih
    rw [OutputLine.textsOn_append, h.stdout, hcounts]
  stderr := by
    have hcounts : OutputLine.textsOn .error (counts.map .count) = [] := by
      simp [OutputLine.textsOn, OutputLine.channel]
    rw [OutputLine.textsOn_append, h.stderr, hcounts, List.append_nil]
  recorded := by
    have hcounts : OutputLine.diagnostics (counts.map .count) = [] := by
      simp [OutputLine.diagnostics, List.filterMap_map, Function.comp_def, OutputLine.diagnostic?]
    rw [OutputLine.diagnostics_append, hcounts, List.append_nil, ← List.append_assoc, h.recorded]
  family d hd := (List.mem_append.mp hd).elim (h.family d) family_of_mem_observe

end Output

/-- What a run has put out. -/
def Report.output (report : Report) : Output := ⟨report.stdout, report.stderr, report.pending⟩

/-- The line of a failure comes last. -/
theorem Output.Accounts.failed {o : Output} {lines : List OutputLine} {recorded : List Diagnostic}
    (h : o.Accounts lines recorded) (f : RunFailure) :
    (Report.failed f o).output.Accounts (lines ++ [.failure f]) recorded where
  stdout := by
    rw [OutputLine.textsOn_append, ← h.stdout]
    exact (List.append_nil _).symm
  stderr := by
    rw [OutputLine.textsOn_append, ← h.stderr]
    rfl
  recorded := by
    rw [OutputLine.diagnostics_append, ← h.recorded]
    exact congrArg (· ++ o.pending) (List.append_nil _)
  family := h.family

/-! ## Runs -/

namespace Request

theorem settled_listing (files : FileTree) (r : Request) : (r.listing files).IsSettled := by
  rw [listing]
  exact (Listing.isSettled_events _ _ _).andThen (Survey.settled_listRoot ..)

theorem endsFlushed_listing (files : FileTree) (r : Request) : (r.listing files).EndsFlushed := by
  rw [listing]
  exact .andThen _ (Survey.endsFlushed_listRoot ..)

/-- **The lines of a run**, in order. -/
def shown (files : FileTree) (r : Request) : List OutputLine :=
  match r.verbosity with
  | .error fault => [.failure (.badFlag fault)]
  | .ok v =>
    if files.isDirectory r.directory then
      let l := r.listing files
      Output.shown v [] l.items ++
        match l.failure with
        | some e => [.failure (.badRules e)]
        | none => (l.tally.lines v).map .count ++
            if l.gaps = 0 then [] else [.failure (.incomplete l.gaps)]
    else [.failure (.noDirectory r.directory)]

/-- **The diagnostics of a run**, in order. A walk that comes to its end is summarised. -/
def recorded (files : FileTree) (r : Request) : List Diagnostic :=
  match r.verbosity with
  | .error _ => []
  | .ok v =>
    if files.isDirectory r.directory then
      let l := r.listing files
      l.items.flatMap (Output.diagnosticsOf v) ++
        match l.failure with
        | some _ => []
        | none => v.observe [.summarised l.tally]
    else []

/-- **Whether a run puts out all of its diagnostics.** A run whose rules can be read does unless the
summary is wanted, and any other run does if no diagnostic is wanted of what was traced behind the
last entry. -/
def Drains (files : FileTree) (r : Request) : Prop :=
  ∀ v, r.verbosity = .ok v → files.isDirectory r.directory = true →
    if (r.listing files).failure = none then v.level (.debug .filter) = 0
    else ∀ item ∈ ListingItem.unflushed (r.listing files).items, Output.diagnosticsOf v item = []

variable {files : FileTree} {r : Request} {v : Verbosity}

theorem observe_summarised_eq_nil_iff (v : Verbosity) (t : Tally) :
    v.observe [.summarised t] = [] ↔ v.level (.debug .filter) = 0 := by
  have hadmits : v.admits (.debug .filter) 1 = false ↔ v.level (.debug .filter) = 0 := by
    simp only [Verbosity.admits, decide_eq_false_iff_not, UInt8.le_iff_toNat_le,
      ← UInt8.toNat_inj, UInt8.toNat_one, UInt8.toNat_zero]
    omega
  rw [← hadmits]
  simp [Verbosity.observe, Event.flag, Event.severity, Severity.level]

/-- **The lines of a run account for it.** -/
theorem accounts_run (files : FileTree) (r : Request) :
    (r.run files).output.Accounts (r.shown files) (r.recorded files) := by
  rcases hv : r.verbosity with fault | v
  · simp only [run, shown, recorded, hv]
    exact Output.accounts_nothing.failed _
  cases hdir : files.isDirectory r.directory with
  | false =>
    simp only [run, shown, recorded, hv, hdir, Bool.false_eq_true, if_false]
    exact Output.accounts_nothing.failed _
  | true =>
    have hwalk := Output.accounts_render v (settled_listing files r)
    simp only [run, shown, recorded, hv, hdir, if_true]
    cases hf : (r.listing files).failure with
    | some e =>
      simp only [List.append_nil]
      exact hwalk.failed _
    | none =>
      have hcounted := hwalk.counted v ((r.listing files).tally.lines v)
        [.summarised (r.listing files).tally]
      simp only [← List.append_assoc]
      split
      · rw [List.append_nil]
        exact hcounted
      · exact hcounted.failed _

/-- What waits is the summary of a walk that has come to its end. -/
theorem pending_eq_nil_iff (files : FileTree) (r : Request) :
    (r.run files).pending = [] ↔ r.Drains files := by
  rcases hv : r.verbosity with fault | v
  · exact iff_of_true (by simp only [run, hv]; rfl) (by simp [Drains, hv])
  cases hdir : files.isDirectory r.directory with
  | false => exact iff_of_true (by simp only [run, hv, hdir]; rfl) (by simp [Drains, hdir])
  | true =>
    cases hf : (r.listing files).failure with
    | some e =>
      have hpending : (r.run files).pending =
          (Output.render v [] (r.listing files).items).pending := by
        simp only [run, hv, hdir, if_true, hf, Report.failed]
      rw [hpending, Output.pending_eq, List.flatMap_eq_nil_iff]
      simp [Drains, hv, hdir, hf]
    | none =>
      have hflushed : (Output.render v [] (r.listing files).items).pending = [] := by
        rw [Output.pending_eq, (endsFlushed_listing files r).unflushed hf]
        rfl
      have hpending : (r.run files).pending = v.observe [.summarised (r.listing files).tally] := by
        simp only [run, hv, hdir, if_true, hf, hflushed, List.nil_append]
        split <;> rfl
      rw [hpending, observe_summarised_eq_nil_iff]
      simp [Drains, hv, hdir, hf]

/-- **The diagnostics of a run.** Its lines are put out in order, and the diagnostics among them and
then those that wait are the ones that were recorded. What waits is of debug flags only, and nothing
waits exactly if the run drains its diagnostics. -/
theorem diagnostics_of_run (files : FileTree) (r : Request) :
    (r.run files).stdout = OutputLine.textsOn .output (r.shown files) ∧
      (r.run files).stderr = OutputLine.textsOn .error (r.shown files) ∧
      OutputLine.diagnostics (r.shown files) ++ (r.run files).pending = r.recorded files ∧
      (∀ d ∈ (r.run files).pending, d.flag.family = .debug) ∧
      ((r.run files).pending = [] ↔ r.Drains files) := by
  obtain ⟨hout, herr, hrecorded, hfamily⟩ := accounts_run files r
  exact ⟨hout, herr, hrecorded, hfamily, pending_eq_nil_iff files r⟩

/-- The summary of an empty directory waits. -/
theorem not_forall_pending_eq_nil :
    ¬ ∀ (files : FileTree) (args : List Text) (report : Report),
      CommandLine.run files args = .ok report → report.pending = [] := by
  intro h
  let files : FileTree := ⟨.directory [("w".toList, .directory [])], []⟩
  let args : List Text := ["--debug=filter".toList, "w".toList]
  let v : Verbosity := Verbosity.silent.set (.debug .filter) 1
  let r : Request := ⟨"w".toList, [], false, .ok v⟩
  have hparse : Request.parse args = .ok r := by
    have hscan : CommandLine.scan [] args =
        .ok [.debug "filter".toList, .directory "w".toList] := by decide +kernel
    have hverbosity : verbosityOf [.debug "filter".toList, .directory "w".toList] = .ok v := by
      decide +kernel
    rw [parse, hscan]
    simp only [hverbosity]
    rfl
  have hrun : CommandLine.run files args = .ok (r.run files) := by
    simp only [CommandLine.run, hparse]
  have hdirectory : files.isDirectory r.directory = true := by decide +kernel
  have hfailure : (r.listing files).failure = none := by decide +kernel
  have hdrains := (pending_eq_nil_iff files r).mp (h files args _ hrun) v rfl hdirectory
  rw [if_pos hfailure] at hdrains
  exact absurd hdrains (by decide)

end Request

end PathFilter
