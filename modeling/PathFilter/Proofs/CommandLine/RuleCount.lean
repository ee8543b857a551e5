import Mathlib.Algebra.GroupWithZero.Nat
import PathFilter.Proofs.Chain.Declaration
import PathFilter.Proofs.CommandLine.Observation
import PathFilter.Proofs.Listing.Stopping

/-!
# The rules that a run counts

A run counts the rules of its sources, and on entering a directory the rules that its rule file
brought. They are counted as soon as the file is read. A declaration may ask for the file to be
excluded from the transfer; the rule that does so comes later and is not counted. So the count falls
short of the rules that the chains hold, by one for every directory that has read its rule file
under such a declaration. The rule files themselves are all counted.

## Main definitions

* `Entrance.hidesOwn`: a directory that has read its rule file and excluded it
* `Listing.Accounts`: a listing tells of some directories and counts what they have read

## Main results

* `Chain.ruleCount_descend`: the rules of a directory are those that its rule file brought, and the
  one that excludes the file
* `Survey.accounts_listNode`: a walk accounts for the directories that it enters
* `Request.tally_falls_short`: by how much the count falls short of the rules held, and when it does
  not
* `Request.not_forall_tally_complete`: the count falls short
-/

namespace PathFilter

open CommandLine

/-! ## The number on record -/

namespace RuleSource

variable {files : FileTree}

/-- The rules of a source put no number on record, also if they are read from a file. -/
theorem loaded_apply (c : Chain) (source : RuleSource) :
    (source.apply files c).chain.here.loaded = c.here.loaded := by
  have hbuilt (x : Except FilterError Rule) : (c.addBuilt x).chain.here.loaded = c.here.loaded := by
    rcases x with e | r
    · rfl
    · exact c.loaded_add r
  unfold apply
  split
  · exact Script.loaded_run _ c
  · exact hbuilt _
  · exact hbuilt _
  · exact Script.loaded_run _ c
  · exact Script.loaded_run _ c
  · exact Script.loaded_run _ c
  · exact hbuilt _
  · rfl

/-- Neither do those of all sources: they are no rule file of a directory. -/
theorem loaded_applyAll (c : Chain) (sources : List RuleSource) :
    (applyAll files c sources).chain.here.loaded = c.here.loaded := by
  induction sources generalizing c with
  | nil => rfl
  | cons source sources ih =>
    exact Script.keeps_andThen (f := fun c => c.here.loaded) (loaded_apply c source) fun c' h =>
      (ih c').trans h

end RuleSource

/-! ## The rules of a directory -/

namespace Chain

/-- A file that is excluded from the transfer takes one rule. -/
theorem ruleCount_run_hiding {c : Chain} {hide : Bool} {file : Text}
    (h : ((Script.hiding hide file).run c).failure = none) :
    ((Script.hiding hide file).run c).chain.ruleCount = c.ruleCount + hide.toNat := by
  cases hide with
  | false => rfl
  | true =>
    rcases hr : Rule.excluding file with e | r
    · simp only [Script.hiding, Script.ofRule, Script.ofExcept, hr, if_true] at h
      cases h
    · simp only [Script.hiding, Script.ofRule, Script.ofExcept, hr, if_true]
      exact ruleCount_add c r

/-- **The rules of a directory** are those that its rule file brought, which are on record, and one
more if the file is excluded. Without a rule file there are none. -/
theorem ruleCount_descend {files : FileTree} {c : Chain} {directory : Text}
    (h : (c.descend files directory).failure = none) :
    let child := (c.descend files directory).chain
    child.ruleCount = child.here.loaded.getD 0 +
      (child.here.loaded.isSome && c.here.dirMerge.any (·.options.excludeSelf)).toNat := by
  intro child
  rcases descend_cases h with ⟨hchain, -⟩ | ⟨d, hd, -, hread, hchain⟩
  · rw [show child = c.enter directory from hchain]
    rfl
  · obtain ⟨-, hhidden, hown⟩ := readOwn_cases hread
    rw [show child = _ from hchain.trans hown, hd]
    -- a directory has no rules before it reads its file, so none were there to be taken off
    exact ruleCount_run_hiding hhidden

end Chain

/-- **Whether a directory has read its rule file and excluded it** from the transfer. -/
def Entrance.hidesOwn (files : FileTree) (e : Entrance) : Bool :=
  (e.chain files).here.loaded.isSome && e.outer.here.dirMerge.any (·.options.excludeSelf)

/-! ## What a walk counts -/

/-- **Whether a listing accounts for some directories.** It tells of entering them in order, and
counts the rule files that they have read and all of their rules, but for those that exclude such a
file. -/
structure Listing.Accounts (files : FileTree) (l : Listing) (es : List Entrance) : Prop where
  visited : l.visited = es.map (·.relative)
  ruleFiles : l.tally.ruleFiles = es.countP fun e => (e.chain files).here.loaded.isSome
  rules : l.tally.rules + es.countP (·.hidesOwn files) =
    (es.map fun e => (e.chain files).ruleCount).sum

namespace Listing

variable {files : FileTree}

/-- A listing that enters no directory and counts no rules accounts for none. -/
theorem accounts_nil {l : Listing} (hvisited : l.visited = []) (hrules : l.tally.rules = 0)
    (hruleFiles : l.tally.ruleFiles = 0) : l.Accounts files [] :=
  ⟨hvisited, hruleFiles, hrules⟩

section InARow

variable {l : Listing} {next : Unit → Listing} (hl : l.failure = none)
include hl

theorem tally_andThen : (l.andThen next).tally = l.tally.add (next ()).tally := by
  simp only [Listing.andThen, hl]

theorem visited_andThen : (l.andThen next).visited = l.visited ++ (next ()).visited := by
  simp only [visited, Listing.andThen, hl, List.filterMap_append]

/-- Listings in a row account for what the first does, and then for what the second does. -/
theorem Accounts.andThen {es es' : List Entrance} (h : l.Accounts files es)
    (h' : (next ()).Accounts files es') : (l.andThen next).Accounts files (es ++ es') where
  visited := by rw [visited_andThen hl, h.visited, h'.visited, List.map_append]
  ruleFiles := by
    simp only [tally_andThen hl, Tally.add, List.countP_append, h.ruleFiles, h'.ruleFiles]
  rules := by
    simp only [tally_andThen hl, Tally.add, List.countP_append, List.map_append, List.sum_append,
      ← h.rules, ← h'.rules]
    omega

end InARow

/-- Nothing has failed in two listings in a row if nothing has failed in either. -/
theorem failure_andThen_eq_none_iff {l : Listing} {next : Unit → Listing} :
    (l.andThen next).failure = none ↔ l.failure = none ∧ (next ()).failure = none := by
  rw [failure_andThen, Option.or_eq_none_iff]

end Listing

namespace Survey

variable {s : Survey}

/-- What is said about an entry accounts for no directory. -/
theorem accounts_mention (s : Survey) (c : Chain) (candidate : Text) (isDirectory : Bool) :
    (s.mention c candidate isDirectory).Accounts s.files [] := by
  have hverdict (v : Verdict) :
      (Tally.zero.addVerdict v).rules = 0 ∧ (Tally.zero.addVerdict v).ruleFiles = 0 := by
    cases v <;> exact ⟨rfl, rfl⟩
  obtain ⟨hrules, hruleFiles⟩ := hverdict (c.check candidate isDirectory .transfer)
  have hshows := s.shows_mention c candidate isDirectory
  exact Listing.accounts_nil hshows.items.visited hrules hruleFiles

/-- **Entering a directory accounts for it**, if its rule file can be read. -/
theorem accounts_entering {e : Entrance} {next : Chain → Listing} {es : List Entrance}
    (h : (entering (e.outer.descend s.files e.path) e.relative next).failure = none)
    (hnext : (e.outer.descend s.files e.path).failure = none →
      (next (e.chain s.files)).failure = none → (next (e.chain s.files)).Accounts s.files es) :
    (entering (e.outer.descend s.files e.path) e.relative next).Accounts s.files (e :: es) := by
  simp only [entering] at h ⊢
  cases hload : (e.outer.descend s.files e.path).failure with
  | some error => simp [hload] at h
  | none =>
    simp only [hload, Listing.failure_andThen_eq_none_iff, true_and] at h
    change Listing.Accounts s.files _ ([e] ++ es)
    refine .andThen rfl ⟨?_, ?_, ?_⟩ (hnext hload h)
    · exact ((ListingItem.show_quiet (Outcome.entersNothing_descend ..)).append
        (ListingItem.show_events [.entered e.relative _])).visited
    · simp only [List.countP_singleton, Entrance.chain]
      cases (e.outer.descend s.files e.path).chain.here.loaded <;> rfl
    · -- what is on record is counted, and the rule that hides the file makes up for the rest
      simp only [List.countP_singleton, List.map_singleton, List.sum_singleton, Entrance.hidesOwn,
        Entrance.chain, Chain.ruleCount_descend hload]
      cases (e.outer.descend s.files e.path).chain.here.loaded with
      | none => rfl
      | some n =>
        cases e.outer.here.dirMerge.any (·.options.excludeSelf) <;>
          simp [Tally.addRuleFile, Tally.zero]

/-- The listing of some entries accounts for what those of the entries do. -/
theorem accounts_listEntries {c : Chain} {path relative : Text} {entries : List (Text × Node)}
    (hnode : ∀ x ∈ entries, (s.listNode c path relative x.1 x.2).failure = none →
      (s.listNode c path relative x.1 x.2).Accounts s.files (s.entrances c path relative x.1 x.2))
    (h : (s.listEntries c path relative entries).failure = none) :
    (s.listEntries c path relative entries).Accounts s.files
      (s.entrancesAmong c path relative entries) := by
  induction entries with
  | nil => exact Listing.accounts_nil rfl rfl rfl
  | cons x entries ih =>
    obtain ⟨hfirst, hrest⟩ := List.forall_mem_cons.mp hnode
    rw [listEntries_cons] at h ⊢
    obtain ⟨hx, hentries⟩ := Listing.failure_andThen_eq_none_iff.mp h
    rw [entrancesAmong, hx]
    exact .andThen hx (hfirst hx) (ih hrest hentries)

/-- **A directory that is entered is accounted for**, and then what lies in it. -/
theorem accounts_visit {e : Entrance} {entries : List (Text × Node)}
    (hnode : ∀ x ∈ entries, ∀ c path relative, (s.listNode c path relative x.1 x.2).failure = none →
      (s.listNode c path relative x.1 x.2).Accounts s.files (s.entrances c path relative x.1 x.2))
    (h : (s.visit e entries).failure = none) :
    (s.visit e entries).Accounts s.files (s.entrancesFrom e entries) := by
  refine accounts_entering h fun hload hlisting => ?_
  rw [Outcome.onSuccess_of_none hload]
  simp only [listing] at hlisting ⊢
  cases hfault : s.files.listingFault? e.path with
  | some fault =>
    have hdirectory : ¬ s.files.isDirectory e.path = true := by
      rw [← FileTree.listingFault?_eq_none_iff, hfault]
      exact Option.some_ne_none fault
    rw [if_neg hdirectory]
    exact Listing.accounts_nil rfl rfl rfl
  | none =>
    rw [if_pos (FileTree.listingFault?_eq_none_iff.mp hfault)]
    rw [hfault] at hlisting
    exact accounts_listEntries (fun x hx => hnode x hx _ _ _) hlisting

/-- **A walk accounts for the directories that it enters** at an entry, if nothing fails. The
induction is on what lies below the entry. -/
theorem accounts_listNode (node : Node) {c : Chain} {path relative name : Text}
    (h : (s.listNode c path relative name node).failure = none) :
    (s.listNode c path relative name node).Accounts s.files
      (s.entrances c path relative name node) := by
  induction node using Node.induction generalizing c path relative name with
  | hfile bytes => exact s.accounts_mention ..
  | hlink target => exact s.accounts_mention ..
  | hdirectory entries ih =>
    rw [listNode_directory] at h ⊢
    obtain ⟨hmention, hbelow⟩ := Listing.failure_andThen_eq_none_iff.mp h
    rw [← List.nil_append (s.entrances c path relative name (.directory entries))]
    refine .andThen hmention (s.accounts_mention ..) ?_
    cases hex : c.excludes (Path.below relative name) true with
    | true =>
      simp only [entrances, hex, if_true]
      exact Listing.accounts_nil rfl rfl rfl
    | false =>
      simp only [hex, Bool.false_eq_true, if_false] at hbelow ⊢
      rw [entrances_directory hex]
      exact accounts_visit (fun x hx _ _ _ hx' => ih x hx hx') hbelow

end Survey

/-! ## What a run counts -/

namespace Request

variable {files : FileTree} {r : Request}

/-- **A run that nothing ends early** counts the rules that its chains hold but for those that
exclude a rule file, and all rule files. -/
theorem tally_listing (h : (r.listing files).failure = none) :
    (r.listing files).visited = (r.entrances files).map (·.relative) ∧
      (r.listing files).tally.rules + (r.entrances files).countP (·.hidesOwn files) =
        ((r.scopes files).map Chain.ruleCount).sum ∧
      (r.listing files).tally.ruleFiles =
        (r.scopes files).countP (·.here.loaded.isSome) := by
  let rules := RuleSource.applyAll files (Chain.root r.directory) r.sources
  let s : Survey := ⟨files, r.withDeletion⟩
  let e : Entrance := ⟨rules.chain, r.directory, ['.']⟩
  let entries := Survey.sortedEntriesAt files r.directory
  obtain ⟨hrules, hroot⟩ := Listing.failure_andThen_eq_none_iff.mp h
  rw [Survey.listRoot_eq] at hroot
  obtain ⟨-, hwalk⟩ := Listing.failure_andThen_eq_none_iff.mp hroot
  obtain ⟨hvisit, -⟩ := Listing.failure_andThen_eq_none_iff.mp hwalk
  have hentrances : r.entrances files = s.entrancesFrom e entries :=
    Outcome.onSuccess_of_none hrules _
  obtain ⟨hvisited, hruleFiles, hcount⟩ : (s.visit e entries).Accounts files (r.entrances files) :=
    hentrances ▸ Survey.accounts_visit (fun x _ _ _ _ hx => Survey.accounts_listNode x.2 hx) hvisit
  have hlisting : r.listing files =
      Listing.andThen ⟨rules.events.map .event, .zero, rules.failure⟩ fun _ =>
        Listing.andThen ⟨[], Tally.zero.addRules rules.chain.ruleCount, none⟩ fun _ =>
          (s.visit e entries).andThen fun _ => .ofItems [.flush] := rfl
  have htally : (r.listing files).tally =
      Tally.add (.addRules .zero rules.chain.ruleCount) (s.visit e entries).tally := by
    rw [hlisting, Listing.tally_andThen hrules, Listing.tally_andThen rfl,
      Listing.tally_andThen hvisit]
    exact (Tally.zero_add _).trans (congrArg _ (Tally.add_zero _))
  have hquiet := (ListingItem.show_quiet
    (Outcome.entersNothing_sources files (Chain.root r.directory) r.sources)).visited
  -- the chain of the sources holds rules, but has no rule file on record
  have hscopes : r.scopes files = rules.chain :: (r.entrances files).map (·.chain files) := rfl
  have hsources : rules.chain.here.loaded = none := RuleSource.loaded_applyAll _ r.sources
  refine ⟨?_, ?_, ?_⟩
  · rw [hlisting, Listing.visited_andThen hrules, Listing.visited_andThen rfl,
      Listing.visited_andThen hvisit, hvisited]
    simp only [Listing.visited, hquiet, List.nil_append]
    exact List.append_nil _
  · rw [htally, hscopes, List.map_cons, List.sum_cons, List.map_map]
    simp only [Function.comp_def, ← hcount, Tally.add, Tally.addRules, Tally.zero]
    omega
  · rw [htally, hscopes, List.countP_cons_of_neg (by simp [hsources]), List.countP_map]
    simp only [Function.comp_def, ← hruleFiles, Tally.add, Tally.addRules, Tally.zero, Nat.zero_add]

/-- A run with status 0 puts out its counts if they are wanted. -/
theorem counts_infix_stdout {v : Verbosity} (hv : r.verbosity = .ok v)
    (hlevel : v.admits (.info .stats) 2 = true) (h : (r.run files).status = 0) :
    let counted := (r.listing files).tally
    ["Filter rules: " ++ toString counted.rules,
      "Per-directory rule files: " ++ toString counted.ruleFiles] <:+: (r.run files).stdout := by
  intro counted
  obtain ⟨hdir, hfailure, -⟩ := entryLines_of_status h
  -- entries that were left out would end the run with another status
  have hgaps : (r.listing files).gaps = 0 := by
    rw [status_run hv, hdir, if_pos rfl, hfailure] at h
    by_contra hgaps
    simp [hgaps] at h
  have hlines : ["Filter rules: " ++ toString counted.rules,
      "Per-directory rule files: " ++ toString counted.ruleFiles] <:+: counted.lines v := by
    rw [Tally.lines, if_pos hlevel]
    exact ⟨_, _, List.append_assoc ..⟩
  refine hlines.trans ?_
  simp only [run, hv, hdir, if_true, hfailure, hgaps]
  exact (List.suffix_append _ _).isInfix

/-- **By how much the count of a run falls short.** The rules that a run with status 0 counts are
those that the chain of its sources and the chains of the directories that it enters hold, but for
one in every directory that has read its rule file and excluded it. So the count is complete exactly
if there is no such directory. The rule files are all counted. -/
theorem tally_falls_short (h : (r.run files).status = 0) :
    let counted := (r.listing files).tally
    let held := ((r.scopes files).map Chain.ruleCount).sum
    counted.rules + (r.entrances files).countP (·.hidesOwn files) = held ∧
      (counted.rules = held ↔ ∀ e ∈ r.entrances files, e.hidesOwn files = false) ∧
      counted.ruleFiles = (r.scopes files).countP (·.here.loaded.isSome) ∧
      (r.listing files).visited = (r.entrances files).map (·.relative) ∧
      ∀ v, r.verbosity = .ok v → v.admits (.info .stats) 2 = true →
        ["Filter rules: " ++ toString counted.rules,
          "Per-directory rule files: " ++ toString counted.ruleFiles] <:+:
            (r.run files).stdout := by
  intro counted held
  obtain ⟨-, hfailure, -⟩ := entryLines_of_status h
  obtain ⟨hvisited, hrules, hruleFiles⟩ := tally_listing hfailure
  refine ⟨hrules, ?_, hruleFiles, hvisited, fun v hv hlevel => counts_infix_stdout hv hlevel h⟩
  have hcomplete : counted.rules = held ↔ (r.entrances files).countP (·.hidesOwn files) = 0 := by
    simp only [counted, held, ← hrules]
    omega
  rw [hcomplete, List.countP_eq_zero]
  simp only [Bool.not_eq_true]

/-- Two directories that read their rule files and exclude them. The second one clears the rules
first. -/
theorem tally_falls_short_nested :
    let sub : List (Text × Node) :=
      [(".rules".toList, .file (Text.utf8 "!\n- a\nP b\n".toList)), ("a".toList, .file [])]
    let entries : List (Text × Node) :=
      [(".rules".toList, .file (Text.utf8 "- *.o\n".toList)), ("sub".toList, .directory sub)]
    let files : FileTree := ⟨.directory [("w".toList, .directory entries)], []⟩
    let r : Request :=
      ⟨"/w".toList, [.filter ":e .rules".toList], false, .ok ⟨⟨0, 0, 0, 2⟩, ⟨0, 0, 0⟩⟩⟩
    (r.run files).status = 0 ∧
      (r.listing files).tally.rules + 2 = ((r.scopes files).map Chain.ruleCount).sum ∧
      ["Filter rules: 4", "Per-directory rule files: 2"] <:+: (r.run files).stdout := by
  intro sub entries files r
  have hw : files.resolve "/w".toList = .ok ("/w".toList, .directory entries) :=
    FileTree.resolve_pathOf ["w".toList] (by decide) (by decide) (by decide) rfl
      fun target h => by cases h
  have hsorted : Survey.sortedEntriesAt files r.directory = entries := by
    rw [Survey.sortedEntriesAt, hw]
    cbv
  have hstatus : (r.run files).status = 0 := by
    simp only [run, listing, Survey.listRoot, Survey.walk, hsorted]
    decide +kernel
  have hhides : (r.entrances files).countP (·.hidesOwn files) = 2 := by
    rw [entrances, hsorted]
    decide +kernel
  have hrules : (r.listing files).tally.rules = 4 := by
    simp only [listing, Survey.listRoot, Survey.walk, hsorted]
    decide +kernel
  have hruleFiles : (r.listing files).tally.ruleFiles = 2 := by
    simp only [listing, Survey.listRoot, Survey.walk, hsorted]
    decide +kernel
  obtain ⟨hshort, -, -, -, hlines⟩ := tally_falls_short hstatus
  have hstdout := hlines _ rfl (by decide)
  rw [hhides] at hshort
  rw [hrules, hruleFiles] at hstdout
  exact ⟨hstatus, hshort, hstdout⟩

/-- **The rule that excludes a rule file in its own directory is held but not counted.** -/
theorem not_forall_tally_complete :
    ¬ ∀ (files : FileTree) (args : List Text) (r : Request), parse args = .ok r →
      (r.run files).status = 0 →
      (r.listing files).tally.rules = ((r.scopes files).map Chain.ruleCount).sum ∧
        (r.listing files).tally.ruleFiles = (r.scopes files).countP (·.here.loaded.isSome) := by
  intro h
  let entries : List (Text × Node) := [(".rules".toList, .file (Text.utf8 "- *.o\n".toList))]
  let files : FileTree := ⟨.directory [("w".toList, .directory entries)], []⟩
  let args : List Text := ["--filter=:e .rules", "--stats", "w"].map String.toList
  let v : Verbosity := ⟨⟨0, 0, 0, 2⟩, ⟨0, 0, 0⟩⟩
  let r : Request := ⟨"w".toList, [.filter ":e .rules".toList], false, .ok v⟩
  have hparse : parse args = .ok r := by
    let occurrences : List Occurrence :=
      [.filter ":e .rules".toList, .stats, .directory "w".toList]
    have hscan : scan [] args = .ok occurrences := by decide +kernel
    have hverbosity : verbosityOf occurrences = .ok v := by decide +kernel
    have hsources : RuleSource.collect args occurrences = [.filter ":e .rules".toList] := by
      decide +kernel
    exact parse_of_scan hscan rfl hsources hverbosity
  have hstatus : (r.run files).status = 0 := by decide +kernel
  have hheld : ((r.scopes files).map Chain.ruleCount).sum = 3 := by decide +kernel
  have hrules : (r.listing files).tally.rules = 2 := by decide +kernel
  obtain ⟨hcomplete, -⟩ := h files args r hparse hstatus
  rw [hheld, hrules] at hcomplete
  cases hcomplete

end Request

end PathFilter
