import PathFilter.Proofs.FileTree.PlainPath
import PathFilter.Proofs.Listing.Shown
import PathFilter.Proofs.Listing.Visit
import Mathlib.Order.Nat

/-!
# The lines of a walk

A run whose rules and directories can all be read puts out one line for every entry of every
directory that it enters, an entry before what lies below it and before the entries whose names have
greater bytes. The sign of a line is the verdict of the chain of the directory that the entry lies
in, the directories entered are the first one and those whose lines do not say that they are
excluded, and the counts are those of the lines.

## Main definitions

* `Listing.Covers`: a listing has the lines with a property, in order
* `Request.top`: the directory that a request has listed, below the rules of its sources
* `Request.HasRows`: some lines are those of a run, and all about them is as it should be

## Main results

* `Survey.covers_listEntries`: the lines of entries in order
* `Survey.covers_listNode`: the lines of an entry, by induction on what lies below it
* `Survey.covers_listRoot`: the lines of a walk, with the directory that it starts in
* `Request.exists_hasRows`: a run has its lines
-/

namespace PathFilter

/-- **Whether a listing has exactly the lines with a property**, in the order of lines, and enters
the directories that these do not exclude. -/
def Listing.Covers (l : Listing) (p : Row → Prop) : Prop :=
  ∃ rows : List Row, l.Shows (rows.map Row.entry) (Entry.enteredPaths (rows.map Row.entry)) ∧
    (∀ row, row ∈ rows ↔ p row) ∧ rows.Pairwise Row.Precedes

namespace Survey

variable {s : Survey} {d : Visit}

/-- The listing of a directory has the lines of its entries if those of its entries have theirs. -/
theorem covers_listEntries {entries : List (Text × Node)}
    (hsorted : entries.Pairwise fun a b => a.1.utf8 < b.1.utf8)
    (h : ∀ e ∈ entries, (s.listNode d.chain d.path (Path.relative d.names) e.1 e.2.sorted).Covers
      (d.ListsAt s e.1 e.2)) :
    (s.listEntries d.chain d.path (Path.relative d.names)
        (entries.map fun e => (e.1, e.2.sorted))).Covers
      fun row => ∃ e ∈ entries, d.ListsAt s e.1 e.2 row := by
  induction entries with
  | nil => exact ⟨[], Listing.shows_empty, by simp, .nil⟩
  | cons e entries ih =>
    obtain ⟨hbefore, hrest⟩ := List.pairwise_cons.mp hsorted
    obtain ⟨rows, hshows, hmem, horder⟩ := h e List.mem_cons_self
    obtain ⟨rows', hshows', hmem', horder'⟩ :=
      ih hrest fun e' he' => h e' (List.mem_cons_of_mem _ he')
    refine ⟨rows ++ rows', ?_, fun row => ?_, List.pairwise_append.mpr ⟨horder, horder', ?_⟩⟩
    · rw [List.map_cons, listEntries_cons, List.map_append, Entry.enteredPaths_append]
      exact hshows.andThen hshows'
    · simp [hmem, hmem']
    · intro a ha b hb
      obtain ⟨e', he', hb⟩ := (hmem' b).mp hb
      exact Visit.precedes_of_listsAt ((hmem a).mp ha) hb (hbefore e' he')

/-- The listing of a directory that can be read has its lines. -/
theorem covers_listing (hd : d.IsReadable s.files)
    (h : ∀ name node, (name, node) ∈ d.entries →
      (s.listNode d.chain d.path (Path.relative d.names) name node.sorted).Covers
        (d.ListsAt s name node)) :
    (s.listing d.path fun _ => s.listEntries d.chain d.path (Path.relative d.names)
      (Node.sortEntries (Node.sortedEntries d.entries))).Covers (d.Lists s) := by
  rw [listing_of_isDirectory hd.listed, Node.sortEntries_sortedEntries]
  have hmem (e : Text × Node) : e ∈ Node.sortEntries d.entries ↔ e ∈ d.entries :=
    List.mem_mergeSort
  obtain ⟨rows, hshows, hrows, horder⟩ := covers_listEntries
    (Node.pairwise_sortEntries hd.distinct) fun e he => h e.1 e.2 ((hmem e).mp he)
  refine ⟨rows, hshows, fun row => ?_, horder⟩
  rw [hrows, Visit.lists_iff]
  simp [hmem]

theorem shows_mention_row (s : Survey) (d : Visit) (name : Text) (node : Node) :
    (s.mention d.chain (Path.below (Path.relative d.names) name) node.isDirectory).Shows
      [(d.row s name node).entry] [] := by
  rw [← Path.relative_concat]
  exact shows_mention s d.chain (d.candidate name) node.isDirectory

/-- The listing of an entry that is no directory has its line. -/
theorem covers_mention {name : Text} {node : Node} (hnode : node.isDirectory = false) :
    (s.mention d.chain (Path.below (Path.relative d.names) name) false).Covers
      (d.ListsAt s name node) := by
  refine ⟨[d.row s name node], ?_, fun row => ?_, List.pairwise_singleton _ _⟩
  · have hshows := shows_mention_row s d name node
    rw [hnode] at hshows
    simpa [Entry.enteredPaths, Entry.isEntered, Visit.row, hnode] using hshows
  · rw [List.mem_singleton, Visit.ListsAt]
    refine ⟨.inl, fun h => h.resolve_right ?_⟩
    rintro ⟨entries, rfl, -⟩
    cases hnode

theorem candidate_eq_below (d : Visit) (name : Text) :
    Path.below (Path.relative d.names) name = d.candidate name :=
  (Path.relative_concat d.names name).symm

/-- The listing of a directory that is excluded has its line, and nothing below it is listed. -/
theorem covers_listNode_excluded {name : Text} (hv : d.verdict name true = .excluded)
    (entries shown : List (Text × Node)) :
    (s.listNode d.chain d.path (Path.relative d.names) name (.directory shown)).Covers
      (d.ListsAt s name (.directory entries)) := by
  have hmention := shows_mention_row s d name (.directory entries)
  rw [listNode, walkNode]
  rw [candidate_eq_below] at hmention ⊢
  simp only [Visit.excludes_eq_true_iff.mpr hv, if_true]
  refine ⟨[d.row s name (.directory entries)], ?_, ?_, List.pairwise_singleton _ _⟩
  · have hskipped := Listing.shows_ofItems
      ((ListingItem.show_remark (.skipped (d.candidate name))).append ListingItem.show_flush)
    have hnone : Entry.enteredPaths [(d.row s name (.directory entries)).entry] = [] := by
      simp [Entry.enteredPaths, Entry.isEntered, Visit.row, Node.isDirectory, hv]
    rw [List.map_singleton, hnone]
    exact hmention.andThen hskipped
  · intro row
    rw [List.mem_singleton, Visit.ListsAt]
    refine ⟨.inl, fun h => h.resolve_right ?_⟩
    rintro ⟨-, -, hnot, -⟩
    exact hnot hv

/-- The listing of a directory that the walk goes on to has its line, and then the lines of the
directory. -/
theorem covers_listNode_entered {name : Text} {entries shown : List (Text × Node)}
    (hv : d.verdict name true ≠ .excluded)
    (hread : (d.enter s.files name entries).IsReadable s.files)
    (h : (s.listing (d.enter s.files name entries).path fun _ =>
      s.listEntries (d.enter s.files name entries).chain (d.enter s.files name entries).path
        (Path.relative (d.enter s.files name entries).names) shown).Covers
          ((d.enter s.files name entries).Lists s)) :
    (s.listNode d.chain d.path (Path.relative d.names) name (.directory shown)).Covers
      (d.ListsAt s name (.directory entries)) := by
  have hmention := shows_mention_row s d name (.directory entries)
  rw [listNode, walkNode]
  rw [candidate_eq_below] at hmention ⊢
  simp only [mt Visit.excludes_eq_true_iff.mp hv, Bool.false_eq_true, if_false]
  obtain ⟨rows, hshows, hmem, horder⟩ := h
  refine ⟨d.row s name (.directory entries) :: rows, ?_, ?_, ?_⟩
  · have hentered : Entry.enteredPaths
        ((d.row s name (.directory entries) :: rows).map Row.entry) =
          d.candidate name :: Entry.enteredPaths (rows.map Row.entry) := by
      simp [Entry.enteredPaths, Entry.isEntered, Visit.row, Node.isDirectory, hv]
    rw [hentered]
    exact hmention.andThen (shows_entering hread.loaded
      (Outcome.entersNothing_descend ..) (d.candidate name) hshows)
  · intro row
    rw [List.mem_cons, hmem, Visit.ListsAt]
    refine or_congr_right ⟨fun h => ⟨entries, rfl, hv, h⟩, ?_⟩
    rintro ⟨_, ⟨⟩, -, h⟩
    exact h
  · refine List.pairwise_cons.mpr ⟨?_, horder⟩
    intro b hb
    exact Visit.row_precedes ((hmem b).mp hb)

/-- **The listing of an entry has its lines**, by induction on what lies below it. -/
theorem covers_listNode (node : Node) (d : Visit) (name : Text)
    (hread : ∀ entries e, node = .directory entries → d.verdict name true ≠ .excluded →
      (d.enter s.files name entries).Reaches s.files e → e.IsReadable s.files) :
    (s.listNode d.chain d.path (Path.relative d.names) name node.sorted).Covers
      (d.ListsAt s name node) := by
  induction node using Node.induction generalizing d name with
  | hfile bytes => exact covers_mention rfl
  | hlink target => exact covers_mention rfl
  | hdirectory entries ih =>
    by_cases hv : d.verdict name true = .excluded
    · exact covers_listNode_excluded hv entries _
    · have hbelow := hread entries _ rfl hv .refl
      refine covers_listNode_entered hv hbelow (covers_listing hbelow ?_)
      intro n x hmem
      refine ih (n, x) hmem (d.enter s.files name entries) n ?_
      rintro es f rfl hv' hreach
      exact hread entries f rfl hv (.head ⟨n, es, hmem, hv', rfl⟩ hreach)

/-- The lines of a directory and of those that the walk goes on to. -/
theorem covers_visit (hread : ∀ e, d.Reaches s.files e → e.IsReadable s.files) :
    (s.listing d.path fun _ => s.listEntries d.chain d.path (Path.relative d.names)
      (Node.sortEntries (Node.sortedEntries d.entries))).Covers (d.Lists s) := by
  refine covers_listing (hread d .refl) ?_
  intro name node hmem
  refine covers_listNode node d name ?_
  rintro es e rfl hv hreach
  exact hread e (.head ⟨name, es, hmem, hv, rfl⟩ hreach)

theorem sortedEntriesAt_eq {files : FileTree} {directory : Text}
    (h : files.isDirectory directory = true) (outer : Chain) :
    sortedEntriesAt files directory =
      Node.sortEntries (Node.sortedEntries (Visit.top files outer directory).entries) := by
  unfold FileTree.isDirectory at h
  unfold sortedEntriesAt Visit.top
  split at h
  · next hresolve =>
    rw [hresolve]
    rfl
  · cases h

/-- **The listing of a walk has the lines of the directory that it starts in**, which it enters
first. -/
theorem covers_listRoot (s : Survey) (c : Chain) (directory : Text)
    (hread : ∀ d, (Visit.top s.files c directory).Reaches s.files d → d.IsReadable s.files) :
    ∃ rows : List Row,
      (s.listRoot c directory).Shows (rows.map Row.entry)
        (['.'] :: Entry.enteredPaths (rows.map Row.entry)) ∧
      (∀ row, row ∈ rows ↔ (Visit.top s.files c directory).Lists s row) ∧
      rows.Pairwise Row.Precedes := by
  have htop : (Visit.top s.files c directory).IsReadable s.files := hread _ .refl
  obtain ⟨rows, hshows, hmem, horder⟩ := covers_visit hread
  have hwalk : (entering (c.descend s.files directory) ['.'] fun c' =>
      s.listing directory fun _ => s.listEntries c' directory ['.']
        (sortedEntriesAt s.files directory)).Shows (rows.map Row.entry)
          (['.'] :: Entry.enteredPaths (rows.map Row.entry)) := by
    rw [show sortedEntriesAt s.files directory = _ from sortedEntriesAt_eq htop.listed c]
    exact shows_entering htop.loaded (Outcome.entersNothing_descend ..) ['.'] hshows
  have hcounted : Listing.Shows ⟨[], Tally.zero.addRules c.ruleCount, none⟩ [] [] :=
    ⟨rfl, ListingItem.show_nil, rfl, rfl, rfl⟩
  have hall : (s.listRoot c directory).Shows ([] ++ (rows.map Row.entry ++ []))
      ([] ++ (['.'] :: Entry.enteredPaths (rows.map Row.entry) ++ [])) := by
    rw [listRoot, walk]
    exact hcounted.andThen (hwalk.andThen (Listing.shows_ofItems ListingItem.show_flush))
  simp only [List.nil_append, List.append_nil] at hall
  exact ⟨rows, hall, hmem, horder⟩

end Survey

/-- The first character of a line tells the verdict. -/
theorem Entry.head?_text (e : Entry) :
    e.text.toList.head? = some (if e.verdict = .excluded then '-' else '+') := by
  rcases h : e.verdict <;> simp [Entry.text, Entry.sign, h, String.toList_append]

theorem Entry.countP_plus (es : List Entry) :
    (es.map text).countP (·.toList.head? = some '+') = es.countP (·.verdict ≠ .excluded) := by
  rw [List.countP_map]
  refine List.countP_congr fun e _ => ?_
  by_cases he : e.verdict = .excluded <;> simp [head?_text, he]

theorem Entry.countP_minus (es : List Entry) :
    (es.map text).countP (·.toList.head? = some '-') = es.countP (·.verdict = .excluded) := by
  rw [List.countP_map]
  refine List.countP_congr fun e _ => ?_
  by_cases he : e.verdict = .excluded <;> simp [head?_text, he]

namespace Request

/-- **The directory that a request has listed**, below the rules of its sources. -/
def top (files : FileTree) (r : Request) : Visit :=
  .top files (RuleSource.applyAll files (Chain.root r.directory) r.sources).chain r.directory

variable {files : FileTree} {r : Request} {v : Verbosity}

/-- A run puts out the lines of its listing and succeeds, if no info flag is set. -/
theorem run_of_shows {entries : List Entry} {visited : List Text} (hv : r.verbosity = .ok v)
    (hsilent : ∀ flag, v.level (.info flag) = 0) (htop : files.isDirectory r.directory = true)
    (h : (r.listing files).Shows entries visited) :
    (r.run files).stdout = entries.map Entry.text ∧ (r.run files).status = 0 := by
  have hrender : (Output.render v [] (r.listing files).items).stdout = entries.map Entry.text := by
    rw [← h.items.entries]
    exact Output.stdout_render hsilent (by simp) _
  simp [run, hv, htop, h.failure, h.gaps, Tally.lines_eq_nil hsilent, hrender]

/-- **Whether some lines are those of a run**, and all about them is as it should be. -/
structure HasRows (files : FileTree) (r : Request) (rows : List Row) : Prop where
  /-- They are what the run puts out. -/
  stdout : (r.run files).stdout = rows.map (·.entry.text)
  /-- They are the lines of the entries of all directories that the run comes to. -/
  complete : ∀ row, row ∈ rows ↔ (r.top files).Lists ⟨files, r.withDeletion⟩ row
  /-- Each comes before those of what lies below its entry and of entries with greater names. -/
  order : rows.Pairwise Row.Precedes
  /-- The run comes to its own directory and to those that are listed and not excluded. -/
  visited : (r.listing files).visited = ['.'] :: Entry.enteredPaths (rows.map Row.entry)
  evaluated : (r.listing files).tally.evaluated = (r.run files).stdout.length
  passed : (r.listing files).tally.passed =
    (r.run files).stdout.countP (·.toList.head? = some '+')
  excluded : (r.listing files).tally.excluded =
    (r.run files).stdout.countP (·.toList.head? = some '-')
  status : (r.run files).status = 0

/-- **The lines of a run**, if no info flag is set and its rules and all directories that it comes
to can be read. -/
theorem exists_hasRows (hv : r.verbosity = .ok v) (hsilent : ∀ flag, v.level (.info flag) = 0)
    (hrules : (RuleSource.applyAll files (Chain.root r.directory) r.sources).failure = none)
    (hread : ∀ d, (r.top files).Reaches files d → d.IsReadable files) :
    ∃ rows, r.HasRows files rows := by
  obtain ⟨rows, hwalk, hmem, horder⟩ :=
    Survey.covers_listRoot ⟨files, r.withDeletion⟩ _ r.directory hread
  have hsources : Listing.Shows ⟨(RuleSource.applyAll files (Chain.root r.directory)
      r.sources).events.map .event, .zero, (RuleSource.applyAll files (Chain.root r.directory)
        r.sources).failure⟩ [] [] :=
    ⟨hrules, ListingItem.show_quiet (Outcome.entersNothing_sources ..), Tally.counts_zero⟩
  have hshows : (r.listing files).Shows ([] ++ rows.map Row.entry)
      ([] ++ ['.'] :: Entry.enteredPaths (rows.map Row.entry)) := by
    rw [listing]
    exact hsources.andThen hwalk
  rw [List.nil_append, List.nil_append] at hshows
  obtain ⟨hstdout, hstatus⟩ := run_of_shows hv hsilent (hread _ .refl).listed hshows
  exact ⟨rows, {
    stdout := by simp [hstdout]
    complete := hmem
    order := horder
    visited := hshows.items.visited
    evaluated := by simp only [hstdout, hshows.counts.evaluated, List.length_map]
    passed := by rw [hstdout, hshows.counts.passed, Entry.countP_plus]
    excluded := by rw [hstdout, hshows.counts.excluded, Entry.countP_minus]
    status := hstatus }⟩

/-- A directory with a file, a link, a directory that is listed, and one that is excluded. -/
theorem exists_hasRows_nested :
    let below : List (Text × Node) := [("y".toList, .file []), ("x".toList, .link "..".toList)]
    let entries : List (Text × Node) := [("skip".toList, .directory [("z".toList, .file [])]),
      ("b".toList, .directory below), ("a".toList, .file [])]
    let files : FileTree := ⟨.directory [("w".toList, .directory entries)], []⟩
    let r : Request := ⟨"/w".toList, [.exclude "skip".toList, .exclude "y".toList], true,
      .ok .silent⟩
    (∀ flag, Verbosity.silent.level (.info flag) = 0) ∧
      (RuleSource.applyAll files (Chain.root r.directory) r.sources).failure = none ∧
      (∀ d, (r.top files).Reaches files d → d.IsReadable files) ∧
      ∃ rows, r.HasRows files rows := by
  intro below entries files r
  have hsilent (flag : InfoFlag) : Verbosity.silent.level (.info flag) = 0 := by
    cases flag <;> rfl
  have hrules : (RuleSource.applyAll files (Chain.root r.directory) r.sources).failure = none := by
    decide +kernel
  have hw : files.resolve "/w".toList = .ok ("/w".toList, .directory entries) :=
    FileTree.resolve_pathOf ["w".toList] (by decide) (by decide) (by decide) rfl
      fun target h => by cases h
  have hb : files.resolve "/w/b".toList = .ok ("/w/b".toList, .directory below) :=
    FileTree.resolve_pathOf ["w".toList, "b".toList] (by decide) (by decide) (by decide) rfl
      fun target h => by cases h
  let inner : Visit := (r.top files).enter files "b".toList below
  have htopentries : (r.top files).entries = entries := by
    simp only [top, Visit.top, show r.directory = "/w".toList from rfl, hw]
  have hstep (d : Visit) (h : (r.top files).Enters files d) : d = inner := by
    obtain ⟨name, es, hmem, hv, rfl⟩ := h
    rw [htopentries] at hmem
    simp only [entries, List.mem_cons, Prod.mk.injEq, List.not_mem_nil, or_false] at hmem
    rcases hmem with ⟨rfl, ⟨⟩⟩ | ⟨rfl, ⟨⟩⟩ | ⟨-, ⟨⟩⟩
    · exact absurd (by decide +kernel) hv
    · rfl
  have hend (d : Visit) : ¬ inner.Enters files d := by
    rintro ⟨name, es, hmem, -⟩
    simp [inner, Visit.enter, below] at hmem
  have hread : ∀ d, (r.top files).Reaches files d → d.IsReadable files := by
    intro d hreach
    rcases Relation.ReflTransGen.cases_head hreach with rfl | ⟨e, he, hrest⟩
    · have hlisted : files.isDirectory "/w".toList = true := by rw [FileTree.isDirectory, hw]
      exact ⟨by decide +kernel, hlisted, by rw [htopentries]; decide⟩
    · obtain rfl := hstep e he
      rcases Relation.ReflTransGen.cases_head hrest with rfl | ⟨f, hf, -⟩
      · have hlisted : files.isDirectory "/w/b".toList = true := by rw [FileTree.isDirectory, hb]
        exact ⟨by decide +kernel, hlisted, by decide⟩
      · exact absurd hf (hend f)
  exact ⟨hsilent, hrules, hread, exists_hasRows rfl hsilent hrules hread⟩

end Request

end PathFilter
