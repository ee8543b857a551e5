import PathFilter.Proofs.Listing.Course
import PathFilter.Proofs.Listing.Preorder

/-!
# Where a walk stops

A walk reads the rule file of every directory that it comes to, and stops at the first that cannot
be read. The directories come in the order of their lines: a directory before those below it, and
what lies below it before the directories whose names have greater bytes. So the failure of a walk
is that of the first directory in this order with a rule file that cannot be read.

## Main definitions

* `Visit.Precedes`: the order of directories, that of their names byte by byte
* `Visit.IsListable`: the entries of a directory can be listed
* `Visit.StopsFirst`: the first directory whose rule file cannot be read
* `Listing.StopsIn`: a listing stops in the first such directory among some

## Main results

* `Survey.stopsIn_visit`: a directory is read before those that are entered from it
* `Survey.stopsIn_listNode`: where the listing of an entry stops, by induction on what lies below it
* `Survey.failure_listRoot_iff`: a walk stops in the first directory that cannot be read
-/

namespace PathFilter

namespace Visit

/-- Whether a directory comes before another one: its names have lesser bytes, or there are
fewer. -/
def Precedes (d e : Visit) : Prop := d.names.map Text.utf8 < e.names.map Text.utf8

theorem Precedes.irrefl (d : Visit) : ¬ d.Precedes d := List.lt_irrefl _

theorem Precedes.asymm {d e : Visit} (h : d.Precedes e) : ¬ e.Precedes d := List.lt_asymm h

/-- **Whether the entries of a directory can be listed.** They have names of their own. -/
structure IsListable (files : FileTree) (d : Visit) : Prop where
  listed : files.isDirectory d.path = true
  distinct : (d.entries.map (·.1)).Nodup

/-- **Whether a directory is the first of a walk whose rule file cannot be read**, and why it
cannot. -/
structure StopsFirst (files : FileTree) (top d : Visit) (e : FilterError) : Prop where
  reached : top.Reaches files d
  failure : d.reading.failure = some e
  first : ∀ d', top.Reaches files d' → d'.Precedes d → d'.reading.failure = none

/-- The directories that a walk goes on to at an entry. -/
def ReachesAt (files : FileTree) (d : Visit) (name : Text) (node : Node) (e : Visit) : Prop :=
  ∃ entries, node = .directory entries ∧ d.verdict name true ≠ .excluded ∧
    (d.enter files name entries).Reaches files e

variable {files : FileTree} {d : Visit}

/-- **The directories that a walk goes on to from one** are itself and those at its entries. -/
theorem reaches_iff {e : Visit} :
    d.Reaches files e ↔
      e = d ∨ ∃ name node, (name, node) ∈ d.entries ∧ d.ReachesAt files name node e := by
  constructor
  · intro h
    rcases Relation.ReflTransGen.cases_head h with rfl | ⟨_, ⟨name, entries, hmem, hv, rfl⟩, hrest⟩
    · exact .inl rfl
    · exact .inr ⟨name, _, hmem, entries, rfl, hv, hrest⟩
  · rintro (rfl | ⟨name, _, hmem, entries, rfl, hv, h⟩)
    · exact .refl
    · exact .head ⟨name, entries, hmem, hv, rfl⟩ h

theorem names_of_reachesAt {name : Text} {node : Node} {e : Visit}
    (h : d.ReachesAt files name node e) : ∃ rest, e.names = d.names ++ name :: rest := by
  obtain ⟨entries, -, -, h⟩ := h
  obtain ⟨rest, hrest⟩ := names_of_reaches h
  exact ⟨rest, by simp [hrest, enter]⟩

/-- A directory comes before those at its entries. -/
theorem precedes_of_reachesAt {name : Text} {node : Node} {e : Visit}
    (h : d.ReachesAt files name node e) : d.Precedes e := by
  obtain ⟨rest, hrest⟩ := names_of_reachesAt h
  have hlt : d.names.map Text.utf8 ++ [] < d.names.map Text.utf8 ++ (name :: rest).map Text.utf8 :=
    List.append_left_lt (List.nil_lt_cons _ _)
  rw [List.append_nil, ← List.map_append] at hlt
  rw [Precedes, hrest]
  exact hlt

/-- Directories at different entries are in the order of the entries. -/
theorem precedes_of_reachesAt_lt {n m : Text} {x y : Node} {a b : Visit}
    (ha : d.ReachesAt files n x a) (hb : d.ReachesAt files m y b) (hlt : n.utf8 < m.utf8) :
    a.Precedes b := by
  obtain ⟨as, has⟩ := names_of_reachesAt ha
  obtain ⟨bs, hbs⟩ := names_of_reachesAt hb
  rw [Precedes, has, hbs, List.map_append, List.map_append]
  exact List.append_left_lt (List.cons_lt_cons_iff.mpr (.inl hlt))

end Visit

namespace Listing

theorem failure_andThen (l : Listing) (next : Unit → Listing) :
    (l.andThen next).failure = l.failure.or (next ()).failure := by
  unfold andThen
  split <;> simp_all

theorem gaps_andThen {l : Listing} {next : Unit → Listing} (hl : l.gaps = 0)
    (hnext : (next ()).gaps = 0) : (l.andThen next).gaps = 0 := by
  unfold andThen
  split
  · exact hl
  · rw [gaps] at hl hnext
    rw [gaps, List.countP_append, hl, hnext]

/-- **Whether a listing stops in the first directory that cannot be read** among those with a
property, and leaves out no entries. -/
def StopsIn (l : Listing) (p : Visit → Prop) : Prop :=
  ∃ visits : List Visit, l.failure = visits.findSome? (·.reading.failure) ∧
    (∀ d, d ∈ visits ↔ p d) ∧ visits.Pairwise Visit.Precedes ∧ l.gaps = 0

/-- A listing that enters no directory does not fail. -/
theorem stopsIn_nothing {l : Listing} {p : Visit → Prop} (hfailure : l.failure = none)
    (hgaps : l.gaps = 0) (hp : ∀ d, ¬ p d) : l.StopsIn p :=
  ⟨[], hfailure, fun d => by simpa using hp d, .nil, hgaps⟩

/-- What is said before a listing does not stop it. -/
theorem StopsIn.after {l : Listing} {next : Unit → Listing} {p : Visit → Prop}
    (hfailure : l.failure = none) (hgaps : l.gaps = 0) (h : (next ()).StopsIn p) :
    (l.andThen next).StopsIn p := by
  obtain ⟨visits, hvisits, hmem, horder, hnext⟩ := h
  refine ⟨visits, ?_, hmem, horder, gaps_andThen hgaps hnext⟩
  rw [failure_andThen, hfailure, Option.none_or, hvisits]

/-- **The failure of a listing is that of the first directory that cannot be read.** -/
theorem StopsIn.failure_iff {l : Listing} {files : FileTree} {top : Visit}
    (h : l.StopsIn (top.Reaches files)) (e : FilterError) :
    l.failure = some e ↔ ∃ d, Visit.StopsFirst files top d e := by
  obtain ⟨visits, hfailure, hmem, horder, -⟩ := h
  rw [hfailure, List.findSome?_eq_some_iff]
  constructor
  · rintro ⟨before, d, after, rfl, hd, hbefore⟩
    refine ⟨d, (hmem d).mp (by simp), hd, fun d' hreach hlt => ?_⟩
    rcases List.mem_append.mp ((hmem d').mpr hreach) with h | h
    · exact hbefore d' h
    · rcases List.mem_cons.mp h with rfl | h
      · exact absurd hlt (Visit.Precedes.irrefl d')
      · have hafter := List.rel_of_pairwise_cons (List.pairwise_append.mp horder).2.1 h
        exact absurd hlt hafter.asymm
  · rintro ⟨d, hreach, hd, hfirst⟩
    obtain ⟨before, after, rfl⟩ := List.append_of_mem ((hmem d).mpr hreach)
    refine ⟨before, d, after, rfl, hd, fun d' h => ?_⟩
    refine hfirst d' ((hmem d').mp (List.mem_append_left _ h)) ?_
    exact (List.pairwise_append.mp horder).2.2 d' h d List.mem_cons_self

end Listing

namespace Survey

variable {s : Survey} {d : Visit}

/-- What is said about an entry stops no listing. -/
theorem gaps_mention (s : Survey) (c : Chain) (candidate : Text) (isDirectory : Bool) :
    (s.mention c candidate isDirectory).gaps = 0 :=
  (shows_mention s c candidate isDirectory).gaps

/-- The listing of some entries stops in the first directory that cannot be read if the listings of
the entries do. -/
theorem stopsIn_listEntries {entries : List (Text × Node)}
    (hsorted : entries.Pairwise fun a b => a.1.utf8 < b.1.utf8)
    (h : ∀ e ∈ entries, (s.listNode d.chain d.path (Path.relative d.names) e.1 e.2.sorted).StopsIn
      (d.ReachesAt s.files e.1 e.2)) :
    (s.listEntries d.chain d.path (Path.relative d.names)
        (entries.map fun e => (e.1, e.2.sorted))).StopsIn
      fun f => ∃ e ∈ entries, d.ReachesAt s.files e.1 e.2 f := by
  induction entries with
  | nil => exact Listing.stopsIn_nothing rfl rfl (by simp)
  | cons e entries ih =>
    obtain ⟨hbefore, hrest⟩ := List.pairwise_cons.mp hsorted
    obtain ⟨visits, hfailure, hmem, horder, hgaps⟩ := h e List.mem_cons_self
    obtain ⟨visits', hfailure', hmem', horder', hgaps'⟩ :=
      ih hrest fun e' he' => h e' (List.mem_cons_of_mem _ he')
    rw [List.map_cons, listEntries_cons]
    refine ⟨visits ++ visits', ?_, fun f => ?_, List.pairwise_append.mpr ⟨horder, horder', ?_⟩,
      Listing.gaps_andThen hgaps hgaps'⟩
    · rw [Listing.failure_andThen, hfailure, hfailure', List.findSome?_append]
    · simp [hmem, hmem']
    · intro a ha b hb
      obtain ⟨e', he', hb⟩ := (hmem' b).mp hb
      exact Visit.precedes_of_reachesAt_lt ((hmem a).mp ha) hb (hbefore e' he')

/-- **A directory is read before those that are entered from it**, and its listing stops in the
first that cannot be read. -/
theorem stopsIn_visit {e : Entrance} (hpath : e.path = d.path)
    (hrelative : e.relative = Path.relative d.names)
    (hreading : e.outer.descend s.files e.path = d.reading) (hd : d.IsListable s.files)
    (h : ∀ name node, (name, node) ∈ d.entries →
      (s.listNode d.chain d.path (Path.relative d.names) name node.sorted).StopsIn
        (d.ReachesAt s.files name node)) :
    (s.visit e (Node.sortEntries (Node.sortedEntries d.entries))).StopsIn (d.Reaches s.files) := by
  have hmem (x : Text × Node) : x ∈ Node.sortEntries d.entries ↔ x ∈ d.entries :=
    List.mem_mergeSort
  obtain ⟨visits, hfailure, hvisits, horder, hgaps⟩ := stopsIn_listEntries
    (Node.pairwise_sortEntries hd.distinct) fun x hx => h x.1 x.2 ((hmem x).mp hx)
  rw [← Node.sortEntries_sortedEntries] at hfailure hgaps
  refine ⟨d :: visits, ?_, fun f => ?_, List.pairwise_cons.mpr ⟨fun f hf => ?_, horder⟩, ?_⟩
  · rw [List.findSome?_cons, visit, hreading, hpath, hrelative, entering]
    cases hread : d.reading.failure with
    | some error => rfl
    | none =>
      rw [Listing.failure_andThen, listing_of_isDirectory hd.listed]
      exact hfailure
  · rw [List.mem_cons, hvisits, Visit.reaches_iff]
    simp [hmem]
  · obtain ⟨x, -, hf⟩ := (hvisits f).mp hf
    exact Visit.precedes_of_reachesAt hf
  · have hevents (events : List Event) (tally : Tally) (failure : Option FilterError) :
        Listing.gaps ⟨events.map .event, tally, failure⟩ = 0 := by
      simp [Listing.gaps, List.countP_eq_zero]
    rw [visit, hreading, hpath, hrelative, entering]
    cases hread : d.reading.failure with
    | some error => exact hevents _ _ _
    | none =>
      refine Listing.gaps_andThen ?_ ?_
      · rw [← List.map_singleton (f := ListingItem.event), ← List.map_append]
        exact hevents _ _ _
      · rw [listing_of_isDirectory hd.listed]
        exact hgaps

/-- An entry that is no directory stops nothing. -/
theorem stopsIn_mention {name : Text} {node : Node} (hnode : node.isDirectory = false) :
    (s.mention d.chain (Path.below (Path.relative d.names) name) false).StopsIn
      (d.ReachesAt s.files name node) := by
  refine Listing.stopsIn_nothing rfl (gaps_mention ..) ?_
  rintro e ⟨entries, rfl, -⟩
  cases hnode

/-- **The listing of an entry stops in the first directory that cannot be read**, by induction on
what lies below it. -/
theorem stopsIn_listNode (node : Node) (d : Visit) (name : Text)
    (hlist : ∀ entries e, node = .directory entries → d.verdict name true ≠ .excluded →
      (d.enter s.files name entries).Reaches s.files e → e.IsListable s.files) :
    (s.listNode d.chain d.path (Path.relative d.names) name node.sorted).StopsIn
      (d.ReachesAt s.files name node) := by
  induction node using Node.induction generalizing d name with
  | hfile bytes => exact stopsIn_mention rfl
  | hlink target => exact stopsIn_mention rfl
  | hdirectory entries ih =>
    rw [Node.sorted, listNode_directory, candidate_eq_below]
    refine Listing.StopsIn.after rfl (gaps_mention ..) ?_
    by_cases hv : d.verdict name true = .excluded
    · rw [if_pos (Visit.excludes_eq_true_iff.mpr hv)]
      refine Listing.stopsIn_nothing rfl rfl ?_
      rintro e ⟨-, -, hnot, -⟩
      exact hnot hv
    · rw [if_neg (mt Visit.excludes_eq_true_iff.mp hv)]
      have hvisit : (s.visit ⟨d.chain, Path.join d.path name, d.candidate name⟩
          (Node.sortEntries (Node.sortedEntries entries))).StopsIn
            ((d.enter s.files name entries).Reaches s.files) := by
        refine stopsIn_visit (d := d.enter s.files name entries) rfl rfl rfl
          (hlist entries _ rfl hv .refl) fun n x hmem => ?_
        refine ih (n, x) hmem (d.enter s.files name entries) n ?_
        rintro es e rfl hv' hreach
        exact hlist entries e rfl hv (.head ⟨n, es, hmem, hv', rfl⟩ hreach)
      obtain ⟨visits, hfailure, hmem, horder, hgaps⟩ := hvisit
      refine ⟨visits, hfailure, fun e => ?_, horder, hgaps⟩
      rw [hmem]
      refine ⟨fun h => ⟨entries, rfl, hv, h⟩, ?_⟩
      rintro ⟨_, ⟨⟩, -, h⟩
      exact h

/-- **A walk stops in the first directory that cannot be read.** -/
theorem stopsIn_listRoot (s : Survey) (c : Chain) (directory : Text)
    (hlist : ∀ d, (Visit.top s.files c directory).Reaches s.files d → d.IsListable s.files) :
    (s.listRoot c directory).StopsIn ((Visit.top s.files c directory).Reaches s.files) := by
  have htop := hlist _ .refl
  have hvisit : (s.visit ⟨c, directory, ['.']⟩ (sortedEntriesAt s.files directory)).StopsIn
      ((Visit.top s.files c directory).Reaches s.files) := by
    rw [show sortedEntriesAt s.files directory = _ from sortedEntriesAt_eq htop.listed c]
    refine stopsIn_visit rfl rfl rfl htop fun name node hmem => ?_
    refine stopsIn_listNode node _ name ?_
    rintro entries e rfl hv hreach
    exact hlist e (.head ⟨name, entries, hmem, hv, rfl⟩ hreach)
  rw [listRoot_eq]
  refine Listing.StopsIn.after rfl rfl ?_
  obtain ⟨visits, hfailure, hmem, horder, hgaps⟩ := hvisit
  refine ⟨visits, ?_, hmem, horder, Listing.gaps_andThen hgaps rfl⟩
  rw [Listing.failure_andThen, hfailure, Listing.ofItems, Option.or_none]

/-- **A walk fails with what is wrong with the first rule file** that cannot be read. -/
theorem failure_listRoot_iff (s : Survey) (c : Chain) (directory : Text)
    (hlist : ∀ d, (Visit.top s.files c directory).Reaches s.files d → d.IsListable s.files)
    (e : FilterError) :
    (s.listRoot c directory).failure = some e ↔
      ∃ d, Visit.StopsFirst s.files (Visit.top s.files c directory) d e :=
  (stopsIn_listRoot s c directory hlist).failure_iff e

end Survey

end PathFilter
