import PathFilter.Listing.Traversal
import PathFilter.Proofs.Text.ByteOrder
import Mathlib.Logic.Relation

/-!
# The directories of a walk

A walk is in one directory after another. From the directory that it starts in it goes on to every
directory that is an entry of one it is in and is not excluded there. The lines of a walk are those
of the entries of all these directories. Read as lists of names, the lines of an entry and of what
lies below it come before those of a later entry.

## Main definitions

* `Visit`: a directory that a walk is in
* `Visit.Enters`: the walk goes on from one directory to another
* `Row`: a line together with the names that lead to its entry
* `Visit.Lists`: the lines of a directory and of those that the walk goes on to
* `Row.Precedes`: the order of lines, that of their names byte by byte

## Main results

* `Visit.lists_iff`: the lines of a directory are those of its entries, each with what lies below
* `Visit.precedes_of_listsAt`: lines of different entries are in the order of the entries
* `Visit.row_precedes`: a line comes before those of what lies below its entry
* `Node.pairwise_sortEntries`: sorted entries are in the order of the bytes of their names
-/

namespace PathFilter

/-- The path of some names from the directory that a walk starts in. -/
def Path.relative (names : List Text) : Text := '.' :: names.flatMap fun n => '/' :: n

theorem Path.relative_concat (names : List Text) (name : Text) :
    relative (names ++ [name]) = below (relative names) name := by
  simp [relative, below]

/-- **A directory that a walk is in.** -/
structure Visit where
  /-- The names that lead to it from the directory that the walk started in. -/
  names : List Text
  path : Text
  /-- What reading its rule file came to. -/
  reading : Outcome
  entries : List (Text × Node)

/-- **A line of a walk**, with the names that lead to its entry. -/
structure Row where
  names : List Text
  entry : Entry
deriving DecidableEq, Repr

/-- Whether a line comes before another one: its names have lesser bytes, or there are fewer. -/
def Row.Precedes (a b : Row) : Prop := a.names.map Text.utf8 < b.names.map Text.utf8

namespace Visit

/-- The chain that the entries of the directory are checked against. -/
def chain (d : Visit) : Chain := d.reading.chain

/-- The path of an entry from the directory that the walk started in. -/
def candidate (d : Visit) (name : Text) : Text := Path.relative (d.names ++ [name])

/-- The verdict about the transfer of an entry. -/
def verdict (d : Visit) (name : Text) (isDirectory : Bool) : Verdict :=
  d.chain.check (d.candidate name) isDirectory .transfer

/-- **The line of an entry.** -/
def row (s : Survey) (d : Visit) (name : Text) (node : Node) : Row where
  names := d.names ++ [name]
  entry :=
    { path := d.candidate name
      isDirectory := node.isDirectory
      verdict := d.verdict name node.isDirectory
      isProtected :=
        if s.withDeletion then some (d.chain.protects (d.candidate name) node.isDirectory)
        else none }

/-- The directory that a walk starts in, below the rules of a chain. -/
def top (files : FileTree) (outer : Chain) (directory : Text) : Visit where
  names := []
  path := directory
  reading := outer.descend files directory
  entries :=
    match files.resolve directory with
    | .ok (_, .directory entries) => entries
    | _ => []

/-- The directory that is an entry of another one. -/
def enter (files : FileTree) (d : Visit) (name : Text) (entries : List (Text × Node)) : Visit where
  names := d.names ++ [name]
  path := Path.join d.path name
  reading := d.chain.descend files (Path.join d.path name)
  entries := entries

/-- **Whether a walk goes on from one directory to another**: an entry that is a directory, and no
link to one, and that is not excluded. -/
def Enters (files : FileTree) (d e : Visit) : Prop :=
  ∃ name entries, (name, .directory entries) ∈ d.entries ∧ d.verdict name true ≠ .excluded ∧
    e = d.enter files name entries

/-- The directories that a walk goes on to from one, itself among them. -/
def Reaches (files : FileTree) : Visit → Visit → Prop := Relation.ReflTransGen (Enters files)

/-- **The lines of a directory** and of those that the walk goes on to. -/
def Lists (s : Survey) (d : Visit) (row : Row) : Prop :=
  ∃ e, d.Reaches s.files e ∧ ∃ name node, (name, node) ∈ e.entries ∧ row = e.row s name node

/-- The lines of an entry: its own, and those of the directory that it is. -/
def ListsAt (s : Survey) (d : Visit) (name : Text) (node : Node) (row : Row) : Prop :=
  row = d.row s name node ∨ ∃ entries, node = .directory entries ∧
    d.verdict name true ≠ .excluded ∧ (d.enter s.files name entries).Lists s row

/-- **Whether all about a directory can be read**: its rule file, if there is one, and its entries,
which have names of their own. -/
structure IsReadable (files : FileTree) (d : Visit) : Prop where
  loaded : d.reading.failure = none
  listed : files.isDirectory d.path = true
  distinct : (d.entries.map (·.1)).Nodup

variable {s : Survey} {d : Visit}

/-- **The lines of a directory are those of its entries**, each with what lies below it. -/
theorem lists_iff {row : Row} :
    d.Lists s row ↔ ∃ name node, (name, node) ∈ d.entries ∧ d.ListsAt s name node row := by
  constructor
  · rintro ⟨e, hreach, name, node, hmem, rfl⟩
    rcases Relation.ReflTransGen.cases_head hreach with rfl | ⟨_, ⟨n, es, hn, hv, rfl⟩, hrest⟩
    · exact ⟨name, node, hmem, .inl rfl⟩
    · exact ⟨n, _, hn, .inr ⟨es, rfl, hv, e, hrest, name, node, hmem, rfl⟩⟩
  · rintro ⟨name, node, hmem, rfl | ⟨es, rfl, hv, e, hreach, n, m, hm, rfl⟩⟩
    · exact ⟨d, .refl, name, node, hmem, rfl⟩
    · exact ⟨e, .head ⟨name, es, hmem, hv, rfl⟩ hreach, n, m, hm, rfl⟩

theorem excludes_eq_true_iff {name : Text} :
    d.chain.excludes (d.candidate name) true = true ↔ d.verdict name true = .excluded := by
  simp [Chain.excludes, verdict]

/-! ### The order of lines -/

theorem names_of_reaches {files : FileTree} {e : Visit} (h : d.Reaches files e) :
    ∃ rest, e.names = d.names ++ rest := by
  induction h with
  | refl => exact ⟨[], by simp⟩
  | tail _ hstep ih =>
    obtain ⟨rest, hrest⟩ := ih
    obtain ⟨name, es, -, -, rfl⟩ := hstep
    exact ⟨rest ++ [name], by simp [enter, hrest]⟩

theorem names_of_lists {row : Row} (h : d.Lists s row) :
    ∃ name rest, row.names = d.names ++ name :: rest := by
  obtain ⟨e, hreach, name, node, -, rfl⟩ := h
  obtain ⟨rest, hrest⟩ := names_of_reaches hreach
  cases rest with
  | nil => exact ⟨name, [], by simp [Visit.row, hrest]⟩
  | cons n rest => exact ⟨n, rest ++ [name], by simp [Visit.row, hrest]⟩

theorem names_of_listsAt {name : Text} {node : Node} {row : Row} (h : d.ListsAt s name node row) :
    ∃ rest, row.names = d.names ++ name :: rest := by
  rcases h with rfl | ⟨es, -, -, h⟩
  · exact ⟨[], rfl⟩
  · obtain ⟨n, rest, hrest⟩ := names_of_lists h
    exact ⟨n :: rest, by simp [enter, hrest]⟩

/-- **Lines of different entries are in the order of the entries.** -/
theorem precedes_of_listsAt {n m : Text} {x y : Node} {a b : Row} (ha : d.ListsAt s n x a)
    (hb : d.ListsAt s m y b) (hlt : n.utf8 < m.utf8) : a.Precedes b := by
  obtain ⟨as, has⟩ := names_of_listsAt ha
  obtain ⟨bs, hbs⟩ := names_of_listsAt hb
  rw [Row.Precedes, has, hbs, List.map_append, List.map_append]
  exact List.append_left_lt (List.cons_lt_cons_iff.mpr (.inl hlt))

/-- **A line comes before those of what lies below its entry.** -/
theorem row_precedes {name : Text} {entries : List (Text × Node)} {b : Row}
    (hb : (d.enter s.files name entries).Lists s b) :
    (d.row s name (.directory entries)).Precedes b := by
  obtain ⟨n, rest, hrest⟩ := names_of_lists hb
  have hlt : (d.names ++ [name]).map Text.utf8 ++ [] <
      (d.names ++ [name]).map Text.utf8 ++ (n :: rest).map Text.utf8 :=
    List.append_left_lt (List.nil_lt_cons _ _)
  rw [List.append_nil, ← List.map_append] at hlt
  rw [Row.Precedes, hrest]
  exact hlt

end Visit

namespace Node

/-- What holds of files and links, and of a directory if it holds of all its entries, holds of
every node. -/
theorem induction {p : Node → Prop} (hfile : ∀ bytes, p (.file bytes))
    (hlink : ∀ target, p (.link target))
    (hdirectory : ∀ entries, (∀ e ∈ entries, p e.2) → p (.directory entries)) (node : Node) :
    p node :=
  @Node.rec p (fun entries => ∀ e ∈ entries, p e.2) (fun e => p e.2) hfile hlink hdirectory
    (fun _ h => absurd h List.not_mem_nil)
    (fun _ _ hhead htail => List.forall_mem_cons.mpr ⟨hhead, htail⟩) (fun _ _ h => h) node

theorem sortedEntries_eq_map (entries : List (Text × Node)) :
    sortedEntries entries = entries.map fun e => (e.1, e.2.sorted) := by
  induction entries with
  | nil => rfl
  | cons e entries ih => simp [sortedEntries, ih]

/-- It makes no difference whether entries are sorted before what lies below them or after. -/
theorem sortEntries_sortedEntries (entries : List (Text × Node)) :
    sortEntries (sortedEntries entries) =
      (sortEntries entries).map fun e => (e.1, e.2.sorted) := by
  rw [sortedEntries_eq_map]
  exact (List.map_mergeSort (f := fun e : Text × Node => (e.1, e.2.sorted))
    fun _ _ _ _ => rfl).symm

/-- **Sorted entries are in the order of the bytes of their names.** -/
theorem pairwise_sortEntries {entries : List (Text × Node)} (h : (entries.map (·.1)).Nodup) :
    (sortEntries entries).Pairwise fun a b => a.1.utf8 < b.1.utf8 := by
  have hsorted := List.pairwise_mergeSort
    (fun a b c : Text × Node => @nameLe_trans a.1 b.1 c.1)
    (fun a b => nameLe_total a.1 b.1) entries
  have hdistinct : (sortEntries entries).Pairwise fun a b => a.1 ≠ b.1 :=
    List.pairwise_map.mp (((List.mergeSort_perm entries _).map _).nodup_iff.mpr h)
  exact (hsorted.and hdistinct).imp fun ⟨hle, hne⟩ => utf8_lt_of_nameLe hle hne

end Node

end PathFilter
