import PathFilter.FileTree.Resolve

/-!
# Files under their own paths

A path that holds nothing but names of entries, from the root on, leads along those entries. So a
regular file is read under the path that the tree gives it, and this path is its canonical one.

## Main definitions

* `Node.at?`: the node under some names, links not followed
* `FileTree.IsPlain`: whether a name can be that of an entry

## Main results

* `Path.names_pathOf`: the names of a path made of names
* `FileTree.follow_of_at?`: plain names lead along the entries
* `FileTree.resolve_pathOf`: what is no link is found under its own path
* `FileTree.read_pathOf`: a regular file is read under its own path
-/

namespace PathFilter

/-- **The node under some names**, links not followed. -/
def Node.at? (node : Node) : List Text → Option Node
  | [] => some node
  | name :: names =>
    match node with
    | .directory entries => (Node.lookup? entries name).bind fun below => below.at? names
    | _ => none

/-- The names of a path made of names that hold no slash. -/
theorem Path.names_flatMap {ns : List Text} (h : ∀ n ∈ ns, '/' ∉ n) :
    names (ns.flatMap fun n => '/' :: n) = [] :: ns := by
  induction ns with
  | nil => rfl
  | cons n ns ih =>
    have hn : ∀ c ∈ n, (c == '/') = false := by
      intro c hc
      rw [beq_eq_false_iff_ne]
      rintro rfl
      exact h n List.mem_cons_self hc
    have hrest := ih fun m hm => h m (List.mem_cons_of_mem _ hm)
    rw [List.flatMap_cons, List.cons_append, names_cons_slash, names,
      pieces_append_of_unmarked hn hrest, List.append_nil]

namespace FileTree

/-- **Whether a name can be that of an entry**: it stands for nothing else and is not too long. -/
def IsPlain (name : Text) : Prop :=
  name ≠ [] ∧ name ≠ ['.'] ∧ name ≠ ['.', '.'] ∧ '/' ∉ name ∧ '\x00' ∉ name ∧
    name.byteLength ≤ maxName

instance (name : Text) : Decidable (IsPlain name) := inferInstanceAs (Decidable (_ ∧ _))

theorem Place.names_cons (name : Text) (node : Node) (place : Place) :
    Place.names ((name, node) :: place) = place.names ++ [name] := by
  simp [Place.names]

section Steps

variable {root node : Node} {place : Place} {entries : List (Text × Node)} {name : Text}

theorem follow_nil (links : Nat) : follow root links place [] = .ok place := by
  cases links <;> simp only [follow_zero, follow_succ, followEntries]

/-- A name that stands for nothing leads nowhere else. -/
theorem follow_idle (hplace : place.node root = .directory entries)
    (hname : name = [] ∨ name = ['.'])
    (links : Nat) (rest : List Text) :
    follow root links place (name :: rest) = follow root links place rest := by
  cases links <;> simp only [follow_zero, follow_succ, followEntries, hplace, if_pos hname]

/-- The name of an entry that is no link leads to the entry. -/
theorem follow_entry (hplace : place.node root = .directory entries) (hname : IsPlain name)
    (hentry : Node.lookup? entries name = some node) (hlink : ∀ target, node ≠ .link target)
    (links : Nat) (rest : List Text) :
    follow root links place (name :: rest) = follow root links ((name, node) :: place) rest := by
  obtain ⟨hne, hdot, hdots, -, -, hlen⟩ := hname
  cases node with
  | link target => exact absurd rfl (hlink target)
  | _ =>
    cases links <;>
      simp only [follow_zero, follow_succ, followEntries, hplace, hne, hdot, hdots, or_self,
        if_false, Nat.not_lt.mpr hlen, hentry]

end Steps

/-- **Plain names lead along the entries** to a node that is no link. -/
theorem follow_of_at? {root node : Node} (links : Nat) (place : Place) {names : List Text}
    (hplain : ∀ n ∈ names, IsPlain n) (hat : (place.node root).at? names = some node)
    (hlink : ∀ target, node ≠ .link target) :
    ∃ p, follow root links place names = .ok p ∧ p.names = place.names ++ names ∧
      p.node root = node := by
  induction names generalizing place with
  | nil =>
    refine ⟨place, follow_nil links, by simp, ?_⟩
    simpa [Node.at?] using hat
  | cons name names ih =>
    rcases hnode : place.node root with _ | _ | entries
    · simp [hnode, Node.at?] at hat
    · simp [hnode, Node.at?] at hat
    · rcases hentry : Node.lookup? entries name with _ | entry
      · simp [hnode, Node.at?, hentry] at hat
      · have hrest : entry.at? names = some node := by
          simpa [hnode, Node.at?, hentry] using hat
        -- an entry on the way is no link: a link has nothing below it
        have hnolink : ∀ target, entry ≠ .link target := by
          rintro target rfl
          cases names with
          | nil => exact hlink target (by simpa [Node.at?] using hrest.symm)
          | cons n ns => simp [Node.at?] at hrest
        obtain ⟨p, hp, hnames, hend⟩ := ih ((name, entry) :: place)
          (fun n hn => hplain n (List.mem_cons_of_mem _ hn)) hrest
        refine ⟨p, ?_, by simp [hnames, Place.names_cons], hend⟩
        rw [follow_entry hnode (hplain name List.mem_cons_self) hentry hnolink, hp]

/-- A path made of plain names leads somewhere, if it is not too long. -/
theorem pathFault?_pathOf {names : List Text} (hne : names ≠ [])
    (hplain : ∀ n ∈ names, IsPlain n) (hlen : (pathOf names).byteLength < maxPath) :
    pathFault? (pathOf names) = none := by
  have hnil : pathOf names ≠ [] := by
    cases names with
    | nil => exact absurd rfl hne
    | cons n ns => simp [pathOf]
  have hnul : '\x00' ∉ pathOf names := by
    rw [pathOf, if_neg hne, List.mem_flatMap]
    rintro ⟨n, hn, hmem⟩
    rcases List.mem_cons.mp hmem with h | h
    · exact absurd h (by decide)
    · exact (hplain n hn).2.2.2.2.1 h
  rw [pathFault?, if_neg hnil, if_neg hnul, if_neg (Nat.not_le.mpr hlen)]

/-- **A node that is no link is found under its own path**, which is its canonical one. -/
theorem resolve_pathOf {files : FileTree} (names : List Text) {node : Node} (hne : names ≠ [])
    (hplain : ∀ n ∈ names, IsPlain n) (hlen : (pathOf names).byteLength < maxPath)
    (hat : files.root.at? names = some node) (hlink : ∀ target, node ≠ .link target) :
    files.resolve (pathOf names) = .ok (pathOf names, node) := by
  obtain ⟨p, hp, hnames, hend⟩ := follow_of_at? maxLinks [] hplain hat hlink
  have hroot : Path.names (pathOf names) = [] :: names := by
    rw [pathOf, if_neg hne]
    exact Path.names_flatMap fun n hn => (hplain n hn).2.2.2.1
  have habsolute : Path.isAbsolute (pathOf names) = true := by
    cases names with
    | nil => exact absurd rfl hne
    | cons n ns => rfl
  have hslash : follow files.root maxLinks [] ([] :: names) =
      follow files.root maxLinks [] names := by
    obtain ⟨n, ns, rfl⟩ := List.exists_cons_of_ne_nil hne
    rcases hr : files.root with _ | _ | entries
    · simp [hr, Node.at?] at hat
    · simp [hr, Node.at?] at hat
    · exact follow_idle rfl (.inl rfl) _ _
  rw [resolve, place, pathFault?_pathOf hne hplain hlen]
  simp only [reach, start, habsolute, if_true, hroot, hslash, hp, hnames, hend]
  rfl

/-- A regular file is read under its own path. -/
theorem read_pathOf {files : FileTree} (names : List Text) {bytes : List UInt8} (hne : names ≠ [])
    (hplain : ∀ n ∈ names, IsPlain n) (hlen : (pathOf names).byteLength < maxPath)
    (hat : files.root.at? names = some (.file bytes)) :
    files.read (pathOf names) = .ok (pathOf names, bytes) := by
  rw [read_eq_ok_iff]
  refine resolve_pathOf names hne hplain hlen hat ?_
  intro target h
  cases h

end FileTree

end PathFilter
