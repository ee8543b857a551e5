import PathFilter.FileTree.Update
import PathFilter.Proofs.FileTree.PlainPath
import PathFilter.Proofs.Listing.Visit
import Mathlib.Data.List.Forall2

/-!
# A node replaced

A file with other bytes, or a directory with other entries, is put in the place of one that was
there. A path leads to the same place before and after, unless an entry of that very directory is
looked up on the way. So what a path leads to is of the same kind, and a file that is read has the
same bytes, unless it is the one that was replaced.

## Main definitions

* `Node.AgreeOff names`: two nodes agree but for what some names lead to
* `FileTree.searched files path`: the directories in which a path looks up entries
* `FileTree.Avoids`: a path tells nothing of what lies under some names

## Main results

* `Node.agreeOff_put`: a node that was replaced agrees with the one before off its place
* `FileTree.AgreeOff.place`: a path leads to the same place in both trees
* `FileTree.AgreeOff.read`: a path leads to the same bytes if it tells nothing of the place
-/

namespace PathFilter

namespace Node

/-- Whether two nodes are both directories, or both regular files. -/
def SameKind (isDir : Bool) : Node → Node → Prop
  | .file _, .file _ => isDir = false
  | .directory _, .directory _ => isDir = true
  | _, _ => False

theorem SameKind.cases {isDir : Bool} {x y : Node} (h : SameKind isDir x y) :
    (isDir = false ∧ ∃ bytes bytes', x = .file bytes ∧ y = .file bytes') ∨
      (isDir = true ∧ ∃ es fs, x = .directory es ∧ y = .directory fs) := by
  cases x <;> cases y <;> first | exact h.elim | skip
  · exact .inl ⟨h, _, _, rfl, rfl⟩
  · exact .inr ⟨h, _, _, rfl, rfl⟩

theorem SameKind.sorted {isDir : Bool} {x y : Node} (h : SameKind isDir x y) :
    SameKind isDir x.sorted y.sorted := by
  obtain ⟨rfl, _, _, rfl, rfl⟩ | ⟨rfl, _, _, rfl, rfl⟩ := h.cases <;> rfl

/-- **Whether two nodes agree but for what some names lead to.** Under these names there are two
directories, or two files. -/
def AgreeOff (isDir : Bool) : List Text → Node → Node → Prop
  | [], x, y => SameKind isDir x y
  | name :: names, x, y =>
    ∃ es fs, x = .directory es ∧ y = .directory fs ∧
      List.Forall₂
        (fun e f => e.1 = f.1 ∧ (e.2 = f.2 ∨ e.1 = name ∧ AgreeOff isDir names e.2 f.2)) es fs

/-- Whether two entries agree but for what some names lead to. -/
def EntriesAgree (isDir : Bool) (name : Text) (names : List Text) (e f : Text × Node) : Prop :=
  e.1 = f.1 ∧ (e.2 = f.2 ∨ e.1 = name ∧ AgreeOff isDir names e.2 f.2)

variable {isDir : Bool} {name : Text} {names : List Text} {es fs : List (Text × Node)}

theorem agreeOff_cons {x y : Node} :
    AgreeOff isDir (name :: names) x y ↔
      ∃ es fs, x = .directory es ∧ y = .directory fs ∧
        List.Forall₂ (EntriesAgree isDir name names) es fs :=
  Iff.rfl

theorem entriesAgree_self (es : List (Text × Node)) :
    List.Forall₂ (EntriesAgree isDir name names) es es :=
  List.forall₂_same.mpr fun _ _ => ⟨rfl, .inl rfl⟩

theorem entriesAgree_setEntry {x y : Node} (hx : lookup? es name = some x)
    (h : AgreeOff isDir names x y) :
    List.Forall₂ (EntriesAgree isDir name names) es (setEntry name y es) := by
  induction es with
  | nil => cases hx
  | cons e es ih =>
    obtain ⟨n, z⟩ := e
    by_cases hn : n = name
    · subst hn
      obtain rfl : z = x := by simpa [lookup?] using hx
      rw [setEntry, if_pos (by simp)]
      exact .cons ⟨rfl, .inr ⟨rfl, h⟩⟩ (entriesAgree_self es)
    · have hne : (n == name) = false := by simpa using hn
      rw [setEntry, if_neg (by simpa using hn)]
      exact .cons ⟨rfl, .inl rfl⟩ (ih (by simpa [lookup?, hne] using hx))

/-- **A node that was replaced by one of its kind agrees with the one before** off its place. -/
theorem agreeOff_put {node old new : Node} (hat : node.at? names = some old)
    (h : SameKind isDir old new) : AgreeOff isDir names node (node.put names new) := by
  induction names generalizing node with
  | nil =>
    obtain rfl : node = old := by simpa [at?] using hat
    exact h
  | cons name names ih =>
    cases node with
    | directory es =>
      obtain ⟨x, hx, hbelow⟩ := Option.bind_eq_some_iff.mp hat
      rw [put, hx]
      exact ⟨es, _, rfl, rfl, entriesAgree_setEntry hx (ih hbelow)⟩
    | file bytes => cases hat
    | link target => cases hat

/-- An entry of either node has its counterpart in the other. -/
theorem lookup?_of_entriesAgree (h : List.Forall₂ (EntriesAgree isDir name names) es fs)
    (n : Text) :
    (lookup? es n = none ∧ lookup? fs n = none) ∨
      ∃ x y, lookup? es n = some x ∧ lookup? fs n = some y ∧
        (x = y ∨ n = name ∧ AgreeOff isDir names x y) := by
  induction h with
  | nil => exact .inl ⟨rfl, rfl⟩
  | @cons e f es fs hef _ ih =>
    obtain ⟨m, x⟩ := e
    obtain ⟨_, y⟩ := f
    obtain ⟨rfl, hxy⟩ := hef
    by_cases hm : m = n
    · subst hm
      exact .inr ⟨x, y, by simp [lookup?], by simp [lookup?], hxy⟩
    · have hne : (m == n) = false := by simpa using hm
      simpa [lookup?, hne] using ih

theorem at?_append (node : Node) (ns ms : List Text) :
    node.at? (ns ++ ms) = (node.at? ns).bind fun below => below.at? ms := by
  induction ns generalizing node with
  | nil => rfl
  | cons n ns ih =>
    cases node with
    | directory es => simp [at?, ih, Option.bind_assoc]
    | file bytes => rfl
    | link target => rfl

/-! ### Sorting -/

/-- Entries of the same names are put in the same order. -/
theorem entriesAgree_sortEntries (h : List.Forall₂ (EntriesAgree isDir name names) es fs) :
    List.Forall₂ (EntriesAgree isDir name names) (sortEntries es) (sortEntries fs) := by
  -- the lists are the two sides of one list of pairs, which their common names put in order
  obtain ⟨hlen, hzip⟩ := List.forall₂_iff_zip.mp h
  let le : (Text × Node) × Text × Node → (Text × Node) × Text × Node → Bool :=
    fun a b => nameLe a.1.1 b.1.1
  have hpairs : ∀ z ∈ es.zip fs, EntriesAgree isDir name names z.1 z.2 := fun z hz => hzip hz
  have hsort : ∀ f : (Text × Node) × Text × Node → Text × Node,
      (∀ z ∈ es.zip fs, (f z).1 = z.1.1) →
        ((es.zip fs).mergeSort le).map f = sortEntries ((es.zip fs).map f) := by
    intro f hf
    refine List.map_mergeSort fun a ha b hb => ?_
    rw [hf a ha, hf b hb]
  have hleft := hsort Prod.fst fun _ _ => rfl
  have hright := hsort Prod.snd fun z hz => (hpairs z hz).1.symm
  rw [List.map_fst_zip (by omega)] at hleft
  rw [List.map_snd_zip (by omega)] at hright
  rw [← hleft, ← hright, List.forall₂_map_left_iff, List.forall₂_map_right_iff, List.forall₂_same]
  exact fun z hz => hpairs z (List.mem_mergeSort.mp hz)

theorem sorted_directory (es : List (Text × Node)) :
    (directory es).sorted = directory ((sortEntries es).map fun e => (e.1, e.2.sorted)) := by
  rw [sorted, sortEntries_sortedEntries]

/-- **Nodes that agree off a place do so when they are sorted.** -/
theorem AgreeOff.sorted {names : List Text} {x y : Node} (h : AgreeOff isDir names x y) :
    AgreeOff isDir names x.sorted y.sorted := by
  induction names generalizing x y with
  | nil => exact SameKind.sorted h
  | cons name names ih =>
    obtain ⟨es, fs, rfl, rfl, hall⟩ := h
    rw [sorted_directory, sorted_directory]
    refine ⟨_, _, rfl, rfl, ?_⟩
    rw [List.forall₂_map_left_iff, List.forall₂_map_right_iff]
    refine (entriesAgree_sortEntries hall).imp fun e f hef => ⟨hef.1, ?_⟩
    exact hef.2.imp (congrArg Node.sorted) fun ⟨hn, hagree⟩ => ⟨hn, ih hagree⟩

end Node

namespace FileTree

/-! ## Following a path in both trees -/

/-- Whether the nodes under some names are the same or agree but for what `target` leads to. -/
def NodesAgree (isDir : Bool) (target names : List Text) (x y : Node) : Prop :=
  x = y ∨ ∃ rest, target = names ++ rest ∧ x.AgreeOff isDir rest y

section Nodes

variable {isDir : Bool} {target names : List Text} {x y : Node}

/-- Such nodes are of the same kind, and links are the same. -/
theorem NodesAgree.cases (h : NodesAgree isDir target names x y) :
    (∃ link, x = .link link ∧ y = .link link) ∨
      (∃ bytes bytes', x = .file bytes ∧ y = .file bytes' ∧
        (bytes = bytes' ∨ isDir = false ∧ target = names)) ∨
      ∃ es fs, x = .directory es ∧ y = .directory fs := by
  obtain rfl | ⟨rest, rfl, h⟩ := h
  · cases x with
    | file bytes => exact .inr (.inl ⟨bytes, bytes, rfl, rfl, .inl rfl⟩)
    | link link => exact .inl ⟨link, rfl, rfl⟩
    | directory es => exact .inr (.inr ⟨es, es, rfl, rfl⟩)
  · cases rest with
    | nil =>
      obtain ⟨hdir, bytes, bytes', rfl, rfl⟩ | ⟨-, es, fs, rfl, rfl⟩ := h.cases
      · exact .inr (.inl ⟨bytes, bytes', rfl, rfl, .inr ⟨hdir, List.append_nil _⟩⟩)
      · exact .inr (.inr ⟨es, fs, rfl, rfl⟩)
    | cons name rest =>
      obtain ⟨es, fs, rfl, rfl, -⟩ := h
      exact .inr (.inr ⟨es, fs, rfl, rfl⟩)

/-- An entry of a directory other than the one in question has its counterpart. -/
theorem NodesAgree.lookup? {es fs : List (Text × Node)}
    (h : NodesAgree isDir target names (.directory es) (.directory fs)) (hne : target ≠ names)
    (name : Text) :
    (Node.lookup? es name = none ∧ Node.lookup? fs name = none) ∨
      ∃ a b, Node.lookup? es name = some a ∧ Node.lookup? fs name = some b ∧
        NodesAgree isDir target (names ++ [name]) a b := by
  obtain heq | ⟨rest, rfl, h⟩ := h
  · cases heq
    rcases hname : Node.lookup? es name with _ | a
    · exact .inl ⟨rfl, rfl⟩
    · exact .inr ⟨a, a, rfl, rfl, .inl rfl⟩
  · cases rest with
    | nil => exact absurd (List.append_nil _) hne
    | cons n rest =>
      obtain ⟨_, _, ⟨⟩, ⟨⟩, hall⟩ := h
      obtain hnone | ⟨a, b, ha, hb, hab⟩ := Node.lookup?_of_entriesAgree hall name
      · exact .inl hnone
      · refine .inr ⟨a, b, ha, hb, hab.imp_right ?_⟩
        rintro ⟨rfl, hagree⟩
        exact ⟨rest, by simp, hagree⟩

end Nodes

/-- **Whether two places have the same names**, and nodes on the way that agree. -/
inductive Place.AgreeOff (isDir : Bool) (target : List Text) : Place → Place → Prop where
  | nil : AgreeOff isDir target [] []
  | cons {p q : Place} {name : Text} {x y : Node} (h : AgreeOff isDir target p q)
      (hxy : NodesAgree isDir target (Place.names p ++ [name]) x y) :
      AgreeOff isDir target ((name, x) :: p) ((name, y) :: q)

namespace Place.AgreeOff

variable {isDir : Bool} {target : List Text} {p q : Place}

theorem names (h : AgreeOff isDir target p q) : Place.names p = Place.names q := by
  induction h with
  | nil => rfl
  | cons _ _ ih => rw [names_cons, names_cons, ih]

theorem tail (h : AgreeOff isDir target p q) : AgreeOff isDir target p.tail q.tail := by
  cases h with
  | nil => exact .nil
  | cons h _ => exact h

theorem node {root root' : Node} (hroot : root.AgreeOff isDir target root')
    (h : AgreeOff isDir target p q) :
    NodesAgree isDir target (Place.names p) (Place.node root p) (Place.node root' q) := by
  cases h with
  | nil => exact .inr ⟨target, rfl, hroot⟩
  | cons _ hxy =>
    rw [names_cons]
    exact hxy

end Place.AgreeOff

/-- **Whether two ways end alike**: at places that agree, or with the same failure. -/
inductive EndAlike (isDir : Bool) (target : List Text) :
    Except ReadFailure Place → Except ReadFailure Place → Prop where
  | error (e : ReadFailure) : EndAlike isDir target (.error e) (.error e)
  | ok {p q : Place} (h : Place.AgreeOff isDir target p q) : EndAlike isDir target (.ok p) (.ok q)

/-- The directories in which entries are looked up along the names, up to the first link, where
`onward` goes on. -/
def searchedEntries (root : Node) (onward : Place → List Text → List (List Text)) (place : Place) :
    List Text → List (List Text)
  | [] => []
  | name :: rest =>
    match place.node root with
    | .directory entries =>
      if name = [] ∨ name = ['.'] then searchedEntries root onward place rest
      else if name = ['.', '.'] then searchedEntries root onward place.tail rest
      else if name.byteLength > maxName then []
      else
        place.names ::
          match Node.lookup? entries name with
          | none => []
          | some (.link target) =>
            onward (if Path.isAbsolute target then [] else place) (Path.names target ++ rest)
          | some node => searchedEntries root onward ((name, node) :: place) rest
    | _ => []

/-- **The directories in which entries are looked up** along some names from a place. -/
def searchedFrom (root : Node) : Nat → Place → List Text → List (List Text)
  | 0 => searchedEntries root fun _ _ => []
  | links + 1 => searchedEntries root (searchedFrom root links)

variable {isDir : Bool} {target : List Text} {root root' : Node}

/-- Names lead to places that agree up to the first link, and on if they do from there. -/
theorem followEntries_agree (hroot : root.AgreeOff isDir target root')
    {onward onward' : Place → List Text → Except ReadFailure Place}
    {searched : Place → List Text → List (List Text)}
    (honward : ∀ {p q : Place} (names : List Text), Place.AgreeOff isDir target p q →
      target ∉ searched p names → EndAlike isDir target (onward p names) (onward' q names))
    {p q : Place} (h : Place.AgreeOff isDir target p q) {names : List Text}
    (hs : target ∉ searchedEntries root searched p names) :
    EndAlike isDir target (followEntries root onward p names)
      (followEntries root' onward' q names) := by
  induction names generalizing p q with
  | nil => exact .ok h
  | cons name rest ih =>
    have hnode := h.node hroot
    obtain ⟨_, hx, hy⟩ | ⟨_, _, hx, hy, -⟩ | ⟨es, fs, hx, hy⟩ := hnode.cases
    · simp only [followEntries, hx, hy]
      exact .error _
    · simp only [followEntries, hx, hy]
      exact .error _
    · rw [hx, hy] at hnode
      simp only [followEntries, searchedEntries, hx, hy] at hs ⊢
      split_ifs at hs ⊢
      · exact ih h hs
      · exact ih h.tail hs
      · exact .error _
      · rw [List.mem_cons, not_or] at hs
        obtain ⟨hne, hs⟩ := hs
        obtain ⟨hl, hr⟩ | ⟨a, b, hl, hr, hab⟩ := hnode.lookup? hne name
        · simp only [hl, hr]
          exact .error _
        · simp only [hl, hr] at hs ⊢
          obtain ⟨link, rfl, rfl⟩ | ⟨_, _, rfl, rfl, -⟩ | ⟨_, _, rfl, rfl⟩ := hab.cases
          · refine honward _ ?_ hs
            split
            · exact .nil
            · exact h
          · exact ih (.cons h hab) hs
          · exact ih (.cons h hab) hs

/-- **Names lead to places that agree**, unless entries of the directory in question are looked
up. -/
theorem follow_agree (hroot : root.AgreeOff isDir target root') {links : Nat} {p q : Place}
    (h : Place.AgreeOff isDir target p q) {names : List Text}
    (hs : target ∉ searchedFrom root links p names) :
    EndAlike isDir target (follow root links p names) (follow root' links q names) := by
  induction links generalizing p q names with
  | zero =>
    rw [follow_zero, follow_zero]
    exact followEntries_agree hroot (fun _ _ _ => .error _) h hs
  | succ links ih =>
    rw [follow_succ, follow_succ]
    have hentries : target ∉ searchedEntries root (searchedFrom root links) p names := hs
    refine followEntries_agree hroot ?_ h hentries
    exact fun _ h hs => ih h hs

/-- A place that names lead to has the node under its own names. -/
theorem at?_of_leads {p : Place} (h : p.Leads root) : root.at? p.names = some (p.node root) := by
  induction p with
  | nil => rfl
  | cons step p ih =>
    obtain ⟨name, node⟩ := step
    obtain ⟨hp, es, hes, hname⟩ := h
    rw [Place.names_cons, Node.at?_append, ih hp, hes]
    simp [Node.at?, hname, Place.node]

theorem at?_of_mem_searchedEntries {searched : Place → List Text → List (List Text)}
    (honward : ∀ {p : Place} {names : List Text}, p.Leads root → target ∈ searched p names →
      ∃ es, root.at? target = some (.directory es))
    {p : Place} {names : List Text} (h : p.Leads root)
    (hs : target ∈ searchedEntries root searched p names) :
    ∃ es, root.at? target = some (.directory es) := by
  induction names generalizing p with
  | nil => cases hs
  | cons name rest ih =>
    cases hnode : p.node root with
    | file bytes => simp [searchedEntries, hnode] at hs
    | link link => simp [searchedEntries, hnode] at hs
    | directory es =>
      simp only [searchedEntries, hnode] at hs
      split_ifs at hs
      · exact ih h hs
      · exact ih h.tail hs
      · cases hs
      · rcases List.mem_cons.mp hs with rfl | hs
        · exact ⟨es, hnode ▸ at?_of_leads h⟩
        · split at hs
          · cases hs
          · refine honward ?_ hs
            split
            · exact Place.leads_nil root
            · exact h
          · next node _ hname =>
            have hnext : Place.Leads root ((name, node) :: p) := ⟨h, es, hnode, hname⟩
            exact ih hnext hs

theorem at?_of_mem_searchedFrom {links : Nat} {p : Place} {names : List Text} (h : p.Leads root)
    (hs : target ∈ searchedFrom root links p names) :
    ∃ es, root.at? target = some (.directory es) := by
  induction links generalizing p names with
  | zero =>
    have hentries : target ∈ searchedEntries root (fun _ _ => []) p names := hs
    exact at?_of_mem_searchedEntries (fun _ hs => by cases hs) h hentries
  | succ links ih =>
    have hentries : target ∈ searchedEntries root (searchedFrom root links) p names := hs
    exact at?_of_mem_searchedEntries (fun h hs => ih h hs) h hentries

/-! ## What a path leads to -/

/-- **The directories in which a path looks up entries**, on the way of the working directory too if
the path starts there. -/
def searched (files : FileTree) (path : Text) : List (List Text) :=
  match pathFault? path with
  | some _ => []
  | none =>
    let names := Path.names path
    if Path.isAbsolute path then searchedFrom files.root maxLinks [] names
    else
      searchedFrom files.root maxLinks [] files.workingNames ++
        match files.workingPlace with
        | .error _ => []
        | .ok start => searchedFrom files.root maxLinks start names

/-- Whether a path leads to the node under some names. -/
def leadsTo (files : FileTree) (path : Text) (names : List Text) : Bool :=
  match files.place path with
  | .error _ => false
  | .ok p => p.names == names

/-- Whether a path leads to the node under some names, or to one below it. -/
def leadsInto (files : FileTree) (path : Text) (names : List Text) : Bool :=
  match files.place path with
  | .error _ => false
  | .ok p => names.isPrefixOf p.names

/-- **Whether a path tells nothing of what lies under some names**: it looks up no entry of a
directory there, and it does not lead to a file there. -/
def Avoids (isDir : Bool) (target : List Text) (files : FileTree) (path : Text) : Prop :=
  target ∉ files.searched path ∧ (isDir = false → files.leadsTo path target = false)

/-- **Whether two trees agree** but for what some names lead to. -/
structure AgreeOff (isDir : Bool) (target : List Text) (files files' : FileTree) : Prop where
  root : files.root.AgreeOff isDir target files'.root
  workingNames : files.workingNames = files'.workingNames

theorem agreeOff_graft {files : FileTree} {old new : Node} (hat : files.root.at? target = some old)
    (h : Node.SameKind isDir old new) : files.AgreeOff isDir target (files.graft target new) :=
  ⟨Node.agreeOff_put hat h, rfl⟩

section Paths

variable {files files' : FileTree} {path : Text}

/-- Entries are looked up in directories only. -/
theorem at?_of_mem_searched (hs : target ∈ files.searched path) :
    ∃ es, files.root.at? target = some (.directory es) := by
  unfold searched at hs
  split at hs
  · cases hs
  · simp only at hs
    split at hs
    · exact at?_of_mem_searchedFrom (Place.leads_nil _) hs
    · rcases List.mem_append.mp hs with hs | hs
      · exact at?_of_mem_searchedFrom (Place.leads_nil _) hs
      · split at hs
        · cases hs
        · next start hstart =>
          exact at?_of_mem_searchedFrom (leads_follow (Place.leads_nil _) hstart) hs

/-- No path looks up entries of a file. -/
theorem not_mem_searched_of_file {bytes : List UInt8}
    (hat : files.root.at? target = some (.file bytes)) (path : Text) :
    target ∉ files.searched path := by
  intro hs
  obtain ⟨es, hes⟩ := at?_of_mem_searched hs
  rw [hat] at hes
  cases hes

theorem exists_place_of_leadsTo (h : files.leadsTo path target = true) :
    ∃ p, files.place path = .ok p ∧ p.names = target := by
  unfold leadsTo at h
  split at h
  · cases h
  · next p hplace => exact ⟨p, hplace, eq_of_beq h⟩

theorem exists_place_of_isDirectory (h : files.isDirectory path = true) :
    ∃ p, files.place path = .ok p := by
  rcases hplace : files.place path with e | p
  · simp only [FileTree.isDirectory, FileTree.resolve, hplace, Bool.false_eq_true] at h
  · exact ⟨p, rfl⟩

/-- **A path leads to the same place in both trees**, unless it looks up entries of the directory in
question. -/
theorem AgreeOff.place (h : files.AgreeOff isDir target files')
    (hs : target ∉ files.searched path) :
    EndAlike isDir target (files.place path) (files'.place path) := by
  rw [FileTree.place, FileTree.place]
  rw [searched] at hs
  cases hfault : pathFault? path with
  | some e => exact .error e
  | none =>
    simp only [hfault] at hs ⊢
    cases habsolute : Path.isAbsolute path with
    | true =>
      simp only [habsolute, if_true] at hs
      simp only [reach, start, if_true]
      exact follow_agree h.root .nil hs
    | false =>
      simp only [habsolute, Bool.false_eq_true, if_false, List.mem_append, not_or] at hs
      have hworking : EndAlike isDir target files.workingPlace files'.workingPlace := by
        rw [workingPlace, workingPlace, ← h.workingNames]
        exact follow_agree h.root .nil hs.1
      simp only [reach, start, Bool.false_eq_true, if_false]
      generalize files.workingPlace = w, files'.workingPlace = w' at hworking hs
      cases hworking with
      | error e => exact .error e
      | ok hplaces => exact follow_agree h.root hplaces hs.2

theorem AgreeOff.resolve (h : files.AgreeOff isDir target files')
    (hs : target ∉ files.searched path) :
    (∃ e, files.resolve path = .error e ∧ files'.resolve path = .error e) ∨
      ∃ p x y, files.place path = .ok p ∧ files.resolve path = .ok (pathOf p.names, x) ∧
        files'.resolve path = .ok (pathOf p.names, y) ∧ NodesAgree isDir target p.names x y := by
  have hplace := h.place hs
  rw [FileTree.resolve, FileTree.resolve]
  generalize files.place path = w, files'.place path = w' at hplace
  cases hplace with
  | error e => exact .inl ⟨e, rfl, rfl⟩
  | @ok p q hpq => exact .inr ⟨p, _, _, rfl, rfl, by rw [hpq.names], hpq.node h.root⟩

theorem AgreeOff.listingFault? (h : files.AgreeOff isDir target files')
    (hs : target ∉ files.searched path) :
    files.listingFault? path = files'.listingFault? path := by
  rw [FileTree.listingFault?, FileTree.listingFault?]
  obtain ⟨e, hx, hy⟩ | ⟨p, x, y, -, hx, hy, hxy⟩ := h.resolve hs
  · rw [hx, hy]
  · rw [hx, hy]
    obtain ⟨_, rfl, rfl⟩ | ⟨_, _, rfl, rfl, -⟩ | ⟨_, _, rfl, rfl⟩ := hxy.cases <;> rfl

theorem AgreeOff.isDirectory (h : files.AgreeOff isDir target files')
    (hs : target ∉ files.searched path) :
    files.isDirectory path = files'.isDirectory path := by
  rw [Bool.eq_iff_iff, ← listingFault?_eq_none_iff, ← listingFault?_eq_none_iff,
    h.listingFault? hs]

/-- **A path leads to the same bytes in both trees** if it tells nothing of the place in
question. -/
theorem AgreeOff.read (h : files.AgreeOff isDir target files')
    (havoids : files.Avoids isDir target path) : files.read path = files'.read path := by
  obtain ⟨hs, hfile⟩ := havoids
  rw [FileTree.read, FileTree.read]
  obtain ⟨e, hx, hy⟩ | ⟨p, x, y, hp, hx, hy, hxy⟩ := h.resolve hs
  · rw [hx, hy]
  · rw [hx, hy]
    obtain ⟨_, rfl, rfl⟩ | ⟨bytes, bytes', rfl, rfl, rfl | ⟨hdir, hnames⟩⟩ | ⟨_, _, rfl, rfl⟩ :=
      hxy.cases
    · rfl
    · rfl
    · have hleads : files.leadsTo path target = true := by
        rw [leadsTo, hp, hnames]
        exact beq_self_eq_true _
      rw [hfile hdir] at hleads
      cases hleads
    · rfl

end Paths

end FileTree

end PathFilter
