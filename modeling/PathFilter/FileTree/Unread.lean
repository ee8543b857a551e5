import PathFilter.FileTree.Resolve

/-!
# The files not being read

While a rule file is read, its lines may ask for further rule files. The files that are still free
to be read are the regular files of the tree without those being read. Every file that a path leads
to is one of the regular files, so reading one more leaves fewer.

## Main definitions

* `FileTree.unread files reading`: the regular files without those in `reading`
* `FileTree.Place.Leads`: every node of a place is the entry of its name in the directory before it

## Main results

* `FileTree.leads_follow`: the names of a path lead from entry to entry
* `FileTree.mem_regularFiles_of_read`: a file that can be read is one of the regular files
* `FileTree.length_unread_lt`: reading one more file leaves fewer
-/

namespace PathFilter

namespace Node

/-- The regular files below an entry are regular files of its directory. -/
theorem mem_filePathsBelow {entries : List (Text × Node)} {name : Text} {node : Node}
    {names : List Text} (h : lookup? entries name = some node) (hn : names ∈ node.filePaths) :
    name :: names ∈ filePathsBelow entries := by
  induction entries with
  | nil => simp [lookup?] at h
  | cons entry entries ih =>
    obtain ⟨n, other⟩ := entry
    simp only [filePathsBelow, List.mem_append, List.mem_map]
    by_cases hname : n = name
    · subst hname
      obtain rfl : other = node := by simpa [lookup?] using h
      exact .inl ⟨names, hn, rfl⟩
    · have hne : (n == name) = false := by simpa using hname
      exact .inr (ih (by simpa [lookup?, hne] using h))

end Node

namespace FileTree

/-- Whether every node of a place is the entry of its name in the directory before it. -/
def Place.Leads (root : Node) : Place → Prop
  | [] => True
  | (name, node) :: place =>
    Leads root place ∧
      ∃ entries, Place.node root place = .directory entries ∧ Node.lookup? entries name = some node

/-- The root leads to itself. -/
theorem Place.leads_nil (root : Node) : Place.Leads root [] := trivial

theorem Place.Leads.tail {root : Node} {place : Place} (h : place.Leads root) :
    Place.Leads root place.tail := by
  cases place with
  | nil => exact leads_nil root
  | cons step place => exact h.1

/-- Names lead from entry to entry up to the first link, and on if they do from there. -/
theorem leads_followEntries {root : Node} {onward : Place → List Text → Except ReadFailure Place}
    (honward : ∀ {start p : Place} {names : List Text}, start.Leads root →
      onward start names = .ok p → p.Leads root)
    {place p : Place} {names : List Text} (h : place.Leads root)
    (hp : followEntries root onward place names = .ok p) : p.Leads root := by
  fun_induction followEntries root onward place names with
  | case1 place =>
    cases hp
    exact h
  | case2 place name rest entries _ _ ih => exact ih h hp
  | case3 place rest entries _ _ ih => exact ih h.tail hp
  | case4 => cases hp
  | case5 => cases hp
  | case6 place name rest entries _ _ _ _ target _ start =>
    refine honward ?_ hp
    simp only [start]
    split
    · exact Place.leads_nil root
    · exact h
  | case7 place name rest entries he _ _ _ node _ hn ih => exact ih ⟨h, entries, he, hn⟩ hp
  | case8 => cases hp

/-- **The names of a path lead from entry to entry.** -/
theorem leads_follow {root : Node} {links : Nat} {place p : Place} {names : List Text}
    (h : place.Leads root) (hp : follow root links place names = .ok p) : p.Leads root := by
  induction links generalizing place p names with
  | zero =>
    rw [follow_zero] at hp
    exact leads_followEntries (fun _ h => by cases h) h hp
  | succ links ih =>
    rw [follow_succ] at hp
    exact leads_followEntries ih h hp

/-- The same of names that are followed from the root or from the working directory. -/
theorem leads_reach {files : FileTree} {fromRoot : Bool} {names : List Text} {p : Place}
    (hp : files.reach fromRoot names = .ok p) : p.Leads files.root := by
  unfold reach at hp
  split at hp
  · simp at hp
  · next place hplace =>
    refine leads_follow ?_ hp
    unfold start at hplace
    split at hplace
    · obtain rfl := by simpa using hplace
      exact Place.leads_nil _
    · exact leads_follow (Place.leads_nil _) hplace

/-- The regular files below a place are regular files of the root. -/
theorem mem_filePaths_of_leads {root : Node} {place : Place} {names : List Text}
    (h : place.Leads root) (hn : names ∈ (place.node root).filePaths) :
    place.names ++ names ∈ root.filePaths := by
  induction place generalizing names with
  | nil => exact hn
  | cons step place ih =>
    obtain ⟨name, node⟩ := step
    obtain ⟨hplace, entries, he, hname⟩ := h
    have hbelow : name :: names ∈ (Place.node root place).filePaths := by
      rw [he, Node.filePaths]
      exact Node.mem_filePathsBelow hname hn
    simpa [Place.names] using ih hplace hbelow

/-- A file that can be read is one of the regular files. -/
theorem mem_regularFiles_of_read {files : FileTree} {path canonical : Text} {bytes : List UInt8}
    (h : files.read path = .ok (canonical, bytes)) : canonical ∈ files.regularFiles := by
  rw [read_eq_ok_iff] at h
  unfold resolve at h
  split at h
  · simp at h
  · next p hp =>
    obtain ⟨rfl, hb⟩ := by simpa using h
    have hleads : p.Leads files.root := by
      unfold place at hp
      split at hp
      · simp at hp
      · exact leads_reach hp
    have hfile : [] ∈ (p.node files.root).filePaths := by simp [hb, Node.filePaths]
    have hnames := mem_filePaths_of_leads hleads hfile
    rw [List.append_nil] at hnames
    exact List.mem_map_of_mem hnames

/-- The regular files that are not being read. -/
def unread (files : FileTree) (reading : List Text) : List Text :=
  files.regularFiles.filter fun f => !reading.contains f

theorem mem_unread {files : FileTree} {reading : List Text} {file : Text} :
    file ∈ files.unread reading ↔ file ∈ files.regularFiles ∧ file ∉ reading := by
  simp [unread]

/-- A file that can be read and is not being read is free to be read. -/
theorem mem_unread_of_read {files : FileTree} {reading : List Text} {path canonical : Text}
    {bytes : List UInt8} (h : files.read path = .ok (canonical, bytes)) (hr : canonical ∉ reading) :
    canonical ∈ files.unread reading :=
  mem_unread.mpr ⟨mem_regularFiles_of_read h, hr⟩

/-- Reading one more file leaves fewer. -/
theorem length_unread_lt {files : FileTree} {reading : List Text} {file : Text}
    (h : file ∈ files.unread reading) :
    (files.unread (file :: reading)).length < (files.unread reading).length := by
  have hsub : files.unread (file :: reading) = (files.unread reading).filter (· != file) := by
    simp only [unread, List.filter_filter, List.contains_cons, Bool.not_or]
    rfl
  rw [hsub]
  exact List.length_filter_lt_length_iff_exists.mpr ⟨file, h, by simp⟩

end FileTree

end PathFilter
