import PathFilter.Proofs.Chain.Opened
import PathFilter.Proofs.FileTree.Replacing

/-!
# The course of a walk

A walk enters one directory after another until something fails. On entering a directory it sees a
chain, and whether there are entries to list; what it says about them follows from these. So two
walks that see the same at every directory say the same, and if they see the same at all directories
but some, they say the same but for what lies there. An entry below a directory that is excluded is
never looked at.

## Main definitions

* `Entrance`: a directory that a walk enters
* `Survey.Carries`: a property of listings goes through a walk
* `Survey.entrances`: the directories that a walk enters at an entry, up to the first failure
* `Survey.Follows`: a walk says the same as another one, but for what a relation overlooks
* `Shuts`: a walk stops above what some names lead to

## Main results

* `Survey.Carries.listNode`: what goes through a walk holds of all that is said of a node
* `Survey.Follows.listNode`: two walks through one node, by induction on the node
* `Survey.Follows.listNode_agreeOff`: two walks through nodes that agree off a place, by induction
  on the names of the place
* `Visit.shuts_of_lists`: a directory whose line says that it is excluded is not entered
-/

namespace PathFilter

/-- **A directory that a walk enters**, below the rules of a chain. -/
structure Entrance where
  outer : Chain
  path : Text
  /-- The path from the directory that the walk started in. -/
  relative : Text

/-- The chain of a directory that is entered. -/
def Entrance.chain (files : FileTree) (e : Entrance) : Chain := (e.outer.descend files e.path).chain

namespace Survey

/-- The listing of a directory that is entered, whose entries are given. -/
def visit (s : Survey) (e : Entrance) (entries : List (Text × Node)) : Listing :=
  entering (e.outer.descend s.files e.path) e.relative fun c =>
    s.listing e.path fun _ => s.listEntries c e.path e.relative entries

theorem listNode_directory (s : Survey) (c : Chain) (path relative name : Text)
    (entries : List (Text × Node)) :
    s.listNode c path relative name (.directory entries) =
      (s.mention c (Path.below relative name) true).andThen fun _ =>
        if c.excludes (Path.below relative name) true then
          .ofItems [.remark (.skipped (Path.below relative name)), .flush]
        else s.visit ⟨c, Path.join path name, Path.below relative name⟩ entries :=
  rfl

theorem listRoot_eq (s : Survey) (c : Chain) (path : Text) :
    s.listRoot c path =
      Listing.andThen ⟨[], Tally.zero.addRules c.ruleCount, none⟩ fun _ =>
        (s.visit ⟨c, path, ['.']⟩ (sortedEntriesAt s.files path)).andThen fun _ =>
          .ofItems [.flush] :=
  rfl

/-- **Whether a property of listings goes through a walk**: it holds of what is said at each point
and of listings in a row, and of a directory if it holds of all that lies there. -/
structure Carries (s : Survey) (P : Text → Listing → Prop) : Prop where
  events : ∀ relative events tally failure, P relative ⟨List.map .event events, tally, failure⟩
  gap : ∀ relative u, P relative (.ofItems [.gap u])
  skipped : ∀ relative candidate, P relative (.ofItems [.remark (.skipped candidate), .flush])
  mention : ∀ c relative name isDirectory,
    P relative (s.mention c (Path.below relative name) isDirectory)
  andThen : ∀ {relative l next}, P relative l → P relative (next ()) → P relative (l.andThen next)
  below : ∀ {relative name l}, P (Path.below relative name) l → P relative l

namespace Carries

variable {s : Survey} {P : Text → Listing → Prop}

theorem visit (h : s.Carries P) {e : Entrance} {entries : List (Text × Node)}
    (hentries : ∀ c, P e.relative (s.listEntries c e.path e.relative entries)) :
    P e.relative (s.visit e entries) := by
  simp only [Survey.visit, entering]
  split
  · exact h.events _ _ _ _
  · refine h.andThen ?_ ?_
    · rw [← List.map_singleton (f := ListingItem.event), ← List.map_append]
      exact h.events _ _ _ _
    · unfold listing
      split
      · exact h.gap _ _
      · exact hentries _

theorem listEntries (h : s.Carries P) {entries : List (Text × Node)}
    (hnode : ∀ x ∈ entries, ∀ c path relative name,
      P relative (s.listNode c path relative name x.2))
    (c : Chain) (path relative : Text) : P relative (s.listEntries c path relative entries) := by
  induction entries with
  | nil => exact h.events relative [] .zero none
  | cons x entries ih =>
    rw [listEntries_cons]
    refine h.andThen (hnode x List.mem_cons_self _ _ _ _) (ih fun x' hx' => ?_)
    exact hnode x' (List.mem_cons_of_mem _ hx')

/-- **What goes through a walk holds of the listing of an entry**, by induction on what lies below
it. -/
theorem listNode (h : s.Carries P) (node : Node) (c : Chain) (path relative name : Text) :
    P relative (s.listNode c path relative name node) := by
  induction node using Node.induction generalizing c path relative name with
  | hfile bytes => exact h.mention _ _ _ _
  | hlink target => exact h.mention _ _ _ _
  | hdirectory entries ih =>
    rw [listNode_directory]
    refine h.andThen (h.mention _ _ _ _) ?_
    split
    · exact h.skipped _ _
    · let e : Entrance := ⟨c, Path.join path name, Path.below relative name⟩
      have hvisit : P e.relative (s.visit e entries) :=
        h.visit fun c' => h.listEntries ih c' e.path e.relative
      exact h.below hvisit

theorem visitAll (h : s.Carries P) (e : Entrance) (entries : List (Text × Node)) :
    P e.relative (s.visit e entries) :=
  h.visit fun c => h.listEntries (fun x _ => h.listNode x.2) c e.path e.relative

end Carries

mutual

/-- **The directories that a walk enters** at an entry, up to the first failure. -/
def entrances (s : Survey) (c : Chain) (path relative name : Text) : Node → List Entrance
  | .directory entries =>
    let e : Entrance := ⟨c, Path.join path name, Path.below relative name⟩
    if c.excludes e.relative true then []
    else
      e :: (c.descend s.files e.path).onSuccess fun c' =>
        if s.files.isDirectory e.path then entrancesAmong s c' e.path e.relative entries else []
  | .file _ => []
  | .link _ => []

/-- The directories that a walk enters at some entries. -/
def entrancesAmong (s : Survey) (c : Chain) (path relative : Text) :
    List (Text × Node) → List Entrance
  | [] => []
  | (name, node) :: entries =>
    entrances s c path relative name node ++
      match (s.listNode c path relative name node).failure with
      | some _ => []
      | none => entrancesAmong s c path relative entries

end

/-- The directories that a walk enters with one of them, whose entries are given. -/
def entrancesFrom (s : Survey) (e : Entrance) (entries : List (Text × Node)) : List Entrance :=
  e :: (e.outer.descend s.files e.path).onSuccess fun c =>
    if s.files.isDirectory e.path then s.entrancesAmong c e.path e.relative entries else []

theorem entrances_directory {s : Survey} {c : Chain} {path relative name : Text}
    (h : c.excludes (Path.below relative name) true = false) (entries : List (Text × Node)) :
    s.entrances c path relative name (.directory entries) =
      s.entrancesFrom ⟨c, Path.join path name, Path.below relative name⟩ entries := by
  simp only [entrances, entrancesFrom, h, Bool.false_eq_true, if_false]

end Survey

/-! ## Two walks -/

/-- **Whether a relation goes through listings in a row**, up to the first failure. -/
structure Listing.Respects (R : Listing → Listing → Prop) : Prop where
  refl : ∀ l, R l l
  andThen : ∀ {l l' : Listing} {next next' : Unit → Listing}, R l l' →
    (l.failure = none → R (next ()) (next' ())) → R (l.andThen next) (l'.andThen next')

theorem Listing.respects_eq : Listing.Respects Eq where
  refl _ := rfl
  andThen := by
    rintro ⟨items, tally, failure⟩ _ next next' rfl hnext
    cases failure with
    | some e => rfl
    | none => simp only [Listing.andThen, hnext rfl]

namespace Survey

/-- Whether two walks see the same on entering a directory. -/
structure SameAt (s s' : Survey) (e : Entrance) : Prop where
  chain : e.outer.descend s.files e.path = e.outer.descend s'.files e.path
  fault : s.files.listingFault? e.path = s'.files.listingFault? e.path

/-- Whether two walks see the same on entering a directory, or what is said of it is overlooked. -/
def AlikeAt (overlooked : Text → Prop) (s s' : Survey) (e : Entrance) : Prop :=
  overlooked e.relative ∨ SameAt s s' e

/-- **Whether one walk says the same as another**, up to a relation that overlooks what is said of
some directories. -/
structure Follows (R : Listing → Listing → Prop) (overlooked : Text → Prop) (s s' : Survey) :
    Prop where
  respects : Listing.Respects R
  withDeletion : s.withDeletion = s'.withDeletion
  overlooks : ∀ e es fs, overlooked e.relative → R (s.visit e es) (s'.visit e fs)

namespace Follows

/-- Two walks that see the same at every directory say the same. -/
theorem of_eq (files files' : FileTree) (withDeletion : Bool) :
    Follows Eq (fun _ => False) ⟨files, withDeletion⟩ ⟨files', withDeletion⟩ :=
  ⟨Listing.respects_eq, rfl, fun _ _ _ h => h.elim⟩

variable {R : Listing → Listing → Prop} {overlooked : Text → Prop} {s s' : Survey}

theorem mention (h : Follows R overlooked s s') (c : Chain) (candidate : Text)
    (isDirectory : Bool) :
    R (s.mention c candidate isDirectory) (s'.mention c candidate isDirectory) := by
  have heq : s.mention c candidate isDirectory = s'.mention c candidate isDirectory := by
    unfold Survey.mention Survey.mentionWith
    rw [h.withDeletion]
  rw [heq]
  exact h.respects.refl _

/-- Two walks say the same of a directory if they see the same on entering it and say the same of
its entries. -/
theorem visit (h : Follows R overlooked s s') {e : Entrance} {es fs : List (Text × Node)}
    (hsame : ∀ e' ∈ s.entrancesFrom e es, AlikeAt overlooked s s' e')
    (hentries :
      (∀ e' ∈ s.entrancesAmong (e.chain s.files) e.path e.relative es,
        AlikeAt overlooked s s' e') →
      R (s.listEntries (e.chain s.files) e.path e.relative es)
        (s'.listEntries (e.chain s.files) e.path e.relative fs)) :
    R (s.visit e es) (s'.visit e fs) := by
  obtain ⟨hhere, hbelow⟩ := List.forall_mem_cons.mp hsame
  obtain hover | ⟨hchain, hfault⟩ := hhere
  · exact h.overlooks e es fs hover
  · simp only [Survey.visit, ← hchain, entering]
    cases hload : (e.outer.descend s.files e.path).failure with
    | some err => exact h.respects.refl _
    | none =>
      refine h.respects.andThen (h.respects.refl _) fun _ => ?_
      simp only [Survey.listing, ← hfault]
      cases hlist : s.files.listingFault? e.path with
      | some failure => exact h.respects.refl _
      | none =>
        -- nothing has failed on the way to the entries, so their entrances are entered too
        refine hentries fun e' he' => hbelow e' ?_
        have hdirectory := FileTree.listingFault?_eq_none_iff.mp hlist
        rw [Outcome.onSuccess_of_none hload, if_pos hdirectory]
        exact he'

/-- Two walks say the same of some entries if they say the same of each. -/
theorem listEntries (h : Follows R overlooked s s') {c : Chain} {path relative : Text}
    {es fs : List (Text × Node)}
    (hentries : List.Forall₂ (fun a b : Text × Node =>
      (∀ e ∈ s.entrances c path relative a.1 a.2, AlikeAt overlooked s s' e) →
        R (s.listNode c path relative a.1 a.2) (s'.listNode c path relative b.1 b.2)) es fs)
    (hsame : ∀ e ∈ s.entrancesAmong c path relative es, AlikeAt overlooked s s' e) :
    R (s.listEntries c path relative es) (s'.listEntries c path relative fs) := by
  induction hentries with
  | nil => exact h.respects.refl _
  | cons hhead _ ih =>
    rw [entrancesAmong] at hsame
    rw [listEntries_cons, listEntries_cons]
    refine h.respects.andThen (hhead fun e he => hsame e (List.mem_append_left _ he)) ?_
    intro hok
    refine ih fun e he => hsame e (List.mem_append_right _ ?_)
    simpa only [hok] using he

/-- **Two walks through one node say the same** if they see the same at every directory, by
induction on the node. -/
theorem listNode (h : Follows R overlooked s s') (node : Node) {c : Chain}
    {path relative name : Text}
    (hsame : ∀ e ∈ s.entrances c path relative name node, AlikeAt overlooked s s' e) :
    R (s.listNode c path relative name node) (s'.listNode c path relative name node) := by
  induction node using Node.induction generalizing c path relative name with
  | hfile bytes => exact h.mention _ _ _
  | hlink target => exact h.mention _ _ _
  | hdirectory entries ih =>
    rw [listNode_directory, listNode_directory]
    refine h.respects.andThen (h.mention _ _ _) fun _ => ?_
    cases hex : c.excludes (Path.below relative name) true with
    | true => exact h.respects.refl _
    | false =>
      rw [entrances_directory hex] at hsame
      refine h.visit hsame fun hbelow => h.listEntries (List.forall₂_same.mpr ?_) hbelow
      intro e he hsame
      exact ih e he hsame

end Follows

end Survey

/-! ## Nodes that agree off a place -/

/-- **Whether a walk stops above what some names lead to**: one of the directories on the way, or
the last one, is excluded. -/
def Shuts (files : FileTree) : Chain → Text → Text → List Text → Prop
  | _, _, _, [] => False
  | c, path, relative, name :: names =>
    c.excludes (Path.below relative name) true = true ∨
      Shuts files (c.descend files (Path.join path name)).chain (Path.join path name)
        (Path.below relative name) names

namespace Survey.Follows

variable {R : Listing → Listing → Prop} {overlooked : Text → Prop} {s s' : Survey} {isDir : Bool}

/-- Two walks say the same of a directory whose entries agree off a place if they say the same of
the entry that leads there. -/
theorem visit_of_entriesAgree (h : Follows R overlooked s s') {e : Entrance} {name : Text}
    {names : List Text} {es fs : List (Text × Node)}
    (hall : List.Forall₂ (Node.EntriesAgree isDir name names) es fs)
    (hnode : ∀ {x y : Node}, x.AgreeOff isDir names y →
      (∀ e' ∈ s.entrances (e.chain s.files) e.path e.relative name x,
        AlikeAt overlooked s s' e') →
      R (s.listNode (e.chain s.files) e.path e.relative name x)
        (s'.listNode (e.chain s.files) e.path e.relative name y))
    (hsame : ∀ e' ∈ s.entrancesFrom e es, AlikeAt overlooked s s' e') :
    R (s.visit e es) (s'.visit e fs) := by
  refine h.visit hsame fun hbelow => h.listEntries (hall.imp ?_) hbelow
  rintro ⟨n, x⟩ ⟨m, y⟩ ⟨hname, hxy⟩ hsame
  simp only at hname hxy hsame ⊢
  subst hname
  obtain rfl | ⟨rfl, hagree⟩ := hxy
  · exact h.listNode _ hsame
  · exact hnode hagree hsame

/-- **Two walks through nodes that agree off a place say the same** if they see the same at every
directory and stop above the place, unless a file lies there. The induction is on the names. -/
theorem listNode_agreeOff (h : Follows R overlooked s s') {names : List Text} {x y : Node}
    (hxy : x.AgreeOff isDir names y) {c : Chain} {path relative name : Text}
    (hshut : isDir = true → Shuts s.files c path relative (name :: names))
    (hsame : ∀ e ∈ s.entrances c path relative name x, AlikeAt overlooked s s' e) :
    R (s.listNode c path relative name x) (s'.listNode c path relative name y) := by
  induction names generalizing x y c path relative name with
  | nil =>
    obtain ⟨-, bytes, bytes', rfl, rfl⟩ | ⟨hdir, es, fs, rfl, rfl⟩ := Node.SameKind.cases hxy
    · exact h.mention _ _ _
    · have hex : c.excludes (Path.below relative name) true = true :=
        (hshut hdir).resolve_right id
      simp only [listNode_directory, hex, if_true]
      exact h.respects.andThen (h.mention _ _ _) fun _ => h.respects.refl _
  | cons n names ih =>
    obtain ⟨es, fs, rfl, rfl, hall⟩ := Node.agreeOff_cons.mp hxy
    rw [listNode_directory, listNode_directory]
    refine h.respects.andThen (h.mention _ _ _) fun _ => ?_
    cases hex : c.excludes (Path.below relative name) true with
    | true => exact h.respects.refl _
    | false =>
      rw [entrances_directory hex] at hsame
      refine h.visit_of_entriesAgree hall (fun hagree => ih hagree ?_) hsame
      intro hdir
      refine (hshut hdir).resolve_left ?_
      rw [hex]
      exact Bool.false_ne_true

/-- Two walks say the same of a directory if its entries agree off a place at which they stop. -/
theorem visit_agreeOff (h : Follows R overlooked s s') {e : Entrance} {name : Text}
    {names : List Text} {es fs : List (Text × Node)}
    (hall : List.Forall₂ (Node.EntriesAgree isDir name names) es fs)
    (hshut : isDir = true →
      Shuts s.files (e.chain s.files) e.path e.relative (name :: names))
    (hsame : ∀ e' ∈ s.entrancesFrom e es, AlikeAt overlooked s s' e') :
    R (s.visit e es) (s'.visit e fs) :=
  h.visit_of_entriesAgree hall (fun hagree => h.listNode_agreeOff hagree hshut) hsame

end Survey.Follows

/-! ## Trees that agree off a place -/

namespace FileTree

variable {isDir : Bool} {target : List Text} {files files' : FileTree}

theorem AgreeOff.sameOn (h : files.AgreeOff isDir target files') :
    files.SameOn (files.Avoids isDir target) files' where
  read _ hpath := h.read hpath
  workingDirectory := by rw [FileTree.workingDirectory, h.workingNames, FileTree.workingDirectory]

/-- Two walks see the same on entering a directory if the paths that they follow there tell nothing
of the place. -/
theorem AgreeOff.sameAt (h : files.AgreeOff isDir target files') (withDeletion : Bool)
    {e : Entrance} (hpath : target ∉ files.searched e.path)
    (hrequested : ∀ path ∈ e.outer.requested files e.path, files.Avoids isDir target path) :
    Survey.SameAt ⟨files, withDeletion⟩ ⟨files', withDeletion⟩ e where
  chain := Chain.descend_congr_requested h.sameOn e.outer e.path hrequested
  fault := h.listingFault? hpath

/-- **The entries of the directory that a walk starts in agree** in two trees that agree off a
place, which has to lie below if it is a directory. -/
theorem AgreeOff.sortedEntriesAt (h : files.AgreeOff isDir target files') {path : Text}
    (hs : target ∉ files.searched path) {p : Place} (hp : files.place path = .ok p)
    (hbelow : isDir = true → ∃ name names, target = p.names ++ name :: names) :
    ∃ name names, (isDir = true → target = p.names ++ name :: names) ∧
      List.Forall₂ (Node.EntriesAgree isDir name names) (Survey.sortedEntriesAt files path)
        (Survey.sortedEntriesAt files' path) := by
  obtain ⟨e, hx, -⟩ | ⟨q, x, y, hq, hx, hy, hxy⟩ := h.resolve hs
  · rw [FileTree.resolve, hp] at hx
    cases hx
  · obtain rfl : p = q := Except.ok.inj (hp.symm.trans hq)
    have hself (es : List (Text × Node)) : ∃ name names,
        (isDir = true → target = p.names ++ name :: names) ∧
          List.Forall₂ (Node.EntriesAgree isDir name names) es es := by
      cases isDir with
      | true =>
        obtain ⟨name, names, htarget⟩ := hbelow rfl
        exact ⟨name, names, fun _ => htarget, Node.entriesAgree_self es⟩
      | false => exact ⟨[], [], by simp, Node.entriesAgree_self es⟩
    simp only [Survey.sortedEntriesAt, hx, hy]
    obtain rfl | ⟨rest, hrest, hagree⟩ := hxy
    · exact hself _
    · cases rest with
      | nil =>
        obtain ⟨-, bytes, bytes', rfl, rfl⟩ | ⟨hdir, es, fs, rfl, rfl⟩ :=
          Node.SameKind.cases hagree
        · exact hself []
        · obtain ⟨name, names, htarget⟩ := hbelow hdir
          rw [hrest, List.append_cancel_left_eq] at htarget
          cases htarget
      | cons name names =>
        obtain ⟨es, fs, hes, hfs, hall⟩ := Node.agreeOff_cons.mp hagree.sorted
        rw [hes, hfs]
        exact ⟨name, names, fun _ => hrest, hall⟩

end FileTree

/-- **A directory whose line says that it is excluded is not entered.** -/
theorem Visit.shuts_of_lists {s : Survey} {d : Visit} {row : Row} (h : d.Lists s row)
    (hdir : row.entry.isDirectory = true) (hv : row.entry.verdict = .excluded) :
    ∃ names, row.names = d.names ++ names ∧
      Shuts s.files d.chain d.path (Path.relative d.names) names := by
  obtain ⟨e, hreach, name, node, -, rfl⟩ := h
  induction hreach using Relation.ReflTransGen.head_induction_on with
  | refl =>
    refine ⟨[name], rfl, .inl ?_⟩
    have hex : e.verdict name true = .excluded := by
      have hnode : node.isDirectory = true := hdir
      exact hnode ▸ hv
    rw [← Path.relative_concat]
    exact Visit.excludes_eq_true_iff.mpr hex
  | head hstep _ ih =>
    obtain ⟨n, es, -, -, rfl⟩ := hstep
    obtain ⟨names, hnames, hshuts⟩ := ih
    refine ⟨n :: names, ?_, .inr ?_⟩
    · rw [hnames, Visit.enter, List.append_assoc, List.singleton_append]
    · rw [← Path.relative_concat]
      exact hshuts

end PathFilter
