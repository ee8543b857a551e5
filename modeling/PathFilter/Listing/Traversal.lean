import PathFilter.Chain.Reading
import PathFilter.Listing.Basic

/-!
# Walking a directory

A walk visits a directory, names its entries in the order of their names, and visits every
directory among them that is not excluded before it goes on. The entries of a directory are checked
against its chain. Symbolic links are entries but are not followed. A directory whose path cannot be
followed is entered, but its entries are left out.

## Main definitions

* `Survey`: what a walk needs to know beside the place it is at
* `Survey.mention`: what is said about one entry
* `Survey.listing`: the entries of a directory, or that they cannot be listed
* `Survey.walkNode`, `Survey.walkEntries`, `Survey.walk`: a walk that says of entries what it is
  told to
* `Survey.listRoot`: the listing of a walk that explains every verdict

## Main results

* `Survey.listing_of_isDirectory`: the entries of what is a directory are listed
-/

namespace PathFilter

/-- What a walk needs to know: the files, and whether deletion is asked about too. -/
structure Survey where
  files : FileTree
  /-- Whether every entry is also checked for deletion. -/
  withDeletion : Bool

namespace Survey

/-- **What explains a verdict**: the rules are asked once more, and the one that decides is
named. -/
def explanation (c : Chain) (candidate : Text) (isDirectory : Bool) : List ListingItem :=
  (c.consulted candidate isDirectory .transfer).map .event ++
    match c.decisive? candidate isDirectory .transfer with
    | some rule => [.remark (.explained candidate isDirectory rule)]
    | none => []

/-- What is said about an entry if its verdict is explained as given: how its verdicts came about,
its line, and remarks. -/
def mentionWith (s : Survey) (explanation : List ListingItem) (c : Chain) (candidate : Text)
    (isDirectory : Bool) : Listing :=
  let verdict := c.check candidate isDirectory .transfer
  let isProtected :=
    if s.withDeletion then some (c.protects candidate isDirectory) else none
  let deletionEvents :=
    if s.withDeletion then c.checkEvents candidate isDirectory .deletion else []
  let protection :=
    if isProtected = some true then [ListingItem.remark (.kept candidate isDirectory)] else []
  let absence :=
    if c.isAvailable then [] else [ListingItem.remark (.unfiltered candidate isDirectory)]
  ⟨(c.checkEvents candidate isDirectory .transfer).map .event ++ explanation ++
      deletionEvents.map .event ++ [.entry ⟨candidate, isDirectory, verdict, isProtected⟩] ++
      protection ++ absence ++ [.flush],
    Tally.zero.addVerdict verdict, none⟩

/-- **What is said about an entry**, with all that explains its verdict. -/
def mention (s : Survey) (c : Chain) (candidate : Text) (isDirectory : Bool) : Listing :=
  s.mentionWith (explanation c candidate isDirectory) c candidate isDirectory

/-- The listing of entering a directory, whose chain is the outcome of reading its rule file. -/
def entering (o : Outcome) (relative : Text) (next : Chain → Listing) : Listing :=
  let events := o.events.map ListingItem.event
  match o.failure with
  | some e => ⟨events, .zero, some e⟩
  | none =>
    let tally := match o.chain.here.loaded with
      | some n => Tally.zero.addRuleFile n
      | none => .zero
    let entered := ListingItem.event (.entered relative o.chain.here.rules.length)
    Listing.andThen ⟨events ++ [entered], tally, none⟩ fun _ => next o.chain

/-- The listing of a directory's entries, or that they cannot be listed. -/
def listing (s : Survey) (path : Text) (entries : Unit → Listing) : Listing :=
  match s.files.listingFault? path with
  | some e => .ofItems [.gap ⟨path, e⟩]
  | none => entries ()

theorem listing_of_isDirectory {s : Survey} {path : Text} (h : s.files.isDirectory path = true)
    (entries : Unit → Listing) : s.listing path entries = entries () := by
  simp [listing, FileTree.listingFault?_eq_none_iff.mpr h]

mutual

/-- **A walk through an entry** of the directory `path`, which lies at `relative` from the root of
the walk, and through all that is visited below the entry. What it says about an entry is `say` of
the chain, the path from the root, and whether the entry is a directory. -/
def walkNode (s : Survey) (say : Chain → Text → Bool → Listing) (c : Chain)
    (path relative name : Text) : Node → Listing
  | .directory entries =>
    let candidate := Path.below relative name
    (say c candidate true).andThen fun _ =>
      if c.excludes candidate true then .ofItems [.remark (.skipped candidate), .flush]
      else
        let below := Path.join path name
        entering (c.descend s.files below) candidate fun c' =>
          s.listing below fun _ => walkEntries s say c' below candidate entries
  | .file _ => say c (Path.below relative name) false
  -- a link to a directory is no directory
  | .link _ => say c (Path.below relative name) false

/-- **A walk through some entries** of a directory. -/
def walkEntries (s : Survey) (say : Chain → Text → Bool → Listing) (c : Chain)
    (path relative : Text) : List (Text × Node) → Listing
  | [] => .empty
  | (name, node) :: entries =>
    (walkNode s say c path relative name node).andThen fun _ =>
      walkEntries s say c path relative entries

end

/-- The entries of the directory that a path leads to, sorted throughout. -/
def sortedEntriesAt (files : FileTree) (path : Text) : List (Text × Node) :=
  match files.resolve path with
  | .ok (_, node) =>
    match node.sorted with
    | .directory entries => entries
    | _ => []
  | .error _ => []

/-- **A walk** through the directory `path`, below the rules of a chain. The directory itself has a
layer too, so that its own rule file is read. -/
def walk (s : Survey) (say : Chain → Text → Bool → Listing) (c : Chain) (path : Text) : Listing :=
  let relative : Text := ['.']
  let within := entering (c.descend s.files path) relative fun c' =>
    s.listing path fun _ => s.walkEntries say c' path relative (sortedEntriesAt s.files path)
  Listing.andThen ⟨[], Tally.zero.addRules c.ruleCount, none⟩ fun _ =>
    within.andThen fun _ => .ofItems [.flush]

/-- The listing of an entry, and of all that is visited below it. -/
def listNode (s : Survey) (c : Chain) (path relative name : Text) (node : Node) : Listing :=
  s.walkNode s.mention c path relative name node

/-- The listing of some entries of a directory. -/
def listEntries (s : Survey) (c : Chain) (path relative : Text) (entries : List (Text × Node)) :
    Listing :=
  s.walkEntries s.mention c path relative entries

/-- **The listing of a walk** that explains every verdict. -/
def listRoot (s : Survey) (c : Chain) (path : Text) : Listing := s.walk s.mention c path

theorem listEntries_cons (s : Survey) (c : Chain) (path relative : Text) (x : Text × Node)
    (entries : List (Text × Node)) :
    s.listEntries c path relative (x :: entries) =
      (s.listNode c path relative x.1 x.2).andThen fun _ => s.listEntries c path relative entries :=
  rfl

end Survey

end PathFilter
