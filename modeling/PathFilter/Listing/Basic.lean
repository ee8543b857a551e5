import PathFilter.Chain.Verdict

/-!
# Listings

A listing is what a walk has to say, in order: a line for every entry, the events and remarks about
it, and the points at which those are put out. It is the same at every verbosity.

## Main definitions

* `Entry`: the line of an entry
* `Remark`: what is said about an entry beside its line
* `Unlisted`: a directory whose entries cannot be listed
* `ListingItem`, `Listing`: the parts of a listing, and a listing with its counts
* `Listing.gaps`: the number of directories whose entries are left out
* `Listing.andThen`: one listing after another

## Main results

* `Listing.andThen_assoc`: listings in a row
-/

namespace PathFilter

/-- **An entry with its verdicts.** -/
structure Entry where
  /-- The path from the root of the walk. -/
  path : Text
  isDirectory : Bool
  /-- The verdict about its transfer. -/
  verdict : Verdict
  /-- Whether it is kept from deletion, if that was asked. -/
  isProtected : Option Bool
deriving DecidableEq, Repr

namespace Entry

/-- The path as it is shown: that of a directory ends with a slash. -/
def shownPath (path : Text) (isDirectory : Bool) : String :=
  path.toString ++ if isDirectory then "/" else ""

/-- The sign of a verdict: only what is excluded is left out. -/
def sign : Verdict → String
  | .excluded => "-"
  | _ => "+"

/-- The line of an entry. -/
def text (e : Entry) : String :=
  let deletion := match e.isProtected with
    | none => ""
    | some true => " P"
    | some false => " R"
  sign e.verdict ++ deletion ++ " " ++ shownPath e.path e.isDirectory

end Entry

/-- What is said about an entry beside its line. -/
inductive Remark where
  /-- A rule decided about its transfer. -/
  | explained (path : Text) (isDirectory : Bool) (rule : Rule)
  /-- It is kept from deletion. -/
  | kept (path : Text) (isDirectory : Bool)
  /-- No rule can be seen where it lies. -/
  | unfiltered (path : Text) (isDirectory : Bool)
  /-- The walk does not enter it. -/
  | skipped (path : Text)
deriving DecidableEq, Repr

namespace Remark

/-- The flag of a remark. -/
def flag : Remark → Flag
  | explained .. => .debug .filter
  | kept .. => .info .del
  | unfiltered .. => .info .name
  | skipped .. => .info .skip

/-- The level of a remark. -/
def level : Remark → UInt8
  | unfiltered .. => 2
  | _ => 1

/-- The wording of a remark. -/
def message : Remark → String
  | explained path isDirectory rule =>
    let action := match rule.polarity with
      | .include => "including"
      | .exclude => "excluding"
    let kind := if isDirectory then " directory " else " file "
    action ++ kind ++ path.toString ++ " because of rule '" ++ rule.toText.toString ++ "'"
  | kept path isDirectory =>
    "protecting " ++ Entry.shownPath path isDirectory ++ " from deletion"
  | unfiltered path isDirectory =>
    Entry.shownPath path isDirectory ++ ": no filter rules in effect"
  | skipped path => "skipping excluded directory " ++ path.toString ++ "/"

/-- The diagnostic of a remark. -/
def diagnostic (r : Remark) : Diagnostic := ⟨r.flag, r.level, r.message⟩

end Remark

/-- The name of the program, with which its messages start. -/
def programName : String := "rsync-filter"

/-- **A directory whose entries cannot be listed.** -/
structure Unlisted where
  /-- The path of the directory. -/
  path : Text
  reason : ReadFailure
deriving DecidableEq, Repr

/-- The line that reports a directory whose entries cannot be listed. -/
def Unlisted.line (u : Unlisted) : String :=
  programName ++ ": failed to read '" ++ u.path.toString ++ "': " ++ u.reason.message

/-- A part of a listing. -/
inductive ListingItem where
  /-- The line of an entry. -/
  | entry (e : Entry)
  /-- The line of a directory whose entries are left out. -/
  | gap (u : Unlisted)
  /-- An event, to be put out later. -/
  | event (e : Event)
  /-- A remark, to be put out later. -/
  | remark (r : Remark)
  /-- What was to be put out is put out. -/
  | flush
deriving DecidableEq, Repr

/-- **A listing**, the counts of its walk, and the failure that ended it early. -/
structure Listing where
  items : List ListingItem
  tally : Tally
  failure : Option FilterError
deriving DecidableEq, Repr

namespace Listing

/-- A listing without counts. -/
def ofItems (items : List ListingItem) : Listing := ⟨items, .zero, none⟩

/-- Nothing to say. -/
def empty : Listing := ofItems []

/-- **One listing after another.** The second is left out if the first fails. -/
def andThen (l : Listing) (next : Unit → Listing) : Listing :=
  match l.failure with
  | some _ => l
  | none =>
    let m := next ()
    ⟨l.items ++ m.items, l.tally.add m.tally, m.failure⟩

@[simp] theorem empty_andThen (next : Unit → Listing) : empty.andThen next = next () := by
  rcases h : next () with ⟨items, tally, failure⟩
  simp [empty, ofItems, andThen, h]

/-- Listings in a row. -/
theorem andThen_assoc (l : Listing) (f g : Unit → Listing) :
    (l.andThen f).andThen g = l.andThen fun _ => (f ()).andThen g := by
  obtain ⟨items, tally, _ | e⟩ := l
  · rcases h : f () with ⟨items', tally', _ | e'⟩ <;> simp [andThen, h, Tally.add_assoc]
  · rfl

/-- The entries of a listing, in order. -/
def entries (l : Listing) : List Entry :=
  l.items.filterMap fun
    | .entry e => some e
    | _ => none

/-- The number of directories whose entries are left out. -/
def gaps (l : Listing) : Nat :=
  l.items.countP fun
    | .gap _ => true
    | _ => false

end Listing

end PathFilter
