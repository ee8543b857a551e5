import PathFilter.Text.Blank

/-!
# Verbosity flags

Diagnostics belong to categories, and each category has a flag that sets how much of it is wanted.
The flags form two families: the info flags are about the entries of a listing, the debug flags
about how the listing came about.

## Main definitions

* `InfoFlag`, `DebugFlag`, `Flag`: the flags of each family, and all of them
* `Flag.ofFamily`: the flags of a family in their order
* `Flag.named? family name`: the flag of a name

## Main results

* `Flag.named?_name`: a flag is found by its name
-/

namespace PathFilter

/-- The flags about the entries of a listing. -/
inductive InfoFlag where
  /-- Entries that are protected from deletion. -/
  | del
  /-- Entries by name. -/
  | name
  /-- Directories that are passed over. -/
  | skip
  /-- Counts at the end. -/
  | stats
deriving DecidableEq, Repr

/-- The flags about how a listing came about. -/
inductive DebugFlag where
  /-- Deletion. -/
  | del
  /-- Rules, rule files and decisions. -/
  | filter
  /-- The directories walked. -/
  | flist
deriving DecidableEq, Repr

/-- The two families of flags. -/
inductive Family where
  | info
  | debug
deriving DecidableEq, Repr

/-- The name of a family. -/
def Family.name : Family → String
  | .info => "info"
  | .debug => "debug"

/-- **A flag** of either family. -/
inductive Flag where
  | info (flag : InfoFlag)
  | debug (flag : DebugFlag)
deriving DecidableEq, Repr

namespace Flag

/-- The family of a flag. -/
def family : Flag → Family
  | info _ => .info
  | debug _ => .debug

/-- The name of a flag. -/
def name : Flag → String
  | info .del => "del"
  | info .name => "name"
  | info .skip => "skip"
  | info .stats => "stats"
  | debug .del => "del"
  | debug .filter => "filter"
  | debug .flist => "flist"

/-- The name of a flag as a value of an enumeration. -/
def title : Flag → String
  | info .del => "Del"
  | info .name => "Name"
  | info .skip => "Skip"
  | info .stats => "Stats"
  | debug .del => "Del"
  | debug .filter => "Filter"
  | debug .flist => "Flist"

/-- The flags of a family, in the order in which they are listed. -/
def ofFamily : Family → List Flag
  | .info => [info .del, info .name, info .skip, info .stats]
  | .debug => [debug .del, debug .filter, debug .flist]

theorem mem_ofFamily (flag : Flag) : flag ∈ ofFamily flag.family := by
  rcases flag with (_ | _ | _ | _) | (_ | _ | _) <;> decide

theorem family_of_mem_ofFamily {flag : Flag} {f : Family} (h : flag ∈ ofFamily f) :
    flag.family = f := by
  cases f <;> revert flag <;> decide

/-- The flag of a family that has a name. -/
def named? (f : Family) (n : Text) : Option Flag :=
  (ofFamily f).find? fun flag => flag.name.toList == n

/-- A flag is found by its name. -/
theorem named?_name (flag : Flag) : named? flag.family flag.name.toList = some flag := by
  rcases flag with (_ | _ | _ | _) | (_ | _ | _) <;> decide

end Flag

end PathFilter
