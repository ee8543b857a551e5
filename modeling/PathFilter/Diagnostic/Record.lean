import PathFilter.Diagnostic.Basic
import PathFilter.Text.Quoted

/-!
# Trace records

A part of the program that wants to be traced leaves a record: a target that names the part, a
severity, a message and some named fields. The last name of the target decides which flag the
record belongs to, and the severity its level. A record of another target belongs to no flag and is
dropped.

## Main definitions

* `TraceTarget`, `Severity`, `TraceField`: the parts of a record
* `TraceTarget.flag?`: the flag of a target
* `TraceRecord.text`: the message and the fields on one line
* `TraceRecord.diagnostic?`: the diagnostic of a record

## Main results

* `TraceTarget.flag?_debug_first`: a name of both families belongs to the debug flag
-/

namespace PathFilter

/-- The names of a part of the program, from the whole to the part. -/
abbrev TraceTarget := List String

namespace TraceTarget

/-- The flag of the last name of a target. -/
def lastFlag? : String → Option Flag
  | "filter" => some (.debug .filter)
  | "flist" => some (.debug .flist)
  | "walk" => some (.debug .flist)
  | "del" => some (.debug .del)
  | "name" => some (.info .name)
  | "skip" => some (.info .skip)
  | "stats" => some (.info .stats)
  | "delete" => some (.info .del)
  | _ => none

/-- **The flag of a target.** Targets are those below `rsync`. -/
def flag? : TraceTarget → Option Flag
  | "rsync" :: name :: names => lastFlag? ((name :: names).getLast (by simp))
  | _ => none

/-- The target of rules and decisions. -/
def filter : TraceTarget := ["rsync", "filter"]

/-- The target of the walk. -/
def walk : TraceTarget := ["rsync", "walk"]

/-- The target that a text with two colons between its names spells. -/
def ofString (s : String) : TraceTarget := s.splitOn "::"

/-- A name of both families belongs to the debug flag. -/
theorem flag?_debug_first : flag? ["rsync", "del"] = some (.debug .del) := rfl

end TraceTarget

/-- How serious a record is. -/
inductive Severity where
  | error
  | warn
  | info
  | debug
  | trace
deriving DecidableEq, Repr

/-- The level of a record: the finest severity needs level 2, every other level 1. -/
def Severity.level : Severity → UInt8
  | .trace => 2
  | _ => 1

/-- The value of a field. -/
inductive FieldValue where
  | text (t : Text)
  | quoted (t : Text)
  | number (n : Int)
  | truth (b : Bool)
  | optional (b : Option Bool)
deriving DecidableEq, Repr

/-- The value of a field as it is shown. -/
def FieldValue.shown : FieldValue → String
  | text t => t.toString
  | quoted t => t.quoted.toString
  | number n => ToString.toString n
  | truth true => "true"
  | truth false => "false"
  | optional none => "None"
  | optional (some true) => "Some(true)"
  | optional (some false) => "Some(false)"

/-- **A trace record.** -/
structure TraceRecord where
  target : TraceTarget
  severity : Severity
  message : String
  /-- The fields by name, in order. -/
  fields : List (String × FieldValue)
deriving DecidableEq, Repr

namespace TraceRecord

/-- The fields as they are shown, with blanks between them. -/
def fieldsText (r : TraceRecord) : String :=
  " ".intercalate (r.fields.map fun (name, value) => name ++ "=" ++ value.shown)

/-- The message and the fields on one line; what is empty takes no place. -/
def text (r : TraceRecord) : String :=
  if r.fields.isEmpty then r.message
  else if r.message.isEmpty then r.fieldsText
  else r.message ++ " " ++ r.fieldsText

/-- **The diagnostic of a record**, if its target belongs to a flag. -/
def diagnostic? (r : TraceRecord) : Option Diagnostic :=
  r.target.flag?.map fun flag => ⟨flag, r.severity.level, r.text⟩

end TraceRecord

end PathFilter
