import PathFilter.Json.Value
import PathFilter.Verbosity.Basic

/-!
# Verbosities as JSON

A verbosity is stored as a record of the two families, each of which is a record of its levels. A
flag is stored by its title.

## Main definitions

* `Verbosity.ofJson?`, `Verbosity.toJson`: a verbosity from its record, and its record
* `Flag.ofJson?`, `Flag.toJson`: a flag from its title, and its title

## Main results

* `Verbosity.ofJson?_toJson`, `Flag.ofJson?_toJson`: what is stored is read back
-/

namespace PathFilter

namespace Verbosity

/-- A level from a number. -/
def levelOfJson? : JsonValue → Option UInt8
  | .natural n => if n ≤ 255 then some n.toUInt8 else none
  | _ => none

/-- The names of the levels of a family, in their order. -/
def levelNames (f : Family) : List Text := (Flag.ofFamily f).map fun flag => flag.name.toList

/-- The levels of a family from their record, in their order. -/
def levelsOfJson? (f : Family) (v : JsonValue) : Option (List UInt8) := do
  let values ← v.fields? (levelNames f)
  values.mapM levelOfJson?

/-- **A verbosity from its record.** -/
def ofJson? (v : JsonValue) : Option Verbosity := do
  let families ← v.fields? ["info".toList, "debug".toList]
  match families with
  | [info, debug] =>
    let infoLevels ← levelsOfJson? .info info
    let debugLevels ← levelsOfJson? .debug debug
    match infoLevels, debugLevels with
    | [del, name, skip, stats], [del', filter, flist] =>
      some ⟨⟨del, name, skip, stats⟩, ⟨del', filter, flist⟩⟩
    | _, _ => none
  | _ => none

/-- The record of the levels of a family. -/
def levelsToJson (v : Verbosity) (f : Family) : JsonValue :=
  .object ((Flag.ofFamily f).map fun flag =>
    (some flag.name.toList, .natural (v.level flag).toNat))

/-- **The record of a verbosity.** -/
def toJson (v : Verbosity) : JsonValue :=
  .object [(some "info".toList, v.levelsToJson .info), (some "debug".toList, v.levelsToJson .debug)]

theorem levelOfJson?_natural (l : UInt8) : levelOfJson? (.natural l.toNat) = some l := by
  have : l.toNat ≤ 255 := Nat.le_of_lt_succ l.toNat_lt
  simp [levelOfJson?, this]

/-- What is stored is read back. -/
theorem ofJson?_toJson (v : Verbosity) : ofJson? v.toJson = some v := by
  obtain ⟨⟨a, b, c, d⟩, ⟨e, f, g⟩⟩ := v
  simp [ofJson?, toJson, levelsToJson, levelsOfJson?, levelNames, JsonValue.fields?, Flag.ofFamily,
    Flag.name, level, levelOfJson?_natural]

end Verbosity

namespace Flag

/-- **A flag of a family from its title.** -/
def ofJson? (f : Family) (v : JsonValue) : Option Flag := do
  let title ← v.choice?
  (ofFamily f).find? fun flag => flag.title.toList == title

/-- The title of a flag as a value. -/
def toJson (flag : Flag) : JsonValue := .string (some flag.title.toList)

/-- What is stored is read back. -/
theorem ofJson?_toJson (flag : Flag) : ofJson? flag.family flag.toJson = some flag := by
  rcases flag with (_ | _ | _ | _) | (_ | _ | _) <;> decide

end Flag

end PathFilter
