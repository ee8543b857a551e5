import PathFilter.Verbosity.Basic

/-!
# Diagnostics

A diagnostic is a message with the flag and the level that it needs. A verbosity selects the
diagnostics it admits and keeps their order.

## Main definitions

* `Diagnostic`: a message with its flag and level
* `Diagnostic.text`: the line that shows it
* `Verbosity.select`: the diagnostics that are wanted

## Main results

* `Verbosity.select_append`: selecting keeps the order
-/

namespace PathFilter

/-- **A message** with the flag and the level that it needs. -/
structure Diagnostic where
  flag : Flag
  level : UInt8
  message : String
deriving DecidableEq, Repr

/-- The line that shows a diagnostic. One of a debug flag names the flag. -/
def Diagnostic.text (d : Diagnostic) : String :=
  match d.flag.family with
  | .info => d.message
  | .debug => "[" ++ d.flag.name ++ "] " ++ d.message

namespace Verbosity

/-- The diagnostics that are wanted, in order. -/
def select (v : Verbosity) (ds : List Diagnostic) : List Diagnostic :=
  ds.filter fun d => v.admits d.flag d.level

@[simp] theorem select_nil (v : Verbosity) : v.select [] = [] := rfl

@[simp] theorem select_append (v : Verbosity) (ds es : List Diagnostic) :
    v.select (ds ++ es) = v.select ds ++ v.select es := List.filter_append ..

end Verbosity

end PathFilter
