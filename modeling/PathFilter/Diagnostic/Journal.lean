import PathFilter.Diagnostic.Record
import PathFilter.Verbosity.Token

/-!
# Journals

A journal has a verbosity and keeps the diagnostics that were recorded since it was last emptied.

## Main definitions

* `Journal`: a verbosity and the diagnostics kept
* `Journal.emit`, `Journal.log`, `Journal.trace`: a diagnostic recorded in any case, if it is
  wanted, and from a trace record
* `Journal.drain`: the journal emptied
* `Journal.apply`: the verbosity changed by a flag token

## Main results

* `Journal.log_eq_emit`, `Journal.log_eq_self`: what is wanted is recorded, and nothing else
-/

namespace PathFilter

/-- **A verbosity and the diagnostics kept**, oldest first. -/
structure Journal where
  verbosity : Verbosity
  kept : List Diagnostic
deriving DecidableEq, Repr

namespace Journal

/-- An empty journal. -/
def start (v : Verbosity) : Journal := ⟨v, []⟩

/-- A diagnostic recorded in any case. -/
def emit (j : Journal) (d : Diagnostic) : Journal := { j with kept := j.kept ++ [d] }

/-- **A diagnostic recorded if it is wanted.** -/
def log (j : Journal) (d : Diagnostic) : Journal :=
  if j.verbosity.admits d.flag d.level then j.emit d else j

/-- The diagnostic of a trace record recorded, if it has one and it is wanted. -/
def trace (j : Journal) (r : TraceRecord) : Journal :=
  match r.diagnostic? with
  | some d => j.log d
  | none => j

/-- The journal without the diagnostics kept. -/
def drain (j : Journal) : Journal := { j with kept := [] }

/-- The journal with the verbosity changed by a flag token. -/
def apply (j : Journal) (f : Family) (token : Text) : Except FlagFault Journal :=
  match j.verbosity.applyToken f token with
  | .error fault => .error fault
  | .ok v => .ok { j with verbosity := v }

theorem log_eq_emit {j : Journal} {d : Diagnostic} (h : j.verbosity.admits d.flag d.level = true) :
    j.log d = j.emit d := by
  simp [log, h]

theorem log_eq_self {j : Journal} {d : Diagnostic} (h : j.verbosity.admits d.flag d.level = false) :
    j.log d = j := by
  simp [log, h]

@[simp] theorem kept_drain (j : Journal) : j.drain.kept = [] := rfl

end Journal

end PathFilter
