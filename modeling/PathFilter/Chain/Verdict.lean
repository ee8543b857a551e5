import PathFilter.Chain.Basic
import PathFilter.Trace.Event

/-!
# The verdict of a chain

A candidate is checked against the visible layers, nearest first. The first rule that matches it
decides, and if there is none the verdict is neutral. A directory is compared with a slash after
its path.

## Main definitions

* `Chain.decisive?`, `Chain.check`: the rule that decides, and the verdict
* `Chain.excludes`, `Chain.protects`: the verdict as an answer
* `Chain.consulted`, `Chain.checkEvents`: the events of a decision and of a check
* `Chain.isAvailable`: whether any rule can be seen

## Main results

* `Chain.decisive?_eq_firstMatch?`: the layers decide as one list of all their rules would
-/

namespace PathFilter

/-- The path that the rules see: that of a directory ends with a slash. -/
def subjectOf (candidate : Text) (isDirectory : Bool) : Text :=
  if isDirectory && !candidate.endsWith '/' then candidate ++ ['/'] else candidate

namespace RuleList

/-- The comparisons of a path with the rules that are asked about it. -/
def comparisons (rules : RuleList) (path : Text) (isDirectory : Bool) : List Event :=
  (asked rules path isDirectory).map fun r => .compared path r (r.matches? path isDirectory)

end RuleList

namespace Layer

/-- The comparisons of a path with the rules of some layers, up to the one that decides. -/
def consulted (purpose : Purpose) (path : Text) (isDirectory : Bool) : List Layer → List Event
  | [] => []
  | l :: ls =>
    let rules := l.rulesFor purpose
    RuleList.comparisons rules path isDirectory ++
      if (RuleList.firstMatch? rules path isDirectory).isSome then []
      else consulted purpose path isDirectory ls

end Layer

namespace Chain

/-- **The rule that decides** about a candidate: the first match of the nearest layer that has
one. -/
def decisive? (c : Chain) (candidate : Text) (isDirectory : Bool) (purpose : Purpose) :
    Option Rule :=
  c.visible.findSome? fun l =>
    RuleList.firstMatch? (l.rulesFor purpose) (subjectOf candidate isDirectory) isDirectory

/-- **The verdict** about a candidate. -/
def check (c : Chain) (candidate : Text) (isDirectory : Bool) (purpose : Purpose) : Verdict :=
  RuleList.verdict (c.decisive? candidate isDirectory purpose)

/-- Whether a candidate is left out of the transfer. -/
def excludes (c : Chain) (candidate : Text) (isDirectory : Bool) : Bool :=
  c.check candidate isDirectory .transfer == .excluded

/-- Whether a candidate is kept from deletion. -/
def protects (c : Chain) (candidate : Text) (isDirectory : Bool) : Bool :=
  c.check candidate isDirectory .deletion == .excluded

/-- Whether any rule can be seen. -/
def isAvailable (c : Chain) : Bool :=
  c.visible.any fun l => !l.rules.isEmpty || !l.deletionRules.isEmpty

/-- The events of finding the rule that decides. -/
def consulted (c : Chain) (candidate : Text) (isDirectory : Bool) (purpose : Purpose) :
    List Event :=
  Layer.consulted purpose (subjectOf candidate isDirectory) isDirectory c.visible

/-- **The events of a check**: the comparisons, then the verdict. -/
def checkEvents (c : Chain) (candidate : Text) (isDirectory : Bool) (purpose : Purpose) :
    List Event :=
  c.consulted candidate isDirectory purpose ++
    [.decided candidate purpose (c.check candidate isDirectory purpose)]

/-- The layers decide as one list of all their rules would. -/
theorem decisive?_eq_firstMatch? (c : Chain) (candidate : Text) (isDirectory : Bool)
    (purpose : Purpose) :
    c.decisive? candidate isDirectory purpose =
      RuleList.firstMatch? (c.visible.flatMap (·.rulesFor purpose))
        (subjectOf candidate isDirectory) isDirectory := by
  unfold decisive?
  induction c.visible with
  | nil => rfl
  | cons l ls ih =>
    rw [List.findSome?_cons, List.flatMap_cons, RuleList.firstMatch?_append, ← ih]
    split <;> simp_all

/-- Chains whose visible layers hold the same rules for a decision decide alike. -/
theorem decisive?_congr {c c' : Chain} {purpose : Purpose}
    (h : c.visible.map (·.rulesFor purpose) = c'.visible.map (·.rulesFor purpose))
    (candidate : Text) (isDirectory : Bool) :
    c.decisive? candidate isDirectory purpose = c'.decisive? candidate isDirectory purpose := by
  rw [decisive?_eq_firstMatch?, decisive?_eq_firstMatch?, List.flatMap_def, h, ← List.flatMap_def]

end Chain

end PathFilter
