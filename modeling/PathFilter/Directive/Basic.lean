import PathFilter.Rule.Polarity

/-!
# Directives

A rule line asks for one of three things: to add a rule, to read a rule file in its place, or to
read a rule file of that name in every directory below.

## Main definitions

* `MergeOptions`: how a rule file is read
* `Directive`: what a rule line asks for
-/

namespace PathFilter

/-- How a rule file is read. -/
structure MergeOptions where
  /-- The polarity that every line of the file gets, if its lines are mere path expressions. -/
  enforced : Option Polarity
  /-- Whether the file itself is excluded. -/
  excludeSelf : Bool
  /-- Whether the rules of the directories above are no longer seen. -/
  noInherit : Bool
deriving DecidableEq, Repr

/-- The options of a merge directive without modifiers. -/
def MergeOptions.plain : MergeOptions := ⟨none, false, false⟩

/-- The options under which every line of a file becomes a rule of one polarity. -/
def MergeOptions.verbatim (p : Polarity) : MergeOptions := ⟨some p, false, false⟩

/-- **What a rule line asks for.** -/
inductive Directive where
  /-- Add a rule. -/
  | rule (polarity : Polarity) (ruleClass : RuleClass)
  /-- Read a rule file now. -/
  | merge (options : MergeOptions)
  /-- Read a rule file in every directory below. -/
  | dirMerge (options : MergeOptions)
deriving DecidableEq, Repr

end PathFilter
