import PathFilter.Rule.Basic

/-!
# The first match decides

Rules are kept in a list, and the first rule of the list that matches a path decides about it.

## Main definitions

* `RuleList`: rules in the order in which they are asked
* `RuleList.firstMatch?`, `RuleList.check`: the deciding rule and its verdict
* `RuleList.asked`: the rules that are asked until the decision
* `RuleList.toText`: the lines of the rules

## Main results

* `RuleList.check_append`: the verdict of two lists in a row
-/

namespace PathFilter

/-- Rules in the order in which they are asked. -/
abbrev RuleList := List Rule

namespace RuleList

/-- **The rule that decides** about a candidate. -/
def firstMatch? (rules : RuleList) (candidate : Text) (isDirectory : Bool) : Option Rule :=
  rules.find? (·.hits candidate isDirectory)

/-- The rules that are asked about a candidate: all up to the one that decides. -/
def asked : RuleList → Text → Bool → List Rule
  | [], _, _ => []
  | r :: rules, candidate, isDirectory =>
    r :: if r.hits candidate isDirectory then [] else asked rules candidate isDirectory

/-- The verdict of a rule that may decide. -/
def verdict : Option Rule → Verdict
  | some r => .ofPolarity r.polarity
  | none => .neutral

/-- **The verdict of the list** about a candidate. -/
def check (rules : RuleList) (candidate : Text) (isDirectory : Bool) : Verdict :=
  verdict (firstMatch? rules candidate isDirectory)

/-- The lines of the rules, a line feed after each. -/
def toText (rules : RuleList) : Text := rules.flatMap fun r => r.toText ++ ['\n']

@[simp] theorem firstMatch?_nil (candidate : Text) (isDirectory : Bool) :
    firstMatch? [] candidate isDirectory = none := rfl

@[simp] theorem toText_nil : toText [] = [] := rfl

@[simp] theorem toText_cons (r : Rule) (rules : RuleList) :
    toText (r :: rules) = r.toText ++ '\n' :: toText rules := by simp [toText]

theorem firstMatch?_append (rules others : RuleList) (candidate : Text) (isDirectory : Bool) :
    firstMatch? (rules ++ others) candidate isDirectory =
      (firstMatch? rules candidate isDirectory).or (firstMatch? others candidate isDirectory) :=
  List.find?_append

/-- The verdict of two lists in a row is that of the first unless it is neutral. -/
theorem check_append (rules others : RuleList) (candidate : Text) (isDirectory : Bool) :
    check (rules ++ others) candidate isDirectory =
      (check rules candidate isDirectory).or (check others candidate isDirectory) := by
  unfold check
  rw [firstMatch?_append]
  cases firstMatch? rules candidate isDirectory with
  | none => simp [verdict]
  | some r => cases hp : r.polarity <;> simp [verdict, hp, Verdict.ofPolarity, Verdict.or]

end RuleList

end PathFilter
