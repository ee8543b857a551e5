import PathFilter.Directive.Marks
import PathFilter.Rule.Expression

/-!
# Rules

A rule gives a polarity and a class to a path expression. It is written on one line, as a sign and
the expression: `+` and `-` for ordinary rules, `P` and `R` for protect and risk rules.

## Main definitions

* `Rule`: a rule whose expression is not empty and has no fault
* `Rule.build`, `Rule.make`: a rule from its parts
* `Rule.parse`, `Rule.toText`: a rule from its line, and its line
* `splitLine`: the two fields of a line
* `Rule.matches?`: whether a rule matches a candidate

## Main results

* `Rule.expression_build`: a rule has the expression it was built from
* `Rule.ext_iff`: rules of the same polarity, class and expression are the same rule
-/

namespace PathFilter

/-- **A rule.** -/
@[ext] structure Rule where
  /-- Whether the rule includes or excludes. -/
  polarity : Polarity
  /-- The class of the rule. -/
  ruleClass : RuleClass
  /-- What the rule matches. -/
  expression : PathExpression
  /-- The expression is more than its markers. -/
  core_ne_nil : expression.core ≠ []
  /-- The expression can be matched. -/
  fault?_eq_none : expression.fault? = none
deriving DecidableEq, Repr

namespace Rule

/-- The rule of an expression, where `line` is the line that an error quotes. -/
def ofExpression (polarity : Polarity) (ruleClass : RuleClass) (e : PathExpression) (line : Text) :
    Except FilterError Rule :=
  if hc : e.core = [] then .error (.malformed line none .noExpression)
  else
    match hf : e.fault? with
    | some fault => .error (.faultyPattern e.path fault)
    | none => .ok ⟨polarity, ruleClass, e, hc, hf⟩

/-- **A rule from its parts**, where `line` is the line that an error quotes. -/
def build (polarity : Polarity) (ruleClass : RuleClass) (text line : Text) :
    Except FilterError Rule :=
  ofExpression polarity ruleClass (.ofText text) line

/-- The sign of a rule: the letter of its class, or the sign of its polarity. -/
def sign : Polarity → RuleClass → Char
  | _, .protect => 'P'
  | _, .risk => 'R'
  | p, .ordinary => p.sign

/-- A rule from its parts, as if written on a line. -/
def make (polarity : Polarity) (ruleClass : RuleClass) (text : Text) : Except FilterError Rule :=
  build polarity ruleClass text (sign polarity ruleClass :: ' ' :: text)

/-- The ordinary rule that includes what matches. -/
def including (text : Text) : Except FilterError Rule := make .include .ordinary text

/-- The ordinary rule that excludes what matches. -/
def excluding (text : Text) : Except FilterError Rule := make .exclude .ordinary text

/-- The rule that protects what matches. -/
def protecting (text : Text) : Except FilterError Rule := make .exclude .protect text

/-- The rule that puts at risk what matches. -/
def risking (text : Text) : Except FilterError Rule := make .include .risk text

/-- The line of a rule. -/
def toText (r : Rule) : Text := sign r.polarity r.ruleClass :: ' ' :: r.expression.toText

/-- The decision that the rule takes part in. -/
def purpose (r : Rule) : Purpose := r.ruleClass.purpose

/-- Whether the rule matches a candidate; `none` if it does not apply to it. -/
def matches? (r : Rule) (candidate : Text) (isDirectory : Bool) : Option Bool :=
  r.expression.matches? candidate isDirectory

/-- Whether the rule applies to a candidate and matches it. -/
def hits (r : Rule) (candidate : Text) (isDirectory : Bool) : Bool :=
  r.matches? candidate isDirectory == some true

theorem hits_eq_true_iff (r : Rule) (candidate : Text) (isDirectory : Bool) :
    r.hits candidate isDirectory = true ↔ r.matches? candidate isDirectory = some true := by
  simp [hits]

/-- Building succeeds exactly with the rule that has the given parts. -/
theorem ofExpression_eq_ok_iff {p : Polarity} {k : RuleClass} {e : PathExpression} {line : Text}
    {r : Rule} :
    ofExpression p k e line = .ok r ↔ r.polarity = p ∧ r.ruleClass = k ∧ r.expression = e := by
  constructor
  · intro h
    unfold ofExpression at h
    split at h
    · simp at h
    · split at h
      · simp at h
      · cases h
        exact ⟨rfl, rfl, rfl⟩
  · rintro ⟨rfl, rfl, rfl⟩
    unfold ofExpression
    rw [dif_neg r.core_ne_nil]
    split
    · next h => simp [r.fault?_eq_none] at h
    · rfl

/-- A rule has the polarity, the class and the expression it was built from. -/
theorem expression_build {p : Polarity} {k : RuleClass} {text line : Text} {r : Rule}
    (h : build p k text line = .ok r) :
    r.polarity = p ∧ r.ruleClass = k ∧ r.expression = PathExpression.ofText text :=
  ofExpression_eq_ok_iff.mp h

end Rule

/-- The two fields of a rule line. -/
def splitLine (line : Text) : Except FilterError (Text × Text) :=
  match line.fields with
  | [field, expression] => .ok (field, expression)
  | _ => .error (.malformed line none .format)

/-- What a rule line asks for, and of which path. -/
def readLine (line : Text) : Except FilterError (Directive × Text) :=
  match splitLine line with
  | .error e => .error e
  | .ok (field, expression) =>
    match Marks.parse field with
    | .error fault => .error (.malformed line none fault)
    | .ok marks => .ok (marks.directive, expression)

/-- **The rule of a line.** A merge directive is none. -/
def Rule.parse (line : Text) : Except FilterError Rule :=
  match readLine line with
  | .error e => .error e
  | .ok (.rule polarity ruleClass, expression) => build polarity ruleClass expression line
  | .ok _ => .error (.malformed line none .mergeDirective)

end PathFilter
