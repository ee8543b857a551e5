import PathFilter.Rule.Basic

/-!
# Compiled rules

A rule that is asked about many candidates is taken apart once: its expression is cut into its
markers and what is left, and what candidates are compared with is made from them in advance. Rules
are equal if their parts are, whatever was made from these.

## Main definitions

* `Matcher`: what candidates are compared with
* `Matcher.compile`: the matcher of a path
* `CompiledRule`: a rule in parts, with a matcher
* `CompiledRule.build`, `CompiledRule.make`, `CompiledRule.parse`: a compiled rule from its parts,
  and from its line
* `Rule.compile`: a rule with the matcher of its expression

## Main results

* `PathExpression.compile_path`: a path is compiled unless its expression has a fault
* `CompiledRule.build_eq`, `CompiledRule.parse_eq`: a rule is compiled as it is built and as it is
  read
* `CompiledRule.matches?_compile`, `CompiledRule.toText_compile`: what is compiled matches and is
  written as before
-/

namespace PathFilter

/-- **What candidates are compared with.** -/
inductive Matcher where
  | literal (path : Text) (anchored : Bool)
  | glob (g : Glob) (anchored : Bool)
deriving DecidableEq, Repr

namespace Matcher

/-- **The matcher of a path**, or the fault of its glob. -/
def compile (path : Text) (anchored : Bool) : Except FilterError Matcher :=
  if Glob.isGlob path then
    match (Glob.parse path).fault? anchored with
    | some fault => .error (.faultyPattern path fault)
    | none => .ok (.glob (Glob.parse path) anchored)
  else .ok (.literal path anchored)

/-- Whether a candidate in the form of `PathExpression.subject` is matched. -/
def accepts : Matcher → Text → Bool
  | literal path true, subject => PathExpression.leads path subject
  | literal path false, subject => PathExpression.trails path subject
  | glob g anchored, subject => g.accepts anchored subject

end Matcher

namespace PathExpression

/-- The matcher of an expression. -/
def matcher (e : PathExpression) : Matcher :=
  if e.isGlob then .glob e.glob e.anchored else .literal e.path e.anchored

/-- A path is compiled unless its expression has a fault. -/
theorem compile_path (e : PathExpression) :
    Matcher.compile e.path e.anchored =
      match e.fault? with
      | some fault => .error (.faultyPattern e.path fault)
      | none => .ok e.matcher := by
  cases hg : Glob.isGlob e.path with
  | true => simp only [Matcher.compile, fault?, matcher, isGlob, glob, hg, if_true]
  | false => simp [Matcher.compile, fault?, matcher, isGlob, hg]

/-- The matcher of an expression accepts what the expression covers. -/
theorem accepts_matcher (e : PathExpression) (subject : Text) :
    e.matcher.accepts subject = e.covers subject := by
  cases hg : e.isGlob with
  | true => simp [matcher, covers, hg, Matcher.accepts]
  | false => cases ha : e.anchored <;> simp [matcher, covers, hg, ha, Matcher.accepts]

end PathExpression

/-- **A rule in parts**, with the matcher made from them. -/
structure CompiledRule where
  polarity : Polarity
  ruleClass : RuleClass
  /-- The expression without its markers. -/
  pattern : Text
  anchored : Bool
  directoryOnly : Bool
  negated : Bool
  matcher : Matcher
deriving Repr

/-- A rule with the matcher of its expression. -/
def Rule.compile (r : Rule) : CompiledRule where
  polarity := r.polarity
  ruleClass := r.ruleClass
  pattern := r.expression.core
  anchored := r.expression.anchored
  directoryOnly := r.expression.directoryOnly
  negated := r.expression.negated
  matcher := r.expression.matcher

/-- An expression with a fault makes no rule. -/
theorem Rule.ofExpression_of_fault {p : Polarity} {k : RuleClass} {e : PathExpression} {line : Text}
    {fault : GlobFault} (hc : e.core ≠ []) (hf : e.fault? = some fault) :
    ofExpression p k e line = .error (.faultyPattern e.path fault) := by
  unfold ofExpression
  rw [dif_neg hc]
  split <;> simp_all

namespace CompiledRule

/-- **Rules are equal if their parts are**, matchers aside. -/
instance : BEq CompiledRule where
  beq a b :=
    a.polarity == b.polarity && a.ruleClass == b.ruleClass && a.pattern == b.pattern &&
      a.anchored == b.anchored && a.directoryOnly == b.directoryOnly && a.negated == b.negated

/-- The expression of a rule. -/
def expression (c : CompiledRule) : PathExpression :=
  ⟨c.negated, c.anchored, c.directoryOnly, c.pattern⟩

/-- **A compiled rule from its parts**, where `line` is the line that an error quotes. -/
def build (polarity : Polarity) (ruleClass : RuleClass) (text line : Text) :
    Except FilterError CompiledRule :=
  let e := PathExpression.ofText text
  if e.core = [] then .error (.malformed line none .noExpression)
  else
    match Matcher.compile e.path e.anchored with
    | .error error => .error error
    | .ok matcher =>
      .ok ⟨polarity, ruleClass, e.core, e.anchored, e.directoryOnly, e.negated, matcher⟩

/-- A compiled rule from its parts, as if written on a line. -/
def make (polarity : Polarity) (ruleClass : RuleClass) (text : Text) :
    Except FilterError CompiledRule :=
  build polarity ruleClass text (Rule.sign polarity ruleClass :: ' ' :: text)

/-- The compiled ordinary rule that includes what matches. -/
def including (text : Text) : Except FilterError CompiledRule := make .include .ordinary text

/-- The compiled ordinary rule that excludes what matches. -/
def excluding (text : Text) : Except FilterError CompiledRule := make .exclude .ordinary text

/-- The compiled rule that protects what matches. -/
def protecting (text : Text) : Except FilterError CompiledRule := make .exclude .protect text

/-- The compiled rule that puts at risk what matches. -/
def risking (text : Text) : Except FilterError CompiledRule := make .include .risk text

/-- **The compiled rule of a line.** -/
def parse (line : Text) : Except FilterError CompiledRule :=
  match readLine line with
  | .error e => .error e
  | .ok (.rule polarity ruleClass, expression) => build polarity ruleClass expression line
  | .ok _ => .error (.malformed line none .mergeDirective)

/-- The line of a rule. -/
def toText (c : CompiledRule) : Text :=
  Rule.sign c.polarity c.ruleClass :: ' ' :: c.expression.toText

/-- Whether the rule matches a candidate; `none` if it does not apply to it. -/
def matches? (c : CompiledRule) (candidate : Text) (isDirectory : Bool) : Option Bool :=
  if c.expression.appliesTo isDirectory then
    some (c.matcher.accepts (c.expression.subject candidate) != c.negated)
  else none

/-- A rule is compiled as it is built. -/
theorem build_eq (p : Polarity) (k : RuleClass) (text line : Text) :
    build p k text line = (Rule.build p k text line).map Rule.compile := by
  unfold build Rule.build
  dsimp only
  generalize PathExpression.ofText text = e
  by_cases hc : e.core = []
  · rw [if_pos hc, Rule.ofExpression, dif_pos hc]
    rfl
  · rw [if_neg hc, PathExpression.compile_path]
    cases hf : e.fault? with
    | some fault =>
      rw [Rule.ofExpression_of_fault hc hf]
      rfl
    | none =>
      have hok : Rule.ofExpression p k e line = .ok ⟨p, k, e, hc, hf⟩ :=
        Rule.ofExpression_eq_ok_iff.mpr ⟨rfl, rfl, rfl⟩
      rw [hok]
      rfl

/-- A rule is compiled as it is made. -/
theorem make_eq (p : Polarity) (k : RuleClass) (text : Text) :
    make p k text = (Rule.make p k text).map Rule.compile :=
  build_eq ..

/-- A rule is compiled as it is read. -/
theorem parse_eq (line : Text) : parse line = (Rule.parse line).map Rule.compile := by
  unfold parse Rule.parse
  rcases readLine line with e | ⟨directive, expression⟩
  · rfl
  · cases directive with
    | rule p k => exact build_eq p k expression line
    | _ => rfl

variable {r s : Rule}

@[simp] theorem expression_compile (r : Rule) : r.compile.expression = r.expression := rfl

/-- What is compiled is written as before. -/
@[simp] theorem toText_compile (r : Rule) : r.compile.toText = r.toText := rfl

/-- What is compiled matches as before. -/
theorem matches?_compile (r : Rule) (candidate : Text) (isDirectory : Bool) :
    r.compile.matches? candidate isDirectory = r.matches? candidate isDirectory := by
  have haccepts := r.expression.accepts_matcher (r.expression.subject candidate)
  simp only [matches?, expression_compile, Rule.matches?, PathExpression.matches?, ← haccepts]
  rfl

/-- Rules are equal if and only if their parts are. -/
theorem beq_iff {a b : CompiledRule} :
    (a == b) = true ↔
      a.polarity = b.polarity ∧ a.ruleClass = b.ruleClass ∧ a.expression = b.expression := by
  show (a.polarity == b.polarity && a.ruleClass == b.ruleClass && a.pattern == b.pattern &&
    a.anchored == b.anchored && a.directoryOnly == b.directoryOnly && a.negated == b.negated) =
      true ↔ _
  simp only [Bool.and_eq_true, beq_iff_eq, expression, PathExpression.mk.injEq]
  constructor
  · rintro ⟨⟨⟨⟨⟨hpolarity, hclass⟩, hcore⟩, hanchored⟩, hdirectory⟩, hnegated⟩
    exact ⟨hpolarity, hclass, hnegated, hanchored, hdirectory, hcore⟩
  · rintro ⟨hpolarity, hclass, hnegated, hanchored, hdirectory, hcore⟩
    exact ⟨⟨⟨⟨⟨hpolarity, hclass⟩, hcore⟩, hanchored⟩, hdirectory⟩, hnegated⟩

/-- Compiled rules are equal if and only if the rules were. -/
theorem beq_compile_iff : (r.compile == s.compile) = true ↔ r = s := by
  rw [beq_iff, Rule.ext_iff]
  rfl

end CompiledRule

end PathFilter
