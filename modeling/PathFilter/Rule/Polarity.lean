/-!
# What rules decide

A rule includes or excludes the paths it matches. Ordinary rules decide what is transferred,
protect and risk rules what may be deleted. Checking a path gives a verdict, which is neutral when
no rule matches.

## Main definitions

* `Polarity`, `RuleClass`, `Purpose`: the attributes of a rule and the decision it takes part in
* `Verdict`: the outcome of a check
* `Verdict.or`: a verdict with another one to fall back on

## Main results

* `Verdict.or_assoc`, `Verdict.or_neutral`, `Verdict.neutral_or`: verdicts compose
-/

namespace PathFilter

/-- Whether a rule includes or excludes what it matches. -/
inductive Polarity where
  /-- What matches takes part, or may be deleted. -/
  | include
  /-- What matches is left out, or kept from deletion. -/
  | exclude
deriving DecidableEq, Repr

namespace Polarity

/-- The sign that spells a polarity in a rule line. -/
def sign : Polarity → Char
  | .include => '+'
  | .exclude => '-'

/-- The name of a polarity. -/
def name : Polarity → String
  | .include => "include"
  | .exclude => "exclude"

end Polarity

/-- The decision that a rule takes part in. -/
inductive Purpose where
  /-- What is transferred. -/
  | transfer
  /-- What may be deleted. -/
  | deletion
deriving DecidableEq, Repr

/-- The name of a decision. -/
def Purpose.name : Purpose → String
  | transfer => "transfer"
  | deletion => "deletion"

/-- The class of a rule. -/
inductive RuleClass where
  /-- A rule about transfers. -/
  | ordinary
  /-- A rule that keeps paths from deletion. -/
  | protect
  /-- A rule that lets paths be deleted. -/
  | risk
deriving DecidableEq, Repr

namespace RuleClass

/-- The decision that the rules of a class take part in. -/
def purpose : RuleClass → Purpose
  | ordinary => .transfer
  | protect => .deletion
  | risk => .deletion

/-- The polarity that a class stands for: to protect is to exclude from deletion. -/
def polarity? : RuleClass → Option Polarity
  | ordinary => none
  | protect => some .exclude
  | risk => some .include

/-- The name of a class. -/
def name : RuleClass → String
  | ordinary => "ordinary"
  | protect => "protect"
  | risk => "risk"

end RuleClass

/-- The outcome of checking a path. -/
inductive Verdict where
  /-- The deciding rule includes the path. -/
  | included
  /-- The deciding rule excludes the path. -/
  | excluded
  /-- No rule decides. -/
  | neutral
deriving DecidableEq, Repr

namespace Verdict

/-- Whether no rule decided. -/
def isNeutral : Verdict → Bool
  | neutral => true
  | _ => false

/-- **The first verdict, or the second one if the first is neutral.** -/
def or : Verdict → Verdict → Verdict
  | neutral, v => v
  | v, _ => v

@[simp] theorem neutral_or (v : Verdict) : neutral.or v = v := by cases v <;> rfl

@[simp] theorem or_neutral (v : Verdict) : v.or neutral = v := by cases v <;> rfl

theorem or_assoc (u v w : Verdict) : (u.or v).or w = u.or (v.or w) := by cases u <;> rfl

/-- The verdict of a deciding rule. -/
def ofPolarity : Polarity → Verdict
  | .include => included
  | .exclude => excluded

/-- The name of a verdict. -/
def name : Verdict → String
  | included => "included"
  | excluded => "excluded"
  | neutral => "neutral"

end Verdict

end PathFilter
