import PathFilter.Rule.Polarity

/-!
# Tallies

What a walk counts: the rules and rule files it used, and the verdicts it reached. A neutral
verdict lets an entry pass just as an inclusion does, but is counted apart.

## Main definitions

* `Tally`: the counts
* `Tally.addRules`, `Tally.addRuleFile`, `Tally.addVerdict`: one more event counted
* `Tally.passRatio`: the share of the entries that pass

## Main results

* `Tally.evaluated_addVerdict`: every verdict counts once
-/

namespace PathFilter

/-- **The counts of a walk.** -/
structure Tally where
  /-- Rules given or read. -/
  rules : Nat
  /-- Per-directory rule files read. -/
  ruleFiles : Nat
  included : Nat
  excluded : Nat
  neutral : Nat
deriving DecidableEq, Repr

namespace Tally

/-- Nothing counted. -/
def zero : Tally := ⟨0, 0, 0, 0, 0⟩

/-- The verdicts counted. -/
def evaluated (t : Tally) : Nat := t.included + t.excluded + t.neutral

/-- The verdicts counted that let an entry pass. -/
def passed (t : Tally) : Nat := t.included + t.neutral

/-- Some more rules. -/
def addRules (t : Tally) (n : Nat) : Tally := { t with rules := t.rules + n }

/-- One more rule file, with the rules it holds. -/
def addRuleFile (t : Tally) (n : Nat) : Tally :=
  { t with ruleFiles := t.ruleFiles + 1, rules := t.rules + n }

/-- One more verdict. -/
def addVerdict (t : Tally) : Verdict → Tally
  | .included => { t with included := t.included + 1 }
  | .excluded => { t with excluded := t.excluded + 1 }
  | .neutral => { t with neutral := t.neutral + 1 }

/-- Two counts together. -/
def add (t u : Tally) : Tally :=
  ⟨t.rules + u.rules, t.ruleFiles + u.ruleFiles, t.included + u.included, t.excluded + u.excluded,
    t.neutral + u.neutral⟩

@[simp] theorem zero_add (t : Tally) : zero.add t = t := by simp [zero, add]

@[simp] theorem add_zero (t : Tally) : t.add zero = t := by simp [zero, add]

theorem add_assoc (t u w : Tally) : (t.add u).add w = t.add (u.add w) := by
  simp [add, Nat.add_assoc]

@[simp] theorem evaluated_add (t u : Tally) : (t.add u).evaluated = t.evaluated + u.evaluated := by
  simp only [add, evaluated]
  omega

/-- Every verdict counts once. -/
@[simp] theorem evaluated_addVerdict (t : Tally) (v : Verdict) :
    (t.addVerdict v).evaluated = t.evaluated + 1 := by
  cases v <;> simp only [addVerdict, evaluated] <;> omega

@[simp] theorem evaluated_addRules (t : Tally) (n : Nat) :
    (t.addRules n).evaluated = t.evaluated := rfl

@[simp] theorem evaluated_addRuleFile (t : Tally) (n : Nat) :
    (t.addRuleFile n).evaluated = t.evaluated := rfl

theorem passed_add_excluded (t : Tally) : t.passed + t.excluded = t.evaluated := by
  simp only [passed, evaluated]
  omega

/-- The share of the entries that pass, 0 if there are none. -/
def passRatio (t : Tally) : Float :=
  if t.evaluated = 0 then 0 else Float.ofNat t.passed / Float.ofNat t.evaluated

end Tally

end PathFilter
