import PathFilter.Proofs.Glob.Reading
import PathFilter.Rule.Compiled

/-!
# Equality of compiled rules

Compiled rules are compared by their parts, and the matcher is left out. This is sound because the
matcher of a rule that was read or made is that of its parts, so rules with the same parts match the
same candidates. Since an expression is read again from its text, rules are also told apart by the
lines they are written on, as far as signs tell polarities and classes apart.

## Main definitions

* `CompiledRule.IsBuilt`: the rules that are read from a line or made from their parts

## Main results

* `CompiledRule.IsBuilt.eq_compile`: every rule that is built is compiled from a rule whose
  expression is read again from its text
* `CompiledRule.beq_iff_toText`: rules of the same polarity and class are equal if and only if they
  are written on the same line
* `CompiledRule.beq_sound`: equal rules match the same candidates and are written on the same line,
  and rules of one polarity and class that are written on the same line are equal
-/

namespace PathFilter.CompiledRule

/-- **The rules that can be obtained**: from a line, from their parts, or from a text alone. -/
inductive IsBuilt : CompiledRule → Prop
  | parse {line : Text} {c : CompiledRule} (h : parse line = .ok c) : IsBuilt c
  | make {p : Polarity} {k : RuleClass} {text : Text} {c : CompiledRule}
      (h : make p k text = .ok c) : IsBuilt c
  | including {text : Text} {c : CompiledRule} (h : including text = .ok c) : IsBuilt c
  | excluding {text : Text} {c : CompiledRule} (h : excluding text = .ok c) : IsBuilt c
  | protecting {text : Text} {c : CompiledRule} (h : protecting text = .ok c) : IsBuilt c
  | risking {text : Text} {c : CompiledRule} (h : risking text = .ok c) : IsBuilt c

/-- What is built from parts is compiled from the rule that has them. -/
theorem eq_compile_of_build {p : Polarity} {k : RuleClass} {text line : Text} {c : CompiledRule}
    (h : build p k text line = .ok c) :
    ∃ r : Rule, c = r.compile ∧ .ofText r.expression.toText = r.expression := by
  rw [build_eq] at h
  rcases hr : Rule.build p k text line with e | r <;> rw [hr] at h
  · cases h
  · cases h
    refine ⟨r, rfl, ?_⟩
    rw [(Rule.expression_build hr).2.2, PathExpression.toText_ofText]

/-- **The invariant of compiled rules.** The matcher is that of the parts, and these are read again
from the text they are written as. -/
theorem IsBuilt.eq_compile {c : CompiledRule} (h : c.IsBuilt) :
    ∃ r : Rule, c = r.compile ∧ .ofText r.expression.toText = r.expression := by
  cases h with
  | parse h =>
    unfold CompiledRule.parse at h
    split at h
    · cases h
    · exact eq_compile_of_build h
    · cases h
  | make h => exact eq_compile_of_build h
  | including h => exact eq_compile_of_build h
  | excluding h => exact eq_compile_of_build h
  | protecting h => exact eq_compile_of_build h
  | risking h => exact eq_compile_of_build h

variable {a b : CompiledRule}

/-- **Equal rules match the same candidates.** -/
theorem matches?_eq_of_beq (ha : a.IsBuilt) (hb : b.IsBuilt) (h : (a == b) = true)
    (candidate : Text) (isDirectory : Bool) :
    a.matches? candidate isDirectory = b.matches? candidate isDirectory := by
  obtain ⟨r, rfl, -⟩ := ha.eq_compile
  obtain ⟨s, rfl, -⟩ := hb.eq_compile
  rw [beq_compile_iff.mp h]

/-- A rule is written with the sign of its polarity and its class. -/
theorem toText_eq_of_beq (h : (a == b) = true) : a.toText = b.toText := by
  obtain ⟨hpolarity, hclass, hexpression⟩ := beq_iff.mp h
  rw [toText, toText, hpolarity, hclass, hexpression]

/-- **Rules of the same polarity and class are equal if and only if they are written on the same
line**, as markers and core are told apart again. -/
theorem beq_iff_toText (ha : a.IsBuilt) (hb : b.IsBuilt) (hpolarity : a.polarity = b.polarity)
    (hclass : a.ruleClass = b.ruleClass) : (a == b) = true ↔ a.toText = b.toText := by
  refine ⟨toText_eq_of_beq, fun h => beq_iff.mpr ⟨hpolarity, hclass, ?_⟩⟩
  obtain ⟨r, rfl, hr⟩ := ha.eq_compile
  obtain ⟨s, rfl, hs⟩ := hb.eq_compile
  have htext : r.expression.toText = s.expression.toText := (List.cons.inj (List.cons.inj h).2).2
  calc r.expression = .ofText r.expression.toText := hr.symm
    _ = .ofText s.expression.toText := by rw [htext]
    _ = s.expression := hs

/-- **Equality of compiled rules is sound.** Equal rules give the same answer about every candidate
and are written on the same line, and rules of one polarity and class that are written on the same
line are equal. -/
theorem beq_sound (ha : a.IsBuilt) (hb : b.IsBuilt) :
    ((a == b) = true → (∀ candidate isDirectory,
        a.matches? candidate isDirectory = b.matches? candidate isDirectory) ∧
      a.toText = b.toText) ∧
    (a.polarity = b.polarity → a.ruleClass = b.ruleClass → a.toText = b.toText →
      (a == b) = true) :=
  ⟨fun h => ⟨matches?_eq_of_beq ha hb h, toText_eq_of_beq h⟩,
    fun hpolarity hclass h => (beq_iff_toText ha hb hpolarity hclass).mpr h⟩

/-- A rule for directories, read from a line and made from its text. -/
theorem beq_sound_glob :
    ∃ a b, parse " exclude\t!/[ab]*/ ".toList = .ok a ∧ excluding "!/[ab]*/".toList = .ok b ∧
      a.toText = "- !/[ab]*/".toList ∧ (a == b) = true ∧
      a.matches? "./b.c".toList true = some false ∧
      b.matches? "./b.c".toList true = some false := by
  let r : Rule := ⟨.exclude, .ordinary, .ofText "!/[ab]*/".toList, by decide, by decide +kernel⟩
  have hread : parse " exclude\t!/[ab]*/ ".toList = .ok r.compile := by
    have hr : Rule.parse " exclude\t!/[ab]*/ ".toList = .ok r := by decide +kernel
    rw [parse_eq, hr]
    rfl
  have hmade : excluding "!/[ab]*/".toList = .ok r.compile := by
    have hr : Rule.make .exclude .ordinary "!/[ab]*/".toList = .ok r := by decide +kernel
    rw [excluding, make_eq, hr]
    rfl
  obtain ⟨hsound, hequal⟩ := beq_sound (.parse hread) (.excluding hmade)
  have hmatches : r.compile.matches? "./b.c".toList true = some false := by decide +kernel
  exact ⟨_, _, hread, hmade, by decide, hequal rfl rfl rfl, hmatches,
    ((hsound (hequal rfl rfl rfl)).1 _ _).symm.trans hmatches⟩

end PathFilter.CompiledRule
