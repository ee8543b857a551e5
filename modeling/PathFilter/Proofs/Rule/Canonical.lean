import PathFilter.Proofs.Rule.Line

/-!
# The canonical line of a rule

The markers of an expression are taken off in one order and written back in another, and the core
that is left may begin and end with the characters of the markers. What is written is the text the
expression was read from all the same. So a rule is read again from its own line whenever its
expression can stand on one: its text holds no blank space, which would end the field.

## Main definitions

* `Rule.IsOf`: the rules that are built from a text

## Main results

* `Rule.isLegible_iff_of_isOf`: the rules built from a text that can be read from a line
* `Rule.canonical_toText`: a rule that was read from a line is read again from its own, and a rule
  built from a text is if and only if the text holds no blank space
-/

namespace PathFilter.Rule

/-- **Whether a rule is built from a text**: included, excluded, protected or put at risk is what
the text matches. -/
def IsOf (r : Rule) (text : Text) : Prop :=
  including text = .ok r ∨ excluding text = .ok r ∨ protecting text = .ok r ∨ risking text = .ok r

variable {r : Rule} {text : Text}

/-- A rule built from a text has its expression, and the polarity that its class stands for. -/
theorem IsOf.expression (h : r.IsOf text) :
    r.expression = .ofText text ∧ ∀ p, r.ruleClass.polarity? = some p → r.polarity = p := by
  obtain h | h | h | h := h <;> obtain ⟨hp, hk, he⟩ := expression_build h <;>
    refine ⟨he, fun p hpolarity => ?_⟩ <;> rw [hk] at hpolarity <;> cases hpolarity <;> exact hp

/-- The text a rule is built from is not empty. -/
theorem IsOf.ne_nil (h : r.IsOf text) : text ≠ [] := by
  rintro rfl
  exact r.core_ne_nil (by rw [h.expression.1]; rfl)

/-- A rule built from a text can be read from a line if the text holds no blank space. -/
theorem isLegible_iff_of_isOf (h : r.IsOf text) : r.IsLegible ↔ ∀ c ∈ text, isBlank c = false := by
  have htext : r.expression.toText = text := by
    rw [h.expression.1, PathExpression.toText_ofText]
  constructor
  · intro hr
    rw [← htext]
    exact hr.not_blank
  · intro hblank
    refine ⟨?_, ?_, ?_, h.expression.2⟩
    · rw [htext]
      exact h.ne_nil
    · rw [htext]
      exact hblank
    · rw [htext, h.expression.1]

/-- A rule is read from its own line if and only if it is legible. -/
theorem parse_toText_iff : parse r.toText = .ok r ↔ r.IsLegible :=
  ⟨isLegible_of_parse, parse_toText⟩

/-- **The line of a rule is canonical.** A rule that was read from a line is read again from the
line it is written on, which is then written once more. A rule built from a text is read again from
its line if and only if the text holds no blank space. -/
theorem canonical_toText :
    (∀ line r, parse line = .ok r →
      parse r.toText = .ok r ∧ (parse r.toText).map toText = .ok r.toText) ∧
    ∀ text r, IsOf r text → (parse r.toText = .ok r ↔ ∀ c ∈ text, isBlank c = false) := by
  refine ⟨fun line r h => ?_, fun text r h => ?_⟩
  · have hparse : parse r.toText = .ok r := parse_toText (isLegible_of_parse h)
    refine ⟨hparse, ?_⟩
    rw [hparse]
    rfl
  · rw [parse_toText_iff, isLegible_iff_of_isOf h]

/-- The core may look like markers, as in `!!/a//`; a space keeps `/! b` from its line. -/
theorem canonical_toText_markers :
    let marked : Rule :=
      ⟨.exclude, .ordinary, .ofText "!!/a//".toList, by decide, by decide +kernel⟩
    let spaced : Rule := ⟨.exclude, .protect, .ofText "/! b".toList, by decide, by decide +kernel⟩
    parse " exclude\t!!/a// ".toList = .ok marked ∧ marked.toText = "- !!/a//".toList ∧
      parse "- !!/a//".toList = .ok marked ∧
      spaced.IsOf "/! b".toList ∧ parse "P /! b".toList ≠ .ok spaced := by
  intro marked spaced
  have hmarked : parse " exclude\t!!/a// ".toList = .ok marked := by decide +kernel
  have hprotecting : protecting "/! b".toList = .ok spaced := by decide +kernel
  have hspaced : spaced.IsOf "/! b".toList := .inr (.inr (.inl hprotecting))
  refine ⟨hmarked, by decide, (canonical_toText.1 _ _ hmarked).1, hspaced, fun hparse => ?_⟩
  have hblank := (canonical_toText.2 _ _ hspaced).mp hparse ' ' (by decide)
  exact absurd hblank (by decide)

end PathFilter.Rule
