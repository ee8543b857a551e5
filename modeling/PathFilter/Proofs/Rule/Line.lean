import PathFilter.Proofs.Glob.Reading
import PathFilter.Proofs.Text.Decoding
import PathFilter.Proofs.Text.Trimming
import PathFilter.Rule.FirstMatch

/-!
# Rules and their lines

A rule that was read from a line is written on one that it can be read from again. Its expression
holds no blank space and is not empty, so the line has two fields, the sign of the rule and the
expression, and nothing around them that trimming would take away. A list of such rules is a text
whose lines are those of the rules: none of them is blank, a comment, or a line that clears.

## Main definitions

* `Rule.IsLegible`: the rules that can be read from a line

## Main results

* `Rule.parse_toText`: a legible rule is read from its line
* `Rule.isLegible_iff`: the legible rules are those that are read from some line
* `RuleList.ruleLines_toText`: the lines of a list of rules
-/

namespace PathFilter

/-! ## What is read from a line -/

/-- A class that stands for a polarity is only asked for together with it. -/
theorem Marks.polarity_of_directive {m : Marks} {p q : Polarity} {k : RuleClass}
    (h : m.directive = .rule p k) (hq : k.polarity? = some q) : p = q := by
  unfold directive at h
  split at h
  · cases h
  · split at h
    · cases h
    · split at h
      · cases h
        exact Option.some.inj hq
      · split at h
        · cases h
          exact Option.some.inj hq
        · cases h
          cases hq

/-- A line that can be read has two fields, the marks and the expression. -/
theorem readLine_eq_ok_iff {line expression : Text} {d : Directive} :
    readLine line = .ok (d, expression) ↔
      ∃ field m, line.fields = [field, expression] ∧ Marks.parse field = .ok m ∧
        m.directive = d := by
  constructor
  · intro h
    unfold readLine splitLine at h
    rcases hfields : line.fields with _ | ⟨field, _ | ⟨e, _ | ⟨e', es⟩⟩⟩ <;>
      simp only [hfields] at h
    · cases h
    · cases h
    · rcases hm : Marks.parse field with fault | m <;> simp only [hm] at h
      · cases h
      · cases h
        exact ⟨field, m, rfl, hm, rfl⟩
    · cases h
  · rintro ⟨field, m, hfields, hm, rfl⟩
    simp only [readLine, splitLine, hfields, hm]

namespace Rule

theorem parse_eq_ok_iff {line : Text} {r : Rule} : parse line = .ok r ↔
    ∃ p k expression, readLine line = .ok (.rule p k, expression) ∧
      build p k expression line = .ok r := by
  unfold parse
  constructor
  · intro h
    rcases hline : readLine line with e | ⟨p | options | options, expression⟩ <;>
      simp only [hline] at h
    · cases h
    · exact ⟨_, _, _, rfl, h⟩
    · cases h
    · cases h
  · rintro ⟨p, k, expression, hline, hbuild⟩
    simp only [hline, hbuild]

/-- **Whether a rule can be read from a line**: what is written for its expression is a field that
is read as the same expression, and its polarity is the one that its class stands for, if any. -/
structure IsLegible (r : Rule) : Prop where
  ne_nil : r.expression.toText ≠ []
  not_blank : ∀ c ∈ r.expression.toText, isBlank c = false
  ofText_toText : .ofText r.expression.toText = r.expression
  polarity : ∀ p, r.ruleClass.polarity? = some p → r.polarity = p

/-- **A rule read from a line is legible.** -/
theorem isLegible_of_parse {line : Text} {r : Rule} (h : parse line = .ok r) : r.IsLegible := by
  obtain ⟨p, k, expression, hline, hbuild⟩ := parse_eq_ok_iff.mp h
  obtain ⟨field, m, hfields, -, hm⟩ := readLine_eq_ok_iff.mp hline
  have hfield : expression ∈ line.fields := by simp [hfields]
  obtain ⟨rfl, rfl, he⟩ := expression_build hbuild
  have htext : r.expression.toText = expression := by rw [he, PathExpression.toText_ofText]
  refine ⟨?_, ?_, ?_, fun q hq => Marks.polarity_of_directive hm hq⟩
  · rw [htext]
    exact Text.fields_ne_nil hfield
  · rw [htext]
    exact Text.not_blank_of_mem_fields hfield
  · rw [htext, he]

/-! ## The line of a rule -/

variable {r : Rule}

/-- The marks of a sign ask for a rule of the polarity and the class it is the sign of. -/
theorem parse_sign (p : Polarity) (k : RuleClass) (h : ∀ q, k.polarity? = some q → p = q) :
    ∃ m, Marks.parse [sign p k] = .ok m ∧ m.directive = .rule p k := by
  cases k with
  | ordinary =>
    cases p
    · exact ⟨{ Marks.none with including := true }, by decide +kernel, rfl⟩
    · exact ⟨{ Marks.none with excluding := true }, by decide +kernel, rfl⟩
  | protect =>
    obtain rfl := h .exclude rfl
    exact ⟨{ Marks.none with protect := true }, by decide +kernel, rfl⟩
  | risk =>
    obtain rfl := h .include rfl
    exact ⟨{ Marks.none with risk := true }, by decide +kernel, rfl⟩

theorem isBlank_sign (p : Polarity) (k : RuleClass) : isBlank (sign p k) = false := by
  cases p <;> cases k <;> decide

theorem fields_toText (h : r.IsLegible) :
    r.toText.fields = [[sign r.polarity r.ruleClass], r.expression.toText] := by
  have hsign : Text.fields [sign r.polarity r.ruleClass] = [[sign r.polarity r.ruleClass]] :=
    Text.fields_of_not_blank (List.cons_ne_nil _ _) (by simp [isBlank_sign])
  rw [toText, ← List.singleton_append, Text.fields_append_cons (by decide), hsign,
    Text.fields_of_not_blank h.ne_nil h.not_blank]
  rfl

theorem readLine_toText (h : r.IsLegible) :
    readLine r.toText = .ok (.rule r.polarity r.ruleClass, r.expression.toText) := by
  obtain ⟨m, hm, hdirective⟩ := parse_sign r.polarity r.ruleClass h.polarity
  exact readLine_eq_ok_iff.mpr ⟨_, m, fields_toText h, hm, hdirective⟩

theorem build_toText (h : r.IsLegible) (line : Text) :
    build r.polarity r.ruleClass r.expression.toText line = .ok r := by
  refine ofExpression_eq_ok_iff.mpr ⟨rfl, rfl, ?_⟩
  rw [h.ofText_toText]

/-- **A legible rule is read from its line.** -/
theorem parse_toText (h : r.IsLegible) : parse r.toText = .ok r :=
  parse_eq_ok_iff.mpr ⟨_, _, _, readLine_toText h, build_toText h _⟩

/-- The legible rules are those that are read from some line. -/
theorem isLegible_iff : r.IsLegible ↔ ∃ line, parse line = .ok r :=
  ⟨fun h => ⟨r.toText, parse_toText h⟩, fun ⟨_, h⟩ => isLegible_of_parse h⟩

/-- There is nothing around the line of a rule that would be trimmed. -/
theorem trim_toText (h : r.IsLegible) : r.toText.trim = r.toText := by
  refine Text.trim_eq_self ?_ fun d hd => h.not_blank d ?_
  · rintro _ ⟨⟩
    exact isBlank_sign _ _
  · obtain ⟨c, t, ht⟩ := List.exists_cons_of_ne_nil h.ne_nil
    rw [toText, ht, List.getLast?_cons_cons, List.getLast?_cons_cons] at hd
    rw [ht]
    exact List.mem_of_getLast? hd

theorem newline_not_mem_toText (h : r.IsLegible) : ∀ c ∈ r.toText, (c == '\n') = false := by
  intro c hc
  rw [beq_eq_false_iff_ne]
  rintro rfl
  have hblank : isBlank '\n' = true := by decide
  rcases List.mem_cons.mp hc with hsign | hc
  · rw [hsign, isBlank_sign] at hblank
    cases hblank
  · rcases List.mem_cons.mp hc with hspace | hc
    · exact absurd hspace (by decide)
    · rw [h.not_blank _ hc] at hblank
      cases hblank

theorem head?_toText_ne (r : Rule) : r.toText.head? ≠ some '#' := by
  have hsign : sign r.polarity r.ruleClass ≠ '#' := by
    cases r.polarity <;> cases r.ruleClass <;> decide
  simpa [toText] using hsign

end Rule

/-! ## The lines of a list -/

namespace RuleList

/-- A list of rules is cut at the line feeds into the lines of its rules. -/
theorem pieces_toText {rules : RuleList} (h : ∀ r ∈ rules, r.IsLegible) :
    pieces (· == '\n') (toText rules) = rules.map Rule.toText ++ [[]] := by
  induction rules with
  | nil => rfl
  | cons r rules ih =>
    obtain ⟨hr, hrules⟩ := List.forall_mem_cons.mp h
    rw [toText_cons, pieces_append_cons (by simp), ih hrules,
      pieces_of_unmarked (Rule.newline_not_mem_toText hr)]
    rfl

/-- **The lines of a list of rules** are those of its rules, and all of them carry a rule. -/
theorem ruleLines_toText {rules : RuleList} (h : ∀ r ∈ rules, r.IsLegible) :
    (toText rules).ruleLines = rules.map Rule.toText := by
  have hlines : (toText rules).lines = rules.map Rule.toText := by
    simp [Text.lines, pieces_toText h]
  have htrim : (rules.map Rule.toText).map Text.trim = rules.map Rule.toText := by
    rw [List.map_map]
    exact List.map_congr_left fun r hr => Rule.trim_toText (h r hr)
  rw [Text.ruleLines, hlines, htrim]
  refine List.filter_eq_self.mpr fun line hline => ?_
  obtain ⟨r, -, rfl⟩ := List.mem_map.mp hline
  exact decide_eq_true ⟨List.cons_ne_nil _ _, r.head?_toText_ne⟩

end RuleList

end PathFilter
