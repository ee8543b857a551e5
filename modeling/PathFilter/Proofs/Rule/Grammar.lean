import PathFilter.Proofs.Glob.Expression
import PathFilter.Proofs.Rule.Line

/-!
# The grammar of a rule line

A rule is read from a line exactly if the line belongs to a small grammar: two fields, the first of
which asks for a rule, and an expression that is more than its markers and has no range that
descends. Nothing else is ever refused. Brackets that are not closed, backslashes at the end and
characters that mean something in regular expressions all make up globs that can be compiled.

## Main definitions

* `PathExpression.bare text`: an expression without its markers
* `Rule.IsLine line`: the lines of the grammar

## Main results

* `Glob.hasClass_concat_iff`: the slash of an expression for directories begins and ends no class
* `PathExpression.fault?_eq_none_iff`: an expression is refused only for a range that descends
* `Rule.exists_parse_iff_isLine`: a rule is read from the lines of the grammar and from no others
-/

namespace PathFilter

/-! ## Markers and classes -/

namespace CharClass

variable {c : Char}

theorem idxOf?_concat (hc : c ≠ ']') (text : Text) :
    (text ++ [c]).idxOf? ']' = text.idxOf? ']' := by
  simp [List.idxOf?, List.findIdx?_append, hc]

theorem membersEnd?_concat (hc : c ≠ ']') (text : Text) :
    membersEnd? (text ++ [c]) = membersEnd? text := by
  cases text with
  | nil => simp [membersEnd?, List.idxOf?_cons, hc]
  | cons d text =>
    by_cases hd : d = ']'
    · simp [membersEnd?, hd, idxOf?_concat hc]
    · have hrest := idxOf?_concat hc (d :: text)
      simp [membersEnd?, hd, ← hrest]

theorem isMarked_concat_iff (hc : c ∉ ['!', '^']) (text : Text) :
    IsMarked (text ++ [c]) ↔ IsMarked text := by
  cases text with
  | nil =>
    simp only [List.mem_cons, List.not_mem_nil, or_false, not_or] at hc
    simp [IsMarked, hc]
  | cons d text => rfl

/-- A character that is neither a mark nor a bracket closes no class. -/
theorem closing?_concat (hc : c ∉ [']', '!', '^']) (text : Text) :
    closing? (text ++ [c]) = closing? text := by
  obtain ⟨hbracket, hmark⟩ : c ≠ ']' ∧ c ∉ ['!', '^'] := by simpa using hc
  by_cases hmarked : IsMarked text
  · obtain ⟨d, rest, rfl, -⟩ := hmarked.exists_cons
    rw [closing?, closing?, if_pos hmarked, if_pos ((isMarked_concat_iff hmark _).mpr hmarked)]
    exact congrArg _ (membersEnd?_concat hbracket rest)
  · rw [closing?, closing?, if_neg hmarked, if_neg fun h =>
      hmarked ((isMarked_concat_iff hmark _).mp h)]
    exact membersEnd?_concat hbracket text

theorem lt_length_of_closing? {g : Text} {n : Nat} (h : closing? g = some n) : n < g.length := by
  unfold closing? at h
  split at h
  · next hmarked =>
    obtain ⟨c, rest, rfl, -⟩ := hmarked.exists_cons
    obtain ⟨m, hm, rfl⟩ := Option.map_eq_some_iff.mp h
    have := (pos_of_membersEnd? hm).2
    simp only [List.length_cons, List.tail_cons] at this ⊢
    omega
  · exact (pos_of_membersEnd? h).2

end CharClass

namespace Glob

variable {c : Char} {g contents : Text}

theorem hasClass_cons_iff (hc : c ∉ ['\\', '[']) :
    HasClass (c :: g) contents ↔ HasClass g contents := by
  refine ⟨fun h => ?_, .plain hc⟩
  cases h with
  | here _ => exact absurd (by simp) hc
  | later _ _ => exact absurd (by simp) hc
  | bracket _ _ => exact absurd (by simp) hc
  | escaped _ => exact absurd (by simp) hc
  | plain _ h => exact h

theorem not_hasClass_nil : ¬ HasClass [] contents := fun h => absurd h.bracket_mem (by simp)

/-- **A character that means nothing at the end of a glob leaves its classes as they are.** -/
theorem hasClass_concat_iff (hc : c ∉ ['\\', '[', ']', '!', '^']) :
    HasClass (g ++ [c]) contents ↔ HasClass g contents := by
  have hplain : c ∉ ['\\', '['] := fun h => hc (by simp_all)
  have hclosing : ∀ text : Text, CharClass.closing? (text ++ [c]) = CharClass.closing? text :=
    CharClass.closing?_concat fun h => hc (by simp_all)
  constructor
  · intro h
    generalize htext : g ++ [c] = text at h
    induction h generalizing g with
    | @here n rest hn =>
      obtain ⟨rfl, hlast⟩ | ⟨g', rfl, rfl⟩ := List.append_eq_cons_iff.mp htext
      · exact absurd (by simp_all) hplain
      · rw [hclosing] at hn
        rw [List.take_append_of_le_length (CharClass.lt_length_of_closing? hn).le]
        exact .here hn
    | @later n rest _ hn _ ih =>
      obtain ⟨rfl, hlast⟩ | ⟨g', rfl, rfl⟩ := List.append_eq_cons_iff.mp htext
      · exact absurd (by simp_all) hplain
      · rw [hclosing] at hn
        have hlength := CharClass.lt_length_of_closing? hn
        exact .later hn (ih (List.drop_append_of_le_length hlength).symm)
    | bracket hn _ ih =>
      obtain ⟨rfl, hlast⟩ | ⟨g', rfl, rfl⟩ := List.append_eq_cons_iff.mp htext
      · exact absurd (by simp_all) hplain
      · rw [hclosing] at hn
        exact .bracket hn (ih rfl)
    | escaped h ih =>
      obtain ⟨rfl, hlast⟩ | ⟨g', rfl, hrest⟩ := List.append_eq_cons_iff.mp htext
      · exact absurd (by simp_all) hplain
      · obtain ⟨rfl, hlast⟩ | ⟨g', rfl, rfl⟩ := List.append_eq_cons_iff.mp hrest.symm
        · -- the backslash at the end takes the new character with it
          obtain ⟨-, rfl⟩ := by simpa using hlast
          exact absurd h not_hasClass_nil
        · exact .escaped (ih rfl)
    | plain hd h ih =>
      obtain ⟨rfl, hlast⟩ | ⟨g', rfl, rfl⟩ := List.append_eq_cons_iff.mp htext
      · obtain ⟨-, rfl⟩ := by simpa using hlast
        exact absurd h not_hasClass_nil
      · exact .plain hd (ih rfl)
  · intro h
    induction h with
    | @here n g hn =>
      have htake : (g ++ [c]).take n = g.take n :=
        List.take_append_of_le_length (CharClass.lt_length_of_closing? hn).le
      rw [← htake]
      exact .here ((hclosing g).trans hn)
    | @later n g _ hn _ ih =>
      have hdrop : (g ++ [c]).drop (n + 1) = g.drop (n + 1) ++ [c] :=
        List.drop_append_of_le_length (CharClass.lt_length_of_closing? hn)
      exact .later ((hclosing g).trans hn) (hdrop ▸ ih)
    | bracket hn _ ih => exact .bracket ((hclosing _).trans hn) ih
    | escaped _ ih => exact .escaped ih
    | plain hd _ ih => exact .plain hd ih

theorem hasBackwardRange_congr {g' : Text}
    (h : ∀ contents, HasClass g contents ↔ HasClass g' contents) :
    HasBackwardRange g ↔ HasBackwardRange g' := by
  simp only [HasBackwardRange, h]

end Glob

namespace PathExpression

/-- The markers of an expression are in none of its classes. -/
theorem hasClass_path_iff (e : PathExpression) {contents : Text} :
    Glob.HasClass e.path contents ↔ Glob.HasClass e.core contents := by
  have hfront : ∀ t, Glob.HasClass ((if e.anchored then ['.', '/'] else []) ++ t) contents ↔
      Glob.HasClass t contents := by
    intro t
    cases e.anchored with
    | true => exact (Glob.hasClass_cons_iff (by decide)).trans (Glob.hasClass_cons_iff (by decide))
    | false => rfl
  rw [path, List.append_assoc, hfront]
  cases e.directoryOnly with
  | true => exact Glob.hasClass_concat_iff (by decide)
  | false => simp

theorem hasBackwardRange_path (e : PathExpression) :
    Glob.HasBackwardRange e.path ↔ Glob.HasBackwardRange e.core :=
  Glob.hasBackwardRange_congr fun _ => e.hasClass_path_iff

/-- **An expression is refused only for a range that descends.** -/
theorem fault?_eq_none_iff (e : PathExpression) :
    e.fault? = none ↔ ¬ Glob.HasBackwardRange e.core := by
  rw [← hasBackwardRange_path, fault?]
  split
  · rw [Glob.fault?_eq_none_iff, glob, Glob.isSound_iff]
  · next hglob =>
    refine iff_of_true rfl ?_
    rintro ⟨contents, -, -, -, hclass, -⟩
    refine hglob (List.any_eq_true.mpr ⟨_, hclass.bracket_mem, rfl⟩)

/-- An expression without a bracket is never refused. -/
theorem fault?_of_not_mem {e : PathExpression} (h : '[' ∉ e.core) : e.fault? = none := by
  rw [fault?_eq_none_iff]
  rintro ⟨contents, -, -, -, hclass, -⟩
  exact h hclass.bracket_mem

/-! ## Expressions without their markers -/

/-- A text without a character in front. -/
def cutFront (c : Char) (text : Text) : Text := if text.head? = some c then text.tail else text

/-- A text without a character at its end. -/
def cutBack (c : Char) (text : Text) : Text :=
  if text.getLast? = some c then text.dropLast else text

/-- **An expression without its markers**: one slash at the end goes first, then one `!` in front,
then one slash in front. -/
def bare (text : Text) : Text := cutFront '/' (cutFront '!' (cutBack '/' text))

theorem cutFront_eq (c : Char) (text : Text) :
    (if text.head? == some c then text.tail else text) = cutFront c text := by
  simp [cutFront]

theorem cutBack_eq (c : Char) (text : Text) :
    (if text.endsWith c then text.dropLast else text) = cutBack c text := by
  simp [cutBack, Text.endsWith]

theorem core_ofText (text : Text) : (ofText text).core = bare text := by
  simp only [ofText, cutFront_eq, cutBack_eq]
  rfl

end PathExpression

/-! ## The grammar -/

namespace Rule

/-- **The grammar of a rule line.** -/
def IsLine (line : Text) : Prop :=
  ∃ field expression marks, line.fields = [field, expression] ∧ Marks.parse field = .ok marks ∧
    ¬ marks.isMerge ∧ PathExpression.bare expression ≠ [] ∧
    ¬ Glob.HasBackwardRange (PathExpression.bare expression)

theorem exists_build_iff {p : Polarity} {k : RuleClass} {text line : Text} :
    (∃ r, build p k text line = .ok r) ↔
      PathExpression.bare text ≠ [] ∧ ¬ Glob.HasBackwardRange (PathExpression.bare text) := by
  rw [← PathExpression.core_ofText, ← PathExpression.fault?_eq_none_iff]
  constructor
  · rintro ⟨r, hr⟩
    obtain ⟨-, -, he⟩ := expression_build hr
    rw [← he]
    exact ⟨r.core_ne_nil, r.fault?_eq_none⟩
  · rintro ⟨hcore, hfault⟩
    exact ⟨⟨p, k, _, hcore, hfault⟩, ofExpression_eq_ok_iff.mpr ⟨rfl, rfl, rfl⟩⟩

/-- Marks ask for a rule unless they are those of a merge directive. -/
theorem exists_directive_iff (m : Marks) : (∃ p k, m.directive = .rule p k) ↔ ¬ m.isMerge := by
  unfold Marks.directive Marks.isMerge
  cases m.merge <;> cases m.dirMerge <;> cases m.protect <;> cases m.risk <;> simp

/-- **A rule is read from the lines of the grammar and from no others.** -/
theorem exists_parse_iff (line : Text) : (∃ r, parse line = .ok r) ↔ IsLine line := by
  constructor
  · rintro ⟨r, hr⟩
    obtain ⟨p, k, expression, hline, hbuild⟩ := parse_eq_ok_iff.mp hr
    obtain ⟨field, marks, hfields, hmarks, hdirective⟩ := readLine_eq_ok_iff.mp hline
    have hrule : ¬ marks.isMerge := (exists_directive_iff marks).mp ⟨p, k, hdirective⟩
    exact ⟨field, expression, marks, hfields, hmarks, hrule, exists_build_iff.mp ⟨r, hbuild⟩⟩
  · rintro ⟨field, expression, marks, hfields, hmarks, hrule, hexpression⟩
    obtain ⟨p, k, hdirective⟩ := (exists_directive_iff marks).mpr hrule
    obtain ⟨r, hbuild⟩ : ∃ r, build p k expression line = .ok r := exists_build_iff.mpr hexpression
    have hline := readLine_eq_ok_iff.mpr ⟨field, marks, hfields, hmarks, hdirective⟩
    exact ⟨r, parse_eq_ok_iff.mpr ⟨p, k, expression, hline, hbuild⟩⟩

/-- **The grammar of a rule line is exact.** A rule is read from the lines of the grammar and from
no others, and the last condition of the grammar is the only one under which a glob is not
compiled: its expression is a well-formed regular expression unless a range of it descends. -/
theorem exists_parse_iff_isLine :
    (∀ line, (∃ r, parse line = .ok r) ↔ IsLine line) ∧
      ∀ anchored g, ((Glob.parse g).fault? anchored = none ↔
          Expression.Compiles ((Glob.parse g).expression anchored)) ∧
        (Expression.Compiles ((Glob.parse g).expression anchored) ↔ ¬ Glob.HasBackwardRange g) := by
  refine ⟨exists_parse_iff, fun anchored g => ⟨?_, ?_⟩⟩
  · rw [Glob.fault?_eq_none_iff, Glob.compiles_iff]
  · rw [Glob.compiles_iff, Glob.isSound_iff]

end Rule

end PathFilter
