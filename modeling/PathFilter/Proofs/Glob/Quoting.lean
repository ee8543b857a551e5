import PathFilter.Proofs.Glob.Matching
import PathFilter.Rule.Expression

/-!
# Literal paths as globs

A path without wildcards is compared as it is, and no glob is run for it. The comparison is still
one that a glob would make. With a backslash before each of its wildcards and backslashes a path is
a glob that stands for the path alone; run without a tie to the root it looks for the end of a
candidate, and run with one it finds the path itself, while the same glob with `/**` behind it finds
what lies below. Only a line feed tells the two apart, as no glob skips one.

## Main definitions

* `Glob.quoted s`: the glob that stands for the text `s` alone

## Main results

* `Glob.parse_quoted`: a quoted text is read as its characters
* `Glob.accepts_quoted`, `Glob.accepts_quoted_below`: the globs of a literal path
* `PathExpression.literal_iff_glob`: literal paths and their globs agree
-/

namespace PathFilter

namespace Glob

/-- The characters that mean something in a glob. -/
def globMarks : Text := ['\\', '*', '?', '[']

/-- **A text as a glob that stands for it alone**: a backslash is put before each mark. -/
def quoted (s : Text) : Text := s.flatMap (escaped globMarks)

/-- The glob of a quoted text with `/**` behind it: what lies below a path. -/
def quotedBelow (s : Text) : Text := quoted s ++ "/**".toList

/-- **A quoted text is read as its characters**, and so is what follows on it. -/
theorem parse_quoted_append (s rest : Text) :
    parse (quoted s ++ rest) = s.map .literal ++ parse rest := by
  induction s with
  | nil => rfl
  | cons c s ih =>
    rw [quoted, List.flatMap_cons, List.append_assoc, List.map_cons, List.cons_append, ← ih]
    by_cases hc : c ∈ globMarks
    · rw [escaped, if_pos hc]
      exact parse_escaped c _
    · rw [escaped, if_neg hc]
      exact parse_plain hc _

theorem parse_quoted (s : Text) : parse (quoted s) = s.map .literal := by
  have h := parse_quoted_append s []
  rwa [List.append_nil, parse_nil, List.append_nil] at h

theorem parse_quotedBelow (s : Text) :
    parse (quotedBelow s) = s.map .literal ++ [.literal '/', .globstar] := by
  have hstars : parse "**".toList = [.globstar] := by
    have h := parse_stars (le_refl 2) (g := []) (by simp)
    rwa [List.append_nil, parse_nil] at h
  rw [quotedBelow, parse_quoted_append]
  show s.map .literal ++ parse ('/' :: "**".toList) = _
  rw [parse_plain (by decide), hstars]

/-- Literal tokens stand for their characters. -/
theorem spells_literals_iff (s : Text) {g : Glob} {t : Text} :
    Spells (s.map .literal ++ g) t ↔ ∃ u, t = s ++ u ∧ Spells g u := by
  induction s generalizing t with
  | nil => simp
  | cons c s ih =>
    rw [List.map_cons, List.cons_append, spells_cons_iff]
    simp only [ih, GlobToken.Spells]
    constructor
    · rintro ⟨_, _, rfl, rfl, u, rfl, hu⟩
      exact ⟨u, rfl, hu⟩
    · rintro ⟨u, rfl, hu⟩
      exact ⟨[c], s ++ u, rfl, rfl, u, rfl, hu⟩

theorem spells_quoted_iff (s t : Text) : Spells (parse (quoted s)) t ↔ t = s := by
  have h := spells_literals_iff s (g := []) (t := t)
  rw [List.append_nil] at h
  rw [parse_quoted, h]
  simp [spells_nil_iff]

theorem spells_quotedBelow_iff (s t : Text) :
    Spells (parse (quotedBelow s)) t ↔ ∃ u, t = s ++ '/' :: u ∧ '\n' ∉ u := by
  rw [parse_quotedBelow, spells_literals_iff]
  constructor
  · rintro ⟨_, rfl, h⟩
    obtain ⟨_, _, rfl, rfl, hbelow⟩ := spells_cons_iff.mp h
    obtain ⟨u, _, rfl, hu, hnil⟩ := spells_cons_iff.mp hbelow
    obtain rfl := spells_nil_iff.mp hnil
    exact ⟨u, by simp, hu⟩
  · rintro ⟨u, rfl, hu⟩
    have hbelow : Spells [.globstar] (u ++ []) := .cons hu .nil
    rw [List.append_nil] at hbelow
    exact ⟨'/' :: u, rfl, .cons (t := ['/']) rfl hbelow⟩

theorem isSound_quoted (s : Text) : (parse (quoted s)).isSound = true := by
  simp [parse_quoted, isSound]

theorem isSound_quotedBelow (s : Text) : (parse (quotedBelow s)).isSound = true := by
  simp [parse_quotedBelow, isSound]

/-- **A glob that is not tied to the root finds a literal path at the end of a line.** -/
theorem accepts_quoted {candidate : Text} (hc : '\n' ∉ candidate) (s : Text) :
    (parse (quoted s)).accepts false candidate = PathExpression.trails s candidate := by
  rw [Bool.eq_iff_iff, accepts_iff]
  simp only [Covers, Bool.false_eq_true, if_false, spells_quoted_iff, PathExpression.trails,
    Bool.or_eq_true, beq_iff_eq, List.isSuffixOf_iff_suffix]
  constructor
  · rintro ⟨before, _, rfl, rfl | ⟨-, hlast⟩, rfl⟩
    · exact .inl rfl
    · obtain ⟨u, rfl⟩ := List.getLast?_eq_some_iff.mp hlast
      exact .inr ⟨u, by simp⟩
  · rintro (rfl | ⟨u, rfl⟩)
    · exact ⟨[], candidate, rfl, .inl rfl, rfl⟩
    · refine ⟨u ++ ['/'], s, by simp, .inr ⟨?_, by simp⟩, rfl⟩
      intro hu
      exact hc (by simp at hu; simp [hu])

/-- **A glob that is tied to the root finds a literal path, and with `/**` behind it what lies below
the path.** -/
theorem accepts_quoted_below {candidate : Text} (hc : '\n' ∉ candidate) (s : Text) :
    ((parse (quoted s)).accepts true candidate || (parse (quotedBelow s)).accepts true candidate) =
      PathExpression.leads s candidate := by
  rw [Bool.eq_iff_iff, Bool.or_eq_true, accepts_iff, accepts_iff]
  simp only [Covers, if_true, spells_quoted_iff, spells_quotedBelow_iff, PathExpression.leads,
    Bool.or_eq_true, beq_iff_eq, List.isPrefixOf_iff_prefix]
  refine or_congr_right ?_
  constructor
  · rintro ⟨u, rfl, -⟩
    exact ⟨u, by simp⟩
  · rintro ⟨u, rfl⟩
    exact ⟨u, by simp, fun hu => hc (by simp [hu])⟩

end Glob

namespace PathExpression

open Glob

/-- **Literal paths and their globs agree** on candidates of one line: when the globs are run, and
as the regular expressions that they are written as. -/
theorem literal_iff_glob {candidate : Text} (hc : '\n' ∉ candidate) (s : Text) :
    (trails s candidate = (parse (quoted s)).accepts false candidate ∧
        (trails s candidate = true ↔
          Expression.Matches ((parse (quoted s)).expression false) candidate)) ∧
      leads s candidate =
          ((parse (quoted s)).accepts true candidate ||
            (parse (quotedBelow s)).accepts true candidate) ∧
        (leads s candidate = true ↔
          Expression.Matches ((parse (quoted s)).expression true) candidate ∨
            Expression.Matches ((parse (quotedBelow s)).expression true) candidate) := by
  have htrails := accepts_quoted hc s
  have hleads := accepts_quoted_below hc s
  refine ⟨⟨htrails.symm, ?_⟩, hleads.symm, ?_⟩
  · rw [← htrails]
    exact accepts_iff_matches (isSound_quoted s) false candidate
  · rw [← hleads, Bool.or_eq_true]
    exact or_congr (accepts_iff_matches (isSound_quoted s) true candidate)
      (accepts_iff_matches (isSound_quotedBelow s) true candidate)

/-- A name with wildcards, a backslash and marks of regular expressions, below a directory. -/
theorem literal_iff_glob_marks :
    '\n' ∉ "./x/a+(b)*[c]\\?.d".toList ∧
      Expression.Matches ((parse (quoted "a+(b)*[c]\\?.d".toList)).expression false)
        "./x/a+(b)*[c]\\?.d".toList ∧
      Expression.Matches ((parse (quotedBelow "./x".toList)).expression true)
        "./x/a+(b)*[c]\\?.d".toList := by
  have hc : '\n' ∉ "./x/a+(b)*[c]\\?.d".toList := by decide
  refine ⟨hc, ?_, ?_⟩
  · exact (literal_iff_glob hc "a+(b)*[c]\\?.d".toList).1.2.mp (by decide)
  · have h := (literal_iff_glob hc "./x".toList).2.2.mp (by decide)
    refine h.resolve_left fun hself => ?_
    rw [matches_iff_covers (isSound_quoted _), Covers, if_pos rfl, spells_quoted_iff] at hself
    exact absurd hself (by decide)

end PathExpression

end PathFilter
