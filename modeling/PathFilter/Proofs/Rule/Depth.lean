import PathFilter.Glob.Language
import PathFilter.Path
import PathFilter.Rule.Basic

/-!
# Rules below a directory

An expression that is not tied to the root means the same at every depth: what it matches, it should
also match with a directory put before it. A literal path always does, as it looks for the end of a
candidate. A glob skips whole names before its match, but only within the first line, so a directory
with a line feed in its path is one that it cannot skip.

## Main definitions

* `Rule.IsLocal`: an expression that is neither tied to the root nor negated
* `Rule.HoldsBelow`: a rule matches below a directory what it matches

## Main results

* `PathExpression.subject_below`: the directory before a candidate stays before its subject
* `PathExpression.covers_below`: what an expression covers it covers below a directory
* `Rule.holdsBelow_of_isLocal`: the same of a rule
* `Rule.forall_holdsBelow_iff`: the directories below which all such rules hold
-/

namespace PathFilter

theorem Path.below_append (directory s t : Text) :
    below directory (s ++ t) = below directory s ++ t := by
  simp [below]

theorem Text.endsWith_below {t : Text} (ht : t ≠ []) (directory : Text) (c : Char) :
    (Path.below directory t).endsWith c = t.endsWith c := by
  obtain ⟨t, d, rfl⟩ := (List.eq_nil_or_concat t).resolve_left ht
  rw [List.concat_eq_append, Path.below_append]
  simp [endsWith]

namespace Glob

/-- What a glob may leave out it may also leave out behind a directory of one line. -/
theorem MayPrecede.below {before : Text} (h : MayPrecede before) {directory : Text}
    (hd : '\n' ∉ directory) : MayPrecede (Path.below directory before) := by
  right
  rcases h with rfl | ⟨hn, hlast⟩
  · exact ⟨by simpa [Path.below] using hd, by simp [Path.below]⟩
  · refine ⟨by simp [Path.below, hd, hn], ?_⟩
    have hne : before ≠ [] := by
      rintro rfl
      simp at hlast
    have hends := Text.endsWith_below hne directory '/'
    simpa [Text.endsWith, hlast] using hends

/-- A glob that is not anchored covers below a directory of one line what it covers. -/
theorem Covers.below {g : Glob} {text : Text} (h : g.Covers false text) {directory : Text}
    (hd : '\n' ∉ directory) : g.Covers false (Path.below directory text) := by
  obtain ⟨before, t, rfl, hbefore, ht⟩ := h
  exact ⟨Path.below directory before, t, by simp [Path.below], hbefore.below hd, ht⟩

end Glob

namespace PathExpression

/-- The end of a candidate stays its end behind a directory. -/
theorem trails_below {path text : Text} (h : trails path text = true) (directory : Text) :
    trails path (Path.below directory text) = true := by
  simp only [trails, Bool.or_eq_true, beq_iff_eq, List.isSuffixOf_iff_suffix] at h ⊢
  right
  rcases h with rfl | h
  · exact List.suffix_append directory ('/' :: text)
  · exact (h.trans (List.suffix_cons '/' text)).trans (List.suffix_append directory _)

/-- **The directory before a candidate stays before its subject.** The slash that is given or taken
is the one at the end. -/
theorem subject_below (e : PathExpression) {candidate : Text} (hc : candidate ≠ [])
    (hs : candidate ≠ ['/']) (directory : Text) :
    e.subject (Path.below directory candidate) = Path.below directory (e.subject candidate) := by
  have hends := Text.endsWith_below hc directory '/'
  have hne : Path.below directory candidate ≠ ['/'] := by
    intro h
    have hlen := congrArg List.length h
    have hpos := List.length_pos_iff.mpr hc
    simp only [Path.below, List.length_append, List.length_cons, List.length_nil] at hlen
    omega
  have hdrop : (Path.below directory candidate).dropLast =
      Path.below directory candidate.dropLast := by
    obtain ⟨c, t, rfl⟩ := List.exists_cons_of_ne_nil hc
    simp [Path.below, List.dropLast_append_of_ne_nil]
  by_cases hd : e.directoryOnly = true <;> by_cases hslash : candidate.endsWith '/' = true
  · simp [subject, hd, hends, hslash]
  · simp [subject, hd, hends, hslash, Path.below_append]
  · simp [subject, hd, hends, hslash, hs, hne, hdrop]
  · simp [subject, hd, hends, hslash]

/-- **What an expression covers it covers below a directory**, if that is a literal path or the
directory is of one line. -/
theorem covers_below {e : PathExpression} (ha : e.anchored = false) {directory : Text}
    (hd : e.isGlob = true → '\n' ∉ directory) {subject : Text} (h : e.covers subject = true) :
    e.covers (Path.below directory subject) = true := by
  unfold covers at h ⊢
  by_cases hg : e.isGlob = true
  · rw [if_pos hg, ha, Glob.accepts_iff] at h ⊢
    exact h.below (hd hg)
  · simp only [hg, ha, Bool.false_eq_true, if_false] at h ⊢
    exact trails_below h directory

end PathExpression

namespace Rule

/-- Whether the expression of a rule is neither tied to the root nor negated. -/
def IsLocal (r : Rule) : Prop := r.expression.anchored = false ∧ r.expression.negated = false

/-- **Whether a rule matches below a directory what it matches**, the empty candidate and the root
aside. -/
def HoldsBelow (r : Rule) (directory : Text) : Prop :=
  ∀ (candidate : Text) (isDirectory : Bool), candidate ≠ [] → candidate ≠ ['/'] →
    r.matches? candidate isDirectory = some true →
      r.matches? (Path.below directory candidate) isDirectory = some true

/-- **A rule that is neither tied to the root nor negated holds below a directory**, if it has no
wildcard or the directory is of one line. -/
theorem holdsBelow_of_isLocal {r : Rule} (hr : r.IsLocal) {directory : Text}
    (hd : r.expression.isGlob = true → '\n' ∉ directory) : r.HoldsBelow directory := by
  obtain ⟨ha, hn⟩ := hr
  intro candidate isDirectory hc hs h
  unfold matches? PathExpression.matches? at h ⊢
  split at h
  · next happlies =>
    have hcovers : r.expression.covers (r.expression.subject candidate) = true := by
      simpa [hn] using h
    rw [if_pos happlies, r.expression.subject_below hc hs,
      PathExpression.covers_below ha hd hcovers, hn]
    rfl
  · cases h

/-- The rule that matches names of one character. -/
def ofOneCharacter : Rule :=
  ⟨.exclude, .ordinary, .ofText ['?'], by decide, by decide +kernel⟩

/-- A name of one character is not found below a directory of more lines: there is no slash in the
first line behind which it could begin. -/
theorem not_holdsBelow_ofOneCharacter {directory : Text} (hd : '\n' ∈ directory) :
    ¬ ofOneCharacter.HoldsBelow directory := by
  intro h
  have hmatch := h ['x'] false (by decide) (by decide) (by decide +kernel)
  have hsubject := ofOneCharacter.expression.subject_below (show ['x'] ≠ [] by decide)
    (by decide) directory
  have hcovers : ofOneCharacter.expression.covers (Path.below directory ['x']) = true := by
    have hx : ofOneCharacter.expression.subject ['x'] = ['x'] := by decide
    simpa [matches?, PathExpression.matches?, hsubject, hx, show
      ofOneCharacter.expression.appliesTo false = true from rfl, show
      ofOneCharacter.expression.negated = false from rfl] using hmatch
  have hglob : ofOneCharacter.expression.glob = [.anyOne] := by decide +kernel
  obtain ⟨before, t, hsplit, hbefore, ht⟩ :
      Glob.Covers [.anyOne] false (Path.below directory ['x']) :=
    hglob ▸ Glob.accepts_iff.mp hcovers
  obtain ⟨_, _, rfl, ⟨c, -, rfl⟩, hrest⟩ := Glob.spells_cons_iff.mp ht
  obtain rfl := Glob.spells_nil_iff.mp hrest
  have hleft : directory ++ ['/'] = before := by
    have hinit := congrArg List.dropLast hsplit
    simpa [Path.below, List.dropLast_append_of_ne_nil] using hinit
  subst hleft
  rcases hbefore with hnil | ⟨hn, -⟩
  · simp at hnil
  · exact hn (by simp [hd])

/-- **The directories below which the rules hold.** A rule without wildcards holds below every
directory. All rules hold exactly below the directories whose path has no line feed in it. -/
theorem forall_holdsBelow_iff (directory : Text) :
    (∀ r : Rule, r.IsLocal → r.expression.isGlob = false → r.HoldsBelow directory) ∧
      ((∀ r : Rule, r.IsLocal → r.HoldsBelow directory) ↔ '\n' ∉ directory) := by
  refine ⟨fun r hr hg => holdsBelow_of_isLocal hr fun h => ?_, fun h hd => ?_, fun hd r hr => ?_⟩
  · rw [hg] at h
    cases h
  · exact not_holdsBelow_ofOneCharacter hd (h ofOneCharacter ⟨rfl, rfl⟩)
  · exact holdsBelow_of_isLocal hr fun _ => hd

/-- Not every rule holds below every directory: the rule for text files leaves out a text file below
a directory with a line feed in its name. -/
theorem not_forall_holdsBelow :
    ¬ ∀ (r : Rule) (directory : Text), r.IsLocal → r.HoldsBelow directory := by
  intro h
  let r : Rule := ⟨.exclude, .ordinary, .ofText "*.txt".toList, by decide, by decide +kernel⟩
  have hmatch := h r "./line\nfeed".toList ⟨rfl, rfl⟩ "notes.txt".toList false (by decide)
    (by decide) (by decide +kernel)
  have hmiss : r.matches? (Path.below "./line\nfeed".toList "notes.txt".toList) false =
      some false := by decide +kernel
  rw [hmiss] at hmatch
  cases hmatch

end Rule

end PathFilter
