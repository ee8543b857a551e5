import PathFilter.Proofs.Glob.Slashes
import PathFilter.Proofs.Rule.Listed

/-!
# The slashes of a match

Only two stars should cross a slash. A glob of single stars would then match what lies as deep as
the glob itself, and no deeper. It does so unless a class takes a slash that nobody wrote in it: a
negated class does, and so does one with a range that spans the slash. With each such class there is
a match with one more slash.

## Main definitions

* `Rule.IsSingleStarred`: an anchored glob with single stars and no slash in its classes
* `Rule.depth`: the slashes of the text of a rule
* `Rule.KeepsDepth`: a rule whose matches have the slashes of its text

## Main results

* `CharClass.accepts_slash_eq_false`: the classes that take no slash
* `Rule.keepsDepth_iff`: the rules whose matches have the slashes of their text
-/

namespace PathFilter

/-! ## The classes of a text -/

namespace Glob

/-- A class that is closed is the first one, and further classes begin behind it. -/
theorem hasClass_bracket_iff {g contents : Text} {n : Nat} (hn : CharClass.closing? g = some n) :
    HasClass ('[' :: g) contents ↔ contents = g.take n ∨ HasClass (g.drop (n + 1)) contents := by
  constructor
  · intro h
    cases h with
    | here hm =>
      rw [hn] at hm
      cases hm
      exact .inl rfl
    | later hm h =>
      rw [hn] at hm
      cases hm
      exact .inr h
    | bracket hg _ =>
      rw [hn] at hg
      cases hg
    | plain hc _ => exact absurd (by simp) hc
  · rintro (rfl | h)
    · exact .here hn
    · exact .later hn h

/-- The one class of a text in which no other bracket stands. -/
theorem hasClass_append_iff {front g contents : Text} {n : Nat} (hescape : '\\' ∉ front)
    (hfront : '[' ∉ front) (hn : CharClass.closing? g = some n) (hback : '[' ∉ g.drop (n + 1)) :
    HasClass (front ++ '[' :: g) contents ↔ contents = g.take n := by
  induction front with
  | nil =>
    rw [List.nil_append, hasClass_bracket_iff hn, or_iff_left]
    intro hlater
    exact hback hlater.bracket_mem
  | cons c front ih =>
    simp only [List.mem_cons, not_or] at hescape hfront
    obtain ⟨hslash, hescape⟩ := hescape
    obtain ⟨hbracket, hfront⟩ := hfront
    rw [List.cons_append, hasClass_cons_iff (by simp [Ne.symm hslash, Ne.symm hbracket])]
    exact ih hescape hfront

end Glob

/-! ## The slashes of a class -/

namespace ClassMember

variable {text : Text} {c : Char}

theorem single_mem_parse (h : single c ∈ parse text) : c ∈ text := by
  fun_induction parse text with
  | case1 => cases h
  | case2 rest ih => simp_all
  | case3 d rest hd ih =>
    rcases (by simpa using h : c = d ∨ single c ∈ parse rest) with rfl | hrest
    · simp
    · simp [ih hrest]
  | case4 low high rest hl hh ih => simp_all
  | case5 d rest h1 h2 h3 ih =>
    rcases (by simpa using h : c = d ∨ single c ∈ parse rest) with rfl | hrest
    · simp
    · simp [ih hrest]

/-- A character that is a member of its own is listed. -/
theorem single_mem_parseBody (h : single c ∈ parseBody text) : c ∈ text := by
  fun_induction parseBody text with
  | case1 rest ih =>
    rcases (by simpa using h : c = '-' ∨ single c ∈ parseBody rest) with rfl | hrest
    · simp
    · simp [ih hrest]
  | case2 text h' => exact single_mem_parse h

end ClassMember

namespace CharClass

/-- **A class takes a slash that it does not list** only if it is negated or a range spans it. -/
theorem accepts_slash_eq_false {contents : Text} (hlisted : '/' ∉ contents)
    (hmarked : ¬ IsMarked contents)
    (hranges : ∀ low high, .range low high ∈ (ofContents contents).members →
      (ClassMember.range low high).accepts '/' = false) :
    (ofContents contents).accepts '/' = false := by
  have hlists : lists (ofContents contents).members '/' = false := by
    rw [lists, List.any_eq_false]
    intro m hm
    cases m with
    | single c =>
      rw [ofContents_of_not_isMarked hmarked] at hm
      have hne : '/' ≠ c := by
        rintro rfl
        exact hlisted (ClassMember.single_mem_parseBody hm)
      simpa [ClassMember.accepts] using hne
    | range low high => simpa using hranges low high hm
    | without => simp [ClassMember.accepts]
  rw [lists_front_or_behind, Bool.or_eq_false_iff] at hlists
  rw [ofContents_of_not_isMarked hmarked] at hlists ⊢
  rw [accepts_eq, hlists.1]
  rfl

end CharClass

/-! ## The slashes of a match -/

namespace PathExpression

variable {e : PathExpression}

/-- The classes of the tokens are those of the expression without its markers. -/
theorem oneOf_mem_glob_iff {cls : CharClass} :
    .oneOf cls ∈ e.glob ↔
      ∃ contents, Glob.HasClass e.core contents ∧ cls = .ofContents contents := by
  simp only [glob, Glob.mem_parse_iff, hasClass_path_iff]

/-- The markers of an expression make up no run of stars. -/
theorem globstar_not_mem_glob (h : ¬ ['*', '*'] <:+: e.core) : .globstar ∉ e.glob := by
  have hcons : ∀ {c : Char} {t : Text}, c ≠ '*' → ['*', '*'] <:+: c :: t → ['*', '*'] <:+: t := by
    intro c t hc hinfix
    refine (List.infix_cons_iff.mp hinfix).resolve_left fun hprefix => hc ?_
    exact (List.cons_prefix_cons.mp hprefix).1.symm
  have hconcat : ∀ {c : Char} {t : Text}, c ≠ '*' → ['*', '*'] <:+: t ++ [c] →
      ['*', '*'] <:+: t := by
    intro c t hc hinfix
    refine (List.infix_concat_iff.mp hinfix).resolve_left fun hsuffix => hc ?_
    simpa using (hsuffix.getLast (by simp)).symm
  intro hmem
  have hpath := Glob.isInfix_of_globstar_mem hmem
  rw [path, List.append_assoc] at hpath
  have hback : ['*', '*'] <:+: e.core ++ (if e.directoryOnly then ['/'] else []) := by
    cases ha : e.anchored with
    | true =>
      rw [ha] at hpath
      exact hcons (c := '/') (by decide) (hcons (c := '.') (by decide) hpath)
    | false =>
      rw [ha] at hpath
      exact hpath
  cases hd : e.directoryOnly with
  | true =>
    rw [hd] at hback
    exact h (hconcat (by decide) hback)
  | false =>
    rw [hd] at hback
    exact h (by simpa using hback)

end PathExpression

namespace Rule

open CharClass (ofContents IsMarked)

/-- **Whether a rule is an anchored glob of single stars** that is not negated and whose classes
list no slash. -/
structure IsSingleStarred (r : Rule) : Prop where
  anchored : r.expression.anchored = true
  negated : r.expression.negated = false
  isGlob : r.expression.isGlob = true
  /-- No two stars stand next to each other. -/
  stars : ¬ ['*', '*'] <:+: r.expression.core
  /-- No slash stands within the brackets of a class. -/
  classes : ∀ contents, Glob.HasClass r.expression.core contents → '/' ∉ contents

/-- The slashes of `./` and of the expression of a rule, and the one at the end of a directory. -/
def depth (r : Rule) : Nat :=
  ('.' :: '/' :: r.expression.core).count '/' + if r.expression.directoryOnly then 1 else 0

/-- **Whether a rule matches subjects of its own depth only.** -/
def KeepsDepth (r : Rule) : Prop :=
  ∀ candidate isDirectory, r.matches? candidate isDirectory = some true →
    (r.expression.subject candidate).count '/' = r.depth

namespace IsSingleStarred

variable {r : Rule} (h : r.IsSingleStarred)

include h

theorem slashes_glob : r.expression.glob.slashes = r.depth := by
  have hclasses : ∀ contents, Glob.HasClass r.expression.path contents → '/' ∉ contents :=
    fun contents hc => h.classes contents (r.expression.hasClass_path_iff.mp hc)
  rw [PathExpression.glob, Glob.slashes_parse hclasses, PathExpression.path, h.anchored, if_pos rfl,
    List.count_append, depth]
  cases r.expression.directoryOnly <;> rfl

/-- What such a rule matches, its glob spells. -/
theorem matches?_iff {candidate : Text} {isDirectory : Bool} :
    r.matches? candidate isDirectory = some true ↔ r.expression.appliesTo isDirectory = true ∧
      Glob.Spells r.expression.glob (r.expression.subject candidate) := by
  have hcovers : r.expression.covers (r.expression.subject candidate) = true ↔
      Glob.Spells r.expression.glob (r.expression.subject candidate) := by
    rw [PathExpression.covers, if_pos h.isGlob, Glob.accepts_iff, Glob.Covers, if_pos h.anchored]
  rw [Rule.matches?, PathExpression.matches?, h.negated, ← hcovers]
  split
  · next happlies => simp [happlies]
  · next happlies => simp [happlies]

/-- Every text that the glob of such a rule spells is the subject of a match. -/
theorem exists_matches {t : Text} (ht : Glob.Spells r.expression.glob t) :
    ∃ candidate, r.matches? candidate true = some true ∧ r.expression.subject candidate = t := by
  have hsubject : ∃ candidate, r.expression.subject candidate = t := by
    by_cases hd : r.expression.directoryOnly = true
    · have hlast : t.getLast? = some '/' := by
        refine Glob.getLast?_of_spells (Glob.getLast?_parse ?_) ht
        rw [PathExpression.path, if_pos hd, List.getLast?_concat]
      have hends : t.endsWith '/' = true := by simp [Text.endsWith, hlast]
      exact ⟨t, by rw [PathExpression.subject, if_pos hd, if_pos hends]⟩
    · -- a slash that is put at the end is taken away again, as the text begins with a dot
      have hne : t ≠ [] := by
        rintro rfl
        rw [PathExpression.glob, PathExpression.path, if_pos h.anchored, List.append_assoc,
          List.cons_append, Glob.parse_plain (by decide)] at ht
        obtain ⟨_, _, hnil, rfl, -⟩ := Glob.spells_cons_iff.mp ht
        simp at hnil
      refine ⟨t ++ ['/'], ?_⟩
      simp [PathExpression.subject, hd, Text.endsWith, hne]
  obtain ⟨candidate, hcandidate⟩ := hsubject
  refine ⟨candidate, h.matches?_iff.mpr ⟨rfl, ?_⟩, hcandidate⟩
  rw [hcandidate]
  exact ht

/-- A match has the slashes of the rule, and at most one more for each class that takes one. -/
theorem count_of_matches {candidate : Text} {isDirectory : Bool}
    (hmatch : r.matches? candidate isDirectory = some true) :
    r.depth ≤ (r.expression.subject candidate).count '/' ∧
      (r.expression.subject candidate).count '/' ≤ r.depth + r.expression.glob.spare := by
  rw [← h.slashes_glob]
  exact Glob.count_of_spells (PathExpression.globstar_not_mem_glob h.stars)
    (h.matches?_iff.mp hmatch).2

/-- Where no class takes a slash, the depth is kept. -/
theorem keepsDepth_of_accepts (hclasses : ∀ contents, Glob.HasClass r.expression.core contents →
    (ofContents contents).accepts '/' = false) : r.KeepsDepth := by
  intro candidate isDirectory hmatch
  have hspare : r.expression.glob.spare = 0 := by
    refine Glob.spare_eq_zero_iff.mpr fun cls hcls => ?_
    obtain ⟨contents, hc, rfl⟩ := PathExpression.oneOf_mem_glob_iff.mp hcls
    exact hclasses contents hc
  obtain ⟨hleast, hmost⟩ := h.count_of_matches hmatch
  rw [hspare] at hmost
  exact Nat.le_antisymm hmost hleast

/-- Where the depth is kept and each class has a character, no class takes a slash: a text with all
spare slashes is matched, so there are none. -/
theorem accepts_of_keepsDepth (hkeeps : r.KeepsDepth)
    (hclasses : ∀ contents, Glob.HasClass r.expression.core contents →
      ∃ x, (ofContents contents).accepts x = true)
    {contents : Text} (hc : Glob.HasClass r.expression.core contents) :
    (ofContents contents).accepts '/' = false := by
  obtain ⟨t, ht, hcount⟩ := Glob.exists_spells (g := r.expression.glob) fun cls hcls => by
    obtain ⟨contents, hc, rfl⟩ := PathExpression.oneOf_mem_glob_iff.mp hcls
    exact hclasses contents hc
  obtain ⟨candidate, hmatch, rfl⟩ := h.exists_matches ht
  have hspare : r.expression.glob.spare = 0 := by
    have hdepth := hkeeps candidate true hmatch
    rw [hcount, h.slashes_glob] at hdepth
    omega
  have hmem := PathExpression.oneOf_mem_glob_iff.mpr ⟨contents, hc, rfl⟩
  exact Glob.spare_eq_zero_iff.mp hspare _ hmem

end IsSingleStarred

/-- **The depth of what a rule of single stars matches.** It is that of the rule, and at most one
more for each class that takes a slash. The rule keeps its depth exactly if no class takes a slash,
or a class has no character at all and nothing is matched. A class takes no slash if it is not
negated and no range of it spans the slash. -/
theorem keepsDepth_iff {r : Rule} (h : r.IsSingleStarred) :
    (∀ candidate isDirectory, r.matches? candidate isDirectory = some true →
      r.depth ≤ (r.expression.subject candidate).count '/' ∧
        (r.expression.subject candidate).count '/' ≤ r.depth + r.expression.glob.spare) ∧
    (r.KeepsDepth ↔
      (∀ contents, Glob.HasClass r.expression.core contents →
        (ofContents contents).accepts '/' = false) ∨
      ∃ contents, Glob.HasClass r.expression.core contents ∧
        ∀ x, (ofContents contents).accepts x = false) ∧
    ((∀ contents, Glob.HasClass r.expression.core contents → ¬ IsMarked contents ∧
      ∀ low high, .range low high ∈ (ofContents contents).members →
        (ClassMember.range low high).accepts '/' = false) → r.KeepsDepth) := by
  refine ⟨fun candidate isDirectory hmatch => h.count_of_matches hmatch, ⟨fun hkeeps => ?_, ?_⟩,
    fun hplain => h.keepsDepth_of_accepts fun contents hc => ?_⟩
  · by_cases hempty : ∃ contents, Glob.HasClass r.expression.core contents ∧
        ∀ x, (ofContents contents).accepts x = false
    · exact .inr hempty
    · push Not at hempty
      exact .inl fun contents => h.accepts_of_keepsDepth hkeeps (by simpa using hempty)
  · rintro (hclasses | ⟨contents, hc, hempty⟩)
    · exact h.keepsDepth_of_accepts hclasses
    · intro candidate isDirectory hmatch
      have hcls := PathExpression.oneOf_mem_glob_iff.mpr ⟨contents, hc, rfl⟩
      exact absurd (h.matches?_iff.mp hmatch).2 (Glob.not_spells_of_mem hcls hempty _)
  · obtain ⟨hmarked, hranges⟩ := hplain contents hc
    exact CharClass.accepts_slash_eq_false (h.classes contents hc) hmarked hranges

/-- The rule for the source files of one directory leaves out those of the directories below. -/
theorem keepsDepth_iff_sources :
    ∃ r : Rule, r.expression = .ofText "/src/*.[ch]".toList ∧ r.IsSingleStarred ∧ r.depth = 2 ∧
      r.matches? "./src/main.c".toList false = some true ∧ r.KeepsDepth := by
  let r : Rule := ⟨.exclude, .ordinary, .ofText "/src/*.[ch]".toList, by decide, by decide +kernel⟩
  have hclass : ∀ contents, Glob.HasClass ("src/*.".toList ++ '[' :: "ch]".toList) contents ↔
      contents = "ch]".toList.take 2 := fun contents =>
    Glob.hasClass_append_iff (by decide) (by decide) (by decide) (by decide)
  have hr : r.IsSingleStarred := by
    refine ⟨rfl, rfl, by decide, fun hstars => ?_, fun contents hc => ?_⟩
    · exact absurd (hstars.sublist.count_le '*') (by decide)
    · obtain rfl := (hclass contents).mp hc
      decide
  refine ⟨r, rfl, hr, by decide, by decide +kernel, (keepsDepth_iff hr).2.2 fun contents hc => ?_⟩
  obtain rfl := (hclass contents).mp hc
  refine ⟨by decide, fun low high hrange => ?_⟩
  have hmembers : (ofContents ("ch]".toList.take 2)).members = [.single 'c', .single 'h'] := by
    decide
  rw [hmembers] at hrange
  simp at hrange

/-- Not every rule of single stars keeps its depth: a negated class takes a slash. -/
theorem not_forall_keepsDepth : ¬ ∀ r : Rule, r.IsSingleStarred → r.KeepsDepth := by
  intro h
  let r : Rule := ⟨.exclude, .ordinary, .ofText "/a[!x]b".toList, by decide, by decide +kernel⟩
  have hr : r.IsSingleStarred := by
    refine ⟨rfl, rfl, by decide, fun hstars => ?_, fun contents hc => ?_⟩
    · exact absurd (hstars.sublist.count_le '*') (by decide)
    · have hclass : Glob.HasClass (['a'] ++ '[' :: "!x]b".toList) contents ↔
          contents = "!x]b".toList.take 2 :=
        Glob.hasClass_append_iff (by decide) (by decide) (by decide) (by decide)
      obtain rfl := hclass.mp hc
      decide
  have hdepth := h r hr "./a/b".toList false (by decide +kernel)
  exact absurd hdepth (by decide)

end Rule

end PathFilter
