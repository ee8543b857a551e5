import PathFilter.Proofs.Glob.Expression
import PathFilter.Rule.Basic

/-!
# What the expression of a glob matches

A regular expression is matched where it stands in a text, as it may ask for the beginning or the
end of it. The signs of an expression make up a tree, in which a repetition has the item before it
and a group has its items, and the tree matches stretches of a text. The expression of a glob is
tied to both ends of the text, so it matches all of the text or nothing, and it matches the texts
that the glob accepts when it is run.

## Main definitions

* `ExpressionTree`: a regular expression as a tree
* `ExpressionTree.ofSigns?`: the tree that signs make up
* `ExpressionTree.Matches`: the stretches of a text that a tree matches
* `Expression.Matches`: whether an expression matches somewhere in a text
* `GlobToken.tree`, `Glob.tree`: the trees of a token and of a glob

## Main results

* `Glob.tree?_expression`: the expression of a glob is read as its tree
* `Glob.matches_iff_covers`: the expression of a glob matches what the glob covers
* `Glob.accepts_iff_matches`: so running the glob is matching its expression
* `Rule.matches_iff_describes`: a rule with wildcards matches what its glob describes, and what its
  expression matches
-/

namespace PathFilter

/-! ## The meaning of an expression -/

/-- **A regular expression as a tree.** -/
inductive ExpressionTree where
  /-- Nothing. -/
  | empty
  /-- The character itself. -/
  | char (c : Char)
  /-- Any character but a line feed. -/
  | any
  /-- One character of a class. -/
  | oneOf (e : ClassExpression)
  /-- The beginning of the text. -/
  | start
  /-- The end of the text. -/
  | stop
  /-- One item and another one behind it. -/
  | followed (first second : ExpressionTree)
  /-- Any number of an item. -/
  | many (item : ExpressionTree)
  /-- An item, or nothing. -/
  | perhaps (item : ExpressionTree)
deriving DecidableEq, Repr

namespace ExpressionTree

/-- Items in a row. -/
def inRow : List ExpressionTree → ExpressionTree
  | [] => empty
  | item :: items => followed item (inRow items)

theorem inRow_cons (item : ExpressionTree) (items : List ExpressionTree) :
    inRow (item :: items) = followed item (inRow items) := rfl

/-- **The tree that signs make up.** The items read so far in the innermost open group stand with
the last one first, and so do those of each group around it. -/
def ofSigns? (items : List ExpressionTree) (groups : List (List ExpressionTree)) :
    List ExpressionSign → Option ExpressionTree
  | [] => if groups = [] then some (inRow items.reverse) else none
  | .char c :: rest => ofSigns? (char c :: items) groups rest
  | .any :: rest => ofSigns? (any :: items) groups rest
  | .oneOf e :: rest => ofSigns? (oneOf e :: items) groups rest
  | .start :: rest => ofSigns? (start :: items) groups rest
  | .stop :: rest => ofSigns? (stop :: items) groups rest
  | .opening :: rest => ofSigns? [] (items :: groups) rest
  | .closing :: rest =>
    match groups with
    | [] => none
    | around :: groups => ofSigns? (inRow items.reverse :: around) groups rest
  | .many :: rest =>
    match items with
    | [] => none
    | item :: items => ofSigns? (many item :: items) groups rest
  | .perhaps :: rest =>
    match items with
    | [] => none
    | item :: items => ofSigns? (perhaps item :: items) groups rest

/-- **The stretches of a text that a tree matches**, given what stands before the stretch and what
stands after it. -/
inductive Matches : ExpressionTree → Text → Text → Text → Prop where
  | empty {before after : Text} : Matches empty before [] after
  | char {c : Char} {before after : Text} : Matches (char c) before [c] after
  | any {c : Char} {before after : Text} (hc : c ≠ '\n') : Matches any before [c] after
  | oneOf {e : ClassExpression} {c : Char} {before after : Text} (hc : e.accepts c = true) :
      Matches (oneOf e) before [c] after
  | start {after : Text} : Matches start [] [] after
  | stop {before : Text} : Matches stop before [] []
  | followed {r s : ExpressionTree} {before u v after : Text} (hr : Matches r before u (v ++ after))
      (hs : Matches s (before ++ u) v after) : Matches (followed r s) before (u ++ v) after
  | none {r : ExpressionTree} {before after : Text} : Matches (many r) before [] after
  | more {r : ExpressionTree} {before u v after : Text} (hr : Matches r before u (v ++ after))
      (hs : Matches (many r) (before ++ u) v after) : Matches (many r) before (u ++ v) after
  | absent {r : ExpressionTree} {before after : Text} : Matches (perhaps r) before [] after
  | present {r : ExpressionTree} {before t after : Text} (h : Matches r before t after) :
      Matches (perhaps r) before t after

section Matches

variable {r s : ExpressionTree} {before t after : Text} {c : Char}

theorem matches_empty_iff : Matches empty before t after ↔ t = [] := by
  constructor
  · rintro ⟨⟩
    rfl
  · rintro rfl
    exact .empty

theorem matches_char_iff : Matches (char c) before t after ↔ t = [c] := by
  constructor
  · rintro ⟨⟩
    rfl
  · rintro rfl
    exact .char

theorem matches_any_iff : Matches any before t after ↔ ∃ c, c ≠ '\n' ∧ t = [c] := by
  constructor
  · rintro ⟨⟩
    next c hc => exact ⟨c, hc, rfl⟩
  · rintro ⟨c, hc, rfl⟩
    exact .any hc

theorem matches_oneOf_iff {e : ClassExpression} :
    Matches (oneOf e) before t after ↔ ∃ c, e.accepts c = true ∧ t = [c] := by
  constructor
  · rintro ⟨⟩
    next c hc => exact ⟨c, hc, rfl⟩
  · rintro ⟨c, hc, rfl⟩
    exact .oneOf hc

theorem matches_start_iff : Matches start before t after ↔ before = [] ∧ t = [] := by
  constructor
  · rintro ⟨⟩
    exact ⟨rfl, rfl⟩
  · rintro ⟨rfl, rfl⟩
    exact .start

theorem matches_stop_iff : Matches stop before t after ↔ t = [] ∧ after = [] := by
  constructor
  · rintro ⟨⟩
    exact ⟨rfl, rfl⟩
  · rintro ⟨rfl, rfl⟩
    exact .stop

theorem matches_followed_iff :
    Matches (followed r s) before t after ↔
      ∃ u v, t = u ++ v ∧ Matches r before u (v ++ after) ∧ Matches s (before ++ u) v after := by
  constructor
  · rintro ⟨⟩
    next u v hr hs => exact ⟨u, v, rfl, hr, hs⟩
  · rintro ⟨u, v, rfl, hr, hs⟩
    exact .followed hr hs

theorem matches_perhaps_iff :
    Matches (perhaps r) before t after ↔ t = [] ∨ Matches r before t after := by
  constructor
  · intro h
    cases h with
    | absent => exact .inl rfl
    | present h => exact .inr h
  · rintro (rfl | h)
    · exact .absent
    · exact .present h

/-- **Any number of an item that is one character** is any text of such characters. -/
theorem matches_many_iff {p : Char → Prop}
    (hr : ∀ before t after, Matches r before t after ↔ ∃ c, p c ∧ t = [c]) :
    Matches (many r) before t after ↔ ∀ c ∈ t, p c := by
  constructor
  · intro h
    generalize htree : many r = tree at h
    induction h with
    | none => simp
    | more hfirst _ _ ih =>
      cases htree
      obtain ⟨c, hc, rfl⟩ := (hr _ _ _).mp hfirst
      simpa [hc] using ih rfl
    | _ => cases htree
  · intro h
    induction t generalizing before with
    | nil => exact .none
    | cons c t ih =>
      have hfirst : Matches r before [c] (t ++ after) := (hr _ _ _).mpr ⟨c, h c (by simp), rfl⟩
      exact .more hfirst (ih fun d hd => h d (by simp [hd]))

end Matches

end ExpressionTree

namespace Expression

/-- The tree of a regular expression. -/
def tree? (text : Text) : Option ExpressionTree :=
  (ExpressionSign.read? text).bind (ExpressionTree.ofSigns? [] [])

/-- **Whether a regular expression is well formed and matches somewhere in a text.** -/
def Matches (text subject : Text) : Prop :=
  Compiles text ∧ ∃ tree before t after, tree? text = some tree ∧
    subject = before ++ t ++ after ∧ tree.Matches before t after

end Expression

/-! ## The tree of a glob -/

open ExpressionTree

/-- The tree of a token. -/
def GlobToken.tree : GlobToken → ExpressionTree
  | literal c => .char c
  | anyOne => .oneOf ⟨true, [.char '/']⟩
  | star => .many (.oneOf ⟨true, [.char '/']⟩)
  | globstar => .many .any
  | oneOf cls => .oneOf ⟨cls.negated, cls.members.map ClassPart.ofMember⟩

namespace Glob

/-- The trees of what stands before the tokens of a glob. -/
def startTrees (anchored : Bool) : List ExpressionTree :=
  if anchored then [.start]
  else [.start, .perhaps (inRow [.many .any, .char '/'])]

/-- The tree of a glob. -/
def tree (anchored : Bool) (g : Glob) : ExpressionTree :=
  inRow (startTrees anchored ++ (g.map GlobToken.tree ++ [.stop]))

end Glob

namespace GlobToken

theorem ofSigns?_signs (token : GlobToken) (items : List ExpressionTree)
    (groups : List (List ExpressionTree)) (rest : List ExpressionSign) :
    ofSigns? items groups (token.signs ++ rest) = ofSigns? (token.tree :: items) groups rest := by
  cases token <;> rfl

/-- **The tree of a token matches the texts of the token**, wherever they stand. -/
theorem matches_tree_iff (token : GlobToken) {before t after : Text} :
    token.tree.Matches before t after ↔ token.Spells t := by
  have hname : ∀ before t after, Matches (.oneOf ⟨true, [.char '/']⟩) before t after ↔
      ∃ c, c ≠ '/' ∧ t = [c] := by
    intro before t after
    rw [matches_oneOf_iff]
    simp [ClassExpression.accepts, ClassPart.holds]
  cases token with
  | literal c => exact matches_char_iff
  | anyOne => exact hname _ _ _
  | star =>
    rw [tree, matches_many_iff hname, Spells]
    exact ⟨fun h hs => h '/' hs rfl, fun h c hc he => h (he ▸ hc)⟩
  | globstar =>
    rw [tree, matches_many_iff fun _ _ _ => matches_any_iff, Spells]
    exact ⟨fun h hs => h '\n' hs rfl, fun h c hc he => h (he ▸ hc)⟩
  | oneOf cls =>
    rw [tree, matches_oneOf_iff, Spells]
    simp only [ClassExpression.accepts_ofMember]

end GlobToken

namespace Glob

theorem ofSigns?_tokens (g : Glob) (items : List ExpressionTree) (rest : List ExpressionSign) :
    ofSigns? items [] (g.flatMap GlobToken.signs ++ rest) =
      ofSigns? ((g.map GlobToken.tree).reverse ++ items) [] rest := by
  induction g generalizing items with
  | nil => rfl
  | cons token g ih =>
    rw [List.flatMap_cons, List.append_assoc, GlobToken.ofSigns?_signs, ih]
    simp

theorem ofSigns?_signs (anchored : Bool) (g : Glob) :
    ofSigns? [] [] (g.signs anchored) = some (g.tree anchored) := by
  have hstart : ofSigns? [] [] (g.signs anchored) =
      ofSigns? (startTrees anchored).reverse [] (g.flatMap GlobToken.signs ++ [.stop]) := by
    cases anchored <;> rfl
  rw [hstart, ofSigns?_tokens]
  simp [ofSigns?, tree]

/-- **The expression of a glob is read as its tree.** -/
theorem tree?_expression (anchored : Bool) (g : Text) :
    Expression.tree? ((parse g).expression anchored) = some ((parse g).tree anchored) := by
  rw [Expression.tree?, read?_expression, Option.bind_some, ofSigns?_signs]

/-- The trees of the tokens match the texts of the glob that end the text. -/
theorem matches_tokens_iff (g : Glob) {before t after : Text} :
    (inRow (g.map GlobToken.tree ++ [.stop])).Matches before t after ↔
      Spells g t ∧ after = [] := by
  induction g generalizing before t with
  | nil =>
    rw [List.map_nil, List.nil_append, inRow_cons, matches_followed_iff, spells_nil_iff]
    simp only [matches_stop_iff, inRow, matches_empty_iff]
    constructor
    · rintro ⟨_, _, rfl, ⟨rfl, hafter⟩, rfl⟩
      exact ⟨rfl, hafter⟩
    · rintro ⟨rfl, rfl⟩
      exact ⟨[], [], rfl, ⟨rfl, rfl⟩, rfl⟩
  | cons token g ih =>
    rw [List.map_cons, List.cons_append, inRow_cons, matches_followed_iff, spells_cons_iff]
    simp only [GlobToken.matches_tree_iff, ih]
    constructor
    · rintro ⟨u, v, rfl, hu, hv, hafter⟩
      exact ⟨⟨u, v, rfl, hu, hv⟩, hafter⟩
    · rintro ⟨⟨u, v, rfl, hu, hv⟩, hafter⟩
      exact ⟨u, v, rfl, hu, hv, hafter⟩

/-- What a glob that is not tied to the root may leave out. -/
theorem matches_perhaps_names_iff {before t after : Text} :
    (ExpressionTree.perhaps (inRow [.many .any, .char '/'])).Matches before t after ↔
      MayPrecede t := by
  have hline : ∀ before u after, Matches (.many .any) before u after ↔ ∀ c ∈ u, c ≠ '\n' :=
    fun _ _ _ => matches_many_iff fun _ _ _ => matches_any_iff
  simp only [matches_perhaps_iff, inRow, matches_followed_iff, hline, matches_char_iff,
    matches_empty_iff, MayPrecede]
  refine or_congr_right ?_
  constructor
  · rintro ⟨u, _, rfl, hu, _, _, rfl, rfl, rfl⟩
    refine ⟨?_, by simp⟩
    simpa using fun h => hu '\n' h rfl
  · rintro ⟨hn, hlast⟩
    obtain ⟨u, rfl⟩ := List.getLast?_eq_some_iff.mp hlast
    refine ⟨u, ['/'], rfl, ?_, ['/'], [], rfl, rfl, rfl⟩
    rintro c hc rfl
    exact hn (by simp [hc])

/-- The tree of a glob matches what the glob covers, and only all of it. -/
theorem matches_tree_iff {anchored : Bool} {g : Glob} {before t after : Text} :
    (g.tree anchored).Matches before t after ↔
      before = [] ∧ g.Covers anchored t ∧ after = [] := by
  unfold tree startTrees Covers
  cases anchored with
  | true =>
    simp only [if_true, List.singleton_append, inRow_cons, matches_followed_iff, matches_start_iff,
      matches_tokens_iff]
    constructor
    · rintro ⟨_, v, rfl, ⟨rfl, rfl⟩, hv, hafter⟩
      exact ⟨rfl, hv, hafter⟩
    · rintro ⟨rfl, hv, hafter⟩
      exact ⟨[], t, rfl, ⟨rfl, rfl⟩, hv, hafter⟩
  | false =>
    simp only [Bool.false_eq_true, if_false, List.cons_append, List.nil_append, inRow_cons (.start),
      inRow_cons (.perhaps _), matches_followed_iff, matches_start_iff, matches_perhaps_names_iff,
      matches_tokens_iff]
    constructor
    · rintro ⟨_, _, rfl, ⟨rfl, rfl⟩, u, v, rfl, hu, hv, hafter⟩
      exact ⟨rfl, ⟨u, v, rfl, hu, hv⟩, hafter⟩
    · rintro ⟨rfl, ⟨u, v, rfl, hu, hv⟩, hafter⟩
      exact ⟨[], u ++ v, rfl, ⟨rfl, rfl⟩, u, v, rfl, hu, hv, hafter⟩

/-- **The expression of a glob matches what the glob covers**, provided that it is well formed. -/
theorem matches_iff_covers {g : Text} (hg : (parse g).isSound = true) (anchored : Bool)
    (subject : Text) :
    Expression.Matches ((parse g).expression anchored) subject ↔
      (parse g).Covers anchored subject := by
  constructor
  · rintro ⟨-, tree, before, t, after, htree, rfl, h⟩
    rw [tree?_expression] at htree
    cases htree
    obtain ⟨rfl, hcovers, rfl⟩ := matches_tree_iff.mp h
    simpa using hcovers
  · intro h
    refine ⟨(compiles_iff anchored g).mpr hg, _, [], subject, [], tree?_expression anchored g,
      by simp, ?_⟩
    exact matches_tree_iff.mpr ⟨rfl, h, rfl⟩

/-- **Running a glob is matching its expression**, provided that it is well formed. -/
theorem accepts_iff_matches {g : Text} (hg : (parse g).isSound = true) (anchored : Bool)
    (subject : Text) :
    (parse g).accepts anchored subject = true ↔
      Expression.Matches ((parse g).expression anchored) subject := by
  rw [accepts_iff, matches_iff_covers hg]

end Glob

/-! ## Rules with wildcards -/

/-- **An expression with wildcards covers what its regular expression matches**, provided that it
has no fault. -/
theorem PathExpression.covers_iff_matches {e : PathExpression} (hg : e.isGlob = true)
    (hfault : e.fault? = none) (subject : Text) :
    e.covers subject = true ↔ Expression.Matches (e.glob.expression e.anchored) subject := by
  rw [fault?, if_pos hg, Glob.fault?_eq_none_iff] at hfault
  rw [covers, if_pos hg]
  exact Glob.accepts_iff_matches hfault e.anchored subject

namespace Rule

/-- **A rule with wildcards matches what its glob describes**, which is what its regular expression
matches. It applies to everything but files if it is for directories, and then the answer is turned
round for a negated rule. -/
theorem matches_iff_describes {p : Polarity} {k : RuleClass} {text line : Text} {r : Rule}
    (hr : build p k text line = .ok r) (hg : Glob.isGlob text = true) (candidate : Text)
    (isDirectory : Bool) :
    let e := PathExpression.ofText text
    (r.matches? candidate isDirectory = none ↔ e.directoryOnly = true ∧ isDirectory = false) ∧
      (¬ (e.directoryOnly = true ∧ isDirectory = false) →
        ∃ m : Bool, r.matches? candidate isDirectory = some (m ^^ e.negated) ∧
          (m = true ↔ e.Describes (e.subject candidate)) ∧
          (m = true ↔
            Expression.Matches (e.glob.expression e.anchored) (e.subject candidate))) := by
  intro e
  obtain ⟨-, -, he⟩ := expression_build hr
  have hmatches : r.matches? candidate isDirectory = e.matches? candidate isDirectory := by
    rw [matches?, he]
  have hfault : e.fault? = none := by
    rw [show e = r.expression from he.symm]
    exact r.fault?_eq_none
  have hglob : e.isGlob = true := by
    rw [← PathExpression.isGlob_toText, PathExpression.toText_ofText, hg]
  rw [hmatches, PathExpression.matches?_eq_none_iff]
  refine ⟨Iff.rfl, fun happlies => ?_⟩
  refine ⟨e.covers (e.subject candidate), ?_, PathExpression.covers_iff_describes hglob _,
    PathExpression.covers_iff_matches hglob hfault _⟩
  have hsome : e.appliesTo isDirectory = true := by
    simpa [PathExpression.appliesTo, or_comm, imp_iff_not_or] using happlies
  rw [PathExpression.matches?, if_pos hsome]

/-- A negated rule for directories whose glob has an escaped wildcard, a run of stars and a class
that begins with a bracket. -/
theorem matches_iff_describes_escaped :
    ∃ r, build .exclude .ordinary "!/a**[!]x-z]\\?/".toList [] = .ok r ∧
      Glob.isGlob "!/a**[!]x-z]\\?/".toList = true ∧
      r.matches? "./a/q/w?".toList true = some false ∧
      (PathExpression.ofText "!/a**[!]x-z]\\?/".toList).Describes "./a/q/w?/".toList ∧
      Expression.Matches (r.expression.glob.expression true) "./a/q/w?/".toList := by
  let r : Rule := ⟨.exclude, .ordinary, .ofText "!/a**[!]x-z]\\?/".toList, by decide,
    by decide +kernel⟩
  have hr : build .exclude .ordinary "!/a**[!]x-z]\\?/".toList [] = .ok r :=
    ofExpression_eq_ok_iff.mpr ⟨rfl, rfl, rfl⟩
  have hg : Glob.isGlob "!/a**[!]x-z]\\?/".toList = true := by decide
  have hfalse : r.matches? "./a/q/w?".toList true = some false := by decide +kernel
  obtain ⟨m, hm, hd, hexpression⟩ :=
    (matches_iff_describes hr hg "./a/q/w?".toList true).2 (by decide)
  have hmatches : m = true := by
    rw [hfalse] at hm
    cases m with
    | true => rfl
    | false => exact absurd hm (by decide)
  exact ⟨r, hr, hg, hfalse, hd.mp hmatches, hexpression.mp hmatches⟩

end Rule

end PathFilter
