import PathFilter.Glob.Language
import PathFilter.Proofs.Glob.ClassNotation
import PathFilter.Rule.Expression
import Mathlib.Order.Nat

/-!
# Globs read from left to right

The texts that a glob stands for can be told from its text alone, character by character: a
backslash frees the next character from its meaning, a run of stars crosses slashes, and a bracket
begins a class if it is closed further on. The glob that is matched is a list of tokens made from
the same text, and it stands for the same texts.

## Main definitions

* `CharClass.closing? text`: the place of the bracket that closes a class
* `Glob.Denotes text t`: whether `t` is one of the texts that a glob stands for
* `PathExpression.Describes`: whether an expression describes a subject

## Main results

* `CharClass.read?_eq`: a class is read up to the bracket that closes it
* `Glob.denotes_iff`: the tokens of a glob stand for the texts that its text tells
* `PathExpression.covers_iff_describes`: an expression with wildcards covers what its glob describes
-/

namespace PathFilter

namespace CharClass

/-! ## The bracket that closes a class -/

/-- The place of the bracket behind the members that a text begins with. A `]` at the front is a
member. -/
def membersEnd? (text : Text) : Option Nat :=
  let first := if text.head? = some ']' then 1 else 0
  ((text.drop first).idxOf? ']').map (first + ·)

/-- **The place of the bracket that closes a class**, in the text after the one that opens it. The
mark of a negated class is no member. -/
def closing? (text : Text) : Option Nat :=
  if IsMarked text then (membersEnd? text.tail).map (1 + ·) else membersEnd? text

theorem close?_eq (text : Text) :
    close? text = (text.idxOf? ']').map fun n => (text.take n, text.drop (n + 1)) := by
  fun_induction close? text with
  | case1 => rfl
  | case2 rest => simp [List.idxOf?_cons]
  | case3 c rest hc ih =>
    have hne : (c == ']') = false := by simpa using hc
    rw [ih, List.idxOf?_cons, hne]
    cases rest.idxOf? ']' <;> rfl

theorem body?_eq (text : Text) :
    body? text = (membersEnd? text).map fun n =>
      (ClassMember.parseBody (text.take n), text.drop (n + 1)) := by
  unfold body?
  split
  · next rest =>
    rw [close?_eq, membersEnd?, List.head?_cons, if_pos rfl]
    simp only [Option.map_map, List.drop_succ_cons, List.drop_zero]
    congr 1
    funext n
    simp [Nat.add_comm 1]
  · next hfirst =>
    have hhead : text.head? ≠ some ']' := by
      intro h
      obtain ⟨rest, rfl⟩ := List.head?_eq_some_iff.mp h
      exact hfirst rest rfl
    rw [close?_eq, membersEnd?, if_neg hhead]
    simp [Option.map_map, Function.comp_def]

theorem isMarked_of_isMarked_take {text : Text} {n : Nat} (h : IsMarked (text.take n)) :
    IsMarked text := by
  have htake : ∀ c, (text.take n).head? = some c → text.head? = some c := by
    intro c hc
    rw [List.head?_take] at hc
    split at hc
    · cases hc
    · exact hc
  exact h.imp (htake '!') (htake '^')

theorem read?_cons {c : Char} (hc : c = '!' ∨ c = '^') (rest : Text) :
    read? (c :: rest) = (body? rest).map fun (ms, after) => (⟨true, ms⟩, after) := by
  rcases hc with rfl | rfl <;> rfl

theorem read?_of_not_isMarked {text : Text} (h : ¬ IsMarked text) :
    read? text = (body? text).map fun (ms, after) => (⟨false, ms⟩, after) := by
  unfold read?
  split
  · exact absurd (.inl rfl) h
  · exact absurd (.inr rfl) h
  · rfl

/-- **A class is read up to the bracket that closes it.** -/
theorem read?_eq (text : Text) :
    read? text = (closing? text).map fun n => (ofContents (text.take n), text.drop (n + 1)) := by
  by_cases hmarked : IsMarked text
  · obtain ⟨c, rest, rfl, hc⟩ := hmarked.exists_cons
    rw [read?_cons hc, closing?, if_pos hmarked, List.tail_cons, body?_eq, Option.map_map,
      Option.map_map]
    congr 1
    funext n
    simp [Nat.add_comm 1, ofContents_cons hc]
  · rw [read?_of_not_isMarked hmarked, closing?, if_neg hmarked, body?_eq, Option.map_map]
    congr 1
    funext n
    rw [ofContents_of_not_isMarked fun h => hmarked (isMarked_of_isMarked_take h)]
    rfl

end CharClass

/-! ## The texts of a glob -/

namespace Glob

/-- **The texts that a glob stands for**, told from its text read from left to right. -/
inductive Denotes : Text → Text → Prop where
  /-- Nothing stands for nothing. -/
  | nil : Denotes [] []
  /-- A character that a backslash stands before is itself. -/
  | escaped {c : Char} {g t : Text} (h : Denotes g t) : Denotes ('\\' :: c :: g) (c :: t)
  /-- A backslash with nothing behind it is itself. -/
  | backslash : Denotes ['\\'] ['\\']
  /-- Two stars or more are any text without line feeds. -/
  | stars {n : Nat} {u g t : Text} (hn : 2 ≤ n) (hg : g.head? ≠ some '*') (hu : '\n' ∉ u)
      (h : Denotes g t) : Denotes (List.replicate n '*' ++ g) (u ++ t)
  /-- One star is any text without slashes. -/
  | star {u g t : Text} (hg : g.head? ≠ some '*') (hu : '/' ∉ u) (h : Denotes g t) :
      Denotes ('*' :: g) (u ++ t)
  /-- A question mark is any character but a slash. -/
  | anyOne {c : Char} {g t : Text} (hc : c ≠ '/') (h : Denotes g t) : Denotes ('?' :: g) (c :: t)
  /-- A bracket that is closed begins a class and is one of its characters. The contents of the
  class mean what they mean in a regular expression. -/
  | oneOf {n : Nat} {x : Char} {g t : Text} {e : ClassExpression}
      (hn : CharClass.closing? g = some n)
      (he : ClassExpression.read? (CharClass.written (g.take n)) = some e)
      (hx : e.accepts x = true) (h : Denotes (g.drop (n + 1)) t) : Denotes ('[' :: g) (x :: t)
  /-- A bracket that is not closed is itself. -/
  | bracket {g t : Text} (hg : CharClass.closing? g = none) (h : Denotes g t) :
      Denotes ('[' :: g) ('[' :: t)
  /-- Any other character is itself. -/
  | literal {c : Char} {g t : Text} (hc : c ∉ ['\\', '*', '?', '[']) (h : Denotes g t) :
      Denotes (c :: g) (c :: t)

/-! ### The tokens of a text -/

theorem parse_escaped (c : Char) (g : Text) : parse ('\\' :: c :: g) = .literal c :: parse g := by
  rw [parse]

theorem parse_backslash : parse ['\\'] = [.literal '\\'] := by rw [parse]

theorem parse_anyOne (g : Text) : parse ('?' :: g) = .anyOne :: parse g := by rw [parse]

theorem parse_plain {c : Char} (hc : c ∉ ['\\', '*', '?', '[']) (g : Text) :
    parse (c :: g) = .literal c :: parse g := by
  simp only [List.mem_cons, List.not_mem_nil, or_false, not_or] at hc
  obtain ⟨hslash, hstar, hone, hbracket⟩ := hc
  rw [parse]
  · exact hone
  · exact hstar
  · exact hbracket
  · exact fun h => absurd h hslash
  · exact fun _ _ h => absurd h hslash

theorem parse_oneOf {g : Text} {n : Nat} (hn : CharClass.closing? g = some n) :
    parse ('[' :: g) = .oneOf (CharClass.ofContents (g.take n)) :: parse (g.drop (n + 1)) := by
  have hr := CharClass.read?_eq g
  rw [hn, Option.map_some] at hr
  rw [parse]
  split
  · next cls after h =>
    rw [hr] at h
    cases h
    rfl
  · next h =>
    rw [hr] at h
    cases h

theorem parse_bracket {g : Text} (hg : CharClass.closing? g = none) :
    parse ('[' :: g) = .literal '[' :: parse g := by
  have hr := CharClass.read?_eq g
  rw [hg, Option.map_none] at hr
  rw [parse]
  split
  · next h =>
    rw [hr] at h
    cases h
  · rfl

/-- Whether a glob begins with a star of either kind. -/
def BeginsWithStar (g : Glob) : Prop := ∃ rest, g = .star :: rest ∨ g = .globstar :: rest

theorem consStar_of_not_beginsWithStar {g : Glob} (h : ¬ BeginsWithStar g) :
    consStar g = .star :: g := by
  unfold consStar
  split
  · next rest => exact absurd ⟨rest, .inl rfl⟩ h
  · next rest => exact absurd ⟨rest, .inr rfl⟩ h
  · rfl

theorem not_beginsWithStar_nil : ¬ BeginsWithStar [] := by
  rintro ⟨rest, h | h⟩ <;> cases h

theorem not_beginsWithStar_cons {token : GlobToken} (h : token.repeats = false) (g : Glob) :
    ¬ BeginsWithStar (token :: g) := by
  rintro ⟨rest, hr | hr⟩ <;> cases hr <;> simp [GlobToken.repeats] at h

/-- The tokens begin with a star only if the text does. -/
theorem not_beginsWithStar_parse {g : Text} (h : g.head? ≠ some '*') :
    ¬ BeginsWithStar (parse g) := by
  fun_cases parse g with
  | case1 => exact not_beginsWithStar_nil
  | case3 rest => exact absurd rfl h
  | _ => exact not_beginsWithStar_cons rfl _

theorem parse_star {g : Text} (hg : g.head? ≠ some '*') : parse ('*' :: g) = .star :: parse g := by
  rw [parse, consStar_of_not_beginsWithStar (not_beginsWithStar_parse hg)]

/-- A run of stars is one token. -/
theorem parse_stars {n : Nat} (hn : 2 ≤ n) {g : Text} (hg : g.head? ≠ some '*') :
    parse (List.replicate n '*' ++ g) = .globstar :: parse g := by
  induction n, hn using Nat.le_induction with
  | base =>
    show parse ('*' :: '*' :: g) = _
    rw [parse, parse_star hg]
    rfl
  | succ n hn ih =>
    rw [List.replicate_succ, List.cons_append, parse, ih]
    rfl

/-- A text that begins with a star begins with a run of them. -/
theorem exists_replicate (g : Text) :
    ∃ n rest, g = List.replicate n '*' ++ rest ∧ rest.head? ≠ some '*' := by
  induction g with
  | nil => exact ⟨0, [], rfl, by simp⟩
  | cons c g ih =>
    by_cases hc : c = '*'
    · subst hc
      obtain ⟨n, rest, rfl, hrest⟩ := ih
      exact ⟨n + 1, rest, rfl, hrest⟩
    · exact ⟨0, c :: g, rfl, by simpa using hc⟩

/-- What a text denotes its tokens spell. -/
theorem Denotes.spells {g t : Text} (h : Denotes g t) : Spells (parse g) t := by
  induction h with
  | nil =>
    rw [parse_nil]
    exact .nil
  | escaped _ ih =>
    rw [parse_escaped]
    exact .cons (t := [_]) rfl ih
  | backslash =>
    rw [parse_backslash]
    exact .cons (t := [_]) rfl .nil
  | stars hn hg hu _ ih =>
    rw [parse_stars hn hg]
    exact .cons hu ih
  | star hg hu _ ih =>
    rw [parse_star hg]
    exact .cons hu ih
  | anyOne hc _ ih =>
    rw [parse_anyOne]
    exact .cons (t := [_]) ⟨_, hc, rfl⟩ ih
  | @oneOf n x g t e hn he hx _ ih =>
    rw [parse_oneOf hn]
    -- the contents can be read in one way only, so the characters are those of the class
    obtain ⟨e', he', hall⟩ := ClassExpression.read?_written (g.take n)
    obtain rfl : e' = e := Option.some.inj (he'.symm.trans he)
    exact .cons (t := [x]) ⟨x, (hall x).symm.trans hx, rfl⟩ ih
  | bracket hg _ ih =>
    rw [parse_bracket hg]
    exact .cons (t := [_]) rfl ih
  | literal hc _ ih =>
    rw [parse_plain hc]
    exact .cons (t := [_]) rfl ih

/-- What the tokens of a text spell it denotes. -/
theorem denotes_of_spells {g t : Text} (h : Spells (parse g) t) : Denotes g t := by
  -- a class and a run of stars use up more than one character, so the length is what decreases
  induction hl : g.length using Nat.strong_induction_on generalizing g t with
  | _ _ ih =>
    subst hl
    have hshorter : ∀ {g' t' : Text}, g'.length < g.length → Spells (parse g') t' →
        Denotes g' t' := fun hlt hs => ih _ hlt hs rfl
    cases g with
    | nil =>
      rw [parse_nil, spells_nil_iff] at h
      subst h
      exact .nil
    | cons c g =>
      by_cases hplain : c ∉ ['\\', '*', '?', '[']
      · rw [parse_plain hplain] at h
        obtain ⟨_, v, rfl, rfl, hv⟩ := spells_cons_iff.mp h
        exact .literal hplain (hshorter (by simp) hv)
      simp only [List.mem_cons, List.not_mem_nil, or_false, Decidable.not_not] at hplain
      rcases hplain with rfl | rfl | rfl | rfl
      · cases g with
        | nil =>
          rw [parse_backslash] at h
          obtain ⟨_, v, rfl, rfl, hv⟩ := spells_cons_iff.mp h
          obtain rfl := spells_nil_iff.mp hv
          exact .backslash
        | cons d g =>
          rw [parse_escaped] at h
          obtain ⟨_, v, rfl, rfl, hv⟩ := spells_cons_iff.mp h
          exact .escaped (hshorter (by simp only [List.length_cons]; omega) hv)
      · obtain ⟨n, rest, rfl, hrest⟩ := exists_replicate g
        cases n with
        | zero =>
          rw [List.replicate_zero, List.nil_append] at h hshorter ⊢
          rw [parse_star hrest] at h
          obtain ⟨u, v, rfl, hu, hv⟩ := spells_cons_iff.mp h
          exact .star hrest hu (hshorter (by simp) hv)
        | succ n =>
          rw [← List.cons_append, ← List.replicate_succ] at h hshorter ⊢
          rw [parse_stars (by omega) hrest] at h
          obtain ⟨u, v, rfl, hu, hv⟩ := spells_cons_iff.mp h
          exact .stars (by omega) hrest hu (hshorter (by simp) hv)
      · rw [parse_anyOne] at h
        obtain ⟨_, v, rfl, ⟨d, hd, rfl⟩, hv⟩ := spells_cons_iff.mp h
        exact .anyOne hd (hshorter (by simp) hv)
      · cases hn : CharClass.closing? g with
        | none =>
          rw [parse_bracket hn] at h
          obtain ⟨_, v, rfl, rfl, hv⟩ := spells_cons_iff.mp h
          exact .bracket hn (hshorter (by simp) hv)
        | some n =>
          rw [parse_oneOf hn] at h
          obtain ⟨_, v, rfl, ⟨x, hx, rfl⟩, hv⟩ := spells_cons_iff.mp h
          obtain ⟨e, he, hall⟩ := ClassExpression.read?_written (g.take n)
          refine .oneOf hn he ((hall x).trans hx) (hshorter ?_ hv)
          simp only [List.length_drop, List.length_cons]
          omega

/-- **The tokens of a glob stand for the texts that its text tells.** -/
theorem denotes_iff {g t : Text} : Denotes g t ↔ Spells (parse g) t :=
  ⟨Denotes.spells, denotes_of_spells⟩

end Glob

/-! ## What an expression describes -/

namespace PathExpression

/-- The text of the glob of an expression: what its markers leave, with the slash of an expression
for directories. -/
def globText (e : PathExpression) : Text := e.core ++ if e.directoryOnly then ['/'] else []

/-- **Whether the glob of an expression describes a subject.** An expression tied to the root
describes `./` and a text of its glob; any other may leave out names of the first line before
such a text. -/
def Describes (e : PathExpression) (subject : Text) : Prop :=
  if e.anchored then ∃ t, subject = '.' :: '/' :: t ∧ Glob.Denotes e.globText t
  else ∃ before t, subject = before ++ t ∧ Glob.MayPrecede before ∧ Glob.Denotes e.globText t

/-- A marker in front of a text and what is left without it. -/
theorem cut_head (c : Char) (t u : Text) :
    (if t.head? == some c then [c] else []) ++
      ((if t.head? == some c then t.tail else t) ++ u) = t ++ u := by
  by_cases h : t.head? = some c
  · obtain ⟨rest, rfl⟩ := List.head?_eq_some_iff.mp h
    simp
  · have hne : (t.head? == some c) = false := by simpa using h
    simp [hne]

/-- A marker at the end of a text and what is left without it. -/
theorem cut_last (c : Char) (t : Text) :
    (if t.endsWith c then t.dropLast else t) ++ (if t.endsWith c then [c] else []) = t := by
  by_cases h : t.endsWith c = true
  · have hlast : t.getLast? = some c := by simpa [Text.endsWith] using h
    obtain ⟨s, rfl⟩ := List.getLast?_eq_some_iff.mp hlast
    rw [if_pos h, if_pos h, List.dropLast_concat]
  · simp [h]

/-- **An expression is written as it was read.** -/
theorem toText_ofText (text : Text) : (ofText text).toText = text := by
  unfold toText ofText
  simp only [List.append_assoc]
  rw [cut_head '/', cut_head '!', cut_last '/']

theorem isGlob_append (s t : Text) : Glob.isGlob (s ++ t) = (Glob.isGlob s || Glob.isGlob t) :=
  List.any_append

/-- No marker is a wildcard. -/
theorem isGlob_toText (e : PathExpression) : Glob.isGlob e.toText = e.isGlob := by
  obtain ⟨negated, anchored, directoryOnly, core⟩ := e
  simp only [toText, isGlob, path, isGlob_append]
  cases negated <;> cases anchored <;> cases directoryOnly <;> simp [Glob.isGlob]

/-- **An expression with wildcards covers what its glob describes.** -/
theorem covers_iff_describes {e : PathExpression} (h : e.isGlob = true) (subject : Text) :
    e.covers subject = true ↔ e.Describes subject := by
  rw [covers, if_pos h, Glob.accepts_iff]
  unfold Glob.Covers Describes glob
  by_cases ha : e.anchored = true
  · rw [if_pos ha, if_pos ha]
    have hpath : e.path = '.' :: '/' :: e.globText := by simp [path, globText, ha]
    rw [hpath, Glob.parse_plain (by decide), Glob.parse_plain (by decide)]
    constructor
    · intro hs
      obtain ⟨_, u, rfl, rfl, hu⟩ := Glob.spells_cons_iff.mp hs
      obtain ⟨_, t, rfl, rfl, ht⟩ := Glob.spells_cons_iff.mp hu
      exact ⟨t, rfl, Glob.denotes_iff.mpr ht⟩
    · rintro ⟨t, rfl, ht⟩
      exact .cons (t := ['.']) rfl (.cons (t := ['/']) rfl (Glob.denotes_iff.mp ht))
  · rw [if_neg ha, if_neg ha]
    have hpath : e.path = e.globText := by simp [path, globText, ha]
    simp only [hpath, Glob.denotes_iff]

end PathExpression

end PathFilter
