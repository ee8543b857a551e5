import PathFilter.Glob.Match

/-!
# The language of a glob

Each token of a glob stands for some texts, and a glob stands for the texts that its tokens make up
in order. An anchored glob matches a text it stands for; any other glob may leave out what stands
before a name of the first line.

## Main definitions

* `GlobToken.Spells`: the texts of a token
* `Glob.Spells`: the texts of a glob
* `Glob.Covers`: the texts that a glob matches
* `Glob.Marked`: the ends of a text that begin at a marked position

## Main results

* `GlobToken.marked_shift`, `GlobToken.marked_spread`: the two ways in which marks move
* `GlobToken.marked_advance`: a token moves the marks over its texts
* `Glob.accepts_iff`: the marks reach the end of a text exactly if the glob covers it
-/

namespace PathFilter

/-- **The texts of a token.** -/
def GlobToken.Spells : GlobToken → Text → Prop
  | literal c, t => t = [c]
  | anyOne, t => ∃ c, c ≠ '/' ∧ t = [c]
  | star, t => '/' ∉ t
  | globstar, t => '\n' ∉ t
  | oneOf cls, t => ∃ c, cls.accepts c = true ∧ t = [c]

namespace Glob

/-- **The texts of a glob**: a text for each token, one after the other. -/
inductive Spells : Glob → Text → Prop where
  | nil : Spells [] []
  | cons {token : GlobToken} {g : Glob} {t u : Text} (ht : token.Spells t) (hg : Spells g u) :
      Spells (token :: g) (t ++ u)

theorem spells_nil_iff {t : Text} : Spells [] t ↔ t = [] := by
  constructor
  · rintro ⟨⟩
    rfl
  · rintro rfl
    exact .nil

theorem spells_cons_iff {token : GlobToken} {g : Glob} {t : Text} :
    Spells (token :: g) t ↔ ∃ u v, t = u ++ v ∧ token.Spells u ∧ Spells g v := by
  constructor
  · rintro ⟨⟩
    next u v hu hv => exact ⟨u, v, rfl, hu, hv⟩
  · rintro ⟨u, v, rfl, hu, hv⟩
    exact .cons hu hv

/-- Whether a match may leave out a text before it: nothing, or names of the first line with a
slash behind them. -/
def MayPrecede (t : Text) : Prop := t = [] ∨ '\n' ∉ t ∧ t.getLast? = some '/'

/-- **The texts that a glob matches.** -/
def Covers (g : Glob) (anchored : Bool) (text : Text) : Prop :=
  if anchored then Spells g text
  else ∃ before t, text = before ++ t ∧ MayPrecede before ∧ Spells g t

/-- Whether an end of a text begins at a marked position. -/
def Marked : Text → List Bool → Text → Prop
  | _, [], _ => False
  | [], m :: _, e => m = true ∧ e = []
  | c :: text, m :: marks, e => m = true ∧ e = c :: text ∨ Marked text marks e

theorem marked_cons {c : Char} {text : Text} {m : Bool} {marks : List Bool} {e : Text} :
    Marked (c :: text) (m :: marks) e ↔ m = true ∧ e = c :: text ∨ Marked text marks e := Iff.rfl

/-- Where no mark is set, no end is marked. -/
theorem not_marked {text : Text} {marks : List Bool} (h : true ∉ marks) (e : Text) :
    ¬ Marked text marks e := by
  induction marks generalizing text with
  | nil => cases text <;> exact id
  | cons m marks ih =>
    simp only [List.mem_cons, not_or] at h
    obtain ⟨hm, hms⟩ := h
    cases text with
    | nil =>
      rintro ⟨rfl, -⟩
      exact hm rfl
    | cons c text =>
      rintro (⟨rfl, -⟩ | he)
      · exact hm rfl
      · exact ih hms he

/-- The end of a text is marked exactly if the last mark is set. -/
theorem marked_nil_iff {text : Text} {marks : List Bool} (h : marks.length = text.length + 1) :
    Marked text marks [] ↔ marks.getLast? = some true := by
  induction text generalizing marks with
  | nil =>
    obtain ⟨m, rfl⟩ := List.length_eq_one_iff.mp h
    simp [Marked]
  | cons c text ih =>
    cases marks with
    | nil => simp at h
    | cons m marks =>
      have hm : marks.length = text.length + 1 := by simpa using h
      have hne : marks ≠ [] := by
        rintro rfl
        simp at hm
      rw [marked_cons, ih hm, List.getLast?_cons_of_ne_nil hne]
      simp

end Glob

namespace GlobToken

open Glob (Marked)

theorem not_mem_iff_all {p : Char → Bool} {t : Text} {c : Char} (hp : ∀ x, p x = (x != c)) :
    c ∉ t ↔ ∀ x ∈ t, p x = true := by
  constructor
  · intro h x hx
    rw [hp, bne_iff_ne]
    rintro rfl
    exact h hx
  · intro h hc
    simpa [hp] using h c hc

/-- A token that repeats stands for any number of its characters. -/
theorem spells_iff_of_repeats {token : GlobToken} (h : token.repeats = true) {t : Text} :
    token.Spells t ↔ ∀ c ∈ t, token.accepts c = true := by
  cases token with
  | star => exact not_mem_iff_all fun _ => rfl
  | globstar => exact not_mem_iff_all fun _ => rfl
  | _ => simp [repeats] at h

/-- Any other token stands for one of its characters. -/
theorem spells_iff_of_not_repeats {token : GlobToken} (h : token.repeats = false) {t : Text} :
    token.Spells t ↔ ∃ c, token.accepts c = true ∧ t = [c] := by
  cases token with
  | literal c => simp [Spells, accepts]
  | anyOne => simp [Spells, accepts]
  | oneOf cls => rfl
  | _ => simp [repeats] at h

/-- Moving marks over one character each, where `b` tells whether the first position is marked in
any case. -/
theorem marked_shift {p : Char → Bool} {text : Text} {marks : List Bool}
    (h : marks.length = text.length + 1) (b : Bool) (e : Text) :
    Marked text (b :: shift p text marks) e ↔
      b = true ∧ e = text ∨ ∃ c, p c = true ∧ Marked text marks (c :: e) := by
  induction text generalizing marks b with
  | nil =>
    obtain ⟨m, rfl⟩ := List.length_eq_one_iff.mp h
    simp [Marked]
  | cons d text ih =>
    cases marks with
    | nil => simp at h
    | cons m marks =>
      have hm : marks.length = text.length + 1 := by simpa using h
      rw [shift, Glob.marked_cons, ih hm]
      constructor
      · rintro (h1 | ⟨hmd, rfl⟩ | ⟨c, hc, hr⟩)
        · exact .inl h1
        · obtain ⟨h1, h2⟩ := by simpa using hmd
          exact .inr ⟨d, h2, .inl ⟨h1, rfl⟩⟩
        · exact .inr ⟨c, hc, .inr hr⟩
      · rintro (h1 | ⟨c, hc, ⟨h1, he⟩ | hr⟩)
        · exact .inl h1
        · obtain ⟨rfl, rfl⟩ := by simpa using he
          exact .inr (.inl ⟨by simp [h1, hc], rfl⟩)
        · exact .inr (.inr ⟨c, hc, hr⟩)

/-- Whether only accepted characters stand before an end of a text. -/
def Reaches (p : Char → Bool) (text e : Text) : Prop :=
  ∃ t, (∀ c ∈ t, p c = true) ∧ text = t ++ e

theorem reaches_nil_iff {p : Char → Bool} {e : Text} : Reaches p [] e ↔ e = [] := by
  constructor
  · rintro ⟨t, -, h⟩
    exact (List.append_eq_nil_iff.mp h.symm).2
  · rintro rfl
    exact ⟨[], by simp, rfl⟩

theorem reaches_cons_iff {p : Char → Bool} {c : Char} {text e : Text} :
    Reaches p (c :: text) e ↔ e = c :: text ∨ p c = true ∧ Reaches p text e := by
  constructor
  · rintro ⟨_ | ⟨d, t⟩, ht, h⟩
    · exact .inl h.symm
    · obtain ⟨rfl, rfl⟩ := by simpa using h
      exact .inr ⟨ht c (by simp), t, fun x hx => ht x (by simp [hx]), rfl⟩
  · rintro (rfl | ⟨hc, t, ht, rfl⟩)
    · exact ⟨[], by simp, rfl⟩
    · refine ⟨c :: t, ?_, rfl⟩
      intro x hx
      rcases List.mem_cons.mp hx with rfl | hx
      · exact hc
      · exact ht x hx

/-- Spreading marks over any number of characters. -/
theorem marked_spread {p : Char → Bool} {text : Text} {marks : List Bool}
    (h : marks.length = text.length + 1) (carried : Bool) (e : Text) :
    Marked text (spread p carried text marks) e ↔
      carried = true ∧ Reaches p text e ∨
        ∃ t, (∀ c ∈ t, p c = true) ∧ Marked text marks (t ++ e) := by
  induction text generalizing marks carried with
  | nil =>
    obtain ⟨m, rfl⟩ := List.length_eq_one_iff.mp h
    simp only [spread, Marked, reaches_nil_iff, Bool.or_eq_true, List.append_eq_nil_iff]
    constructor
    · rintro ⟨hc | hm, rfl⟩
      · exact .inl ⟨hc, rfl⟩
      · exact .inr ⟨[], by simp, hm, rfl, rfl⟩
    · rintro (⟨hc, rfl⟩ | ⟨t, -, hm, -, rfl⟩)
      · exact ⟨.inl hc, rfl⟩
      · exact ⟨.inr hm, rfl⟩
  | cons c text ih =>
    cases marks with
    | nil => simp at h
    | cons m marks =>
      have hm : marks.length = text.length + 1 := by simpa using h
      rw [spread, Glob.marked_cons, ih hm]
      constructor
      · rintro (⟨hcm, rfl⟩ | ⟨hcm, hl⟩ | ⟨t, ht, hr⟩)
        · rcases (by simpa using hcm : carried = true ∨ m = true) with hc | hm
          · exact .inl ⟨hc, reaches_cons_iff.mpr (.inl rfl)⟩
          · exact .inr ⟨[], by simp, .inl ⟨hm, rfl⟩⟩
        · obtain ⟨hcm, hp⟩ := by simpa using hcm
          have hlc : Reaches p (c :: text) e := reaches_cons_iff.mpr (.inr ⟨hp, hl⟩)
          rcases hcm with hc | hm
          · exact .inl ⟨hc, hlc⟩
          · obtain ⟨t, ht, he⟩ := hlc
            exact .inr ⟨t, ht, .inl ⟨hm, he.symm⟩⟩
        · exact .inr ⟨t, ht, .inr hr⟩
      · have hlead : carried = true ∨ m = true → Reaches p (c :: text) e →
            (carried || m) = true ∧ e = c :: text ∨
              ((carried || m) && p c) = true ∧ Reaches p text e := by
          intro hcm hl
          have hor : (carried || m) = true := by simpa using hcm
          rcases reaches_cons_iff.mp hl with rfl | ⟨hp, hl⟩
          · exact .inl ⟨hor, rfl⟩
          · exact .inr ⟨by simp [hor, hp], hl⟩
        rintro (⟨hc, hl⟩ | ⟨t, ht, ⟨hm, he⟩ | hr⟩)
        · rcases hlead (.inl hc) hl with h1 | h2
          · exact .inl h1
          · exact .inr (.inl h2)
        · rcases hlead (.inr hm) ⟨t, ht, he.symm⟩ with h1 | h2
          · exact .inl h1
          · exact .inr (.inl h2)
        · exact .inr (.inr ⟨t, ht, hr⟩)

/-- A token moves the marks over its texts. -/
theorem marked_advance (token : GlobToken) {text : Text} {marks : List Bool}
    (h : marks.length = text.length + 1) (e : Text) :
    Marked text (token.advance text marks) e ↔
      ∃ t, token.Spells t ∧ Marked text marks (t ++ e) := by
  unfold advance
  by_cases hr : token.repeats = true
  · rw [if_pos hr, marked_spread h]
    simp [spells_iff_of_repeats hr]
  · have hr : token.repeats = false := by simpa using hr
    rw [if_neg (by simp [hr]), marked_shift h]
    simp only [Bool.false_eq_true, false_and, false_or, spells_iff_of_not_repeats hr]
    constructor
    · rintro ⟨c, hc, hm⟩
      exact ⟨[c], ⟨c, hc, rfl⟩, hm⟩
    · rintro ⟨t, ⟨c, hc, rfl⟩, hm⟩
      exact ⟨c, hc, hm⟩

end GlobToken

namespace Glob

/-- All tokens move the marks over the texts of the glob. -/
theorem marked_reach (g : Glob) {text : Text} {marks : List Bool}
    (h : marks.length = text.length + 1) (e : Text) :
    Marked text (g.reach text marks) e ↔ ∃ t, Spells g t ∧ Marked text marks (t ++ e) := by
  induction g generalizing marks with
  | nil => simp [spells_nil_iff]
  | cons token g ih =>
    rw [reach_cons, ih (token.length_advance h)]
    constructor
    · rintro ⟨v, hv, hm⟩
      obtain ⟨u, hu, hm⟩ := (token.marked_advance h (v ++ e)).mp hm
      exact ⟨u ++ v, .cons hu hv, by simpa using hm⟩
    · rintro ⟨t, ht, hm⟩
      obtain ⟨u, v, rfl, hu, hv⟩ := spells_cons_iff.mp ht
      exact ⟨v, hv, (token.marked_advance h (v ++ e)).mpr ⟨u, hu, by simpa using hm⟩⟩

/-- An anchored match begins where the text does. -/
theorem marked_origin {text e : Text} : Marked text (origin text) e ↔ e = text := by
  cases text with
  | nil => simp [origin, Marked]
  | cons c text =>
    have hrest : ¬ Marked text (false :: text.map fun _ => false) e := not_marked (by simp) e
    rw [origin, List.map_cons, marked_cons, or_iff_left hrest]
    exact and_iff_right rfl

/-- Any other match begins behind what may precede it, where `b` tells whether it may begin where
the text does. -/
theorem marked_nameStarts {text : Text} {b : Bool} {e : Text} :
    Marked text (b :: nameStarts text) e ↔
      b = true ∧ e = text ∨
        ∃ before, text = before ++ e ∧ '\n' ∉ before ∧ before.getLast? = some '/' := by
  induction text generalizing b with
  | nil =>
    constructor
    · exact .inl
    · rintro (h | ⟨before, hb, -, hl⟩)
      · exact h
      · obtain ⟨rfl, -⟩ := List.append_eq_nil_iff.mp hb.symm
        simp at hl
  | cons c text ih =>
    rw [marked_cons]
    refine or_congr_right ?_
    unfold nameStarts
    split
    · next hc =>
      have hrest : ¬ Marked text (false :: text.map fun _ => false) e := not_marked (by simp) e
      simp only [hrest, false_iff]
      rintro ⟨_ | ⟨d, before⟩, hb, hn, hl⟩
      · simp at hl
      · obtain ⟨rfl, -⟩ := by simpa using hb
        exact hn (by simp [hc])
    · next hc =>
      rw [ih]
      constructor
      · rintro (⟨hs, rfl⟩ | ⟨before, rfl, hn, hl⟩)
        · obtain rfl : c = '/' := by simpa using hs
          exact ⟨['/'], rfl, by simp, rfl⟩
        · have hne : before ≠ [] := by
            rintro rfl
            simp at hl
          refine ⟨c :: before, rfl, ?_, ?_⟩
          · simp [hn, Ne.symm hc]
          · rw [List.getLast?_cons_of_ne_nil hne, hl]
      · rintro ⟨_ | ⟨d, before⟩, hb, hn, hl⟩
        · simp at hl
        · obtain ⟨rfl, rfl⟩ := by simpa using hb
          by_cases hne : before = []
          · subst hne
            exact .inl ⟨by simpa using hl, rfl⟩
          · rw [List.getLast?_cons_of_ne_nil hne] at hl
            exact .inr ⟨before, rfl, fun h => hn (by simp [h]), hl⟩

/-- The matches of a glob begin behind what it may leave out. -/
theorem marked_starts_iff {g : Glob} {anchored : Bool} {text : Text} :
    (∃ t, Spells g t ∧ Marked text (starts anchored text) t) ↔ g.Covers anchored text := by
  unfold starts Covers
  cases anchored with
  | true => simp [marked_origin]
  | false =>
    simp only [Bool.false_eq_true, if_false, marked_nameStarts, true_and]
    constructor
    · rintro ⟨t, ht, rfl | ⟨before, rfl, hn, hl⟩⟩
      · exact ⟨[], t, rfl, .inl rfl, ht⟩
      · exact ⟨before, t, rfl, .inr ⟨hn, hl⟩, ht⟩
    · rintro ⟨before, t, rfl, rfl | ⟨hn, hl⟩, ht⟩
      · exact ⟨t, ht, .inl rfl⟩
      · exact ⟨t, ht, .inr ⟨before, rfl, hn, hl⟩⟩

/-- **The marks reach the end of a text exactly if the glob covers it.** -/
theorem accepts_iff {g : Glob} {anchored : Bool} {text : Text} :
    g.accepts anchored text = true ↔ g.Covers anchored text := by
  have hs := length_starts anchored text
  unfold accepts
  rw [beq_iff_eq, ← marked_nil_iff (g.length_reach hs), marked_reach g hs, ← marked_starts_iff]
  simp

end Glob

end PathFilter
