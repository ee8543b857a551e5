import PathFilter.Glob.Basic

/-!
# Matching a glob

A glob is matched against a text in one pass per token. Before each token the positions that the
tokens so far can reach are marked, one mark before each character and one at the end; a token
moves the marks over the characters it accepts. The text matches if the last position is marked
once all tokens are used up. The work is the product of the two lengths, however many stars the
glob has.

## Main definitions

* `Glob.origin`, `Glob.nameStarts`: the positions where a match may begin
* `GlobToken.advance token text marks`: the positions after one more token
* `Glob.accepts`: whether a glob matches a text as a whole, or a text that ends a path

## Main results

* `GlobToken.length_advance`: a token keeps one mark before each character and one at the end
-/

namespace PathFilter

namespace GlobToken

/-- The marks moved over one accepted character each. -/
def shift (p : Char → Bool) : Text → List Bool → List Bool
  | c :: text, m :: marks => (m && p c) :: shift p text marks
  | _, _ => []

/-- The marks spread over any number of accepted characters, where `carried` tells whether the
first position is reached from the left. -/
def spread (p : Char → Bool) : Bool → Text → List Bool → List Bool
  | carried, c :: text, m :: marks =>
    (carried || m) :: spread p ((carried || m) && p c) text marks
  | carried, [], [m] => [carried || m]
  | _, _, _ => []

/-- **The positions reached by one more token.** -/
def advance (token : GlobToken) (text : Text) (marks : List Bool) : List Bool :=
  if token.repeats then spread token.accepts false text marks
  else false :: shift token.accepts text marks

theorem length_shift (p : Char → Bool) {text : Text} {marks : List Bool}
    (h : marks.length = text.length + 1) : (shift p text marks).length = text.length := by
  induction text generalizing marks with
  | nil => simp [shift]
  | cons c text ih =>
    cases marks with
    | nil => simp at h
    | cons m marks => simp [shift, ih (by simpa using h)]

theorem length_spread (p : Char → Bool) {text : Text} {marks : List Bool} (carried : Bool)
    (h : marks.length = text.length + 1) :
    (spread p carried text marks).length = text.length + 1 := by
  induction text generalizing marks carried with
  | nil =>
    obtain ⟨m, rfl⟩ := List.length_eq_one_iff.mp h
    simp [spread]
  | cons c text ih =>
    cases marks with
    | nil => simp at h
    | cons m marks => simp [spread, ih _ (by simpa using h)]

/-- A token keeps one mark before each character and one at the end. -/
theorem length_advance (token : GlobToken) {text : Text} {marks : List Bool}
    (h : marks.length = text.length + 1) :
    (token.advance text marks).length = text.length + 1 := by
  unfold advance
  split
  · exact length_spread _ _ h
  · simp [length_shift _ h]

end GlobToken

namespace Glob

/-- The mark of the first position alone. -/
def origin (text : Text) : List Bool := true :: text.map fun _ => false

/-- The marks after the first position of a text: those right behind a slash, as long as no line
has ended. -/
def nameStarts : Text → List Bool
  | [] => []
  | c :: text =>
    if c = '\n' then false :: text.map fun _ => false else (c == '/') :: nameStarts text

/-- The positions where a match may begin: the first one, and for a glob that is not anchored every
position where a name of the first line starts. -/
def starts (anchored : Bool) (text : Text) : List Bool :=
  if anchored then origin text else true :: nameStarts text

/-- The positions reached by all tokens of a glob. -/
def reach (g : Glob) (text : Text) (marks : List Bool) : List Bool :=
  g.foldl (fun ms token => token.advance text ms) marks

/-- **Whether a glob matches a text** up to its end. -/
def accepts (g : Glob) (anchored : Bool) (text : Text) : Bool :=
  (g.reach text (starts anchored text)).getLast? == some true

@[simp] theorem reach_nil (text : Text) (marks : List Bool) : reach [] text marks = marks := rfl

@[simp] theorem reach_cons (token : GlobToken) (g : Glob) (text : Text) (marks : List Bool) :
    reach (token :: g) text marks = reach g text (token.advance text marks) := rfl

theorem length_nameStarts (text : Text) : (nameStarts text).length = text.length := by
  induction text with
  | nil => rfl
  | cons c text ih =>
    unfold nameStarts
    split <;> simp [ih]

theorem length_starts (anchored : Bool) (text : Text) :
    (starts anchored text).length = text.length + 1 := by
  unfold starts origin
  split <;> simp [length_nameStarts]

/-- A glob keeps one mark before each character and one at the end. -/
theorem length_reach (g : Glob) {text : Text} {marks : List Bool}
    (h : marks.length = text.length + 1) : (g.reach text marks).length = text.length + 1 := by
  induction g generalizing marks with
  | nil => exact h
  | cons token g ih => exact ih (token.length_advance h)

end Glob

end PathFilter
