import PathFilter.Text.Lines

/-!
# The lines of an encoded text

A rule file is cut into lines while it is still bytes, and each line is decoded on its own. If the
file is a text in UTF-8 this is as good as cutting the text: the byte of the line feed is part of no
other character, so every line can be decoded, and is a line of the text.

## Main definitions

* `Text.lines`: the lines of a text
* `Text.ruleLines`: those that carry a rule, trimmed

## Main results

* `pieces_utf8`: the pieces of an encoded text are the encoded pieces
* `FileLines.ofBytes_utf8`: the lines of an encoded text are the lines of the text
-/

namespace PathFilter

namespace Text

@[simp] theorem utf8_nil : utf8 [] = [] := rfl

@[simp] theorem utf8_cons (c : Char) (t : Text) :
    utf8 (c :: t) = String.utf8EncodeChar c ++ utf8 t := rfl

theorem utf8_eq_nil_iff {t : Text} : t.utf8 = [] ↔ t = [] := by
  cases t with
  | nil => simp
  | cons c t => simp [String.utf8EncodeChar_ne_nil]

/-- The byte of the line feed is part of no other character. -/
theorem newline_not_mem_utf8EncodeChar {c : Char} (hc : c ≠ '\n') :
    ∀ b ∈ String.utf8EncodeChar c, (b == 10) = false := by
  have hval : c.val.toNat ≠ 10 := fun h => hc (Char.ext (UInt32.toNat_inj.mp h))
  intro b hb
  rw [beq_eq_false_iff_ne]
  rintro rfl
  simp only [String.utf8EncodeChar] at hb
  repeat' split at hb
  all_goals
    simp only [List.mem_cons, List.not_mem_nil, or_false, ← UInt8.toNat_inj, UInt8.toNat_ofNat,
      UInt8.toNat_ofNat'] at hb
    omega

/-- **The lines** of a text, without the line feeds that end them. -/
def lines (t : Text) : List Text :=
  let ls := pieces (· == '\n') t
  if ls.getLast? = some [] then ls.dropLast else ls

/-- The lines that carry a rule, trimmed: neither blank nor a comment. -/
def ruleLines (t : Text) : List Text :=
  (t.lines.map trim).filter fun l => l ≠ [] ∧ l.head? ≠ some '#'

end Text

/-- The pieces of an encoded text are the encoded pieces. -/
theorem pieces_utf8 (t : Text) :
    pieces (· == 10) t.utf8 = (pieces (· == '\n') t).map Text.utf8 := by
  induction t with
  | nil => rfl
  | cons c t ih =>
    rcases hp : pieces (· == '\n') t with _ | ⟨p, ps⟩
    · exact absurd hp (pieces_ne_nil _ t)
    · rw [hp, List.map_cons] at ih
      by_cases hc : c = '\n'
      · subst hc
        rw [pieces_cons_mark (by simp), hp, Text.utf8_cons, List.map_cons, List.map_cons, ← ih]
        exact pieces_cons_mark (by decide) _
      · have hunmarked := Text.newline_not_mem_utf8EncodeChar hc
        have hne : (c == '\n') = false := by simpa using hc
        rw [Text.utf8_cons, pieces_append_of_unmarked hunmarked ih]
        simp [pieces, hne, hp]

namespace FileLines

/-- Encoded texts are decoded one by one. -/
theorem decode_map_utf8 (ts : List Text) : decode (ts.map Text.utf8) = ⟨ts, true⟩ := by
  induction ts with
  | nil => rfl
  | cons t ts ih => simp [decode, decodeLine_utf8, ih]

theorem cut_utf8 (t : Text) : cut t.utf8 = t.lines.map Text.utf8 := by
  have hlast : ((pieces (· == '\n') t).map Text.utf8).getLast? = some [] ↔
      (pieces (· == '\n') t).getLast? = some [] := by
    simp [List.getLast?_map, Text.utf8_eq_nil_iff]
  simp only [cut, Text.lines, pieces_utf8, hlast]
  split
  · rw [List.map_dropLast]
  · rfl

/-- **The lines of an encoded text** are the lines of the text, and none is lost. -/
theorem ofBytes_utf8 (t : Text) : ofBytes t.utf8 = ⟨t.lines, true⟩ := by
  rw [ofBytes, cut_utf8, decode_map_utf8]

theorem rules_ofBytes_utf8 (t : Text) : (ofBytes t.utf8).rules = t.ruleLines := by
  rw [ofBytes_utf8]
  rfl

theorem intact_ofBytes_utf8 (t : Text) : (ofBytes t.utf8).intact = true := by
  rw [ofBytes_utf8]

end FileLines

end PathFilter
