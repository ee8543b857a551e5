import PathFilter.Text.Visible

/-!
# Quoted text

A text is quoted by putting quotation marks around it and a backslash before each quotation mark
and backslash inside it. The characters that a reader could not see, or not tell from the ones
beside them, are written by a letter or by their number.

## Main definitions

* `Text.quoteChar`, `Text.quoted`: a character and a text in quoted form

## Main results

* `Text.quoted_append`: a text is quoted piece by piece
* `Text.isPlain_of_mem_quoted`: a quoted text has nothing in it that could not be seen
-/

namespace PathFilter.Text

/-- **Whether a character can be seen**, apart from the characters beside it. -/
def isPlain (c : Char) : Bool := !isCombining c && !isUnseen c

/-- A character inside quotation marks. -/
def quoteChar (c : Char) : Text :=
  match c with
  | '"' => ['\\', '"']
  | '\\' => ['\\', '\\']
  | '\n' => ['\\', 'n']
  | '\t' => ['\\', 't']
  | '\r' => ['\\', 'r']
  | '\x00' => ['\\', '0']
  | c =>
    if isPlain c then [c] else ['\\', 'u', '\x7b'] ++ Nat.toDigits 16 c.toNat ++ ['\x7d']

/-- **A text in quotation marks.** -/
def quoted (t : Text) : Text := '"' :: t.flatMap quoteChar ++ ['"']

@[simp] theorem quoted_nil : quoted [] = ['"', '"'] := rfl

/-- A text is quoted piece by piece. -/
theorem quoted_append (s t : Text) :
    quoted (s ++ t) = '"' :: (s.flatMap quoteChar ++ t.flatMap quoteChar) ++ ['"'] := by
  simp [quoted]

theorem mem_toDigitsCore {fuel n : Nat} {ds : List Char} {d : Char}
    (h : d ∈ Nat.toDigitsCore 16 fuel n ds) : d ∈ ds ∨ ∃ k < 16, d = Nat.digitChar k := by
  induction fuel generalizing n ds with
  | zero => exact .inl h
  | succ fuel ih =>
    have hdigit : d ∈ Nat.digitChar (n % 16) :: ds → d ∈ ds ∨ ∃ k < 16, d = Nat.digitChar k := by
      intro hd
      rcases List.mem_cons.mp hd with rfl | hd
      · exact .inr ⟨n % 16, Nat.mod_lt n (by decide), rfl⟩
      · exact .inl hd
    simp only [Nat.toDigitsCore] at h
    split at h
    · exact hdigit h
    · rcases ih h with hd | hd
      · exact hdigit hd
      · exact .inr hd

/-- The hexadecimal digits of a number can be seen. -/
theorem isPlain_of_mem_toDigits {n : Nat} {d : Char} (h : d ∈ Nat.toDigits 16 n) :
    isPlain d = true := by
  have hall : ∀ k < 16, isPlain (Nat.digitChar k) = true := by decide +kernel
  rcases mem_toDigitsCore h with hd | ⟨k, hk, rfl⟩
  · simp at hd
  · exact hall k hk

theorem isPlain_of_mem_quoteChar {c d : Char} (h : d ∈ quoteChar c) : isPlain d = true := by
  unfold quoteChar at h
  split at h
  case h_7 =>
    split at h
    · next hc => exact List.mem_singleton.mp h ▸ hc
    · simp only [List.mem_append, List.mem_cons, List.not_mem_nil, or_false] at h
      rcases h with ((rfl | rfl | rfl) | h) | rfl
      · decide
      · decide
      · decide
      · exact isPlain_of_mem_toDigits h
      · decide
  all_goals
    simp only [List.mem_cons, List.not_mem_nil, or_false] at h
    rcases h with rfl | rfl <;> decide

/-- A quoted text has nothing in it that could not be seen. -/
theorem isPlain_of_mem_quoted {t : Text} {d : Char} (h : d ∈ quoted t) : isPlain d = true := by
  simp only [quoted, List.mem_append, List.mem_cons, List.mem_flatMap, List.not_mem_nil,
    or_false] at h
  rcases h with (rfl | ⟨c, _, hd⟩) | rfl
  · decide
  · exact isPlain_of_mem_quoteChar hd
  · decide

end PathFilter.Text
