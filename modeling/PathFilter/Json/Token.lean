import PathFilter.Text.Blank

/-!
# The tokens of a JSON text

A JSON text is cut into brackets, separators, names, numbers and strings, with blanks, tabs and
line ends between them. Strings may spell characters by their UTF-16 units; such a spelling can be
well formed and yet stand for no text, which matters only where the string is used.

## Main definitions

* `JsonToken`: the tokens
* `JsonString.read?`, `JsonString.text?`: a string literal, and the text it stands for
* `JsonNumber.read?`: a number literal
* `JsonToken.scan?`: the tokens of a text

## Main results

* `JsonString.read?_length`, `JsonNumber.read?_length`: reading a literal uses up characters
-/

namespace PathFilter

/-- A part of a string literal: a character, or a UTF-16 unit given by its number. -/
inductive JsonPart where
  | char (c : Char)
  | unit (n : Nat)
deriving DecidableEq, Repr

/-- A token of a JSON text. -/
inductive JsonToken where
  | openObject
  | closeObject
  | openArray
  | closeArray
  | colon
  | comma
  | null
  | bool (b : Bool)
  /-- A number without sign, fraction and exponent. -/
  | natural (n : Nat)
  /-- Any other number. -/
  | otherNumber
  /-- A string, if its parts stand for a text. -/
  | string (text : Option Text)
deriving DecidableEq, Repr

namespace JsonString

/-- The value of a hexadecimal digit. -/
def hexDigit? (c : Char) : Option Nat :=
  if c.isDigit then some (c.toNat - '0'.toNat)
  else if 'a' ≤ c ∧ c ≤ 'f' then some (c.toNat - 'a'.toNat + 10)
  else if 'A' ≤ c ∧ c ≤ 'F' then some (c.toNat - 'A'.toNat + 10)
  else none

/-- The number that four hexadecimal digits spell. -/
def unit? (a b c d : Char) : Option Nat := do
  let a ← hexDigit? a
  let b ← hexDigit? b
  let c ← hexDigit? c
  let d ← hexDigit? d
  return ((a * 16 + b) * 16 + c) * 16 + d

/-- The character that a backslash and a letter stand for. -/
def escape? : Char → Option Char
  | '"' => some '"'
  | '\\' => some '\\'
  | '/' => some '/'
  | 'b' => some '\x08'
  | 'f' => some '\x0c'
  | 'n' => some '\n'
  | 'r' => some '\r'
  | 't' => some '\t'
  | _ => none

/-- **The parts of the string literal** that the text after a quotation mark begins with, and the
text after the literal. Control characters must be escaped. -/
def read? : Text → Option (List JsonPart × Text)
  | [] => none
  | '"' :: rest => some ([], rest)
  | '\\' :: 'u' :: a :: b :: c :: d :: rest =>
    match unit? a b c d, read? rest with
    | some n, some (parts, after) => some (.unit n :: parts, after)
    | _, _ => none
  | '\\' :: c :: rest =>
    match escape? c, read? rest with
    | some e, some (parts, after) => some (.char e :: parts, after)
    | _, _ => none
  | c :: rest =>
    if c.toNat < 32 then none
    else (read? rest).map fun (parts, after) => (.char c :: parts, after)

/-- Whether a number is the first unit of a pair. -/
def isHigh (n : Nat) : Bool := 0xd800 ≤ n && n < 0xdc00

/-- Whether a number is the second unit of a pair. -/
def isLow (n : Nat) : Bool := 0xdc00 ≤ n && n < 0xe000

/-- **The text that the parts of a literal stand for.** Units of a pair must stand together. -/
def text? : List JsonPart → Option Text
  | [] => some []
  | .char c :: parts => (text? parts).map (c :: ·)
  | .unit h :: .unit l :: parts =>
    if isHigh h then
      if isLow l then
        (text? parts).map (Char.ofNat (0x10000 + (h - 0xd800) * 0x400 + (l - 0xdc00)) :: ·)
      else none
    else if isLow h then none
    else (text? (.unit l :: parts)).map (Char.ofNat h :: ·)
  | .unit n :: parts =>
    if isHigh n || isLow n then none else (text? parts).map (Char.ofNat n :: ·)

/-- Reading a string literal uses up characters. -/
theorem read?_length {text after : Text} {parts : List JsonPart}
    (h : read? text = some (parts, after)) : after.length < text.length := by
  fun_induction read? text generalizing parts after with
  | case1 => simp at h
  | case2 rest =>
    obtain ⟨-, rfl⟩ := by simpa using h
    simp
  | case3 a b c d rest n parts' after' hr _ ih =>
    obtain ⟨-, rfl⟩ := by simpa using h
    have := ih hr
    simp only [List.length_cons]
    omega
  | case4 => simp at h
  | case5 c rest _ e parts' after' hr _ ih =>
    obtain ⟨-, rfl⟩ := by simpa using h
    have := ih hr
    simp only [List.length_cons]
    omega
  | case6 => simp at h
  | case7 => simp at h
  | case8 c rest _ _ _ _ ih =>
    obtain ⟨⟨p, a⟩, hr, he⟩ := Option.map_eq_some_iff.mp h
    obtain ⟨-, rfl⟩ := by simpa using he
    have := ih hr
    simp only [List.length_cons]
    omega

end JsonString

namespace JsonNumber

/-- The digits that a text begins with. -/
def digits (text : Text) : Text := text.takeWhile Char.isDigit

/-- The text after the digits it begins with. -/
def afterDigits (text : Text) : Text := text.dropWhile Char.isDigit

/-- The number that decimal digits spell. -/
def value (ds : Text) : Nat := ds.foldl (fun n c => 10 * n + (c.toNat - '0'.toNat)) 0

/-- The text after a fraction if there is one; `none` if a point has no digits after it. -/
def afterFraction? : Text → Option Text
  | '.' :: rest => if digits rest = [] then none else some (afterDigits rest)
  | text => some text

/-- The text after the sign of an exponent. -/
def afterSign : Text → Text
  | '+' :: rest => rest
  | '-' :: rest => rest
  | text => text

/-- The text after an exponent if there is one; `none` if it has no digits. -/
def afterExponent? : Text → Option Text
  | 'e' :: rest =>
    if digits (afterSign rest) = [] then none else some (afterDigits (afterSign rest))
  | 'E' :: rest =>
    if digits (afterSign rest) = [] then none else some (afterDigits (afterSign rest))
  | text => some text

/-- The digits before the point: a zero alone, or digits that do not begin with one. -/
def whole? (text : Text) : Option (Text × Text) :=
  match text with
  | '0' :: rest => some (['0'], rest)
  | _ => if digits text = [] then none else some (digits text, afterDigits text)

/-- The text after a minus sign. -/
def unsigned : Text → Text
  | '-' :: rest => rest
  | text => text

/-- **The number literal that a text begins with**, and the text after it. -/
def read? (text : Text) : Option (JsonToken × Text) := do
  let (ds, rest) ← whole? (unsigned text)
  let fraction ← afterFraction? rest
  let after ← afterExponent? fraction
  let isNatural := after.length = rest.length ∧ text.head? ≠ some '-'
  return (if isNatural then .natural (value ds) else .otherNumber, after)

theorem length_unsigned_le (text : Text) : (unsigned text).length ≤ text.length := by
  unfold unsigned
  split <;> simp

theorem length_afterDigits_le (text : Text) : (afterDigits text).length ≤ text.length :=
  (List.dropWhile_suffix _).length_le

theorem length_afterSign_le (text : Text) : (afterSign text).length ≤ text.length := by
  unfold afterSign
  split <;> simp

theorem afterFraction?_length {text after : Text} (h : afterFraction? text = some after) :
    after.length ≤ text.length := by
  unfold afterFraction? at h
  split at h
  · next rest =>
    split at h
    · simp at h
    · obtain rfl := by simpa using h
      have := length_afterDigits_le rest
      simp only [List.length_cons]
      omega
  · obtain rfl := by simpa using h
    exact Nat.le_refl _

theorem afterExponent?_length {text after : Text} (h : afterExponent? text = some after) :
    after.length ≤ text.length := by
  unfold afterExponent? at h
  split at h
  · next rest =>
    split at h
    · simp at h
    · obtain rfl := by simpa using h
      have := length_afterDigits_le (afterSign rest)
      have := length_afterSign_le rest
      simp only [List.length_cons]
      omega
  · next rest =>
    split at h
    · simp at h
    · obtain rfl := by simpa using h
      have := length_afterDigits_le (afterSign rest)
      have := length_afterSign_le rest
      simp only [List.length_cons]
      omega
  · obtain rfl := by simpa using h
    exact Nat.le_refl _

theorem whole?_length {text ds rest : Text} (h : whole? text = some (ds, rest)) :
    rest.length < text.length := by
  unfold whole? at h
  split at h
  · obtain ⟨-, rfl⟩ := by simpa using h
    simp
  · split at h
    · simp at h
    · next hd =>
      obtain ⟨-, rfl⟩ := by simpa using h
      have := congrArg List.length (List.takeWhile_append_dropWhile (p := Char.isDigit) (l := text))
      have hpos : 0 < (digits text).length := List.length_pos_iff.mpr hd
      simp only [List.length_append] at this
      unfold digits at hpos
      unfold afterDigits
      omega

/-- Reading a number literal uses up characters. -/
theorem read?_length {text after : Text} {token : JsonToken}
    (h : read? text = some (token, after)) : after.length < text.length := by
  simp only [read?, Option.bind_eq_bind, Option.bind_eq_some_iff] at h
  obtain ⟨⟨ds, rest⟩, hw, fraction, hf, after', he, hr⟩ := h
  obtain ⟨-, rfl⟩ := by simpa using hr
  have h1 : rest.length < (unsigned text).length := whole?_length hw
  have h2 : fraction.length ≤ rest.length := afterFraction?_length hf
  have h3 := afterExponent?_length he
  have h4 := length_unsigned_le text
  omega

end JsonNumber

/-- Whether a character may stand between tokens. -/
def isJsonSpace (c : Char) : Bool := c == ' ' || c == '\n' || c == '\t' || c == '\r'

/-- **The tokens of a JSON text**, or `none` if some part of it is no token. -/
def JsonToken.scan? (text : Text) : Option (List JsonToken) :=
  match text with
  | [] => some []
  | '\x7b' :: rest => (scan? rest).map (.openObject :: ·)
  | '\x7d' :: rest => (scan? rest).map (.closeObject :: ·)
  | '[' :: rest => (scan? rest).map (.openArray :: ·)
  | ']' :: rest => (scan? rest).map (.closeArray :: ·)
  | ':' :: rest => (scan? rest).map (.colon :: ·)
  | ',' :: rest => (scan? rest).map (.comma :: ·)
  | 'n' :: 'u' :: 'l' :: 'l' :: rest => (scan? rest).map (.null :: ·)
  | 't' :: 'r' :: 'u' :: 'e' :: rest => (scan? rest).map (.bool true :: ·)
  | 'f' :: 'a' :: 'l' :: 's' :: 'e' :: rest => (scan? rest).map (.bool false :: ·)
  | '"' :: rest =>
    match _h : JsonString.read? rest with
    | some (parts, after) => (scan? after).map (.string (JsonString.text? parts) :: ·)
    | none => none
  | c :: rest =>
    if isJsonSpace c then scan? rest
    else
      match _h : JsonNumber.read? (c :: rest) with
      | some (token, after) => (scan? after).map (token :: ·)
      | none => none
termination_by text.length
decreasing_by
  all_goals try (simp only [List.length_cons]; omega)
  · have := JsonString.read?_length _h
    simp only [List.length_cons]
    omega
  · exact JsonNumber.read?_length _h

end PathFilter
