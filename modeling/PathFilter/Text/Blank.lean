import PathFilter.Text.Pieces

/-!
# Blank space

A rule line consists of fields separated by blank space, and the lines of a rule file are trimmed
of it. Blank space is the `White_Space` property of Unicode: the ASCII controls from tab to
carriage return, the space, and the further spaces and separators of the table below.

## Main definitions

* `Text`: the lists of characters on which paths and rules are defined
* `isBlank c`: membership in `White_Space`
* `Text.trim t`, `Text.fields t`: a text without the blank space around it, and its fields

## Main results

* `Text.fields_ne_nil`, `Text.not_blank_of_mem_fields`: no field is empty, none holds a blank
-/

namespace PathFilter

/-- Text as the list of its characters. Paths, rule lines and patterns are cut, compared and
rebuilt character by character, and are kept in this form. -/
abbrev Text := List Char

/-- Comparing texts tells whether they are the same. -/
instance : LawfulBEq Text := inferInstance

/-- The `White_Space` property of Unicode, 25 characters in all. -/
def isBlank (c : Char) : Bool :=
  (0x09 ≤ c.val && c.val ≤ 0x0d) || c.val == 0x20 || c.val == 0x85 || c.val == 0xa0 ||
    c.val == 0x1680 || (0x2000 ≤ c.val && c.val ≤ 0x200a) || c.val == 0x2028 ||
    c.val == 0x2029 || c.val == 0x202f || c.val == 0x205f || c.val == 0x3000

namespace Text

/-- The text without the blank space before it. -/
def trimStart (t : Text) : Text := t.dropWhile isBlank

/-- The text without the blank space after it. -/
def trimEnd (t : Text) : Text := (t.reverse.dropWhile isBlank).reverse

/-- The text without the blank space around it. -/
def trim (t : Text) : Text := t.trimStart.trimEnd

@[simp] theorem trim_nil : trim [] = [] := rfl

/-- **The fields** of a line: the longest stretches without blank space, in order. -/
def fields (t : Text) : List Text := (pieces isBlank t).filter (· ≠ [])

@[simp] theorem fields_nil : fields [] = [] := by simp [fields]

theorem fields_ne_nil {t f : Text} (h : f ∈ t.fields) : f ≠ [] := by
  simpa using (List.mem_filter.mp h).2

theorem not_blank_of_mem_fields {t f : Text} (h : f ∈ t.fields) : ∀ c ∈ f, isBlank c = false :=
  mark_not_mem_pieces isBlank t f (List.mem_filter.mp h).1

/-- Whether the text ends with the character `c`. -/
def endsWith (t : Text) (c : Char) : Bool := t.getLast? == some c

/-- The number of bytes of the text in UTF-8. -/
def byteLength (t : Text) : Nat := t.foldr (fun c n => c.utf8Size + n) 0

/-- The text as a string. -/
def toString (t : Text) : String := String.ofList t

@[simp] theorem byteLength_nil : byteLength [] = 0 := rfl

@[simp] theorem byteLength_cons (c : Char) (t : Text) :
    byteLength (c :: t) = c.utf8Size + byteLength t := rfl

end Text

end PathFilter
