import PathFilter.Text.Blank

/-!
# The lines of a file

A rule file is read line by line. Each line is decoded from UTF-8 on its own, so a file that stops
being text in the middle still has the lines before that point.

## Main definitions

* `FileLines`: the lines a reader obtains from some bytes, and whether it reached their end
* `Text.utf8 t`, `decodeLine bytes`: a text encoded, and one line decoded
* `FileLines.ofBytes bytes`: the lines of the bytes
* `FileLines.rules`: the lines that carry a rule

## Main results

* `decodeLine_utf8`: what is encoded is decoded
* `FileLines.ofBytes_nil`: no bytes have no lines
* `FileLines.not_mem_rules_nil`: no blank line carries a rule
-/

namespace PathFilter

/-- What a reader obtains line by line: the lines up to the first that is no UTF-8, and whether
it found none such. -/
structure FileLines where
  /-- The decoded lines, in order. -/
  lines : List Text
  /-- Whether every line could be decoded. -/
  intact : Bool
deriving DecidableEq, Repr

/-- One line decoded from UTF-8, or `none` if it is not well formed. -/
def decodeLine (bytes : List UInt8) : Option Text :=
  (String.fromUTF8? ⟨bytes.toArray⟩).map String.toList

/-- The bytes of a text in UTF-8. -/
def Text.utf8 (t : Text) : List UInt8 := t.flatMap String.utf8EncodeChar

/-- What is encoded is decoded. -/
theorem decodeLine_utf8 (t : Text) : decodeLine t.utf8 = some t := by
  have h : (⟨t.utf8.toArray⟩ : ByteArray) = (String.ofList t).toByteArray := by
    rw [String.toByteArray_ofList, List.utf8Encode]
    ext1
    simp [Text.utf8]
  unfold decodeLine String.fromUTF8?
  rw [h, dif_pos (String.isValidUTF8 _)]
  exact congrArg some String.toList_ofList

namespace FileLines

/-- The lines decoded one by one, up to the first that is no UTF-8. -/
def decode : List (List UInt8) → FileLines
  | [] => ⟨[], true⟩
  | l :: ls =>
    match decodeLine l with
    | none => ⟨[], false⟩
    | some t => ⟨t :: (decode ls).lines, (decode ls).intact⟩

/-- The stretches of the bytes that a line feed ends, and what follows the last of them unless
nothing does. -/
def cut (bytes : List UInt8) : List (List UInt8) :=
  let ls := pieces (· == 10) bytes
  if ls.getLast? = some [] then ls.dropLast else ls

/-- **The lines of some bytes**, without the line feeds that end them. -/
def ofBytes (bytes : List UInt8) : FileLines := decode (cut bytes)

@[simp] theorem ofBytes_nil : ofBytes [] = ⟨[], true⟩ := rfl

/-- The lines that carry a rule, trimmed: neither blank nor a comment. -/
def rules (file : FileLines) : List Text :=
  (file.lines.map Text.trim).filter fun l => l ≠ [] ∧ l.head? ≠ some '#'

theorem not_mem_rules_nil (file : FileLines) : [] ∉ file.rules := by
  simp [rules]

end FileLines

end PathFilter
