import PathFilter.Glob.Class

/-!
# Globs

A glob is a path expression with wildcards. It is read from left to right into a list of tokens,
each of which stands for a set of texts: one character, any characters of one name, or any
characters at all.

## Main definitions

* `GlobToken`: one step of a glob
* `Glob.parse text`: the tokens of a text
* `Glob.isGlob text`: whether the text holds a wildcard at all
* `GlobToken.accepts`, `GlobToken.repeats`: the characters of a token and how many of them

## Main results

* `Glob.parse_literal`: a text without wildcards and escapes stands for itself
-/

namespace PathFilter

/-- One step of a glob. -/
inductive GlobToken where
  /-- This character. -/
  | literal (c : Char)
  /-- One character of a name. -/
  | anyOne
  /-- Any characters of a name, perhaps none. -/
  | star
  /-- Any characters of a line, perhaps none and perhaps slashes. -/
  | globstar
  /-- One character of a class. -/
  | oneOf (cls : CharClass)
deriving DecidableEq, Repr

/-- A glob as the list of its tokens. -/
abbrev Glob := List GlobToken

namespace GlobToken

/-- The characters a token consists of. -/
def accepts : GlobToken → Char → Bool
  | literal c, x => x == c
  | anyOne, x => x != '/'
  | star, x => x != '/'
  | globstar, x => x != '\n'
  | oneOf cls, x => cls.accepts x

/-- Whether a token stands for any number of its characters, rather than for one. -/
def repeats : GlobToken → Bool
  | star => true
  | globstar => true
  | _ => false

end GlobToken

namespace Glob

/-- A star in front of a glob. Next to another star it crosses slashes. -/
def consStar : Glob → Glob
  | .star :: g => .globstar :: g
  | .globstar :: g => .globstar :: g
  | g => .star :: g

/-- **The glob a text spells.** A backslash takes the next character for itself; a `[` that is not
closed and a backslash at the end stand for themselves. -/
def parse : Text → Glob
  | [] => []
  | '?' :: rest => .anyOne :: parse rest
  | '*' :: rest => consStar (parse rest)
  | '[' :: rest =>
    match _h : CharClass.read? rest with
    | some (cls, after) => .oneOf cls :: parse after
    | none => .literal '[' :: parse rest
  | ['\\'] => [.literal '\\']
  | '\\' :: c :: rest => .literal c :: parse rest
  | c :: rest => .literal c :: parse rest
termination_by text => text.length
decreasing_by
  all_goals simp only [List.length_cons]
  all_goals try omega
  have := CharClass.read?_length _h
  omega

/-- Whether a path expression is a glob, that is holds a wildcard. -/
def isGlob (text : Text) : Bool := text.any fun c => c == '*' || c == '?' || c == '['

@[simp] theorem parse_nil : parse [] = [] := by rw [parse]

/-- A text without wildcards and escapes stands for itself. -/
theorem parse_literal {text : Text} (h : isGlob text = false) (he : '\\' ∉ text) :
    parse text = text.map .literal := by
  induction text with
  | nil => simp
  | cons c rest ih =>
    simp only [isGlob, List.any_cons, Bool.or_eq_false_iff, beq_eq_false_iff_ne] at h
    simp only [List.mem_cons, not_or] at he
    obtain ⟨⟨⟨h1, h2⟩, h3⟩, hr⟩ := h
    rw [parse, List.map_cons, ih hr he.2]
    · exact h2
    · exact h1
    · exact h3
    · rintro rfl
      exact fun _ => he.1 rfl
    · rintro x r rfl
      exact fun _ => he.1 rfl

end Glob

end PathFilter
