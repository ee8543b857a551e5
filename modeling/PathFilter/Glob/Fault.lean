import PathFilter.Glob.Basic

/-!
# Faulty globs

The one fault a glob can have is a class range whose ends are the wrong way round. It is reported
in the notation of regular expressions: the glob is written out as one, and the range is underlined
where it stands in that line.

## Main definitions

* `GlobToken.expression`, `Glob.expression`: a token and a glob written as a regular expression
* `GlobFault`: the place of a backward range in the expression of a glob
* `Glob.fault?`: the first fault of a glob
* `GlobFault.message`: the report

## Main results

* `Glob.fault?_eq_none_iff`: a glob is free of faults exactly if no class has a backward range
-/

namespace PathFilter

/-- The characters that mean something outside the classes of a regular expression. -/
def expressionMarks : Text := "\\.+*?()|[]\x7b\x7d^$#&-~".toList

/-- The characters that mean something inside such a class, the dash excepted. -/
def expressionClassMarks : Text := "\\[]&~^".toList

/-- A character with a backslash before it if it is one of the marks. -/
def escaped (marks : Text) (c : Char) : Text := if c ∈ marks then ['\\', c] else [c]

/-- A part of a class as it stands in a regular expression. -/
def ClassMember.expression : ClassMember → Text
  | .single c => escaped expressionClassMarks c
  | .range low high => escaped expressionClassMarks low ++ '-' :: escaped expressionClassMarks high
  | .without => ['-', '-']

/-- The start of a class as it stands in a regular expression. -/
def CharClass.opening (cls : CharClass) : Text := if cls.negated then ['[', '^'] else ['[']

/-- A token as a regular expression. -/
def GlobToken.expression : GlobToken → Text
  | .literal c => escaped expressionMarks c
  | .anyOne => "[^/]".toList
  | .star => "[^/]*".toList
  | .globstar => ".*".toList
  | .oneOf cls => cls.opening ++ cls.members.flatMap ClassMember.expression ++ [']']

/-- What stands before the tokens of a glob in its regular expression: a glob that is not anchored
may start behind any slash. -/
def Glob.expressionStart (anchored : Bool) : Text :=
  if anchored then ['^'] else "^(?:.*/)?".toList

/-- A glob as a regular expression. -/
def Glob.expression (anchored : Bool) (g : Glob) : Text :=
  expressionStart anchored ++ g.flatMap GlobToken.expression ++ ['$']

/-- The place of a backward range: how much of the expression stands before it, and the range. -/
structure GlobFault where
  /-- The regular expression of the glob. -/
  expression : Text
  /-- The part of the expression before the range. -/
  before : Text
  /-- The range as it stands in the expression. -/
  range : Text
deriving DecidableEq, Repr

/-- The expression of the parts before the first backward range, and that of the range. -/
def CharClass.backward? : List ClassMember → Option (Text × Text)
  | [] => none
  | m :: ms =>
    if m.isBackward then some ([], m.expression)
    else (backward? ms).map fun (before, range) => (m.expression ++ before, range)

/-- The expression of a glob before its first backward range, and that of the range. -/
def Glob.backward? : Glob → Option (Text × Text)
  | [] => none
  | token :: g =>
    let later := (backward? g).map fun (before, range) => (token.expression ++ before, range)
    match token with
    | .oneOf cls =>
      match CharClass.backward? cls.members with
      | some (before, range) => some (cls.opening ++ before, range)
      | none => later
    | _ => later

/-- **The first fault of a glob.** -/
def Glob.fault? (anchored : Bool) (g : Glob) : Option GlobFault :=
  g.backward?.map fun (before, range) =>
    ⟨g.expression anchored, expressionStart anchored ++ before, range⟩

/-- Whether every range of the glob is the right way round. -/
def Glob.isSound (g : Glob) : Bool :=
  g.all fun
    | .oneOf cls => cls.members.all fun m => !m.isBackward
    | _ => true

theorem CharClass.backward?_eq_none_iff (ms : List ClassMember) :
    backward? ms = none ↔ ms.all (fun m => !m.isBackward) = true := by
  induction ms with
  | nil => simp [backward?]
  | cons m ms ih => cases h : m.isBackward <;> simp_all [backward?]

/-- A glob is free of faults exactly if no class has a backward range. -/
theorem Glob.fault?_eq_none_iff (anchored : Bool) (g : Glob) :
    g.fault? anchored = none ↔ g.isSound = true := by
  rw [fault?, Option.map_eq_none_iff]
  induction g with
  | nil => simp [backward?, isSound]
  | cons token g ih =>
    cases token with
    | oneOf cls =>
      cases h : CharClass.backward? cls.members with
      | none =>
        have := (CharClass.backward?_eq_none_iff cls.members).mp h
        simp_all [backward?, isSound]
      | some r =>
        have hn : (cls.members.all fun m => !m.isBackward) = false := by
          rw [← Bool.not_eq_true, ← CharClass.backward?_eq_none_iff, h]
          simp
        simp [backward?, isSound, h, hn]
    | _ => simpa [backward?, isSound] using ih

namespace GlobFault

/-- The number of line feeds in a text, that is the line its end stands in, counted from zero. -/
def lineOf (t : Text) : Nat := t.count '\n'

/-- The number of characters after the last line feed. -/
def columnOf (t : Text) : Nat := (t.reverse.takeWhile (· != '\n')).length

/-- As many blanks as asked for. -/
def blanks (n : Nat) : String := String.ofList (List.replicate n ' ')

/-- A number in `width` places, blanks before it. -/
def padded (width n : Nat) : String :=
  let digits := ToString.toString n
  blanks (width - digits.length) ++ digits

/-- The carets below a range that starts at a column. -/
def carets (column width : Nat) : String :=
  blanks column ++ String.ofList (List.replicate (max 1 width) '^')

/-- The line that frames an expression of several lines. -/
def frame : String := String.ofList (List.replicate 79 '~')

/-- A line of an expression as it is shown, without the carriage return that ends it. -/
def shownLine (line : Text) : Text := if line.endsWith '\r' then line.dropLast else line

/-- The lines of an expression of several lines, numbered, with the underline of a range below its
line. -/
def numberedLines (width : Nat) (marked : Option (Nat × String)) :
    Nat → List Text → List String
  | _, [] => []
  | n, line :: lines =>
    let shown := if lines.isEmpty then line else shownLine line
    let below := match marked with
      | some (m, underline) => if m = n then [blanks (width + 2) ++ underline] else []
      | none => []
    (padded width n ++ ": " ++ shown.toString) :: below ++ numberedLines width marked (n + 1) lines

/-- The expression with the range underlined. An expression of several lines is framed and its
lines are numbered; a range that crosses a line feed is described below the frame instead. -/
def picture (fault : GlobFault) : List String :=
  let lines := pieces (· == '\n') fault.expression
  let first := lineOf fault.before + 1
  let column := columnOf fault.before
  let upToEnd := fault.before ++ fault.range
  let last := lineOf upToEnd + 1
  let underline := carets column fault.range.length
  if lines.length = 1 then ["    " ++ fault.expression.toString, "    " ++ underline]
  else
    let width := (ToString.toString lines.length).length
    if first = last then
      [frame] ++ numberedLines width (some (first, underline)) 1 lines ++ [frame]
    else
      let start := column + 1
      let stop := columnOf upToEnd
      [frame] ++ numberedLines width none 1 lines ++ [frame] ++
        [s!"on line {first} (column {start}) through line {last} (column {stop})"]

/-- **The report on a fault**, line by line. -/
def message (fault : GlobFault) : String :=
  "\n".intercalate (["regex parse error:"] ++ fault.picture ++
    ["error: invalid character class range, the start must be <= the end"])

end GlobFault

end PathFilter
