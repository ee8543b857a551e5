import PathFilter.Glob.Match
import PathFilter.Glob.Fault

/-!
# Path expressions

The path expression of a rule is a literal path or a glob with three markers: a `!` in front turns
the match round, a `/` after it ties the expression to the root of the walk, and a `/` at the end
restricts it to directories. Candidates have the form `./directory/file`, so a tied expression is
matched as `./` followed by its core.

A literal path matches whole names: one that is tied matches itself and all that lies below it, any
other matches the end of a candidate.

## Main definitions

* `PathExpression`: an expression without its markers, and which of them it had
* `PathExpression.ofText`, `PathExpression.toText`: reading and writing the markers
* `PathExpression.subject`: a candidate in the form an expression is matched with
* `PathExpression.matches?`: whether an expression matches a candidate, if it applies to it

## Main results

* `PathExpression.matches?_eq_none_iff`: an expression for directories does not apply to files
-/

namespace PathFilter

/-- **A path expression**, its markers apart. -/
structure PathExpression where
  /-- Whether a match is turned round. -/
  negated : Bool
  /-- Whether the expression is tied to the root of the walk. -/
  anchored : Bool
  /-- Whether the expression is for directories only. -/
  directoryOnly : Bool
  /-- The expression without its markers. -/
  core : Text
deriving DecidableEq, Repr

namespace PathExpression

/-- An expression read from its text: the slash at the end goes first, then the `!` in front, then
the slash in front. -/
def ofText (text : Text) : PathExpression :=
  let directoryOnly := text.endsWith '/'
  let marked := if directoryOnly then text.dropLast else text
  let negated := marked.head? == some '!'
  let tied := if negated then marked.tail else marked
  let anchored := tied.head? == some '/'
  ⟨negated, anchored, directoryOnly, if anchored then tied.tail else tied⟩

/-- An expression as it is written. -/
def toText (e : PathExpression) : Text :=
  (if e.negated then ['!'] else []) ++ (if e.anchored then ['/'] else []) ++ e.core ++
    (if e.directoryOnly then ['/'] else [])

/-- The path that candidates are matched with. -/
def path (e : PathExpression) : Text :=
  (if e.anchored then ['.', '/'] else []) ++ e.core ++ (if e.directoryOnly then ['/'] else [])

/-- Whether the expression is a glob. -/
def isGlob (e : PathExpression) : Bool := Glob.isGlob e.path

/-- The glob of the expression. -/
def glob (e : PathExpression) : Glob := Glob.parse e.path

/-- The fault of the expression, which only a glob can have. -/
def fault? (e : PathExpression) : Option GlobFault :=
  if e.isGlob then e.glob.fault? e.anchored else none

/-- Whether a literal path is the candidate or a directory above it. -/
def leads (path candidate : Text) : Bool :=
  candidate == path || (path ++ ['/']).isPrefixOf candidate

/-- Whether a literal path is the candidate or its last names. -/
def trails (path candidate : Text) : Bool :=
  candidate == path || ('/' :: path).isSuffixOf candidate

/-- Whether the expression matches a candidate in the form of `subject`, its `!` set aside. -/
def covers (e : PathExpression) (subject : Text) : Bool :=
  if e.isGlob then e.glob.accepts e.anchored subject
  else if e.anchored then leads e.path subject
  else trails e.path subject

/-- Whether the expression applies to entries of a kind. -/
def appliesTo (e : PathExpression) (isDirectory : Bool) : Bool := isDirectory || !e.directoryOnly

/-- **The form of a candidate that the expression is matched with**: with a slash at the end for an
expression for directories, and otherwise without one, unless nothing else is left. -/
def subject (e : PathExpression) (candidate : Text) : Text :=
  if e.directoryOnly then
    if candidate.endsWith '/' then candidate else candidate ++ ['/']
  else if candidate.endsWith '/' && candidate != ['/'] then candidate.dropLast
  else candidate

/-- **Whether the expression matches a candidate**; `none` if it does not apply to it. -/
def matches? (e : PathExpression) (candidate : Text) (isDirectory : Bool) : Option Bool :=
  if e.appliesTo isDirectory then some (e.covers (e.subject candidate) != e.negated) else none

/-- An expression for directories does not apply to files, and every other one applies to all. -/
theorem matches?_eq_none_iff (e : PathExpression) (candidate : Text) (isDirectory : Bool) :
    e.matches? candidate isDirectory = none ↔ e.directoryOnly = true ∧ isDirectory = false := by
  cases isDirectory <;> cases h : e.directoryOnly <;> simp [matches?, appliesTo, h]

end PathExpression

end PathFilter
