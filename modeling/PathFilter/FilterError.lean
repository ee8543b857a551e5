import PathFilter.FileTree.Failure
import PathFilter.Glob.Fault

/-!
# Errors of reading rules

A rule line can be malformed, its pattern can be faulty, and a rule file it names can be unreadable
or be read already. Each error keeps its cause; the wording is made from it.

## Main definitions

* `LineFault`: what is wrong with a malformed line
* `FilterError`: the errors, with the line, pattern or file they are about
* `FilterError.isResource`: whether the error is about a file rather than about the text of a rule
* `FilterError.inDirectory`: a malformed line together with the directory it was read for
* `FilterError.message`: the wording

## Main results

* `FilterError.inDirectory_inDirectory`: the first directory given to an error stays
-/

namespace PathFilter

/-- What is wrong with a rule line. -/
inductive LineFault where
  /-- The line is not made of two fields, or its first field asks for nothing. -/
  | format
  /-- The path expression is empty without its markers. -/
  | noExpression
  /-- A merge directive stands where only a rule may stand. -/
  | mergeDirective
  /-- A merge directive carries the modifier `w`. -/
  | unsupported
  /-- A modifier of merge directives stands before any of them. -/
  | misplaced (c : Char)
  /-- The character is no modifier. -/
  | unknown (c : Char)
  /-- The modifiers contradict each other. -/
  | contradiction
deriving DecidableEq, Repr

/-- The wording of what is wrong with a line. -/
def LineFault.message : LineFault → String
  | format =>
    "invalid format: should be '<+|-|P|R|merge|dir-merge>[,<modifier>] <path-expression>'"
  | noExpression => "missing a path expression"
  | mergeDirective => "merge directives can only be read by a filter scope"
  | unsupported => "the modifier 'w' is not implemented"
  | misplaced c => "modifier '" ++ c.toString ++ "' is only valid after merge or dir-merge"
  | unknown c => "unknown modifier '" ++ c.toString ++ "'"
  | contradiction => "invalid combination of modifiers"

/-- **The errors of reading rules.** -/
inductive FilterError where
  /-- A rule line that is no rule, and the directory whose rules it was read for. -/
  | malformed (line : Text) (directory : Option Text) (fault : LineFault)
  /-- A path expression with a faulty glob. -/
  | faultyPattern (path : Text) (fault : GlobFault)
  /-- A rule file that cannot be read, and the directory that asked for it. -/
  | unreadable (file directory : Text) (failure : ReadFailure)
  /-- A rule file that is being read already. -/
  | recursive (file : Text)
deriving DecidableEq, Repr

namespace FilterError

/-- Whether the error is about a rule file and not about the text of a rule. -/
def isResource : FilterError → Bool
  | malformed .. | faultyPattern .. => false
  | unreadable .. | recursive .. => true

/-- The rule line the error is about. -/
def line? : FilterError → Option Text
  | malformed line .. => some line
  | _ => none

/-- The error with the directory it arose in, unless it names one already. -/
def inDirectory (directory : Text) : FilterError → FilterError
  | malformed line none fault => malformed line (some directory) fault
  | e => e

/-- The first directory given to an error stays. -/
theorem inDirectory_inDirectory (d d' : Text) (e : FilterError) :
    (e.inDirectory d).inDirectory d' = e.inDirectory d := by
  cases e with
  | malformed line directory fault => cases directory <;> rfl
  | _ => rfl

@[simp] theorem isResource_inDirectory (d : Text) (e : FilterError) :
    (e.inDirectory d).isResource = e.isResource := by
  cases e with
  | malformed line directory fault => cases directory <;> rfl
  | _ => rfl

@[simp] theorem line?_inDirectory (d : Text) (e : FilterError) :
    (e.inDirectory d).line? = e.line? := by
  cases e with
  | malformed line directory fault => cases directory <;> rfl
  | _ => rfl

/-- The wording of an error without the report on a faulty pattern. -/
def summary : FilterError → String
  | malformed line directory fault =>
    let place := match directory with
      | some d => " in " ++ d.toString
      | none => ""
    "failed to parse filter rule '" ++ line.toString ++ "'" ++ place ++ ": " ++ fault.message
  | faultyPattern path _ => "failed to compile filter pattern '" ++ path.toString ++ "'"
  | unreadable file directory failure =>
    "impossible to parse filter file '" ++ file.toString ++ "' for " ++ directory.toString ++
      ": " ++ failure.message
  | recursive file => "recursive filter merge detected for '" ++ file.toString ++ "'"

/-- **The wording of an error.** -/
def message : FilterError → String
  | e@(faultyPattern _ fault) => e.summary ++ ": " ++ fault.message
  | e => e.summary

end FilterError

end PathFilter
