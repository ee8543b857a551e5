import PathFilter.CommandLine.Argument

/-!
# Sources of rules

The first rule that matches decides, so the options that give rules count in the order in which they
were given. The parser of the command line keeps the values of each option together, and for an
option without a value their number only. The order is found again by going through the arguments a
second time: they tell the kind of each option, and each kind gives its values one by one.

## Main definitions

* `RuleSource`, `SourceKind`: an option that gives rules, and its kind
* `SourceKind.values`: what the parser keeps of the options of a kind
* `SourceKind.locate`: the kinds of the options, in the order of the arguments
* `RuleSource.interleave`: values in the order of their kinds
* `RuleSource.collect`: the sources of a command line
-/

namespace PathFilter

/-- **An option that gives rules.** -/
inductive RuleSource where
  /-- A rule line. -/
  | filter (line : Text)
  /-- A path expression to include. -/
  | include (pattern : Text)
  /-- A path expression to exclude. -/
  | exclude (pattern : Text)
  /-- A file of path expressions to include. -/
  | includeFrom (file : Text)
  /-- A file of path expressions to exclude. -/
  | excludeFrom (file : Text)
  /-- The request for the usual rule file, with the number of such requests before it. -/
  | usualRuleFile (earlier : Nat)
deriving DecidableEq, Repr

/-- The kinds of options that give rules. -/
inductive SourceKind where
  | filter
  | include
  | exclude
  | includeFrom
  | excludeFrom
  | usualRuleFile
deriving DecidableEq, Repr

namespace RuleSource

/-- The kind of a source. -/
def kind : RuleSource → SourceKind
  | .filter _ => .filter
  | .include _ => .include
  | .exclude _ => .exclude
  | .includeFrom _ => .includeFrom
  | .excludeFrom _ => .excludeFrom
  | .usualRuleFile _ => .usualRuleFile

/-- The source that an option with a value gives. -/
def ofValue? : Occurrence → Option RuleSource
  | .filter line => some (.filter line)
  | .include pattern => some (.include pattern)
  | .exclude pattern => some (.exclude pattern)
  | .includeFrom file => some (.includeFrom file)
  | .excludeFrom file => some (.excludeFrom file)
  | _ => none

end RuleSource

namespace SourceKind

/-- **What the parser keeps of the options of a kind**: their values in order. The requests for the
usual rule file are counted, up to the greatest count, and numbered. -/
def values (os : List Occurrence) : SourceKind → List RuleSource
  | usualRuleFile =>
    (List.range (min (os.count .usualRuleFile) CommandLine.maxCount)).map .usualRuleFile
  | kind => (os.filterMap RuleSource.ofValue?).filter (·.kind == kind)

/-- The kind of a long option. -/
def ofName? (name : Text) : Option SourceKind :=
  [("filter", filter), ("include", .include), ("exclude", exclude), ("include-from", includeFrom),
    ("exclude-from", excludeFrom)].findSome? fun (n, kind) =>
      if n.toList = name then some kind else none

/-- The long options that have a value but give no rules. -/
def otherNames : List Text := ["info".toList, "debug".toList]

/-- The kinds of the options in a cluster of letters, and whether the next argument is a value. What
follows the letter of a rule line is the line. -/
def inCluster : Text → List SourceKind × Bool
  | [] => ([], false)
  | 'F' :: rest => (usualRuleFile :: (inCluster rest).1, (inCluster rest).2)
  | 'f' :: rest => ([filter], rest.isEmpty)
  | _ :: rest => inCluster rest

/-- The kind of a long option, if it gives rules, and whether the next argument is its value. -/
def inLong (text : Text) : List SourceKind × Bool :=
  let name := text.takeWhile (· != '=')
  let isSeparate := !text.contains '='
  match ofName? name with
  | some kind => ([kind], isSeparate)
  | none => ([], isSeparate && otherNames.contains name)

/-- The kinds of the options in an argument, and whether the next argument is a value. -/
def inArgument : Text → List SourceKind × Bool
  | '-' :: '-' :: text => inLong text
  | '-' :: letters => inCluster letters
  | _ => ([], false)

/-- **The kinds of the options among some arguments**, in order, where `isValue` tells whether the
first argument is the value of an option before it. -/
def locate (isValue : Bool) : List Text → List SourceKind
  | [] => []
  | arg :: args =>
    if isValue then locate false args
    else if arg = ['-', '-'] then []
    else (inArgument arg).1 ++ locate (inArgument arg).2 args

end SourceKind

namespace RuleSource

/-- Values kept by kind, without the first one of a kind. -/
def dropFirst (values : SourceKind → List RuleSource) (kind : SourceKind) :
    SourceKind → List RuleSource :=
  fun k => if k = kind then (values k).tail else values k

/-- **Values in the order of their kinds**: for every kind the next of its values, if there is one
left. -/
def interleave (values : SourceKind → List RuleSource) : List SourceKind → List RuleSource
  | [] => []
  | kind :: kinds => (values kind).head?.toList ++ interleave (dropFirst values kind) kinds

/-- **The sources of a command line** with some arguments, in which the parser found some
occurrences. -/
def collect (args : List Text) (os : List Occurrence) : List RuleSource :=
  interleave (SourceKind.values os) (SourceKind.locate false args)

end RuleSource

end PathFilter
