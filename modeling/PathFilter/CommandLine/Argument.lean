import PathFilter.Text.Blank

/-!
# Command lines

A command line is read argument by argument. An argument that begins with two dashes names an
option, whose value follows behind an equals sign or in the next argument; one that begins with a
single dash is a cluster of option letters, the last of which may have a value; `--` makes the
arguments after it plain; and a plain argument is the directory to list. Reading stops at the first
fault, and at the first request for help or for the version.

## Main definitions

* `Occurrence`: an option with its value, or the directory, as it occurs on a command line
* `ValueOption`: the options with a value
* `CommandLine.scan`: the occurrences of a command line
* `CommandLine.Stop`: why a command line asks for no listing

## Main results

* `CommandLine.scan_plain`: behind `--` every argument is plain
-/

namespace PathFilter

/-- **What occurs on a command line.** -/
inductive Occurrence where
  /-- A rule line. -/
  | filter (line : Text)
  /-- A path expression to include. -/
  | include (pattern : Text)
  /-- A path expression to exclude. -/
  | exclude (pattern : Text)
  /-- A file of path expressions to include. -/
  | includeFrom (file : Text)
  /-- A file of path expressions to exclude. -/
  | excludeFrom (file : Text)
  /-- The request to read the usual rule file in every directory. -/
  | usualRuleFile
  /-- The request to check for deletion too. -/
  | delete
  /-- The request for more diagnostics. -/
  | verbose
  /-- A list of info flags. -/
  | info (list : Text)
  /-- A list of debug flags. -/
  | debug (list : Text)
  /-- The request for the counts. -/
  | stats
  /-- The directory to list. -/
  | directory (path : Text)
deriving DecidableEq, Repr

/-- The options with a value. -/
inductive ValueOption where
  | filter
  | include
  | exclude
  | includeFrom
  | excludeFrom
  | info
  | debug
deriving DecidableEq, Repr

namespace ValueOption

/-- Whether the next argument is the value whatever it looks like. -/
def takesAnything : ValueOption → Bool
  | .filter => true
  | .include => true
  | .exclude => true
  | _ => false

/-- Whether the value is the name of a file, which is not empty. -/
def isFile : ValueOption → Bool
  | .includeFrom => true
  | .excludeFrom => true
  | _ => false

/-- The occurrence of an option with a value. -/
def occurrence : ValueOption → Text → Occurrence
  | .filter, v => .filter v
  | .include, v => .include v
  | .exclude, v => .exclude v
  | .includeFrom, v => .includeFrom v
  | .excludeFrom, v => .excludeFrom v
  | .info, v => .info v
  | .debug, v => .debug v

end ValueOption

namespace CommandLine

/-- The greatest number of occurrences of an option that is counted. -/
def maxCount : Nat := 255

/-- Why a command line asks for no listing. -/
inductive Stop where
  /-- It is faulty. -/
  | misuse
  /-- It asks for help. -/
  | help
  /-- It asks for the version. -/
  | version
deriving DecidableEq, Repr

/-- What an option name or letter stands for. -/
inductive Meaning where
  /-- An option without a value. -/
  | plain (o : Occurrence)
  /-- An option with a value. -/
  | valued (o : ValueOption)
  /-- A request that ends the reading. -/
  | stop (s : Stop)
deriving DecidableEq, Repr

/-- The meaning of a long option. -/
def ofName? (name : Text) : Option Meaning :=
  [("filter", Meaning.valued .filter), ("include", .valued .include),
    ("exclude", .valued .exclude), ("include-from", .valued .includeFrom),
    ("exclude-from", .valued .excludeFrom), ("info", .valued .info), ("debug", .valued .debug),
    ("delete", .plain .delete), ("verbose", .plain .verbose), ("stats", .plain .stats),
    ("help", .stop .help), ("version", .stop .version)].findSome? fun (n, m) =>
      if n.toList = name then some m else none

/-- The meaning of an option letter. -/
def ofLetter? : Char → Option Meaning
  | 'f' => some (.valued .filter)
  | 'F' => some (.plain .usualRuleFile)
  | 'v' => some (.plain .verbose)
  | 'h' => some (.stop .help)
  | 'V' => some (.stop .version)
  | _ => none

/-- Whether an occurrence may not stand beside another one. The counts and the check for deletion
are asked for once, and one directory is listed. -/
def excludesAnother (o other : Occurrence) : Bool :=
  match o, other with
  | .delete, .delete => true
  | .stats, .stats => true
  | .directory _, .directory _ => true
  | _, _ => false

/-- **One more occurrence**, provided that the others allow it. -/
def push (seen : List Occurrence) (o : Occurrence) : Except Stop (List Occurrence) :=
  if seen.any (excludesAnother o) then .error .misuse else .ok (seen ++ [o])

/-- The occurrence of an option with a value, which is refused if it has to name a file and is
empty. -/
def pushValue (seen : List Occurrence) (o : ValueOption) (v : Text) :
    Except Stop (List Occurrence) :=
  if o.isFile && v.isEmpty then .error .misuse else push seen (o.occurrence v)

/-- One more plain argument. -/
def pushPlain (seen : List Occurrence) (arg : Text) : Except Stop (List Occurrence) :=
  if arg = [] then .error .misuse else push seen (.directory arg)

/-- Whether an argument looks like an option. -/
def looksLikeOption (arg : Text) : Bool := arg.head? == some '-' && arg != ['-']

/-- The occurrences of a cluster of option letters, and the option that needs the next argument for
its value. -/
def cluster (seen : List Occurrence) : Text → Except Stop (List Occurrence × Option ValueOption)
  | [] => .ok (seen, none)
  | c :: rest =>
    match ofLetter? c with
    | none => .error .misuse
    | some (.stop s) => .error s
    | some (.plain o) => (push seen o).bind fun seen => cluster seen rest
    | some (.valued o) =>
      match rest with
      | [] => .ok (seen, some o)
      -- an equals sign between a letter and its value is not part of the value
      | '=' :: v => (pushValue seen o v).map fun seen => (seen, none)
      | v => (pushValue seen o v).map fun seen => (seen, none)

/-- The occurrence of a long option, and the option that needs the next argument for its value. -/
def long (seen : List Occurrence) (text : Text) :
    Except Stop (List Occurrence × Option ValueOption) :=
  let name := text.takeWhile (· != '=')
  let value := text.dropWhile (· != '=')
  match ofName? name, value with
  | some (.valued o), [] => .ok (seen, some o)
  | some (.valued o), _ :: v => (pushValue seen o v).map fun seen => (seen, none)
  | some (.plain o), [] => (push seen o).map fun seen => (seen, none)
  | some (.stop s), [] => .error s
  | _, _ => .error .misuse

/-- The occurrences of plain arguments. -/
def plainArguments (seen : List Occurrence) : List Text → Except Stop (List Occurrence)
  | [] => .ok seen
  | arg :: args => (pushPlain seen arg).bind fun seen => plainArguments seen args

/-- The occurrences of an argument that looks like an option. -/
def optionArgument (seen : List Occurrence) (arg : Text) :
    Except Stop (List Occurrence × Option ValueOption) :=
  match arg with
  | '-' :: '-' :: text => long seen text
  | '-' :: text => cluster seen text
  | _ => .error .misuse

/-- **The occurrences of some arguments** behind those seen so far. -/
def scan (seen : List Occurrence) : List Text → Except Stop (List Occurrence)
  | [] => .ok seen
  | arg :: args =>
    if arg = ['-', '-'] then plainArguments seen args
    else if looksLikeOption arg then
      match optionArgument seen arg with
      | .error s => .error s
      | .ok (seen, none) => scan seen args
      | .ok (seen, some o) =>
        match args with
        | [] => .error .misuse
        | v :: args =>
          if o.takesAnything || !looksLikeOption v then
            match pushValue seen o v with
            | .error s => .error s
            | .ok seen => scan seen args
          else .error .misuse
    else
      match pushPlain seen arg with
      | .error s => .error s
      | .ok seen => scan seen args

/-- Behind `--` every argument is plain. -/
theorem scan_plain (seen : List Occurrence) (args : List Text) :
    scan seen (['-', '-'] :: args) = plainArguments seen args := by
  rw [scan, if_pos rfl]

end CommandLine

end PathFilter
