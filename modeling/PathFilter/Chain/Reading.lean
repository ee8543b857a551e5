import PathFilter.Chain.Script
import PathFilter.FileTree.Unread
import PathFilter.Text.Lines

/-!
# Reading rules into a chain

A rule line adds a rule, reads a rule file in its place, declares a rule file for the directories
below, or clears the rules. Rule files may name rule files in turn. A file that is being read
cannot be read again by one of its own lines; since a snapshot holds finitely many files, the
nesting ends.

## Main definitions

* `lineScript`: what a line does, given the files that are being read
* `mergeScript`: what reading a rule file does
* `Chain.read`, `Chain.merge`: a line read into a chain, and a rule file
* `Chain.ofLines`: the chain of some lines
* `Chain.descend`: the chain of a directory with the rules of its own rule file

## Main results

* `lineScript_clear`: a line that begins with `clear` clears the rules, whatever follows
* `lineScript_error`, `lineScript_rule`, `lineScript_dirMerge`, `lineScript_merge`: what the other
  lines do
* `ownScript_of_mem`, `ownScript_of_not_mem`: a rule file is read unless it is being read already
* `line_induction`: what is true of a merge line if it is true of the lines of its file
-/

namespace PathFilter

/-- Whether a line clears the rules. -/
def isClearing (line : Text) : Bool := line == ['!'] || "clear".toList.isPrefixOf line

/-- The script that goes on if something succeeds. -/
def Script.ofExcept {α : Type} (x : Except FilterError α) (f : α → Script) : Script :=
  match x with
  | .error e => .fail e
  | .ok a => f a

/-- The script that adds a rule if it can be built. -/
def Script.ofRule (x : Except FilterError Rule) (rest : Script) : Script :=
  .ofExcept x fun r => .edit (.add r) rest

/-- A script that isolates the chain first, if asked to. -/
def Script.isolating (first : Bool) (rest : Script) : Script :=
  if first then .edit .isolate rest else rest

/-- The script that excludes a file from the transfer, if asked to. -/
def Script.hiding (hide : Bool) (file : Text) : Script :=
  if hide then .ofRule (Rule.excluding file) .done else .done

/-- The script of the lines of a rule file. Under an enforced polarity every line is a path
expression; otherwise `nested` gives the script of a line. A file that is not text to its end fails
behind its last line. -/
def contentScript (directory path : Text) (bytes : List UInt8) (enforced : Option Polarity)
    (nested : Text → Script) : Script :=
  let content := FileLines.ofBytes bytes
  let lines := content.rules.map fun l =>
    match enforced with
    | some p => Script.ofRule (Rule.build p .ordinary l l) .done
    | none => nested l
  (Script.concat lines).append
    (if content.intact then .done else .fail (.unreadable path directory .notText))

/-- The script of a rule file while others are being read, none of which it may be. For a file that
is free to be read, `nested` gives the scripts of its lines. -/
def fileScript (files : FileTree) (directory : Text) (reading : List Text) (path : Text)
    (enforced : Option Polarity)
    (nested : (file : Text) → file ∈ files.unread reading → Text → Script) : Script :=
  match h : files.read path with
  | .error failure => .fail (.unreadable path directory failure)
  | .ok (canonical, bytes) =>
    -- files are told apart by their canonical paths, so that a link is no way around this
    if hr : canonical ∈ reading then .fail (.recursive path)
    else
      contentScript directory path bytes enforced
        (nested canonical (FileTree.mem_unread_of_read h hr))

/-- **What a line does** in a directory while the files in `reading` are being read. -/
def lineScript (files : FileTree) (directory : Text) (reading : List Text) (line : Text) : Script :=
  let line := line.trim
  if isClearing line then .edit .clear .done
  else
    match readLine line with
    | .error e => .fail e
    | .ok (.rule polarity ruleClass, expression) =>
      .ofRule (Rule.build polarity ruleClass expression line) .done
    | .ok (.dirMerge options, file) =>
      .isolating options.noInherit
        (.edit (.declare ⟨file, options⟩)
          (if options.excludeSelf then .edit .hideDeclared .done else .done))
    | .ok (.merge options, file) =>
      .isolating options.noInherit
        (.merge (Path.join directory file)
          (fileScript files directory reading (Path.join directory file) options.enforced
            fun f _ l => lineScript files directory (f :: reading) l)
          (.hiding options.excludeSelf file))
termination_by (files.unread reading).length
decreasing_by exact FileTree.length_unread_lt ‹_›

/-- What the lines of a rule file do. -/
def ownScript (files : FileTree) (directory : Text) (reading : List Text) (path : Text)
    (enforced : Option Polarity) : Script :=
  fileScript files directory reading path enforced fun f _ =>
    lineScript files directory (f :: reading)

/-- **What reading a rule file does** in a directory. -/
def mergeScript (files : FileTree) (directory : Text) (reading : List Text) (file : Text)
    (options : MergeOptions) : Script :=
  .isolating options.noInherit
    (.merge (Path.join directory file)
      (ownScript files directory reading (Path.join directory file) options.enforced)
      (.hiding options.excludeSelf file))

namespace Chain

/-- **A line read into a chain.** -/
def read (files : FileTree) (c : Chain) (line : Text) : Outcome :=
  ((lineScript files c.directory [] line).run c).within c.directory

/-- **A rule file read into a chain.** Its name may hold blanks. -/
def merge (files : FileTree) (c : Chain) (file : Text) (options : MergeOptions) : Outcome :=
  ((mergeScript files c.directory [] file options).run c).within c.directory

/-- The lines read into a chain, up to the first that fails. -/
def readAll (files : FileTree) (c : Chain) : List Text → Outcome
  | [] => .idle c
  | line :: lines => (c.read files line).andThen fun c' => readAll files c' lines

/-- The chain of a first directory with the rules of some lines. -/
def ofLines (files : FileTree) (directory : Text) (lines : List Text) : Outcome :=
  (root directory).readAll files lines

/-- The chain of a directory after reading its rule file `d`. -/
def readOwn (files : FileTree) (c : Chain) (d : DirMerge) (path : Text) : Outcome :=
  let start := if d.options.noInherit then c.isolate else c
  let content := ownScript files c.directory [] path d.options.enforced
  (content.run start).andThen fun read =>
    ((Script.hiding d.options.excludeSelf d.file).run read).andThen fun hidden =>
      -- counted before the rule that hides the file, which is none of its own
      let count := read.ruleCount - start.ruleCount
      ⟨hidden.setLoaded count, [.ruleFileRead c.directory d.file count], none⟩

/-- **The chain of a directory within another.** The rules of its rule file are read, if one is
declared and there is such a file. -/
def descend (files : FileTree) (outer : Chain) (directory : Text) : Outcome :=
  let c := outer.enter directory
  match c.here.dirMerge with
  | none => .idle c
  | some d =>
    let path := Path.within directory d.file
    if files.isFile path then (c.readOwn files d path).within directory else .idle c

end Chain

/-- A line that begins with `clear` clears the rules, whatever follows. -/
theorem lineScript_clear (files : FileTree) (directory : Text) (reading : List Text) {line : Text}
    (h : isClearing line.trim = true) :
    lineScript files directory reading line = .edit .clear .done := by
  rw [lineScript]
  simp [h]

/-- A rule file that cannot be read fails. -/
theorem ownScript_of_error {files : FileTree} {directory : Text} {reading : List Text} {path : Text}
    {enforced : Option Polarity} {failure : ReadFailure} (h : files.read path = .error failure) :
    ownScript files directory reading path enforced =
      .fail (.unreadable path directory failure) := by
  unfold ownScript fileScript
  split
  · next failure' h' =>
    rw [h] at h'
    cases h'
    rfl
  · next h' =>
    rw [h] at h'
    cases h'

/-- A rule file that is being read already is refused. -/
theorem ownScript_of_mem {files : FileTree} {directory : Text} {reading : List Text}
    {path canonical : Text} {enforced : Option Polarity} {bytes : List UInt8}
    (h : files.read path = .ok (canonical, bytes)) (hr : canonical ∈ reading) :
    ownScript files directory reading path enforced = .fail (.recursive path) := by
  unfold ownScript fileScript
  split
  · next h' =>
    rw [h] at h'
    cases h'
  · next canonical' bytes' h' =>
    rw [h] at h'
    cases h'
    exact dif_pos hr

/-- Any other rule file does what its lines do while it is being read. -/
theorem ownScript_of_not_mem {files : FileTree} {directory : Text} {reading : List Text}
    {path canonical : Text} {enforced : Option Polarity} {bytes : List UInt8}
    (h : files.read path = .ok (canonical, bytes)) (hr : canonical ∉ reading) :
    ownScript files directory reading path enforced =
      contentScript directory path bytes enforced
        (lineScript files directory (canonical :: reading)) := by
  unfold ownScript fileScript
  split
  · next h' =>
    rw [h] at h'
    cases h'
  · next canonical' bytes' h' =>
    rw [h] at h'
    cases h'
    exact dif_neg hr

/-- A malformed line fails. -/
theorem lineScript_error (files : FileTree) (directory : Text) (reading : List Text) {line : Text}
    {e : FilterError} (hc : isClearing line.trim = false) (h : readLine line.trim = .error e) :
    lineScript files directory reading line = .fail e := by
  rw [lineScript]
  simp only [hc, h, Bool.false_eq_true, if_false]

/-- A rule line adds its rule if it can be built. -/
theorem lineScript_rule (files : FileTree) (directory : Text) (reading : List Text)
    {line expression : Text} {p : Polarity} {k : RuleClass} (hc : isClearing line.trim = false)
    (h : readLine line.trim = .ok (.rule p k, expression)) :
    lineScript files directory reading line =
      .ofRule (Rule.build p k expression line.trim) .done := by
  rw [lineScript]
  simp only [hc, h, Bool.false_eq_true, if_false]

/-- A dir-merge line declares its file, and excludes the file that is declared if asked to. -/
theorem lineScript_dirMerge (files : FileTree) (directory : Text) (reading : List Text)
    {line file : Text} {options : MergeOptions} (hc : isClearing line.trim = false)
    (h : readLine line.trim = .ok (.dirMerge options, file)) :
    lineScript files directory reading line =
      .isolating options.noInherit
        (.edit (.declare ⟨file, options⟩)
          (if options.excludeSelf then .edit .hideDeclared .done else .done)) := by
  rw [lineScript]
  simp only [hc, h, Bool.false_eq_true, if_false]

/-- A merge line does what reading its file does. -/
theorem lineScript_merge (files : FileTree) (directory : Text) (reading : List Text)
    {line file : Text} {options : MergeOptions} (hc : isClearing line.trim = false)
    (h : readLine line.trim = .ok (.merge options, file)) :
    lineScript files directory reading line = mergeScript files directory reading file options := by
  rw [lineScript]
  simp only [hc, h, Bool.false_eq_true, if_false]
  rfl

/-- **Induction on a line**, by what it asks for. A merge line may rely on what is true of all lines
while one more file is being read. -/
theorem line_induction (files : FileTree) {motive : List Text → Text → Prop}
    (clear : ∀ reading line, isClearing line.trim = true → motive reading line)
    (error : ∀ reading line e, isClearing line.trim = false → readLine line.trim = .error e →
      motive reading line)
    (rule : ∀ reading line p k expression, isClearing line.trim = false →
      readLine line.trim = .ok (.rule p k, expression) → motive reading line)
    (merge : ∀ reading line options file, isClearing line.trim = false →
      readLine line.trim = .ok (.merge options, file) →
      (∀ f ∈ files.unread reading, ∀ l, motive (f :: reading) l) → motive reading line)
    (dirMerge : ∀ reading line options file, isClearing line.trim = false →
      readLine line.trim = .ok (.dirMerge options, file) → motive reading line)
    (reading : List Text) (line : Text) : motive reading line := by
  cases hc : isClearing line.trim with
  | true => exact clear _ _ hc
  | false =>
    rcases hd : readLine line.trim with e | ⟨⟨p, k⟩ | options | options, file⟩
    · exact error _ _ _ hc hd
    · exact rule _ _ _ _ _ hc hd
    · refine merge _ _ _ _ hc hd fun f _ l => ?_
      exact line_induction files clear error rule merge dirMerge (f :: reading) l
    · exact dirMerge _ _ _ _ hc hd
termination_by (files.unread reading).length
decreasing_by exact FileTree.length_unread_lt ‹_›

end PathFilter
