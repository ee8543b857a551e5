import Mathlib.Data.List.Chain
import PathFilter.Proofs.Chain.Obstacle

/-!
# The place that an error names

A change to a chain that fails stops at an obstacle, and the rule files that led to it asked for one
another. The error names that place: the line that was rejected or the file that cannot be read, and
the directory whose rules are being read, however deeply the files are nested.

## Main definitions

* `AsksFor`, `AskedWithin`: a line and a rule file ask for another rule file
* `Change.StopsAt`: where a change stops

## Main results

* `Stops.isNested`: the files that led to an obstacle asked for one another
* `Stops.line_mem`, `Stops.head?_of_unread`: the obstacle is a line of the innermost file, or that
  file itself
* `Change.failure_names_place`: the error of a change names the place where it stops
-/

namespace PathFilter

/-! ## The files that led to an obstacle -/

/-- Whether a line asks for the rule file at a path to be read in its place. -/
def AsksFor (directory line path : Text) : Prop :=
  ∃ options name, readLine line = .ok (.merge options, name) ∧ path = Path.join directory name

/-- Whether a line of one rule file asks for another one. -/
def AskedWithin (files : FileTree) (directory path outer : Text) : Prop :=
  ∃ canonical bytes, files.read outer = .ok (canonical, bytes) ∧
    ∃ l ∈ (FileLines.ofBytes bytes).rules, AsksFor directory l path

/-- Whether what is read at a place asks for the rule file at a path. -/
def Task.AsksFor (directory path : Text) : Task → Prop
  | line l => PathFilter.AsksFor directory l.trim path
  | expression .. => False
  | file p _ => path = p
  | merge p _ _ => path = p

/-- The lines of a rule file are trimmed. -/
theorem FileLines.trim_of_mem_rules {file : FileLines} {l : Text} (h : l ∈ file.rules) :
    l.trim = l := by
  obtain ⟨raw, -, rfl⟩ := List.mem_map.mp (List.mem_of_mem_filter h)
  exact Text.trim_trim raw

namespace Stops

variable {files : FileTree} {directory : Text} {reading : List Text} {c : Chain} {task : Task}
  {asked : List Text} {obstacle : Obstacle}

/-- **The files that led to an obstacle asked for one another**: the outermost is asked for by what
is read, and each of the others by a line of the file around it. -/
theorem isNested (h : Stops files directory reading c task asked obstacle) :
    (∀ path ∈ asked.getLast?, task.AsksFor directory path) ∧
      asked.IsChain (AskedWithin files directory) := by
  induction h with
  | line => exact ⟨by simp, .nil⟩
  | expression => exact ⟨by simp, .nil⟩
  | declared => exact ⟨by simp, .nil⟩
  | hidden => exact ⟨by simp, .nil⟩
  | asked h _ ih =>
    refine ⟨fun path hpath => ?_, ih.2⟩
    exact ⟨_, _, h, ih.1 path hpath⟩
  | merged _ ih => exact ih
  | unopened => exact ⟨by simp [Task.AsksFor], .singleton _⟩
  | again => exact ⟨by simp [Task.AsksFor], .singleton _⟩
  | cut => exact ⟨by simp [Task.AsksFor], .singleton _⟩
  | @within _ _ path canonical enforced bytes before after l asked _ h _ hlines _ _ ih =>
    refine ⟨by simp [Task.AsksFor], ?_⟩
    refine List.isChain_append.mpr ⟨ih.2, .singleton _, fun inner hinner outer houter => ?_⟩
    obtain rfl : path = outer := Option.some.inj houter
    have hmem : l ∈ (FileLines.ofBytes bytes).rules := by simp [hlines]
    have hasks := ih.1 inner hinner
    cases enforced with
    | some p => exact hasks.elim
    | none =>
      refine ⟨canonical, bytes, h, l, hmem, ?_⟩
      rw [← FileLines.trim_of_mem_rules hmem]
      exact hasks

/-- **A rejected line is one of the innermost file**, or else it is what is read. -/
theorem line_mem {text : Text} (h : Stops files directory reading c task asked (.line text)) :
    (asked = [] ∧ ((∃ l, task = .line l ∧ text = l.trim) ∨ ∃ p, task = .expression p text)) ∨
      ∃ path outer canonical bytes, asked = path :: outer ∧
        files.read path = .ok (canonical, bytes) ∧ text ∈ (FileLines.ofBytes bytes).rules := by
  generalize hobstacle : Obstacle.line text = obstacle at h
  induction h with
  | line =>
    cases hobstacle
    exact .inl ⟨rfl, .inl ⟨_, rfl, rfl⟩⟩
  | expression =>
    cases hobstacle
    exact .inl ⟨rfl, .inr ⟨_, rfl⟩⟩
  | declared => cases hobstacle
  | hidden => cases hobstacle
  | unopened => cases hobstacle
  | again => cases hobstacle
  | cut => cases hobstacle
  | asked _ hstop ih =>
    rcases ih hobstacle with ⟨-, ⟨l, h, -⟩ | ⟨p, h⟩⟩ | hinner
    · cases h
    · cases h
    · exact .inr hinner
  | merged _ ih =>
    rcases ih hobstacle with ⟨-, ⟨l, h, -⟩ | ⟨p, h⟩⟩ | hinner
    · cases h
    · cases h
    · exact .inr hinner
  | @within _ _ path canonical enforced bytes before after l _ _ h _ hlines _ _ ih =>
    right
    have hmem : l ∈ (FileLines.ofBytes bytes).rules := by simp [hlines]
    rcases ih hobstacle with ⟨rfl, hown⟩ | ⟨inner, outer, canonical', bytes', rfl, hread, htext⟩
    · refine ⟨path, [], canonical, bytes, rfl, h, ?_⟩
      cases enforced with
      | none =>
        obtain ⟨l', hl', rfl⟩ | ⟨p, hp⟩ := hown
        · cases hl'
          rwa [FileLines.trim_of_mem_rules hmem]
        · cases hp
      | some p =>
        obtain ⟨l', hl', -⟩ | ⟨q, hq⟩ := hown
        · cases hl'
        · cases hq
          exact hmem
    · exact ⟨inner, outer ++ [path], canonical', bytes', rfl, hread, htext⟩

/-- **A file that cannot be read is the innermost one**, and cannot be opened or is not text to its
end. -/
theorem head?_of_unread {path : Text} {failure : ReadFailure}
    (h : Stops files directory reading c task asked (.unread path failure)) :
    asked.head? = some path ∧ (files.read path = .error failure ∨
      ∃ canonical bytes, files.read path = .ok (canonical, bytes) ∧
        (FileLines.ofBytes bytes).intact = false ∧ failure = .notText) := by
  generalize hobstacle : Obstacle.unread path failure = obstacle at h
  induction h with
  | line => cases hobstacle
  | expression => cases hobstacle
  | declared => cases hobstacle
  | hidden => cases hobstacle
  | again => cases hobstacle
  | asked _ _ ih => exact ih hobstacle
  | merged _ ih => exact ih hobstacle
  | unopened h =>
    cases hobstacle
    exact ⟨rfl, .inl h⟩
  | cut h _ _ hintact =>
    cases hobstacle
    exact ⟨rfl, .inr ⟨_, _, h, hintact, rfl⟩⟩
  | within _ _ _ _ _ ih =>
    obtain ⟨hhead, hread⟩ := ih hobstacle
    exact ⟨by rw [List.head?_append, hhead]; rfl, hread⟩

end Stops

/-! ## Changes -/

namespace Change

/-- The chain that a change is made to: that of a directory is a new one. -/
def start (c : Chain) : Change → Chain
  | directory d => c.enter d
  | _ => c

/-- What a change reads, if it reads anything. -/
def task? (files : FileTree) (c : Chain) : Change → Option Task
  | line l => some (.line l)
  | file f options => some (.merge (Path.join c.directory f) f options)
  | directory d =>
    c.here.dirMerge.bind fun declared =>
      if files.isFile (Path.within d declared.file) then
        some (.merge (Path.within d declared.file) declared.file declared.options)
      else none

/-- **Where a change stops.** -/
def StopsAt (files : FileTree) (c : Chain) (change : Change) (asked : List Text)
    (obstacle : Obstacle) : Prop :=
  ∃ task ∈ change.task? files c,
    Stops files (change.start c).directory [] (change.start c) task asked obstacle

/-- The rule file of a directory fails as it does when it is asked for by its name. -/
theorem failure_readOwn (files : FileTree) (c : Chain) (d : DirMerge) (path : Text) :
    (c.readOwn files d path).failure =
      (((Task.merge path d.file d.options).script files c.directory []).run c).failure := by
  rw [Task.failure_run_merge, Chain.readOwn, Outcome.failure_andThen, Outcome.failure_andThen]
  simp only [Option.or_none]
  rfl

/-- A change fails as what it reads does, with its directory given to the failure. -/
theorem failure_apply (files : FileTree) (c : Chain) (change : Change) :
    (change.apply files c).failure =
      (change.task? files c).bind fun task =>
        (((task.script files (change.start c).directory []).run (change.start c)).failure.map
          (·.inDirectory (change.start c).directory)) := by
  cases change with
  | line l => rfl
  | file f options => rfl
  | directory d =>
    rw [apply, Chain.descend, task?]
    rcases hd : c.here.dirMerge with _ | declared
    · simp only [show (c.enter d).here.dirMerge = none from hd]
      rfl
    · simp only [show (c.enter d).here.dirMerge = some declared from hd, Option.bind_some]
      split
      · exact congrArg (Option.map _) (failure_readOwn files (c.enter d) declared _)
      · rfl

/-- A change reads a line if it is given one. -/
theorem eq_line_of_task? {files : FileTree} {c : Chain} {change : Change} {l : Text}
    (h : change.task? files c = some (.line l)) : change = .line l := by
  cases change with
  | line l' =>
    cases h
    rfl
  | file f options => cases h
  | directory d =>
    obtain ⟨declared, -, h⟩ := Option.bind_eq_some_iff.mp h
    split at h <;> cases h

/-- No change is given a path expression alone. -/
theorem task?_ne_expression (files : FileTree) (c : Chain) (change : Change) {p : Polarity}
    {l : Text} : change.task? files c ≠ some (.expression p l) := by
  intro h
  cases change with
  | line l' => cases h
  | file f options => cases h
  | directory d =>
    obtain ⟨declared, -, h⟩ := Option.bind_eq_some_iff.mp h
    split at h <;> cases h

/-- **The error of a change names the place where the change stops.** A change that fails stops
somewhere, having asked for some rule files one within another. If a line is malformed, the error
has the directory whose rules are being read, and the text of the line that was rejected: one of the
innermost file, or else the line that was given, or the line that would have excluded a rule file.
If a rule file cannot be read, the error has the same directory and the path of that file, which is
the innermost. -/
theorem failure_names_place {files : FileTree} {c : Chain} {change : Change} {e : FilterError}
    (h : (change.apply files c).failure = some e) :
    let scope := (change.start c).directory
    (∃ asked obstacle, change.StopsAt files c asked obstacle) ∧
      ∀ asked obstacle, change.StopsAt files c asked obstacle →
        (asked.IsChain (AskedWithin files scope) ∧
          ∀ path ∈ asked.getLast?, ∃ task ∈ change.task? files c, task.AsksFor scope path) ∧
        (∀ text place fault, e = .malformed text place fault → place = some scope ∧
          ((∃ name, obstacle = .unhidden name ∧ text = "- ".toList ++ name) ∨
            obstacle = .line text ∧
              ((asked = [] ∧ ∃ l, change = .line l ∧ text = l.trim) ∨
                ∃ path outer canonical bytes, asked = path :: outer ∧
                  files.read path = .ok (canonical, bytes) ∧
                  text ∈ (FileLines.ofBytes bytes).rules))) ∧
        ∀ path place failure, e = .unreadable path place failure →
          place = scope ∧ obstacle = .unread path failure ∧ asked.head? = some path ∧
            (files.read path = .error failure ∨
              ∃ canonical bytes, files.read path = .ok (canonical, bytes) ∧
                (FileLines.ofBytes bytes).intact = false ∧ failure = .notText) := by
  intro scope
  rw [failure_apply] at h
  obtain ⟨task, htask, hfail⟩ := Option.bind_eq_some_iff.mp h
  obtain ⟨raw, hraw, rfl⟩ := Option.map_eq_some_iff.mp hfail
  constructor
  · obtain ⟨asked, obstacle, hstop⟩ := exists_stops (by rw [hraw]; simp)
    exact ⟨asked, obstacle, task, htask, hstop⟩
  rintro asked obstacle ⟨task', htask', hstop⟩
  obtain rfl : task = task' := Option.some.inj (htask.symm.trans htask')
  obtain ⟨raw', hraw', hexplains⟩ := hstop.failure
  obtain rfl : raw = raw' := Option.some.inj (hraw.symm.trans hraw')
  obtain ⟨hlast, hchain⟩ := hstop.isNested
  refine ⟨⟨hchain, fun path hpath => ⟨task, htask, hlast path hpath⟩⟩, ?_, ?_⟩
  · intro text place fault heq
    cases hexplains with
    | line line fault' =>
      cases heq
      refine ⟨rfl, .inr ⟨rfl, ?_⟩⟩
      refine hstop.line_mem.imp_left fun ⟨hnil, hown⟩ => ⟨hnil, ?_⟩
      obtain ⟨l, rfl, hl⟩ | ⟨p, rfl⟩ := hown
      · exact ⟨l, eq_line_of_task? htask, hl⟩
      · exact absurd htask (task?_ne_expression files c change)
    | unhidden name fault' =>
      cases heq
      exact ⟨rfl, .inl ⟨name, rfl, rfl⟩⟩
    | _ => cases heq
  · intro path place failure heq
    cases hexplains with
    | unread path' failure' =>
      cases heq
      exact ⟨rfl, rfl, hstop.head?_of_unread⟩
    | _ => cases heq

/-- A directory whose rule file asks for another one with a line that is no rule. The error has the
line without the blank space around it, and the directory that is entered. -/
theorem failure_names_place_nested :
    let own : Text := "- *.tmp\n. more".toList
    let more : Text := "- *.o\n  nonsense \n".toList
    let files : FileTree := ⟨.directory [("sub".toList, .directory [(".rules".toList,
      .file own.utf8), ("more".toList, .file more.utf8)])], []⟩
    let c := (Chain.root "/".toList).declare ⟨".rules".toList, .plain⟩
    let change := Change.directory "/sub".toList
    (change.apply files c).failure =
        some (.malformed "nonsense".toList (some "/sub".toList) .format) ∧
      ∃ asked, change.StopsAt files c asked (.line "nonsense".toList) ∧
        ∃ path outer canonical bytes, asked = path :: outer ∧
          files.read path = .ok (canonical, bytes) ∧
          "nonsense".toList ∈ (FileLines.ofBytes bytes).rules := by
  intro own more files c change
  have hown : files.read "/sub/.rules".toList = .ok ("/sub/.rules".toList, own.utf8) :=
    FileTree.read_pathOf ["sub".toList, ".rules".toList] (by decide) (by decide) (by decide) rfl
  have hmore : files.read (Path.join (change.start c).directory "more".toList) =
      .ok ("/sub/more".toList, more.utf8) :=
    FileTree.read_pathOf ["sub".toList, "more".toList] (by decide) (by decide) (by decide) rfl
  have hfail : (change.apply files c).failure =
      some (.malformed "nonsense".toList (some "/sub".toList) .format) := by
    have hisFile : files.isFile "/sub/.rules".toList = true := by
      rw [FileTree.isFile, FileTree.read_eq_ok_iff.mp hown]
    have htask : change.task? files c =
        some (.merge "/sub/.rules".toList ".rules".toList .plain) := if_pos hisFile
    have hownlines : own.ruleLines = ["- *.tmp".toList, ". more".toList] := by decide +kernel
    have hmorelines : more.ruleLines = ["- *.o".toList, "nonsense".toList] := by decide +kernel
    have hask : readLine (Text.trim ". more".toList) = .ok (.merge .plain, "more".toList) := by
      decide +kernel
    have hrule : readLine (Text.trim "- *.tmp".toList) =
        .ok (.rule .exclude .ordinary, "*.tmp".toList) := by decide +kernel
    have hrule' : readLine (Text.trim "- *.o".toList) =
        .ok (.rule .exclude .ordinary, "*.o".toList) := by decide +kernel
    have hnone : readLine (Text.trim "nonsense".toList) =
        .error (.malformed "nonsense".toList none .format) := by decide +kernel
    rw [failure_apply, htask, Option.bind_some, Task.failure_run_merge, MergeOptions.plain,
      Chain.ownScript_of_text hown List.not_mem_nil, hownlines, List.map_cons, List.map_cons,
      List.map_nil, lineScript_rule _ _ _ (by decide) hrule,
      lineScript_merge _ _ _ (by decide) hask, mergeScript, MergeOptions.plain,
      Chain.ownScript_of_text hmore (by decide), hmorelines, List.map_cons, List.map_cons,
      List.map_nil, lineScript_rule _ _ _ (by decide) hrule',
      lineScript_error _ _ _ (by decide) hnone]
    decide +kernel
  obtain ⟨⟨asked, obstacle, hstop⟩, hnames⟩ := failure_names_place hfail
  obtain ⟨-, hmalformed, -⟩ := hnames asked obstacle hstop
  obtain ⟨-, ⟨name, -, hname⟩ | ⟨rfl, ⟨-, l, hl, -⟩ | hinner⟩⟩ := hmalformed _ _ _ rfl
  · cases hname
  · exact Change.noConfusion hl
  · exact ⟨hfail, asked, hstop, hinner⟩

end Change

end PathFilter
