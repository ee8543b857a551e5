import PathFilter.Proofs.Chain.Entry
import PathFilter.Proofs.Chain.Nesting

/-!
# Where reading comes to a stop

A line or a rule file that is read into a chain may fail deep down: a line of a rule file that
another one asks for is rejected, a rule file cannot be opened, or its name makes no rule when it is
to be excluded. The place is found by following the reading: every line before it was carried out,
and it is the first thing that fails.

## Main definitions

* `Task`, `Task.script`: what is read at one place, and what reading it does
* `Obstacle`: what reading comes to a stop at
* `Stops`: reading stops at an obstacle, and the rule files that led to it
* `Obstacle.Explains`: the errors of an obstacle

## Main results

* `Stops.failure`: what stops fails with an error of its obstacle
* `exists_stops`: what fails stops somewhere
-/

namespace PathFilter

/-! ## Places and obstacles -/

/-- **What is read at one place.** -/
inductive Task where
  /-- A rule line. -/
  | line (line : Text)
  /-- A line that is a path expression, under an enforced polarity. -/
  | expression (polarity : Polarity) (line : Text)
  /-- A rule file. -/
  | file (path : Text) (enforced : Option Polarity)
  /-- A rule file that is asked for by a name, with its options. -/
  | merge (path name : Text) (options : MergeOptions)
deriving DecidableEq, Repr

namespace Task

/-- What reading a line of a rule file is. -/
def ofLine (enforced : Option Polarity) (line : Text) : Task :=
  match enforced with
  | some p => .expression p line
  | none => .line line

/-- **What reading does**, while some rule files are being read. -/
def script (files : FileTree) (directory : Text) (reading : List Text) : Task → Script
  | line l => lineScript files directory reading l
  | expression p l => .ofRule (Rule.build p .ordinary l l) .done
  | file path enforced => ownScript files directory reading path enforced
  | merge path name options =>
    .isolating options.noInherit
      (.merge path (ownScript files directory reading path options.enforced)
        (.hiding options.excludeSelf name))

/-- What reading some lines of a rule file does. -/
def linesScript (files : FileTree) (directory : Text) (reading : List Text)
    (enforced : Option Polarity) (lines : List Text) : Script :=
  Script.concat (lines.map fun l => (ofLine enforced l).script files directory reading)

end Task

/-- **What reading comes to a stop at.** -/
inductive Obstacle where
  /-- A line that is rejected. -/
  | line (line : Text)
  /-- A rule file that is to be excluded, whose name makes no rule. -/
  | unhidden (name : Text)
  /-- A rule file that cannot be read. -/
  | unread (path : Text) (failure : ReadFailure)
  /-- A rule file that is being read already. -/
  | again (path : Text)
deriving DecidableEq, Repr

/-- **Whether a line is rejected**: it cannot be taken apart, or its rule cannot be built. -/
def IsRejected (line : Text) : Prop :=
  isClearing line = false ∧
    ((∃ e, readLine line = .error e) ∨
      ∃ p k expression e, readLine line = .ok (.rule p k, expression) ∧
        Rule.build p k expression line = .error e)

/-- **Where reading stops.** `Stops files directory reading c task asked obstacle` says that `task`
is read on the chain `c` while the files in `reading` are being read, and that it comes to a stop at
`obstacle`. The rule files in `asked` led to the obstacle, the innermost first. -/
inductive Stops (files : FileTree) (directory : Text) :
    List Text → Chain → Task → List Text → Obstacle → Prop where
  /-- At a line that is rejected. -/
  | line {reading : List Text} {c : Chain} {l : Text} (h : IsRejected l.trim) :
      Stops files directory reading c (.line l) [] (.line l.trim)
  /-- At a path expression that makes no rule. -/
  | expression {reading : List Text} {c : Chain} {p : Polarity} {l : Text} {e : FilterError}
      (h : Rule.build p .ordinary l l = .error e) :
      Stops files directory reading c (.expression p l) [] (.line l)
  /-- At the exclusion of the file that is declared after a dir-merge line. -/
  | declared {reading : List Text} {c : Chain} {l name : Text} {options : MergeOptions}
      {d : DirMerge} {e : FilterError} (h : readLine l.trim = .ok (.dirMerge options, name))
      (hself : options.excludeSelf = true)
      (hd : ((c.isolateIf options.noInherit).declare ⟨name, options⟩).here.dirMerge = some d)
      (hrule : Rule.excluding d.file = .error e) :
      Stops files directory reading c (.line l) [] (.unhidden d.file)
  /-- Where the rule file stops that a merge line asks for. -/
  | asked {reading : List Text} {c : Chain} {l name : Text} {options : MergeOptions}
      {asked : List Text} {obstacle : Obstacle}
      (h : readLine l.trim = .ok (.merge options, name))
      (hstop : Stops files directory reading c (.merge (Path.join directory name) name options)
        asked obstacle) :
      Stops files directory reading c (.line l) asked obstacle
  /-- Where a rule file stops that is read with its options. -/
  | merged {reading : List Text} {c : Chain} {path name : Text} {options : MergeOptions}
      {asked : List Text} {obstacle : Obstacle}
      (hstop : Stops files directory reading (c.isolateIf options.noInherit)
        (.file path options.enforced) asked obstacle) :
      Stops files directory reading c (.merge path name options) asked obstacle
  /-- At the exclusion of a rule file that has been read. -/
  | hidden {reading : List Text} {c : Chain} {path name : Text} {options : MergeOptions}
      {e : FilterError}
      (hread : ((ownScript files directory reading path options.enforced).run
        (c.isolateIf options.noInherit)).failure = none)
      (hself : options.excludeSelf = true) (hrule : Rule.excluding name = .error e) :
      Stops files directory reading c (.merge path name options) [] (.unhidden name)
  /-- At a rule file that cannot be opened. -/
  | unopened {reading : List Text} {c : Chain} {path : Text} {enforced : Option Polarity}
      {failure : ReadFailure} (h : files.read path = .error failure) :
      Stops files directory reading c (.file path enforced) [path] (.unread path failure)
  /-- At a rule file that is being read already. -/
  | again {reading : List Text} {c : Chain} {path canonical : Text} {enforced : Option Polarity}
      {bytes : List UInt8} (h : files.read path = .ok (canonical, bytes))
      (hr : canonical ∈ reading) :
      Stops files directory reading c (.file path enforced) [path] (.again path)
  /-- Where a line of a rule file stops, those before it having been read. -/
  | within {reading : List Text} {c : Chain} {path canonical : Text} {enforced : Option Polarity}
      {bytes : List UInt8} {before after : List Text} {l : Text} {asked : List Text}
      {obstacle : Obstacle} (h : files.read path = .ok (canonical, bytes))
      (hr : canonical ∉ reading) (hlines : (FileLines.ofBytes bytes).rules = before ++ l :: after)
      (hbefore : ((Task.linesScript files directory (canonical :: reading) enforced before).run
        c).failure = none)
      (hstop : Stops files directory (canonical :: reading)
        ((Task.linesScript files directory (canonical :: reading) enforced before).run c).chain
        (.ofLine enforced l) asked obstacle) :
      Stops files directory reading c (.file path enforced) (asked ++ [path]) obstacle
  /-- Behind the last line of a rule file that is not text to its end. -/
  | cut {reading : List Text} {c : Chain} {path canonical : Text} {enforced : Option Polarity}
      {bytes : List UInt8} (h : files.read path = .ok (canonical, bytes)) (hr : canonical ∉ reading)
      (hlines : ((Task.linesScript files directory (canonical :: reading) enforced
        (FileLines.ofBytes bytes).rules).run c).failure = none)
      (hintact : (FileLines.ofBytes bytes).intact = false) :
      Stops files directory reading c (.file path enforced) [path] (.unread path .notText)

/-- **The errors of an obstacle** to reading the rules of a directory, which a malformed line does
not name yet. -/
inductive Obstacle.Explains (directory : Text) : Obstacle → FilterError → Prop where
  /-- The line is malformed. -/
  | line (line : Text) (fault : LineFault) :
      Explains directory (.line line) (.malformed line none fault)
  /-- The pattern of the line is faulty. -/
  | linePattern (line path : Text) (fault : GlobFault) :
      Explains directory (.line line) (.faultyPattern path fault)
  /-- The line that would exclude the file is malformed. -/
  | unhidden (name : Text) (fault : LineFault) :
      Explains directory (.unhidden name) (.malformed ("- ".toList ++ name) none fault)
  /-- The name of the file is a faulty pattern. -/
  | unhiddenPattern (name path : Text) (fault : GlobFault) :
      Explains directory (.unhidden name) (.faultyPattern path fault)
  /-- The file cannot be read. -/
  | unread (path : Text) (failure : ReadFailure) :
      Explains directory (.unread path failure) (.unreadable path directory failure)
  /-- The file is being read already. -/
  | again (path : Text) : Explains directory (.again path) (.recursive path)

/-! ## The errors of single steps -/

/-- What cannot be taken apart is a malformed line. -/
theorem readLine_error {line : Text} {e : FilterError} (h : readLine line = .error e) :
    ∃ fault, e = .malformed line none fault := by
  unfold readLine splitLine at h
  split at h
  · next h' =>
    split at h'
    · cases h'
    · cases h'
      cases h
      exact ⟨_, rfl⟩
  · split at h
    · cases h
      exact ⟨_, rfl⟩
    · cases h

/-- A rule that cannot be built is malformed, or its pattern is faulty. -/
theorem Rule.build_error {p : Polarity} {k : RuleClass} {text line : Text} {e : FilterError}
    (h : build p k text line = .error e) :
    (∃ fault, e = .malformed line none fault) ∨ ∃ path fault, e = .faultyPattern path fault := by
  unfold build ofExpression at h
  split at h
  · cases h
    exact .inl ⟨_, rfl⟩
  · split at h
    · cases h
      exact .inr ⟨_, _, rfl⟩
    · cases h

namespace Obstacle

variable {directory : Text} {e : FilterError}

theorem explains_of_build {p : Polarity} {k : RuleClass} {text line : Text}
    (h : Rule.build p k text line = .error e) : Explains directory (.line line) e := by
  obtain ⟨fault, rfl⟩ | ⟨path, fault, rfl⟩ := Rule.build_error h
  · exact .line line fault
  · exact .linePattern line path fault

theorem explains_of_excluding {name : Text} (h : Rule.excluding name = .error e) :
    Explains directory (.unhidden name) e := by
  obtain ⟨fault, rfl⟩ | ⟨path, fault, rfl⟩ := Rule.build_error h
  · exact .unhidden name fault
  · exact .unhiddenPattern name path fault

end Obstacle

theorem Script.concat_append (ss ts : List Script) :
    concat (ss ++ ts) = (concat ss).append (concat ts) := by
  induction ss with
  | nil => rfl
  | cons s ss ih => rw [List.cons_append, concat_cons, ih, concat_cons, append_assoc]

section Reading

variable {files : FileTree} {directory : Text} {reading : List Text} {c : Chain}

namespace Task

variable {enforced : Option Polarity}

/-- What the lines of a rule file do, and then its end. -/
theorem contentScript_eq (path : Text) (bytes : List UInt8) :
    contentScript directory path bytes enforced (lineScript files directory reading) =
      (linesScript files directory reading enforced (FileLines.ofBytes bytes).rules).append
        (if (FileLines.ofBytes bytes).intact then .done
          else .fail (.unreadable path directory .notText)) := by
  cases enforced <;> rfl

theorem linesScript_append (lines lines' : List Text) :
    linesScript files directory reading enforced (lines ++ lines') =
      (linesScript files directory reading enforced lines).append
        (linesScript files directory reading enforced lines') := by
  rw [linesScript, List.map_append, Script.concat_append]
  rfl

theorem linesScript_cons (l : Text) (lines : List Text) :
    linesScript files directory reading enforced (l :: lines) =
      ((ofLine enforced l).script files directory reading).append
        (linesScript files directory reading enforced lines) := rfl

/-- A rule file that is asked for by a name fails as its lines do, or else as its exclusion. -/
theorem failure_run_merge (path name : Text) (options : MergeOptions) :
    (((merge path name options).script files directory reading).run c).failure =
      ((ownScript files directory reading path options.enforced).run
          (c.isolateIf options.noInherit)).failure.or
        ((Script.hiding options.excludeSelf name).run
          ((ownScript files directory reading path options.enforced).run
            (c.isolateIf options.noInherit)).chain).failure := by
  rw [script, Chain.run_isolating, Script.run, Outcome.failure_andThen, Outcome.failure_andThen]
  rfl

end Task

/-! ## What stops fails -/

/-- **What stops fails with an error of its obstacle.** -/
theorem Stops.failure {task : Task} {asked : List Text} {obstacle : Obstacle}
    (h : Stops files directory reading c task asked obstacle) :
    ∃ e, ((task.script files directory reading).run c).failure = some e ∧
      obstacle.Explains directory e := by
  induction h with
  | line h =>
    obtain ⟨hc, ⟨e, he⟩ | ⟨p, k, expression, e, hread, he⟩⟩ := h
    · obtain ⟨fault, rfl⟩ := readLine_error he
      refine ⟨_, ?_, .line _ fault⟩
      rw [Task.script, lineScript_error _ _ _ hc he]
      rfl
    · refine ⟨e, ?_, Obstacle.explains_of_build he⟩
      rw [Task.script, lineScript_rule _ _ _ hc hread, he]
      rfl
  | @expression _ _ _ _ e h =>
    refine ⟨e, ?_, Obstacle.explains_of_build h⟩
    rw [Task.script, h]
    rfl
  | @declared _ _ _ _ _ _ e h hself hd hrule =>
    refine ⟨e, ?_, Obstacle.explains_of_excluding hrule⟩
    rw [Task.script, lineScript_dirMerge _ _ _ (isClearing_of_readLine h) h, Chain.run_declaring,
      Chain.declareFile, if_pos hself, Chain.apply_hideDeclared hd, hrule]
    rfl
  | asked h _ ih =>
    rw [Task.script, lineScript_merge _ _ _ (isClearing_of_readLine h) h]
    exact ih
  | merged _ ih =>
    obtain ⟨e, hfail, he⟩ := ih
    refine ⟨e, ?_, he⟩
    rw [Task.script] at hfail
    rw [Task.failure_run_merge, hfail]
    rfl
  | @hidden _ _ _ _ _ e hread hself hrule =>
    refine ⟨e, ?_, Obstacle.explains_of_excluding hrule⟩
    rw [Task.failure_run_merge, hread, hself, Script.hiding, if_pos rfl, hrule]
    rfl
  | unopened h =>
    refine ⟨_, ?_, .unread _ _⟩
    rw [Task.script, ownScript_of_error h]
    rfl
  | again h hr =>
    refine ⟨_, ?_, .again _⟩
    rw [Task.script, ownScript_of_mem h hr]
    rfl
  | within h hr hlines hbefore _ ih =>
    obtain ⟨e, hfail, he⟩ := ih
    refine ⟨e, ?_, he⟩
    rw [Task.script, ownScript_of_not_mem h hr, Task.contentScript_eq, hlines,
      Task.linesScript_append, Task.linesScript_cons, Script.append_assoc, Script.run_append,
      Outcome.failure_andThen, hbefore, Script.append_assoc, Script.run_append,
      Outcome.failure_andThen, hfail]
    rfl
  | cut h hr hlines hintact =>
    refine ⟨_, ?_, .unread _ _⟩
    rw [Task.script, ownScript_of_not_mem h hr, Task.contentScript_eq, Script.run_append,
      Outcome.failure_andThen, hlines, hintact]
    rfl

/-! ## What fails stops somewhere -/

/-- Lines in a row that fail do so at one of them, those before it having been carried out. -/
theorem exists_line_of_failure {enforced : Option Polarity} {lines : List Text}
    (h : ((Task.linesScript files directory reading enforced lines).run c).failure ≠ none) :
    ∃ before l after, lines = before ++ l :: after ∧
      ((Task.linesScript files directory reading enforced before).run c).failure = none ∧
      (((Task.ofLine enforced l).script files directory reading).run
          ((Task.linesScript files directory reading enforced before).run c).chain).failure ≠
        none := by
  induction lines using List.reverseRecOn with
  | nil => exact absurd rfl h
  | append_singleton lines l ih =>
    cases hfront : ((Task.linesScript files directory reading enforced lines).run c).failure with
    | none =>
      refine ⟨lines, l, [], rfl, hfront, fun hl => h ?_⟩
      rw [Task.linesScript_append, Script.run_append, Outcome.failure_andThen, hfront,
        Task.linesScript_cons, Script.run_append, Outcome.failure_andThen, hl]
      rfl
    | some e =>
      obtain ⟨before, l', after, rfl, hbefore, hl'⟩ := ih (by simp [hfront])
      exact ⟨before, l', after ++ [l], by simp, hbefore, hl'⟩

/-- A rule whose building is the whole of a script. -/
theorem exists_error_of_ofRule {x : Except FilterError Rule}
    (h : ((Script.ofRule x .done).run c).failure ≠ none) : ∃ e, x = .error e := by
  rcases x with e | r
  · exact ⟨e, rfl⟩
  · exact absurd rfl h

/-- A rule file that fails stops somewhere if each of its lines does that fails. -/
theorem exists_stops_file
    (hline : ∀ f ∈ files.unread reading, ∀ c l,
      ((lineScript files directory (f :: reading) l).run c).failure ≠ none →
        ∃ asked obstacle, Stops files directory (f :: reading) c (.line l) asked obstacle)
    {path : Text} {enforced : Option Polarity}
    (h : ((ownScript files directory reading path enforced).run c).failure ≠ none) :
    ∃ asked obstacle, Stops files directory reading c (.file path enforced) asked obstacle := by
  rcases hread : files.read path with failure | ⟨canonical, bytes⟩
  · exact ⟨_, _, .unopened hread⟩
  · by_cases hr : canonical ∈ reading
    · exact ⟨_, _, .again hread hr⟩
    · rw [ownScript_of_not_mem hread hr, Task.contentScript_eq, Script.run_append,
        Outcome.failure_andThen] at h
      by_cases hlines : ((Task.linesScript files directory (canonical :: reading) enforced
          (FileLines.ofBytes bytes).rules).run c).failure = none
      · refine ⟨_, _, .cut hread hr hlines ?_⟩
        rw [← Bool.not_eq_true]
        intro hintact
        rw [hlines, if_pos hintact] at h
        exact h rfl
      · obtain ⟨before, l, after, hcut, hbefore, hl⟩ := exists_line_of_failure hlines
        have hnext : ∃ asked obstacle, Stops files directory (canonical :: reading)
            ((Task.linesScript files directory (canonical :: reading) enforced before).run c).chain
            (.ofLine enforced l) asked obstacle := by
          cases enforced with
          | none => exact hline canonical (FileTree.mem_unread_of_read hread hr) _ l hl
          | some p =>
            obtain ⟨e, he⟩ := exists_error_of_ofRule hl
            exact ⟨_, _, .expression he⟩
        obtain ⟨asked, obstacle, hstop⟩ := hnext
        exact ⟨_, _, .within hread hr hcut hbefore hstop⟩

/-- So does one that is asked for by a name, if it stops somewhere when its lines fail. -/
theorem exists_stops_merge {path name : Text} {options : MergeOptions}
    (hfile : ((ownScript files directory reading path options.enforced).run
        (c.isolateIf options.noInherit)).failure ≠ none →
      ∃ asked obstacle, Stops files directory reading (c.isolateIf options.noInherit)
        (.file path options.enforced) asked obstacle)
    (h : (((Task.merge path name options).script files directory reading).run c).failure ≠ none) :
    ∃ asked obstacle,
      Stops files directory reading c (.merge path name options) asked obstacle := by
  by_cases hread : ((ownScript files directory reading path options.enforced).run
      (c.isolateIf options.noInherit)).failure = none
  · rw [Task.failure_run_merge, hread, Option.none_or] at h
    cases hself : options.excludeSelf with
    | false =>
      rw [hself] at h
      exact absurd rfl h
    | true =>
      rw [hself] at h
      obtain ⟨e, he⟩ := exists_error_of_ofRule h
      exact ⟨_, _, .hidden hread hself he⟩
  · obtain ⟨asked, obstacle, hstop⟩ := hfile hread
    exact ⟨asked, obstacle, .merged hstop⟩

/-- **A line that fails stops somewhere.** -/
theorem exists_stops_line {l : Text}
    (h : ((lineScript files directory reading l).run c).failure ≠ none) :
    ∃ asked obstacle, Stops files directory reading c (.line l) asked obstacle := by
  induction reading, l using line_induction files generalizing c with
  | clear reading l hc =>
    rw [lineScript_clear _ _ _ hc] at h
    exact absurd rfl h
  | error reading l e hc hread => exact ⟨_, _, .line ⟨hc, .inl ⟨e, hread⟩⟩⟩
  | rule reading l p k expression hc hread =>
    rw [lineScript_rule _ _ _ hc hread] at h
    obtain ⟨e, he⟩ := exists_error_of_ofRule h
    exact ⟨_, _, .line ⟨hc, .inr ⟨p, k, expression, e, hread, he⟩⟩⟩
  | merge reading l options name hc hread ih =>
    rw [lineScript_merge _ _ _ hc hread] at h
    obtain ⟨asked, obstacle, hstop⟩ :=
      exists_stops_merge (exists_stops_file fun f hf _ l hl => ih f hf l hl) h
    exact ⟨asked, obstacle, .asked hread hstop⟩
  | dirMerge reading l options name hc hread =>
    rw [lineScript_dirMerge _ _ _ hc hread, Chain.run_declaring, Chain.declareFile] at h
    cases hself : options.excludeSelf with
    | false =>
      rw [hself] at h
      exact absurd rfl h
    | true =>
      rw [if_pos hself] at h
      cases hd : ((c.isolateIf options.noInherit).declare ⟨name, options⟩).here.dirMerge with
      | none =>
        simp only [Edit.apply, hd] at h
        exact absurd rfl h
      | some d =>
        rw [Chain.apply_hideDeclared hd] at h
        obtain ⟨e, he⟩ := exists_error_of_ofRule h
        exact ⟨_, _, .declared hread hself hd he⟩

/-- **What fails stops somewhere.** -/
theorem exists_stops {task : Task}
    (h : ((task.script files directory reading).run c).failure ≠ none) :
    ∃ asked obstacle, Stops files directory reading c task asked obstacle := by
  cases task with
  | line l => exact exists_stops_line h
  | expression p l =>
    obtain ⟨e, he⟩ := exists_error_of_ofRule h
    exact ⟨_, _, .expression he⟩
  | file path enforced => exact exists_stops_file (fun _ _ _ _ => exists_stops_line) h
  | merge path name options =>
    exact exists_stops_merge (exists_stops_file fun _ _ _ _ => exists_stops_line) h

end Reading

end PathFilter
