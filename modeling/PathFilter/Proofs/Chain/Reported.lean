import PathFilter.Proofs.Chain.Brought
import PathFilter.Proofs.Chain.Declaration
import PathFilter.Proofs.Chain.ErrorPlace
import PathFilter.Proofs.Chain.Opened

/-!
# What is reported of a rule file

A rule file that is read to its end is reported with a number: by how many rules the top layer has
become longer. That is how many rules the file brought as long as the rules that it found stay where
they are. If a line of it clears the rules, or one of another file that it asks for, then what it
found is taken off the number though none of it is left. A directory has no rules yet when its own
rule file is read, so the number that is put on record for it is always right.

## Main definitions

* `Intake`: a rule file that is read to its end on a chain
* `Intake.brought`, `Intake.reported`: the rules that the file brought, and the number reported of
  it
* `Outcome.counts`: the numbers that are reported on the way
* `Script.intakes`, `Change.intakes`: the rule files that are read to their end

## Main results

* `Script.counts_run`: every rule file that is read to its end is reported
* `lineScript_readsFiles`: what is read to its end is a rule file of the tree
* `Change.reported_falls_short`: by how much the numbers fall short, and when they do not
* `Change.not_forall_reported_eq`: a number falls short
-/

namespace PathFilter

/-! ## Rule files read to their end -/

/-- **A rule file that is read to its end** on a chain. -/
structure Intake where
  /-- The path of the file. -/
  path : Text
  /-- The chain that the file found. -/
  before : Chain
  /-- What reading it has left. -/
  left : Outcome

namespace Intake

/-- Whether the rules were cleared while the file was read. -/
def clears (i : Intake) : Bool := i.left.clears

/-- **The rules that the file brought**: those that were added while it was read and are still
there at its end. -/
def brought (i : Intake) : RuleList := Event.brought i.left.events

/-- **The number that is reported of the file**: by how many rules the top layer has become
longer. -/
def reported (i : Intake) : Nat := i.left.chain.ruleCount - i.before.ruleCount

/-- **Whether a rule file was read to its end** for a directory, while those in `reading` were being
read. -/
def IsOf (files : FileTree) (directory : Text) (reading : List Text) (enforced : Option Polarity)
    (i : Intake) : Prop :=
  i.left = (ownScript files directory reading i.path enforced).run i.before ∧ i.left.failure = none

variable {files : FileTree} {directory : Text} {reading : List Text} {enforced : Option Polarity}
  {i : Intake}

/-- **What a rule file leaves on the two lists**: the rules that it found, unless they were cleared,
and behind them those that it brought. -/
theorem IsOf.tellsRules (h : i.IsOf files directory reading enforced) :
    Outcome.TellsRules i.before i.left := by
  rw [h.1]
  exact Script.tellsRules_run _ _

/-- A rule file clears the rules if a line does that is carried out while it is read. -/
theorem IsOf.clears_iff (h : i.IsOf files directory reading enforced) :
    i.clears = true ↔
      ∃ m ∈ ownMoments files directory reading i.path enforced i.before, Clears m.line := by
  rw [clears, h.1]
  exact clears_own i.path enforced i.before

/-- **The number that is reported** of a rule file is that of the rules that it brought, less those
that it found if they were cleared. -/
theorem IsOf.reported_eq (h : i.IsOf files directory reading enforced) :
    i.reported = i.brought.length - if i.clears then i.before.ruleCount else 0 := by
  rw [reported, h.tellsRules.ruleCount, brought, clears]
  cases i.left.clears <;> simp

/-- **When the number is right**: nothing was cleared, or there was nothing to be cleared, or
nothing was brought. -/
theorem IsOf.reported_eq_length_iff (h : i.IsOf files directory reading enforced) :
    i.reported = i.brought.length ↔
      i.clears = false ∨ i.before.ruleCount = 0 ∨ i.brought = [] := by
  rw [h.reported_eq, ← List.length_eq_zero_iff]
  cases i.clears with
  | false => simp
  | true =>
    simp only [if_true, Bool.true_eq_false, false_or]
    omega

end Intake

/-! ## The numbers that are reported -/

/-- The number that an event reports of a rule file. -/
def Event.count? : Event → Option Nat
  | fileMerged _ _ n => some n
  | ruleFileRead _ _ n => some n
  | _ => none

/-- **The numbers that are reported** of rule files on the way. -/
def Outcome.counts (o : Outcome) : List Nat := o.events.filterMap Event.count?

theorem Outcome.counts_andThen (o : Outcome) (f : Chain → Outcome) :
    (o.andThen f).counts = o.counts ++ o.onSuccess fun c => (f c).counts := by
  obtain ⟨c', es, _ | e⟩ := o
  · exact List.filterMap_append
  · exact (List.append_nil _).symm

/-- A single edit reports no rule file. -/
theorem Edit.counts_apply (c : Chain) (e : Edit) : (e.apply c).counts = [] := by
  cases e with
  | hideDeclared =>
    simp only [apply]
    split
    · rfl
    · split <;> rfl
  | _ => rfl

namespace Script

/-- **The rule files that a script reads to their end** on a chain, in the order in which they
end. -/
def intakes : Script → Chain → List Intake
  | done, _ => []
  | fail _, _ => []
  | edit e rest, c => (e.apply c).onSuccess rest.intakes
  | merge path body rest, c =>
    body.intakes c ++ (body.run c).onSuccess fun c' => ⟨path, c, body.run c⟩ :: rest.intakes c'

/-- **Every rule file that a script reads to its end is reported**, and nothing else is. -/
theorem counts_run (s : Script) (c : Chain) :
    (s.run c).counts = (s.intakes c).map Intake.reported := by
  induction s generalizing c with
  | done => rfl
  | fail e => rfl
  | edit e rest ih =>
    rw [run, Outcome.counts_andThen, Edit.counts_apply, intakes]
    obtain ⟨c', es, _ | err⟩ := e.apply c
    · exact ih c'
    · rfl
  | merge path body rest ihb ih =>
    rw [run, Outcome.counts_andThen, ihb, intakes, List.map_append]
    -- a file that fails is not reported, and nothing follows it
    cases hbody : (body.run c).failure with
    | some err => simp [Outcome.onSuccess, hbody]
    | none =>
      rw [Outcome.onSuccess_of_none hbody, Outcome.onSuccess_of_none hbody,
        Outcome.counts_andThen, List.map_cons, ← ih]
      rfl

/-- Excluding a file reads none. -/
theorem intakes_hiding (c : Chain) (hide : Bool) (file : Text) :
    (Script.hiding hide file).intakes c = [] := by
  cases hide with
  | false => rfl
  | true =>
    simp only [Script.hiding, ofRule, ofExcept, if_true]
    split <;> rfl

theorem intakes_isolating (c : Chain) (first : Bool) (s : Script) :
    (isolating first s).intakes c = s.intakes (c.isolateIf first) := by
  cases first <;> rfl

end Script

/-! ## The files that are read -/

namespace Script

/-- **Whether all that a script reads are rule files of a tree.** -/
inductive ReadsFiles (files : FileTree) (directory : Text) : Script → Prop where
  /-- The end. -/
  | done : ReadsFiles files directory done
  /-- A failure. -/
  | fail (e : FilterError) : ReadsFiles files directory (fail e)
  /-- An edit, and what follows. -/
  | edit (e : Edit) {s : Script} (h : ReadsFiles files directory s) :
    ReadsFiles files directory (edit e s)
  /-- A rule file with what its lines do, and what follows. -/
  | merge {reading : List Text} {path : Text} {enforced : Option Polarity} {s : Script}
    (hbody : ReadsFiles files directory (ownScript files directory reading path enforced))
    (h : ReadsFiles files directory s) :
    ReadsFiles files directory (merge path (ownScript files directory reading path enforced) s)

namespace ReadsFiles

variable {files : FileTree} {directory : Text} {s t : Script}

theorem append (hs : ReadsFiles files directory s) (ht : ReadsFiles files directory t) :
    ReadsFiles files directory (s.append t) := by
  induction hs with
  | done => exact ht
  | fail e => exact .fail e
  | edit e _ ih => exact .edit e ih
  | merge hbody _ _ ih => exact .merge hbody ih

theorem concat {ss : List Script} (h : ∀ s ∈ ss, ReadsFiles files directory s) :
    ReadsFiles files directory (Script.concat ss) := by
  induction ss with
  | nil => exact .done
  | cons s ss ih =>
    obtain ⟨hs, hss⟩ := List.forall_mem_cons.mp h
    exact hs.append (ih hss)

theorem isolating (h : ReadsFiles files directory s) (first : Bool) :
    ReadsFiles files directory (Script.isolating first s) := by
  cases first with
  | true => exact .edit .isolate h
  | false => exact h

theorem ofRule (x : Except FilterError Rule) : ReadsFiles files directory (.ofRule x .done) := by
  rcases x with e | r
  · exact .fail e
  · exact .edit (.add r) .done

theorem excluding (hide : Bool) (file : Text) :
    ReadsFiles files directory (.hiding hide file) := by
  cases hide with
  | true => exact .ofRule _
  | false => exact .done

/-- **What such a script reads to its end is a rule file of the tree.** -/
theorem exists_isOf (h : ReadsFiles files directory s) {c : Chain} {i : Intake}
    (hi : i ∈ s.intakes c) : ∃ reading enforced, i.IsOf files directory reading enforced := by
  induction h generalizing c with
  | done => cases hi
  | fail e => cases hi
  | edit e _ ih =>
    rw [intakes] at hi
    cases hfail : (e.apply c).failure with
    | some err => simp [Outcome.onSuccess, hfail] at hi
    | none =>
      rw [Outcome.onSuccess_of_none hfail] at hi
      exact ih hi
  | @merge reading path enforced s _ _ ihbody ih =>
    rw [intakes, List.mem_append] at hi
    rcases hi with hi | hi
    · exact ihbody hi
    · cases hread : ((ownScript files directory reading path enforced).run c).failure with
      | some err => simp [Outcome.onSuccess, hread] at hi
      | none =>
        rw [Outcome.onSuccess_of_none hread] at hi
        rcases List.mem_cons.mp hi with rfl | hi
        · exact ⟨reading, enforced, rfl, hread⟩
        · exact ih hi

end ReadsFiles

end Script

section Reading

variable {files : FileTree} {directory : Text} {reading : List Text}

/-- What a rule file reads are files of the tree if this is so of its lines. -/
theorem ownScript_readsFiles
    (h : ∀ file ∈ files.unread reading, ∀ l,
      (lineScript files directory (file :: reading) l).ReadsFiles files directory)
    (path : Text) (enforced : Option Polarity) :
    (ownScript files directory reading path enforced).ReadsFiles files directory := by
  rcases hread : files.read path with failure | ⟨canonical, bytes⟩
  · rw [ownScript_of_error hread]
    exact .fail _
  · by_cases hr : canonical ∈ reading
    · rw [ownScript_of_mem hread hr]
      exact .fail _
    · rw [ownScript_of_not_mem hread hr, contentScript]
      refine .append (.concat fun s hs => ?_) ?_
      · obtain ⟨l, -, rfl⟩ := List.mem_map.mp hs
        cases enforced with
        | some p => exact .ofRule _
        | none => exact h canonical (FileTree.mem_unread_of_read hread hr) l
      · split
        · exact .done
        · exact .fail _

/-- **What a line reads are rule files of the tree.** -/
theorem lineScript_readsFiles (line : Text) :
    (lineScript files directory reading line).ReadsFiles files directory := by
  induction reading, line using line_induction files with
  | clear reading line hc =>
    rw [lineScript_clear _ _ _ hc]
    exact .edit .clear .done
  | error reading line e hc hd =>
    rw [lineScript_error _ _ _ hc hd]
    exact .fail e
  | rule reading line p k expression hc hd =>
    rw [lineScript_rule _ _ _ hc hd]
    exact .ofRule _
  | merge reading line options file hc hd ih =>
    rw [lineScript_merge _ _ _ hc hd]
    exact .isolating (.merge (ownScript_readsFiles ih _ _) (.excluding _ _)) _
  | dirMerge reading line options file hc hd =>
    rw [lineScript_dirMerge _ _ _ hc hd]
    refine .isolating (.edit _ ?_) _
    split
    · exact .edit .hideDeclared .done
    · exact .done

theorem Task.script_readsFiles (task : Task) :
    (task.script files directory reading).ReadsFiles files directory := by
  have hown := @ownScript_readsFiles files directory reading fun _ _ l => lineScript_readsFiles l
  cases task with
  | line l => exact lineScript_readsFiles l
  | expression p l => exact .ofRule _
  | file path enforced => exact hown path enforced
  | merge path name options => exact .isolating (.merge (hown _ _) (.excluding _ _)) _

end Reading

/-! ## The rule file of a directory -/

namespace Chain

variable {files : FileTree} {c : Chain} {d : DirMerge} {path : Text}

/-- **The rule files that are read to their end when a directory reads its own**: those that this
one asks for, and then itself. -/
def ownIntakes (files : FileTree) (c : Chain) (d : DirMerge) (path : Text) : List Intake :=
  let own := ownScript files c.directory [] path d.options.enforced
  let start := c.isolateIf d.options.noInherit
  own.intakes start ++ (own.run start).onSuccess fun _ => [⟨path, start, own.run start⟩]

/-- They are those of the file asked for by its name. -/
theorem intakes_merge (files : FileTree) (c : Chain) (d : DirMerge) (path : Text) :
    ((Task.merge path d.file d.options).script files c.directory []).intakes c =
      c.ownIntakes files d path := by
  rw [Task.script, Script.intakes_isolating, Script.intakes]
  simp only [Script.intakes_hiding]
  rfl

/-- **What is reported when a directory reads its own rule file.** The file itself is left out if it
is to be excluded and that fails. -/
theorem counts_readOwn :
    (c.readOwn files d path).counts <+: (c.ownIntakes files d path).map Intake.reported ∧
      ((c.readOwn files d path).failure = none →
        (c.readOwn files d path).counts = (c.ownIntakes files d path).map Intake.reported) := by
  let own := ownScript files c.directory [] path d.options.enforced
  let start := c.isolateIf d.options.noInherit
  have hcounts : (c.readOwn files d path).counts =
      (own.intakes start).map Intake.reported ++ (own.run start).onSuccess fun read =>
        ((Script.hiding d.options.excludeSelf d.file).run read).onSuccess fun _ =>
          [read.ruleCount - start.ruleCount] := by
    rw [readOwn, Outcome.counts_andThen]
    simp only [Outcome.counts_andThen, Script.counts_run, Script.intakes_hiding]
    rfl
  have hintakes : (c.ownIntakes files d path).map Intake.reported =
      (own.intakes start).map Intake.reported ++ (own.run start).onSuccess fun read =>
        [read.ruleCount - start.ruleCount] := by
    rw [ownIntakes, List.map_append]
    refine congrArg (_ ++ ·) ?_
    change ((own.run start).onSuccess _).map _ = _
    unfold Outcome.onSuccess
    split <;> rfl
  rw [hcounts, hintakes]
  cases hown : (own.run start).failure with
  | some e => simp [Outcome.onSuccess, hown]
  | none =>
    rw [Outcome.onSuccess_of_none hown, Outcome.onSuccess_of_none hown]
    constructor
    · refine (List.prefix_append_right_inj _).mpr ?_
      unfold Outcome.onSuccess
      split
      · exact List.nil_prefix
      · exact List.prefix_rfl
    · intro h
      obtain ⟨-, hhidden, -⟩ := readOwn_cases h
      rw [Outcome.onSuccess_of_none hhidden]

end Chain

/-! ## The reports of a change -/

namespace Change

variable {files : FileTree} {c : Chain}

/-- **The rule files that a change reads to their end**, in the order in which they end. The rule
file of a directory comes last. -/
def intakes (files : FileTree) (c : Chain) (change : Change) : List Intake :=
  (change.task? files c).elim [] fun task =>
    (task.script files (change.start c).directory []).intakes (change.start c)

theorem exists_isOf {change : Change} {i : Intake} (h : i ∈ change.intakes files c) :
    ∃ reading enforced, i.IsOf files (change.start c).directory reading enforced := by
  unfold intakes at h
  cases htask : change.task? files c with
  | none => simp [htask] at h
  | some task =>
    rw [htask] at h
    exact (Task.script_readsFiles task).exists_isOf h

theorem intakes_of_isFile {directory : Text} {d : DirMerge} (hd : c.here.dirMerge = some d)
    (hfile : files.isFile (Path.within directory d.file) = true) :
    (Change.directory directory).intakes files c =
      (c.enter directory).ownIntakes files d (Path.within directory d.file) := by
  have htask : (Change.directory directory).task? files c =
      some (.merge (Path.within directory d.file) d.file d.options) := by
    simp only [task?, hd, Option.bind_some, if_pos hfile]
  rw [intakes, htask]
  exact (c.enter directory).intakes_merge files d _

theorem intakes_of_not_isFile {directory : Text}
    (h : ∀ d, c.here.dirMerge = some d → files.isFile (Path.within directory d.file) = false) :
    (Change.directory directory).intakes files c = [] := by
  have htask : (Change.directory directory).task? files c = none := by
    rw [task?, Option.bind_eq_none_iff]
    intro d hd
    simp [h d hd]
  rw [intakes, htask]
  rfl

/-- **What a change reports** are the rule files that it reads to their end, whether it fails later
or not. Only a directory that fails may leave its own file out. -/
theorem counts_apply (files : FileTree) (c : Chain) (change : Change) :
    (change.apply files c).counts <+: (change.intakes files c).map Intake.reported ∧
      ((∀ d, change = .directory d → (change.apply files c).failure = none) →
        (change.apply files c).counts = (change.intakes files c).map Intake.reported) := by
  cases change with
  | line l =>
    have h : (c.read files l).counts = ((line l).intakes files c).map Intake.reported :=
      Script.counts_run _ c
    exact ⟨h ▸ List.prefix_rfl, fun _ => h⟩
  | file f options =>
    have h : (c.merge files f options).counts =
        ((file f options).intakes files c).map Intake.reported := Script.counts_run _ c
    exact ⟨h ▸ List.prefix_rfl, fun _ => h⟩
  | directory directory =>
    rw [apply]
    rcases Chain.exists_ownFile_or files c directory with hnone | ⟨d, hd, hfile⟩
    · rw [Chain.descend_of_not_isFile hnone, intakes_of_not_isFile hnone]
      exact ⟨List.prefix_rfl, fun _ => rfl⟩
    · rw [Chain.descend_of_isFile hd hfile, intakes_of_isFile hd hfile]
      refine ⟨Chain.counts_readOwn.1, fun hentered => Chain.counts_readOwn.2 ?_⟩
      exact Outcome.failure_within_eq_none_iff.mp (hentered directory rfl)

/-- **The number that is put on record** for a directory is the one that is reported of its own rule
file, which finds no rules. -/
theorem loaded_descend {directory : Text} (h : (c.descend files directory).failure = none) :
    (c.descend files directory).chain.here.loaded =
        ((Change.directory directory).intakes files c).getLast?.map Intake.reported ∧
      ∀ i ∈ ((Change.directory directory).intakes files c).getLast?,
        i.before.ruleCount = 0 := by
  rcases Chain.descend_cases h with ⟨hchain, hnone⟩ | ⟨d, hd, hfile, hread, hchain⟩
  · rw [hchain, intakes_of_not_isFile hnone]
    exact ⟨rfl, by simp⟩
  · obtain ⟨hown, -, hloaded⟩ := Chain.readOwn_cases hread
    have hstart : ((c.enter directory).isolateIf d.options.noInherit).ruleCount = 0 := by
      cases d.options.noInherit <;> rfl
    rw [hchain, hloaded, intakes_of_isFile hd hfile, Chain.ownIntakes,
      Outcome.onSuccess_of_none hown, List.getLast?_concat]
    refine ⟨?_, ?_⟩
    · simp only [Option.map_some, Intake.reported, hstart]
      rfl
    · rintro i ⟨⟩
      exact hstart

/-- **By how much the reported numbers fall short.** Whatever rule file is read to its end, the two
lists hold what they held before, unless a line that was carried out has cleared the rules, and
behind it the rules that the file brought. The number that is reported of the file is that of the
rules that it brought, less those that it found if they were cleared; so it is right exactly if no
such line was carried out, or the file found no rules, or it brought none. A change reports these
numbers for the files that it reads to their end, in their order; only a directory that fails may
leave its own file out. The number that is put on record for a directory is that of its own file,
and is right. -/
theorem reported_falls_short (files : FileTree) (c : Chain) (change : Change) :
    let o := change.apply files c
    let scope := (change.start c).directory
    let intakes := change.intakes files c
    (∀ reading enforced (i : Intake), i.IsOf files scope reading enforced →
        (∀ p, i.left.chain.here.rulesFor p =
          (if i.clears then [] else i.before.here.rulesFor p) ++
            i.brought.filter (·.purpose = p)) ∧
        (i.clears = true ↔
          ∃ m ∈ ownMoments files scope reading i.path enforced i.before, Clears m.line) ∧
        i.reported = i.brought.length - (if i.clears then i.before.ruleCount else 0) ∧
        (i.reported = i.brought.length ↔
          i.clears = false ∨ i.before.ruleCount = 0 ∨ i.brought = [])) ∧
      (∀ i ∈ intakes, ∃ reading enforced, i.IsOf files scope reading enforced) ∧
      o.counts <+: intakes.map Intake.reported ∧
      ((∀ d, change = .directory d → o.failure = none) →
        o.counts = intakes.map Intake.reported) ∧
      ∀ d, change = .directory d → o.failure = none →
        o.chain.here.loaded = intakes.getLast?.map Intake.reported ∧
          ∀ i ∈ intakes.getLast?, i.reported = i.brought.length := by
  intro o scope intakes
  obtain ⟨hfirst, hall⟩ := counts_apply files c change
  refine ⟨fun reading enforced i hi => ?_, fun i hi => exists_isOf hi, hfirst, hall, ?_⟩
  · exact ⟨hi.tellsRules, hi.clears_iff, hi.reported_eq, hi.reported_eq_length_iff⟩
  · -- a directory has no rules when its own file is read, so there is nothing to be taken off
    rintro d rfl hentered
    obtain ⟨hloaded, hbefore⟩ := loaded_descend hentered
    refine ⟨hloaded, fun i hi => ?_⟩
    obtain ⟨reading, enforced, hof⟩ := exists_isOf (List.mem_of_getLast? hi)
    exact hof.reported_eq_length_iff.mpr (.inr (.inl (hbefore i hi)))

/-- A directory whose rule file asks for another one, which clears the rules. What that one found is
taken off its number, and nothing off the number of the directory. -/
theorem reported_falls_short_nested :
    let own : Text := "- *.tmp\n. more\n- *.o".toList
    let more : Text := "clear\nP kept".toList
    let files : FileTree := ⟨.directory [("sub".toList, .directory [(".rules".toList,
      .file own.utf8), ("more".toList, .file more.utf8)])], []⟩
    let c := (Chain.root "/".toList).declare ⟨".rules".toList, .plain⟩
    let change := Change.directory "/sub".toList
    (change.apply files c).failure = none ∧
      (change.intakes files c).map (fun i => (i.before.ruleCount, i.brought.length)) =
        [(1, 1), (0, 2)] ∧
      (∀ i ∈ change.intakes files c, i.reported = i.brought.length - i.before.ruleCount) ∧
      (change.apply files c).counts = [0, 2] ∧
      (change.apply files c).chain.here.loaded = some 2 := by
  intro own more files c change
  have hok : (change.apply files c).failure = none := by decide +kernel
  have hfound : (change.intakes files c).map (fun i => (i.before.ruleCount, i.brought.length)) =
      [(1, 1), (0, 2)] := by decide +kernel
  have hclears : ∀ i ∈ change.intakes files c, i.clears = true := by decide +kernel
  have hreported : (change.intakes files c).map Intake.reported = [0, 2] := by decide +kernel
  obtain ⟨hof, hread, -, hcounts, hdirectory⟩ := reported_falls_short files c change
  obtain ⟨hloaded, -⟩ := hdirectory _ rfl hok
  refine ⟨hok, hfound, fun i hi => ?_, (hcounts fun _ _ => hok).trans hreported, ?_⟩
  · obtain ⟨reading, enforced, hi'⟩ := hread i hi
    obtain ⟨-, -, hnumber, -⟩ := hof reading enforced i hi'
    rw [hnumber, if_pos (hclears i hi)]
  · rw [hloaded, ← List.getLast?_map, hreported]
    rfl

/-- **A number falls short.** A rule file clears the rules and adds one. As many rules were there
before, and none is reported. -/
theorem not_forall_reported_eq :
    ¬ ∀ (files : FileTree) (c : Chain) (change : Change), (change.apply files c).failure = none →
      ∀ i ∈ change.intakes files c, i.reported = i.brought.length := by
  intro h
  let files : FileTree :=
    ⟨.directory [("rules".toList, .file (Text.utf8 "!\n+ kept\n".toList))], []⟩
  let c := (Chain.ofLines files ".".toList ["- dropped".toList]).chain
  let change := Change.line ". rules".toList
  -- the rule that was there before makes up for the one that is brought
  have hok : (change.apply files c).failure = none := by decide +kernel
  have hbrought : (change.intakes files c).map (·.brought.length) = [1] := by decide +kernel
  have hreported : (change.intakes files c).map (·.reported) = [0] := by decide +kernel
  have hsame := List.map_congr_left (h files c change hok)
  rw [hbrought, hreported] at hsame
  cases hsame

end Change

end PathFilter
