import PathFilter.Proofs.Chain.InPlace
import PathFilter.Proofs.Chain.Tie
import PathFilter.Proofs.Rule.Line

/-!
# A list of rules as a rule file

The lines of a list of rules make a rule file. If each of the rules was read from a line, merging
the file adds the same rules again, in the same order, each to the list of its purpose.

## Main definitions

* `Script.adding`: the script that adds some rules

## Main results

* `lineScript_toText`: the line of a rule adds the rule
* `Chain.merge_toText`: the file of a list of rules adds the rules
* `Chain.merge_toText_root`: a list of rules is read back from its file
-/

namespace PathFilter

/-! ## Rules added in a row -/

namespace Script

/-- The script that adds some rules. -/
def adding (rules : RuleList) : Script := concat (rules.map fun r => .edit (.add r) .done)

theorem run_adding_cons (r : Rule) (rules : RuleList) (c : Chain) :
    (adding (r :: rules)).run c = (c.addTraced r).andThen (adding rules).run := by
  rw [adding, List.map_cons, concat_cons, append, run]
  rfl

theorem failure_run_adding (rules : RuleList) (c : Chain) :
    ((adding rules).run c).failure = none := by
  induction rules generalizing c with
  | nil => rfl
  | cons r rules ih =>
    rw [run_adding_cons]
    exact ih (c.add r)

/-- **Rules added in a row** go behind those on the lists of their purposes, in the same order. -/
theorem here_run_adding (rules : RuleList) (c : Chain) :
    ((adding rules).run c).chain.here = { c.here with
      rules := c.here.rules ++ rules.filter fun r => r.ruleClass = .ordinary
      deletionRules := c.here.deletionRules ++ rules.filter fun r => r.ruleClass ≠ .ordinary } := by
  induction rules generalizing c with
  | nil => simp [adding, Outcome.idle]
  | cons r rules ih =>
    rw [run_adding_cons]
    refine (ih (c.add r)).trans ?_
    rw [Chain.here_add, Layer.add, Rule.purpose]
    cases hclass : r.ruleClass <;> simp [RuleClass.purpose, hclass]

end Script

/-! ## The file of a list of rules -/

theorem isClearing_toText (r : Rule) : isClearing r.toText = false := by
  rw [isClearing, Rule.toText]
  cases r.polarity <;> cases r.ruleClass <;> rfl

section File

variable {files : FileTree} {directory : Text} {rules : RuleList}

/-- **The line of a rule adds the rule.** -/
theorem lineScript_toText {r : Rule} (h : r.IsLegible) (reading : List Text) :
    lineScript files directory reading r.toText = .edit (.add r) .done := by
  have htrim := Rule.trim_toText h
  have hclear : isClearing r.toText.trim = false := by rw [htrim, isClearing_toText]
  have hline : readLine r.toText.trim =
      .ok (.rule r.polarity r.ruleClass, r.expression.toText) := by
    rw [htrim, Rule.readLine_toText h]
  rw [lineScript_rule files directory reading hclear hline, Rule.build_toText h]
  rfl

theorem concat_lineScript_toText (h : ∀ r ∈ rules, r.IsLegible) (reading : List Text) :
    Script.concat ((rules.map Rule.toText).map (lineScript files directory reading)) =
      .adding rules := by
  rw [Script.adding, List.map_map]
  refine congrArg Script.concat (List.map_congr_left fun r hr => ?_)
  exact lineScript_toText (h r hr) reading

end File

namespace Chain

variable {files : FileTree} {file canonical : Text} {rules : RuleList}

/-- **The file of a list of rules adds the rules**, each to the list of its purpose. -/
theorem merge_toText {c : Chain} (h : ∀ r ∈ rules, r.IsLegible) (noInherit : Bool)
    (hfile : files.read (Path.join c.directory file) =
      .ok (canonical, (RuleList.toText rules).utf8)) :
    let merged := c.merge files file ⟨none, false, noInherit⟩
    merged.failure = none ∧
      merged.chain.here.rules = c.here.rules ++ rules.filter (fun r => r.ruleClass = .ordinary) ∧
      merged.chain.here.deletionRules =
        c.here.deletionRules ++ rules.filter (fun r => r.ruleClass ≠ .ordinary) := by
  intro merged
  let start := c.isolateIf noInherit
  have hfailure := Script.failure_run_adding rules start
  have hhere := Script.here_run_adding rules start
  have hmerged : merged.failure = none ∧
      merged.chain = ((Script.adding rules).run start).chain := by
    simp only [merged]
    rw [merge_eq_run (by rfl) hfile, RuleList.ruleLines_toText h, concat_lineScript_toText h]
    simp [Outcome.andThen, Outcome.within, hfailure, start, Script.hiding, Outcome.idle]
  have hrules : start.here.rules = c.here.rules := by cases noInherit <;> rfl
  have hdeletion : start.here.deletionRules = c.here.deletionRules := by cases noInherit <;> rfl
  rw [hmerged.2, hhere, hrules, hdeletion]
  exact ⟨hmerged.1, rfl, rfl⟩

/-- **A list of rules is read back from its file.** If each rule was read from some line, and a file
holds the lines of the rules, then merging it into the chain of a first directory succeeds and
leaves the ordinary rules and the rules about deletion on their lists, in the order they had. A
merge line does the same. -/
theorem merge_toText_root {directory : Text} (hrules : ∀ r ∈ rules, ∃ line, Rule.parse line = .ok r)
    (noInherit : Bool)
    (hfile : files.read (Path.join directory file) =
      .ok (canonical, (RuleList.toText rules).utf8)) :
    let options : MergeOptions := ⟨none, false, noInherit⟩
    let merged := (root directory).merge files file options
    merged.failure = none ∧
      merged.chain.here.rules = rules.filter (fun r => r.ruleClass = .ordinary) ∧
      merged.chain.here.deletionRules = rules.filter (fun r => r.ruleClass ≠ .ordinary) ∧
      ∀ line : Text, isClearing line.trim = false →
        readLine line.trim = .ok (.merge options, file) →
          (root directory).read files line = merged := by
  intro options merged
  have hlegible : ∀ r ∈ rules, r.IsLegible := fun r hr => Rule.isLegible_iff.mpr (hrules r hr)
  obtain ⟨hfailure, hordinary, hdeletion⟩ :=
    merge_toText (c := root directory) hlegible noInherit hfile
  exact ⟨hfailure, hordinary, hdeletion, fun line hclear hline => read_eq_merge hclear hline⟩

/-- Rules of all classes, read from lines that are spelled otherwise than the rules are written. -/
theorem merge_toText_root_mixed :
    let hidden : Rule := ⟨.exclude, .protect, .ofText "ü".toList, by decide, by decide +kernel⟩
    let excluded : Rule :=
      ⟨.exclude, .ordinary, .ofText "!/a#\\*/".toList, by decide, by decide +kernel⟩
    let shown : Rule := ⟨.include, .risk, .ofText "#keep".toList, by decide, by decide +kernel⟩
    let included : Rule :=
      ⟨.include, .ordinary, .ofText "[x-z]".toList, by decide, by decide +kernel⟩
    let rules : RuleList := [hidden, excluded, shown, included]
    let files : FileTree :=
      ⟨.directory [("rules".toList, .file (RuleList.toText rules).utf8)], []⟩
    let merged := (root "/".toList).merge files "rules".toList ⟨none, false, true⟩
    RuleList.toText rules = "P ü\n- !/a#\\*/\nR #keep\n+ [x-z]\n".toList ∧
      Rule.parse " hide\tü ".toList = .ok hidden ∧
      Rule.parse "exclude, !/a#\\*/".toList = .ok excluded ∧
      Rule.parse "show #keep".toList = .ok shown ∧ Rule.parse "+ [x-z]".toList = .ok included ∧
      merged.failure = none ∧ merged.chain.here.rules = [excluded, included] ∧
      merged.chain.here.deletionRules = [hidden, shown] := by
  intro hidden excluded shown included rules files merged
  have hhidden : Rule.parse " hide\tü ".toList = .ok hidden := by decide +kernel
  have hexcluded : Rule.parse "exclude, !/a#\\*/".toList = .ok excluded := by decide +kernel
  have hshown : Rule.parse "show #keep".toList = .ok shown := by decide +kernel
  have hincluded : Rule.parse "+ [x-z]".toList = .ok included := by decide +kernel
  have hrules : ∀ r ∈ rules, ∃ line, Rule.parse line = .ok r := by
    simp only [rules, List.forall_mem_cons]
    exact ⟨⟨_, hhidden⟩, ⟨_, hexcluded⟩, ⟨_, hshown⟩, ⟨_, hincluded⟩, by simp⟩
  have hfile : files.read (Path.join "/".toList "rules".toList) =
      .ok ("/rules".toList, (RuleList.toText rules).utf8) :=
    FileTree.read_pathOf ["rules".toList] (by decide) (by decide) (by decide) rfl
  obtain ⟨hfailure, hordinary, hdeletion, -⟩ := merge_toText_root hrules true hfile
  exact ⟨by decide +kernel, hhidden, hexcluded, hshown, hincluded, hfailure, hordinary, hdeletion⟩

end Chain

end PathFilter
