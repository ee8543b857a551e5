import PathFilter.Proofs.Chain.Entry
import PathFilter.Proofs.Chain.Nesting
import PathFilter.Proofs.Chain.Printed

/-!
# Rule files taken verbatim

Under an enforced polarity the lines of a rule file are no rule lines. Each is a path expression as
it stands, whatever else it could be read as, and makes an ordinary rule of that polarity. So
merging such a file does nothing but add rules, up to the first line that makes none or is no text,
and nothing but that file has a say in it.

## Main definitions

* `Chain.addAll`: rules added behind those about transfers
* `Rule.IsVerbatim`: a rule is made of a line as it stands
* `VerbatimEnd`: how the lines of a file come to an end

## Main results

* `Script.exists_verbatim`: the script of the lines adds rules and then ends
* `Chain.merge_eq_verbatim`: what merging a file verbatim does
* `Chain.merge_verbatim`: it adds the rules of the lines, and is neither refused nor led elsewhere
-/

namespace PathFilter

namespace Chain

/-- **Rules added** behind those about transfers. -/
def addAll (c : Chain) (rules : RuleList) : Chain :=
  c.mapHere fun l => { l with rules := l.rules ++ rules }

theorem addAll_nil (c : Chain) : c.addAll [] = c := by
  simp [addAll, mapHere]

theorem addAll_cons {r : Rule} (hr : r.ruleClass = .ordinary) (rules : RuleList) (c : Chain) :
    (c.add r).addAll rules = c.addAll (r :: rules) := by
  simp [addAll, add, Rule.purpose, hr, RuleClass.purpose, mapHere]

@[simp] theorem ruleCount_addAll (c : Chain) (rules : RuleList) :
    (c.addAll rules).ruleCount = c.ruleCount + rules.length := by
  simp only [addAll, mapHere, ruleCount, Layer.ruleCount, List.length_append]
  omega

end Chain

/-- **Whether a rule is made of a line as it stands**, as an ordinary rule of a polarity. -/
def Rule.IsVerbatim (p : Polarity) (line : Text) (r : Rule) : Prop :=
  Rule.build p .ordinary line line = .ok r

/-- **How the lines of a file that is taken verbatim come to an end**: with the last line if the
file is text to its end, behind the last line that is text, or before a line that makes no rule. -/
inductive VerbatimEnd (p : Polarity) (path directory : Text) (intact : Bool) :
    List Text → Option FilterError → Prop where
  /-- All lines have made rules. -/
  | whole (h : intact = true) : VerbatimEnd p path directory intact [] none
  /-- All lines have made rules, but the file goes on with what is no text. -/
  | notText (h : intact = false) :
    VerbatimEnd p path directory intact [] (some (.unreadable path directory .notText))
  /-- A line makes no rule. -/
  | fault {line : Text} {lines : List Text} {e : FilterError}
    (h : Rule.build p .ordinary line line = .error e) :
    VerbatimEnd p path directory intact (line :: lines) (some (e.inDirectory directory))

/-! ## The script of the lines -/

namespace Script

theorem run_adding_ordinary {rules : RuleList} (h : ∀ r ∈ rules, r.ruleClass = .ordinary)
    (c : Chain) :
    (adding rules).run c = ⟨c.addAll rules, rules.map (.ruleAdded c.directory), none⟩ := by
  induction rules generalizing c with
  | nil =>
    rw [Chain.addAll_nil]
    rfl
  | cons r rules ih =>
    obtain ⟨hr, hrules⟩ := List.forall_mem_cons.mp h
    rw [run_adding_cons, ← Chain.addAll_cons hr, List.map_cons]
    simp only [Outcome.andThen, Chain.addTraced, ih hrules, Chain.directory_add]
    rfl

/-- **The lines of a file that is taken verbatim** add the rules that they make, up to the first
that makes none. -/
theorem exists_verbatim (p : Polarity) (lines : List Text) (tail : Script) :
    ∃ taken rest rules, lines = taken ++ rest ∧ List.Forall₂ (Rule.IsVerbatim p) taken rules ∧
      ((rest = [] ∧ (concat (lines.map fun l => ofRule (Rule.build p .ordinary l l) done)).append
          tail = (adding rules).append tail) ∨
        ∃ line lines' e, rest = line :: lines' ∧ Rule.build p .ordinary line line = .error e ∧
          (concat (lines.map fun l => ofRule (Rule.build p .ordinary l l) done)).append tail =
            (adding rules).append (fail e)) := by
  induction lines with
  | nil => exact ⟨[], [], [], rfl, .nil, .inl ⟨rfl, rfl⟩⟩
  | cons line lines ih =>
    rw [List.map_cons, concat_cons, append_assoc]
    rcases hbuild : Rule.build p .ordinary line line with e | r
    · exact ⟨[], line :: lines, [], rfl, .nil, .inr ⟨line, lines, e, rfl, hbuild, rfl⟩⟩
    · obtain ⟨taken, rest, rules, rfl, hrules, hend⟩ := ih
      refine ⟨line :: taken, rest, r :: rules, rfl, .cons hbuild hrules, ?_⟩
      rcases hend with ⟨hrest, hscript⟩ | ⟨line', lines', e, hrest, hfault, hscript⟩
      · exact .inl ⟨hrest, congrArg (edit (.add r)) hscript⟩
      · exact .inr ⟨line', lines', e, hrest, hfault, congrArg (edit (.add r)) hscript⟩

end Script

theorem Rule.ruleClass_of_isVerbatim {p : Polarity} {lines : List Text} {rules : RuleList}
    (h : List.Forall₂ (Rule.IsVerbatim p) lines rules) : ∀ r ∈ rules, r.ruleClass = .ordinary := by
  induction h with
  | nil => simp
  | cons hr _ ih => exact List.forall_mem_cons.mpr ⟨(Rule.expression_build hr).2.1, ih⟩

namespace Chain

variable {files : FileTree} {c : Chain} {file canonical : Text} {bytes : List UInt8} {p : Polarity}

/-- What merging a file verbatim does: what its lines do, and the event of the file. -/
theorem merge_verbatim_eq_run (files : FileTree) (c : Chain) (file : Text) (p : Polarity) :
    c.merge files file (.verbatim p) =
      (((ownScript files c.directory [] (Path.join c.directory file) (some p)).run c).andThen
        fun c' => ⟨c', [.fileMerged c'.directory (Path.join c.directory file)
          (c'.ruleCount - c.ruleCount)], none⟩).within c.directory :=
  rfl

/-- **What merging a file verbatim does.** -/
theorem merge_eq_verbatim
    (hread : files.read (Path.join c.directory file) = .ok (canonical, bytes)) :
    ∃ taken rest rules failure, (FileLines.ofBytes bytes).rules = taken ++ rest ∧
      List.Forall₂ (Rule.IsVerbatim p) taken rules ∧
      VerbatimEnd p (Path.join c.directory file) c.directory (FileLines.ofBytes bytes).intact rest
        failure ∧
      c.merge files file (.verbatim p) =
        ⟨c.addAll rules,
          rules.map (.ruleAdded c.directory) ++
            if failure = none then
              [.fileMerged c.directory (Path.join c.directory file) rules.length] else [],
          failure⟩ := by
  rw [merge_verbatim_eq_run, ownScript_of_not_mem hread List.not_mem_nil, contentScript]
  generalize FileLines.ofBytes bytes = content
  obtain ⟨taken, rest, rules, hlines, hrules, hend⟩ := Script.exists_verbatim p content.rules
    (if content.intact then .done else
      .fail (.unreadable (Path.join c.directory file) c.directory .notText))
  have hadded := Script.run_adding_ordinary (Rule.ruleClass_of_isVerbatim hrules) c
  have hfailed : ∀ e : FilterError,
      ((((Script.adding rules).append (.fail e)).run c).andThen fun c' =>
        ⟨c', [.fileMerged c'.directory (Path.join c.directory file)
          (c'.ruleCount - c.ruleCount)], none⟩).within c.directory =
        ⟨c.addAll rules, rules.map (.ruleAdded c.directory), some (e.inDirectory c.directory)⟩ := by
    intro e
    rw [Script.run_append, hadded]
    simp [Outcome.andThen, Outcome.within, Script.run, Outcome.fail]
  rcases hend with ⟨rfl, hscript⟩ | ⟨line, lines, e, rfl, hfault, hscript⟩
  · cases hintact : content.intact with
    | true =>
      refine ⟨taken, [], rules, none, hlines, hrules, .whole rfl, ?_⟩
      simp only [hintact, if_true, Script.append_done] at hscript ⊢
      have hdirectory : (c.addAll rules).directory = c.directory := rfl
      rw [hscript, hadded]
      simp [Outcome.andThen, Outcome.within, hdirectory]
    | false =>
      refine ⟨taken, [], rules, _, hlines, hrules, .notText rfl, ?_⟩
      simp only [hintact, Bool.false_eq_true, if_false] at hscript ⊢
      rw [hscript, hfailed]
      simp [FilterError.inDirectory]
  · refine ⟨taken, _, rules, _, hlines, hrules, .fault hfault, ?_⟩
    simp only
    rw [hscript, hfailed]
    simp

/-- A file taken verbatim is not refused: no other file is being read, and none is asked for. -/
theorem not_isRefused_merge_verbatim (files : FileTree) (c : Chain) (file : Text) (p : Polarity) :
    ¬ (c.merge files file (.verbatim p)).IsRefused := by
  rintro ⟨path, hpath⟩
  rcases hread : files.read (Path.join c.directory file) with failure | ⟨canonical, bytes⟩
  · rw [merge_verbatim_eq_run, ownScript_of_error hread] at hpath
    cases hpath
  · obtain ⟨taken, rest, rules, failure, -, -, hend, hmerged⟩ := merge_eq_verbatim (p := p) hread
    rw [hmerged] at hpath
    cases hend with
    | whole h => cases hpath
    | notText h => cases hpath
    | @fault line lines e h =>
      cases e with
      | malformed line directory fault => cases directory <;> cases hpath
      | faultyPattern path fault => cases hpath
      | unreadable file directory failure => cases hpath
      | recursive file => exact Rule.ofExpression_ne_recursive _ _ _ _ _ h

/-- Nothing but the file itself has a say in what a file taken verbatim does. -/
theorem merge_verbatim_congr {files' : FileTree}
    (h : files'.read (Path.join c.directory file) = files.read (Path.join c.directory file)) :
    c.merge files' file (.verbatim p) = c.merge files file (.verbatim p) := by
  rw [merge_verbatim_eq_run, merge_verbatim_eq_run]
  rcases hread : files.read (Path.join c.directory file) with failure | ⟨canonical, bytes⟩
  · rw [hread] at h
    rw [ownScript_of_error hread, ownScript_of_error h]
  · rw [hread] at h
    rw [ownScript_of_not_mem hread List.not_mem_nil, ownScript_of_not_mem h List.not_mem_nil]
    rfl

/-- **A rule file taken verbatim adds rules and does nothing else.** If the file cannot be opened
the chain stays as it was. Otherwise the rules that its lines make are added in their order, up to
the first line that makes none or is no text; then merging fails. It is never refused, no other file
has a say in it, and a merge line does the same. -/
theorem merge_verbatim (files : FileTree) (c : Chain) (file : Text) (p : Polarity) :
    let path := Path.join c.directory file
    let merged := c.merge files file (.verbatim p)
    (∀ failure, files.read path = .error failure →
        merged = .fail c (.unreadable path c.directory failure)) ∧
      (∀ canonical bytes, files.read path = .ok (canonical, bytes) →
        ∃ taken rest rules failure, (FileLines.ofBytes bytes).rules = taken ++ rest ∧
          List.Forall₂ (Rule.IsVerbatim p) taken rules ∧
          VerbatimEnd p path c.directory (FileLines.ofBytes bytes).intact rest failure ∧
          merged = ⟨c.addAll rules,
            rules.map (.ruleAdded c.directory) ++
              if failure = none then [.fileMerged c.directory path rules.length] else [],
            failure⟩) ∧
      ¬ merged.IsRefused ∧
      (∀ files' : FileTree, files'.read path = files.read path →
        c.merge files' file (.verbatim p) = merged) ∧
      ∀ line, readLine line = .ok (.merge (.verbatim p), file) → c.read files line = merged := by
  intro path merged
  refine ⟨fun failure h => ?_, fun canonical bytes h => merge_eq_verbatim h,
    not_isRefused_merge_verbatim files c file p, fun files' h => merge_verbatim_congr h,
    fun line h => read_of_readLine_merge h⟩
  simp only [merged]
  rw [merge_verbatim_eq_run, ownScript_of_error h]
  rfl

/-- A file that asks for itself and clears the rules, if its lines were rule lines. The third line
makes no rule. -/
theorem merge_verbatim_directives :
    let text : Text := ". rules\n  clear all \n#!\n!\n*.o".toList
    let files : FileTree := ⟨.directory [("rules".toList, .file text.utf8)], []⟩
    let c : Chain := root "/".toList
    let merged := c.merge files "rules".toList (.verbatim .exclude)
    (FileLines.ofBytes text.utf8).rules =
        [". rules".toList, "clear all".toList, "!".toList, "*.o".toList] ∧
      c.read files ".- rules".toList = merged ∧ ¬ merged.IsRefused ∧
      ∃ taken rest rules failure, (FileLines.ofBytes text.utf8).rules = taken ++ rest ∧
        List.Forall₂ (Rule.IsVerbatim .exclude) taken rules ∧
        VerbatimEnd .exclude "/rules".toList "/".toList true rest failure ∧
        merged.chain = c.addAll rules ∧ merged.failure = failure := by
  intro text files c merged
  have hread : files.read (Path.join c.directory "rules".toList) =
      .ok ("/rules".toList, text.utf8) :=
    FileTree.read_pathOf ["rules".toList] (by decide) (by decide) (by decide) rfl
  have hname : ∀ d ∈ "rules".toList, isBlank d = false := by simp [isBlank]
  have hline : readLine ".- rules".toList = .ok (.merge (.verbatim .exclude), "rules".toList) :=
    MergeOptions.readLine_line (.verbatim .exclude) (by decide) hname
  have hrules : (FileLines.ofBytes text.utf8).rules =
      [". rules".toList, "clear all".toList, "!".toList, "*.o".toList] := by
    rw [FileLines.rules_ofBytes_utf8]
    decide +kernel
  obtain ⟨-, hmerged, hrefused, -, hsame⟩ := merge_verbatim files c "rules".toList .exclude
  obtain ⟨taken, rest, rules, failure, hlines, hbuilt, hend, heq⟩ := hmerged _ _ hread
  rw [FileLines.intact_ofBytes_utf8] at hend
  refine ⟨hrules, hsame _ hline, hrefused, taken, rest, rules, failure, hlines, hbuilt, hend, ?_⟩
  simp only [merged, heq, and_self]

end Chain

end PathFilter
