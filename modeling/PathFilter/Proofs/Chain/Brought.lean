import PathFilter.Proofs.Chain.Moments

/-!
# What becomes of the rules

The events on the way tell what becomes of the rules of the top layer. Each rule that is added has
an event, and so has each clearing; nothing else touches the two lists. So the rules that are left
can be read off: those of before, unless they were cleared, and behind them those that were added
since. Rules are cleared by the lines that are carried out and by nothing else, however deep the
rule files are nested in which they stand.

## Main definitions

* `Event.brought`: the rules that some events add and do not clear again
* `Outcome.TellsRules`: the events of an outcome tell what became of the rules of a chain
* `Outcome.clears`: the rules are cleared on the way

## Main results

* `Script.tellsRules_run`: the events of a script tell what became of the rules
* `Outcome.TellsRules.ruleCount`: how many rules are left
* `clears_line`, `clears_own`: a line and a rule file clear the rules if a line that is carried out
  does
-/

namespace PathFilter

/-! ## What events tell of the rules -/

namespace Event

/-- Whether an event is the clearing of the rules. -/
def clears : Event → Bool
  | cleared _ => true
  | _ => false

/-- What an event leaves of the rules that were added so far, with the one that it adds. -/
def carry (rules : RuleList) : Event → RuleList
  | ruleAdded _ r => rules ++ [r]
  | cleared _ => []
  | _ => rules

/-- **The rules that some events add and do not clear again.** -/
def brought (events : List Event) : RuleList := events.foldl carry []

theorem carry_eq (rules : RuleList) (e : Event) :
    carry rules e = (if e.clears then [] else rules) ++ carry [] e := by
  cases e <;> simp [carry, clears]

theorem foldl_carry (rules : RuleList) (events : List Event) :
    events.foldl carry rules = (if events.any clears then [] else rules) ++ brought events := by
  induction events generalizing rules with
  | nil => simp [brought]
  | cons e es ih =>
    rw [brought, List.foldl_cons, List.foldl_cons, ih, ih (carry [] e), carry_eq rules e,
      List.any_cons]
    -- a clearing further on takes the rule of this event as well
    cases es.any clears <;> cases e.clears <;> simp

theorem brought_append (es fs : List Event) :
    brought (es ++ fs) = (if fs.any clears then [] else brought es) ++ brought fs := by
  rw [brought, List.foldl_append]
  exact foldl_carry _ fs

end Event

/-- Every rule is about transfers or about deletion. -/
theorem RuleList.length_filter_purpose (rules : RuleList) :
    (rules.filter (·.purpose = .transfer)).length +
      (rules.filter (·.purpose = .deletion)).length = rules.length := by
  induction rules with
  | nil => rfl
  | cons r rules ih =>
    rw [List.filter_cons, List.filter_cons, List.length_cons, ← ih]
    cases r.purpose <;> simp <;> omega

namespace Chain

theorem rulesFor_add (c : Chain) (r : Rule) (p : Purpose) :
    (c.add r).here.rulesFor p = c.here.rulesFor p ++ [r].filter (·.purpose = p) := by
  rw [here_add, Layer.add]
  cases hr : r.purpose <;> cases p <;> simp [Layer.rulesFor, hr]

theorem ruleCount_eq_rulesFor (c : Chain) :
    c.ruleCount =
      (c.here.rulesFor .transfer).length + (c.here.rulesFor .deletion).length := rfl

end Chain

namespace Outcome

variable {c : Chain} {o : Outcome} {f : Chain → Outcome}

/-- **Whether the rules are cleared** on the way. -/
def clears (o : Outcome) : Bool := o.events.any Event.clears

/-- **Whether an outcome tells what became of the rules** of a chain: on each of the two lists there
are those that it held before, unless they were cleared, and behind them those that the events
brought. -/
def TellsRules (c : Chain) (o : Outcome) : Prop :=
  ∀ p, o.chain.here.rulesFor p =
    (if o.clears then [] else c.here.rulesFor p) ++
      (Event.brought o.events).filter (·.purpose = p)

theorem clears_andThen :
    (o.andThen f).clears = true ↔
      o.clears = true ∨ o.failure = none ∧ (f o.chain).clears = true := by
  obtain ⟨c', es, _ | e⟩ := o <;> simp [clears, andThen]

/-- Without events nothing has become of the rules. -/
theorem tellsRules_of_rulesFor_eq {c' : Chain} {e : Option FilterError}
    (h : ∀ p, c'.here.rulesFor p = c.here.rulesFor p) : TellsRules c ⟨c', [], e⟩ := by
  intro p
  simp [clears, Event.brought, h p]

theorem tellsRules_addTraced (c : Chain) (r : Rule) : TellsRules c (c.addTraced r) := by
  intro p
  simp [Chain.addTraced, Chain.rulesFor_add, clears, Event.clears, Event.brought, Event.carry]

theorem TellsRules.andThen (ho : TellsRules c o) (hf : ∀ c', TellsRules c' (f c')) :
    TellsRules c (o.andThen f) := by
  obtain ⟨c', es, _ | e⟩ := o
  · intro p
    have hfirst : c'.here.rulesFor p = _ := ho p
    have hsecond := hf c' p
    simp only [clears] at hfirst hsecond
    simp only [clears, Outcome.andThen, Event.brought_append, List.any_append]
    rw [hsecond, hfirst]
    -- what the second clears is gone, be it from before or from the first
    by_cases hclear : (f c').events.any Event.clears = true <;> simp [hclear]
  · exact ho

/-- **How many rules are left**, if the outcome tells what became of them. -/
theorem TellsRules.ruleCount (h : TellsRules c o) :
    o.chain.ruleCount =
      (if o.clears then 0 else c.ruleCount) + (Event.brought o.events).length := by
  have hbrought := RuleList.length_filter_purpose (Event.brought o.events)
  rw [Chain.ruleCount_eq_rulesFor, Chain.ruleCount_eq_rulesFor c, h, h, List.length_append,
    List.length_append]
  cases o.clears with
  | true =>
    simp only [if_true, List.length_nil]
    omega
  | false =>
    simp only [Bool.false_eq_true, if_false]
    omega

end Outcome

namespace Edit

theorem tellsRules_apply (c : Chain) (e : Edit) : Outcome.TellsRules c (e.apply c) := by
  cases e with
  | add r => exact Outcome.tellsRules_addTraced c r
  | clear =>
    intro p
    cases p <;> rfl
  | isolate => exact Outcome.tellsRules_of_rulesFor_eq fun p => by cases p <;> rfl
  | declare d => exact Outcome.tellsRules_of_rulesFor_eq fun p => by cases p <;> rfl
  | hideDeclared =>
    simp only [apply]
    split
    · exact Outcome.tellsRules_of_rulesFor_eq fun _ => rfl
    · split
      · exact Outcome.tellsRules_of_rulesFor_eq fun _ => rfl
      · exact Outcome.tellsRules_addTraced c _

end Edit

/-- **The events of a script tell what became of the rules**, by induction on it. -/
theorem Script.tellsRules_run (s : Script) (c : Chain) : Outcome.TellsRules c (s.run c) := by
  induction s generalizing c with
  | done => exact Outcome.tellsRules_of_rulesFor_eq fun _ => rfl
  | fail e => exact Outcome.tellsRules_of_rulesFor_eq fun _ => rfl
  | edit e rest ih => exact (e.tellsRules_apply c).andThen ih
  | merge path body rest ihb ih =>
    refine (ihb c).andThen fun c' => Outcome.TellsRules.andThen ?_ ih
    intro p
    simp [Outcome.clears, Event.clears, Event.brought, Event.carry]

/-! ## The lines that clear the rules -/

namespace Script

variable (c : Chain)

theorem clears_run_ofRule (x : Except FilterError Rule) :
    ((ofRule x .done).run c).clears = false := by
  rcases x with e | r <;> rfl

theorem clears_run_hiding (hide : Bool) (file : Text) :
    ((Script.hiding hide file).run c).clears = false := by
  cases hide with
  | true => exact clears_run_ofRule c _
  | false => rfl

/-- Lines that are no rule lines clear nothing. -/
theorem clears_run_verbatim (p : Polarity) (lines : List Text) :
    ((concat (lines.map fun l => ofRule (Rule.build p .ordinary l l) .done)).run c).clears =
      false := by
  induction lines generalizing c with
  | nil => rfl
  | cons line lines ih =>
    rw [List.map_cons, concat_cons, run_append, ← Bool.not_eq_true, Outcome.clears_andThen,
      clears_run_ofRule, ih]
    simp

end Script

theorem Chain.clears_declareFile (c : Chain) (file : Text) (options : MergeOptions) :
    (c.declareFile file options).clears = false := by
  unfold declareFile
  split
  · generalize (c.isolateIf options.noInherit).declare ⟨file, options⟩ = c'
    simp only [Edit.apply]
    split
    · rfl
    · split <;> rfl
  · rfl

section Lines

variable {files : FileTree} {directory : Text} {reading : List Text}

/-- A line that asks for no rule file clears the rules if it says so. -/
theorem exists_clears_other {line : Text}
    (h : ∀ options file, readLine line.trim ≠ .ok (.merge options, file)) (c : Chain) :
    (∃ m ∈ lineMoments files directory reading c line, Clears m.line) ↔
      isClearing line.trim = true := by
  rw [lineMoments_other h, isClearing_trim_iff]
  simp

/-- Lines in a row clear the rules if one of them does that is carried out. -/
theorem clears_ofLines {script : Text → Script} {moments : Chain → Text → List Moment}
    (h : ∀ c l, ((script l).run c).clears = true ↔ ∃ m ∈ moments c l, Clears m.line)
    (lines : List Text) (c : Chain) :
    ((Script.concat (lines.map script)).run c).clears = true ↔
      ∃ m ∈ Moment.ofLines script moments lines c, Clears m.line := by
  induction lines generalizing c with
  | nil => simp [Moment.ofLines, Outcome.clears, Outcome.idle]
  | cons line lines ih =>
    rw [List.map_cons, Script.concat_cons, Script.run_append, Outcome.clears_andThen, h, ih,
      Moment.ofLines]
    cases hfail : ((script line).run c).failure with
    | none => simp only [if_true, List.mem_append, or_and_right, exists_or, true_and]
    | some e => simp

/-- **A rule file clears the rules** if a line does that is carried out while it is read, given that
this is so of its lines. -/
theorem clears_own_of_lines
    (h : ∀ file ∈ files.unread reading, ∀ c l,
      ((lineScript files directory (file :: reading) l).run c).clears = true ↔
        ∃ m ∈ lineMoments files directory (file :: reading) c l, Clears m.line)
    (path : Text) (enforced : Option Polarity) (c : Chain) :
    ((ownScript files directory reading path enforced).run c).clears = true ↔
      ∃ m ∈ ownMoments files directory reading path enforced c, Clears m.line := by
  rcases hread : files.read path with failure | ⟨canonical, bytes⟩
  · rw [ownMoments_of_error hread, ownScript_of_error hread]
    simp [Script.run, Outcome.fail, Outcome.clears]
  · by_cases hr : canonical ∈ reading
    · rw [ownMoments_of_mem hread hr, ownScript_of_mem hread hr]
      simp [Script.run, Outcome.fail, Outcome.clears]
    · rw [ownScript_of_not_mem hread hr, contentScript, Script.run_append, Outcome.clears_andThen]
      have hend : ∀ c : Chain, ((if (FileLines.ofBytes bytes).intact then Script.done else
          .fail (.unreadable path directory .notText)).run c).clears = false := by
        intro c
        split <;> rfl
      rw [hend, Bool.false_eq_true, and_false, or_false]
      cases enforced with
      | some p =>
        rw [ownMoments_enforced, Script.clears_run_verbatim]
        simp
      | none =>
        rw [ownMoments_of_not_mem hread hr]
        exact clears_ofLines (h canonical (FileTree.mem_unread_of_read hread hr)) _ c

/-- **A line clears the rules** if a line does that is carried out, be it itself or one of a rule
file that is read in its place. -/
theorem clears_line (c : Chain) (line : Text) :
    ((lineScript files directory reading line).run c).clears = true ↔
      ∃ m ∈ lineMoments files directory reading c line, Clears m.line := by
  induction reading, line using line_induction files generalizing c with
  | clear reading line hc =>
    rw [lineMoments_clear hc, lineScript_clear _ _ _ hc]
    simpa [Script.run, Edit.apply, Outcome.clears, Outcome.andThen, Event.clears] using
      isClearing_trim_iff.mp hc
  | error reading line e hc hd =>
    rw [exists_clears_other (by simp [hd]), hc, lineScript_error _ _ _ hc hd]
    simp [Script.run, Outcome.fail, Outcome.clears]
  | rule reading line p k expression hc hd =>
    rw [exists_clears_other (by simp [hd]), hc, lineScript_rule _ _ _ hc hd,
      Script.clears_run_ofRule]
  | merge reading line options file hc hd ih =>
    have hown := clears_own_of_lines (fun f hf c l => ih f hf l c) (Path.join directory file)
      options.enforced (c.isolateIf options.noInherit)
    rw [lineMoments_merge hd, List.exists_mem_cons_iff, ← isClearing_trim_iff, hc, ← hown,
      lineScript_merge _ _ _ hc hd, mergeScript, Chain.run_isolating, Script.run,
      Outcome.clears_andThen, Outcome.clears_andThen, Script.clears_run_hiding]
    simp [Outcome.clears, Event.clears]
  | dirMerge reading line options file hc hd =>
    rw [exists_clears_other (by simp [hd]), hc, lineScript_dirMerge _ _ _ hc hd,
      Chain.run_declaring, Chain.clears_declareFile]

/-- So does a rule file. -/
theorem clears_own (path : Text) (enforced : Option Polarity) (c : Chain) :
    ((ownScript files directory reading path enforced).run c).clears = true ↔
      ∃ m ∈ ownMoments files directory reading path enforced c, Clears m.line :=
  clears_own_of_lines (fun _ _ => clears_line) path enforced c

end Lines

end PathFilter
