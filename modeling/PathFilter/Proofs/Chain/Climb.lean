import PathFilter.Chain.Verdict
import Mathlib.Order.Nat

/-!
# The verdict by a full climb

The verdict about a candidate can be found recursively: the rules of a layer are asked first, and
if none of them decides, each visible layer below makes a full climb of its own until one of them
decides. The chain is climbed only once instead, and neither way differs from asking one list of
all rules that can be seen. What keeps the three together is that a layer which could not decide
finds nothing more when it is asked again.

## Main definitions

* `Layer.inherited`: the layers that a layer inherits from
* `Layer.climb`, `Layer.climbBelow`: the recursive verdict
* `Chain.checkInFull`: the recursive verdict about a candidate

## Main results

* `Layer.climb_eq_checkVisible`: a full climb decides as one list of all visible rules
* `Rule.matches?_subjectOf`: the slash given to a directory makes no difference to a rule
* `Chain.check_eq_checkInFull`: the three verdicts agree
-/

namespace PathFilter

/-! ## The recursive verdict -/

theorem Verdict.or_self (v : Verdict) : v.or v = v := by cases v <;> rfl

namespace Layer

/-- The layers that the first one inherits from: those below it, unless it is isolated. -/
def inherited : List Layer → List Layer
  | [] => []
  | l :: ls => if l.isIsolated then [] else ls

theorem length_inherited_cons (l : Layer) (ls : List Layer) :
    (inherited (l :: ls)).length ≤ ls.length := by
  rw [inherited]
  split
  · exact Nat.zero_le _
  · exact Nat.le_refl _

/-- What can be seen from a layer is the layer and what can be seen from those it inherits from. -/
theorem visible_cons (l : Layer) (ls : List Layer) :
    visible (l :: ls) = l :: visible (inherited (l :: ls)) := by
  rw [inherited]
  split
  · next h => rw [visible_cons_isolated h, visible_nil]
  · next h => rw [visible_cons_open (by simpa using h)]

mutual

/-- **The verdict of a full climb**: that of the first layer, or else the first one that a climb
below finds. -/
def climb (purpose : Purpose) (path : Text) (isDirectory : Bool) : List Layer → Verdict
  | [] => .neutral
  | l :: ls =>
    (RuleList.check (l.rulesFor purpose) path isDirectory).or
      (climbBelow purpose path isDirectory (inherited (l :: ls)))
termination_by ls => (ls.length, 0)
decreasing_by
  have := length_inherited_cons l ls
  simp only [Prod.lex_def, List.length_cons]
  omega

/-- The first verdict that is not neutral among those of full climbs from each visible layer. -/
def climbBelow (purpose : Purpose) (path : Text) (isDirectory : Bool) : List Layer → Verdict
  | [] => .neutral
  | l :: ls =>
    (climb purpose path isDirectory (l :: ls)).or
      (climbBelow purpose path isDirectory (inherited (l :: ls)))
termination_by ls => (ls.length, 1)
decreasing_by
  · exact Prod.Lex.right _ Nat.zero_lt_one
  · have := length_inherited_cons l ls
    simp only [Prod.lex_def, List.length_cons]
    omega

end

section Rules

variable {purpose : Purpose} {path : Text} {isDirectory : Bool}

theorem climb_nil : climb purpose path isDirectory [] = .neutral := by rw [climb]

theorem climbBelow_nil : climbBelow purpose path isDirectory [] = .neutral := by rw [climbBelow]

/-- The verdict of one list of all rules that some layers can see. -/
def checkVisible (purpose : Purpose) (path : Text) (isDirectory : Bool) (ls : List Layer) :
    Verdict :=
  RuleList.check ((visible ls).flatMap (·.rulesFor purpose)) path isDirectory

theorem checkVisible_cons (l : Layer) (ls : List Layer) :
    checkVisible purpose path isDirectory (l :: ls) =
      (RuleList.check (l.rulesFor purpose) path isDirectory).or
        (checkVisible purpose path isDirectory (inherited (l :: ls))) := by
  rw [checkVisible, visible_cons, List.flatMap_cons, RuleList.check_append, checkVisible]

/-- A full climb and the search below it decide as one list of all visible rules would. -/
theorem climb_and_climbBelow_eq_checkVisible (ls : List Layer) :
    climb purpose path isDirectory ls = checkVisible purpose path isDirectory ls ∧
      climbBelow purpose path isDirectory ls = checkVisible purpose path isDirectory ls := by
  induction hl : ls.length using Nat.strong_induction_on generalizing ls with
  | _ n ih =>
    subst hl
    cases ls with
    | nil => exact ⟨climb_nil, climbBelow_nil⟩
    | cons l ls =>
      have hlt : (inherited (l :: ls)).length < (l :: ls).length :=
        Nat.lt_succ_of_le (length_inherited_cons l ls)
      obtain ⟨-, hbelow⟩ := ih _ hlt (inherited (l :: ls)) rfl
      have hclimb : climb purpose path isDirectory (l :: ls) =
          checkVisible purpose path isDirectory (l :: ls) := by
        rw [climb, hbelow, checkVisible_cons]
      refine ⟨hclimb, ?_⟩
      -- the layers below are asked once more, and answer as they did within the climb
      rw [climbBelow, hclimb, hbelow, checkVisible_cons, Verdict.or_assoc, Verdict.or_self]

/-- **A full climb decides as one list of all visible rules would.** -/
theorem climb_eq_checkVisible (ls : List Layer) :
    climb purpose path isDirectory ls = checkVisible purpose path isDirectory ls :=
  (climb_and_climbBelow_eq_checkVisible ls).1

end Rules

end Layer

/-! ## The slash of a directory -/

namespace PathExpression

/-- An expression compares a directory in the same form with and without the slash. -/
theorem subject_append_slash (e : PathExpression) {candidate : Text} (hc : candidate ≠ [])
    (hs : candidate.endsWith '/' = false) :
    e.subject (candidate ++ ['/']) = e.subject candidate := by
  have hends : (candidate ++ ['/']).endsWith '/' = true := by simp [Text.endsWith]
  have hne : candidate ++ ['/'] ≠ ['/'] := by simpa using hc
  unfold subject
  by_cases hd : e.directoryOnly = true
  · simp [hd, hends, hs]
  · simp [hd, hends, hs, hne]

end PathExpression

namespace Rule

theorem matches?_append_slash (r : Rule) {candidate : Text} (hc : candidate ≠ [])
    (hs : candidate.endsWith '/' = false) (isDirectory : Bool) :
    r.matches? (candidate ++ ['/']) isDirectory = r.matches? candidate isDirectory := by
  simp only [matches?, PathExpression.matches?, r.expression.subject_append_slash hc hs]

/-- **The slash given to a directory makes no difference to a rule**, which gives and takes it by
itself. -/
theorem matches?_subjectOf (r : Rule) {candidate : Text} (hc : candidate ≠ [])
    (isDirectory : Bool) :
    r.matches? (subjectOf candidate isDirectory) isDirectory =
      r.matches? candidate isDirectory := by
  unfold subjectOf
  split
  · next h =>
    obtain ⟨-, hs⟩ := by simpa using h
    exact r.matches?_append_slash hc hs isDirectory
  · rfl

end Rule

namespace RuleList

theorem check_congr {rules : RuleList} {c c' : Text} {isDirectory : Bool}
    (h : ∀ r : Rule, r.matches? c isDirectory = r.matches? c' isDirectory) :
    check rules c isDirectory = check rules c' isDirectory := by
  have hhits : (fun r : Rule => r.hits c isDirectory) = fun r => r.hits c' isDirectory := by
    funext r
    rw [Rule.hits, Rule.hits, h r]
  rw [check, check, firstMatch?, firstMatch?, hhits]

end RuleList

namespace Chain

/-- **The verdict about a candidate by a full climb.** -/
def checkInFull (c : Chain) (candidate : Text) (isDirectory : Bool) (purpose : Purpose) :
    Verdict :=
  Layer.climb purpose (subjectOf candidate isDirectory) isDirectory c.layers

/-- The rules for a decision that can be seen, nearest layer first. -/
def visibleRules (c : Chain) (purpose : Purpose) : RuleList :=
  c.visible.flatMap (·.rulesFor purpose)

/-- **The three verdicts agree**: climbing once, climbing in full and asking one list of all
visible rules. A directory may be named with the slash behind it or without. -/
theorem check_eq_checkInFull (c : Chain) {candidate : Text} (hc : candidate ≠ [])
    (isDirectory : Bool) (purpose : Purpose) :
    c.check candidate isDirectory purpose = c.checkInFull candidate isDirectory purpose ∧
      c.check candidate isDirectory purpose =
        (c.visibleRules purpose).check candidate isDirectory ∧
      (candidate.endsWith '/' = false →
        c.check (candidate ++ ['/']) true purpose = c.check candidate true purpose ∧
        (c.visibleRules purpose).check (candidate ++ ['/']) true =
          (c.visibleRules purpose).check candidate true) := by
  have hlist : ∀ s d, c.check s d purpose =
      (c.visibleRules purpose).check (subjectOf s d) d := by
    intro s d
    rw [check, decisive?_eq_firstMatch?]
    rfl
  refine ⟨?_, ?_, ?_⟩
  · rw [hlist, checkInFull, Layer.climb_eq_checkVisible]
    rfl
  · rw [hlist]
    exact RuleList.check_congr fun r => r.matches?_subjectOf hc isDirectory
  · intro hs
    have hends : (candidate ++ ['/']).endsWith '/' = true := by simp [Text.endsWith]
    constructor
    · rw [hlist, hlist, subjectOf, subjectOf]
      simp [hs, hends]
    · exact RuleList.check_congr fun r => r.matches?_append_slash hc hs true

/-- A rule for directories in the layer below, one that does not match in the layer of the
directory, and a first layer that is hidden from both. -/
theorem check_eq_checkInFull_build :
    let hidden : Rule := ⟨.include, .ordinary, .ofText "build".toList, by decide, by decide⟩
    let below : Rule := ⟨.exclude, .ordinary, .ofText "build/".toList, by decide, by decide⟩
    let here : Rule := ⟨.include, .ordinary, .ofText "*.o".toList, by decide, by decide +kernel⟩
    let c := ((((root ".".toList).add hidden).enter "./sub".toList).isolate.add below).enter
      "./sub/in".toList |>.add here
    "./sub/in/build".toList ≠ [] ∧
      c.checkInFull "./sub/in/build".toList true .transfer = .excluded ∧
      (c.visibleRules .transfer).check "./sub/in/build".toList true = .excluded ∧
      c.check "./sub/in/build/".toList true .transfer = .excluded := by
  intro hidden below here c
  have hc : "./sub/in/build".toList ≠ [] := by decide
  have hcheck : c.check "./sub/in/build".toList true .transfer = .excluded := by decide +kernel
  obtain ⟨hfull, hlist, hslash⟩ := check_eq_checkInFull c hc true .transfer
  refine ⟨hc, hfull ▸ hcheck, hlist ▸ hcheck, ?_⟩
  rw [← hcheck]
  exact (hslash (by decide)).1

end Chain

end PathFilter
