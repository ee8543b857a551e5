import PathFilter.Rule.FirstMatch
import Mathlib.Logic.Relation

/-!
# Which rules have a say

The first rule of a list that matches a candidate decides about it. So the rules that do not match
have no say, and neither have those behind a match. The order of two neighbours matters only where
both match, disagree, and no rule before them matches.

## Main definitions

* `Rule.Disagree`: two rules match a candidate and are of opposite polarities
* `RuleList.Harmless`: one change of a list that is nothing to a candidate

## Main results

* `RuleList.firstMatch?_eq_head?`: the first match is the first of the rules that match
* `RuleList.firstMatch?_eq_some_iff`: it is the match with the smallest index
* `RuleList.check_swap_iff`: when the order of two neighbours does not matter
* `RuleList.check_changes`: the verdict of a list composes, and is the same after any changes
-/

namespace PathFilter

/-- **Whether two rules disagree about a candidate**: both match it, and only one of them includes
it. -/
def Rule.Disagree (candidate : Text) (isDirectory : Bool) (a b : Rule) : Prop :=
  a.hits candidate isDirectory = true ∧ b.hits candidate isDirectory = true ∧
    a.polarity ≠ b.polarity

theorem Verdict.ofPolarity_injective : Function.Injective Verdict.ofPolarity := by
  rintro (_ | _) (_ | _) h <;> cases h <;> rfl

theorem Verdict.or_left_cancel_iff {u v w : Verdict} :
    u.or v = u.or w ↔ u ≠ .neutral ∨ v = w := by
  cases u <;> simp [Verdict.or]

namespace RuleList

variable {candidate : Text} {isDirectory : Bool}

/-! ## The first match -/

/-- **The first match** is the first of the rules that match. -/
theorem firstMatch?_eq_head? (rules : RuleList) :
    firstMatch? rules candidate isDirectory =
      (rules.filter (·.hits candidate isDirectory)).head? :=
  List.head?_filter.symm

/-- **The first match is the match with the smallest index.** -/
theorem firstMatch?_eq_some_iff {rules : RuleList} {r : Rule} :
    firstMatch? rules candidate isDirectory = some r ↔
      ∃ i : Nat, rules[i]? = some r ∧ r.matches? candidate isDirectory = some true ∧
        ∀ j < i, ∀ s, rules[j]? = some s → s.matches? candidate isDirectory ≠ some true := by
  rw [firstMatch?, List.find?_eq_some_iff_getElem]
  simp only [Rule.hits_eq_true_iff, Bool.not_eq_true', ← Bool.not_eq_true]
  constructor
  · rintro ⟨hr, i, hi, rfl, hbefore⟩
    refine ⟨i, List.getElem?_eq_getElem hi, hr, fun j hj s hs => ?_⟩
    obtain ⟨-, rfl⟩ := List.getElem?_eq_some_iff.mp hs
    exact hbefore j hj
  · rintro ⟨i, hri, hr, hbefore⟩
    obtain ⟨hi, rfl⟩ := List.getElem?_eq_some_iff.mp hri
    exact ⟨hr, i, hi, rfl, fun j hj => hbefore j hj _ (List.getElem?_eq_getElem _)⟩

/-- No rule decides exactly if none matches. -/
theorem firstMatch?_eq_none_iff {rules : RuleList} :
    firstMatch? rules candidate isDirectory = none ↔
      ∀ r ∈ rules, r.matches? candidate isDirectory ≠ some true := by
  rw [firstMatch?, List.find?_eq_none]
  simp only [Rule.hits_eq_true_iff, ne_eq]

/-! ## The verdict -/

theorem check_cons (r : Rule) (rules : RuleList) :
    check (r :: rules) candidate isDirectory =
      if r.hits candidate isDirectory then .ofPolarity r.polarity
      else check rules candidate isDirectory := by
  unfold check firstMatch?
  rw [List.find?_cons]
  cases r.hits candidate isDirectory <;> rfl

theorem check_eq_neutral_iff {rules : RuleList} :
    check rules candidate isDirectory = .neutral ↔
      ∀ r ∈ rules, r.matches? candidate isDirectory ≠ some true := by
  rw [← firstMatch?_eq_none_iff, check]
  cases firstMatch? rules candidate isDirectory with
  | none => exact iff_of_true rfl rfl
  | some r => cases hp : r.polarity <;> simp [verdict, hp, Verdict.ofPolarity]

/-- Rules with the same matches among them give the same verdict. -/
theorem check_congr_matches {rules others : RuleList}
    (h : rules.filter (·.hits candidate isDirectory) =
      others.filter (·.hits candidate isDirectory)) :
    check rules candidate isDirectory = check others candidate isDirectory := by
  rw [check, check, firstMatch?_eq_head?, firstMatch?_eq_head?, h]

/-- What stands behind a match has no say. -/
theorem check_behind {front rest rest' : RuleList} {r : Rule}
    (h : r.hits candidate isDirectory = true) :
    check (front ++ r :: rest) candidate isDirectory =
      check (front ++ r :: rest') candidate isDirectory := by
  rw [check_append, check_append, check_cons, check_cons, if_pos h, if_pos h]

/-- **The order of two neighbours does not matter** exactly if a rule before them matches or they do
not disagree. -/
theorem check_swap_iff {front rest : RuleList} {a b : Rule} :
    check (front ++ a :: b :: rest) candidate isDirectory =
        check (front ++ b :: a :: rest) candidate isDirectory ↔
      (∃ r ∈ front, r.matches? candidate isDirectory = some true) ∨
        ¬ a.Disagree candidate isDirectory b := by
  rw [check_append, check_append, Verdict.or_left_cancel_iff, ne_eq, check_eq_neutral_iff]
  refine or_congr (by simp) ?_
  -- only if both match do the two orders ask different rules first
  simp only [check_cons, Rule.Disagree]
  cases a.hits candidate isDirectory <;> cases b.hits candidate isDirectory <;>
    simp [Verdict.ofPolarity_injective.eq_iff]

/-! ## Changes -/

/-- **One change of a list of rules** that is nothing to a candidate. -/
inductive Harmless (candidate : Text) (isDirectory : Bool) : RuleList → RuleList → Prop where
  /-- A rule that does not match is removed. -/
  | remove (front rest : RuleList) {r : Rule}
    (h : r.matches? candidate isDirectory ≠ some true) :
    Harmless candidate isDirectory (front ++ r :: rest) (front ++ rest)
  /-- The rules behind a match are changed at will. -/
  | behind (front rest rest' : RuleList) {r : Rule}
    (h : r.matches? candidate isDirectory = some true) :
    Harmless candidate isDirectory (front ++ r :: rest) (front ++ r :: rest')
  /-- Two neighbours that do not disagree change places. -/
  | swap (front rest : RuleList) {a b : Rule} (h : ¬ a.Disagree candidate isDirectory b) :
    Harmless candidate isDirectory (front ++ a :: b :: rest) (front ++ b :: a :: rest)

/-- One change leaves the verdict as it is. -/
theorem Harmless.check_eq {rules others : RuleList}
    (h : Harmless candidate isDirectory rules others) :
    check rules candidate isDirectory = check others candidate isDirectory := by
  cases h with
  | remove front rest h =>
    rw [ne_eq, ← Rule.hits_eq_true_iff] at h
    refine check_congr_matches ?_
    simp [h]
  | behind front rest rest' h => exact check_behind ((Rule.hits_eq_true_iff _ _ _).mpr h)
  | swap front rest h => exact check_swap_iff.mpr (.inr h)

/-- So do changes in a row. -/
theorem check_eq_of_changes {rules others : RuleList}
    (h : Relation.ReflTransGen (Harmless candidate isDirectory) rules others) :
    check rules candidate isDirectory = check others candidate isDirectory := by
  induction h with
  | refl => rfl
  | tail _ hchange ih => exact ih.trans hchange.check_eq

/-- Rules that are kept if they match: leaving the others out is a row of changes. -/
theorem changes_filter (front : RuleList) {rules : RuleList} {keep : Rule → Bool}
    (h : ∀ r ∈ rules, r.matches? candidate isDirectory = some true → keep r = true) :
    Relation.ReflTransGen (Harmless candidate isDirectory) (front ++ rules)
      (front ++ rules.filter keep) := by
  induction rules generalizing front with
  | nil => exact .refl
  | cons r rules ih =>
    obtain ⟨hr, hrules⟩ := List.forall_mem_cons.mp h
    by_cases hkeep : keep r = true
    · rw [List.filter_cons_of_pos hkeep]
      simpa using ih (front ++ [r]) hrules
    · rw [List.filter_cons_of_neg hkeep]
      exact .head (.remove front rules fun hmatch => hkeep (hr hmatch)) (ih front hrules)

/-- **What a list of rules decides about a candidate composes, and only the first match has a say.**
The verdict of two lists in a row is that of the first, or of the second where the first is neutral.
It stays the same if rules that do not match are left out, as rules for directories do not match a
file, if the rules behind a match are changed, if neighbours that do not disagree change places, and
after any row of such changes; in the first match the list has the match with the smallest index. -/
theorem check_changes (candidate : Text) (isDirectory : Bool) :
    (∀ rules others : RuleList, check (rules ++ others) candidate isDirectory =
      (check rules candidate isDirectory).or (check others candidate isDirectory)) ∧
    (∀ rules others : RuleList,
      Relation.ReflTransGen (Harmless candidate isDirectory) rules others →
        check rules candidate isDirectory = check others candidate isDirectory) ∧
    (∀ (rules : RuleList) (keep : Rule → Bool),
      (∀ r ∈ rules, r.matches? candidate isDirectory = some true → keep r = true) →
        check (rules.filter keep) candidate isDirectory = check rules candidate isDirectory) ∧
    (∀ rules : RuleList, isDirectory = false →
      check (rules.filter (!·.expression.directoryOnly)) candidate isDirectory =
        check rules candidate isDirectory) ∧
    (∀ (front rest : RuleList) (a b : Rule),
      check (front ++ a :: b :: rest) candidate isDirectory =
          check (front ++ b :: a :: rest) candidate isDirectory ↔
        (∃ r ∈ front, r.matches? candidate isDirectory = some true) ∨
          ¬ a.Disagree candidate isDirectory b) ∧
    (∀ (rules : RuleList) (r : Rule), firstMatch? rules candidate isDirectory = some r ↔
      ∃ i : Nat, rules[i]? = some r ∧ r.matches? candidate isDirectory = some true ∧
        ∀ j < i, ∀ s, rules[j]? = some s → s.matches? candidate isDirectory ≠ some true) ∧
    ∀ rules : RuleList, firstMatch? rules candidate isDirectory = none ↔
      ∀ r ∈ rules, r.matches? candidate isDirectory ≠ some true := by
  have hfilter : ∀ (rules : RuleList) (keep : Rule → Bool),
      (∀ r ∈ rules, r.matches? candidate isDirectory = some true → keep r = true) →
        check (rules.filter keep) candidate isDirectory = check rules candidate isDirectory :=
    fun rules keep h => (check_eq_of_changes (changes_filter [] h)).symm
  refine ⟨fun rules others => check_append rules others _ _, fun _ _ h => check_eq_of_changes h,
    hfilter, fun rules hfile => hfilter rules _ fun r _ hmatch => ?_,
    fun _ _ _ _ => check_swap_iff, fun _ _ => firstMatch?_eq_some_iff,
    fun _ => firstMatch?_eq_none_iff⟩
  have happlies : r.expression.matches? candidate isDirectory ≠ none := by
    rw [show r.expression.matches? candidate isDirectory = some true from hmatch]
    exact Option.some_ne_none true
  rw [ne_eq, PathExpression.matches?_eq_none_iff] at happlies
  simpa [hfile] using happlies

/-- Of three rules for the file `keep`, the first is for directories and the last stands behind the
match. The two others disagree, so their order matters. -/
theorem check_changes_keep :
    let folders : Rule := ⟨.exclude, .ordinary, .ofText "keep/".toList, by decide, by decide⟩
    let kept : Rule := ⟨.include, .ordinary, .ofText "keep".toList, by decide, by decide⟩
    let every : Rule := ⟨.exclude, .ordinary, .ofText "*".toList, by decide, by decide +kernel⟩
    let candidate : Text := "./keep".toList
    Relation.ReflTransGen (Harmless candidate false) [folders, kept, every] [kept] ∧
      check [folders, kept, every] candidate false = check [kept] candidate false ∧
      check [kept, every] candidate false ≠ check [every, kept] candidate false := by
  intro folders kept every candidate
  obtain ⟨-, hchanges, -, -, hswap, -, -⟩ := check_changes candidate false
  have hkept : kept.matches? candidate false = some true := by decide
  have hevery : every.matches? candidate false = some true := by decide +kernel
  have hrow : Relation.ReflTransGen (Harmless candidate false) [folders, kept, every] [kept] :=
    .tail (.single (.remove [] [kept, every] (by decide))) (.behind [] [every] [] hkept)
  refine ⟨hrow, hchanges _ _ hrow, fun h => ?_⟩
  rcases (hswap [] [] kept every).mp h with ⟨r, hr, -⟩ | hagree
  · cases hr
  · exact hagree ⟨(Rule.hits_eq_true_iff _ _ _).mpr hkept,
      (Rule.hits_eq_true_iff _ _ _).mpr hevery, by decide⟩

end RuleList

end PathFilter
