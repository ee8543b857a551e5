import PathFilter.Chain.Verdict
import PathFilter.Proofs.Rule.Grammar
import PathFilter.Proofs.Chain.Session

/-!
# Rules about transfers and rules about deletion

A layer keeps the rules about transfers and those about deletion on two lists. Whatever way a rule
takes into a chain, it is put on the list of its purpose. Nothing that is read into a chain looks at
these lists, except to count them, and a decision looks at the list of its own purpose. So what is
on one list does not matter to anything but the decisions made with it.

## Main definitions

* `Layer.IsRouted`: every rule is on the list of its purpose
* `Layer.without`, `Chain.without`: without the rules for one purpose

## Main results

* `Chain.Reachable.isRouted`: the rules of reachable chains are on the right lists
* `Chain.decisive?_eq_of_without_eq`: decisions do not look at the rules for another purpose
* `Session.isSimulation_without`: what is done with a chain does not depend on the rules for a
  purpose
* `Chain.purposes_noninterference`: the rules for one purpose do not interfere with the other
-/

namespace PathFilter

namespace Layer

/-! ## Every rule on its list -/

/-- **Whether every rule is on the list of its purpose.** -/
structure IsRouted (l : Layer) : Prop where
  rules : ∀ r ∈ l.rules, r.ruleClass = .ordinary
  deletionRules : ∀ r ∈ l.deletionRules, r.ruleClass = .protect ∨ r.ruleClass = .risk

theorem IsRouted.add {l : Layer} (h : l.IsRouted) (r : Rule) : (l.add r).IsRouted := by
  unfold Layer.add Rule.purpose
  cases hclass : r.ruleClass with
  | ordinary =>
    refine ⟨?_, h.deletionRules⟩
    simpa [or_imp, forall_and, RuleClass.purpose, hclass] using h.rules
  | protect =>
    refine ⟨h.rules, ?_⟩
    simpa [or_imp, forall_and, RuleClass.purpose, hclass] using h.deletionRules
  | risk =>
    refine ⟨h.rules, ?_⟩
    simpa [or_imp, forall_and, RuleClass.purpose, hclass] using h.deletionRules

theorem isRouted_nil {l : Layer} (hrules : l.rules = []) (hdeletion : l.deletionRules = []) :
    l.IsRouted :=
  ⟨by simp [hrules], by simp [hdeletion]⟩

theorem isKept_isRouted : (Tie.self IsRouted).IsKept :=
  Tie.self_isKept (fun h r => h.add r) (fun _ => isRouted_nil rfl rfl)
    (fun h => ⟨h.rules, h.deletionRules⟩) (fun h _ => ⟨h.rules, h.deletionRules⟩)
    (fun h _ => ⟨h.rules, h.deletionRules⟩)

/-! ## Layers without the rules for a purpose -/

/-- The layer without the rules for a purpose. -/
def without (p : Purpose) (l : Layer) : Layer :=
  match p with
  | .transfer => { l with rules := [] }
  | .deletion => { l with deletionRules := [] }

theorem isView_without (p : Purpose) : IsView (without p) where
  directory _ := by cases p <;> rfl
  dirMerge _ := by cases p <;> rfl
  add _ r := by
    unfold add
    cases p <;> cases r.purpose <;> rfl
  clear _ := by cases p <;> rfl
  isolate _ := by cases p <;> rfl
  declare _ _ := by cases p <;> rfl
  setLoaded _ _ := by cases p <;> rfl

theorem inherits_without (p : Purpose) (l : Layer) : (l.without p).inherits = l.inherits := by
  cases p <;> rfl

theorem isIsolated_without (p : Purpose) (l : Layer) : (l.without p).isIsolated = l.isIsolated := by
  cases p <;> rfl

theorem rulesFor_without {p q : Purpose} (h : q ≠ p) (l : Layer) :
    (l.without p).rulesFor q = l.rulesFor q := by
  cases p <;> cases q
  · exact absurd rfl h
  · rfl
  · rfl
  · exact absurd rfl h

end Layer

namespace Chain

/-- The rules of reachable chains are on the right lists. -/
theorem Reachable.isRouted {c : Chain} (hc : c.Reachable) : ∀ l ∈ c.layers, l.IsRouted :=
  hc.forall_layers Layer.isKept_isRouted (fun _ => Layer.isRouted_nil rfl rfl)
    (fun _ _ => Layer.isRouted_nil rfl rfl)

/-- **The chain without the rules for a purpose**, on all of its layers. -/
def without (p : Purpose) (c : Chain) : Chain := ⟨c.here.without p, c.below.map (·.without p)⟩

variable {p : Purpose} {c c' : Chain}

theorem visible_without (p : Purpose) (c : Chain) :
    (c.without p).visible = c.visible.map (·.without p) :=
  Layer.visible_map (Layer.isIsolated_without p) c.layers

/-- **Decisions do not look at the rules for another purpose.** -/
theorem decisive?_eq_of_without_eq (h : c.without p = c'.without p) {q : Purpose} (hq : q ≠ p)
    (candidate : Text) (isDirectory : Bool) :
    c.decisive? candidate isDirectory q = c'.decisive? candidate isDirectory q := by
  refine decisive?_congr ?_ candidate isDirectory
  have hrules : ∀ c : Chain, c.visible.map (·.rulesFor q) =
      (c.without p).visible.map (·.rulesFor q) := by
    intro c
    rw [visible_without, List.map_map]
    exact List.map_congr_left fun l _ => (Layer.rulesFor_without hq l).symm
  rw [hrules c, h, ← hrules c']

end Chain

/-! ## Two sessions -/

namespace Session

/-- The tie of chains that differ in the rules for one purpose alone. -/
def withoutTie (p : Purpose) : Tie :=
  .ofView (Layer.without p) fun ls ls' => ls.map (·.without p) = ls'.map (·.without p)

theorem withoutTie_holds_iff {p : Purpose} {c c' : Chain} :
    (withoutTie p).Holds c c' ↔ c.without p = c'.without p := by
  rw [Chain.without, Chain.without, Chain.mk.injEq]
  exact Iff.rfl

theorem isKept_withoutTie (p : Purpose) : (withoutTie p).IsKept :=
  (Layer.isView_without p).isKept rfl

/-- The tie of chains with the same top layer, on layers that differ in the rules for one
purpose. -/
def enteredTie (p : Purpose) : Tie :=
  .ofView id fun ls ls' => ls.map (·.without p) = ls'.map (·.without p)

theorem enteredTie_enter {p : Purpose} {c c' : Chain} (h : (withoutTie p).Holds c c')
    (directory : Text) : (enteredTie p).Holds (c.enter directory) (c'.enter directory) := by
  obtain ⟨hhere, hbelow⟩ := h
  have hinherits : c.here.inherits = c'.here.inherits := by
    rw [← Layer.inherits_without p c.here, ← Layer.inherits_without p c'.here]
    exact congrArg (·.inherits) hhere
  have hdeclared : c.here.dirMerge = c'.here.dirMerge := (isKept_withoutTie p).dirMerge hhere
  exact ⟨Chain.here_enter_congr hinherits hdeclared directory, congrArg₂ List.cons hhere hbelow⟩

/-- **What is done with a chain does not depend on the rules for a purpose.** -/
theorem isSimulation_without (p : Purpose) : IsSimulation fun _ => withoutTie p where
  kept _ := isKept_withoutTie p
  enter {_ _} _ {c c'} hc files directory := by
    -- the rules that a directory reads are counted, so its layers have to be the same for now
    have hkept : (enteredTie p).IsKept := Layer.isView_id.isKept rfl
    have hcount : (enteredTie p).CountsAlike := Tie.countsAlike_ofView fun _ => rfl
    refine (hkept.agree_descend hcount (enteredTie_enter hc directory)).mono hcount ?_
    exact fun h => ⟨congrArg (Layer.without p) h.1, h.2⟩

end Session

namespace Chain

/-- **The rules for one purpose do not interfere with the other.** On reachable chains every rule is
on the list of its purpose. Two chains that differ in the rules for one purpose alone, on whatever
layers, go through the same steps with the same failures, differ in nothing else afterwards, and
decide alike for the other purpose. -/
theorem purposes_noninterference :
    (∀ c : Chain, c.Reachable → ∀ l ∈ c.layers, l.IsRouted) ∧
    ∀ (p : Purpose) (c c' : Chain), c.without p = c'.without p → ∀ steps : List Step,
      Session.failures [c] steps = Session.failures [c'] steps ∧
        ∀ i : Nat, Option.Rel (fun d d' : Chain => d.without p = d'.without p ∧
            ∀ q ≠ p, ∀ (candidate : Text) (isDirectory : Bool),
              d.decisive? candidate isDirectory q = d'.decisive? candidate isDirectory q ∧
                d.check candidate isDirectory q = d'.check candidate isDirectory q)
          (Session.run [c] steps)[i]? (Session.run [c'] steps)[i]? := by
  refine ⟨fun c hc => hc.isRouted, fun p c c' h steps => ?_⟩
  have hrelated : Session.Related (fun _ => Session.withoutTie p) [c] [c'] :=
    Session.related_singleton (Session.withoutTie_holds_iff.mpr h)
  obtain ⟨hfailures, hrun, -⟩ := (Session.isSimulation_without p).run hrelated steps
  refine ⟨hfailures, fun i => hrun.rel fun d d' hd => ?_⟩
  have hwithout := Session.withoutTie_holds_iff.mp hd
  refine ⟨hwithout, fun q hq candidate isDirectory => ?_⟩
  have hdecisive := decisive?_eq_of_without_eq hwithout hq candidate isDirectory
  exact ⟨hdecisive, congrArg RuleList.verdict hdecisive⟩

/-- A chain that protects what another one does not, and a directory entered from either. -/
theorem purposes_noninterference_protected :
    let rule : Rule := ⟨.exclude, .ordinary, .ofText "*.tmp".toList, by decide,
      PathExpression.fault?_of_not_mem (by decide)⟩
    let kept : Rule := ⟨.exclude, .protect, .ofText "*.tmp".toList, by decide,
      PathExpression.fault?_of_not_mem (by decide)⟩
    let files : FileTree := ⟨.directory [], []⟩
    let c := (root "/".toList).add rule
    let c' := c.add kept
    let steps : List Step := [⟨0, .change files (.directory "/sub".toList)⟩, ⟨1, .add kept⟩]
    c.without .deletion = c'.without .deletion ∧
      ∃ d d', (Session.run [c] steps)[1]? = some d ∧ (Session.run [c'] steps)[1]? = some d' ∧
        d ≠ d' ∧ (∀ l ∈ d'.layers, l.IsRouted) ∧
        ∀ candidate isDirectory,
          d.decisive? candidate isDirectory .transfer =
            d'.decisive? candidate isDirectory .transfer := by
  intro rule kept files c c' steps
  obtain ⟨hrouted, hsteps⟩ := purposes_noninterference
  have hsame : c.without .deletion = c'.without .deletion := rfl
  have hreachable : ((c'.enter "/sub".toList).add kept).Reachable := by
    have hc : c.Reachable := (Reachable.root "/".toList).act (.add rule) (by simp [Action.enters])
    have hc' : c'.Reachable := hc.act (.add kept) (by simp [Action.enters])
    have hentered : (c'.enter "/sub".toList).Reachable :=
      hc'.act (.change files (.directory "/sub".toList)) fun _ => rfl
    exact hentered.act (.add kept) (by simp [Action.enters])
  obtain ⟨-, hrel⟩ := hsteps .deletion c c' hsame steps
  obtain ⟨-, hdecide⟩ := Option.rel_some_some.mp (hrel 1)
  refine ⟨hsame, _, _, rfl, rfl, by decide, hrouted _ hreachable, fun candidate isDirectory => ?_⟩
  exact (hdecide .transfer (by decide) candidate isDirectory).1

end Chain

end PathFilter
