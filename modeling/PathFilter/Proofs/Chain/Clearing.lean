import PathFilter.Chain.Verdict
import PathFilter.Proofs.Chain.Session
import PathFilter.Proofs.Text.Trimming

/-!
# Clearing leaves no history

A cleared chain still knows that it was isolated, and how many rules it has read from the rule file
of its directory. Nothing can be done with it that would bring this up again. It has no layers below
that it could hide, and to the chains that are created on it its layer is the lowest one, below
which nothing is left to be hidden either. So in whatever is done with it later it is like the chain
of a first directory.

## Main definitions

* `Clears`: a line clears the rules
* `Layer.unmarked`, `Layer.bare`: a layer without the record of inheriting, and without all records
  that a clearing line keeps
* `Layer.AlikeBelow`: layers that differ in these records alone, and in most of them only at the
  lowest place
* `Chain.IsAlike`: nothing that is asked of two chains tells them apart

## Main results

* `isClearing_trim_iff`: which lines clear the rules
* `Session.isSimulation_cleared`: what is done with a cleared chain could be done with a first one
* `Chain.read_clears_history`: a chain that a line has cleared is like that of a first directory
-/

namespace PathFilter

/-! ## Lines that clear the rules -/

/-- **Whether a line clears the rules**: it is a `!`, or what follows its leading blank space begins
with `clear`. -/
def Clears (line : Text) : Prop := line.trim = ['!'] ∨ "clear".toList <+: line.trimStart

theorem isClearing_trim_iff {line : Text} : isClearing line.trim = true ↔ Clears line := by
  have hword : "clear".toList <+: line.trim ↔ "clear".toList <+: line.trimStart := by
    refine ⟨fun h => h.trans (Text.trimEnd_prefix_self _), fun h => Text.prefix_trimEnd h ?_⟩
    rintro c ⟨⟩
    decide
  rw [isClearing, Clears, Bool.or_eq_true, beq_iff_eq, List.isPrefixOf_iff_prefix, hword]

theorem clears_of_prefix {line : Text} (h : "clear".toList <+: line) : Clears line := by
  obtain ⟨rest, rfl⟩ := h
  refine .inr ?_
  rw [Text.trimStart_eq_self (by rintro c ⟨⟩; decide)]
  exact List.prefix_append _ _

/-! ## Layers that differ in their records -/

namespace Layer

/-- The layer without the record of inheriting. -/
def unmarked (l : Layer) : Layer := { l with inherits := true }

/-- The layer without the records that clearing keeps: whether it inherits, whether it is isolated,
and what was read from its rule file. -/
def bare (l : Layer) : Layer := { l with inherits := true, isIsolated := false, loaded := none }

theorem isView_unmarked : IsView unmarked where
  directory _ := rfl
  dirMerge _ := rfl
  add l r := by
    unfold add
    cases r.purpose <;> rfl
  clear _ := rfl
  isolate _ := rfl
  declare _ _ := rfl
  setLoaded _ _ := rfl

theorem isView_bare : IsView bare where
  directory _ := rfl
  dirMerge _ := rfl
  add l r := by
    unfold add
    cases r.purpose <;> rfl
  clear _ := rfl
  isolate _ := rfl
  declare _ _ := rfl
  setLoaded _ _ := rfl

theorem bare_unmarked (l : Layer) : l.unmarked.bare = l.bare := rfl

/-- **Layers that differ in their records alone.** Only the lowest ones may differ in whether they
are isolated, as there is nothing below that they could hide. -/
inductive AlikeBelow : List Layer → List Layer → Prop where
  /-- There are none. -/
  | none : AlikeBelow [] []
  /-- The lowest layer. -/
  | lowest {l l' : Layer} (h : l.bare = l'.bare) : AlikeBelow [l] [l']
  /-- A layer above others. -/
  | above {l l' : Layer} {ls ls' : List Layer} (h : l.unmarked = l'.unmarked)
    (hs : AlikeBelow ls ls') : AlikeBelow (l :: ls) (l' :: ls')

/-- What can be seen of them differs in its records alone. -/
theorem AlikeBelow.map_bare_visible {ls ls' : List Layer} (h : AlikeBelow ls ls') :
    (visible ls).map bare = (visible ls').map bare := by
  induction h with
  | none => rfl
  | lowest h => simpa [visible] using h
  | @above l l' ls ls' h hs ih =>
    have hisolated : l.isIsolated = l'.isIsolated := congrArg (·.isIsolated) h
    have hbare : l.bare = l'.bare := by rw [← bare_unmarked l, ← bare_unmarked l', h]
    simp only [visible, List.map_cons, hbare, hisolated]
    cases l'.isIsolated with
    | true => rfl
    | false => simpa using ih

end Layer

/-! ## Chains that nothing tells apart -/

namespace Chain

/-- **Whether nothing that is asked of two chains tells them apart**, whether they inherit and what
was read from their rule files left aside. -/
structure IsAlike (c c' : Chain) : Prop where
  directory : c.directory = c'.directory
  outerDirectory : c.outerDirectory? = c'.outerDirectory?
  rules : c.here.rules = c'.here.rules
  deletionRules : c.here.deletionRules = c'.here.deletionRules
  dirMerge : c.here.dirMerge = c'.here.dirMerge
  visible : c.visible.map (·.directory) = c'.visible.map (·.directory)
  isAvailable : c.isAvailable = c'.isAvailable
  decisive : ∀ candidate isDirectory purpose,
    c.decisive? candidate isDirectory purpose = c'.decisive? candidate isDirectory purpose
  check : ∀ candidate isDirectory purpose,
    c.check candidate isDirectory purpose = c'.check candidate isDirectory purpose

variable {c c' : Chain}

theorem isAlike_of_alikeBelow (h : Layer.AlikeBelow c.layers c'.layers) : c.IsAlike c' := by
  have hhere : c.here.bare = c'.here.bare := by
    obtain ⟨l, ls⟩ := c
    obtain ⟨l', ls'⟩ := c'
    cases h with
    | lowest h => exact h
    | @above l l' _ _ h _ => exact (congrArg Layer.bare h : l.unmarked.bare = l'.unmarked.bare)
  have houter : c.outerDirectory? = c'.outerDirectory? := by
    obtain ⟨l, ls⟩ := c
    obtain ⟨l', ls'⟩ := c'
    cases h with
    | lowest _ => rfl
    | above _ hs =>
      cases hs with
      | none => rfl
      | lowest h => exact congrArg (fun l => some l.directory) h
      | above h _ => exact congrArg (fun l => some l.directory) h
  -- what can be asked about the visible layers can be asked about them without their records
  have hvisible : ∀ {α : Type} (f : Layer → α), (∀ l, f l.bare = f l) →
      c.visible.map f = c'.visible.map f := by
    intro α f hf
    have hmap := congrArg (List.map f) h.map_bare_visible
    rw [List.map_map, List.map_map, show f ∘ Layer.bare = f from funext hf] at hmap
    exact hmap
  have hdecisive : ∀ candidate isDirectory purpose,
      c.decisive? candidate isDirectory purpose = c'.decisive? candidate isDirectory purpose := by
    intro candidate isDirectory purpose
    refine decisive?_congr (hvisible _ fun l => ?_) candidate isDirectory
    cases purpose <;> rfl
  refine ⟨congrArg (·.directory) hhere, houter, congrArg (·.rules) hhere,
    congrArg (·.deletionRules) hhere, congrArg (·.dirMerge) hhere, hvisible _ fun _ => rfl, ?_,
    hdecisive, fun candidate isDirectory purpose => congrArg _ (hdecisive _ _ _)⟩
  have hany := congrArg (List.any · id)
    (hvisible (fun l => !l.rules.isEmpty || !l.deletionRules.isEmpty) fun _ => rfl)
  simpa [isAvailable, List.any_map] using hany

end Chain

/-! ## A cleared chain and a first one -/

namespace Session

/-- The ties between the chains of a session that begins with a cleared chain and of one that begins
with a first one. -/
def clearedTie : Nat → Tie
  | 0 => .ofView Layer.bare fun ls ls' => ls = [] ∧ ls' = []
  | _ + 1 => .ofView Layer.unmarked Layer.AlikeBelow

theorem countsAlike_clearedTie (i : Nat) : (clearedTie i).CountsAlike := by
  cases i with
  | zero => exact Tie.countsAlike_ofView fun _ => rfl
  | succ i => exact Tie.countsAlike_ofView fun _ => rfl

theorem alikeBelow_layers {i : Nat} {c c' : Chain} (h : (clearedTie i).Holds c c') :
    Layer.AlikeBelow c.layers c'.layers := by
  obtain ⟨l, ls⟩ := c
  obtain ⟨l', ls'⟩ := c'
  cases i with
  | zero =>
    obtain ⟨hhere, rfl, rfl⟩ := h
    exact .lowest hhere
  | succ i => exact .above h.1 h.2

/-- **What is done with a cleared chain could be done with a first one.** -/
theorem isSimulation_cleared : IsSimulation clearedTie where
  kept i := by
    cases i with
    | zero => exact Layer.isView_bare.isKept ⟨rfl, rfl⟩
    | succ i => exact Layer.isView_unmarked.isKept .none
  enter {i j} hj {c c'} hc files directory := by
    obtain ⟨j, rfl⟩ := Nat.exists_eq_add_one_of_ne_zero (Nat.ne_of_gt hj)
    have hlayers := alikeBelow_layers hc
    refine (Layer.isView_unmarked.isKept .none).agree_descend (countsAlike_clearedTie (j + 1)) ?_
    have hdeclared : c.here.dirMerge = c'.here.dirMerge :=
      (Chain.isAlike_of_alikeBelow hlayers).dirMerge
    refine ⟨?_, hlayers⟩
    change Layer.unmarked _ = Layer.unmarked _
    simp only [Chain.enter, Layer.unmarked, hdeclared]

end Session

namespace Chain

variable {files : FileTree} {line : Text}

theorem read_of_clears (c : Chain) (h : Clears line) :
    c.read files line = ⟨c.clear, [.cleared c.directory], none⟩ := by
  rw [read, lineScript_clear _ _ _ (isClearing_trim_iff.mpr h)]
  rfl

/-- **A chain that a line has cleared is like that of a first directory.** Whatever is then done
with it, and with the chains of directories below it, fails in the same way and leaves chains that
nothing tells apart. On all chains but the cleared one itself, the number of rules from the rule
file of the directory is the same as well. -/
theorem read_clears_history (files : FileTree) (c : Chain) (h : Clears line) (steps : List Step) :
    let cleared := [(c.read files line).chain]
    let first := [root c.directory]
    (c.read files line).failure = none ∧
      Session.failures cleared steps = Session.failures first steps ∧
      Session.events cleared steps = Session.events first steps ∧
      ∀ i, Option.Rel (fun d d' : Chain => d.IsAlike d' ∧ (i ≠ 0 → d.here.loaded = d'.here.loaded))
        (Session.run cleared steps)[i]? (Session.run first steps)[i]? := by
  intro cleared first
  have hcleared : cleared = [c.clear] := by simp only [cleared, read_of_clears c h]
  have htied : (Session.clearedTie 0).Holds c.clear (root c.directory) := ⟨rfl, rfl, rfl⟩
  obtain ⟨hfailures, hrun, hevents⟩ :=
    Session.isSimulation_cleared.run (Session.related_singleton htied) steps
  rw [hcleared]
  refine ⟨by rw [read_of_clears c h], hfailures, hevents Session.countsAlike_clearedTie,
    fun i => ?_⟩
  refine hrun.rel fun d d' hd => ?_
  refine ⟨isAlike_of_alikeBelow (Session.alikeBelow_layers hd), fun hi => ?_⟩
  obtain ⟨i, rfl⟩ := Nat.exists_eq_add_one_of_ne_zero hi
  have hhere : d.here.unmarked = d'.here.unmarked := hd.1
  exact congrArg (·.loaded) hhere

/-- An isolated chain with a rule file on record, and a directory entered from it after it was
cleared. The chain of that directory is like one below a first directory, but does not inherit. -/
theorem read_clears_history_isolated :
    let rule : Rule := ⟨.exclude, .ordinary, .ofText "*.tmp".toList, by decide, by decide +kernel⟩
    let c := ((((root ".".toList).add rule).enter "./sub".toList).isolate.add rule).setLoaded 3
    let files : FileTree := ⟨.directory [], []⟩
    let cleared := (c.read files "clear all".toList).chain
    let steps : List Step :=
      [⟨0, .add rule⟩, ⟨0, .change files (.directory "./sub/in".toList)⟩, ⟨1, .add rule⟩]
    Clears "clear all".toList ∧
      ∃ d d', (Session.run [cleared] steps)[1]? = some d ∧
        (Session.run [root "./sub".toList] steps)[1]? = some d' ∧
        d.IsAlike d' ∧ d.here.loaded = d'.here.loaded ∧ d.here.inherits ≠ d'.here.inherits := by
  intro rule c files cleared steps
  have hline : Clears "clear all".toList := clears_of_prefix ⟨" all".toList, rfl⟩
  have hcleared : cleared = c.clear := by simp only [cleared, read_of_clears c hline]
  have hrun : (Session.run [c.clear] steps)[1]? =
      some (((c.clear.add rule).enter "./sub/in".toList).add rule) := rfl
  have hfirst : (Session.run [root "./sub".toList] steps)[1]? =
      some ((((root "./sub".toList).add rule).enter "./sub/in".toList).add rule) := rfl
  obtain ⟨-, -, -, hrel⟩ := read_clears_history files c hline steps
  have h1 : Option.Rel _ (Session.run [cleared] steps)[1]?
    (Session.run [root "./sub".toList] steps)[1]? := hrel 1
  rw [hcleared, hrun, hfirst] at h1
  obtain ⟨halike, hloaded⟩ := Option.rel_some_some.mp h1
  exact ⟨hline, _, _, hcleared ▸ hrun, hfirst, halike, hloaded Nat.one_ne_zero, by decide⟩

end Chain

end PathFilter
