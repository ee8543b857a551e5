import PathFilter.Rule.FirstMatch

/-!
# Chains of layers

The rules that hold in a directory lie in layers: those of the directory itself, below them those
of the directory above, and so on. A chain is the layer of a directory on top of the layers it was
created on. It is a value of its own: what happens to it later does not reach the chains that were
created on it.

A layer that is isolated hides everything below it, from itself and from the layers above.

## Main definitions

* `Layer`: the rules of one directory
* `Chain`: a layer and those below it
* `Chain.root`, `Chain.enter`: the chain of a first directory, and of a directory within another
* `Chain.add`, `Chain.clear`, `Chain.isolate`, `Chain.declare`: the changes to a chain
* `Chain.visible`: the layers whose rules count

## Main results

* `Layer.visible_append_isolated`: nothing below an isolated layer is visible
* `Chain.visible_clear`: a cleared chain sees nothing but its own layer
-/

namespace PathFilter

/-- A rule file that is to be read in every directory. -/
structure DirMerge where
  /-- The name of the file. -/
  file : Text
  /-- How it is read. -/
  options : MergeOptions
deriving DecidableEq, Repr

/-- **The rules of one directory.** -/
structure Layer where
  /-- The directory, as it was named. -/
  directory : Text
  /-- The rules about transfers. -/
  rules : RuleList
  /-- The rules about deletion. -/
  deletionRules : RuleList
  /-- Whether this layer and those it was created on have never been isolated. -/
  inherits : Bool
  /-- Whether the layers below are hidden. -/
  isIsolated : Bool
  /-- The rule file to be read in the directories below. -/
  dirMerge : Option DirMerge
  /-- The number of rules read from the rule file of this directory, if there was one. -/
  loaded : Option Nat
deriving DecidableEq, Repr

namespace Layer

/-- The rules for a decision. -/
def rulesFor (l : Layer) : Purpose → RuleList
  | .transfer => l.rules
  | .deletion => l.deletionRules

/-- The number of rules of the layer. -/
def ruleCount (l : Layer) : Nat := l.rules.length + l.deletionRules.length

/-- The layers that can be seen from the first one: all up to the first that is isolated. -/
def visible : List Layer → List Layer
  | [] => []
  | l :: ls => l :: if l.isIsolated then [] else visible ls

@[simp] theorem visible_nil : visible [] = [] := rfl

theorem visible_cons_isolated {l : Layer} (h : l.isIsolated = true) (ls : List Layer) :
    visible (l :: ls) = [l] := by
  simp [visible, h]

theorem visible_cons_open {l : Layer} (h : l.isIsolated = false) (ls : List Layer) :
    visible (l :: ls) = l :: visible ls := by
  simp [visible, h]

/-- Nothing below an isolated layer is visible. -/
theorem visible_append_isolated (above : List Layer) {l : Layer} (h : l.isIsolated = true)
    (below below' : List Layer) :
    visible (above ++ l :: below) = visible (above ++ l :: below') := by
  induction above with
  | nil => simp [visible, h]
  | cons a above ih => simp [visible, ih]

/-- What can be seen among layers that were changed, if they are isolated as before. -/
theorem visible_map {f : Layer → Layer} (hf : ∀ l, (f l).isIsolated = l.isIsolated)
    (ls : List Layer) : visible (ls.map f) = (visible ls).map f := by
  induction ls with
  | nil => rfl
  | cons l ls ih =>
    rw [List.map_cons, visible, visible, hf, List.map_cons]
    cases l.isIsolated with
    | true => rfl
    | false => exact congrArg (f l :: ·) ih

end Layer

/-- **The layer of a directory and the layers below it**, nearest first. -/
structure Chain where
  /-- The layer of the directory. -/
  here : Layer
  /-- The layers it was created on. -/
  below : List Layer
deriving DecidableEq, Repr

namespace Chain

/-- The chain of a first directory, without rules. -/
def root (directory : Text) : Chain :=
  ⟨⟨directory, [], [], true, false, none, none⟩, []⟩

/-- The chain of a directory within the directory of another chain, without rules of its own. It
takes over what is known about inheriting and about the rule file to be read. -/
def enter (outer : Chain) (directory : Text) : Chain :=
  ⟨⟨directory, [], [], outer.here.inherits, false, outer.here.dirMerge, none⟩,
    outer.here :: outer.below⟩

/-- The directory of the chain. -/
def directory (c : Chain) : Text := c.here.directory

/-- The layers of the chain. -/
def layers (c : Chain) : List Layer := c.here :: c.below

/-- **The layers whose rules count**, nearest first. -/
def visible (c : Chain) : List Layer := Layer.visible c.layers

/-- The directory of the layer below. -/
def outerDirectory? (c : Chain) : Option Text := c.below.head?.map (·.directory)

/-- The number of rules of the top layer. -/
def ruleCount (c : Chain) : Nat := c.here.ruleCount

/-- The chain with another top layer. -/
def mapHere (c : Chain) (f : Layer → Layer) : Chain := { c with here := f c.here }

/-- **A rule added** behind the rules for the same decision. -/
def add (c : Chain) (r : Rule) : Chain :=
  match r.purpose with
  | .transfer => c.mapHere fun l => { l with rules := l.rules ++ [r] }
  | .deletion => c.mapHere fun l => { l with deletionRules := l.deletionRules ++ [r] }

/-- **All rules cleared**, those below included, and the rule file to be read forgotten. -/
def clear (c : Chain) : Chain :=
  ⟨{ c.here with rules := [], deletionRules := [], dirMerge := none }, []⟩

/-- **The top layer isolated**, so that the layers below are no longer seen. -/
def isolate (c : Chain) : Chain :=
  c.mapHere fun l => { l with inherits := false, isIsolated := true }

/-- **A rule file declared** for the directories below, unless there is one already. -/
def declare (c : Chain) (d : DirMerge) : Chain :=
  c.mapHere fun l => { l with dirMerge := l.dirMerge.or (some d) }

/-- The number of rules read from the rule file of the directory, put on record. -/
def setLoaded (c : Chain) (n : Nat) : Chain := c.mapHere fun l => { l with loaded := some n }

@[simp] theorem directory_root (d : Text) : (root d).directory = d := rfl

@[simp] theorem directory_enter (c : Chain) (d : Text) : (c.enter d).directory = d := rfl

@[simp] theorem directory_add (c : Chain) (r : Rule) : (c.add r).directory = c.directory := by
  unfold add
  split <;> rfl

@[simp] theorem below_add (c : Chain) (r : Rule) : (c.add r).below = c.below := by
  unfold add
  split <;> rfl

@[simp] theorem loaded_add (c : Chain) (r : Rule) :
    (c.add r).here.loaded = c.here.loaded := by
  unfold add
  split <;> rfl

@[simp] theorem directory_clear (c : Chain) : c.clear.directory = c.directory := rfl

@[simp] theorem directory_isolate (c : Chain) : c.isolate.directory = c.directory := rfl

@[simp] theorem directory_declare (c : Chain) (d : DirMerge) :
    (c.declare d).directory = c.directory := rfl

/-- Adding a rule makes one rule more. -/
@[simp] theorem ruleCount_add (c : Chain) (r : Rule) : (c.add r).ruleCount = c.ruleCount + 1 := by
  unfold add
  split <;> simp only [ruleCount, mapHere, Layer.ruleCount, List.length_append,
    List.length_singleton] <;> omega

@[simp] theorem ruleCount_clear (c : Chain) : c.clear.ruleCount = 0 := rfl

@[simp] theorem ruleCount_isolate (c : Chain) : c.isolate.ruleCount = c.ruleCount := rfl

@[simp] theorem ruleCount_declare (c : Chain) (d : DirMerge) :
    (c.declare d).ruleCount = c.ruleCount := rfl

/-- A cleared chain sees nothing but its own layer. -/
theorem visible_clear (c : Chain) : c.clear.visible = [c.clear.here] := by
  simp [visible, layers, clear, Layer.visible]

/-- An isolated chain sees nothing but its own layer. -/
theorem visible_isolate (c : Chain) : c.isolate.visible = [c.isolate.here] :=
  Layer.visible_cons_isolated rfl _

end Chain

end PathFilter
