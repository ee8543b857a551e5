import PathFilter.Chain.Verdict
import PathFilter.Proofs.Rule.Grammar
import PathFilter.Proofs.Chain.Edits

/-!
# Secluded chains

The modifier `n` isolates the chain that it is read into, whether it stands on a line, among the
options of a rule file that is merged, or on the declaration under which a directory reads its rule
file. Nothing undoes this, not even clearing. From then on the chain, and every chain created on it,
answers without regard to the layers below. The rules of the secluded chain itself can be seen from
the directories below it, up to the next layer that is isolated.

## Main definitions

* `Chain.IsSecluded`: the modifier has taken effect on a chain
* `Chain.SeesAlike`: two chains give the same answers
* `Chain.InView`: the chains from which the layers of another can be seen

## Main results

* `Chain.Reachable.isSecluded_iff`: a chain is secluded if its top layer is isolated
* `Chain.InView.exists_visible_eq`: what a chain sees is in view of those created on it
* `Session.isSimulation_secluded`: what is done with a secluded chain does not reach the layers
  below
* `Chain.isSecluded_noninterference`: a secluded chain shuts out the layers below, and no others
-/

namespace PathFilter

/-- Whether a directive has the modifier `n`. -/
def Directive.noInherit : Directive → Bool
  | rule _ _ => false
  | merge options => options.noInherit
  | dirMerge options => options.noInherit

namespace Chain

/-! ## The modifier -/

/-- **The chains on which the modifier `n` has taken effect**, by whatever was done with them since
their directory was entered. -/
inductive IsSecluded : Chain → Prop where
  /-- It does so on the way of an action, which may fail later on. -/
  | taken {c : Chain} {a : Action} (h : Edit.isolate ∈ a.edits c) : IsSecluded (a.apply c).chain
  /-- It has done so before. -/
  | kept {c : Chain} (h : IsSecluded c) {a : Action} (ha : a.enters = false) :
    IsSecluded (a.apply c).chain

theorem IsSecluded.isIsolated {c : Chain} (h : c.IsSecluded) : c.here.isIsolated = true := by
  induction h with
  | @taken c a h => exact (a.isIsolated_apply c).mpr (.inr h)
  | @kept c _ a ha ih =>
    refine (a.isIsolated_apply c).mpr (.inl ?_)
    rwa [Action.start_of_not_enters ha]

/-- **A chain is secluded if its top layer is isolated.** -/
theorem Reachable.isSecluded_iff {c : Chain} (hc : c.Reachable) :
    c.IsSecluded ↔ c.here.isIsolated = true := by
  refine ⟨IsSecluded.isIsolated, fun h => ?_⟩
  induction hc with
  | root d => cases h
  | @act c _ a _ ih =>
    rcases (a.isIsolated_apply c).mp h with h | h
    · rcases a with r | ⟨files, l | ⟨f, options⟩ | d⟩
      · exact (ih h).kept rfl
      · exact (ih h).kept rfl
      · exact (ih h).kept rfl
      · cases h
    · exact .taken h

section Taken

variable (files : FileTree) (c : Chain)

theorem isolate_mem_edits_lineScript (reading : List Text) {line file : Text}
    {directive : Directive}
    (hclear : isClearing line.trim = false) (hline : readLine line.trim = .ok (directive, file))
    (hn : directive.noInherit = true) :
    Edit.isolate ∈ (lineScript files c.directory reading line).edits c := by
  cases directive with
  | rule p k => cases hn
  | merge options =>
    rw [lineScript_merge _ _ _ hclear hline, mergeScript, show options.noInherit = true from hn]
    exact Script.isolate_mem_edits_isolating _ c
  | dirMerge options =>
    rw [lineScript_dirMerge _ _ _ hclear hline, show options.noInherit = true from hn]
    exact Script.isolate_mem_edits_isolating _ c

theorem isSecluded_read {line file : Text} {directive : Directive}
    (hclear : isClearing line.trim = false) (hline : readLine line.trim = .ok (directive, file))
    (hn : directive.noInherit = true) : (c.read files line).chain.IsSecluded :=
  .taken (a := .change files (.line line)) (isolate_mem_edits_lineScript files c [] hclear hline hn)

theorem isSecluded_merge {file : Text} {options : MergeOptions} (hn : options.noInherit = true) :
    (c.merge files file options).chain.IsSecluded := by
  refine .taken (a := .change files (.file file options)) ?_
  change Edit.isolate ∈ (mergeScript files c.directory [] file options).edits c
  rw [mergeScript, hn]
  exact Script.isolate_mem_edits_isolating _ c

theorem isSecluded_descend {directory : Text} {d : DirMerge} (hd : c.here.dirMerge = some d)
    (hn : d.options.noInherit = true) (hfile : files.isFile (Path.within directory d.file) = true) :
    (c.descend files directory).chain.IsSecluded := by
  refine .taken (a := .change files (.directory directory)) ?_
  change Edit.isolate ∈ (c.enterScript files directory).edits (c.enter directory)
  simp only [enterScript, hd, if_pos hfile, hn]
  exact Script.isolate_mem_edits_isolating _ _

end Taken

/-! ## What is seen -/

/-- **Whether two chains give the same answers.** -/
structure SeesAlike (c c' : Chain) : Prop where
  visible : c.visible = c'.visible
  isAvailable : c.isAvailable = c'.isAvailable
  decisive : ∀ candidate isDirectory purpose,
    c.decisive? candidate isDirectory purpose = c'.decisive? candidate isDirectory purpose
  check : ∀ candidate isDirectory purpose,
    c.check candidate isDirectory purpose = c'.check candidate isDirectory purpose

theorem seesAlike_of_visible {c c' : Chain} (h : c.visible = c'.visible) : c.SeesAlike c' := by
  have hdecisive : ∀ candidate isDirectory purpose,
      c.decisive? candidate isDirectory purpose = c'.decisive? candidate isDirectory purpose :=
    fun candidate isDirectory purpose => decisive?_congr (by rw [h]) candidate isDirectory
  refine ⟨h, ?_, hdecisive, fun candidate isDirectory purpose => congrArg _ (hdecisive _ _ _)⟩
  rw [isAvailable, isAvailable, h]

/-- **The chains from which the layers of another can be seen**: those of the directories below it,
if nothing was cleared and no other layer was isolated on the way down from it. -/
inductive InView (b : Chain) : Chain → Prop where
  /-- A directory is entered. -/
  | entered {a : Action} (ha : a.enters = true) (hclear : Edit.clear ∉ a.edits b)
    (hisolate : Edit.isolate ∉ a.edits b) : InView b (a.apply b).chain
  /-- Something is done with a chain that is in view, or a directory within it is entered. -/
  | act {d : Chain} (h : InView b d) {a : Action} (hclear : Edit.clear ∉ a.edits d)
    (hisolate : Edit.isolate ∉ a.edits d) : InView b (a.apply d).chain

theorem isIsolated_apply_eq_false {a : Action} {c : Chain} (h : Edit.isolate ∉ a.edits c)
    (hstart : (a.start c).here.isIsolated = false) :
    (a.apply c).chain.here.isIsolated = false := by
  rw [← Bool.not_eq_true, a.isIsolated_apply c, hstart]
  simp [h]

/-- **What a chain sees is in view of those created on it.** -/
theorem InView.exists_visible_eq {b d : Chain} (h : b.InView d) :
    ∃ above, above ≠ [] ∧ d.visible = above ++ b.visible := by
  -- the layers below the top one see the chain, and the top one does not hide them
  suffices hbelow : d.here.isIsolated = false ∧
      ∃ above, Layer.visible d.below = above ++ b.visible by
    obtain ⟨hopen, above, habove⟩ := hbelow
    refine ⟨d.here :: above, List.cons_ne_nil _ _, ?_⟩
    rw [visible, layers, Layer.visible_cons_open hopen, habove, List.cons_append]
  induction h with
  | @entered a ha hclear hisolate =>
    obtain ⟨hstart, hlayers⟩ := Action.start_of_enters ha b
    refine ⟨isIsolated_apply_eq_false hisolate hstart, [], ?_⟩
    rw [a.below_apply, if_neg hclear, hlayers]
    rfl
  | @act d _ a hclear hisolate ih =>
    obtain ⟨hopen, above, habove⟩ := ih
    cases ha : a.enters with
    | false =>
      have hstart := Action.start_of_not_enters ha d
      refine ⟨isIsolated_apply_eq_false hisolate (by rwa [hstart]), above, ?_⟩
      rw [a.below_apply, if_neg hclear, hstart, habove]
    | true =>
      obtain ⟨hstart, hlayers⟩ := Action.start_of_enters ha d
      refine ⟨isIsolated_apply_eq_false hisolate hstart, d.here :: above, ?_⟩
      rw [a.below_apply, if_neg hclear, hlayers, layers, Layer.visible_cons_open hopen, habove,
        List.cons_append]

end Chain

/-! ## A secluded chain on other layers -/

namespace Session

/-- The ties between the chains of two sessions that begin with a secluded chain on different
layers. -/
def secludedTie : Nat → Tie
  | 0 => ⟨fun l l' => l = l' ∧ l.isIsolated = true, fun _ _ => True⟩
  | _ + 1 => .ofView id fun ls ls' => Layer.visible ls = Layer.visible ls'

theorem countsAlike_secludedTie (i : Nat) : (secludedTie i).CountsAlike := by
  cases i with
  | zero => exact fun _ _ h => congrArg Layer.ruleCount h.1
  | succ i => exact Tie.countsAlike_ofView fun _ => rfl

/-- The edits of a secluded chain keep it as it is up to the layers below. -/
theorem isKept_secludedTie_zero : (secludedTie 0).IsKept where
  directory h := congrArg (·.directory) h.1
  dirMerge h := congrArg (·.dirMerge) h.1
  add {l l'} h r := by
    refine ⟨congrArg (·.add r) h.1, ?_⟩
    rw [Layer.add]
    cases r.purpose <;> exact h.2
  clear h := ⟨congrArg Layer.clear h.1, h.2⟩
  isolate h := ⟨congrArg Layer.isolate h.1, rfl⟩
  declare h d := ⟨congrArg (·.declare d) h.1, h.2⟩
  setLoaded h n := ⟨congrArg (·.setLoaded n) h.1, h.2⟩
  nil := trivial

theorem visible_eq_of_secludedTie {i : Nat} {c c' : Chain} (h : (secludedTie i).Holds c c') :
    c.here = c'.here ∧ c.visible = c'.visible := by
  obtain ⟨l, ls⟩ := c
  obtain ⟨l', ls'⟩ := c'
  cases i with
  | zero =>
    obtain ⟨⟨rfl, hisolated⟩, -⟩ := h
    refine ⟨rfl, ?_⟩
    exact (Layer.visible_cons_isolated hisolated ls).trans
      (Layer.visible_cons_isolated hisolated ls').symm
  | succ i =>
    obtain ⟨hhere, hbelow⟩ := h
    obtain rfl : l = l' := hhere
    refine ⟨rfl, ?_⟩
    simp only [Chain.visible, Chain.layers, Layer.visible]
    rw [show Layer.visible ls = Layer.visible ls' from hbelow]

/-- **What is done with a secluded chain does not reach the layers below.** -/
theorem isSimulation_secluded : IsSimulation secludedTie where
  kept i := by
    cases i with
    | zero => exact isKept_secludedTie_zero
    | succ i => exact Layer.isView_id.isKept rfl
  enter {i j} hj {c c'} hc files directory := by
    obtain ⟨j, rfl⟩ := Nat.exists_eq_add_one_of_ne_zero (Nat.ne_of_gt hj)
    obtain ⟨hhere, hvisible⟩ := visible_eq_of_secludedTie hc
    have hkept : (secludedTie (j + 1)).IsKept := Layer.isView_id.isKept rfl
    refine hkept.agree_descend (countsAlike_secludedTie (j + 1)) ⟨?_, hvisible⟩
    exact Chain.here_enter_congr (congrArg (·.inherits) hhere) (congrArg (·.dirMerge) hhere)
      directory

end Session

namespace Chain

/-- **A secluded chain shuts out the layers below, and no others.** The modifier `n` secludes a
chain on every way that it takes, and a chain that was reached is secluded exactly if its top layer
is isolated, however deeply the line with the modifier was nested. With other layers below a
secluded chain, whatever is done with it and with the chains of directories below it goes the same
way, and all of them give the same answers. Its own rules stay visible, as they were when a
directory was entered from it, to all chains that it is in view of. -/
theorem isSecluded_noninterference :
    (∀ (files : FileTree) (c : Chain) (line file : Text) (directive : Directive),
      isClearing line.trim = false → readLine line.trim = .ok (directive, file) →
        directive.noInherit = true → (c.read files line).chain.IsSecluded) ∧
    (∀ (files : FileTree) (c : Chain) (file : Text) (options : MergeOptions),
      options.noInherit = true → (c.merge files file options).chain.IsSecluded) ∧
    (∀ (files : FileTree) (c : Chain) (directory : Text) (d : DirMerge),
      c.here.dirMerge = some d → d.options.noInherit = true →
        files.isFile (Path.within directory d.file) = true →
          (c.descend files directory).chain.IsSecluded) ∧
    (∀ c : Chain, c.Reachable → (c.IsSecluded ↔ c.here.isIsolated = true)) ∧
    ∀ b : Chain, b.IsSecluded →
      (∀ (below : List Layer) (steps : List Step),
        let session : List Chain := [b]
        let moved : List Chain := [{ b with below := below }]
        Session.failures session steps = Session.failures moved steps ∧
          Session.events session steps = Session.events moved steps ∧
          ∀ i : Nat,
            Option.Rel SeesAlike (Session.run session steps)[i]? (Session.run moved steps)[i]?) ∧
      ∀ d : Chain, b.InView d → ∃ above, above ≠ [] ∧ d.visible = above ++ [b.here] := by
  refine ⟨fun files c _ _ _ hclear hline hn => isSecluded_read files c hclear hline hn,
    fun files c _ _ hn => isSecluded_merge files c hn,
    fun files c _ _ hd hn hfile => isSecluded_descend files c hd hn hfile,
    fun c hc => hc.isSecluded_iff, fun b hb => ⟨?_, ?_⟩⟩
  · intro below steps session moved
    have htied : (Session.secludedTie 0).Holds b { b with below := below } :=
      ⟨⟨rfl, hb.isIsolated⟩, trivial⟩
    obtain ⟨hfailures, hrun, hevents⟩ :=
      Session.isSimulation_secluded.run (Session.related_singleton htied) steps
    refine ⟨hfailures, hevents Session.countsAlike_secludedTie, fun i => ?_⟩
    exact hrun.rel fun d d' hd => seesAlike_of_visible (Session.visible_eq_of_secludedTie hd).2
  · intro d hd
    have hvisible : b.visible = [b.here] := Layer.visible_cons_isolated hb.isIsolated b.below
    rw [← hvisible]
    exact hd.exists_visible_eq

/-- A chain that a line has secluded and another one has cleared, and the same chain on the layers
that were below it before. In a directory entered from it nothing is seen of them either way. -/
theorem isSecluded_noninterference_cleared :
    let rule : Rule := ⟨.exclude, .ordinary, .ofText "*.tmp".toList, by decide,
      PathExpression.fault?_of_not_mem (by decide)⟩
    let files : FileTree := ⟨.directory [], []⟩
    let c := ((root "/".toList).add rule).enter "/sub".toList
    let b := ((c.read files ":n rules".toList).chain.read files "!".toList).chain
    let enter : Action := .change files (.directory "/sub/in".toList)
    let steps : List Step := [⟨0, enter⟩, ⟨1, .add rule⟩]
    readLine (Text.trim ":n rules".toList) =
        .ok (.dirMerge ⟨none, false, true⟩, "rules".toList) ∧
      b.IsSecluded ∧
      ∃ d d', (Session.run [b] steps)[1]? = some d ∧
        (Session.run [{ b with below := c.below }] steps)[1]? = some d' ∧ d ≠ d' ∧ d.SeesAlike d' ∧
        b.InView d ∧ ∃ above, above ≠ [] ∧ d.visible = above ++ [b.here] := by
  intro rule files c b enter steps
  have hline : readLine (Text.trim ":n rules".toList) =
      .ok (.dirMerge ⟨none, false, true⟩, "rules".toList) := by decide +kernel
  obtain ⟨hread, -, -, -, hsecluded⟩ := isSecluded_noninterference
  have hb : b.IsSecluded :=
    (hread files c _ _ _ (by decide) hline rfl).kept (a := .change files (.line "!".toList)) rfl
  obtain ⟨hmoved, hview⟩ := hsecluded b hb
  have hchain : b = (c.isolate.declare ⟨"rules".toList, ⟨none, false, true⟩⟩).clear := by
    simp only [b, read, lineScript_dirMerge files c.directory [] (by decide) hline,
      lineScript_clear files _ [] (show isClearing (Text.trim "!".toList) = true by decide)]
    rfl
  have hin : b.InView ((b.enter "/sub/in".toList).add rule) := by
    rw [hchain]
    have hentered := InView.entered (b := c.isolate.clear) (a := enter) rfl (by decide) (by decide)
    exact hentered.act (a := .add rule) (by decide) (by decide)
  obtain ⟨-, -, hrel⟩ := hmoved c.below steps
  have halike := hrel 1
  have hd : (Session.run [b] steps)[1]? = some ((b.enter "/sub/in".toList).add rule) := by
    rw [hchain]
    rfl
  have hd' : (Session.run [{ b with below := c.below }] steps)[1]? =
      some ((({ b with below := c.below } : Chain).enter "/sub/in".toList).add rule) := by
    rw [hchain]
    rfl
  rw [hd, hd'] at halike
  refine ⟨hline, hb, _, _, hd, hd', ?_, Option.rel_some_some.mp halike, hin, hview _ hin⟩
  rw [hchain]
  decide

end Chain

end PathFilter
