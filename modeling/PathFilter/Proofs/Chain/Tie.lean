import PathFilter.Proofs.Chain.Outcome

/-!
# Chains side by side

What a script does to a chain depends on the rule file that is declared for the directories below,
and on nothing else that the chain holds. So two chains of one directory that declare the same rule
file go through the same edits and fail alike, whatever else tells them apart. A tie says what is to
stay true of two such chains, of their top layers and of the layers below. If single edits keep it,
then so do lines, rule files and directories entered.

Two kinds of ties are of use: a view of layers, under which chains are tied that look the same, and
a property of layers, which ties a chain to itself.

## Main definitions

* `Layer.add`, `Layer.clear`, `Layer.isolate`, `Layer.declare`: what edits do to the top layer
* `Tie`: how two chains are tied
* `Tie.IsKept`: the edits of a chain keep a tie
* `Tie.Agree`: two outcomes are alike, and their chains are tied
* `Layer.IsView`: what a view shows of an edited layer depends on what it shows of the layer
* `Tie.self`: a property of layers as a tie

## Main results

* `Tie.IsKept.agree_run`: scripts keep a tie
* `Tie.IsKept.agree_read`, `Tie.IsKept.agree_merge`: so do lines and rule files
* `Tie.IsKept.agree_descend`: a directory entered is as its chain was before its rule file is read
* `Layer.IsView.isKept`, `Tie.self_isKept`: edits keep the tie of a view, and of a property that
  each of them keeps
-/

namespace PathFilter

/-! ## Edits of the top layer -/

namespace Layer

/-- The layer with a rule added. -/
def add (l : Layer) (r : Rule) : Layer :=
  match r.purpose with
  | .transfer => { l with rules := l.rules ++ [r] }
  | .deletion => { l with deletionRules := l.deletionRules ++ [r] }

/-- The layer without rules, and without a rule file declared. -/
def clear (l : Layer) : Layer := { l with rules := [], deletionRules := [], dirMerge := none }

/-- The layer isolated. -/
def isolate (l : Layer) : Layer := { l with inherits := false, isIsolated := true }

/-- The layer with a rule file declared, unless there is one already. -/
def declare (l : Layer) (d : DirMerge) : Layer := { l with dirMerge := l.dirMerge.or (some d) }

/-- The layer with the number of rules from its rule file. -/
def setLoaded (l : Layer) (n : Nat) : Layer := { l with loaded := some n }

end Layer

theorem Chain.here_add (c : Chain) (r : Rule) : (c.add r).here = c.here.add r := by
  unfold Chain.add Layer.add
  cases r.purpose <;> rfl

/-- The layer of a directory entered takes over two things of the layer below it, and no others. -/
theorem Chain.here_enter_congr {c c' : Chain} (hinherits : c.here.inherits = c'.here.inherits)
    (hdeclared : c.here.dirMerge = c'.here.dirMerge) (directory : Text) :
    (c.enter directory).here = (c'.enter directory).here := by
  simp only [enter, hinherits, hdeclared]

/-! ## Ties -/

/-- **How two chains are tied.** -/
structure Tie where
  /-- What holds of the two top layers. -/
  here : Layer → Layer → Prop
  /-- What holds of the layers below. -/
  below : List Layer → List Layer → Prop

namespace Tie

/-- Whether two chains are tied. -/
def Holds (t : Tie) (c c' : Chain) : Prop := t.here c.here c'.here ∧ t.below c.below c'.below

/-- **Whether the edits of a chain keep a tie.** They leave the layers below alone, but for
clearing, after which there are none. -/
structure IsKept (t : Tie) : Prop where
  directory : ∀ {l l' : Layer}, t.here l l' → l.directory = l'.directory
  dirMerge : ∀ {l l' : Layer}, t.here l l' → l.dirMerge = l'.dirMerge
  add : ∀ {l l' : Layer}, t.here l l' → ∀ r, t.here (l.add r) (l'.add r)
  clear : ∀ {l l' : Layer}, t.here l l' → t.here l.clear l'.clear
  isolate : ∀ {l l' : Layer}, t.here l l' → t.here l.isolate l'.isolate
  declare : ∀ {l l' : Layer}, t.here l l' → ∀ d, t.here (l.declare d) (l'.declare d)
  setLoaded : ∀ {l l' : Layer}, t.here l l' → ∀ n, t.here (l.setLoaded n) (l'.setLoaded n)
  nil : t.below [] []

/-- Whether tied layers have equally many rules. -/
def CountsAlike (t : Tie) : Prop := ∀ l l' : Layer, t.here l l' → l.ruleCount = l'.ruleCount

/-- **Two outcomes that agree**: the same failure and tied chains. The events on the way are the
same as well if tied layers have equally many rules, since some events tell the number of rules. -/
structure Agree (t : Tie) (o o' : Outcome) : Prop where
  failure : o.failure = o'.failure
  chain : t.Holds o.chain o'.chain
  events : t.CountsAlike → o.events = o'.events

variable {t : Tie} {c c' : Chain} {o o' : Outcome}

theorem agree_idle (h : t.Holds c c') : t.Agree (.idle c) (.idle c') := ⟨rfl, h, fun _ => rfl⟩

theorem agree_fail (h : t.Holds c c') (e : FilterError) : t.Agree (.fail c e) (.fail c' e) :=
  ⟨rfl, h, fun _ => rfl⟩

theorem Agree.andThen {f f' : Chain → Outcome} (h : t.Agree o o')
    (hf : ∀ c c', t.Holds c c' → t.Agree (f c) (f' c')) :
    t.Agree (o.andThen f) (o'.andThen f') := by
  obtain ⟨c, es, e⟩ := o
  obtain ⟨c', es', e'⟩ := o'
  obtain rfl : e = e' := h.failure
  cases e with
  | some e => exact h
  | none =>
    have hnext := hf c c' h.chain
    refine ⟨hnext.failure, hnext.chain, fun hcount => ?_⟩
    obtain rfl : es = es' := h.events hcount
    exact congrArg (es ++ ·) (hnext.events hcount)

theorem Agree.within (h : t.Agree o o') (directory : Text) :
    t.Agree (o.within directory) (o'.within directory) := by
  refine ⟨?_, h.chain, h.events⟩
  rw [Outcome.within, Outcome.within, h.failure]

/-- Outcomes that agree under a tie agree under one that follows from it. The events are the same if
they were under the first. -/
theorem Agree.mono {u : Tie} (h : t.Agree o o') (hcount : t.CountsAlike)
    (hu : ∀ {c c'}, t.Holds c c' → u.Holds c c') : u.Agree o o' :=
  ⟨h.failure, hu h.chain, fun _ => h.events hcount⟩

namespace IsKept

theorem directory_eq (h : t.IsKept) (hc : t.Holds c c') : c.directory = c'.directory :=
  h.directory hc.1

theorem ruleCount_eq (hcount : t.CountsAlike) (hc : t.Holds c c') : c.ruleCount = c'.ruleCount :=
  hcount _ _ hc.1

/-! ### Edits and scripts -/

theorem agree_addTraced (h : t.IsKept) (hc : t.Holds c c') (r : Rule) :
    t.Agree (c.addTraced r) (c'.addTraced r) := by
  refine ⟨rfl, ⟨?_, ?_⟩, fun _ => ?_⟩
  · have hhere := h.add hc.1 r
    rwa [← Chain.here_add, ← Chain.here_add] at hhere
  · have hbelow := hc.2
    rwa [← Chain.below_add c r, ← Chain.below_add c' r] at hbelow
  · rw [Chain.addTraced, Chain.addTraced, h.directory_eq hc]

theorem agree_apply (h : t.IsKept) (hc : t.Holds c c') (e : Edit) :
    t.Agree (e.apply c) (e.apply c') := by
  cases e with
  | add r => exact h.agree_addTraced hc r
  | clear =>
    refine ⟨rfl, ⟨h.clear hc.1, h.nil⟩, fun _ => ?_⟩
    rw [Edit.apply, Edit.apply, h.directory_eq hc]
  | isolate => exact agree_idle ⟨h.isolate hc.1, hc.2⟩
  | declare d => exact agree_idle ⟨h.declare hc.1 d, hc.2⟩
  | hideDeclared =>
    simp only [Edit.apply, h.dirMerge hc.1]
    rcases c'.here.dirMerge with _ | d
    · exact agree_idle hc
    · simp only
      rcases Rule.excluding d.file with e | r
      · exact agree_fail hc e
      · exact h.agree_addTraced hc r

/-- **A script keeps a tie.** -/
theorem agree_run (h : t.IsKept) (s : Script) (hc : t.Holds c c') :
    t.Agree (s.run c) (s.run c') := by
  induction s generalizing c c' with
  | done => exact agree_idle hc
  | fail e => exact agree_fail hc e
  | edit e rest ih => exact (h.agree_apply hc e).andThen fun _ _ h' => ih h'
  | merge file body rest ihb ih =>
    refine (ihb hc).andThen fun d d' hd => ?_
    -- the event of the file tells by how many rules its lines have made the top layer longer
    have hevent : t.Agree ⟨d, [.fileMerged d.directory file (d.ruleCount - c.ruleCount)], none⟩
        ⟨d', [.fileMerged d'.directory file (d'.ruleCount - c'.ruleCount)], none⟩ := by
      refine ⟨rfl, hd, fun hcount => ?_⟩
      rw [h.directory_eq hd, ruleCount_eq hcount hd, ruleCount_eq hcount hc]
    exact hevent.andThen fun _ _ h' => ih h'

/-! ### Lines, rule files and directories -/

variable {files : FileTree}

theorem agree_read (h : t.IsKept) (hc : t.Holds c c') (line : Text) :
    t.Agree (c.read files line) (c'.read files line) := by
  rw [Chain.read, Chain.read, h.directory_eq hc]
  exact (h.agree_run _ hc).within _

theorem agree_merge (h : t.IsKept) (hc : t.Holds c c') (file : Text) (options : MergeOptions) :
    t.Agree (c.merge files file options) (c'.merge files file options) := by
  rw [Chain.merge, Chain.merge, h.directory_eq hc]
  exact (h.agree_run _ hc).within _

theorem holds_isolateIf (h : t.IsKept) (hc : t.Holds c c') (first : Bool) :
    t.Holds (c.isolateIf first) (c'.isolateIf first) := by
  cases first with
  | true => exact ⟨h.isolate hc.1, hc.2⟩
  | false => exact hc

theorem agree_readOwn (h : t.IsKept) (hcount : t.CountsAlike) (hc : t.Holds c c') (d : DirMerge)
    (path : Text) : t.Agree (c.readOwn files d path) (c'.readOwn files d path) := by
  have hstart := h.holds_isolateIf hc d.options.noInherit
  rw [Chain.readOwn, Chain.readOwn, h.directory_eq hc]
  refine (h.agree_run _ hstart).andThen fun read read' hread => ?_
  refine (h.agree_run _ hread).andThen fun hidden hidden' hhidden => ?_
  have hcounts : read.ruleCount - (c.isolateIf d.options.noInherit).ruleCount =
      read'.ruleCount - (c'.isolateIf d.options.noInherit).ruleCount := by
    rw [ruleCount_eq hcount hread, ruleCount_eq hcount hstart]
  change t.Agree
    ⟨hidden.setLoaded (read.ruleCount - (c.isolateIf d.options.noInherit).ruleCount), _, none⟩
    ⟨hidden'.setLoaded (read'.ruleCount - (c'.isolateIf d.options.noInherit).ruleCount), _, none⟩
  refine ⟨rfl, ?_, fun _ => ?_⟩
  · rw [hcounts]
    exact ⟨h.setLoaded hhidden.1 _, hhidden.2⟩
  · exact congrArg (fun n => [Event.ruleFileRead c'.directory d.file n]) hcounts

/-- **A directory entered keeps the tie that it has before its rule file is read.** -/
theorem agree_descend (h : t.IsKept) (hcount : t.CountsAlike) {directory : Text}
    (hc : t.Holds (c.enter directory) (c'.enter directory)) :
    t.Agree (c.descend files directory) (c'.descend files directory) := by
  simp only [Chain.descend, h.dirMerge hc.1]
  rcases (c'.enter directory).here.dirMerge with _ | d
  · exact agree_idle hc
  · simp only
    split
    · exact (h.agree_readOwn hcount hc d _).within directory
    · exact agree_idle hc

end IsKept

/-! ### Views -/

/-- The tie of chains whose top layers look the same. -/
def ofView (f : Layer → Layer) (below : List Layer → List Layer → Prop) : Tie :=
  ⟨fun l l' => f l = f l', below⟩

/-- Layers that look the same have equally many rules if looking at them keeps the number. -/
theorem countsAlike_ofView {f : Layer → Layer} {below : List Layer → List Layer → Prop}
    (hf : ∀ l, (f l).ruleCount = l.ruleCount) : (ofView f below).CountsAlike := by
  intro l l' h
  rw [← hf l, ← hf l', show f l = f l' from h]

end Tie

/-- **What a view of layers shows of an edited layer** depends on what it shows of the layer
alone. -/
structure Layer.IsView (f : Layer → Layer) : Prop where
  directory : ∀ l, (f l).directory = l.directory
  dirMerge : ∀ l, (f l).dirMerge = l.dirMerge
  add : ∀ l r, f (l.add r) = f ((f l).add r)
  clear : ∀ l, f l.clear = f (f l).clear
  isolate : ∀ l, f l.isolate = f (f l).isolate
  declare : ∀ l d, f (l.declare d) = f ((f l).declare d)
  setLoaded : ∀ l n, f (l.setLoaded n) = f ((f l).setLoaded n)

theorem Layer.eq_of_view_eq {f g : Layer → Layer} (hg : ∀ l, f (g l) = f (g (f l))) {l l' : Layer}
    (h : f l = f l') : f (g l) = f (g l') := by
  rw [hg l, hg l', h]

/-- **Edits keep the tie of a view.** -/
theorem Layer.IsView.isKept {f : Layer → Layer} (hf : IsView f)
    {below : List Layer → List Layer → Prop} (hnil : below [] []) :
    (Tie.ofView f below).IsKept where
  directory {l l'} h := by rw [← hf.directory l, ← hf.directory l', show f l = f l' from h]
  dirMerge {l l'} h := by rw [← hf.dirMerge l, ← hf.dirMerge l', show f l = f l' from h]
  add h r := eq_of_view_eq (hf.add · r) h
  clear h := eq_of_view_eq hf.clear h
  isolate h := eq_of_view_eq hf.isolate h
  declare h d := eq_of_view_eq (hf.declare · d) h
  setLoaded h n := eq_of_view_eq (hf.setLoaded · n) h
  nil := hnil

/-- A view that shows everything. -/
theorem Layer.isView_id : IsView id :=
  ⟨fun _ => rfl, fun _ => rfl, fun _ _ => rfl, fun _ => rfl, fun _ => rfl, fun _ _ => rfl,
    fun _ _ => rfl⟩

/-! ### Properties of layers -/

namespace Tie

variable {c c' : Chain}

/-- **A property of the layers of a chain** as a tie of the chain with itself. -/
def self (P : Layer → Prop) : Tie :=
  ⟨fun l l' => l = l' ∧ P l, fun ls ls' => ls = ls' ∧ ∀ l ∈ ls, P l⟩

theorem self_holds_iff {P : Layer → Prop} : (self P).Holds c c' ↔ c = c' ∧ ∀ l ∈ c.layers, P l := by
  obtain ⟨l, ls⟩ := c
  obtain ⟨l', ls'⟩ := c'
  simp only [Holds, self, Chain.layers, Chain.mk.injEq, List.forall_mem_cons]
  exact and_and_and_comm

/-- Edits keep the tie of a property that each of them keeps. -/
theorem self_isKept {P : Layer → Prop} (hadd : ∀ {l}, P l → ∀ r, P (l.add r))
    (hclear : ∀ {l}, P l → P l.clear) (hisolate : ∀ {l}, P l → P l.isolate)
    (hdeclare : ∀ {l}, P l → ∀ d, P (l.declare d))
    (hloaded : ∀ {l}, P l → ∀ n, P (l.setLoaded n)) : (self P).IsKept where
  directory h := congrArg (·.directory) h.1
  dirMerge h := congrArg (·.dirMerge) h.1
  add h r := ⟨congrArg (·.add r) h.1, hadd h.2 r⟩
  clear h := ⟨congrArg Layer.clear h.1, hclear h.2⟩
  isolate h := ⟨congrArg Layer.isolate h.1, hisolate h.2⟩
  declare h d := ⟨congrArg (·.declare d) h.1, hdeclare h.2 d⟩
  setLoaded h n := ⟨congrArg (·.setLoaded n) h.1, hloaded h.2 n⟩
  nil := ⟨rfl, by simp⟩

theorem self_countsAlike (P : Layer → Prop) : (self P).CountsAlike := by
  rintro l _ ⟨rfl, -⟩
  rfl

end Tie

end PathFilter
