import PathFilter.Proofs.Chain.Moments
import PathFilter.Proofs.Chain.Seclusion

/-!
# Whether a chain inherits

A chain has it on record whether it inherits from the layers below. The record is taken over when a
directory is entered, and is lost where the modifier `n` takes effect: by the options under which a
rule file is read, or on a line that is carried out, however deep the rule files are nested. Nothing
brings it back, not even clearing, which takes the layers below away. A layer that hides those below
has lost its record, and so have the layers above it. So the record tells the truth: a chain that
inherits sees all its layers.

## Main definitions

* `AsksToIsolate`, `Action.Isolates`: a line has the modifier `n`, and it takes effect in an action
* `Chain.IsOpen`: no layer of a chain hides those below it
* `Chain.IsTruthful`: a chain that inherits is open

## Main results

* `Action.inherits_apply_iff`: an action keeps the record unless the modifier takes effect in it
* `Action.isTruthful_apply`: an action keeps a chain truthful
* `Chain.inherits_after`: what the record tells after any actions, and when it is lost
-/

namespace PathFilter

/-- Whether a line has the modifier `n`. -/
def AsksToIsolate (line : Text) : Prop :=
  ∃ directive file, readLine line = .ok (directive, file) ∧ directive.noInherit = true

theorem asksToIsolate_iff {line file : Text} {directive : Directive}
    (h : readLine line.trim = .ok (directive, file)) :
    AsksToIsolate line ↔ directive.noInherit = true := by
  rw [readLine_trim_iff] at h
  constructor
  · rintro ⟨_, _, h', hn⟩
    rw [h] at h'
    cases h'
    exact hn
  · exact fun hn => ⟨_, _, h, hn⟩

theorem not_asksToIsolate_of_error {line : Text} {e : FilterError}
    (h : readLine line.trim = .error e) : ¬ AsksToIsolate line := by
  rintro ⟨_, _, h', -⟩
  rw [← readLine_trim_iff, h] at h'
  cases h'

/-- **Whether the modifier `n` takes effect in an action**: by the options under which it reads a
rule file, or on a line that it carries out. -/
def Action.Isolates (a : Action) (c : Chain) : Prop :=
  a.noInherit c = true ∨ ∃ m ∈ a.moments c, AsksToIsolate m.line

/-! ## The record -/

namespace Chain

theorem inherits_isolateIf (c : Chain) (first : Bool) :
    (c.isolateIf first).here.inherits = true ↔ c.here.inherits = true ∧ first = false := by
  cases first <;> simp [isolateIf, isolate, mapHere]

/-- **A line keeps the record** unless it has the modifier. -/
theorem inherits_note (c : Chain) (line : Text) :
    (c.note line).here.inherits = true ↔ c.here.inherits = true ∧ ¬ AsksToIsolate line := by
  unfold note
  rcases hd : readLine line.trim with e | ⟨⟨p, k⟩ | options | options, file⟩
  · -- a line that cannot be read may clear the rules, but keeps the record
    simp only [not_asksToIsolate_of_error hd, not_false_eq_true, and_true]
    split <;> exact Iff.rfl
  all_goals
    simp only [isClearing_of_readLine hd, Bool.false_eq_true, if_false, asksToIsolate_iff hd,
      Bool.not_eq_true]
  · simp [Directive.noInherit]
  · exact inherits_isolateIf c _
  · exact inherits_isolateIf c _

end Chain

theorem Leads.inherits_iff {c c' : Chain} {ms : List Moment} (h : Leads Chain.frame c ms c') :
    c'.here.inherits = true ↔ c.here.inherits = true ∧ ∀ m ∈ ms, ¬ AsksToIsolate m.line := by
  have hkept : ∀ {c c' : Chain}, c.frame = c'.frame → c.here.inherits = c'.here.inherits :=
    fun h => congrArg (·.here.inherits) h
  induction h with
  | done h => simp [hkept h]
  | step h _ ih =>
    refine ih.trans ?_
    rw [Chain.inherits_note, hkept h, List.forall_mem_cons, and_assoc]

theorem Action.inherits_start (a : Action) (c : Chain) :
    (a.start c).here.inherits = c.here.inherits := by
  rcases a with _ | ⟨_, _ | _ | _⟩ <;> rfl

/-- **An action keeps the record** unless the modifier takes effect in it. -/
theorem Action.inherits_apply_iff (a : Action) (c : Chain) :
    (a.apply c).chain.here.inherits = true ↔ c.here.inherits = true ∧ ¬ a.Isolates c := by
  rw [(a.leads c).inherits_iff, Chain.inherits_isolateIf, a.inherits_start, Isolates, not_or,
    Bool.not_eq_true, and_assoc]
  simp only [not_exists, not_and]

/-! ## The layers of a chain that inherits -/

theorem Layer.visible_eq_self {ls : List Layer} (h : ∀ l ∈ ls, l.isIsolated = false) :
    visible ls = ls := by
  induction ls with
  | nil => rfl
  | cons l ls ih =>
    obtain ⟨hl, hls⟩ := List.forall_mem_cons.mp h
    rw [visible_cons_open hl, ih hls]

namespace Chain

/-- Whether no layer hides those below it. -/
def IsOpen (c : Chain) : Prop := ∀ l ∈ c.layers, l.isIsolated = false

theorem isOpen_iff {c : Chain} :
    c.IsOpen ↔ c.here.isIsolated = false ∧ ∀ l ∈ c.below, l.isIsolated = false :=
  List.forall_mem_cons

/-- All layers of an open chain can be seen. -/
theorem IsOpen.visible_eq {c : Chain} (h : c.IsOpen) : c.visible = c.layers :=
  Layer.visible_eq_self h

/-- **Whether the record tells the truth**: a chain that inherits is open. -/
def IsTruthful (c : Chain) : Prop := c.here.inherits = true → c.IsOpen

theorem isTruthful_frame {c : Chain} : c.frame.IsTruthful ↔ c.IsTruthful := by
  rw [IsTruthful, IsTruthful, isOpen_iff, isOpen_iff]
  exact Iff.rfl

theorem isTruthful_declare {c : Chain} {d : DirMerge} :
    (c.declare d).IsTruthful ↔ c.IsTruthful := by
  rw [IsTruthful, IsTruthful, isOpen_iff, isOpen_iff]
  exact Iff.rfl

theorem IsTruthful.isolateIf {c : Chain} (h : c.IsTruthful) (first : Bool) :
    (c.isolateIf first).IsTruthful := by
  cases first with
  | true =>
    intro hinherits
    cases hinherits
  | false => exact h

theorem IsTruthful.note {c : Chain} (h : c.IsTruthful) (line : Text) :
    (c.note line).IsTruthful := by
  unfold Chain.note
  split
  · intro hinherits
    exact isOpen_iff.mpr ⟨(isOpen_iff.mp (h hinherits)).1, by simp [clear]⟩
  · split
    · exact h.isolateIf _
    · next options file _ => exact isTruthful_declare.mpr (h.isolateIf options.noInherit)
    · exact h

/-- The chain of a directory entered is open if the chain that it is entered from is. -/
theorem IsTruthful.enter {c : Chain} (h : c.IsTruthful) (directory : Text) :
    (c.enter directory).IsTruthful :=
  fun hinherits => isOpen_iff.mpr ⟨rfl, h hinherits⟩

end Chain

theorem Leads.isTruthful {c c' : Chain} {ms : List Moment} (h : Leads Chain.frame c ms c')
    (hc : c.IsTruthful) : c'.IsTruthful := by
  have hkept : ∀ {c c' : Chain}, c.frame = c'.frame → c.IsTruthful → c'.IsTruthful := by
    intro c c' h hc
    rwa [← Chain.isTruthful_frame, ← h, Chain.isTruthful_frame]
  induction h with
  | done h => exact hkept h hc
  | step h _ ih => exact ih ((hkept h hc).note _)

/-- **An action keeps a chain truthful.** -/
theorem Action.isTruthful_apply (a : Action) {c : Chain} (h : c.IsTruthful) :
    (a.apply c).chain.IsTruthful := by
  refine (a.leads c).isTruthful (Chain.IsTruthful.isolateIf ?_ _)
  rcases a with _ | ⟨_, _ | _ | d⟩
  case change.directory => exact h.enter d
  all_goals exact h

/-! ## After any actions -/

namespace Chain

theorem isTruthful_after {c : Chain} (h : c.IsTruthful) (actions : List Action) :
    (c.after actions).IsTruthful := by
  induction actions generalizing c with
  | nil => exact h
  | cons a actions ih => exact ih (a.isTruthful_apply h)

theorem inherits_after_iff (c : Chain) (actions : List Action) :
    (c.after actions).here.inherits = true ↔ c.here.inherits = true ∧
      ∀ before a rest, actions = before ++ a :: rest → ¬ a.Isolates (c.after before) := by
  induction actions generalizing c with
  | nil => simp
  | cons a actions ih =>
    rw [after_cons, ih, a.inherits_apply_iff, and_assoc]
    refine and_congr_right fun _ => ?_
    constructor
    · rintro ⟨ha, hactions⟩ (_ | ⟨b, before⟩) a' rest h
      · cases h
        exact ha
      · cases h
        exact hactions before a' rest rfl
    · intro h
      exact ⟨h [] a actions rfl, fun before a' rest hsplit =>
        h (a :: before) a' rest (congrArg (a :: ·) hsplit)⟩

/-- **What a chain has on record about inheriting is true.** After any actions that begin with the
chain of a first directory, a chain that inherits has no isolated layer and sees all its layers. A
chain that does not inherit will not do so again, nor will those of the directories entered from it.
It has lost its record exactly if the modifier `n` has taken effect in one of the actions, on the
chain itself or on one of those that it was created from, before it was. -/
theorem inherits_after (directory : Text) (actions : List Action) :
    let c := (root directory).after actions
    (c.here.inherits = true → (∀ l ∈ c.layers, l.isIsolated = false) ∧ c.visible = c.layers) ∧
      (∀ more : List Action, c.here.inherits = false → (c.after more).here.inherits = false) ∧
      (c.here.inherits = false ↔
        ∃ before a rest, actions = before ++ a :: rest ∧
          a.Isolates ((root directory).after before)) := by
  intro c
  have hroot : (root directory).IsTruthful := fun _ => isOpen_iff.mpr ⟨rfl, by simp [root]⟩
  refine ⟨fun h => ?_, fun more h => ?_, ?_⟩
  · have hopen : c.IsOpen := isTruthful_after hroot actions h
    exact ⟨hopen, hopen.visible_eq⟩
  · rw [← Bool.not_eq_true, inherits_after_iff, h]
    simp
  · rw [← Bool.not_eq_true, inherits_after_iff, show (root directory).here.inherits = true from rfl]
    simp

/-- A rule file that has the modifier on its first line and then clears the rules. The chain of a
directory entered after that does not inherit. -/
theorem inherits_after_cleared :
    let text : Text := ":n local\n!".toList
    let files : FileTree := ⟨.directory [("rules".toList, .file text.utf8)], []⟩
    let read : Action := .change files (.line ". rules".toList)
    let actions : List Action := [read, .change files (.directory "/sub".toList)]
    read.Isolates (root "/".toList) ∧
      ((root "/".toList).after actions).here.inherits = false := by
  intro text files read actions
  obtain ⟨-, -, hlost⟩ := inherits_after "/".toList actions
  have hopened : files.read (Path.join "/".toList "rules".toList) =
      .ok ("/rules".toList, text.utf8) :=
    FileTree.read_pathOf ["rules".toList] (by decide) (by decide) (by decide) rfl
  have hlines : (FileLines.ofBytes text.utf8).rules = [":n local".toList, "!".toList] := by
    rw [FileLines.rules_ofBytes_utf8]
    decide +kernel
  have hmerge : readLine (Text.trim ". rules".toList) =
      .ok (.merge ⟨none, false, false⟩, "rules".toList) := by decide +kernel
  have hdeclare : readLine (Text.trim ":n local".toList) =
      .ok (.dirMerge ⟨none, false, true⟩, "local".toList) := by decide +kernel
  have hnone : ∀ options file, readLine (Text.trim ":n local".toList) ≠
      .ok (.merge options, file) := by
    intro options file h
    rw [hdeclare] at h
    cases h
  have hisolates : read.Isolates (root "/".toList) := by
    refine .inr ⟨⟨root "/".toList, ":n local".toList⟩, ?_, (asksToIsolate_iff hdeclare).mpr rfl⟩
    change _ ∈ lineMoments files "/".toList [] (root "/".toList) ". rules".toList
    rw [lineMoments_merge hmerge, ownMoments_of_not_mem hopened List.not_mem_nil, hlines,
      Moment.ofLines, lineMoments_other hnone]
    exact List.mem_cons_of_mem _ (List.mem_append_left _ (List.mem_singleton.mpr rfl))
  exact ⟨hisolates, hlost.mpr ⟨[], read, _, rfl, hisolates⟩⟩

end Chain

end PathFilter
