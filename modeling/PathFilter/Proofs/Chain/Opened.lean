import PathFilter.CommandLine.Run
import Mathlib.Order.Nat

/-!
# The files that reading rules opens

A line opens the rule files that it names, and so do the lines of these files, up to the first
failure. What a line does depends on no other file: two trees in which the files that are opened in
one of them have the same bytes make the same of the line. The same holds of the rule file of a
directory, which is looked for first, and of the sources of a run.

## Main definitions

* `Script.opened s c`: the rule files that a script opens on a chain
* `Script.SameOn safe s t`: two scripts do the same where only files that are safe are opened
* `Chain.requested files c directory`: the rule files that entering a directory asks for
* `RuleSource.openedAll files c sources`: the rule files that some sources open

## Main results

* `lineScript_sameOn`: what a line does depends on the files that it opens
* `Chain.descend_congr_requested`: the chain of a directory depends on the files it asks for
* `RuleSource.applyAll_congr_opened`: the chain of some sources depends on the files that they open
-/

namespace PathFilter

namespace Outcome

/-- What is gone on to do if nothing has failed, and nothing otherwise. -/
def onSuccess {α : Type} (o : Outcome) (f : Chain → List α) : List α :=
  match o.failure with
  | some _ => []
  | none => f o.chain

theorem onSuccess_of_none {α : Type} {o : Outcome} (h : o.failure = none) (f : Chain → List α) :
    o.onSuccess f = f o.chain := by
  simp only [onSuccess, h]

theorem onSuccess_andThen {α : Type} (o : Outcome) (f : Chain → Outcome) (g : Chain → List α) :
    (o.andThen f).onSuccess g = o.onSuccess fun c => (f c).onSuccess g := by
  obtain ⟨c, events, _ | e⟩ := o <;> rfl

/-- What follows matters only on the chain that is left. -/
theorem andThen_congr {o : Outcome} {f g : Chain → Outcome}
    (h : o.failure = none → f o.chain = g o.chain) : o.andThen f = o.andThen g := by
  obtain ⟨c, events, _ | e⟩ := o
  · simp only [andThen, h rfl]
  · rfl

end Outcome

namespace Script

/-- **The rule files that a script opens** on a chain, up to the first failure. -/
def opened : Script → Chain → List Text
  | done, _ => []
  | fail _, _ => []
  | edit e rest, c => (e.apply c).onSuccess rest.opened
  | merge file body rest, c => file :: (body.opened c ++ (body.run c).onSuccess rest.opened)

/-- Of two scripts in a row, the second opens files if the first does not fail. -/
theorem opened_append (s t : Script) (c : Chain) :
    (s.append t).opened c = s.opened c ++ (s.run c).onSuccess t.opened := by
  induction s generalizing c with
  | done => rfl
  | fail e => rfl
  | edit e rest ih =>
    simp only [append, opened, run, Outcome.onSuccess_andThen]
    obtain ⟨c', events, _ | e⟩ := e.apply c
    · exact ih c'
    · rfl
  | merge file body rest _ ih =>
    simp only [append, opened, run, Outcome.onSuccess_andThen, List.cons_append, List.append_assoc]
    obtain ⟨c', events, _ | e⟩ := body.run c
    · exact congrArg (file :: body.opened c ++ ·) (ih c')
    · rfl

/-- **Whether two scripts do the same** wherever the first one opens only files that are safe. -/
def SameOn (safe : Text → Prop) (s t : Script) : Prop :=
  ∀ c, (∀ file ∈ s.opened c, safe file) → s.run c = t.run c

namespace SameOn

variable {safe : Text → Prop}

theorem rfl (s : Script) : SameOn safe s s := fun _ _ => Eq.refl _

theorem edit {s t : Script} (e : Edit) (h : SameOn safe s t) :
    SameOn safe (.edit e s) (.edit e t) := by
  intro c hsafe
  refine Outcome.andThen_congr fun hok => h _ fun file hfile => hsafe file ?_
  rw [opened, Outcome.onSuccess_of_none hok]
  exact hfile

theorem isolating {s t : Script} (first : Bool) (h : SameOn safe s t) :
    SameOn safe (.isolating first s) (.isolating first t) := by
  cases first with
  | true => exact h.edit .isolate
  | false => exact h

/-- A rule file has to be opened before its lines do anything. -/
theorem merge {file : Text} {body body' rest rest' : Script}
    (hbody : safe file → SameOn safe body body') (hrest : SameOn safe rest rest') :
    SameOn safe (.merge file body rest) (.merge file body' rest') := by
  intro c hsafe
  have hfile := hsafe file List.mem_cons_self
  have hlines := hbody hfile c fun f hf =>
    hsafe f (List.mem_cons_of_mem _ (List.mem_append_left _ hf))
  rw [run, run, ← hlines]
  refine Outcome.andThen_congr fun hok => Outcome.andThen_congr fun _ => hrest _ fun f hf => ?_
  refine hsafe f (List.mem_cons_of_mem _ (List.mem_append_right _ ?_))
  rw [Outcome.onSuccess_of_none hok]
  exact hf

theorem append {s s' t t' : Script} (hs : SameOn safe s s') (ht : SameOn safe t t') :
    SameOn safe (s.append t) (s'.append t') := by
  intro c hsafe
  rw [opened_append] at hsafe
  rw [run_append, run_append, ← hs c fun f hf => hsafe f (List.mem_append_left _ hf)]
  refine Outcome.andThen_congr fun hok => ht _ fun f hf => ?_
  refine hsafe f (List.mem_append_right _ ?_)
  rw [Outcome.onSuccess_of_none hok]
  exact hf

theorem concat {α : Type} {f g : α → Script} {xs : List α} (h : ∀ x ∈ xs, SameOn safe (f x) (g x)) :
    SameOn safe (Script.concat (xs.map f)) (Script.concat (xs.map g)) := by
  induction xs with
  | nil => exact rfl _
  | cons x xs ih =>
    obtain ⟨hx, hxs⟩ := List.forall_mem_cons.mp h
    exact hx.append (ih hxs)

end SameOn

end Script

/-- **Whether two trees hold the same rule files** under the paths that are safe. -/
structure FileTree.SameOn (safe : Text → Prop) (files files' : FileTree) : Prop where
  read : ∀ path, safe path → files.read path = files'.read path
  workingDirectory : files.workingDirectory = files'.workingDirectory

theorem FileTree.isFile_eq_true_iff {files : FileTree} {path : Text} :
    files.isFile path = true ↔ ∃ canonical bytes, files.read path = .ok (canonical, bytes) := by
  simp only [read_eq_ok_iff, isFile]
  split <;> simp_all

section Lines

variable {safe : Text → Prop} {files files' : FileTree}

theorem contentScript_sameOn (directory path : Text) (bytes : List UInt8)
    (enforced : Option Polarity) {nested nested' : Text → Script}
    (h : ∀ line, Script.SameOn safe (nested line) (nested' line)) :
    Script.SameOn safe (contentScript directory path bytes enforced nested)
      (contentScript directory path bytes enforced nested') := by
  refine .append (.concat fun line _ => ?_) (.rfl _)
  cases enforced with
  | some p => exact .rfl _
  | none => exact h line

/-- A rule file whose bytes are the same does the same if its lines do. -/
theorem ownScript_sameOn {directory path : Text} {reading : List Text}
    (enforced : Option Polarity) (hread : files.read path = files'.read path)
    (h : ∀ canonical ∈ files.unread reading, ∀ line, Script.SameOn safe
      (lineScript files directory (canonical :: reading) line)
      (lineScript files' directory (canonical :: reading) line)) :
    Script.SameOn safe (ownScript files directory reading path enforced)
      (ownScript files' directory reading path enforced) := by
  rcases hresult : files.read path with failure | ⟨canonical, bytes⟩
  · rw [ownScript_of_error hresult, ownScript_of_error (hread ▸ hresult)]
    exact .rfl _
  · by_cases hmem : canonical ∈ reading
    · rw [ownScript_of_mem hresult hmem, ownScript_of_mem (hread ▸ hresult) hmem]
      exact .rfl _
    · rw [ownScript_of_not_mem hresult hmem, ownScript_of_not_mem (hread ▸ hresult) hmem]
      exact contentScript_sameOn _ _ _ _ (h canonical (FileTree.mem_unread_of_read hresult hmem))

theorem mergeScript_sameOn (hfiles : files.SameOn safe files') {directory : Text}
    {reading : List Text} (file : Text) (options : MergeOptions)
    (h : ∀ canonical ∈ files.unread reading, ∀ line, Script.SameOn safe
      (lineScript files directory (canonical :: reading) line)
      (lineScript files' directory (canonical :: reading) line)) :
    Script.SameOn safe (mergeScript files directory reading file options)
      (mergeScript files' directory reading file options) := by
  refine .isolating _ (.merge (fun hfile => ?_) (.rfl _))
  exact ownScript_sameOn _ (hfiles.read _ hfile) h

/-- **What a line does depends on the files that it opens**, by induction on the files that are not
being read. -/
theorem lineScript_sameOn (hfiles : files.SameOn safe files') (directory : Text)
    (reading : List Text) (line : Text) :
    Script.SameOn safe (lineScript files directory reading line)
      (lineScript files' directory reading line) := by
  induction reading, line using line_induction files with
  | clear reading line hc =>
    rw [lineScript_clear _ _ _ hc, lineScript_clear _ _ _ hc]
    exact .rfl _
  | error reading line e hc hline =>
    rw [lineScript_error _ _ _ hc hline, lineScript_error _ _ _ hc hline]
    exact .rfl _
  | rule reading line p k expression hc hline =>
    rw [lineScript_rule _ _ _ hc hline, lineScript_rule _ _ _ hc hline]
    exact .rfl _
  | merge reading line options file hc hline ih =>
    rw [lineScript_merge _ _ _ hc hline, lineScript_merge _ _ _ hc hline]
    exact mergeScript_sameOn hfiles file options ih
  | dirMerge reading line options file hc hline =>
    rw [lineScript_dirMerge _ _ _ hc hline, lineScript_dirMerge _ _ _ hc hline]
    exact .rfl _

/-! ## Chains -/

namespace Chain

theorem read_congr_opened (hfiles : files.SameOn safe files') (c : Chain) (line : Text)
    (h : ∀ file ∈ (lineScript files c.directory [] line).opened c, safe file) :
    c.read files line = c.read files' line := by
  rw [read, read, lineScript_sameOn hfiles c.directory [] line c h]

theorem merge_congr_opened (hfiles : files.SameOn safe files') (c : Chain) (file : Text)
    (options : MergeOptions)
    (h : ∀ f ∈ (mergeScript files c.directory [] file options).opened c, safe f) :
    c.merge files file options = c.merge files' file options := by
  have hsame : Script.SameOn safe (mergeScript files c.directory [] file options)
      (mergeScript files' c.directory [] file options) :=
    mergeScript_sameOn hfiles file options fun canonical _ line =>
      lineScript_sameOn hfiles c.directory [canonical] line
  rw [merge, merge, hsame c h]

/-- **The rule files that entering a directory asks for**: its own, if one is declared, and those
that it opens. -/
def requested (files : FileTree) (outer : Chain) (directory : Text) : List Text :=
  let c := outer.enter directory
  match c.here.dirMerge with
  | none => []
  | some d =>
    let path := Path.within directory d.file
    let start := if d.options.noInherit then c.isolate else c
    path ::
      if files.isFile path then
        (ownScript files c.directory [] path d.options.enforced).opened start
      else []

/-- **The chain of a directory depends on the rule files that it asks for.** -/
theorem descend_congr_requested (hfiles : files.SameOn safe files') (outer : Chain)
    (directory : Text) (h : ∀ file ∈ outer.requested files directory, safe file) :
    outer.descend files directory = outer.descend files' directory := by
  unfold descend
  unfold requested at h
  cases hd : (outer.enter directory).here.dirMerge with
  | none => simp only [hd]
  | some d =>
    simp only [hd] at h ⊢
    obtain ⟨hpath, hopened⟩ := List.forall_mem_cons.mp h
    have hread := hfiles.read _ hpath
    have hfile : files.isFile (Path.within directory d.file) =
        files'.isFile (Path.within directory d.file) := by
      rw [Bool.eq_iff_iff, FileTree.isFile_eq_true_iff, FileTree.isFile_eq_true_iff, hread]
    rw [← hfile]
    split
    · next hisFile =>
      rw [if_pos hisFile] at hopened
      have hown := ownScript_sameOn d.options.enforced hread fun canonical _ line =>
        lineScript_sameOn hfiles (outer.enter directory).directory [canonical] line
      rw [readOwn, readOwn]
      simp only [hown _ hopened]
    · rfl

end Chain

/-! ## Sources -/

namespace RuleSource

/-- The rule files that a source opens. -/
def opened (files : FileTree) (c : Chain) : RuleSource → List Text
  | .filter line => (lineScript files c.directory [] line).opened c
  | .includeFrom file =>
    (mergeScript files c.directory [] (Path.absolute files.workingDirectory file)
      (.verbatim .include)).opened c
  | .excludeFrom file =>
    (mergeScript files c.directory [] (Path.absolute files.workingDirectory file)
      (.verbatim .exclude)).opened c
  | .usualRuleFile 0 =>
    (lineScript files c.directory [] ("dir-merge /".toList ++ ruleFileName)).opened c
  | _ => []

/-- **The rule files that some sources open**, up to the first failure. -/
def openedAll (files : FileTree) (c : Chain) : List RuleSource → List Text
  | [] => []
  | s :: ss => s.opened files c ++ (s.apply files c).onSuccess fun c' => openedAll files c' ss

theorem apply_congr_opened (hfiles : files.SameOn safe files') (c : Chain) (s : RuleSource)
    (h : ∀ file ∈ s.opened files c, safe file) : s.apply files c = s.apply files' c := by
  match s with
  | .filter line => exact c.read_congr_opened hfiles line h
  | .include pattern => rfl
  | .exclude pattern => rfl
  | .includeFrom file =>
    rw [apply, apply, ← hfiles.workingDirectory]
    exact c.merge_congr_opened hfiles _ _ h
  | .excludeFrom file =>
    rw [apply, apply, ← hfiles.workingDirectory]
    exact c.merge_congr_opened hfiles _ _ h
  | .usualRuleFile 0 => exact c.read_congr_opened hfiles _ h
  | .usualRuleFile 1 => rfl
  | .usualRuleFile (_ + 2) => rfl

/-- **The chain of some sources depends on the rule files that they open.** -/
theorem applyAll_congr_opened (hfiles : files.SameOn safe files') (c : Chain)
    (sources : List RuleSource) (h : ∀ file ∈ openedAll files c sources, safe file) :
    applyAll files c sources = applyAll files' c sources := by
  induction sources generalizing c with
  | nil => rfl
  | cons s ss ih =>
    rw [applyAll, applyAll, ← apply_congr_opened hfiles c s fun f hf =>
      h f (List.mem_append_left _ hf)]
    refine Outcome.andThen_congr fun hok => ih _ fun f hf => h f (List.mem_append_right _ ?_)
    rw [Outcome.onSuccess_of_none hok]
    exact hf

end RuleSource

end Lines

end PathFilter
