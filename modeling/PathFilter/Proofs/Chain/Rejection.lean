import PathFilter.Proofs.Chain.Outcome
import Mathlib.Order.Nat

/-!
# What a rejected line leaves behind

A line can be rejected before any line of a rule file is read: it is malformed, its pattern is
faulty, or the file it asks for cannot be opened. The rules and the layers below then stay as they
were. The rest of the layer does not always: a merge directive isolates the chain before it opens
its file, and a dir-merge directive declares its file before it finds that the file cannot be
excluded.

## Main definitions

* `ReadsNoLine`: a line has no line of a rule file read
* `Chain.leftBy`: the chain that a rejected directive leaves
* `Directive.LeavesTrace`: a rejected directive leaves another chain

## Main results

* `Chain.leftBy_eq_self_iff`: when a rejected directive leaves the chain as it was
* `Chain.read_rejected`: what a rejected line leaves behind, and when that is nothing
-/

namespace PathFilter

/-- Whether a line has no line of a rule file read: it asks for no file to be read now, or for one
that cannot be read, or for one without a line that carries a rule. -/
def ReadsNoLine (files : FileTree) (directory line : Text) : Prop :=
  ∀ options file, readLine line.trim = .ok (.merge options, file) →
    ∀ canonical bytes, files.read (Path.join directory file) = .ok (canonical, bytes) →
      (FileLines.ofBytes bytes).rules = []

/-- A rule file without a line that carries a rule does nothing, but it may fail at its end. -/
theorem ownScript_of_no_line {files : FileTree} {directory path : Text}
    {enforced : Option Polarity}
    (h : ∀ canonical bytes, files.read path = .ok (canonical, bytes) →
      (FileLines.ofBytes bytes).rules = []) :
    ownScript files directory [] path enforced = .done ∨
      ∃ e, ownScript files directory [] path enforced = .fail e := by
  rcases hread : files.read path with failure | ⟨canonical, bytes⟩
  · exact .inr ⟨_, ownScript_of_error hread⟩
  · rw [ownScript_of_not_mem hread List.not_mem_nil, contentScript, h canonical bytes hread]
    simp only [List.map_nil, Script.concat_nil, Script.done_append]
    split
    · exact .inl rfl
    · exact .inr ⟨_, rfl⟩

/-- Whether isolating the chain once more changes nothing. -/
def Chain.IsIsolated (c : Chain) : Prop := c.here.inherits = false ∧ c.here.isIsolated = true

/-- **Whether a rejected directive leaves another chain.** One with the modifier `n` isolates a
chain that is not isolated yet, and a dir-merge directive declares its file if none is declared. -/
def Directive.LeavesTrace (c : Chain) : Directive → Prop
  | .rule .. => False
  | .merge options => options.noInherit = true ∧ ¬ c.IsIsolated
  | .dirMerge options => (options.noInherit = true ∧ ¬ c.IsIsolated) ∨ c.here.dirMerge = none

namespace Chain

/-- **The chain that a rejected directive leaves.** -/
def leftBy (c : Chain) : Directive → Text → Chain
  | .rule .., _ => c
  | .merge options, _ => c.isolateIf options.noInherit
  | .dirMerge options, file => (c.isolateIf options.noInherit).declare ⟨file, options⟩

theorem isolate_eq_self_iff {c : Chain} : c.isolate = c ↔ c.IsIsolated := by
  obtain ⟨⟨d, rs, ds, i, s, m, n⟩, ls⟩ := c
  simp only [isolate, mapHere, IsIsolated, mk.injEq, Layer.mk.injEq, true_and, and_true]
  exact and_congr eq_comm eq_comm

theorem isolateIf_eq_self_iff {c : Chain} {first : Bool} :
    c.isolateIf first = c ↔ ¬ (first = true ∧ ¬ c.IsIsolated) := by
  cases first with
  | false => simp [isolateIf]
  | true => simp [isolateIf, isolate_eq_self_iff]

theorem declare_isolateIf_eq_self_iff {c : Chain} {first : Bool} {d : DirMerge} :
    (c.isolateIf first).declare d = c ↔ c.isolateIf first = c ∧ c.here.dirMerge ≠ none := by
  obtain ⟨⟨dir, rs, ds, i, s, m, n⟩, ls⟩ := c
  cases first <;> cases m <;> simp [isolateIf, isolate, declare, mapHere]

/-- A rejected directive leaves the chain as it was unless it leaves a trace. -/
theorem leftBy_eq_self_iff {c : Chain} {directive : Directive} {file : Text} :
    c.leftBy directive file = c ↔ ¬ directive.LeavesTrace c := by
  cases directive with
  | rule p k => simp [leftBy, Directive.LeavesTrace]
  | merge options => exact isolateIf_eq_self_iff
  | dirMerge options =>
    rw [leftBy, declare_isolateIf_eq_self_iff, isolateIf_eq_self_iff, Directive.LeavesTrace, not_or]

/-- The rules and the layers below are left as they were. -/
theorem rules_leftBy (c : Chain) (directive : Directive) (file : Text) :
    (c.leftBy directive file).here.rules = c.here.rules ∧
      (c.leftBy directive file).here.deletionRules = c.here.deletionRules ∧
      (c.leftBy directive file).below = c.below := by
  cases directive with
  | rule p k => exact ⟨rfl, rfl, rfl⟩
  | merge options => cases h : options.noInherit <;> simp [leftBy, isolateIf, isolate, mapHere, h]
  | dirMerge options =>
    cases h : options.noInherit <;> simp [leftBy, isolateIf, isolate, declare, mapHere, h]

variable {files : FileTree} {c : Chain} {line : Text}

/-- What a rejected line leaves behind, its parts having been read. -/
theorem chain_read_rejected {directive : Directive} {file : Text}
    (hfail : (c.read files line).failure ≠ none) (hread : ReadsNoLine files c.directory line)
    (hd : readLine line.trim = .ok (directive, file)) :
    (c.read files line).chain = c.leftBy directive file := by
  have hfail' : ((lineScript files c.directory [] line).run c).failure ≠ none :=
    fun h => hfail (Outcome.failure_within_eq_none_iff.mpr h)
  rw [read, Outcome.chain_within]
  have hc : isClearing line.trim = false := by
    rw [← Bool.not_eq_true]
    intro hc
    rw [lineScript_clear _ _ _ hc] at hfail'
    exact hfail' rfl
  cases directive with
  | rule p k =>
    rw [lineScript_rule _ _ _ hc hd] at hfail' ⊢
    exact chain_run_ofRule hfail'
  | dirMerge options =>
    rw [lineScript_dirMerge _ _ _ hc hd, run_isolating] at hfail' ⊢
    -- only excluding the declared file can have failed
    cases he : options.excludeSelf with
    | false =>
      rw [he] at hfail'
      exact absurd rfl hfail'
    | true =>
      rw [he] at hfail'
      change ((Edit.hideDeclared.apply (c.leftBy (.dirMerge options) file)).andThen
        Outcome.idle).failure ≠ none at hfail'
      change ((Edit.hideDeclared.apply (c.leftBy (.dirMerge options) file)).andThen
        Outcome.idle).chain = _
      rw [Outcome.andThen_idle] at hfail' ⊢
      exact chain_apply_hideDeclared hfail'
  | merge options =>
    rw [lineScript_merge _ _ _ hc hd, mergeScript, run_isolating] at hfail' ⊢
    rcases ownScript_of_no_line (hread options file hd) with hown | ⟨e, hown⟩
    · rw [hown] at hfail' ⊢
      exact chain_run_hiding hfail'
    · rw [hown]
      rfl

/-- **What a rejected line leaves behind** if no line of a rule file has been read: the rules and
the layers below as they were, and the whole chain exactly if its directive leaves no trace. -/
theorem read_rejected (hfail : (c.read files line).failure ≠ none)
    (hread : ReadsNoLine files c.directory line) :
    let left := (c.read files line).chain
    (left.here.rules = c.here.rules ∧ left.here.deletionRules = c.here.deletionRules ∧
        left.below = c.below) ∧
      (∀ directive file, readLine line.trim = .ok (directive, file) →
        left = c.leftBy directive file) ∧
      (left = c ↔ ∀ directive file, readLine line.trim = .ok (directive, file) →
        ¬ directive.LeavesTrace c) := by
  intro left
  rcases hd : readLine line.trim with e | ⟨directive, file⟩
  · have hleft : left = c := by
      cases hc : isClearing line.trim with
      | true =>
        rw [read, lineScript_clear _ _ _ hc] at hfail
        exact absurd rfl hfail
      | false =>
        change ((lineScript files c.directory [] line).run c).chain = c
        rw [lineScript_error _ _ _ hc hd]
        rfl
    rw [hleft]
    refine ⟨⟨rfl, rfl, rfl⟩, ?_, fun _ => ?_, fun _ => rfl⟩
    · intro _ _ h
      cases h
    · intro _ _ h
      cases h
  · have hleft : left = c.leftBy directive file := chain_read_rejected hfail hread hd
    rw [hleft]
    refine ⟨rules_leftBy c directive file, ?_, ?_⟩
    · rintro _ _ ⟨⟩
      rfl
    · rw [leftBy_eq_self_iff]
      constructor
      · rintro h _ _ ⟨⟩
        exact h
      · exact fun h => h directive file rfl

/-- A dir-merge directive whose file cannot be excluded, in a directory below another one. It leaves
the chain isolated and its file declared. -/
theorem read_rejected_dirMerge :
    let files : FileTree := ⟨.directory [], []⟩
    let c := (root ".".toList).enter "./sub".toList
    (c.read files ":en /".toList).failure ≠ none ∧
      ReadsNoLine files c.directory ":en /".toList ∧
      (c.read files ":en /".toList).chain =
        c.leftBy (.dirMerge ⟨none, true, true⟩) "/".toList ∧
      (c.read files ":en /".toList).chain ≠ c := by
  intro files c
  have hfail : (c.read files ":en /".toList).failure ≠ none := by decide +kernel
  have hline : readLine (Text.trim ":en /".toList) =
      .ok (.dirMerge ⟨none, true, true⟩, "/".toList) := by decide +kernel
  have hread : ReadsNoLine files c.directory ":en /".toList := by
    intro options file h
    rw [hline] at h
    cases h
  obtain ⟨-, hleft, hiff⟩ := read_rejected hfail hread
  refine ⟨hfail, hread, hleft _ _ hline, fun h => ?_⟩
  exact hiff.mp h _ _ hline (.inr rfl)

/-- A rejected line does not always leave the chain as it was: that of a dir-merge directive whose
file cannot be excluded declares it all the same. -/
theorem not_forall_read_rejected_eq :
    ¬ ∀ (files : FileTree) (c : Chain) (line : Text), (c.read files line).failure ≠ none →
      ReadsNoLine files c.directory line → (c.read files line).chain = c := by
  intro h
  have hline : readLine (Text.trim ":e /".toList) =
      .ok (.dirMerge ⟨none, true, false⟩, "/".toList) := by decide +kernel
  have hread : ReadsNoLine ⟨.directory [], []⟩ ".".toList ":e /".toList := by
    intro options file h
    rw [hline] at h
    cases h
  have hleft := h ⟨.directory [], []⟩ (root ".".toList) ":e /".toList (by decide +kernel) hread
  have hdeclared : ((root ".".toList).read ⟨.directory [], []⟩ ":e /".toList).chain.here.dirMerge ≠
      none := by decide +kernel
  rw [hleft] at hdeclared
  exact hdeclared rfl

end Chain

end PathFilter
