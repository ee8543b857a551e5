import PathFilter.Chain.Reading

/-!
# The outcomes of single steps

A failure is given its directory once, at the end or after every step alike. Besides the lines of a
rule file, the options of a directive ask for three steps: the chain is isolated before anything
else, the file is declared, and a file is excluded last. Only the last of them can fail, and if it
does it has done nothing.

## Main definitions

* `Chain.isolateIf`: the chain isolated, if asked to
* `Chain.excludeFile`: a file excluded from the transfer

## Main results

* `Outcome.within_andThen`, `Outcome.failure_andThen`: the failure of either of two changes, and the
  directory given to it
* `Chain.run_isolating`, `Chain.run_hiding_within`: the options of a directive carried out
* `Chain.chain_run_ofRule`, `Chain.chain_apply_hideDeclared`: a rule that cannot be built is not
  added
-/

namespace PathFilter

namespace Outcome

@[simp] theorem chain_within (directory : Text) (o : Outcome) :
    (o.within directory).chain = o.chain := rfl

theorem within_andThen (directory : Text) (o : Outcome) (f : Chain → Outcome) :
    (o.andThen f).within directory =
      (o.within directory).andThen fun c => (f c).within directory := by
  obtain ⟨c, es, _ | e⟩ := o <;> rfl

/-- The failure of two changes in a row is that of the first, or else that of the second. -/
theorem failure_andThen (o : Outcome) (f : Chain → Outcome) :
    (o.andThen f).failure = o.failure.or (f o.chain).failure := by
  obtain ⟨c, es, _ | e⟩ := o <;> rfl

theorem failure_within_eq_none_iff {directory : Text} {o : Outcome} :
    (o.within directory).failure = none ↔ o.failure = none := by
  simp [within]

end Outcome

namespace Chain

/-- The chain isolated, if asked to. -/
def isolateIf (c : Chain) (first : Bool) : Chain := if first then c.isolate else c

theorem directory_isolateIf (c : Chain) (first : Bool) :
    (c.isolateIf first).directory = c.directory := by
  cases first <;> rfl

theorem run_isolating (c : Chain) (first : Bool) (s : Script) :
    (Script.isolating first s).run c = s.run (c.isolateIf first) := by
  cases first <;> rfl

/-- **A file excluded from the transfer**, if its name makes a rule. -/
def excludeFile (c : Chain) (file : Text) : Outcome :=
  match Rule.excluding file with
  | .error e => .fail c (e.inDirectory c.directory)
  | .ok r => c.addTraced r

theorem run_hiding_within (c : Chain) (hide : Bool) (file : Text) :
    ((Script.hiding hide file).run c).within c.directory =
      if hide then c.excludeFile file else .idle c := by
  cases hide with
  | false => rfl
  | true =>
    rw [if_pos rfl, excludeFile]
    rcases hr : Rule.excluding file with e | r <;>
      simp only [Script.hiding, Script.ofRule, Script.ofExcept, hr, if_true] <;> rfl

/-- A rule that cannot be built is not added. -/
theorem chain_run_ofRule {c : Chain} {x : Except FilterError Rule}
    (h : ((Script.ofRule x .done).run c).failure ≠ none) :
    ((Script.ofRule x .done).run c).chain = c := by
  rcases x with e | r
  · rfl
  · exact absurd rfl h

theorem chain_run_hiding {c : Chain} {hide : Bool} {file : Text}
    (h : ((Script.hiding hide file).run c).failure ≠ none) :
    ((Script.hiding hide file).run c).chain = c := by
  cases hide with
  | true => exact chain_run_ofRule h
  | false => rfl

theorem apply_hideDeclared {c : Chain} {d : DirMerge} (hd : c.here.dirMerge = some d) :
    Edit.hideDeclared.apply c = (Script.ofRule (Rule.excluding d.file) .done).run c := by
  simp only [Edit.apply, hd]
  rcases Rule.excluding d.file with e | r <;> rfl

/-- Neither is one for the declared file. -/
theorem chain_apply_hideDeclared {c : Chain} (h : (Edit.hideDeclared.apply c).failure ≠ none) :
    (Edit.hideDeclared.apply c).chain = c := by
  rcases hd : c.here.dirMerge with _ | d
  · simp only [Edit.apply, hd]
    rfl
  · rw [apply_hideDeclared hd] at h ⊢
    exact chain_run_ofRule h

end Chain

end PathFilter
