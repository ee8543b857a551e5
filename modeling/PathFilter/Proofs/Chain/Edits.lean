import PathFilter.Proofs.Chain.Session

/-!
# The edits on the way

What is left of a chain is told by the edits that were carried out on it, in their order. A failure
cuts the list short and leaves nothing else behind: the one edit that can fail does nothing when it
does. So what a line, a rule file or a directory entered does to the top layer and to the layers
below can be read off a list, however deep its rule files are nested.

## Main definitions

* `Script.edits`: the edits that a script carries out on a chain
* `Action.start`, `Action.script`: the script of an action, and the chain it runs on
* `Action.edits`: the edits that an action carries out

## Main results

* `Script.chain_run`: a script leaves what its edits leave
* `Action.exists_loaded`: an action leaves what its script leaves, up to the number of rules on
  record
* `Action.isIsolated_apply`, `Action.below_apply`: the top layer is isolated if an edit isolates it,
  and the layers below are gone if an edit clears the rules
-/

namespace PathFilter

namespace Edit

/-- What an edit leaves of a chain. -/
def leaves (c : Chain) (e : Edit) : Chain := (e.apply c).chain

theorem leaves_hideDeclared (c : Chain) :
    hideDeclared.leaves c = c ∨ ∃ r, hideDeclared.leaves c = c.add r := by
  simp only [leaves, apply]
  split
  · exact .inl rfl
  · split
    · exact .inl rfl
    · exact .inr ⟨_, rfl⟩

theorem isIsolated_add (c : Chain) (r : Rule) : (c.add r).here.isIsolated = c.here.isIsolated := by
  rw [Chain.here_add, Layer.add]
  cases r.purpose <;> rfl

/-- Only isolating isolates the top layer, and nothing undoes it. -/
theorem isIsolated_leaves (c : Chain) (e : Edit) :
    (e.leaves c).here.isIsolated = true ↔ c.here.isIsolated = true ∨ e = .isolate := by
  cases e with
  | add r => simp [leaves, apply, Chain.addTraced, isIsolated_add]
  | clear => simp [leaves, apply, Chain.clear]
  | isolate => simp [leaves, apply, Chain.isolate, Chain.mapHere, Outcome.idle]
  | declare d => simp [leaves, apply, Chain.declare, Chain.mapHere, Outcome.idle]
  | hideDeclared =>
    rcases leaves_hideDeclared c with h | ⟨r, h⟩ <;> rw [h]
    · simp
    · simp [isIsolated_add]

/-- Only clearing takes the layers below away. -/
theorem below_leaves (c : Chain) (e : Edit) :
    (e.leaves c).below = if e = .clear then [] else c.below := by
  cases e with
  | add r => exact Chain.below_add c r
  | clear => rfl
  | isolate => rfl
  | declare d => rfl
  | hideDeclared =>
    rcases leaves_hideDeclared c with h | ⟨r, h⟩ <;> rw [h]
    · rfl
    · exact Chain.below_add c r

end Edit

/-! ## The edits of a script -/

namespace Script

/-- **The edits that a script carries out** on a chain, up to the one that fails. -/
def edits : Script → Chain → List Edit
  | done, _ => []
  | fail _, _ => []
  | edit e rest, c => if (e.apply c).failure = none then e :: rest.edits (e.leaves c) else []
  | merge _ body rest, c =>
    body.edits c ++ if (body.run c).failure = none then rest.edits (body.run c).chain else []

/-- **A script leaves what its edits leave.** -/
theorem chain_run (s : Script) (c : Chain) : (s.run c).chain = (s.edits c).foldl Edit.leaves c := by
  induction s generalizing c with
  | done => rfl
  | fail e => rfl
  | edit e rest ih =>
    simp only [run, edits, Outcome.andThen]
    rcases hfail : (e.apply c).failure with _ | err
    · exact ih (e.leaves c)
    · have hne : (e.apply c).failure ≠ none := by simp [hfail]
      cases e with
      | hideDeclared => exact Chain.chain_apply_hideDeclared hne
      | add r => exact absurd rfl hne
      | clear => exact absurd rfl hne
      | isolate => exact absurd rfl hne
      | declare d => exact absurd rfl hne
  | merge file body rest ihb ih =>
    simp only [run, edits, Outcome.andThen]
    rcases hfail : (body.run c).failure with _ | err
    · simp only [if_true, List.foldl_append, ← ihb]
      exact ih _
    · simpa using ihb c

theorem isIsolated_run (s : Script) (c : Chain) :
    (s.run c).chain.here.isIsolated = true ↔
      c.here.isIsolated = true ∨ Edit.isolate ∈ s.edits c := by
  -- from here on the script is a list of edits
  rw [chain_run]
  generalize s.edits c = es
  induction es generalizing c with
  | nil => simp
  | cons e es ih =>
    rw [List.foldl_cons, ih, Edit.isIsolated_leaves, List.mem_cons, or_assoc, eq_comm (a := e)]

theorem below_run (s : Script) (c : Chain) :
    (s.run c).chain.below = if Edit.clear ∈ s.edits c then [] else c.below := by
  rw [chain_run]
  generalize s.edits c = es
  induction es generalizing c with
  | nil => rfl
  | cons e es ih =>
    rw [List.foldl_cons, ih, Edit.below_leaves]
    by_cases he : e = .clear
    · simp [he]
    · simp [he, Ne.symm he]

theorem isolate_mem_edits_isolating (s : Script) (c : Chain) :
    Edit.isolate ∈ (isolating true s).edits c := by
  simp [isolating, edits, Edit.apply, Outcome.idle]

end Script

/-! ## The edits of an action -/

/-- The script of a directory entered: what its rule file does to its chain, if there is one. -/
def Chain.enterScript (files : FileTree) (outer : Chain) (directory : Text) : Script :=
  match outer.here.dirMerge with
  | none => .done
  | some d =>
    let path := Path.within directory d.file
    if files.isFile path then
      .isolating d.options.noInherit
        ((ownScript files directory [] path d.options.enforced).append
          (.hiding d.options.excludeSelf d.file))
    else .done

namespace Action

/-- The chain that the script of an action runs on. -/
def start (c : Chain) : Action → Chain
  | change _ (.directory d) => c.enter d
  | _ => c

/-- The script of an action. -/
def script (c : Chain) : Action → Script
  | add r => .edit (.add r) .done
  | change files (.line l) => lineScript files c.directory [] l
  | change files (.file f options) => mergeScript files c.directory [] f options
  | change files (.directory d) => c.enterScript files d

/-- **The edits that an action carries out.** -/
def edits (a : Action) (c : Chain) : List Edit := (a.script c).edits (a.start c)

theorem start_of_not_enters {a : Action} (h : a.enters = false) (c : Chain) : a.start c = c := by
  rcases a with _ | ⟨_, _ | _ | _⟩
  case change.directory => cases h
  all_goals rfl

theorem start_of_enters {a : Action} (h : a.enters = true) (c : Chain) :
    (a.start c).here.isIsolated = false ∧ (a.start c).below = c.layers := by
  rcases a with _ | ⟨_, _ | _ | d⟩
  case change.directory => exact ⟨rfl, rfl⟩
  all_goals cases h

end Action

/-- The rule file of a directory leaves what its script leaves, with the number of its rules put on
record if it was read to its end. -/
theorem Chain.exists_loaded_descend (files : FileTree) (outer : Chain) (directory : Text) :
    ∃ loaded, (outer.descend files directory).chain =
      ((outer.enterScript files directory).run (outer.enter directory)).chain.mapHere
        fun l => { l with loaded := loaded } := by
  unfold descend enterScript
  have hkept : ∀ c : Chain, c = c.mapHere fun l => { l with loaded := c.here.loaded } :=
    fun _ => rfl
  rcases hd : outer.here.dirMerge with _ | d
  · simp only [enter, hd]
    exact ⟨_, hkept _⟩
  · simp only [show (outer.enter directory).here.dirMerge = some d from hd]
    split
    · rw [Chain.run_isolating, Script.run_append, Outcome.chain_within, readOwn]
      change ∃ loaded, (Outcome.andThen ((ownScript files directory [] _ _).run
        ((outer.enter directory).isolateIf _)) _).chain = _
      generalize (ownScript files directory [] _ _).run
        ((outer.enter directory).isolateIf _) = read
      obtain ⟨c, es, _ | e⟩ := read
      · simp only [Outcome.andThen]
        generalize (Script.hiding _ _).run c = hidden
        obtain ⟨c', es', _ | e'⟩ := hidden
        · exact ⟨_, rfl⟩
        · exact ⟨_, hkept _⟩
      · exact ⟨_, hkept _⟩
    · exact ⟨_, hkept _⟩

namespace Action

/-- **An action leaves what its script leaves**, up to the number of rules on record. -/
theorem exists_loaded (a : Action) (c : Chain) :
    ∃ loaded, (a.apply c).chain =
      ((a.script c).run (a.start c)).chain.mapHere fun l => { l with loaded := loaded } := by
  rcases a with r | ⟨files, l | ⟨f, options⟩ | d⟩
  · exact ⟨_, rfl⟩
  · exact ⟨_, rfl⟩
  · exact ⟨_, rfl⟩
  · exact c.exists_loaded_descend files d

/-- **The top layer is isolated** if it was before or an edit isolates it. -/
theorem isIsolated_apply (a : Action) (c : Chain) :
    (a.apply c).chain.here.isIsolated = true ↔
      (a.start c).here.isIsolated = true ∨ Edit.isolate ∈ a.edits c := by
  obtain ⟨loaded, h⟩ := a.exists_loaded c
  rw [h]
  exact (a.script c).isIsolated_run (a.start c)

/-- **The layers below are kept** unless an edit clears the rules. -/
theorem below_apply (a : Action) (c : Chain) :
    (a.apply c).chain.below = if Edit.clear ∈ a.edits c then [] else (a.start c).below := by
  obtain ⟨loaded, h⟩ := a.exists_loaded c
  rw [h]
  exact (a.script c).below_run (a.start c)

end Action

end PathFilter
