import PathFilter.Proofs.Chain.Nesting
import PathFilter.Proofs.Chain.Tie

/-!
# Sessions

A session keeps several chains. Each step does something with one of them: a rule is added, a line
or a rule file is read, or a directory is entered, which adds a chain to the session. Since a chain
keeps the layers it was created on as they were, no step changes any other chain. The files may
change between the steps.

Two sessions that take the same steps stay in line as long as the chains at each position are tied.

## Main definitions

* `Action`, `Step`: what is done with a chain, and with a chain of a session
* `Chain.Reachable`: the chains that actions lead to
* `Session.run`, `Session.failures`, `Session.events`: the chains that steps leave, and what is
  heard on the way
* `Session.IsSimulation`: every step keeps the ties between two sessions

## Main results

* `Chain.Reachable.forall_layers`: what single edits keep is true of all reachable chains
* `Session.IsSimulation.run`: two sessions that are in line stay so, and nothing tells them apart on
  the way
-/

namespace PathFilter

/-- **What is done with a chain.** -/
inductive Action where
  /-- A rule is added. -/
  | add (rule : Rule)
  /-- The chain is given a change, the files being as they are at that time. -/
  | change (files : FileTree) (given : Change)

namespace Action

/-- What comes of an action. -/
def apply (c : Chain) : Action → Outcome
  | add r => c.addTraced r
  | change files given => given.apply files c

/-- Whether an action enters a directory. Its outcome is a chain of its own then. -/
def enters : Action → Bool
  | change _ (.directory _) => true
  | _ => false

end Action

/-- **The chains that actions lead to.** If a directory cannot be entered there is no chain of it;
any other action that fails still leaves a chain. -/
inductive Chain.Reachable : Chain → Prop where
  /-- The chain of a first directory. -/
  | root (directory : Text) : Reachable (root directory)
  /-- What an action leaves. -/
  | act {c : Chain} (h : Reachable c) (a : Action)
    (ha : a.enters = true → (a.apply c).failure = none) : Reachable (a.apply c).chain

/-- **A step of a session**: an action on the chain at a position. -/
structure Step where
  position : Nat
  action : Action

namespace Step

/-- What comes of a step, if there is a chain at its position. -/
def outcome? (chains : List Chain) (s : Step) : Option Outcome :=
  chains[s.position]?.map s.action.apply

/-- **The chains after a step.** -/
def apply (chains : List Chain) (s : Step) : List Chain :=
  match s.outcome? chains with
  | none => chains
  | some o =>
    if s.action.enters then
      if o.failure = none then chains ++ [o.chain] else chains
    else chains.set s.position o.chain

end Step

namespace Session

/-- **The chains after some steps.** -/
def run (chains : List Chain) (steps : List Step) : List Chain := steps.foldl Step.apply chains

/-- What comes of each step. -/
def outcomes : List Chain → List Step → List (Option Outcome)
  | _, [] => []
  | chains, s :: steps => s.outcome? chains :: outcomes (s.apply chains) steps

/-- **Which steps fail**, and how. -/
def failures (chains : List Chain) (steps : List Step) : List (Option (Option FilterError)) :=
  (outcomes chains steps).map (Option.map (·.failure))

/-- The events of each step. -/
def events (chains : List Chain) (steps : List Step) : List (Option (List Event)) :=
  (outcomes chains steps).map (Option.map (·.events))

end Session

/-! ## Actions keep ties -/

namespace Tie.IsKept

variable {t : Tie} {c c' : Chain}

theorem agree_act (h : t.IsKept) (hc : t.Holds c c') {a : Action} (ha : a.enters = false) :
    t.Agree (a.apply c) (a.apply c') := by
  cases a with
  | add r => exact h.agree_addTraced hc r
  | change files given =>
    cases given with
    | line l => exact h.agree_read hc l
    | file f options => exact h.agree_merge hc f options
    | directory d => cases ha

end Tie.IsKept

/-- **What single edits keep is true of all layers of a reachable chain**, if it is true of layers
without rules. -/
theorem Chain.Reachable.forall_layers {P : Layer → Prop} (hP : (Tie.self P).IsKept)
    (hroot : ∀ d, P (Chain.root d).here)
    (henter : ∀ {c : Chain}, P c.here → ∀ d, P (c.enter d).here)
    {c : Chain} (hc : c.Reachable) : ∀ l ∈ c.layers, P l := by
  have hself : ∀ {c : Chain} {o : Outcome}, (Tie.self P).Agree o o → ∀ l ∈ o.chain.layers, P l :=
    fun h => (Tie.self_holds_iff.mp h.chain).2
  induction hc with
  | root d => simpa [layers, Chain.root] using hroot d
  | @act c _ a _ ih =>
    have hc : (Tie.self P).Holds c c := Tie.self_holds_iff.mpr ⟨rfl, ih⟩
    rcases a with r | ⟨files, l | ⟨f, options⟩ | d⟩
    · exact hself (c := c) (hP.agree_addTraced hc r)
    · exact hself (c := c) (hP.agree_read hc l)
    · exact hself (c := c) (hP.agree_merge hc f options)
    · refine hself (c := c) (hP.agree_descend (Tie.self_countsAlike P) ?_)
      refine Tie.self_holds_iff.mpr ⟨rfl, ?_⟩
      exact List.forall_mem_cons.mpr ⟨henter hc.1.2 d, ih⟩

/-! ## Two sessions in line -/

namespace Session

/-- **Ties that every step keeps**, one for each position. A directory entered from any chain gets
the tie of its own position, which is not the first. -/
structure IsSimulation (t : Nat → Tie) : Prop where
  kept : ∀ i, (t i).IsKept
  enter : ∀ {i j : Nat}, 0 < j → ∀ {c c' : Chain}, (t i).Holds c c' →
    ∀ (files : FileTree) (directory : Text),
      (t j).Agree (c.descend files directory) (c'.descend files directory)

/-- Whether the chains of two sessions are tied position by position. -/
def Related (t : Nat → Tie) (chains chains' : List Chain) : Prop :=
  ∀ i, Option.Rel (t i).Holds chains[i]? chains'[i]?

variable {t : Nat → Tie} {chains chains' : List Chain}

theorem related_singleton {c c' : Chain} (h : (t 0).Holds c c') : Related t [c] [c'] := by
  intro i
  cases i with
  | zero => exact .some h
  | succ i => exact .none

theorem Related.rel (h : Related t chains chains') {i : Nat} {P : Chain → Chain → Prop}
    (hP : ∀ c c', (t i).Holds c c' → P c c') : Option.Rel P chains[i]? chains'[i]? := by
  have hi := h i
  revert hi
  generalize chains[i]? = x, chains'[i]? = x'
  rintro (@⟨c, c', hc⟩ | _)
  · exact .some (hP c c' hc)
  · exact .none

theorem Related.length_eq (h : Related t chains chains') : chains.length = chains'.length := by
  have hnone : ∀ i, chains.length ≤ i ↔ chains'.length ≤ i := by
    intro i
    rw [← List.getElem?_eq_none_iff, ← List.getElem?_eq_none_iff]
    have hi := h i
    revert hi
    generalize chains[i]? = x, chains'[i]? = x'
    rintro (_ | _) <;> simp
  exact Nat.le_antisymm ((hnone _).mpr (Nat.le_refl _)) ((hnone _).mp (Nat.le_refl _))

theorem Related.set (h : Related t chains chains') {i : Nat} {c c' : Chain}
    (hc : (t i).Holds c c') : Related t (chains.set i c) (chains'.set i c') := by
  intro j
  rw [List.getElem?_set, List.getElem?_set, h.length_eq]
  by_cases hij : i = j
  · subst hij
    rw [if_pos rfl, if_pos rfl]
    split
    · exact .some hc
    · exact .none
  · rw [if_neg hij, if_neg hij]
    exact h j

theorem Related.concat (h : Related t chains chains') {c c' : Chain}
    (hc : (t chains.length).Holds c c') : Related t (chains ++ [c]) (chains' ++ [c']) := by
  intro j
  rw [List.getElem?_append, List.getElem?_append, ← h.length_eq]
  by_cases hj : j < chains.length
  · rw [if_pos hj, if_pos hj]
    exact h j
  · rw [if_neg hj, if_neg hj]
    rcases hk : j - chains.length with _ | k
    · obtain rfl : j = chains.length := by omega
      exact .some hc
    · exact .none

namespace IsSimulation

variable (ht : IsSimulation t)

include ht

/-- What comes of an action is tied as the position at which its chain is kept asks for. -/
theorem agree_act {i j : Nat} {c c' : Chain} (hc : (t i).Holds c c') (a : Action)
    (hj : if a.enters then 0 < j else j = i) : (t j).Agree (a.apply c) (a.apply c') := by
  cases ha : a.enters with
  | false =>
    obtain rfl : j = i := by simpa [ha] using hj
    exact (ht.kept j).agree_act hc ha
  | true =>
    rcases a with _ | ⟨files, _ | _ | d⟩
    case change.directory => exact ht.enter (by simpa [ha] using hj) hc files d
    all_goals cases ha

/-- A step of both sessions fails alike, and leaves them in line. -/
theorem step (h : Related t chains chains') (s : Step) :
    (s.outcome? chains).map (·.failure) = (s.outcome? chains').map (·.failure) ∧
      Related t (s.apply chains) (s.apply chains') ∧
      ((∀ i, (t i).CountsAlike) →
        (s.outcome? chains).map (·.events) = (s.outcome? chains').map (·.events)) := by
  have hpos := h s.position
  unfold Step.apply Step.outcome?
  rcases hc : chains[s.position]? with _ | c <;> rcases hc' : chains'[s.position]? with _ | c' <;>
    rw [hc, hc'] at hpos
  · exact ⟨rfl, h, fun _ => rfl⟩
  · cases hpos
  · cases hpos
  · obtain hcc' : (t s.position).Holds c c' := by
      cases hpos
      assumption
    simp only [Option.map_some]
    cases ha : s.action.enters with
    | false =>
      have hagree := ht.agree_act hcc' s.action (j := s.position) (by simp [ha])
      exact ⟨congrArg some hagree.failure, by simpa using h.set hagree.chain,
        fun hcount => congrArg some (hagree.events (hcount _))⟩
    | true =>
      have hlen : 0 < chains.length := Nat.zero_lt_of_lt (List.getElem?_eq_some_iff.mp hc).1
      have hagree := ht.agree_act hcc' s.action (j := chains.length) (by simpa [ha] using hlen)
      refine ⟨congrArg some hagree.failure, ?_, fun hcount => congrArg some
        (hagree.events (hcount _))⟩
      rw [← hagree.failure]
      by_cases hf : (s.action.apply c).failure = none
      · simpa [hf] using h.concat hagree.chain
      · simpa [hf] using h

/-- **Two sessions in line stay so**, and the same steps fail in the same way. -/
theorem run (h : Related t chains chains') (steps : List Step) :
    failures chains steps = failures chains' steps ∧
      Related t (Session.run chains steps) (Session.run chains' steps) ∧
      ((∀ i, (t i).CountsAlike) → events chains steps = events chains' steps) := by
  induction steps generalizing chains chains' with
  | nil => exact ⟨rfl, h, fun _ => rfl⟩
  | cons s steps ih =>
    obtain ⟨hfailure, hstep, hevents⟩ := ht.step h s
    obtain ⟨hfailures, hrun, hrest⟩ := ih hstep
    exact ⟨congrArg₂ List.cons hfailure hfailures, hrun,
      fun hcount => congrArg₂ List.cons (hevents hcount) (hrest hcount)⟩

end IsSimulation

end Session

end PathFilter
