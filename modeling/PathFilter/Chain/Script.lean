import PathFilter.Chain.Basic
import PathFilter.Trace.Event

/-!
# Scripts

What a rule line does to a chain is a script: a sequence of edits, with the rule files it reads
opened in place. A script knows the directory it is for and the files it reads, but not the chain
it will run on. It stops at the first failure, and what was done before stays done.

## Main definitions

* `Edit`: one change to a chain
* `Script`: edits in order, with the contents of rule files in place
* `Outcome`: the chain that is left, the events on the way, and the failure if there was one
* `Script.run`: a script carried out

## Main results

* `Script.run_append`: of two scripts in a row, the second runs if the first does not fail
* `Script.keeps_run`: what the changes of a chain leave alone, a script leaves alone
* `Script.directory_run`: a script leaves the directory of the chain alone
-/

namespace PathFilter

/-- One change to a chain. -/
inductive Edit where
  /-- Add a rule. -/
  | add (rule : Rule)
  /-- Clear all rules. -/
  | clear
  /-- Hide the layers below. -/
  | isolate
  /-- Declare a rule file for the directories below. -/
  | declare (dirMerge : DirMerge)
  /-- Exclude the rule file that is declared. -/
  | hideDeclared
deriving DecidableEq, Repr

/-- **What is left of a change**: the chain, the events on the way, and the failure that ended it
early. -/
structure Outcome where
  chain : Chain
  events : List Event
  failure : Option FilterError
deriving DecidableEq, Repr

namespace Outcome

/-- Nothing has happened. -/
def idle (c : Chain) : Outcome := ⟨c, [], none⟩

/-- A failure before anything happened. -/
def fail (c : Chain) (e : FilterError) : Outcome := ⟨c, [], some e⟩

/-- **One change after another.** The second is left out if the first fails. -/
def andThen (o : Outcome) (f : Chain → Outcome) : Outcome :=
  match o.failure with
  | some _ => o
  | none => ⟨(f o.chain).chain, o.events ++ (f o.chain).events, (f o.chain).failure⟩

/-- The outcome with a directory given to its failure. -/
def within (directory : Text) (o : Outcome) : Outcome :=
  { o with failure := o.failure.map (·.inDirectory directory) }

@[simp] theorem idle_andThen (c : Chain) (f : Chain → Outcome) : (idle c).andThen f = f c := rfl

@[simp] theorem fail_andThen (c : Chain) (e : FilterError) (f : Chain → Outcome) :
    (fail c e).andThen f = fail c e := rfl

@[simp] theorem andThen_idle (o : Outcome) : o.andThen idle = o := by
  obtain ⟨c, es, _ | e⟩ := o <;> simp [andThen, idle]

theorem andThen_assoc (o : Outcome) (f g : Chain → Outcome) :
    (o.andThen f).andThen g = o.andThen fun c => (f c).andThen g := by
  obtain ⟨c, es, _ | e⟩ := o
  · rcases h : f c with ⟨c', es', _ | e'⟩ <;> simp [andThen, h]
  · rfl

end Outcome

/-- A rule added, and the event of it. -/
def Chain.addTraced (c : Chain) (r : Rule) : Outcome :=
  ⟨c.add r, [.ruleAdded c.directory r], none⟩

/-- **An edit carried out.** Only excluding the declared file can fail, if its name is no path
expression. -/
def Edit.apply (c : Chain) : Edit → Outcome
  | .add r => c.addTraced r
  | .clear => ⟨c.clear, [.cleared c.directory], none⟩
  | .isolate => .idle c.isolate
  | .declare d => .idle (c.declare d)
  | .hideDeclared =>
    match c.here.dirMerge with
    | none => .idle c
    | some d =>
      match Rule.excluding d.file with
      | .error e => .fail c e
      | .ok r => c.addTraced r

/-- **Edits in order**, with the contents of rule files in place. -/
inductive Script where
  /-- The end. -/
  | done
  /-- A failure. -/
  | fail (e : FilterError)
  /-- An edit, and what follows. -/
  | edit (e : Edit) (rest : Script)
  /-- A rule file with what its lines do, and what follows. -/
  | merge (file : Text) (body rest : Script)
deriving DecidableEq, Repr

namespace Script

/-- One script after another. -/
def append : Script → Script → Script
  | done, t => t
  | fail e, _ => fail e
  | edit e rest, t => edit e (rest.append t)
  | merge file body rest, t => merge file body (rest.append t)

/-- Scripts in a row. -/
def concat (scripts : List Script) : Script := scripts.foldr append done

/-- **A script carried out.** A rule file that was read leaves an event with the number of rules
that it made the top layer longer by. -/
def run : Script → Chain → Outcome
  | done, c => .idle c
  | fail e, c => .fail c e
  | edit e rest, c => (e.apply c).andThen rest.run
  | merge file body rest, c =>
    (body.run c).andThen fun c' =>
      Outcome.andThen ⟨c', [.fileMerged c'.directory file (c'.ruleCount - c.ruleCount)], none⟩
        rest.run

@[simp] theorem done_append (t : Script) : done.append t = t := rfl

@[simp] theorem append_done (s : Script) : s.append done = s := by
  induction s with
  | done => rfl
  | fail e => rfl
  | edit e rest ih => simp [append, ih]
  | merge file body rest _ ih => simp [append, ih]

theorem append_assoc (s t u : Script) : (s.append t).append u = s.append (t.append u) := by
  induction s with
  | done => rfl
  | fail e => rfl
  | edit e rest ih => simp [append, ih]
  | merge file body rest _ ih => simp [append, ih]

@[simp] theorem concat_nil : concat [] = done := rfl

@[simp] theorem concat_cons (s : Script) (ss : List Script) :
    concat (s :: ss) = s.append (concat ss) := rfl

@[simp] theorem run_done (c : Chain) : done.run c = .idle c := rfl

/-- Of two scripts in a row, the second runs if the first does not fail. -/
theorem run_append (s t : Script) (c : Chain) :
    (s.append t).run c = (s.run c).andThen t.run := by
  induction s generalizing c with
  | done => rfl
  | fail e => rfl
  | edit e rest ih =>
    simp only [append, run, Outcome.andThen_assoc]
    congr 1
    funext c'
    exact ih c'
  | merge file body rest _ ih =>
    simp only [append, run, Outcome.andThen_assoc]
    congr 1
    funext c'
    congr 1
    funext c''
    exact ih c''

/-! ### What is left alone -/

section LeftAlone

variable {α : Type} {f : Chain → α}

theorem keeps_andThen {o : Outcome} {g : Chain → Outcome} {a : α} (ho : f o.chain = a)
    (hg : ∀ c, f c = a → f (g c).chain = a) : f (o.andThen g).chain = a := by
  unfold Outcome.andThen
  split
  · exact ho
  · exact hg _ ho

variable (hadd : ∀ c r, f (Chain.add c r) = f c) (hclear : ∀ c, f (Chain.clear c) = f c)
  (hisolate : ∀ c, f (Chain.isolate c) = f c) (hdeclare : ∀ c d, f (Chain.declare c d) = f c)
include hadd hclear hisolate hdeclare

theorem keeps_apply (e : Edit) (c : Chain) : f (e.apply c).chain = f c := by
  cases e with
  | add r => exact hadd c r
  | clear => exact hclear c
  | isolate => exact hisolate c
  | declare d => exact hdeclare c d
  | hideDeclared =>
    simp only [Edit.apply]
    split
    · rfl
    · split
      · rfl
      · exact hadd c _

/-- **What the four changes of a chain leave alone, a script leaves alone**, by induction on it. -/
theorem keeps_run (s : Script) (c : Chain) : f (s.run c).chain = f c := by
  have hedit := keeps_apply hadd hclear hisolate hdeclare
  induction s generalizing c with
  | done => rfl
  | fail e => rfl
  | edit e rest ih => exact keeps_andThen (hedit e c) fun c' h => (ih c').trans h
  | merge file body rest ihb ih =>
    exact keeps_andThen (ihb c) fun c' h => keeps_andThen h fun c'' h' => (ih c'').trans h'

end LeftAlone

/-- A script leaves the directory of the chain alone. -/
theorem directory_run (s : Script) (c : Chain) : (s.run c).chain.directory = c.directory :=
  keeps_run Chain.directory_add Chain.directory_clear Chain.directory_isolate
    Chain.directory_declare s c

/-- A script leaves the number of rules on record alone. -/
theorem loaded_run (s : Script) (c : Chain) : (s.run c).chain.here.loaded = c.here.loaded :=
  keeps_run (f := fun c => c.here.loaded) Chain.loaded_add (fun _ => rfl) (fun _ => rfl)
    (fun _ _ => rfl) s c

end Script

end PathFilter
