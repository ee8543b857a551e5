import PathFilter.Proofs.Chain.Edits
import PathFilter.Proofs.Chain.Entry

/-!
# The lines that are carried out

A line may ask for a rule file, whose lines are carried out in its place and may ask for rule files
in turn. Each of them finds the chain as those before it have left it, be it cleared, isolated or
with a rule file declared. What a chain shows besides its own rules tells nothing but which lines
have been carried out, in their order.

## Main definitions

* `Moment`: a line that is carried out, and the chain that it finds
* `lineMoments`, `ownMoments`, `Action.moments`: the moments of a line, of a rule file and of an
  action
* `Chain.frame`: a chain without the rules of its top layer
* `Chain.note`: what a line does to the frame of a chain, the rule file that it asks for aside
* `Leads`: every moment finds what the one before has left, as far as a view shows it
* `Chain.after`, `Chain.course`: the chain after some actions, and their moments

## Main results

* `leads_line`: the moments of a line lead to what the line leaves
* `Action.leads`: those of an action lead to what the action leaves
-/

namespace PathFilter

/-- **A line that is carried out**, and the chain that it finds. -/
structure Moment where
  /-- The chain that the line finds. -/
  chain : Chain
  /-- The line. -/
  line : Text

namespace Moment

/-- The moments of some lines in a row, up to the first that fails. `script` gives what a line does,
and `moments` the moments of a line. -/
def ofLines (script : Text → Script) (moments : Chain → Text → List Moment) :
    List Text → Chain → List Moment
  | [], _ => []
  | line :: lines, c =>
    moments c line ++
      if ((script line).run c).failure = none then
        ofLines script moments lines ((script line).run c).chain
      else []

/-- The moments of a rule file while others are being read. Under an enforced polarity its lines are
no rule lines; otherwise `nested` gives the moments of a line. -/
def ofFile (files : FileTree) (directory : Text) (reading : List Text) (path : Text)
    (enforced : Option Polarity)
    (nested : (file : Text) → file ∈ files.unread reading → Chain → Text → List Moment)
    (c : Chain) : List Moment :=
  match h : files.read path with
  | .error _ => []
  | .ok (canonical, bytes) =>
    if hr : canonical ∈ reading then []
    else
      match enforced with
      | some _ => []
      | none =>
        ofLines (lineScript files directory (canonical :: reading))
          (nested canonical (FileTree.mem_unread_of_read h hr)) (FileLines.ofBytes bytes).rules c

end Moment

/-- **The moments of a line**: its own, and those of the rule file that it asks to be read. -/
def lineMoments (files : FileTree) (directory : Text) (reading : List Text) (c : Chain)
    (line : Text) : List Moment :=
  ⟨c, line⟩ ::
    match readLine line.trim with
    | .ok (.merge options, file) =>
      Moment.ofFile files directory reading (Path.join directory file) options.enforced
        (fun f _ c l => lineMoments files directory (f :: reading) c l)
        (c.isolateIf options.noInherit)
    | _ => []
termination_by (files.unread reading).length
decreasing_by exact FileTree.length_unread_lt ‹_›

/-- The moments of a rule file. -/
def ownMoments (files : FileTree) (directory : Text) (reading : List Text) (path : Text)
    (enforced : Option Polarity) (c : Chain) : List Moment :=
  Moment.ofFile files directory reading path enforced
    (fun f _ => lineMoments files directory (f :: reading)) c

section Equations

variable {files : FileTree} {directory : Text} {reading : List Text}

theorem lineMoments_merge {line file : Text} {options : MergeOptions}
    (h : readLine line.trim = .ok (.merge options, file)) (c : Chain) :
    lineMoments files directory reading c line =
      ⟨c, line⟩ :: ownMoments files directory reading (Path.join directory file) options.enforced
        (c.isolateIf options.noInherit) := by
  rw [lineMoments]
  simp only [h]
  rfl

theorem lineMoments_other {line : Text}
    (h : ∀ options file, readLine line.trim ≠ .ok (.merge options, file)) (c : Chain) :
    lineMoments files directory reading c line = [⟨c, line⟩] := by
  rw [lineMoments]
  split
  · next hread => exact absurd hread (h _ _)
  · rfl

/-- A line that clears the rules asks for no rule file. -/
theorem lineMoments_clear {line : Text} (h : isClearing line.trim = true) (c : Chain) :
    lineMoments files directory reading c line = [⟨c, line⟩] := by
  refine lineMoments_other (fun options file hread => ?_) c
  rw [isClearing_of_readLine hread] at h
  cases h

variable {path : Text} {enforced : Option Polarity}

/-- A rule file that cannot be read has no moments. -/
theorem ownMoments_of_error {failure : ReadFailure} (h : files.read path = .error failure)
    (c : Chain) : ownMoments files directory reading path enforced c = [] := by
  unfold ownMoments Moment.ofFile
  split
  · rfl
  · next h' =>
    rw [h] at h'
    cases h'

/-- A rule file that is being read already has none. -/
theorem ownMoments_of_mem {canonical : Text} {bytes : List UInt8}
    (h : files.read path = .ok (canonical, bytes)) (hr : canonical ∈ reading) (c : Chain) :
    ownMoments files directory reading path enforced c = [] := by
  unfold ownMoments Moment.ofFile
  split
  · rfl
  · next h' =>
    rw [h] at h'
    cases h'
    exact dif_pos hr

/-- A rule file under an enforced polarity has none. -/
theorem ownMoments_enforced (p : Polarity) (c : Chain) :
    ownMoments files directory reading path (some p) c = [] := by
  unfold ownMoments Moment.ofFile
  split
  · rfl
  · split <;> rfl

/-- Any other rule file has the moments of its lines. -/
theorem ownMoments_of_not_mem {canonical : Text} {bytes : List UInt8}
    (h : files.read path = .ok (canonical, bytes)) (hr : canonical ∉ reading) (c : Chain) :
    ownMoments files directory reading path none c =
      Moment.ofLines (lineScript files directory (canonical :: reading))
        (lineMoments files directory (canonical :: reading)) (FileLines.ofBytes bytes).rules c := by
  unfold ownMoments Moment.ofFile
  split
  · next h' =>
    rw [h] at h'
    cases h'
  · next h' =>
    rw [h] at h'
    cases h'
    exact dif_neg hr

end Equations

/-! ## Frames -/

/-- The layer without its rules, and without the number of those from its rule file. -/
def Layer.frame (l : Layer) : Layer := { l with rules := [], deletionRules := [], loaded := none }

namespace Chain

/-- **A chain without the rules of its top layer.** -/
def frame (c : Chain) : Chain := c.mapHere Layer.frame

/-- **What a line does to the frame of a chain**, the rule file that it asks to be read aside. -/
def note (c : Chain) (line : Text) : Chain :=
  if isClearing line.trim then c.clear
  else
    match readLine line.trim with
    | .ok (.merge options, _) => c.isolateIf options.noInherit
    | .ok (.dirMerge options, file) => (c.isolateIf options.noInherit).declare ⟨file, options⟩
    | _ => c

theorem frame_add (c : Chain) (r : Rule) : (c.add r).frame = c.frame := by
  unfold add
  split <;> rfl

theorem frame_apply_hideDeclared (c : Chain) :
    (Edit.hideDeclared.apply c).chain.frame = c.frame := by
  rcases Edit.leaves_hideDeclared c with h | ⟨r, h⟩ <;> rw [Edit.leaves] at h <;> rw [h]
  exact frame_add c r

theorem frame_declareFile (c : Chain) (file : Text) (options : MergeOptions) :
    (c.declareFile file options).chain.frame =
      ((c.isolateIf options.noInherit).declare ⟨file, options⟩).frame := by
  unfold declareFile
  split
  · exact frame_apply_hideDeclared _
  · rfl

end Chain

namespace Script

variable (c : Chain)

theorem frame_run_ofRule (x : Except FilterError Rule) :
    ((ofRule x .done).run c).chain.frame = c.frame := by
  rcases x with e | r
  · rfl
  · exact c.frame_add r

theorem frame_run_hiding (hide : Bool) (file : Text) :
    ((Script.hiding hide file).run c).chain.frame = c.frame := by
  cases hide with
  | true => exact frame_run_ofRule c _
  | false => rfl

end Script

theorem Outcome.frame_andThen {o : Outcome} {f : Chain → Outcome}
    (hf : ∀ c, (f c).chain.frame = c.frame) : (o.andThen f).chain.frame = o.chain.frame := by
  obtain ⟨c, es, _ | e⟩ := o
  · exact hf c
  · rfl

/-- Lines that are no rule lines leave the frame as it is. -/
theorem Script.frame_run_verbatim (p : Polarity) (lines : List Text) (c : Chain) :
    ((concat (lines.map fun l => ofRule (Rule.build p .ordinary l l) .done)).run c).chain.frame =
      c.frame := by
  induction lines generalizing c with
  | nil => rfl
  | cons line lines ih =>
    rw [List.map_cons, concat_cons, run_append, Outcome.frame_andThen ih]
    exact frame_run_ofRule c _

/-! ## Moments in a row -/

/-- **Every moment finds what the one before has left**, as far as a view of chains shows it: the
first what a chain shows, and in the end there is what the last of them leaves. -/
inductive Leads {α : Type} (view : Chain → α) : Chain → List Moment → Chain → Prop where
  /-- There are no more moments. -/
  | done {c c' : Chain} (h : view c = view c') : Leads view c [] c'
  /-- The next moment. -/
  | step {c c' : Chain} {m : Moment} {ms : List Moment} (h : view c = view m.chain)
    (hrest : Leads view (m.chain.note m.line) ms c') : Leads view c (m :: ms) c'

namespace Leads

variable {α β : Type} {view : Chain → α} {c c' d : Chain} {ms ms' : List Moment}

theorem congr_left (h : Leads view c ms c') (hd : view d = view c) : Leads view d ms c' := by
  cases h with
  | done h => exact .done (hd.trans h)
  | step h hrest => exact .step (hd.trans h) hrest

theorem append (h : Leads view c ms d) (h' : Leads view d ms' c') :
    Leads view c (ms ++ ms') c' := by
  induction h with
  | done h => exact h'.congr_left h
  | step h _ ih => exact .step h (ih h')

theorem congr_right (h : Leads view c ms c') (hd : view c' = view d) : Leads view c ms d := by
  simpa using h.append (.done hd)

/-- What a moment leaves is what the moments after it begin with. -/
theorem rest {before after : List Moment} {m : Moment}
    (h : Leads view c (before ++ m :: after) c') :
    Leads view (m.chain.note m.line) after c' := by
  induction before generalizing c with
  | nil => cases h with
    | step _ hrest => exact hrest
  | cons m' before ih => cases h with
    | step _ hrest => exact ih hrest

/-- What shows less is left as well. -/
theorem map (h : Leads view c ms c') (f : α → β) : Leads (fun c => f (view c)) c ms c' := by
  induction h with
  | done h => exact .done (congrArg f h)
  | step h _ ih => exact .step (congrArg f h) ih

end Leads

section Lines

variable {files : FileTree} {directory : Text} {reading : List Text}

/-- Lines in a row lead to what they leave if each of them does. -/
theorem leads_ofLines {script : Text → Script} {moments : Chain → Text → List Moment}
    (h : ∀ c l, Leads Chain.frame c (moments c l) ((script l).run c).chain) (lines : List Text)
    (c : Chain) :
    Leads Chain.frame c (Moment.ofLines script moments lines c)
      ((Script.concat (lines.map script)).run c).chain := by
  induction lines generalizing c with
  | nil => exact .done rfl
  | cons line lines ih =>
    rw [List.map_cons, Script.concat_cons, Script.run_append, Moment.ofLines]
    refine (h c line).append ?_
    generalize (script line).run c = o
    obtain ⟨c', es, _ | e⟩ := o
    · exact ih c'
    · exact .done rfl

/-- A rule file leads to what it leaves if each of its lines does. -/
theorem leads_own
    (h : ∀ file ∈ files.unread reading, ∀ c l, Leads Chain.frame c
      (lineMoments files directory (file :: reading) c l)
      ((lineScript files directory (file :: reading) l).run c).chain)
    (path : Text) (enforced : Option Polarity) (c : Chain) :
    Leads Chain.frame c (ownMoments files directory reading path enforced c)
      ((ownScript files directory reading path enforced).run c).chain := by
  rcases hread : files.read path with failure | ⟨canonical, bytes⟩
  · rw [ownMoments_of_error hread, ownScript_of_error hread]
    exact .done rfl
  · by_cases hr : canonical ∈ reading
    · rw [ownMoments_of_mem hread hr, ownScript_of_mem hread hr]
      exact .done rfl
    · rw [ownScript_of_not_mem hread hr, contentScript, Script.run_append]
      have hend : ∀ c : Chain, ((if (FileLines.ofBytes bytes).intact then Script.done else
          .fail (.unreadable path directory .notText)).run c).chain.frame = c.frame := by
        intro c
        split <;> rfl
      cases enforced with
      | some p =>
        rw [ownMoments_enforced]
        refine .done (.symm ?_)
        rw [Outcome.frame_andThen hend]
        exact Script.frame_run_verbatim p _ c
      | none =>
        rw [ownMoments_of_not_mem hread hr]
        refine Leads.congr_right (leads_ofLines ?_ _ c) (Outcome.frame_andThen hend).symm
        exact h canonical (FileTree.mem_unread_of_read hread hr)

/-- So does a rule file that is merged, from the chain that its options leave. -/
theorem leads_merge
    (h : ∀ file ∈ files.unread reading, ∀ c l, Leads Chain.frame c
      (lineMoments files directory (file :: reading) c l)
      ((lineScript files directory (file :: reading) l).run c).chain)
    (file : Text) (options : MergeOptions) (c : Chain) :
    Leads Chain.frame (c.isolateIf options.noInherit)
      (ownMoments files directory reading (Path.join directory file) options.enforced
        (c.isolateIf options.noInherit))
      ((mergeScript files directory reading file options).run c).chain := by
  rw [mergeScript, Chain.run_isolating]
  refine Leads.congr_right (leads_own h _ _ _) (Outcome.frame_andThen fun c => ?_).symm
  exact Script.frame_run_hiding c _ _

/-- **The moments of a line lead to what the line leaves.** -/
theorem leads_line (c : Chain) (line : Text) :
    Leads Chain.frame c (lineMoments files directory reading c line)
      ((lineScript files directory reading line).run c).chain := by
  induction reading, line using line_induction files generalizing c with
  | clear reading line hc =>
    rw [lineMoments_clear hc, lineScript_clear _ _ _ hc]
    refine .step rfl (.done ?_)
    rw [Chain.note, if_pos hc]
    rfl
  | error reading line e hc hd =>
    rw [lineMoments_other (by simp [hd]), lineScript_error _ _ _ hc hd]
    refine .step rfl (.done ?_)
    simp only [Chain.note, hc, hd, Bool.false_eq_true, if_false]
    rfl
  | rule reading line p k expression hc hd =>
    rw [lineMoments_other (by simp [hd]), lineScript_rule _ _ _ hc hd]
    refine .step rfl (.done ?_)
    simp only [Chain.note, hc, hd, Bool.false_eq_true, if_false]
    exact (Script.frame_run_ofRule c _).symm
  | merge reading line options file hc hd ih =>
    rw [lineMoments_merge hd, lineScript_merge _ _ _ hc hd]
    refine .step rfl ?_
    simp only [Chain.note, hc, hd, Bool.false_eq_true, if_false]
    exact leads_merge (fun f hf c l => ih f hf l c) file options c
  | dirMerge reading line options file hc hd =>
    rw [lineMoments_other (by simp [hd]), lineScript_dirMerge _ _ _ hc hd, Chain.run_declaring]
    refine .step rfl (.done ?_)
    simp only [Chain.note, hc, hd, Bool.false_eq_true, if_false]
    exact (Chain.frame_declareFile c _ _).symm

end Lines

/-! ## The moments of an action -/

namespace Action

/-- Whether the options under which an action reads a rule file have the modifier `n`. -/
def noInherit (a : Action) (c : Chain) : Bool :=
  match a with
  | change _ (.file _ options) => options.noInherit
  | change files (.directory d) =>
    match c.here.dirMerge with
    | some declared => declared.options.noInherit && files.isFile (Path.within d declared.file)
    | none => false
  | _ => false

/-- **The moments of an action.** -/
def moments (a : Action) (c : Chain) : List Moment :=
  match a with
  | add _ => []
  | change files (.line l) => lineMoments files c.directory [] c l
  | change files (.file f options) =>
    ownMoments files c.directory [] (Path.join c.directory f) options.enforced
      (c.isolateIf options.noInherit)
  | change files (.directory d) =>
    match c.here.dirMerge with
    | none => []
    | some declared =>
      let path := Path.within d declared.file
      if files.isFile path then
        ownMoments files d [] path declared.options.enforced
          ((c.enter d).isolateIf declared.options.noInherit)
      else []

theorem frame_apply (a : Action) (c : Chain) :
    (a.apply c).chain.frame = ((a.script c).run (a.start c)).chain.frame := by
  obtain ⟨loaded, h⟩ := a.exists_loaded c
  rw [h]
  rfl

/-- **The moments of an action lead to what the action leaves**, from the chain that it starts
on. -/
theorem leads (a : Action) (c : Chain) :
    Leads Chain.frame ((a.start c).isolateIf (a.noInherit c)) (a.moments c) (a.apply c).chain := by
  refine Leads.congr_right ?_ (a.frame_apply c).symm
  rcases a with r | ⟨files, l | ⟨f, options⟩ | d⟩
  · exact .done (c.frame_add r).symm
  · exact leads_line c l
  · exact leads_merge (fun _ _ => leads_line) f options c
  · change Leads _ ((c.enter d).isolateIf _) _ ((c.enterScript files d).run (c.enter d)).chain
    simp only [moments, noInherit, Chain.enterScript]
    rcases c.here.dirMerge with _ | declared
    · exact .done rfl
    · simp only
      split
      · next hfile =>
        rw [hfile, Bool.and_true, Chain.run_isolating, Script.run_append]
        refine Leads.congr_right (leads_own (fun _ _ => leads_line) _ _ _) ?_
        exact (Outcome.frame_andThen fun c => Script.frame_run_hiding c _ _).symm
      · next hfile =>
        rw [Bool.not_eq_true] at hfile
        rw [hfile, Bool.and_false]
        exact .done rfl

end Action

/-! ## The moments of actions in a row -/

namespace Chain

/-- **The chain after some actions.** A directory entered leaves its own chain, which the actions
after it go on with. -/
def after (c : Chain) (actions : List Action) : Chain :=
  actions.foldl (fun c a => (a.apply c).chain) c

/-- The moments of some actions in a row. -/
def course (c : Chain) : List Action → List Moment
  | [] => []
  | a :: actions => a.moments c ++ course (a.apply c).chain actions

@[simp] theorem after_nil (c : Chain) : c.after [] = c := rfl

@[simp] theorem after_cons (c : Chain) (a : Action) (actions : List Action) :
    c.after (a :: actions) = (a.apply c).chain.after actions := rfl

end Chain

end PathFilter
