import PathFilter.Proofs.Chain.Moments

/-!
# Which declaration is in force

Of the lines that declare a rule file for the directories below, the first one counts, until the
rules are cleared; then the next one does. It makes no difference where these lines stand, in which
rule file or how deeply nested, and whether what they are part of fails in the end. A directory that
is entered takes over the declaration in force, and its rule file changes it only if it clears the
rules.

## Main definitions

* `declared?`: the rule file that a line declares
* `declaredAfter`: the declaration in force after a line
* `Chain.declaration`: the declaration in force
* `Moment.found`: the chain that some moments find

## Main results

* `Chain.leads_declaration`: the lines carried out tell the declaration in force, in a chain and in
  the chains of directories entered from it
* `Chain.descend_cases`: a directory that can be entered has no rule file, or has read it
* `Chain.declaration_after`: the first declaration wins until the rules are cleared
-/

namespace PathFilter

/-- **The rule file that a line declares** for the directories below. -/
def declared? (line : Text) : Option DirMerge :=
  match readLine line.trim with
  | .ok (.dirMerge options, file) => some ⟨file, options⟩
  | _ => none

/-- **The declaration in force after a line**: none if it clears the rules, and otherwise the one
that was in force before, or that of the line if there was none. -/
def declaredAfter (declaration : Option DirMerge) (line : Text) : Option DirMerge :=
  if isClearing line.trim then none else declaration.or (declared? line)

theorem declared?_eq_some {line file : Text} {options : MergeOptions}
    (h : readLine line = .ok (.dirMerge options, file)) :
    declared? line = some ⟨file, options⟩ := by
  simp only [declared?, readLine_trim_iff.mpr h]

theorem declared?_eq_none {line : Text}
    (h : ∀ options file, readLine line ≠ .ok (.dirMerge options, file)) :
    declared? line = none := by
  unfold declared?
  split
  · next hread => exact absurd (readLine_trim_iff.mp hread) (h _ _)
  · rfl

theorem declaredAfter_of_clears {line : Text} (h : Clears line) (declaration : Option DirMerge) :
    declaredAfter declaration line = none :=
  if_pos (isClearing_trim_iff.mpr h)

/-- A declaration in force stays so as long as the rules are not cleared. -/
theorem declaredAfter_some {line : Text} (h : ¬ Clears line) (d : DirMerge) :
    declaredAfter (some d) line = some d :=
  if_neg fun hc => h (isClearing_trim_iff.mp hc)

/-- No declaration comes into force by a line that is none. -/
theorem declaredAfter_none {line : Text}
    (h : ∀ options file, readLine line ≠ .ok (.dirMerge options, file)) :
    declaredAfter none line = none := by
  simp [declaredAfter, declared?_eq_none h]

/-- With no declaration in force, the next one comes into force. -/
theorem declaredAfter_declared {line file : Text} {options : MergeOptions}
    (h : readLine line = .ok (.dirMerge options, file)) :
    declaredAfter none line = some ⟨file, options⟩ := by
  have hclear := isClearing_of_readLine (readLine_trim_iff.mpr h)
  simp [declaredAfter, hclear, declared?_eq_some h]

/-! ## Along the moments -/

namespace Chain

/-- The declaration in force. -/
def declaration (c : Chain) : Option DirMerge := c.here.dirMerge

theorem declaration_isolateIf (c : Chain) (first : Bool) :
    (c.isolateIf first).declaration = c.declaration := by
  cases first <;> rfl

/-- What is in force after a line is told by what was before, and by the line. -/
theorem declaration_note (c : Chain) (line : Text) :
    (c.note line).declaration = declaredAfter c.declaration line := by
  cases hc : isClearing line.trim with
  | true =>
    rw [note, declaredAfter, if_pos hc, if_pos hc]
    rfl
  | false =>
    rcases hd : readLine line.trim with e | ⟨⟨p, k⟩ | options | options, file⟩
    all_goals simp only [note, declaredAfter, declared?, hc, hd, Bool.false_eq_true, if_false,
      Option.or_none]
    · exact declaration_isolateIf c _
    · exact congrArg (Option.or · _) (declaration_isolateIf c options.noInherit)

/-- **Along what is done with a chain, the lines carried out tell the declaration in force**, in the
chain and in those of the directories entered from it. -/
theorem leads_declaration (c : Chain) (actions : List Action) :
    Leads declaration c (c.course actions) (c.after actions) := by
  induction actions generalizing c with
  | nil => exact .done rfl
  | cons a actions ih =>
    refine Leads.append ?_ (ih (a.apply c).chain)
    refine ((a.leads c).map declaration).congr_left ?_
    change c.declaration = ((a.start c).isolateIf (a.noInherit c)).declaration
    rw [declaration_isolateIf]
    rcases a with _ | ⟨_, _ | _ | _⟩ <;> rfl

end Chain

namespace Moment

/-- **The chain that some moments find**, or the one that is left in the end if there are none. -/
def found (last : Chain) : List Moment → Chain
  | [] => last
  | m :: _ => m.chain

end Moment

namespace Leads

variable {c last : Chain} {ms : List Moment}

theorem declaration_found (h : Leads Chain.declaration c ms last) :
    (Moment.found last ms).declaration = c.declaration := by
  cases h with
  | done h => exact h.symm
  | step h _ => exact h.symm

/-- A declaration stays in force as long as the rules are not cleared. -/
theorem declaration_of_not_clears (h : Leads Chain.declaration c ms last) {d : DirMerge}
    (hd : c.declaration = some d) (hms : ∀ m ∈ ms, ¬ Clears m.line) :
    last.declaration = some d := by
  induction h with
  | done h => exact h ▸ hd
  | step h _ ih =>
    obtain ⟨hm, hms⟩ := List.forall_mem_cons.mp hms
    refine ih ?_ hms
    rw [Chain.declaration_note, ← h, hd, declaredAfter_some hm]

/-- With none in force, none comes into force by lines without one. -/
theorem declaration_of_none {between rest : List Moment}
    (h : Leads Chain.declaration c (between ++ rest) last) (hc : c.declaration = none)
    (hbetween : ∀ m ∈ between, ∀ options file,
      readLine m.line ≠ .ok (.dirMerge options, file)) :
    (Moment.found last rest).declaration = none := by
  induction between generalizing c with
  | nil => exact h.declaration_found.trans hc
  | cons m between ih =>
    obtain ⟨hm, hbetween⟩ := List.forall_mem_cons.mp hbetween
    cases h with
    | step h hrest =>
      refine ih hrest ?_ hbetween
      rw [Chain.declaration_note, ← h, hc, declaredAfter_none hm]

end Leads

namespace Chain

/-- The rule file of a directory that can be read has been read to its end, and is excluded then if
it is to be. The rules that it brought are counted before that. -/
theorem readOwn_cases {files : FileTree} {c : Chain} {d : DirMerge} {path : Text}
    (h : (c.readOwn files d path).failure = none) :
    let read := (ownScript files c.directory [] path d.options.enforced).run
      (c.isolateIf d.options.noInherit)
    let hidden := (Script.hiding d.options.excludeSelf d.file).run read.chain
    read.failure = none ∧ hidden.failure = none ∧
      (c.readOwn files d path).chain =
        hidden.chain.setLoaded (read.chain.ruleCount - c.ruleCount) := by
  intro read hidden
  have hcount : (c.isolateIf d.options.noInherit).ruleCount = c.ruleCount := by
    cases d.options.noInherit <;> rfl
  rw [← hcount]
  change (read.andThen _).failure = none at h
  change _ ∧ _ ∧ (read.andThen _).chain = _
  simp only [hidden]
  generalize read = o at h ⊢
  obtain ⟨c', es, _ | e⟩ := o
  · simp only [Outcome.andThen, true_and] at h ⊢
    generalize (Script.hiding d.options.excludeSelf d.file).run c' = o' at h ⊢
    obtain ⟨c'', es', _ | e'⟩ := o'
    · exact ⟨rfl, rfl⟩
    · cases h
  · cases h

section Descend

variable {files : FileTree} {c : Chain} {directory : Text}

/-- A directory has no rule file to read, or it has one. -/
theorem exists_ownFile_or (files : FileTree) (c : Chain) (directory : Text) :
    (∀ d, c.here.dirMerge = some d → files.isFile (Path.within directory d.file) = false) ∨
      ∃ d, c.here.dirMerge = some d ∧ files.isFile (Path.within directory d.file) = true := by
  by_cases h : ∃ d, c.here.dirMerge = some d ∧ files.isFile (Path.within directory d.file) = true
  · exact .inr h
  · left
    intro d hd
    rw [← Bool.not_eq_true]
    exact fun hfile => h ⟨d, hd, hfile⟩

/-- Entering a directory reads its rule file, if it has one. -/
theorem descend_of_isFile {d : DirMerge} (hd : c.here.dirMerge = some d)
    (hfile : files.isFile (Path.within directory d.file) = true) :
    c.descend files directory =
      ((c.enter directory).readOwn files d (Path.within directory d.file)).within directory := by
  simp only [descend, show (c.enter directory).here.dirMerge = some d from hd, if_pos hfile]

/-- Without one it does nothing else. -/
theorem descend_of_not_isFile
    (h : ∀ d, c.here.dirMerge = some d → files.isFile (Path.within directory d.file) = false) :
    c.descend files directory = .idle (c.enter directory) := by
  rw [descend]
  cases hd : c.here.dirMerge with
  | none => simp only [show (c.enter directory).here.dirMerge = none from hd]
  | some d => simp [show (c.enter directory).here.dirMerge = some d from hd, h d hd]

/-- A directory that can be entered has no rule file to read, or has read it. -/
theorem descend_cases (h : (c.descend files directory).failure = none) :
    ((c.descend files directory).chain = c.enter directory ∧
        ∀ d, c.here.dirMerge = some d → files.isFile (Path.within directory d.file) = false) ∨
      ∃ d, c.here.dirMerge = some d ∧ files.isFile (Path.within directory d.file) = true ∧
        ((c.enter directory).readOwn files d (Path.within directory d.file)).failure = none ∧
        (c.descend files directory).chain =
          ((c.enter directory).readOwn files d (Path.within directory d.file)).chain := by
  rcases exists_ownFile_or files c directory with hnone | ⟨d, hd, hfile⟩
  · rw [descend_of_not_isFile hnone]
    exact .inl ⟨rfl, hnone⟩
  · rw [descend_of_isFile hd hfile] at h ⊢
    exact .inr ⟨d, hd, hfile, Outcome.failure_within_eq_none_iff.mp h, rfl⟩

end Descend

/-- A directory that has read no rule file has no moments. -/
theorem moments_of_loaded_eq_none {files : FileTree} {c : Chain} {directory : Text}
    (h : (c.descend files directory).failure = none)
    (hloaded : (c.descend files directory).chain.here.loaded = none) :
    (Action.change files (.directory directory)).moments c = [] := by
  simp only [Action.moments]
  rcases descend_cases h with ⟨-, hnone⟩ | ⟨d, -, -, hread, hchain⟩
  · rcases hd : c.here.dirMerge with _ | d
    · rfl
    · simp [hnone d hd]
  · obtain ⟨-, -, hn⟩ := readOwn_cases hread
    rw [hchain, hn] at hloaded
    cases hloaded

/-- **The first declaration wins until the rules are cleared.** Along whatever is done with a chain,
its declaration stays in force as long as no line that is carried out clears the rules. Right after
one that does, and until the next line with a declaration, none is in force; then it is that of this
line. A directory entered has the declaration that was in force then, if it reads no rule file or no
line of it that is carried out clears the rules. -/
theorem declaration_after (c : Chain) (actions : List Action) :
    let last := c.after actions
    (∀ d, c.here.dirMerge = some d → (∀ m ∈ c.course actions, ¬ Clears m.line) →
        last.here.dirMerge = some d) ∧
      (∀ first m between rest, c.course actions = first ++ m :: (between ++ rest) →
        Clears m.line →
        (∀ m' ∈ between, ∀ options file, readLine m'.line ≠ .ok (.dirMerge options, file)) →
          (Moment.found last rest).here.dirMerge = none ∧
          ∀ next rest' options file, rest = next :: rest' →
            readLine next.line = .ok (.dirMerge options, file) →
              (Moment.found last rest').here.dirMerge = some ⟨file, options⟩) ∧
      ∀ files directory, (c.descend files directory).failure = none →
        ((c.descend files directory).chain.here.loaded = none ∨
          ∀ m ∈ (Action.change files (.directory directory)).moments c, ¬ Clears m.line) →
        (c.descend files directory).chain.here.dirMerge = c.here.dirMerge := by
  intro last
  have hleads := c.leads_declaration actions
  refine ⟨fun d hd hms => hleads.declaration_of_not_clears hd hms, ?_, ?_⟩
  · intro first m between rest hcourse hm hbetween
    rw [hcourse] at hleads
    have hcleared : (m.chain.note m.line).declaration = none := by
      rw [declaration_note, declaredAfter_of_clears hm]
    have hnone := hleads.rest.declaration_of_none hcleared hbetween
    refine ⟨hnone, ?_⟩
    rintro next rest' options file rfl hnext
    rw [← List.cons_append, ← List.append_assoc] at hleads
    have hfound := hleads.rest.declaration_found
    rw [declaration_note, show next.chain.declaration = none from hnone,
      declaredAfter_declared hnext] at hfound
    exact hfound
  · intro files directory hentered hclear
    have hfile := c.leads_declaration [.change files (.directory directory)]
    have hcourse : c.course [.change files (.directory directory)] =
        (Action.change files (.directory directory)).moments c := List.append_nil _
    rw [hcourse] at hfile
    rcases hd : c.here.dirMerge with _ | d
    · have hmoments : (Action.change files (.directory directory)).moments c = [] := by
        simp only [Action.moments, hd]
      rw [hmoments] at hfile
      exact hfile.declaration_found.trans hd
    · refine hfile.declaration_of_not_clears hd ?_
      rcases hclear with hloaded | hclear
      · rw [moments_of_loaded_eq_none hentered hloaded]
        simp
      · exact hclear

/-- A rule file that declares two files, with a clearing line between them. The second is in force
in the end. -/
theorem declaration_after_cleared :
    let text : Text := ": a\n!\n: b".toList
    let files : FileTree := ⟨.directory [("rules".toList, .file text.utf8)], []⟩
    let c : Chain := root "/".toList
    let read : Action := .change files (.line ". rules".toList)
    (∃ m ∈ c.course [read], Clears m.line) ∧
      (c.after [read]).here.dirMerge = some ⟨"b".toList, ⟨none, false, false⟩⟩ := by
  intro text files c read
  obtain ⟨-, hcleared, -⟩ := declaration_after c [read]
  have hopened : files.read (Path.join "/".toList "rules".toList) =
      .ok ("/rules".toList, text.utf8) :=
    FileTree.read_pathOf ["rules".toList] (by decide) (by decide) (by decide) rfl
  have hlines : (FileLines.ofBytes text.utf8).rules = [": a".toList, "!".toList, ": b".toList] := by
    rw [FileLines.rules_ofBytes_utf8]
    decide +kernel
  have hmerge : readLine (Text.trim ". rules".toList) =
      .ok (.merge ⟨none, false, false⟩, "rules".toList) := by decide +kernel
  have ha : readLine (Text.trim ": a".toList) =
      .ok (.dirMerge ⟨none, false, false⟩, "a".toList) := by decide +kernel
  have hb : readLine (Text.trim ": b".toList) =
      .ok (.dirMerge ⟨none, false, false⟩, "b".toList) := by decide +kernel
  have hnone : ∀ {l file} {o : MergeOptions}, readLine (Text.trim l) = .ok (.dirMerge o, file) →
      ∀ options file', readLine (Text.trim l) ≠ .ok (.merge options, file') := by
    intro l file o h options file' h'
    rw [h] at h'
    cases h'
  have hbang : ∀ options file, readLine (Text.trim "!".toList) ≠ .ok (.merge options, file) := by
    intro options file h
    have hc := isClearing_of_readLine h
    cases hc
  have hscript : ∀ {l file}, readLine (Text.trim l) = .ok (.dirMerge ⟨none, false, false⟩, file) →
      lineScript files "/".toList ["/rules".toList] l =
        .edit (.declare ⟨file, ⟨none, false, false⟩⟩) .done := fun h =>
    lineScript_dirMerge files _ _ (isClearing_of_readLine h) h
  have hscript' : lineScript files "/".toList ["/rules".toList] "!".toList = .edit .clear .done :=
    lineScript_clear files _ _ (by decide)
  have hcourse : ∃ first m next, c.course [read] = first ++ m :: ([] ++ [next]) ∧
      m.line = "!".toList ∧ next.line = ": b".toList := by
    let declared := c.declare ⟨"a".toList, ⟨none, false, false⟩⟩
    refine ⟨[⟨c, ". rules".toList⟩, ⟨c, ": a".toList⟩], ⟨declared, "!".toList⟩,
      ⟨declared.clear, ": b".toList⟩, ?_, rfl, rfl⟩
    change lineMoments files "/".toList [] c ". rules".toList ++ [] = _
    rw [List.append_nil, lineMoments_merge hmerge, ownMoments_of_not_mem hopened List.not_mem_nil,
      hlines]
    simp only [Moment.ofLines, hscript ha, hscript', lineMoments_other (hnone ha),
      lineMoments_other (hnone hb), lineMoments_other hbang, Script.run, Edit.apply,
      Outcome.andThen, Outcome.idle, ite_self, if_true]
    rfl
  obtain ⟨first, m, next, hcourse, hm, hnext⟩ := hcourse
  have hclears : Clears m.line := hm ▸ .inl rfl
  refine ⟨⟨m, by simp [hcourse], hclears⟩, ?_⟩
  refine (hcleared first m [] [next] hcourse hclears (by simp)).2 next [] _ _ rfl ?_
  rw [hnext, ← readLine_trim_iff]
  exact hb

end Chain

end PathFilter
