import PathFilter.Proofs.Chain.Outcome
import PathFilter.Proofs.FileTree.PlainPath
import PathFilter.Proofs.Text.Decoding
import Mathlib.Order.Nat

/-!
# A rule file read in place

Merging a rule file comes to the same as reading its lines one after another. The two differ in
what they know to be on the way: a line of the file is refused to read that file again, and a line
read on its own is not. So the scripts of the two differ only in the rule files they refuse, and
where none is refused they leave the same chain and the same failure.

## Main definitions

* `Outcome.result`: an outcome without the events on the way
* `Script.Refuses`: one script is another one, some of whose rule files are refused
* `Chain.readInPlace`: the lines of a rule file read one after another

## Main results

* `Script.Refuses.run`: a script that refuses nothing on its way does what the other one does
* `lineScript_refuses`: the more files are being read, the more a line refuses
* `Chain.readAll_eq_run`: lines read one after another are one script
* `Chain.merge_eq_readInPlace`: a rule file merged is its lines read in place
-/

namespace PathFilter

namespace Outcome

/-- An outcome without the events on the way. -/
def result (o : Outcome) : Chain × Option FilterError := (o.chain, o.failure)

/-- Whether a rule file that is being read already has ended a change. -/
def IsRefused (o : Outcome) : Prop := ∃ path, o.failure = some (.recursive path)

theorem isRefused_within {directory : Text} {o : Outcome} (h : o.IsRefused) :
    (o.within directory).IsRefused := by
  obtain ⟨path, hpath⟩ := h
  exact ⟨path, by simp [within, hpath, FilterError.inDirectory]⟩

theorem IsRefused.andThen {o : Outcome} (h : o.IsRefused) (f : Chain → Outcome) :
    (o.andThen f).IsRefused := by
  obtain ⟨path, hpath⟩ := h
  exact ⟨path, by simp [Outcome.andThen, hpath]⟩

/-- Changes that are refused or the same stay so in a row. -/
theorem refused_or_eq_andThen {o o' : Outcome} {f f' : Chain → Outcome}
    (ho : o.IsRefused ∨ o = o') (hf : ∀ c, (f c).IsRefused ∨ f c = f' c) :
    (o.andThen f).IsRefused ∨ o.andThen f = o'.andThen f' := by
  rcases ho with ho | rfl
  · exact .inl (ho.andThen f)
  · obtain ⟨c, es, _ | e⟩ := o
    · rcases hf c with ⟨path, hpath⟩ | heq
      · exact .inl ⟨path, hpath⟩
      · exact .inr (by simp [andThen, heq])
    · exact .inr rfl

/-- The result of two changes in a row, of which the second may say more on its way. -/
theorem result_andThen_congr (o : Outcome) {f f' : Chain → Outcome}
    (h : (f o.chain).result = (f' o.chain).result) :
    (o.andThen f).result = (o.andThen f').result := by
  obtain ⟨c, es, _ | e⟩ := o
  · exact h
  · rfl

end Outcome

namespace Script

/-- **One script is another one, some of whose rule files are refused.** -/
inductive Refuses : Script → Script → Prop where
  /-- A rule file is refused, and the script ends. -/
  | refused (path : Text) (t : Script) : Refuses (fail (.recursive path)) t
  /-- Both end. -/
  | done : Refuses done done
  /-- Both fail. -/
  | fail (e : FilterError) : Refuses (fail e) (fail e)
  /-- Both carry out an edit. -/
  | edit (e : Edit) {s t : Script} (h : Refuses s t) : Refuses (edit e s) (edit e t)
  /-- Both read a rule file, in which more may be refused. -/
  | merge (file : Text) {b b' s t : Script} (hb : Refuses b b') (h : Refuses s t) :
    Refuses (merge file b s) (merge file b' t)

namespace Refuses

theorem refl (s : Script) : Refuses s s := by
  induction s with
  | done => exact .done
  | fail e => exact .fail e
  | edit e rest ih => exact .edit e ih
  | merge file body rest ihb ih => exact .merge file ihb ih

/-- **A script that refuses nothing on its way does what the other one does.** -/
theorem run {s t : Script} (h : Refuses s t) (c : Chain) :
    (s.run c).IsRefused ∨ s.run c = t.run c := by
  induction h generalizing c with
  | refused path t => exact .inl ⟨path, rfl⟩
  | done => exact .inr (rfl)
  | fail e => exact .inr (rfl)
  | edit e _ ih => exact Outcome.refused_or_eq_andThen (.inr (rfl)) ih
  | merge file _ _ ihb ih =>
    refine Outcome.refused_or_eq_andThen (ihb c) fun c' => ?_
    exact Outcome.refused_or_eq_andThen (.inr (rfl)) ih

theorem append {s t s' t' : Script} (h : Refuses s t) (h' : Refuses s' t') :
    Refuses (s.append s') (t.append t') := by
  induction h with
  | refused path t => exact .refused path _
  | done => exact h'
  | fail e => exact .fail e
  | edit e _ ih => exact .edit e ih
  | merge file hb _ _ ih => exact .merge file hb ih

theorem concat_map {f g : Text → Script} (h : ∀ l, Refuses (f l) (g l)) (ls : List Text) :
    Refuses (concat (ls.map f)) (concat (ls.map g)) := by
  induction ls with
  | nil => exact .done
  | cons l ls ih => exact (h l).append ih

theorem isolating {s t : Script} (h : Refuses s t) (first : Bool) :
    Refuses (Script.isolating first s) (Script.isolating first t) := by
  cases first with
  | true => exact .edit .isolate h
  | false => exact h

end Refuses

end Script

/-! ## The more files are being read, the more is refused -/

section Reading

variable {files : FileTree} {directory : Text}

theorem contentScript_refuses {path : Text} {bytes : List UInt8} {enforced : Option Polarity}
    {f g : Text → Script} (h : ∀ l, (f l).Refuses (g l)) :
    (contentScript directory path bytes enforced f).Refuses
      (contentScript directory path bytes enforced g) := by
  refine Script.Refuses.append ?_ (.refl _)
  cases enforced with
  | some p => exact .refl _
  | none => exact .concat_map h _

section Step

variable {reading reading' : List Text}

/-- If the lines of a rule file refuse more while it is being read, so does the file. -/
theorem ownScript_refuses (hsub : reading' ⊆ reading)
    (h : ∀ file ∈ files.unread reading, ∀ l,
      (lineScript files directory (file :: reading) l).Refuses
        (lineScript files directory (file :: reading') l))
    (path : Text) (enforced : Option Polarity) :
    (ownScript files directory reading path enforced).Refuses
      (ownScript files directory reading' path enforced) := by
  rcases hread : files.read path with failure | ⟨canonical, bytes⟩
  · rw [ownScript_of_error hread, ownScript_of_error hread]
    exact .fail _
  · by_cases hr : canonical ∈ reading
    · rw [ownScript_of_mem hread hr]
      exact .refused path _
    · have hr' : canonical ∉ reading' := fun hmem => hr (hsub hmem)
      rw [ownScript_of_not_mem hread hr, ownScript_of_not_mem hread hr']
      exact contentScript_refuses (h canonical (FileTree.mem_unread_of_read hread hr))

/-- If the rule files that a line may ask for refuse more, so does the line. -/
theorem lineScript_refuses_of_ownScript
    (h : ∀ path enforced, (ownScript files directory reading path enforced).Refuses
      (ownScript files directory reading' path enforced)) (line : Text) :
    (lineScript files directory reading line).Refuses
      (lineScript files directory reading' line) := by
  cases hc : isClearing line.trim with
  | true =>
    rw [lineScript_clear _ _ _ hc, lineScript_clear _ _ _ hc]
    exact .refl _
  | false =>
    -- of the other lines only a merge line depends on the files that are being read
    rcases hd : readLine line.trim with e | ⟨directive, file⟩
    · rw [lineScript_error _ _ _ hc hd, lineScript_error _ _ _ hc hd]
      exact .fail e
    · cases directive with
      | rule p k =>
        rw [lineScript_rule _ _ _ hc hd, lineScript_rule _ _ _ hc hd]
        exact .refl _
      | dirMerge options =>
        rw [lineScript_dirMerge _ _ _ hc hd, lineScript_dirMerge _ _ _ hc hd]
        exact .refl _
      | merge options =>
        rw [lineScript_merge _ _ _ hc hd, lineScript_merge _ _ _ hc hd]
        exact .isolating (.merge _ (h _ _) (.refl _)) _

end Step

/-- **The more files are being read, the more a line refuses.** -/
theorem lineScript_refuses {reading reading' : List Text} (hsub : reading' ⊆ reading)
    (line : Text) :
    (lineScript files directory reading line).Refuses
      (lineScript files directory reading' line) := by
  -- by induction on the number of files that are free to be read
  induction hn : (files.unread reading).length using Nat.strong_induction_on
    generalizing reading reading' line with
  | _ n ih =>
    subst hn
    refine lineScript_refuses_of_ownScript (ownScript_refuses hsub ?_) line
    intro file hfile l
    exact ih _ (FileTree.length_unread_lt hfile) (List.cons_subset_cons file hsub) l rfl

end Reading

/-! ## Lines read one after another -/

namespace Chain

/-- **Lines read one after another are one script.** -/
theorem readAll_eq_run (files : FileTree) (c : Chain) (lines : List Text) :
    c.readAll files lines =
      ((Script.concat (lines.map (lineScript files c.directory []))).run c).within
        c.directory := by
  induction lines generalizing c with
  | nil => rfl
  | cons line lines ih =>
    rw [readAll, List.map_cons, Script.concat_cons, Script.run_append, Outcome.within_andThen, read]
    have hdir := Script.directory_run (lineScript files c.directory [] line) c
    rcases ho : (lineScript files c.directory [] line).run c with ⟨c', es, _ | e⟩
    · rw [ho] at hdir
      have hrest := ih c'
      rw [show c'.directory = c.directory from hdir] at hrest
      simp [Outcome.within, Outcome.andThen, hrest]
    · rfl

/-- **The lines of a rule file read one after another**, as the options of the file ask: on a chain
that is isolated first, and with the file excluded last. -/
def readInPlace (files : FileTree) (c : Chain) (lines : List Text) (file : Text)
    (options : MergeOptions) : Outcome :=
  ((c.isolateIf options.noInherit).readAll files lines).andThen fun c' =>
    if options.excludeSelf then c'.excludeFile file else .idle c'

/-- A rule file that is a text and free to be read does what its lines do while it is being read. -/
theorem ownScript_of_text {files : FileTree} {directory : Text} {reading : List Text}
    {path canonical text : Text} (h : files.read path = .ok (canonical, text.utf8))
    (hr : canonical ∉ reading) :
    ownScript files directory reading path none =
      Script.concat (text.ruleLines.map (lineScript files directory (canonical :: reading))) := by
  rw [ownScript_of_not_mem h hr, contentScript, FileLines.rules_ofBytes_utf8,
    FileLines.intact_ofBytes_utf8, if_pos rfl, Script.append_done]

variable {files : FileTree} {c : Chain} {file canonical text : Text} {options : MergeOptions}

/-- What merging a rule file does: its lines, read while the file is being read, the event of the
file, and excluding it. -/
theorem merge_eq_run (henforced : options.enforced = none)
    (hfile : files.read (Path.join c.directory file) = .ok (canonical, text.utf8)) :
    c.merge files file options =
      (((Script.concat (text.ruleLines.map (lineScript files c.directory [canonical]))).run
        (c.isolateIf options.noInherit)).within c.directory).andThen fun c' =>
          Outcome.andThen ⟨c', [.fileMerged c'.directory (Path.join c.directory file)
              (c'.ruleCount - (c.isolateIf options.noInherit).ruleCount)], none⟩
            fun c'' => ((Script.hiding options.excludeSelf file).run c'').within c.directory := by
  rw [merge, mergeScript, run_isolating, Script.run, Outcome.within_andThen, henforced,
    ownScript_of_text hfile List.not_mem_nil]
  rfl

/-- A merge line does what merging its file does. -/
theorem read_eq_merge {line : Text} (hc : isClearing line.trim = false)
    (hd : readLine line.trim = .ok (.merge options, file)) :
    c.read files line = c.merge files file options := by
  rw [read, lineScript_merge files c.directory [] hc hd, merge]

theorem result_merge (henforced : options.enforced = none)
    (hfile : files.read (Path.join c.directory file) = .ok (canonical, text.utf8))
    (hrefused : ¬ (c.merge files file options).IsRefused) :
    (c.merge files file options).result =
      (c.readInPlace files text.ruleLines file options).result := by
  rw [merge_eq_run henforced hfile] at hrefused ⊢
  rw [readInPlace, readAll_eq_run, directory_isolateIf]
  -- the lines refuse no more on their own than they do while the file is being read
  have hlines : (Script.concat
      (text.ruleLines.map (lineScript files c.directory [canonical]))).Refuses
        (Script.concat (text.ruleLines.map (lineScript files c.directory []))) :=
    .concat_map (lineScript_refuses (List.nil_subset _)) _
  rcases hlines.run (c.isolateIf options.noInherit) with h | h
  · -- a line refused while the file is being read would have ended the merge
    exact absurd ((Outcome.isRefused_within h).andThen _) hrefused
  · rw [h]
    refine Outcome.result_andThen_congr _ ?_
    have hdir := Script.directory_run
      (Script.concat (text.ruleLines.map (lineScript files c.directory [])))
      (c.isolateIf options.noInherit)
    rw [directory_isolateIf] at hdir
    rw [Outcome.chain_within, ← run_hiding_within, hdir]
    rfl

/-- **A rule file merged is its lines read in place**, unless a file that is being read is to be
read again. The chain that is left is the same, and so is the failure if there is one. -/
theorem merge_eq_readInPlace (henforced : options.enforced = none)
    (hfile : files.read (Path.join c.directory file) = .ok (canonical, text.utf8)) :
    (¬ (c.merge files file options).IsRefused →
        (c.merge files file options).result =
          (c.readInPlace files text.ruleLines file options).result) ∧
      ∀ line : Text, isClearing line.trim = false →
        readLine line.trim = .ok (.merge options, file) →
        ¬ (c.read files line).IsRefused →
          (c.read files line).result =
            (c.readInPlace files text.ruleLines file options).result := by
  refine ⟨result_merge henforced hfile, fun line hc hd hrefused => ?_⟩
  rw [read_eq_merge hc hd] at hrefused ⊢
  exact result_merge henforced hfile hrefused

/-- A rule file that asks for another one, which clears the rules. The first file is excluded
last. -/
theorem merge_eq_readInPlace_nested :
    let text : Text := "- *.tmp\n  # more rules \n. more\n".toList
    let more : Text := "clear\nP kept".toList
    let files : FileTree := ⟨.directory [("rules".toList, .file text.utf8),
      ("more".toList, .file more.utf8)], []⟩
    let options : MergeOptions := ⟨none, true, true⟩
    let c : Chain := (root "/".toList).enter "/".toList
    files.read (Path.join c.directory "rules".toList) = .ok ("/rules".toList, text.utf8) ∧
      readLine ".en rules".toList = .ok (.merge options, "rules".toList) ∧
      ¬ (c.read files ".en rules".toList).IsRefused ∧
      (c.read files ".en rules".toList).result =
        (c.readInPlace files text.ruleLines "rules".toList options).result := by
  intro text more files options c
  have hfile : files.read (Path.join c.directory "rules".toList) =
      .ok ("/rules".toList, text.utf8) :=
    FileTree.read_pathOf ["rules".toList] (by decide) (by decide) (by decide) rfl
  have hmore : files.read "/more".toList = .ok ("/more".toList, more.utf8) :=
    FileTree.read_pathOf ["more".toList] (by decide) (by decide) (by decide) rfl
  have hclear : isClearing (Text.trim ".en rules".toList) = false := by decide
  have hline : readLine (Text.trim ".en rules".toList) = .ok (.merge options, "rules".toList) := by
    decide +kernel
  have hasked : readLine (Text.trim ". more".toList) = .ok (.merge .plain, "more".toList) := by
    decide +kernel
  have hlines : text.ruleLines = ["- *.tmp".toList, ". more".toList] := by decide +kernel
  have hmorelines : more.ruleLines = ["clear".toList, "P kept".toList] := by decide +kernel
  have hnone : (c.read files ".en rules".toList).failure = none := by
    rw [read, lineScript_merge _ _ _ hclear hline, mergeScript,
      ownScript_of_text hfile List.not_mem_nil, hlines, List.map_cons, List.map_cons, List.map_nil,
      lineScript_merge _ _ _ (by decide) hasked, mergeScript,
      MergeOptions.plain, show Path.join c.directory "more".toList = "/more".toList from rfl,
      ownScript_of_text hmore (by decide), hmorelines]
    decide +kernel
  have hrefused : ¬ (c.read files ".en rules".toList).IsRefused := by
    rintro ⟨path, hpath⟩
    rw [hnone] at hpath
    cases hpath
  exact ⟨hfile, hline, hrefused, (merge_eq_readInPlace rfl hfile).2 _ hclear hline hrefused⟩

end Chain

end PathFilter
