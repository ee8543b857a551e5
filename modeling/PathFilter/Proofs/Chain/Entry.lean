import PathFilter.Proofs.Chain.Clearing
import PathFilter.Proofs.Chain.InPlace
import PathFilter.Proofs.Directive.Signs

/-!
# Ways into a chain

A rule comes into a chain as a rule or on a line, and a rule file is merged by its name or on a
line. It makes no difference which. A line is cut into its fields whether it was trimmed before or
not, no line that can be read is one that clears the rules, and the line of a merge directive is
read as the options and the name that it was made from.

## Main definitions

* `AsksForFile`: a line asks for a rule file
* `MergeOptions.field`, `MergeOptions.line`: the field of some options, and the line of a directive

## Main results

* `readLine_trim_iff`: blank space around a line is nothing to what is read
* `Chain.read_of_parse`, `Chain.read_of_parse_error`: a line of a rule adds it, and a line that is
  none of a rule does nothing
* `MergeOptions.readLine_line`: the line of a merge directive is read as what it was made from
* `Chain.read_eq_entry`: what comes into a chain comes to the same on every way
-/

namespace PathFilter

/-! ## Lines that can be read -/

/-- **Blank space around a line** is nothing to what is read. -/
theorem readLine_trim_iff {line expression : Text} {d : Directive} :
    readLine line.trim = .ok (d, expression) ↔ readLine line = .ok (d, expression) := by
  rw [readLine_eq_ok_iff, readLine_eq_ok_iff, Text.fields_trim]

/-- No mark begins with the first letter of `clear`. -/
theorem parse_of_clear (rest : Text) : Marks.parse ('c' :: rest) = .error (.unknown 'c') := by
  have hscan : Marks.scan .none ('c' :: rest) = .error (.unknown 'c') := by
    rw [Marks.scan_cons (.inl rfl)]
    rfl
  rw [Marks.parse, hscan]
  rfl

/-- **No line that can be read clears the rules.** -/
theorem isClearing_of_readLine {line expression : Text} {d : Directive}
    (h : readLine line = .ok (d, expression)) : isClearing line = false := by
  obtain ⟨field, m, hfields, hm, -⟩ := readLine_eq_ok_iff.mp h
  rw [isClearing, Bool.or_eq_false_iff]
  constructor
  · rw [beq_eq_false_iff_ne]
    rintro rfl
    have hone : Text.fields ['!'] = [['!']] := by decide
    rw [hone] at hfields
    cases hfields
  · rw [← Bool.not_eq_true, List.isPrefixOf_iff_prefix]
    rintro ⟨rest, rfl⟩
    obtain ⟨f, fs, hfirst⟩ := Text.exists_fields_cons (c := 'c') (by decide) ("lear".toList ++ rest)
    rw [show "clear".toList ++ rest = 'c' :: ("lear".toList ++ rest) from rfl, hfirst] at hfields
    cases hfields
    rw [parse_of_clear] at hm
    cases hm

/-- Whether a line asks for a rule file, to be read now or in the directories below. -/
def AsksForFile (line : Text) : Prop :=
  ∃ options file, readLine line = .ok (.merge options, file) ∨
    readLine line = .ok (.dirMerge options, file)

namespace Rule

/-- Whether a rule can be built does not depend on the line that an error would quote. -/
theorem build_eq_ok_congr {p : Polarity} {k : RuleClass} {text : Text} {r : Rule}
    (line line' : Text) : build p k text line = .ok r ↔ build p k text line' = .ok r := by
  rw [build, build, ofExpression_eq_ok_iff, ofExpression_eq_ok_iff]

/-- Blank space around a line is nothing to the rule of it. -/
theorem parse_trim_iff {line : Text} {r : Rule} : parse line.trim = .ok r ↔ parse line = .ok r := by
  simp only [parse_eq_ok_iff, readLine_trim_iff, build_eq_ok_congr line.trim line]

end Rule

/-! ## The line of a merge directive -/

namespace MergeOptions

/-- **The field that asks for a rule file under some options**: the sign of a merge directive, that
of the polarity, and the letters. -/
def field (o : MergeOptions) : Text :=
  '.' :: (o.enforced.map Polarity.sign).toList ++ (if o.excludeSelf then ['e'] else []) ++
    (if o.noInherit then ['n'] else [])

/-- **The line that asks for a rule file.** -/
def line (o : MergeOptions) (file : Text) : Text := o.field ++ ' ' :: file

theorem field_ne_nil (o : MergeOptions) : o.field ≠ [] := List.cons_ne_nil _ _

theorem field_subset (o : MergeOptions) : o.field ⊆ Marks.alphabet := by
  obtain ⟨_ | _ | _, _ | _, _ | _⟩ := o <;> decide

theorem not_blank_field (o : MergeOptions) : ∀ c ∈ o.field, isBlank c = false := by
  have hsigns : Marks.alphabet.all (fun c => !isBlank c) = true := by decide
  exact fun c hc => by simpa using List.all_eq_true.mp hsigns c (o.field_subset hc)

/-- The field of some options is read as the marks that ask for a rule file under them. -/
theorem exists_parse_field (o : MergeOptions) :
    ∃ m, Marks.parse o.field = .ok m ∧ m.directive = .merge o := by
  simp only [Marks.parse, Marks.scan_signs o.field_subset]
  obtain ⟨_ | _ | _, _ | _, _ | _⟩ := o
  all_goals exact ⟨_, rfl, rfl⟩

theorem readLine_line (o : MergeOptions) {file : Text} (hne : file ≠ [])
    (hfile : ∀ c ∈ file, isBlank c = false) : readLine (o.line file) = .ok (.merge o, file) := by
  obtain ⟨m, hm, hdirective⟩ := o.exists_parse_field
  refine readLine_eq_ok_iff.mpr ⟨o.field, m, ?_, hm, hdirective⟩
  rw [line, Text.fields_append_cons (by decide), Text.fields_of_not_blank hne hfile,
    Text.fields_of_not_blank o.field_ne_nil o.not_blank_field]
  rfl

end MergeOptions

namespace Chain

variable {files : FileTree} {c : Chain} {line : Text} {r : Rule}

/-- **A line of a rule adds the rule.** -/
theorem read_of_parse (h : Rule.parse line = .ok r) : c.read files line = c.addTraced r := by
  obtain ⟨p, k, expression, hline, hbuild⟩ := Rule.parse_eq_ok_iff.mp (Rule.parse_trim_iff.mpr h)
  rw [read, lineScript_rule files c.directory [] (isClearing_of_readLine hline) hline, hbuild]
  rfl

/-- A line that is none of a rule does nothing. -/
theorem read_of_parse_error {e : FilterError} (h : Rule.parse line.trim = .error e)
    (hclear : ¬ Clears line) (hfile : ¬ AsksForFile line) :
    c.read files line = .fail c (e.inDirectory c.directory) := by
  have hc : isClearing line.trim = false := by
    rw [← Bool.not_eq_true, isClearing_trim_iff]
    exact hclear
  rw [read]
  unfold Rule.parse at h
  -- a line is none of a rule if it cannot be read, if it makes no rule, or if it asks for a file
  rcases hline : readLine line.trim with e' | ⟨p | options | options, expression⟩ <;>
    simp only [hline] at h
  · cases h
    rw [lineScript_error files c.directory [] hc hline]
    rfl
  · rw [lineScript_rule files c.directory [] hc hline, h]
    rfl
  · exact absurd ⟨_, _, .inl (readLine_trim_iff.mp hline)⟩ hfile
  · exact absurd ⟨_, _, .inr (readLine_trim_iff.mp hline)⟩ hfile

/-- A line that asks for a rule file to be read now does what merging the file does. -/
theorem read_of_readLine_merge {options : MergeOptions} {file : Text}
    (h : readLine line = .ok (.merge options, file)) :
    c.read files line = c.merge files file options :=
  have hline := readLine_trim_iff.mpr h
  read_eq_merge (isClearing_of_readLine hline) hline

/-- **What comes into a chain comes to the same on every way.** The line of a rule adds the rule. A
line that is neither one of a rule, nor clears the rules or asks for a rule file, fails and does
nothing. The line of a merge directive merges its file. -/
theorem read_eq_entry (files : FileTree) (c : Chain) :
    (∀ line r, Rule.parse line = .ok r →
      c.read files line = c.addTraced r ∧ (c.read files line).failure = none) ∧
      (∀ line e, Rule.parse line = .error e → ¬ Clears line → ¬ AsksForFile line →
        ∃ e', Rule.parse line.trim = .error e' ∧
          c.read files line = .fail c (e'.inDirectory c.directory)) ∧
      ∀ (options : MergeOptions) file, file ≠ [] → (∀ d ∈ file, isBlank d = false) →
        c.read files (options.line file) = c.merge files file options := by
  refine ⟨fun line r h => ?_, fun line e h hclear hfile => ?_, fun options file hne hfile => ?_⟩
  · rw [read_of_parse h]
    exact ⟨rfl, rfl⟩
  · rcases h' : Rule.parse line.trim with e' | r
    · exact ⟨e', rfl, read_of_parse_error h' hclear hfile⟩
    · rw [Rule.parse_trim_iff.mp h'] at h
      cases h
  · exact read_of_readLine_merge (options.readLine_line hne hfile)

/-- A line of a rule with blank space around it, one with an expression that is nothing but a
marker, and the line of a merge directive with all options, which excludes its file last. -/
theorem read_eq_entry_lines :
    let files : FileTree := ⟨.directory [("rules".toList, .file (Text.utf8 "!\n*.o\n".toList))], []⟩
    let c : Chain := (root "/".toList).enter "/".toList
    let kept : Rule := ⟨.exclude, .protect, .ofText "/kept".toList, by decide, by decide +kernel⟩
    let options : MergeOptions := ⟨some .include, true, true⟩
    options.line "rules".toList = ".+en rules".toList ∧
      c.read files "\thide /kept ".toList = c.addTraced kept ∧
      c.read files "- / ".toList =
        .fail c (.malformed "- /".toList (some "/".toList) .noExpression) ∧
      c.read files ".+en rules".toList = c.merge files "rules".toList options := by
  intro files c kept options
  obtain ⟨hrule, hnone, hmerge⟩ := read_eq_entry files c
  have hkept : Rule.parse "\thide /kept ".toList = .ok kept := by decide +kernel
  have hempty : Rule.parse "- / ".toList =
      .error (.malformed "- / ".toList none .noExpression) := by
    decide +kernel
  have htrimmed : Rule.parse (Text.trim "- / ".toList) =
      .error (.malformed "- /".toList none .noExpression) := by decide +kernel
  have hclear : ¬ Clears "- / ".toList := by
    rw [← isClearing_trim_iff]
    decide
  have hline : readLine "- / ".toList = .ok (.rule .exclude .ordinary, "/".toList) := by
    decide +kernel
  have hfile : ¬ AsksForFile "- / ".toList := by
    rintro ⟨_, _, h | h⟩ <;> rw [hline] at h <;> cases h
  obtain ⟨e, he, hread⟩ := hnone _ _ hempty hclear hfile
  rw [htrimmed] at he
  cases he
  have hname : ∀ d ∈ "rules".toList, isBlank d = false := by simp [isBlank]
  exact ⟨rfl, (hrule _ _ hkept).1, hread, hmerge options "rules".toList (by decide) hname⟩

end Chain

end PathFilter
