import PathFilter.Proofs.Chain.Climb
import PathFilter.Proofs.Chain.Declaration
import PathFilter.Proofs.Chain.Opened
import PathFilter.Proofs.Chain.Printed
import PathFilter.Proofs.Rule.Grammar
import PathFilter.Proofs.Rule.Precedence
import PathFilter.Proofs.Rule.WholeNames

/-!
# A rule file that is to hide itself

With the modifier `e` a directory is given one more rule behind those of its rule file, which
excludes this file. The name of the file is read twice: as a path below the directory, where a slash
in front makes no difference, and as a path expression, which a slash in front ties to the root of
the walk. Without the slash the two mean the same file in every directory. With it the rule excludes
the file at the root of the walk, and every other directory shows its own.

## Main definitions

* `Path.IsLiteral`: a name that a rule takes literally
* `Path.spelled`: such a name, with or without a slash in front
* `Chain.ownRead`: the chain of a directory after the lines of its rule file

## Main results

* `Rule.hits_spelled_iff`: in which directories the rule of a name matches the file of that name
* `Chain.descend_excludeSelf`: what a directory has that has read a rule file that is to hide itself
* `Chain.check_below_spelled`: which directories hide their rule file
* `Chain.check_below_rooted`: one that does not
-/

namespace PathFilter

/-! ## Literal names -/

namespace Path

/-- **Whether a rule takes a name literally**: it is one name, has no wildcards, and does not begin
with the mark that turns a match round. -/
structure IsLiteral (name : Text) : Prop where
  ne_nil : name ≠ []
  slash_not_mem : '/' ∉ name
  unmarked : name.head? ≠ some '!'
  not_glob : Glob.isGlob name = false

/-- The name with a slash in front, if it is to be `rooted`. -/
def spelled (rooted : Bool) (name : Text) : Text := if rooted then '/' :: name else name

theorem IsLiteral.names_eq {name : Text} (h : IsLiteral name) : names name = [name] :=
  pieces_of_unmarked fun c hc => by
    rw [beq_eq_false_iff_ne]
    rintro rfl
    exact h.slash_not_mem hc

theorem IsLiteral.endsWith_append {name : Text} (h : IsLiteral name) (s : Text) :
    (s ++ name).endsWith '/' = false := by
  rw [Text.endsWith, List.getLast?_append_of_ne_nil _ h.ne_nil, beq_eq_false_iff_ne]
  exact fun hlast => h.slash_not_mem (List.mem_of_getLast? hlast)

/-- Two names come first in front of the second one if this is the name behind the first, or if they
come first without it. -/
theorem pair_isPrefix_concat_iff {a b : Text} {ns : List Text} (hns : ns ≠ []) :
    [a, b] <+: ns ++ [b] ↔ ns = [a] ∨ [a, b] <+: ns := by
  obtain ⟨n, ns, rfl⟩ := List.exists_cons_of_ne_nil hns
  cases ns with
  | nil => simp [eq_comm]
  | cons m ns => simp

end Path

namespace PathExpression

open PathFilter.Path (IsLiteral spelled names)

section Literal

variable {name : Text} (h : IsLiteral name) (rooted : Bool)

include h

/-- The expression of a literal name has no other marker than the slash in front. -/
theorem ofText_spelled : ofText (spelled rooted name) = ⟨false, rooted, false, name⟩ := by
  cases rooted with
  | true =>
    have hends : Text.endsWith ('/' :: name) '/' = false := h.endsWith_append ['/']
    simp [ofText, spelled, hends]
  | false =>
    have hends : Text.endsWith name '/' = false := h.endsWith_append []
    have hslash : name.head? ≠ some '/' := fun hc => h.slash_not_mem (List.mem_of_head? hc)
    simp [ofText, spelled, hends, hslash, h.unmarked]

theorem isGlob_spelled : isGlob ⟨false, rooted, false, name⟩ = false := by
  rw [isGlob, path, Glob.isGlob]
  cases rooted <;> simpa [Glob.isGlob] using h.not_glob

end Literal

/-- **Whether the expression of a name means the file of that name in a directory**: without a slash
in front everywhere, and with one at the root of the walk or where the name leads down from it. -/
def Reaches (rooted : Bool) (name directory : Text) : Prop :=
  rooted = false ∨ directory = ['.'] ∨ leads (Path.below ['.'] name) directory = true

instance (rooted : Bool) (name directory : Text) : Decidable (Reaches rooted name directory) :=
  inferInstanceAs (Decidable (_ ∨ _ ∨ _))

end PathExpression

namespace Rule

open PathFilter.Path (IsLiteral spelled names)

/-- A literal name makes a rule. -/
theorem exists_excluding_spelled {name : Text} (h : IsLiteral name) (rooted : Bool) :
    ∃ r : Rule, excluding (spelled rooted name) = .ok r ∧ r.polarity = .exclude ∧
      r.purpose = .transfer ∧ r.expression = ⟨false, rooted, false, name⟩ := by
  have hfault : PathExpression.fault? ⟨false, rooted, false, name⟩ = none := by
    rw [PathExpression.fault?, PathExpression.isGlob_spelled h]
    rfl
  refine ⟨⟨.exclude, .ordinary, ⟨false, rooted, false, name⟩, h.ne_nil, hfault⟩, ?_, rfl, rfl, rfl⟩
  rw [excluding, make, build, PathExpression.ofText_spelled h]
  exact ofExpression_eq_ok_iff.mpr ⟨rfl, rfl, rfl⟩

/-- **In which directories the rule of a literal name matches the file of that name.** -/
theorem hits_spelled_iff {name : Text} (h : IsLiteral name) {r : Rule} {rooted : Bool}
    (hr : r.expression = ⟨false, rooted, false, name⟩) (directory : Text) :
    r.hits (Path.below directory name) false = true ↔
      PathExpression.Reaches rooted name directory := by
  have hends : Text.endsWith (Path.below directory name) '/' = false := by
    simpa [Path.below] using h.endsWith_append (directory ++ ['/'])
  have hnames : ∀ s, names (Path.below s name) = names s ++ [name] := fun s => by
    rw [Path.below, Path.names_append_slash, h.names_eq]
  have hcovers := PathExpression.covers_iff_names (PathExpression.isGlob_spelled h rooted)
    (Path.below directory name)
  have hhits : r.hits (Path.below directory name) false = true ↔
      PathExpression.covers ⟨false, rooted, false, name⟩ (Path.below directory name) = true := by
    rw [hits_eq_true_iff, matches?, hr]
    simp [PathExpression.matches?, PathExpression.appliesTo, PathExpression.subject, hends]
  rw [hhits, hcovers, hnames, PathExpression.Reaches]
  cases rooted with
  | true =>
    have hdot : names (Path.below ['.'] name) = [['.'], name] := hnames ['.']
    have hpath : PathExpression.path ⟨false, true, false, name⟩ = Path.below ['.'] name := by
      simp [PathExpression.path, Path.below]
    have hself : names directory = [['.']] ↔ directory = ['.'] := Path.names_injective.eq_iff' rfl
    rw [if_pos rfl, hpath, PathExpression.leads_iff, hdot,
      Path.pair_isPrefix_concat_iff (Path.names_ne_nil directory), hself]
    simp
  | false =>
    have hpath : PathExpression.path ⟨false, false, false, name⟩ = name := by
      simp [PathExpression.path]
    simp [hpath, h.names_eq]

end Rule

/-! ## Directories with a rule file -/

namespace Chain

/-- **The chain of a directory after the lines of its rule file.** -/
def ownRead (files : FileTree) (outer : Chain) (d : DirMerge) (directory : Text) : Chain :=
  ((ownScript files directory [] (Path.within directory d.file) d.options.enforced).run
    ((outer.enter directory).isolateIf d.options.noInherit)).chain

section Entering

variable {files : FileTree} {c : Chain} {d : DirMerge} {directory : Text} {r : Rule}

/-- **A directory that has read its rule file has the rule that is to hide it**, behind those of the
file. -/
theorem descend_excludeSelf (hd : c.here.dirMerge = some d) (hself : d.options.excludeSelf = true)
    (hr : Rule.excluding d.file = .ok r) (hentered : (c.descend files directory).failure = none)
    (hloaded : (c.descend files directory).chain.here.loaded ≠ none) :
    ∃ n, (c.descend files directory).chain = ((c.ownRead files d directory).add r).setLoaded n := by
  rcases descend_cases hentered with ⟨hchain, -⟩ | ⟨d', hd', -, hread, hchain⟩
  · rw [hchain] at hloaded
    exact absurd rfl hloaded
  · obtain rfl : d = d' := Option.some.inj (hd.symm.trans hd')
    obtain ⟨-, -, hn⟩ := readOwn_cases hread
    rw [hchain, hn, hself]
    simp only [Script.hiding, Script.ofRule, Script.ofExcept, hr, if_true]
    exact ⟨_, rfl⟩

/-- A rule file has been read if none of its lines fails and its name makes a rule. -/
theorem readOwn_of_lines {path : Text} (hr : Rule.excluding d.file = .ok r)
    (hlines : ((ownScript files c.directory [] path d.options.enforced).run
      (c.isolateIf d.options.noInherit)).failure = none) :
    (c.readOwn files d path).failure = none ∧
      (c.readOwn files d path).chain.here.loaded ≠ none := by
  have hhidden : ∀ c', ((Script.hiding d.options.excludeSelf d.file).run c').failure = none := by
    intro c'
    simp only [Script.hiding, Script.ofRule, Script.ofExcept, hr]
    split <;> rfl
  change (Outcome.andThen _ _).failure = none ∧ (Outcome.andThen _ _).chain.here.loaded ≠ none
  rw [isolateIf] at hlines
  generalize Script.run _ _ = o at hlines ⊢
  obtain ⟨c', es, _ | e⟩ := o
  · have hc' := hhidden c'
    simp only [Outcome.andThen]
    generalize (Script.hiding d.options.excludeSelf d.file).run c' = o' at hc' ⊢
    obtain ⟨c'', es', _ | e'⟩ := o'
    · simp [setLoaded, mapHere]
    · cases hc'
  · cases hlines

/-- **A directory whose rule file holds some rules** as they are written can be entered, and has
read them. -/
theorem descend_toText {rules : RuleList} {canonical : Text} (hd : c.here.dirMerge = some d)
    (hr : Rule.excluding d.file = .ok r) (henforced : d.options.enforced = none)
    (hrules : ∀ r ∈ rules, r.IsLegible)
    (hread : files.read (Path.within directory d.file) =
      .ok (canonical, (RuleList.toText rules).utf8)) :
    (c.descend files directory).failure = none ∧
      (c.descend files directory).chain.here.loaded ≠ none ∧
      c.ownRead files d directory =
        ((Script.adding rules).run ((c.enter directory).isolateIf d.options.noInherit)).chain := by
  have hscript : ownScript files directory [] (Path.within directory d.file) d.options.enforced =
      .adding rules := by
    rw [henforced, ownScript_of_text hread List.not_mem_nil, RuleList.ruleLines_toText hrules,
      concat_lineScript_toText hrules]
  have hfile : files.isFile (Path.within directory d.file) = true :=
    FileTree.isFile_eq_true_iff.mpr ⟨_, _, hread⟩
  have hlines : ((ownScript files directory [] (Path.within directory d.file)
      d.options.enforced).run ((c.enter directory).isolateIf d.options.noInherit)).failure =
        none := by
    rw [hscript]
    exact Script.failure_run_adding rules _
  obtain ⟨hfailure, hloaded⟩ := readOwn_of_lines (c := c.enter directory) hr hlines
  rw [descend_of_isFile hd hfile, ownRead, hscript]
  exact ⟨Outcome.failure_within_eq_none_iff.mpr hfailure, hloaded, rfl⟩

end Entering

/-! ## The verdict -/

/-- A chain decides like its own rules, and like the layers that it inherits from if these do not
decide. -/
theorem check_eq_or_inherited (c : Chain) (candidate : Text) (isDirectory : Bool)
    (purpose : Purpose) :
    c.check candidate isDirectory purpose =
      (RuleList.check (c.here.rulesFor purpose) (subjectOf candidate isDirectory) isDirectory).or
        (Layer.checkVisible purpose (subjectOf candidate isDirectory) isDirectory
          (Layer.inherited c.layers)) := by
  rw [check, decisive?_eq_firstMatch?]
  exact Layer.checkVisible_cons _ _

section OwnFile

variable {files : FileTree} {c : Chain} {name directory : Text} {rooted : Bool}
  {options : MergeOptions}

/-- **The verdict of a directory about its rule file**, if this is to hide itself: that of the rules
read from the file, and if they have none, that the file is excluded where its name reaches it. -/
theorem check_below_descend (hname : Path.IsLiteral name)
    (hd : c.here.dirMerge = some ⟨Path.spelled rooted name, options⟩)
    (hself : options.excludeSelf = true) (hentered : (c.descend files directory).failure = none)
    (hloaded : (c.descend files directory).chain.here.loaded ≠ none) (p : Text) :
    let child := (c.descend files directory).chain
    let own := (c.ownRead files ⟨Path.spelled rooted name, options⟩ directory).here.rules
    let path := Path.below p name
    child.check path false .transfer =
      (RuleList.check own path false).or
        (if PathExpression.Reaches rooted name p then .excluded
        else Layer.checkVisible .transfer path false (Layer.inherited child.layers)) := by
  intro child own path
  obtain ⟨r, hr, hpolarity, hpurpose, hexpression⟩ := Rule.exists_excluding_spelled hname rooted
  obtain ⟨n, hchild⟩ := descend_excludeSelf hd hself hr hentered hloaded
  have hrules : child.here.rulesFor .transfer = own ++ [r] := by
    simp only [child, hchild]
    simp [own, add, hpurpose, setLoaded, mapHere, Layer.rulesFor]
  have hverdict : RuleList.check [r] path false =
      if PathExpression.Reaches rooted name p then .excluded else .neutral := by
    rw [RuleList.check_cons, hpolarity]
    simp only [path, Rule.hits_spelled_iff hname hexpression]
    rfl
  rw [check_eq_or_inherited, hrules, RuleList.check_append, Verdict.or_assoc]
  congr 1
  change (RuleList.check [r] path false).or _ = _
  rw [hverdict]
  split <;> rfl

/-- **Which directories hide their rule file.** A chain declares a literal name with the modifier
`e`. Its declaration is still in force when a directory is entered, which has a rule file of this
name to read. If no rule read from the file matches it, the directory excludes the file exactly if
the name means it, as every name without a slash in front does, or if the layers that the directory
inherits from exclude it. -/
theorem check_below_spelled {actions : List Action} (hname : Path.IsLiteral name)
    (hd : c.here.dirMerge = some ⟨Path.spelled rooted name, options⟩)
    (hself : options.excludeSelf = true) (hkept : ∀ m ∈ c.course actions, ¬ Clears m.line)
    (hentered : ((c.after actions).descend files directory).failure = none)
    (hloaded : ((c.after actions).descend files directory).chain.here.loaded ≠ none) {p : Text}
    (hown : ∀ r ∈ ((c.after actions).ownRead files ⟨Path.spelled rooted name, options⟩
      directory).here.rules, r.matches? (Path.below p name) false ≠ some true) :
    let child := ((c.after actions).descend files directory).chain
    let path := Path.below p name
    child.check path false .transfer = .excluded ↔
      PathExpression.Reaches rooted name p ∨
        Layer.checkVisible .transfer path false (Layer.inherited child.layers) = .excluded := by
  intro child path
  have hdeclared : (c.after actions).here.dirMerge = some ⟨Path.spelled rooted name, options⟩ :=
    (c.leads_declaration actions).declaration_of_not_clears hd hkept
  have hcheck : child.check path false .transfer =
      if PathExpression.Reaches rooted name p then .excluded
      else Layer.checkVisible .transfer path false (Layer.inherited child.layers) := by
    refine (check_below_descend hname hdeclared hself hentered hloaded p).trans ?_
    rw [RuleList.check_eq_neutral_iff.mpr hown]
    rfl
  rw [hcheck]
  split
  · next hreach => exact iff_of_true rfl (.inl hreach)
  · next hreach => exact (or_iff_right hreach).symm

/-- A rule file two directories below the one that declares it. -/
theorem check_below_spelled_nested :
    let rule : Rule := ⟨.exclude, .ordinary, .ofText "*.o".toList, by decide,
      PathExpression.fault?_of_not_mem (by decide)⟩
    let files : FileTree := ⟨.directory [("a".toList, .directory [("b".toList, .directory
      [(".rules".toList, .file (RuleList.toText [rule]).utf8)])])], []⟩
    let d : DirMerge := ⟨".rules".toList, ⟨none, true, false⟩⟩
    let c := (root "/".toList).declare d
    let enter : Action := .change files (.directory "/a".toList)
    let child := ((c.after [enter]).descend files "/a/b".toList).chain
    child.here.loaded ≠ none ∧ child.check "./a/b/.rules".toList false .transfer = .excluded := by
  intro rule files d c enter child
  have hname : Path.IsLiteral ".rules".toList := ⟨by decide, by decide, by decide, by decide⟩
  have hspelled : c.here.dirMerge = some ⟨Path.spelled false ".rules".toList, d.options⟩ := rfl
  have hnone : files.isFile "/a/.rules".toList = false := by decide +kernel
  have hafter : c.after [enter] = c.enter "/a".toList := by decide +kernel
  have hcourse : c.course [enter] = [] := by
    have hmoments : enter.moments c = [] := by
      simp only [enter, Action.moments]
      exact if_neg (ne_true_of_eq_false hnone)
    rw [course, hmoments]
    rfl
  have hparse : Rule.parse "- *.o".toList = .ok rule := by decide +kernel
  have hlegible : ∀ r ∈ [rule], r.IsLegible :=
    List.forall_mem_singleton.mpr (Rule.isLegible_of_parse hparse)
  have hread : files.read (Path.within "/a/b".toList d.file) =
      .ok ("/a/b/.rules".toList, (RuleList.toText [rule]).utf8) :=
    FileTree.read_pathOf ["a".toList, "b".toList, ".rules".toList] (by decide) (by decide)
      (by decide) rfl
  have hd : (c.after [enter]).here.dirMerge = some d := by
    rw [hafter]
    rfl
  obtain ⟨r, hr, -⟩ := Rule.exists_excluding_spelled hname false
  obtain ⟨hentered, hloaded, hown⟩ := descend_toText hd hr rfl hlegible hread
  have hmiss : ∀ r ∈ ((c.after [enter]).ownRead files d "/a/b".toList).here.rules,
      r.matches? "./a/b/.rules".toList false ≠ some true := by
    rw [hown, hafter]
    decide +kernel
  refine ⟨hloaded, (check_below_spelled (p := "./a/b".toList) hname hspelled rfl ?_ hentered hloaded
    hmiss).mpr (.inl (.inl rfl))⟩
  simp [hcourse]

/-- A name with a slash in front, and a directory that shows its rule file. -/
theorem check_below_rooted :
    let rule : Rule := ⟨.exclude, .ordinary, .ofText "*.o".toList, by decide,
      PathExpression.fault?_of_not_mem (by decide)⟩
    let files : FileTree := ⟨.directory [("a".toList, .directory
      [(".rules".toList, .file (RuleList.toText [rule]).utf8)])], []⟩
    let d : DirMerge := ⟨"/.rules".toList, ⟨none, true, false⟩⟩
    let c := (ofLines files ".".toList [":e /.rules".toList]).chain
    let child := (c.descend files "./a".toList).chain
    c.here.dirMerge = some d ∧ (c.descend files "./a".toList).failure = none ∧
      child.here.loaded ≠ none ∧
      (∀ r ∈ (c.ownRead files d "./a".toList).here.rules,
        r.matches? "./a/.rules".toList false ≠ some true) ∧
      child.check "./a/.rules".toList false .transfer = .neutral := by
  intro rule files d c child
  let hidden : Rule := ⟨.exclude, .ordinary, .ofText "/.rules".toList, by decide,
    PathExpression.fault?_of_not_mem (by decide)⟩
  have hname : Path.IsLiteral ".rules".toList := ⟨by decide, by decide, by decide, by decide⟩
  have hhidden : Rule.excluding d.file = .ok hidden := by decide +kernel
  have hline : readLine (Text.trim ":e /.rules".toList) = .ok (.dirMerge d.options, d.file) := by
    decide +kernel
  have hc : c = ((root ".".toList).declare d).add hidden := by
    simp only [c, ofLines, readAll, Chain.read,
      lineScript_dirMerge files _ [] (isClearing_of_readLine hline) hline]
    decide +kernel
  have hparse : Rule.parse "- *.o".toList = .ok rule := by decide +kernel
  have hlegible : ∀ r ∈ [rule], r.IsLegible :=
    List.forall_mem_singleton.mpr (Rule.isLegible_of_parse hparse)
  have hread : files.read (Path.within "./a".toList d.file) =
      .ok ("/a/.rules".toList, (RuleList.toText [rule]).utf8) := by decide +kernel
  have hd : c.here.dirMerge = some d := by
    rw [hc]
    rfl
  obtain ⟨hentered, hloaded, hown⟩ := descend_toText hd hhidden rfl hlegible hread
  have hmiss : ∀ r ∈ (c.ownRead files d "./a".toList).here.rules,
      r.matches? "./a/.rules".toList false ≠ some true := by
    rw [hown, hc]
    decide +kernel
  obtain ⟨n, hchild⟩ := descend_excludeSelf hd rfl hhidden hentered hloaded
  have hbelow : Layer.inherited child.layers = [c.here] := by
    simp only [child]
    rw [hchild, hown, hc]
    rfl
  have hspelled : c.here.dirMerge = some ⟨Path.spelled true ".rules".toList, d.options⟩ := hd
  have hcheck : child.check "./a/.rules".toList false .transfer =
      (RuleList.check (c.ownRead files d "./a".toList).here.rules "./a/.rules".toList false).or
        (if PathExpression.Reaches true ".rules".toList "./a".toList then .excluded
        else Layer.checkVisible .transfer "./a/.rules".toList false
          (Layer.inherited child.layers)) :=
    check_below_descend hname hspelled rfl hentered hloaded "./a".toList
  refine ⟨hd, hentered, hloaded, hmiss, ?_⟩
  rw [hcheck, RuleList.check_eq_neutral_iff.mpr hmiss, hbelow, hc]
  decide +kernel

end OwnFile

end Chain

end PathFilter
