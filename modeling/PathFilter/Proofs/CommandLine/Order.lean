import PathFilter.Proofs.CommandLine.Spelling
import Mathlib.Order.Nat

/-!
# The order of the sources

The sources of rules are put in order by a second pass over the arguments, which does not know what
the parser found. It agrees with the parser on what is an option, what is a value and where a
cluster of letters ends, so it tells the kinds of the occurrences in order. As the values of each
kind are kept in order too, every source comes out in its place.

## Main definitions

* `RuleSource.ofOccurrences`: the sources among some occurrences
* `Occurrence.kind?`: the kind of the source that an occurrence gives
* `RuleSource.isCounted`: a source that the greatest count leaves room for

## Main results

* `SourceKind.inArgument_of_argumentSpells`: the kinds of the occurrences in one argument
* `SourceKind.locate_of_spells`: the kinds of the occurrences on a command line
* `RuleSource.interleave_valuesFrom`: values kept by kind are put in order by their kinds
* `RuleSource.collect_eq_ofOccurrences`: the sources of a command line are those of its occurrences
-/

namespace PathFilter

open CommandLine

/-! ## The sources among some occurrences -/

namespace RuleSource

/-- **The sources among some occurrences**, in order, where `earlier` requests for the usual rule
file came before. -/
def ofOccurrences (earlier : Nat) : List Occurrence → List RuleSource
  | [] => []
  | .filter line :: os => .filter line :: ofOccurrences earlier os
  | .include pattern :: os => .include pattern :: ofOccurrences earlier os
  | .exclude pattern :: os => .exclude pattern :: ofOccurrences earlier os
  | .includeFrom file :: os => .includeFrom file :: ofOccurrences earlier os
  | .excludeFrom file :: os => .excludeFrom file :: ofOccurrences earlier os
  | .usualRuleFile :: os => .usualRuleFile earlier :: ofOccurrences (earlier + 1) os
  | _ :: os => ofOccurrences earlier os

/-- Whether the greatest count leaves room for a source. -/
def isCounted : RuleSource → Bool
  | .usualRuleFile earlier => earlier < maxCount
  | _ => true

end RuleSource

/-- The kind of the source that an occurrence gives. -/
def Occurrence.kind? : Occurrence → Option SourceKind
  | .usualRuleFile => some .usualRuleFile
  | o => (RuleSource.ofValue? o).map (·.kind)

/-- The kind of the source that an option with a value gives. -/
def ValueOption.kind? : ValueOption → Option SourceKind
  | .filter => some .filter
  | .include => some .include
  | .exclude => some .exclude
  | .includeFrom => some .includeFrom
  | .excludeFrom => some .excludeFrom
  | _ => none

theorem Occurrence.kind?_usualRuleFile : usualRuleFile.kind? = some .usualRuleFile := rfl

theorem ValueOption.kind?_occurrence (o : ValueOption) (v : Text) :
    (o.occurrence v).kind? = o.kind? := by
  cases o <;> rfl

/-- The kind of the source that an option gives, whether it has a value or not. -/
def CommandLine.Meaning.kind? : Meaning → Option SourceKind
  | .plain o => o.kind?
  | .valued o => o.kind?
  | .stop _ => none

/-- Whether an option has a value. -/
def CommandLine.Meaning.isValued : Meaning → Bool
  | .valued _ => true
  | _ => false

/-- The kinds of some occurrences, and of an option whose value is still to come. -/
def kindsOf (os : List Occurrence) (pending : Option ValueOption) : List SourceKind :=
  os.filterMap Occurrence.kind? ++ (pending.bind ValueOption.kind?).toList

theorem kindsOf_cons (o : Occurrence) (os : List Occurrence) (pending : Option ValueOption) :
    kindsOf (o :: os) pending = o.kind?.toList ++ kindsOf os pending := by
  rcases h : o.kind? with _ | kind <;> simp [kindsOf, h]

/-! ## The second pass -/

namespace SourceKind

section Options

/-- The second pass knows the long options that the parser knows. None has an equals sign in its
name. -/
theorem inLong_of_ofName? {name : Text} {m : Meaning} (h : CommandLine.ofName? name = some m) :
    '=' ∉ name ∧ name ≠ [] ∧ inLong name = (m.kind?.toList, m.isValued) := by
  obtain ⟨⟨n, k⟩, hmem, hk⟩ := List.exists_of_findSome?_eq_some h
  obtain ⟨rfl, rfl⟩ : n.toList = name ∧ k = m := by simpa using hk
  have hall := (show ∀ p ∈ _, '=' ∉ p.1.toList ∧ p.1.toList ≠ [] ∧
    inLong p.1.toList = (p.2.kind?.toList, p.2.isValued) from by decide) (n, k) hmem
  exact hall

theorem eq_of_ofLetter?_plain {c : Char} {o : Occurrence} (h : ofLetter? c = some (.plain o)) :
    c = 'F' ∧ o = .usualRuleFile ∨ c = 'v' ∧ o = .verbose := by
  unfold ofLetter? at h
  split at h <;> simp_all

theorem eq_of_ofLetter?_valued {c : Char} {o : ValueOption} (h : ofLetter? c = some (.valued o)) :
    c = 'f' ∧ o = .filter := by
  unfold ofLetter? at h
  split at h <;> simp_all

/-- A value behind an equals sign is part of the argument. -/
theorem inLong_append {name : Text} (hname : '=' ∉ name) (v : Text) :
    inLong (name ++ '=' :: v) = ((inLong name).1, false) := by
  have hall : ∀ c ∈ name, (c != '=') = true := by
    intro c hc
    rw [bne_iff_ne]
    rintro rfl
    exact hname hc
  have htake : (name ++ '=' :: v).takeWhile (· != '=') = name := by
    rw [List.takeWhile_append_of_pos hall]
    simp
  have htake' : name.takeWhile (· != '=') = name := by
    rw [← List.append_nil name] at hall ⊢
    exact List.takeWhile_append_of_pos fun c hc => hall c (by simp [hc])
  simp only [inLong, htake, htake']
  cases ofName? name <;> simp

end Options

section Arguments

variable {os : List Occurrence} {pending : Option ValueOption}

/-- The kinds of the occurrences in a cluster. -/
theorem inCluster_of_clusterSpells {letters : Text} (h : ClusterSpells letters os pending) :
    inCluster letters = (kindsOf os pending, pending.isSome) := by
  induction h with
  | nil => rfl
  | letter hc _ ih =>
    rcases eq_of_ofLetter?_plain hc with ⟨rfl, rfl⟩ | ⟨rfl, rfl⟩
    · rw [inCluster, ih, kindsOf_cons]
      rfl
    · rw [inCluster, ih, kindsOf_cons]
      · rfl
      all_goals exact fun h => absurd h (by decide)
  | attached hc hv _ =>
    obtain ⟨rfl, rfl⟩ := eq_of_ofLetter?_valued hc
    simp [inCluster, hv, kindsOf, ValueOption.kind?_occurrence, ValueOption.kind?]
  | equals hc =>
    obtain ⟨rfl, rfl⟩ := eq_of_ofLetter?_valued hc
    rfl
  | last hc =>
    obtain ⟨rfl, rfl⟩ := eq_of_ofLetter?_valued hc
    rfl

/-- **The kinds of the occurrences in one argument**, which is not the one that ends the options. -/
theorem inArgument_of_argumentSpells {arg : Text} (h : ArgumentSpells arg os pending) :
    arg ≠ ['-', '-'] ∧ inArgument arg = (kindsOf os pending, pending.isSome) := by
  cases h with
  | plain h =>
    obtain ⟨-, hne, hkinds⟩ := inLong_of_ofName? h
    refine ⟨by simpa using hne, ?_⟩
    rw [inArgument, hkinds, kindsOf_cons]
    simp [kindsOf, Meaning.kind?, Meaning.isValued]
  | equals h =>
    obtain ⟨hname, -, hkinds⟩ := inLong_of_ofName? h
    refine ⟨by simp, ?_⟩
    rw [inArgument, inLong_append hname, hkinds, kindsOf_cons, ValueOption.kind?_occurrence]
    simp [kindsOf, Meaning.kind?]
  | last h =>
    obtain ⟨-, hne, hkinds⟩ := inLong_of_ofName? h
    refine ⟨by simpa using hne, ?_⟩
    rw [inArgument, hkinds]
    simp [kindsOf, Meaning.kind?, Meaning.isValued]
  | @letters letters _ _ hdash h =>
    have hne : letters ≠ ['-'] := by
      rintro rfl
      exact hdash rfl
    refine ⟨by simpa using hne, ?_⟩
    rw [inArgument, inCluster_of_clusterSpells h]
    rintro text rfl
    exact hdash rfl

/-- An argument that does not look like an option has no kinds. -/
theorem inArgument_of_not_looksLikeOption {arg : Text} (h : looksLikeOption arg = false) :
    arg ≠ ['-', '-'] ∧ inArgument arg = ([], false) := by
  refine ⟨?_, ?_⟩
  · rintro rfl
    exact absurd h (by decide)
  · unfold inArgument
    split
    · exact absurd h (by simp [looksLikeOption])
    · next letters _ =>
      obtain rfl : letters = [] := by simpa [looksLikeOption] using h
      rfl
    · rfl

theorem filterMap_kind?_map_directory (args : List Text) :
    (args.map Occurrence.directory).filterMap Occurrence.kind? = [] := by
  simp only [List.filterMap_map, List.filterMap_eq_nil_iff]
  exact fun _ _ => rfl

/-- **The kinds of the occurrences on a command line**, in order. -/
theorem locate_of_spells {args : List Text} (h : Spells args os) :
    locate false args = os.filterMap Occurrence.kind? := by
  induction h with
  | nil => rfl
  | directory harg _ ih =>
    obtain ⟨hend, hkinds⟩ := inArgument_of_not_looksLikeOption harg
    rw [locate, if_neg Bool.false_ne_true, if_neg hend, hkinds, ih, List.nil_append,
      List.filterMap_cons_none rfl]
  | ended args =>
    rw [locate, if_neg Bool.false_ne_true, if_pos rfl, filterMap_kind?_map_directory]
  | complete harg _ ih =>
    obtain ⟨hend, hkinds⟩ := inArgument_of_argumentSpells harg
    rw [locate, if_neg Bool.false_ne_true, if_neg hend, hkinds, List.filterMap_append, ← ih]
    simp [kindsOf]
  | @awaiting arg v args os os' o harg _ _ ih =>
    obtain ⟨hend, hkinds⟩ := inArgument_of_argumentSpells harg
    have hpending : (o.occurrence v :: os').filterMap Occurrence.kind? =
        o.kind?.toList ++ os'.filterMap Occurrence.kind? := by
      rw [← o.kind?_occurrence v]
      simpa [kindsOf] using kindsOf_cons (o.occurrence v) os' none
    rw [locate, if_neg Bool.false_ne_true, if_neg hend, hkinds, List.filterMap_append, hpending,
      ← ih]
    simp [kindsOf, locate]

end Arguments

end SourceKind

/-! ## Values in order -/

namespace RuleSource

/-- What is kept of the options of a kind, where `earlier` requests for the usual rule file have
been taken before. -/
def valuesFrom (earlier : Nat) (os : List Occurrence) : SourceKind → List RuleSource
  | .usualRuleFile =>
    (List.range' earlier (min (earlier + os.count .usualRuleFile) maxCount - earlier)).map
      .usualRuleFile
  | kind => (os.filterMap ofValue?).filter (·.kind == kind)

theorem valuesFrom_zero (os : List Occurrence) : valuesFrom 0 os = SourceKind.values os := by
  funext kind
  cases kind <;> simp [valuesFrom, SourceKind.values, List.range_eq_range']

section Cons

variable {o : Occurrence} {s : RuleSource} (earlier : Nat) (os : List Occurrence)

/-- An occurrence with a value gives the source of that value. -/
theorem ofOccurrences_of_value (h : ofValue? o = some s) :
    ofOccurrences earlier (o :: os) = s :: ofOccurrences earlier os ∧ s.isCounted = true ∧
      o.kind? = some s.kind := by
  cases o <;> cases h <;> exact ⟨rfl, rfl, rfl⟩

/-- Its value is the first one that is kept of its kind. -/
theorem valuesFrom_of_value (h : ofValue? o = some s) (kind : SourceKind) :
    valuesFrom earlier (o :: os) kind =
      if kind = s.kind then s :: valuesFrom earlier os kind else valuesFrom earlier os kind := by
  have hcount : (o :: os).count .usualRuleFile = os.count .usualRuleFile := by
    cases o <;> cases h <;> rfl
  have hkind : s.kind ≠ .usualRuleFile := by
    cases o <;> cases h <;> exact nofun
  have hvalues : (o :: os).filterMap ofValue? = s :: os.filterMap ofValue? :=
    List.filterMap_cons_some h
  by_cases hk : kind = s.kind
  · rw [if_pos hk]
    subst hk
    cases hs : s.kind <;> simp_all [valuesFrom]
  · rw [if_neg hk]
    have hne : (s.kind == kind) = false := by simpa using Ne.symm hk
    cases kind <;> simp_all [valuesFrom]

theorem dropFirst_of_value (h : ofValue? o = some s) :
    dropFirst (valuesFrom earlier (o :: os)) s.kind = valuesFrom earlier os := by
  funext kind
  rw [dropFirst, valuesFrom_of_value earlier os h]
  split <;> simp

/-- An occurrence that gives no source leaves all as it is. -/
theorem ofOccurrences_of_kind?_eq_none (h : o.kind? = none) :
    ofOccurrences earlier (o :: os) = ofOccurrences earlier os ∧
      valuesFrom earlier (o :: os) = valuesFrom earlier os := by
  have hne : o ≠ .usualRuleFile := by
    rintro rfl
    cases h
  have hvalue : ofValue? o = none := by
    cases o <;> first | rfl | cases h
  refine ⟨?_, ?_⟩
  · cases o <;> first | rfl | cases h
  · funext kind
    cases kind <;>
      simp only [valuesFrom, List.filterMap_cons_none hvalue, List.count_cons_of_ne hne]

/-- While there is a number left, a request for the usual rule file takes it. -/
theorem valuesFrom_usualRuleFile (h : earlier < maxCount) :
    valuesFrom earlier (.usualRuleFile :: os) .usualRuleFile =
      .usualRuleFile earlier :: valuesFrom (earlier + 1) os .usualRuleFile := by
  have hlen : min (earlier + (os.count .usualRuleFile + 1)) maxCount - earlier =
      min (earlier + 1 + os.count .usualRuleFile) maxCount - (earlier + 1) + 1 := by omega
  rw [valuesFrom, List.count_cons_self, hlen, List.range'_succ, List.map_cons, valuesFrom]

/-- After that no such request is kept. -/
theorem valuesFrom_of_maxCount_le (h : maxCount ≤ earlier) :
    valuesFrom earlier os .usualRuleFile = [] := by
  have hnone : min (earlier + os.count .usualRuleFile) maxCount - earlier = 0 := by omega
  rw [valuesFrom, hnone]
  rfl

/-- The request takes no value of another kind. -/
theorem dropFirst_usualRuleFile :
    dropFirst (valuesFrom earlier (.usualRuleFile :: os)) .usualRuleFile =
      valuesFrom (earlier + 1) os := by
  have hvalues : (Occurrence.usualRuleFile :: os).filterMap ofValue? = os.filterMap ofValue? :=
    List.filterMap_cons_none rfl
  funext kind
  rw [dropFirst]
  by_cases hkind : kind = .usualRuleFile
  · subst hkind
    rw [if_pos rfl]
    by_cases h : earlier < maxCount
    · rw [valuesFrom_usualRuleFile earlier os h, List.tail_cons]
    · rw [valuesFrom_of_maxCount_le _ _ (by omega), valuesFrom_of_maxCount_le _ _ (by omega),
        List.tail_nil]
  · rw [if_neg hkind]
    cases kind <;> simp_all [valuesFrom]

end Cons

/-- **Values kept by kind are put in order by their kinds.** -/
theorem interleave_valuesFrom (earlier : Nat) (os : List Occurrence) :
    interleave (valuesFrom earlier os) (os.filterMap Occurrence.kind?) =
      (ofOccurrences earlier os).filter isCounted := by
  induction os generalizing earlier with
  | nil => rfl
  | cons o os ih =>
    rcases hs : ofValue? o with _ | s
    · by_cases ho : o = .usualRuleFile
      · subst ho
        rw [List.filterMap_cons_some Occurrence.kind?_usualRuleFile, interleave,
          dropFirst_usualRuleFile, ih, ofOccurrences, List.filter_cons]
        by_cases h : earlier < maxCount
        · rw [valuesFrom_usualRuleFile earlier os h]
          simp [isCounted, h]
        · rw [valuesFrom_of_maxCount_le _ _ (by omega)]
          simp [isCounted, h]
      · have hkind : o.kind? = none := by
          cases o <;> first | rfl | exact absurd rfl ho | cases hs
        obtain ⟨hsources, hvalues⟩ := ofOccurrences_of_kind?_eq_none earlier os hkind
        rw [List.filterMap_cons_none hkind, hvalues, hsources, ih]
    · obtain ⟨hsources, hcounted, hkind⟩ := ofOccurrences_of_value earlier os hs
      rw [List.filterMap_cons_some hkind, interleave, dropFirst_of_value earlier os hs, ih,
        valuesFrom_of_value earlier os hs, if_pos rfl, hsources, List.filter_cons_of_pos hcounted]
      rfl

/-- **The sources of a command line are those of its occurrences**, in order and each with its own
value. The requests for the usual rule file are numbered, as far as they are counted. -/
theorem collect_eq_ofOccurrences {args : List Text} {os : List Occurrence}
    (h : scan [] args = .ok os) :
    Spells args os ∧ collect args os = (ofOccurrences 0 os).filter isCounted := by
  obtain ⟨_, rfl, hspells⟩ := spells_of_scan h
  refine ⟨hspells, ?_⟩
  rw [collect, SourceKind.locate_of_spells hspells, ← valuesFrom_zero, interleave_valuesFrom]

/-- Values that look like options or like the end of the options, a cluster that ends in the value
of its last letter, and an option behind the end of the options. -/
theorem collect_eq_ofOccurrences_mixed :
    let args : List Text := ["--exclude", "--filter", "-vFf=-F", "--include=--", "--info", "skip2",
      "-Ff", "--", "--exclude-from", "=f", "--", "--include"].map String.toList
    let os : List Occurrence := [.exclude "--filter".toList, .verbose, .usualRuleFile,
      .filter "-F".toList, .include "--".toList, .info "skip2".toList, .usualRuleFile,
      .filter "--".toList, .excludeFrom "=f".toList, .directory "--include".toList]
    scan [] args = .ok os ∧
      collect args os = [.exclude "--filter".toList, .usualRuleFile 0, .filter "-F".toList,
        .include "--".toList, .usualRuleFile 1, .filter "--".toList,
        .excludeFrom "=f".toList] := by
  intro args os
  have h : scan [] args = .ok os := by decide +kernel
  exact ⟨h, (collect_eq_ofOccurrences h).2⟩

end RuleSource

end PathFilter
