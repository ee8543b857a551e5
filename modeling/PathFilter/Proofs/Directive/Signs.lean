import PathFilter.Proofs.Rule.Line
import Mathlib.Data.Finset.Dedup
import Mathlib.Data.Finset.Erase
import Mathlib.Data.List.Induction

/-!
# Fields of signs

A field that is spelled with signs and letters alone is read one character at a time. Each adds a
modifier to the marks, but for the comma, which adds nothing. So the marks of such a field hold what
its characters stand for, in whatever order and however often they were written, and the order
counts only for the letters `e` and `n`, which have to follow the sign of a merge directive.

## Main definitions

* `Modifier`: what a part of a field adds to the marks
* `Marks.holds`, `Marks.put`: the modifiers among the marks, and one more
* `Marks.putAll`: modifiers added one after another
* `Marks.IsCoherent`: the signs of a field go together
* `Marks.signSet`: the signs of a field as a set

## Main results

* `Marks.scan_signs`: a field of signs is read as the modifiers of its characters
* `Marks.holds_putAll`: the marks hold the modifiers that were added, and no others
* `Marks.exists_parse_iff_isCoherent`: a field of signs is read exactly if its signs go together,
  and its set of signs tells what it asks for
-/

namespace PathFilter

/-! ## Modifiers -/

/-- **What a part of a field adds to the marks.** -/
inductive Modifier where
  /-- A mark, which may stand anywhere. -/
  | mark (k : Mark)
  /-- The modifier `e` of merge directives. -/
  | excludeSelf
  /-- The modifier `n` of merge directives. -/
  | noInherit
deriving DecidableEq, Repr

namespace Modifier

/-- The modifier that a character stands for. -/
def ofChar? : Char → Option Modifier
  | 'e' => some .excludeSelf
  | 'n' => some .noInherit
  | c => (Mark.ofChar? c).map .mark

/-- The sign or letter that a modifier is written with. -/
def sign : Modifier → Char
  | .mark .include => '+'
  | .mark .exclude => '-'
  | .mark .merge => '.'
  | .mark .dirMerge => ':'
  | .mark .protect => 'P'
  | .mark .risk => 'R'
  | .excludeSelf => 'e'
  | .noInherit => 'n'

/-- The characters that stand for a modifier. -/
def signs : Modifier → List Char
  | .mark .include => ['+']
  | .mark .exclude => ['-']
  | .mark .merge => ['.']
  | .mark .dirMerge => [':']
  | .mark .protect => ['P', 'H']
  | .mark .risk => ['R', 'S']
  | .excludeSelf => ['e']
  | .noInherit => ['n']

theorem ofChar?_of_mem_signs {c : Char} {k : Modifier} (h : c ∈ k.signs) : ofChar? c = some k := by
  rcases k with k | _ | _
  · cases k <;> simp only [signs, List.mem_cons, List.not_mem_nil, or_false] at h
    case protect | risk => rcases h with rfl | rfl <;> rfl
    all_goals subst h; rfl
  all_goals
    obtain rfl := List.mem_singleton.mp h
    rfl

theorem mem_signs_of_ofChar? {c : Char} {k : Modifier} (h : ofChar? c = some k) : c ∈ k.signs := by
  unfold ofChar? Mark.ofChar? at h
  split at h
  · cases h; decide
  · cases h; decide
  · split at h <;> cases h <;> decide

theorem ofChar?_eq_some_iff {c : Char} {k : Modifier} : ofChar? c = some k ↔ c ∈ k.signs :=
  ⟨mem_signs_of_ofChar?, ofChar?_of_mem_signs⟩

theorem ofChar?_mark {c : Char} {k : Mark} (h : ofChar? c = some (.mark k)) :
    Mark.ofChar? c = some k ∧ c ∉ ['e', 'n', 'w'] := by
  unfold ofChar? at h
  split at h
  · cases h
  · cases h
  · next he hn =>
    obtain ⟨k', hk, h⟩ := Option.map_eq_some_iff.mp h
    cases h
    refine ⟨hk, ?_⟩
    have hw : c ≠ 'w' := by
      rintro rfl
      cases hk
    simp only [List.mem_cons, List.not_mem_nil, or_false, not_or]
    exact ⟨he, hn, hw⟩

theorem isLetter_iff {c : Char} {k : Modifier} (h : ofChar? c = some k) :
    k = .excludeSelf ∨ k = .noInherit ↔ c = 'e' ∨ c = 'n' := by
  have hmem := mem_signs_of_ofChar? h
  rcases k with k | _ | _
  · have hletter := (ofChar?_mark h).2
    simp_all
  all_goals
    obtain rfl := List.mem_singleton.mp hmem
    simp

end Modifier

namespace Marks

/-- Whether a modifier is among the marks. -/
def holds (m : Marks) : Modifier → Bool
  | .mark .include => m.including
  | .mark .exclude => m.excluding
  | .mark .merge => m.merge
  | .mark .dirMerge => m.dirMerge
  | .mark .protect => m.protect
  | .mark .risk => m.risk
  | .excludeSelf => m.excludeSelf
  | .noInherit => m.noInherit

/-- **The marks with one more modifier.** The letters `e` and `n` are refused before the mark of a
merge directive. -/
def put (m : Marks) : Modifier → Except LineFault Marks
  | .mark k => .ok (m.add k)
  | .excludeSelf =>
    if m.isMerge then .ok { m with excludeSelf := true } else .error (.misplaced 'e')
  | .noInherit => if m.isMerge then .ok { m with noInherit := true } else .error (.misplaced 'n')

/-- The marks with more modifiers, added in order. -/
def putAll (m : Marks) (ks : List Modifier) : Except LineFault Marks := ks.foldlM put m

variable {m m' : Marks} {k : Modifier} {ks : List Modifier}

/-- Marks that hold the same modifiers are the same. -/
theorem eq_of_holds (h : ∀ k, m.holds k = m'.holds k) : m = m' := by
  obtain ⟨i, x, g, d, p, r, e, n⟩ := m
  obtain ⟨i', x', g', d', p', r', e', n'⟩ := m'
  rw [Marks.mk.injEq]
  exact ⟨h (.mark .include), h (.mark .exclude), h (.mark .merge), h (.mark .dirMerge),
    h (.mark .protect), h (.mark .risk), h .excludeSelf, h .noInherit⟩

theorem holds_none (k : Modifier) : none.holds k = false := by
  rcases k with k | _ | _
  · cases k <;> rfl
  all_goals rfl

theorem isMerge_eq_true_iff :
    m.isMerge = true ↔ m.holds (.mark .merge) = true ∨ m.holds (.mark .dirMerge) = true := by
  rw [isMerge, Bool.or_eq_true]
  rfl

/-- One modifier more is held, and the others stay. -/
theorem holds_put (h : m.put k = .ok m') (j : Modifier) :
    m'.holds j = true ↔ m.holds j = true ∨ j = k := by
  rcases k with k | _ | _
  · cases h
    rcases j with j | _ | _
    · cases k <;> cases j <;> simp [add, holds]
    all_goals cases k <;> simp [add, holds]
  all_goals
    rw [put] at h
    split at h <;> cases h
    rcases j with j | _ | _
    · cases j <;> simp [holds]
    all_goals simp [holds]

/-- A modifier is refused if it is a letter of merge directives and the marks are those of no merge
directive. -/
theorem exists_put_iff :
    (∃ m', m.put k = .ok m') ↔ (k = .excludeSelf ∨ k = .noInherit → m.isMerge = true) := by
  rcases k with k | _ | _
  · simp [put]
  all_goals cases h : m.isMerge <;> simp [put, h]

theorem putAll_concat (m : Marks) (ks : List Modifier) (k : Modifier) :
    m.putAll (ks ++ [k]) = m.putAll ks >>= (put · k) := by
  simp [putAll, List.foldlM_append]

/-- **The marks hold the modifiers that were added, and no others.** -/
theorem holds_putAll (h : none.putAll ks = .ok m) (j : Modifier) : m.holds j = true ↔ j ∈ ks := by
  induction ks using List.reverseRecOn generalizing m with
  | nil =>
    cases h
    simp [holds_none]
  | append_singleton ks k ih =>
    rw [putAll_concat] at h
    rcases hks : none.putAll ks with fault | m₁
    · rw [hks] at h
      cases h
    · rw [hks] at h
      rw [holds_put h, ih hks]
      simp

/-! ## Reading signs -/

/-- What is read where no word begins: the sign of a mark, a comma, or what is refused. -/
def scanSign (m : Marks) (c : Char) (rest : Text) : Except LineFault Marks :=
  match Mark.ofChar? c with
  | some k => scan (m.add k) rest
  | .none =>
    if c == ',' then scan m rest
    else if c == 'e' || c == 'n' || c == 'w' then .error (.misplaced c)
    else .error (.unknown c)

/-- Where no letter of merge directives is meant, a word is looked for, and then a sign. -/
theorem scan_cons {c : Char} {rest : Text} (hletter : m.isMerge = false ∨ c ∉ ['e', 'n', 'w']) :
    scan m (c :: rest) =
      match Mark.word? (c :: rest) with
      | some (k, after) => scan (m.add k) after
      | .none => scanSign m c rest := by
  have hnone : (m.isMerge && c == 'e') = false ∧ (m.isMerge && c == 'n') = false ∧
      (m.isMerge && c == 'w') = false := by
    rcases hletter with h | h
    · simp [h]
    · simp_all
  rw [scan]
  simp only [hnone, Bool.false_eq_true, if_false]
  split
  · next h => rw [h]
  · next h =>
    rw [h]
    rfl

/-- A character that stands for a modifier adds it, unless a word begins there. -/
theorem scan_sign {c : Char} {rest : Text} (hk : Modifier.ofChar? c = some k)
    (hword : Mark.word? (c :: rest) = .none) :
    scan m (c :: rest) = m.put k >>= (scan · rest) := by
  have hmem := Modifier.mem_signs_of_ofChar? hk
  rcases k with k | _ | _
  · obtain ⟨hmark, hletter⟩ := Modifier.ofChar?_mark hk
    rw [scan_cons (.inr hletter), hword, scanSign, hmark]
    rfl
  all_goals
    obtain rfl := List.mem_singleton.mp hmem
    cases hm : m.isMerge with
    | false =>
      rw [scan_cons (.inl hm), hword, put, hm]
      rfl
    | true =>
      rw [scan, put]
      simp only [hm]
      rfl

/-- A comma adds nothing. -/
theorem scan_comma (m : Marks) (rest : Text) : scan m (',' :: rest) = scan m rest := by
  rw [scan_cons (.inr (by decide))]
  rfl

/-- The characters of a field that is spelled with signs alone. -/
def alphabet : List Char := "+-.:PHRS,en".toList

theorem word?_of_alphabet {t : Text} (ht : t ⊆ alphabet) : Mark.word? t = .none := by
  have hletter : ∀ w ∈ Mark.words, ¬ w.1 ⊆ alphabet := by decide
  refine List.findSome?_eq_none_iff.mpr fun w hw => if_neg fun hprefix => ?_
  exact hletter w hw fun c hc => ht ((List.isPrefixOf_iff_prefix.mp hprefix).subset hc)

/-- **A field of signs is read as the modifiers of its characters.** -/
theorem scan_signs {t : Text} (ht : t ⊆ alphabet) (m : Marks) :
    scan m t = m.putAll (t.filterMap Modifier.ofChar?) := by
  have hsign : alphabet.all (fun c => c == ',' || (Modifier.ofChar? c).isSome) = true := by decide
  induction t generalizing m with
  | nil =>
    rw [scan]
    rfl
  | cons c t ih =>
    obtain ⟨hc, ht'⟩ := List.cons_subset.mp ht
    obtain rfl | hsome : c = ',' ∨ (Modifier.ofChar? c).isSome = true := by
      simpa using List.all_eq_true.mp hsign c hc
    · rw [scan_comma, ih ht']
      rfl
    · obtain ⟨k, hk⟩ := Option.isSome_iff_exists.mp hsome
      rw [scan_sign hk (word?_of_alphabet ht), List.filterMap_cons_some hk, putAll,
        List.foldlM_cons]
      exact bind_congr fun m' => ih ht' m'

/-! ## Signs that go together -/

/-- Whether every `e` and every `n` of a text stands behind the sign of a merge directive. -/
def LettersFollow (t : Text) : Prop :=
  ∀ before c, before ++ [c] <+: t → c = 'e' ∨ c = 'n' → '.' ∈ before ∨ ':' ∈ before

/-- **Whether the signs of a field go together.** -/
structure IsCoherent (t : Text) : Prop where
  /-- The letters of merge directives follow the sign of one. -/
  letters : LettersFollow t
  /-- A rule file is read now or in the directories below. -/
  time : ¬ ('.' ∈ t ∧ ':' ∈ t)
  /-- What matches is included or excluded. -/
  polarity : ¬ ('+' ∈ t ∧ '-' ∈ t)
  /-- What matches is protected or at risk. -/
  deletion : ¬ (('P' ∈ t ∨ 'H' ∈ t) ∧ ('R' ∈ t ∨ 'S' ∈ t))
  /-- A class of deletion stands for a polarity, and for no rule file. -/
  apart : ¬ ((∃ c ∈ ['P', 'H', 'R', 'S'], c ∈ t) ∧ ∃ c ∈ ['+', '-', '.', ':'], c ∈ t)
  /-- Something is asked for. -/
  asks : ∃ c ∈ ['+', '-', '.', ':', 'P', 'H', 'R', 'S'], c ∈ t

/-- Where one item more stands, it does so at the end. -/
theorem concat_prefix_concat_iff {α : Type} {before xs : List α} {x y : α} :
    before ++ [x] <+: xs ++ [y] ↔ before ++ [x] <+: xs ∨ before = xs ∧ x = y := by
  rw [List.prefix_concat_iff, or_comm]
  simp

theorem lettersFollow_concat {t : Text} {c : Char} :
    LettersFollow (t ++ [c]) ↔ LettersFollow t ∧ (c = 'e' ∨ c = 'n' → '.' ∈ t ∨ ':' ∈ t) := by
  simp only [LettersFollow, concat_prefix_concat_iff]
  constructor
  · intro h
    exact ⟨fun before d hd => h before d (.inl hd), h t c (.inr ⟨rfl, rfl⟩)⟩
  · rintro ⟨ht, hc⟩ before d (hd | ⟨rfl, rfl⟩)
    · exact ht before d hd
    · exact hc

variable {t : Text}

/-- What is read from a field of signs holds the modifiers that its characters stand for. -/
theorem holds_of_signs (h : none.putAll (t.filterMap Modifier.ofChar?) = .ok m) (k : Modifier) :
    m.holds k = true ↔ ∃ c ∈ k.signs, c ∈ t := by
  rw [holds_putAll h, List.mem_filterMap]
  simp only [Modifier.ofChar?_eq_some_iff, and_comm]

theorem isMerge_of_signs (h : none.putAll (t.filterMap Modifier.ofChar?) = .ok m) :
    m.isMerge = true ↔ '.' ∈ t ∨ ':' ∈ t := by
  rw [isMerge_eq_true_iff, holds_of_signs h, holds_of_signs h]
  simp [Modifier.signs]

/-- The modifiers of a field can be added if its letters follow the sign of a merge directive. -/
theorem exists_putAll_iff (t : Text) :
    (∃ m, none.putAll (t.filterMap Modifier.ofChar?) = .ok m) ↔ LettersFollow t := by
  -- by induction from the front, for what a letter needs stands before it
  induction t using List.reverseRecOn with
  | nil => simp [putAll, LettersFollow, pure, Except.pure]
  | append_singleton t c ih =>
    rw [lettersFollow_concat, ← ih, List.filterMap_append]
    rcases hk : Modifier.ofChar? c with _ | k
    · have hletter : ¬ (c = 'e' ∨ c = 'n') := by
        rintro (rfl | rfl) <;> cases hk
      simp [hk, hletter]
    · rw [List.filterMap_cons_some hk, List.filterMap_nil, putAll_concat]
      rcases hread : none.putAll (t.filterMap Modifier.ofChar?) with fault | m
      · simp [bind, Except.bind]
      · have hput : (∃ m', m.put k = .ok m') ↔ (c = 'e' ∨ c = 'n' → '.' ∈ t ∨ ':' ∈ t) := by
          rw [exists_put_iff, isMerge_of_signs hread, Modifier.isLetter_iff hk]
        simpa [bind, Except.bind] using hput

/-! ## Reading a field of signs -/

theorem parse_eq_ok_iff {field : Text} : parse field = .ok m ↔
    scan none field = .ok m ∧ m.isContradictory = false ∧ m.isIdle = false := by
  constructor
  · intro h
    have hcheck := parse_check h
    unfold parse at h
    rcases hs : scan none field with fault | m'
    · rw [hs] at h
      cases h
    · rw [hs] at h
      refine ⟨?_, hcheck⟩
      simp only [bind, Except.bind, check] at h
      split at h
      · cases h
      · split at h <;> cases h
        rfl
  · rintro ⟨hs, hc, hi⟩
    simp [parse, hs, bind, Except.bind, check, hc, hi]

theorem isContradictory_eq_false_iff : m.isContradictory = false ↔
    ¬ (m.merge = true ∧ m.dirMerge = true) ∧ ¬ (m.including = true ∧ m.excluding = true) ∧
      ¬ (m.protect = true ∧ m.risk = true) ∧
      ¬ ((m.protect = true ∨ m.risk = true) ∧
        (m.including = true ∨ m.excluding = true ∨ m.merge = true ∨ m.dirMerge = true)) := by
  rw [← Bool.not_eq_true, isContradictory, isDeletion, isMerge]
  simp only [Bool.or_eq_true, Bool.and_eq_true, not_or, or_assoc]

theorem isIdle_eq_false_iff : m.isIdle = false ↔
    m.including = true ∨ m.excluding = true ∨ m.merge = true ∨ m.dirMerge = true ∨
      m.protect = true ∨ m.risk = true := by
  rw [isIdle, isDeletion, isMerge, Bool.not_eq_false', Bool.or_eq_true]
  simp only [Bool.or_eq_true]
  tauto

/-- The marks that were read agree with each other and ask for something exactly if the signs do. -/
theorem check_of_signs (h : none.putAll (t.filterMap Modifier.ofChar?) = .ok m) :
    m.isContradictory = false ∧ m.isIdle = false ↔ IsCoherent t := by
  have hletters : LettersFollow t := (exists_putAll_iff t).mp ⟨m, h⟩
  have hinclude := holds_of_signs h (.mark .include)
  have hexclude := holds_of_signs h (.mark .exclude)
  have hmerge := holds_of_signs h (.mark .merge)
  have hdirMerge := holds_of_signs h (.mark .dirMerge)
  have hprotect := holds_of_signs h (.mark .protect)
  have hrisk := holds_of_signs h (.mark .risk)
  simp only [holds, Modifier.signs, List.mem_cons, List.not_mem_nil, or_false, exists_eq_left,
    exists_eq_or_imp] at hinclude hexclude hmerge hdirMerge hprotect hrisk
  rw [isContradictory_eq_false_iff, isIdle_eq_false_iff, hinclude, hexclude, hmerge, hdirMerge,
    hprotect, hrisk]
  constructor
  · rintro ⟨⟨htime, hpolarity, hdeletion, hapart⟩, hasks⟩
    exact ⟨hletters, htime, hpolarity, hdeletion, by simpa [or_assoc] using hapart,
      by simpa [or_assoc] using hasks⟩
  · rintro ⟨-, htime, hpolarity, hdeletion, hapart, hasks⟩
    exact ⟨⟨htime, hpolarity, hdeletion, by simpa [or_assoc] using hapart⟩,
      by simpa [or_assoc] using hasks⟩

theorem exists_parse_iff (ht : t ⊆ alphabet) :
    (∃ m, parse t = .ok m) ↔ IsCoherent t := by
  simp only [parse_eq_ok_iff, scan_signs ht]
  constructor
  · rintro ⟨m, hm, hcheck⟩
    exact (check_of_signs hm).mp hcheck
  · intro h
    obtain ⟨m, hm⟩ := (exists_putAll_iff t).mpr h.letters
    exact ⟨m, hm, (check_of_signs hm).mpr h⟩

/-! ## The set of signs -/

/-- The character that another one counts as: `H` is another `P`, and `S` another `R`. -/
def counted : Char → Char
  | 'H' => 'P'
  | 'S' => 'R'
  | c => c

/-- **The signs of a field as a set**, the comma aside. -/
def signSet (t : Text) : Finset Char := (t.map counted).toFinset.erase ','

theorem counted_eq_sign_iff {c : Char} {k : Modifier} : counted c = k.sign ↔ c ∈ k.signs := by
  unfold counted
  rcases k with k | _ | _
  · cases k <;> split <;> simp_all [Modifier.sign, Modifier.signs]
  all_goals split <;> simp_all [Modifier.sign, Modifier.signs]

theorem sign_mem_signSet_iff {k : Modifier} : k.sign ∈ signSet t ↔ ∃ c ∈ k.signs, c ∈ t := by
  have hcomma : k.sign ≠ ',' := by
    rcases k with k | _ | _
    · cases k <;> decide
    all_goals decide
  simp [signSet, hcomma, counted_eq_sign_iff, and_comm]

/-- Fields of the same signs are read alike. -/
theorem eq_of_signSet_eq {t' : Text} (ht : t ⊆ alphabet) (ht' : t' ⊆ alphabet)
    (hsigns : signSet t = signSet t') (h : parse t = .ok m) (h' : parse t' = .ok m') : m = m' := by
  obtain ⟨hm, -⟩ := parse_eq_ok_iff.mp h
  obtain ⟨hm', -⟩ := parse_eq_ok_iff.mp h'
  rw [scan_signs ht] at hm
  rw [scan_signs ht'] at hm'
  refine eq_of_holds fun k => Bool.eq_iff_iff.mpr ?_
  rw [holds_of_signs hm, holds_of_signs hm', ← sign_mem_signSet_iff, hsigns, sign_mem_signSet_iff]

/-- **A field of signs is read exactly if its signs go together**, whatever their order and number
but for the letters of merge directives. The set of its signs tells the marks that are read, and
with them what is asked for. A class of deletion is asked for with the polarity that it stands
for. -/
theorem exists_parse_iff_isCoherent (ht : t ⊆ alphabet) :
    ((∃ m, parse t = .ok m) ↔ IsCoherent t) ∧
      (∀ t' m m', t' ⊆ alphabet → signSet t = signSet t' →
        parse t = .ok m → parse t' = .ok m' → m = m' ∧ m.directive = m'.directive) ∧
      ∀ m p k, parse t = .ok m → m.directive = .rule p k → k ≠ .ordinary →
        k.polarity? = some p := by
  refine ⟨exists_parse_iff ht, ?_, ?_⟩
  · intro t' m m' ht' hsigns h h'
    obtain rfl := eq_of_signSet_eq ht ht' hsigns h h'
    exact ⟨rfl, rfl⟩
  · intro m p k _ hdirective hclass
    cases k with
    | ordinary => exact absurd rfl hclass
    | protect => rw [polarity_of_directive hdirective rfl]; rfl
    | risk => rw [polarity_of_directive hdirective rfl]; rfl

/-- Two fields of the same signs in another order, and one that asks for a class of deletion. -/
theorem exists_parse_iff_isCoherent_reordered :
    let m : Marks :=
      { none with dirMerge := true, excluding := true, excludeSelf := true, noInherit := true }
    parse ":n-,e".toList = .ok m ∧ parse "-:,:en".toList = .ok m ∧ IsCoherent ":n-,e".toList ∧
      signSet ":n-,e".toList = signSet "-:,:en".toList ∧ ¬ IsCoherent "n:".toList ∧
      RuleClass.protect.polarity? = some .exclude := by
  intro m
  have ht : ":n-,e".toList ⊆ alphabet := by decide
  have ht' : "-:,:en".toList ⊆ alphabet := by decide
  have hsigns : signSet ":n-,e".toList = signSet "-:,:en".toList := by decide
  have hm : parse ":n-,e".toList = .ok m := by decide +kernel
  obtain ⟨hread, hsame, -⟩ := exists_parse_iff_isCoherent ht
  have hm' : parse "-:,:en".toList = .ok m := by
    obtain ⟨m', h'⟩ : ∃ m', parse "-:,:en".toList = .ok m' := ⟨m, by decide +kernel⟩
    obtain ⟨rfl, -⟩ := hsame _ _ _ ht' hsigns hm h'
    exact h'
  have hlate : ¬ IsCoherent "n:".toList := by
    rw [← (exists_parse_iff_isCoherent (by decide)).1]
    rintro ⟨m', h'⟩
    have hfail : parse "n:".toList = .error (.misplaced 'n') := by decide +kernel
    rw [hfail] at h'
    cases h'
  have hkept : parse "H,P".toList = .ok { none with protect := true } := by decide +kernel
  obtain ⟨-, -, hclass⟩ := exists_parse_iff_isCoherent (t := "H,P".toList) (by decide)
  exact ⟨hm, hm', hread.mp ⟨m, hm⟩, hsigns, hlate, hclass _ _ _ hkept rfl (by decide)⟩

end Marks

end PathFilter
