import PathFilter.Proofs.Directive.Signs

/-!
# Words for signs

A field may be spelled with words where it is spelled with signs, its parts set apart by commas. A
word adds the mark that its sign adds, with one exception: behind the mark of a merge directive the
word `exclude` is not recognised. Its `e` is taken for the modifier, and what is left of it is
refused.

## Main definitions

* `Word`: a part of a field, spelled with a sign or with a word
* `Word.short`: the part spelled with a sign
* `Marks.field`: the field of some parts
* `Marks.HasLateExclude`: the word `exclude` stands behind the mark of a merge directive

## Main results

* `Marks.scan_field`: a field is read part by part
* `Marks.parse_field_iff`: a field is read like that of the signs unless an `exclude` comes too late
-/

namespace PathFilter

/-- **A part of a field.** -/
inductive Word where
  /-- A modifier spelled with its sign or letter. -/
  | sign (k : Modifier)
  /-- A mark spelled with a word. -/
  | keyword (text : Text) (k : Mark) (h : (text, k) ∈ Mark.words)

namespace Word

/-- What a part of a field adds to the marks. -/
def modifier : Word → Modifier
  | sign k => k
  | keyword _ k _ => .mark k

/-- How a part of a field is spelled. -/
def text : Word → Text
  | sign k => [k.sign]
  | keyword text _ _ => text

/-- **A part of a field spelled with a sign.** -/
def short (w : Word) : Word := .sign w.modifier

/-- Whether a part of a field is the word `exclude`. -/
def IsExclude (w : Word) : Prop := w.text = "exclude".toList

instance (w : Word) : Decidable w.IsExclude := inferInstanceAs (Decidable (w.text = _))

theorem not_isExclude_short (w : Word) : ¬ w.short.IsExclude := by
  intro h
  have hlength : 1 = 7 := congrArg List.length h
  omega

/-- Whether a part of a field is the mark of a merge directive. -/
def Merges (w : Word) : Prop := w.modifier = .mark .merge ∨ w.modifier = .mark .dirMerge

end Word

namespace Marks

variable {m : Marks} {w : Word} {ws : List Word}

/-- **The field of some parts**, set apart by commas. -/
def field (ws : List Word) : Text := [','].intercalate (ws.map Word.text)

/-- The marks with a part of a field added. The word `exclude` is refused behind the mark of a merge
directive. -/
def take (m : Marks) (w : Word) : Except LineFault Marks :=
  if m.isMerge ∧ w.IsExclude then .error (.unknown 'x') else m.put w.modifier

/-- Whether the word `exclude` stands behind the mark of a merge directive. -/
def HasLateExclude (ws : List Word) : Prop :=
  ∃ before w, before ++ [w] <+: ws ∧ w.IsExclude ∧ ∃ v ∈ before, v.Merges

/-! ## Reading a field part by part -/

theorem word?_sign (k : Modifier) {rest : Text} (hrest : ∀ c, rest.head? = some c → c = ',') :
    Mark.word? (k.sign :: rest) = .none := by
  rcases k with k | _ | _
  · cases k <;> rfl
  · rcases rest with _ | ⟨c, rest⟩
    · rfl
    · obtain rfl := hrest c rfl
      rfl
  · rfl

theorem word?_append {text : Text} {k : Mark} (h : (text, k) ∈ Mark.words) (rest : Text) :
    Mark.word? (text ++ rest) = some (k, rest) := by
  simp only [Mark.words, List.mem_cons, Prod.mk.injEq, List.not_mem_nil, or_false] at h
  rcases h with ⟨rfl, rfl⟩ | ⟨rfl, rfl⟩ | ⟨rfl, rfl⟩ | ⟨rfl, rfl⟩ | ⟨rfl, rfl⟩ | ⟨rfl, rfl⟩ |
    ⟨rfl, rfl⟩ | ⟨rfl, rfl⟩ <;> rfl

/-- A word adds its mark where its first letter is no modifier. -/
theorem scan_keyword {text : Text} {k : Mark} (h : (text, k) ∈ Mark.words)
    (hlate : m.isMerge = false ∨ text ≠ "exclude".toList) (rest : Text) :
    scan m (text ++ rest) = scan (m.add k) rest := by
  have hfirst : ∀ w ∈ Mark.words, w.1 ≠ [] ∧
      (w.1.head?.any (· ∈ ['e', 'n', 'w']) = true → w.1 = "exclude".toList) := by decide
  obtain ⟨hne, hletter⟩ := hfirst _ h
  have hword := word?_append h rest
  obtain ⟨c, t, rfl⟩ := List.exists_cons_of_ne_nil hne
  rw [List.cons_append] at hword ⊢
  rw [scan_cons (hlate.imp_right fun hno hc => hno (hletter (by simpa using hc))), hword]

/-- Behind the mark of a merge directive the `e` of `exclude` is a modifier, and the `x` is none. -/
theorem scan_late_exclude (hm : m.isMerge = true) (rest : Text) :
    scan m ("exclude".toList ++ rest) = .error (.unknown 'x') := by
  have hx : scan { m with excludeSelf := true } ("xclude".toList ++ rest) = .error (.unknown 'x') :=
    (scan_cons (.inr (by decide))).trans rfl
  rw [← hx, show "exclude".toList ++ rest = 'e' :: ("xclude".toList ++ rest) from rfl, scan, hm]
  rfl

/-- **A part of a field is read** up to the comma behind it. -/
theorem scan_word (m : Marks) (w : Word) {rest : Text}
    (hrest : ∀ c, rest.head? = some c → c = ',') :
    scan m (w.text ++ rest) = m.take w >>= (scan · rest) := by
  cases w with
  | sign k =>
    have hk : Modifier.ofChar? k.sign = some k := by
      rcases k with k | _ | _
      · cases k <;> rfl
      all_goals rfl
    rw [take, if_neg fun h => Word.not_isExclude_short (.sign k) h.2]
    exact scan_sign hk (word?_sign k hrest)
  | keyword text k h =>
    by_cases hlate : m.isMerge = true ∧ text = "exclude".toList
    · obtain ⟨hm, rfl⟩ := hlate
      rw [take, if_pos ⟨hm, rfl⟩]
      exact scan_late_exclude hm rest
    · rw [take, if_neg (show ¬ (m.isMerge = true ∧ (Word.keyword text k h).IsExclude) from hlate)]
      exact scan_keyword h (by simpa [imp_iff_not_or] using hlate) rest

/-- **A field is read part by part.** -/
theorem scan_field (m : Marks) (ws : List Word) : scan m (field ws) = ws.foldlM take m := by
  induction ws generalizing m with
  | nil =>
    change scan m [] = _
    rw [scan]
    rfl
  | cons w ws ih =>
    rw [List.foldlM_cons]
    cases ws with
    | nil =>
      have hnone : ∀ c, ([] : Text).head? = some c → c = ',' := by simp
      rw [show field [w] = w.text ++ [] by simp [field], scan_word m w hnone]
      exact bind_congr fun m' => ih m'
    | cons v ws =>
      have hfield : field (w :: v :: ws) = w.text ++ ',' :: field (v :: ws) := by
        simp [field, List.intercalate_cons_cons]
      rw [hfield, scan_word m w (by rintro c ⟨⟩; rfl)]
      exact bind_congr fun m' => (scan_comma m' _).trans (ih m')

/-! ## Words that come too late -/

theorem hasLateExclude_concat :
    HasLateExclude (ws ++ [w]) ↔ HasLateExclude ws ∨ w.IsExclude ∧ ∃ v ∈ ws, v.Merges := by
  simp only [HasLateExclude, concat_prefix_concat_iff]
  constructor
  · rintro ⟨before, v, hbefore | ⟨rfl, rfl⟩, hexclude, hmerge⟩
    · exact .inl ⟨before, v, hbefore, hexclude, hmerge⟩
    · exact .inr ⟨hexclude, hmerge⟩
  · rintro (⟨before, v, hbefore, hexclude, hmerge⟩ | ⟨hexclude, hmerge⟩)
    · exact ⟨before, v, .inl hbefore, hexclude, hmerge⟩
    · exact ⟨ws, w, .inr ⟨rfl, rfl⟩, hexclude, hmerge⟩

theorem isMerge_of_putAll (h : none.putAll (ws.map Word.modifier) = .ok m) :
    m.isMerge = true ↔ ∃ v ∈ ws, v.Merges := by
  rw [isMerge_eq_true_iff, holds_putAll h, holds_putAll h, List.mem_map, List.mem_map, ← exists_or]
  simp only [← and_or_left, Word.Merges]

/-- **Parts of a field add what they stand for**, unless an `exclude` comes too late. Then the field
is refused. -/
theorem foldlM_take (ws : List Word) :
    (¬ HasLateExclude ws → ws.foldlM take none = none.putAll (ws.map Word.modifier)) ∧
      (HasLateExclude ws → ∃ fault, ws.foldlM take none = .error fault) := by
  -- by induction from the front, for the part that comes too late is the last one that is read
  induction ws using List.reverseRecOn with
  | nil => simp [HasLateExclude, putAll]
  | append_singleton ws w ih =>
    obtain ⟨hread, hrefused⟩ := ih
    rw [hasLateExclude_concat, List.map_append, List.map_singleton, putAll_concat]
    simp only [List.foldlM_append, List.foldlM_cons, List.foldlM_nil, bind_pure]
    by_cases hlate : HasLateExclude ws
    · obtain ⟨fault, hfault⟩ := hrefused hlate
      rw [hfault]
      exact ⟨fun h => absurd (.inl hlate) h, fun _ => ⟨fault, rfl⟩⟩
    · rw [hread hlate, or_iff_right hlate]
      rcases hm : none.putAll (ws.map Word.modifier) with fault | m
      · exact ⟨fun _ => rfl, fun _ => ⟨fault, rfl⟩⟩
      · -- whether the last part is refused is told by what was read before it
        rw [← isMerge_of_putAll hm]
        exact ⟨fun h => if_neg (h ∘ And.symm), fun h => ⟨.unknown 'x', if_pos h.symm⟩⟩

/-- **A field is read like that of the signs** unless the word `exclude` comes too late. Then it is
refused, so the two are alike exactly if the signs are refused as well. -/
theorem parse_field_iff (ws : List Word) :
    let spelled := parse (field ws)
    let signs := parse (field (ws.map Word.short))
    (spelled.toOption = signs.toOption ↔ ¬ HasLateExclude ws ∨ signs.toOption = .none) ∧
      (¬ HasLateExclude ws → spelled = signs) ∧
      (HasLateExclude ws → ∃ fault, spelled = .error fault) := by
  intro spelled signs
  have hmodifiers : (ws.map Word.short).map Word.modifier = ws.map Word.modifier := by
    rw [List.map_map]
    rfl
  have hno : ¬ HasLateExclude (ws.map Word.short) := by
    rintro ⟨before, w, hbefore, hexclude, -⟩
    obtain ⟨v, -, rfl⟩ := List.mem_map.mp (hbefore.subset (List.mem_concat_self))
    exact v.not_isExclude_short hexclude
  have hsigns : signs = none.putAll (ws.map Word.modifier) >>= check := by
    simp only [signs]
    rw [parse, scan_field, (foldlM_take _).1 hno, hmodifiers]
  have hsame : ¬ HasLateExclude ws → spelled = signs := by
    intro h
    rw [hsigns]
    simp only [spelled]
    rw [parse, scan_field, (foldlM_take ws).1 h]
  have hrefused : HasLateExclude ws → ∃ fault, spelled = .error fault := by
    intro h
    obtain ⟨fault, hfault⟩ := (foldlM_take ws).2 h
    refine ⟨fault, ?_⟩
    simp only [spelled]
    rw [parse, scan_field, hfault]
    rfl
  refine ⟨⟨fun h => ?_, fun h => ?_⟩, hsame, hrefused⟩
  · refine or_iff_not_imp_left.mpr fun hlate => ?_
    obtain ⟨fault, hfault⟩ := hrefused (not_not.mp hlate)
    rw [← h, hfault]
    rfl
  · by_cases hlate : HasLateExclude ws
    · obtain ⟨fault, hfault⟩ := hrefused hlate
      rw [h.resolve_left (not_not.mpr hlate), hfault]
      rfl
    · rw [hsame hlate]

/-- A word does not always stand for its sign: with `exclude` for the minus behind `merge`, the
field is refused. -/
theorem not_forall_parse_field_eq :
    ¬ ∀ ws : List Word, (parse (field ws)).toOption =
      (parse (field (ws.map Word.short))).toOption := by
  intro h
  let merge : Word := .keyword "merge".toList .merge (by decide)
  let exclude : Word := .keyword "exclude".toList .exclude (by decide)
  have hspelled : parse (field [merge, exclude]) = .error (.unknown 'x') := by decide +kernel
  have hsigns : parse (field [merge.short, exclude.short]) =
      .ok { none with merge := true, excluding := true } := by decide +kernel
  have heq := h [merge, exclude]
  rw [hspelled, List.map_cons, List.map_cons, List.map_nil, hsigns] at heq
  cases heq

end Marks

end PathFilter
