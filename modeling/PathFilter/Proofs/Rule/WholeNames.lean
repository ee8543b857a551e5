import PathFilter.Path
import PathFilter.Proofs.Glob.Reading
import PathFilter.Rule.Basic

/-!
# Rules that match whole names

A rule without wildcards compares paths as they are written, by what they begin or end with. In
terms of the names between the slashes it asks whether all names of its own path come first, if it
is tied to the root, or come last. No name is ever matched in part. The slash at the end of a rule
for directories counts as an empty name behind it, and where a subject has no other empty names, a
tied rule of this kind matches the directory it names and nothing below it.

## Main results

* `Path.names_isPrefix_iff`, `Path.names_isSuffix_iff`: what a path begins and ends with, in names
* `PathExpression.leads_iff`, `PathExpression.trails_iff`: the two comparisons, in names
* `Rule.matches_iff_names`: a rule without wildcards matches whole names
-/

namespace PathFilter

/-! ## Paths and their names -/

namespace Path

/-- A path is told by its names. -/
theorem names_injective : Function.Injective names := by
  intro s t h
  have hs := intercalate_pieces '/' s
  have ht := intercalate_pieces '/' t
  unfold names at h
  rw [← hs, h, ht]

/-- A slash between two paths separates their names. -/
theorem names_append_slash (s t : Text) : names (s ++ '/' :: t) = names s ++ names t :=
  pieces_append_cons (by simp) s t

theorem names_ne_nil (s : Text) : names s ≠ [] := pieces_ne_nil _ s

/-- Names of two paths in a row are those of the paths with a slash between them. -/
theorem intercalate_append {ms ns : List Text} (hm : ms ≠ []) (hn : ns ≠ []) :
    ['/'].intercalate (ms ++ ns) = ['/'].intercalate ms ++ '/' :: ['/'].intercalate ns := by
  induction ms with
  | nil => exact absurd rfl hm
  | cons m ms ih =>
    cases ms with
    | nil =>
      obtain ⟨n, ns, rfl⟩ := List.exists_cons_of_ne_nil hn
      simp [List.intercalate_cons_cons]
    | cons m' ms =>
      have hrest := ih (List.cons_ne_nil m' ms)
      rw [List.cons_append] at hrest
      rw [List.cons_append, List.cons_append, List.intercalate_cons_cons, hrest,
        List.intercalate_cons_cons]
      simp

/-- A path whose names fall into two lists is the first part, a slash and the second part. -/
theorem eq_append_slash {s : Text} {ms ns : List Text} (h : names s = ms ++ ns) (hm : ms ≠ [])
    (hn : ns ≠ []) : s = ['/'].intercalate ms ++ '/' :: ['/'].intercalate ns := by
  have hs : ['/'].intercalate (names s) = s := intercalate_pieces '/' s
  rw [← hs, h, intercalate_append hm hn]

/-- **A path comes first with all its names** if it is the whole path, or stands before a slash. -/
theorem names_isPrefix_iff (p s : Text) :
    names p <+: names s ↔ s = p ∨ p ++ ['/'] <+: s := by
  constructor
  · rintro ⟨rest, hrest⟩
    by_cases hnil : rest = []
    · left
      rw [hnil, List.append_nil] at hrest
      exact (names_injective hrest).symm
    · right
      have hp : ['/'].intercalate (names p) = p := intercalate_pieces '/' p
      have hs := eq_append_slash hrest.symm (names_ne_nil p) hnil
      rw [hp] at hs
      exact ⟨['/'].intercalate rest, by simp [hs]⟩
  · rintro (rfl | ⟨t, rfl⟩)
    · exact List.prefix_rfl
    · rw [List.append_assoc, List.singleton_append, names_append_slash]
      exact List.prefix_append _ _

/-- **A path comes last with all its names** if it is the whole path, or stands behind a slash. -/
theorem names_isSuffix_iff (p s : Text) :
    names p <:+ names s ↔ s = p ∨ '/' :: p <:+ s := by
  constructor
  · rintro ⟨first, hfirst⟩
    by_cases hnil : first = []
    · left
      rw [hnil, List.nil_append] at hfirst
      exact (names_injective hfirst).symm
    · right
      have hp : ['/'].intercalate (names p) = p := intercalate_pieces '/' p
      have hs := eq_append_slash hfirst.symm hnil (names_ne_nil p)
      rw [hp] at hs
      exact ⟨['/'].intercalate first, hs.symm⟩
  · rintro (rfl | ⟨t, rfl⟩)
    · exact List.suffix_rfl
    · rw [names_append_slash]
      exact List.suffix_append _ _

/-- The names of a path but its first and its last one. -/
def innerNames (s : Text) : List Text := (names s).tail.dropLast

/-- **No path comes first within another one if it ends with a slash**, as long as the other has no
empty name but at its ends: the name behind that slash would be one. -/
theorem eq_of_names_isPrefix {p s : Text} (h : names p <+: names s) (hp : p.endsWith '/' = true)
    (hs : ∀ n ∈ innerNames s, n ≠ []) : s = p := by
  obtain ⟨rest, hrest⟩ := h
  obtain ⟨q, rfl⟩ := List.getLast?_eq_some_iff.mp
    (show p.getLast? = some '/' by simpa [Text.endsWith] using hp)
  obtain ⟨n, ns, hq⟩ := List.exists_cons_of_ne_nil (names_ne_nil q)
  have hnames : names s = n :: ns ++ [] :: rest := by
    rw [← hrest, names_append_slash, hq]
    simp
  by_cases hnil : rest = []
  · rw [hnil, List.append_nil] at hrest
    exact (names_injective hrest).symm
  · have hinner : [] ∈ innerNames s := by
      rw [innerNames, hnames, List.cons_append, List.tail_cons,
        List.dropLast_append_of_ne_nil (List.cons_ne_nil _ _), List.dropLast_cons_of_ne_nil hnil]
      simp
    exact absurd rfl (hs [] hinner)

end Path

/-! ## Expressions without wildcards -/

namespace PathExpression

open PathFilter.Path (names)

/-- **A literal path leads a candidate** if its names come first. -/
theorem leads_iff (path candidate : Text) :
    leads path candidate = true ↔ names path <+: names candidate := by
  rw [Path.names_isPrefix_iff]
  simp [leads]

/-- **A literal path trails a candidate** if its names come last. -/
theorem trails_iff (path candidate : Text) :
    trails path candidate = true ↔ names path <:+ names candidate := by
  rw [Path.names_isSuffix_iff]
  simp [trails]

/-- What an expression without wildcards covers. -/
theorem covers_iff_names {e : PathExpression} (h : e.isGlob = false) (subject : Text) :
    e.covers subject = true ↔
      if e.anchored then names e.path <+: names subject else names e.path <:+ names subject := by
  unfold covers
  simp only [h, Bool.false_eq_true, if_false]
  cases e.anchored with
  | true => exact leads_iff e.path subject
  | false => exact trails_iff e.path subject

theorem endsWith_path {e : PathExpression} (h : e.directoryOnly = true) :
    e.path.endsWith '/' = true := by
  simp [path, h, Text.endsWith]

end PathExpression

namespace Rule

open PathFilter.Path (names innerNames)

/-- **A rule without wildcards matches whole names.** If it applies to a candidate, it matches where
the names of its path come first among those of the subject, for a rule tied to the root, or come
last, for any other rule, and the answer is turned round for a negated rule. A tied rule for
directories so matches only the directory it names, where no name inside the subject is empty. -/
theorem matches_iff_names {r : Rule} (hr : Glob.isGlob r.expression.toText = false)
    (candidate : Text) (isDirectory : Bool) :
    let e := r.expression
    let subject := e.subject candidate
    (r.matches? candidate isDirectory = none ↔ e.directoryOnly = true ∧ isDirectory = false) ∧
      (¬ (e.directoryOnly = true ∧ isDirectory = false) →
        ∃ m : Bool, r.matches? candidate isDirectory = some (m ^^ e.negated) ∧
          (m = true ↔
            if e.anchored then names e.path <+: names subject
            else names e.path <:+ names subject) ∧
          (e.anchored = true → e.directoryOnly = true → (∀ n ∈ innerNames subject, n ≠ []) →
            (m = true ↔ subject = e.path))) := by
  intro e subject
  have hglob : e.isGlob = false := by rw [← e.isGlob_toText, hr]
  refine ⟨e.matches?_eq_none_iff candidate isDirectory, fun happlies => ?_⟩
  have hsome : e.appliesTo isDirectory = true := by
    simpa [PathExpression.appliesTo, or_comm, imp_iff_not_or] using happlies
  have hcovers := PathExpression.covers_iff_names hglob subject
  refine ⟨e.covers subject, ?_, hcovers, fun ha hd hinner => ?_⟩
  · show e.matches? candidate isDirectory = _
    rw [PathExpression.matches?, if_pos hsome]
  · rw [hcovers, if_pos ha]
    constructor
    · intro hfirst
      exact Path.eq_of_names_isPrefix hfirst (PathExpression.endsWith_path hd) hinner
    · intro heq
      have hnames : names e.path = names subject := congrArg names heq.symm
      exact hnames ▸ List.prefix_rfl

/-- The rule that includes the directory `build` leaves out what lies below it. -/
theorem matches_iff_names_directory :
    ∃ r : Rule, r.expression = .ofText "/build/".toList ∧
      Glob.isGlob r.expression.toText = false ∧
      r.matches? "./build".toList true = some true ∧
      r.matches? "./build/nested".toList true = some false := by
  let r : Rule := ⟨.include, .ordinary, .ofText "/build/".toList, by decide, by decide⟩
  have hr : Glob.isGlob r.expression.toText = false := by decide
  have hraw : ∀ candidate : Text, (∀ n ∈ innerNames (r.expression.subject candidate), n ≠ []) →
      r.matches? candidate true =
        some (decide (r.expression.subject candidate = r.expression.path)) := by
    intro candidate hinner
    obtain ⟨m, hm, -, hiff⟩ := (matches_iff_names hr candidate true).2 (by decide)
    rw [hm, show r.expression.negated = false from rfl, Bool.xor_false]
    cases m <;> simpa using hiff rfl rfl hinner
  refine ⟨r, rfl, hr, ?_, ?_⟩
  · rw [hraw _ (by decide)]
    rfl
  · rw [hraw _ (by decide)]
    rfl

end Rule

end PathFilter
