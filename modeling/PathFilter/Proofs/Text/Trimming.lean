import PathFilter.Text.Blank
import Mathlib.Data.List.TakeWhile

/-!
# What trimming leaves

Trimming takes blank space away at both ends and nothing else. So a beginning of a text stays one if
its last character is not blank, and a text stays as it is if neither its first nor its last
character is.

## Main results

* `Text.trimEnd_prefix_self`, `Text.prefix_trimEnd`: which beginnings a text keeps
* `Text.trim_eq_self`, `Text.trim_trim`: which texts stay as they are
* `Text.fields_trim`: the fields of a text are left as they are
-/

namespace PathFilter.Text

theorem trimStart_eq_self {t : Text} (h : ∀ c, t.head? = some c → isBlank c = false) :
    t.trimStart = t := by
  cases t with
  | nil => rfl
  | cons c t => exact List.dropWhile_cons_of_neg (by simp [h c rfl])

theorem trimEnd_prefix_self (t : Text) : t.trimEnd <+: t := by
  rw [trimEnd, ← List.reverse_suffix, List.reverse_reverse]
  exact List.dropWhile_suffix isBlank

/-- A beginning that does not end in blank space is left by trimming the end. -/
theorem prefix_trimEnd {s t : Text} (h : s <+: t)
    (hs : ∀ c, s.getLast? = some c → isBlank c = false) : s <+: t.trimEnd := by
  obtain ⟨u, rfl⟩ := h
  have hkept : s.reverse.dropWhile isBlank = s.reverse := by
    refine trimStart_eq_self fun c hc => hs c ?_
    rwa [List.head?_reverse] at hc
  rw [trimEnd, List.reverse_append, List.dropWhile_append]
  split
  · exact ⟨[], by rw [hkept, List.reverse_reverse, List.append_nil]⟩
  · rw [List.reverse_append, List.reverse_reverse]
    exact List.prefix_append s _

/-- A text without blank space at its ends stays as it is. -/
theorem trim_eq_self {t : Text} (hhead : ∀ c, t.head? = some c → isBlank c = false)
    (hlast : ∀ c, t.getLast? = some c → isBlank c = false) : t.trim = t := by
  rw [trim, trimStart_eq_self hhead]
  have hkept : t <+: t.trimEnd := prefix_trimEnd (List.prefix_refl t) hlast
  exact (trimEnd_prefix_self t).eq_of_length_le hkept.length_le

/-- A text that is trimmed at its start does not start with a blank. -/
theorem not_blank_of_head?_trimStart {t : Text} {c : Char} (h : t.trimStart.head? = some c) :
    isBlank c = false := by
  have hfirst := List.head?_dropWhile_not isBlank t
  rwa [show t.dropWhile isBlank = t.trimStart from rfl, h] at hfirst

/-- A text that is trimmed already stays as it is. -/
theorem trim_trim (t : Text) : t.trim.trim = t.trim := by
  refine trim_eq_self (fun c hc => ?_) fun c hc => ?_
  · obtain ⟨u, hu⟩ := trimEnd_prefix_self t.trimStart
    refine not_blank_of_head?_trimStart (t := t) ?_
    rw [← hu, List.head?_append, show t.trimStart.trimEnd = t.trim from rfl, hc]
    rfl
  · rw [trim, trimEnd, List.getLast?_reverse] at hc
    exact not_blank_of_head?_trimStart hc

/-! ## Fields -/

/-- A blank separates the fields before it from those behind it. -/
theorem fields_append_cons {c : Char} (hc : isBlank c = true) (s t : Text) :
    (s ++ c :: t).fields = s.fields ++ t.fields := by
  rw [fields, pieces_append_cons hc, List.filter_append]
  rfl

/-- A text without blank space is its only field, unless it is empty. -/
theorem fields_of_not_blank {t : Text} (hne : t ≠ []) (h : ∀ c ∈ t, isBlank c = false) :
    t.fields = [t] := by
  rw [fields, pieces_of_unmarked h]
  simp [hne]

/-- A text that does not begin with a blank begins with its first field. -/
theorem exists_fields_cons {c : Char} (hc : isBlank c = false) (t : Text) :
    ∃ f fs, fields (c :: t) = (c :: f) :: fs := by
  obtain ⟨p, ps, hp⟩ := List.exists_cons_of_ne_nil (pieces_ne_nil isBlank t)
  have hunmarked : ∀ d ∈ [c], isBlank d = false := by simpa using hc
  have hpieces : pieces isBlank (c :: t) = (c :: p) :: ps := pieces_append_of_unmarked hunmarked hp
  exact ⟨p, ps.filter (· ≠ []), by simp [fields, hpieces]⟩

theorem fields_append_of_blank {b : Text} (h : ∀ c ∈ b, isBlank c = true) (t : Text) :
    (b ++ t).fields = t.fields := by
  induction b with
  | nil => rfl
  | cons c b ih =>
    obtain ⟨hc, hb⟩ := List.forall_mem_cons.mp h
    rw [← ih hb]
    exact fields_append_cons hc [] (b ++ t)

theorem fields_append_blank {b : Text} (h : ∀ c ∈ b, isBlank c = true) (t : Text) :
    (t ++ b).fields = t.fields := by
  cases b with
  | nil => rw [List.append_nil]
  | cons c b =>
    obtain ⟨hc, hb⟩ := List.forall_mem_cons.mp h
    have hnone : fields b = [] := by simpa using fields_append_of_blank hb []
    rw [fields_append_cons hc, hnone, List.append_nil]

/-- The blank space around a text is part of no field. -/
theorem fields_trim (t : Text) : t.trim.fields = t.fields := by
  have hstart : t.trimStart.fields = t.fields := by
    rw [← fields_append_of_blank (fun _ h => List.mem_takeWhile_imp h) t.trimStart, trimStart,
      List.takeWhile_append_dropWhile]
  have hend : ∀ s : Text, s = s.trimEnd ++ (s.reverse.takeWhile isBlank).reverse := by
    intro s
    rw [trimEnd, ← List.reverse_append, List.takeWhile_append_dropWhile, List.reverse_reverse]
  have hblank : ∀ c ∈ (t.trimStart.reverse.takeWhile isBlank).reverse, isBlank c = true :=
    fun _ h => List.mem_takeWhile_imp (List.mem_reverse.mp h)
  rw [trim, ← hstart, ← fields_append_blank hblank t.trimStart.trimEnd, ← hend]

end PathFilter.Text
