import PathFilter.Proofs.Rule.Grammar
import Mathlib.Data.List.TakeWhile

/-!
# What a class lists

A class should hold the characters that are written in it, or hold none of them if it is negated.
The signs of operators among them are escaped, with the exception of the dash, which spans ranges.
Two dashes in a row, not at the front, are an operator all the same, the difference: what is listed
behind them is taken out of the class. This is the only way in which a listed character is lost. A
class keeps to its list exactly if no such dashes have anything but dashes behind them.

## Main definitions

* `CharClass.front`, `CharClass.behind`: the members before and behind the first difference
* `ClassMember.Doubled`: a character behind a doubled dash
* `CharClass.listed contents`: the characters that a class lists
* `CharClass.KeepsToItsList`: a class holds what it lists, or none of it if it is negated
* `CharClass.TakesOut`: a doubled dash has characters behind it

## Main results

* `CharClass.accepts_eq`: the characters of a class are those before the first difference that are
  not behind it
* `ClassMember.lists_parse_of_mem`: what is written in a class is in one of its members
* `ClassMember.lists_behind_of_doubled`, `ClassMember.exists_doubled_of_lists_behind`: a difference
  is a doubled dash
* `Rule.keepsToItsList_iff`: the classes that keep to their list
-/

namespace PathFilter

/-! ## The members before and behind a difference -/

namespace CharClass

/-- The members before the first difference. -/
def front (ms : List ClassMember) : List ClassMember := ms.takeWhile (· != .without)

/-- The members behind the first difference. Further differences among them list no character. -/
def behind (ms : List ClassMember) : List ClassMember := (ms.dropWhile (· != .without)).tail

section Members

variable {m : ClassMember} {ms : List ClassMember} {x : Char}

theorem lists_cons (m : ClassMember) (ms : List ClassMember) (x : Char) :
    lists (m :: ms) x = (m.accepts x || lists ms x) := rfl

theorem front_cons (h : m ≠ .without) (ms : List ClassMember) :
    front (m :: ms) = m :: front ms := by
  simp [front, h]

theorem behind_cons (h : m ≠ .without) (ms : List ClassMember) : behind (m :: ms) = behind ms := by
  simp [behind, h]

@[simp] theorem behind_without (ms : List ClassMember) : behind (.without :: ms) = ms := rfl

/-- A member is before the first difference or behind it. -/
theorem lists_front_or_behind (ms : List ClassMember) (x : Char) :
    lists ms x = (lists (front ms) x || lists (behind ms) x) := by
  induction ms with
  | nil => rfl
  | cons m ms ih =>
    by_cases hm : m = .without
    · subst hm
      rfl
    · rw [front_cons hm, behind_cons hm, lists_cons, lists_cons, ih, Bool.or_assoc]

/-- No list loses a character where it is cut at the differences. -/
theorem any_pieces (ms : List ClassMember) (x : Char) :
    (pieces (· == .without) ms).any (lists · x) = lists ms x := by
  induction ms with
  | nil => rfl
  | cons m ms ih =>
    by_cases hm : m = .without
    · subst hm
      rw [pieces_cons_mark rfl, List.any_cons, ih]
      rfl
    · obtain ⟨p, ps, hp⟩ := ClassPart.exists_pieces ms
      rw [hp, List.any_cons] at ih
      rw [ClassPart.pieces_cons_member hm hp, List.any_cons, lists_cons, lists_cons, Bool.or_assoc,
        ih]

/-- The first list stands before the first difference, and all others together stand behind it. -/
theorem pieces_eq_front {p : List ClassMember} {ps : List (List ClassMember)}
    (h : pieces (· == .without) ms = p :: ps) :
    p = front ms ∧ ps.any (lists · x) = lists (behind ms) x := by
  induction ms generalizing p ps with
  | nil =>
    obtain ⟨rfl, rfl⟩ := by simpa using h
    exact ⟨rfl, rfl⟩
  | cons m ms ih =>
    by_cases hm : m = .without
    · subst hm
      rw [pieces_cons_mark rfl] at h
      cases h
      exact ⟨rfl, any_pieces ms x⟩
    · obtain ⟨q, qs, hq⟩ := ClassPart.exists_pieces ms
      rw [ClassPart.pieces_cons_member hm hq] at h
      cases h
      obtain ⟨hfront, hbehind⟩ := ih hq
      rw [front_cons hm, behind_cons hm, ← hfront]
      exact ⟨rfl, hbehind⟩

/-- **The characters of a class** are those before the first difference that are not behind it, or,
if the class is negated, all others. -/
theorem accepts_eq (negated : Bool) (ms : List ClassMember) (x : Char) :
    accepts ⟨negated, ms⟩ x = ((lists (front ms) x && !lists (behind ms) x) != negated) := by
  obtain ⟨p, ps, h⟩ := ClassPart.exists_pieces ms
  obtain ⟨rfl, hbehind⟩ := pieces_eq_front (x := x) h
  rw [accepts, h]
  simp only [← hbehind, List.not_any_eq_all_not]

/-- **A class accepts a character that it lists** if it is not negated and the character is not
behind a difference, and otherwise it accepts it if it is negated and the character is. -/
theorem accepts_eq_of_lists (negated : Bool) (h : lists ms x = true) :
    accepts ⟨negated, ms⟩ x = (!lists (behind ms) x != negated) := by
  rw [lists_front_or_behind] at h
  rw [accepts_eq]
  cases hb : lists (behind ms) x <;> simp_all

end Members

end CharClass

/-! ## Members and what is written -/

namespace ClassMember

open CharClass (lists behind lists_cons behind_cons behind_without)

variable {text : Text} {x : Char}

/-- **What is written in a class is in one of its members**, the dashes aside, if no range is
backward. -/
theorem lists_parse_of_mem (hsound : ∀ m ∈ parse text, m.isBackward = false) (hx : x ∈ text)
    (hdash : x ≠ '-') : lists (parse text) x = true := by
  fun_induction parse text with
  | case1 => cases hx
  | case2 rest ih =>
    have hrest : x ∈ rest := by simpa [hdash] using hx
    rw [lists_cons, ih (fun m hm => hsound m (by simp [hm])) hrest, Bool.or_true]
  | case3 c rest hc ih =>
    rw [lists_cons, lists_cons]
    rcases List.mem_cons.mp hx with rfl | hx
    · simp [accepts]
    · have hrest : x ∈ rest := by simpa [hdash] using hx
      rw [ih (fun m hm => hsound m (by simp [hm])) hrest, Bool.or_true, Bool.or_true]
  | case4 low high rest hl hh ih =>
    have hascending : low.val ≤ high.val := by
      have hrange := hsound (range low high) (by simp)
      simpa [isBackward] using hrange
    rw [lists_cons]
    obtain rfl | rfl | hrest : x = low ∨ x = high ∨ x ∈ rest := by simpa [hdash] using hx
    · simp [accepts, hascending]
    · simp [accepts, hascending]
    · rw [ih (fun m hm => hsound m (by simp [hm])) hrest, Bool.or_true]
  | case5 c rest h1 h2 h3 ih =>
    rw [lists_cons]
    rcases List.mem_cons.mp hx with rfl | hrest
    · simp [accepts]
    · rw [ih (fun m hm => hsound m (by simp [hm])) hrest, Bool.or_true]

/-- Where a member holds more than a dash, more than dashes are written. -/
theorem exists_mem_of_lists_parse (h : lists (parse text) x = true) (hdash : x ≠ '-') :
    ∃ y ∈ text, y ≠ '-' := by
  fun_induction parse text with
  | case1 => cases h
  | case2 rest ih =>
    obtain ⟨y, hy, hne⟩ := ih h
    exact ⟨y, by simp [hy], hne⟩
  | case3 c rest hc ih => exact ⟨c, by simp, fun he => hc he⟩
  | case4 low high rest hl hh ih => exact ⟨low, by simp, fun he => hl he⟩
  | case5 c rest h1 h2 h3 ih =>
    rw [lists_cons, Bool.or_eq_true] at h
    rcases h with hfirst | hlater
    · obtain rfl : x = c := by simpa [accepts] using hfirst
      exact ⟨x, by simp, hdash⟩
    · obtain ⟨y, hy, hne⟩ := ih hlater
      exact ⟨y, by simp [hy], hne⟩

/-- Whether two dashes in a row have a character behind them that is no dash. -/
def Doubled (text : Text) (x : Char) : Prop :=
  ∃ u v, text = u ++ '-' :: '-' :: v ∧ x ∈ v ∧ x ≠ '-'

theorem Doubled.cons (h : Doubled text x) (c : Char) : Doubled (c :: text) x := by
  obtain ⟨u, v, rfl, hx, hdash⟩ := h
  exact ⟨c :: u, v, rfl, hx, hdash⟩

/-- A character in front that begins no doubled dash may be left out. -/
theorem Doubled.tail {c : Char} (h : Doubled (c :: text) x)
    (hc : ∀ rest, c = '-' → text ≠ '-' :: rest) : Doubled text x := by
  obtain ⟨u, v, htext, hx, hdash⟩ := h
  cases u with
  | nil =>
    obtain ⟨rfl, rfl⟩ := by simpa using htext
    exact absurd rfl (hc v rfl)
  | cons d u =>
    obtain ⟨-, rfl⟩ := by simpa using htext
    exact ⟨u, v, rfl, hx, hdash⟩

theorem Doubled.mem (h : Doubled text x) : x ∈ text := by
  obtain ⟨u, v, rfl, hx, -⟩ := h
  simp [hx]

/-- What is behind a doubled dash is behind the first one. -/
theorem Doubled.mem_rest {rest : Text} (h : Doubled ('-' :: '-' :: rest) x) : x ∈ rest := by
  have hdash : x ≠ '-' := h.choose_spec.choose_spec.2.2
  simpa [hdash] using h.mem

/-- **What is written behind a doubled dash is behind a difference**, if no range is backward. -/
theorem lists_behind_of_doubled (hsound : ∀ m ∈ parse text, m.isBackward = false)
    (h : Doubled text x) : lists (behind (parse text)) x = true := by
  have hdash : x ≠ '-' := h.choose_spec.choose_spec.2.2
  fun_induction parse text with
  | case1 => exact absurd h.mem (by simp)
  | case2 rest ih =>
    rw [behind_without]
    exact lists_parse_of_mem (fun m hm => hsound m (by simp [hm])) h.mem_rest hdash
  | case3 c rest hc ih =>
    rw [behind_cons (by simp), behind_without]
    have hrest := (h.tail fun _ he => absurd he hc).mem_rest
    exact lists_parse_of_mem (fun m hm => hsound m (by simp [hm])) hrest hdash
  | case4 low high rest hl hh ih =>
    rw [behind_cons (by simp)]
    -- no dash of a range is doubled, so the doubled one stands behind the range
    have hhigh := (h.tail fun _ he => absurd he hl).tail fun _ _ he => hh (List.cons.inj he).1
    exact ih (fun m hm => hsound m (by simp [hm])) (hhigh.tail fun _ he => absurd he hh)
  | case5 c rest h1 h2 h3 ih =>
    rw [behind_cons (by simp)]
    exact ih (fun m hm => hsound m (by simp [hm])) (h.tail fun r he hr => h1 r he hr)

/-- **What is behind a difference was written behind a doubled dash.** -/
theorem exists_doubled_of_lists_behind (h : lists (behind (parse text)) x = true)
    (hdash : x ≠ '-') : ∃ y, Doubled text y := by
  fun_induction parse text with
  | case1 => cases h
  | case2 rest ih =>
    rw [behind_without] at h
    obtain ⟨y, hy, hne⟩ := exists_mem_of_lists_parse h hdash
    exact ⟨y, [], rest, rfl, hy, hne⟩
  | case3 c rest hc ih =>
    rw [behind_cons (by simp), behind_without] at h
    obtain ⟨y, hy, hne⟩ := exists_mem_of_lists_parse h hdash
    exact ⟨y, [c], rest, rfl, hy, hne⟩
  | case4 low high rest hl hh ih =>
    rw [behind_cons (by simp)] at h
    obtain ⟨y, hy⟩ := ih h
    exact ⟨y, ((hy.cons high).cons '-').cons low⟩
  | case5 c rest h1 h2 h3 ih =>
    rw [behind_cons (by simp)] at h
    obtain ⟨y, hy⟩ := ih h
    exact ⟨y, hy.cons c⟩

/-! ### The dashes at the front -/

/-- A text without the dashes at its front. -/
def undashed (text : Text) : Text := text.dropWhile (· == '-')

/-- The dashes at the front are members of their own. -/
theorem parseBody_eq (text : Text) :
    parseBody text = (text.takeWhile (· == '-')).map single ++ parse (undashed text) := by
  fun_induction parseBody text with
  | case1 rest ih => simp [undashed, ih]
  | case2 text h =>
    have hhead : ∀ rest, text ≠ '-' :: rest := fun rest he => h rest he
    cases text with
    | nil => rfl
    | cons c text =>
      have hc : (c == '-') = false := by
        rw [beq_eq_false_iff_ne]
        rintro rfl
        exact hhead text rfl
      simp [undashed, hc]

theorem mem_undashed (hx : x ∈ text) (hdash : x ≠ '-') : x ∈ undashed text := by
  rw [← List.takeWhile_append_dropWhile (p := (· == '-')) (l := text), List.mem_append] at hx
  refine hx.resolve_left fun hfront => hdash ?_
  simpa using List.mem_takeWhile_imp hfront

theorem behind_parseBody (text : Text) :
    behind (parseBody text) = behind (parse (undashed text)) := by
  rw [parseBody_eq]
  induction text.takeWhile (· == '-') with
  | nil => rfl
  | cons c front ih => rw [List.map_cons, List.cons_append, behind_cons (by simp), ih]

end ClassMember

/-! ## What a class lists -/

namespace CharClass

open ClassMember (Doubled parseBody undashed)

variable {contents : Text} {x : Char}

/-- The characters that a class lists, its mark aside. -/
def listed (contents : Text) : Text := if IsMarked contents then contents.tail else contents

/-- **Whether a class keeps to its list**: it holds all that it lists, the dash aside, or none of it
if it is negated. The contents mean what they mean in a regular expression. -/
def KeepsToItsList (contents : Text) : Prop :=
  ∃ e, ClassExpression.read? (written contents) = some e ∧
    ∀ x ∈ listed contents, x ≠ '-' → (e.accepts x = true ↔ ¬ IsMarked contents)

/-- **Whether two dashes in a row take characters out of a class.** The dashes at the front are
members. -/
def TakesOut (contents : Text) : Prop := ∃ x, Doubled (undashed (listed contents)) x

theorem ofContents_eq (contents : Text) :
    ofContents contents = ⟨decide (IsMarked contents), parseBody (listed contents)⟩ := by
  by_cases hmarked : IsMarked contents
  · obtain ⟨c, members, rfl, hc⟩ := hmarked.exists_cons
    rw [ofContents_cons hc, listed, if_pos hmarked, decide_eq_true hmarked]
    rfl
  · rw [ofContents_of_not_isMarked hmarked, listed, if_neg hmarked, decide_eq_false hmarked]

/-- What a class lists is in one of its members, the dash aside. -/
theorem lists_of_mem_listed (hsound : ∀ m ∈ (ofContents contents).members, m.isBackward = false)
    (hx : x ∈ listed contents) (hdash : x ≠ '-') :
    lists (ofContents contents).members x = true := by
  rw [ofContents_eq, ClassMember.parseBody_eq] at hsound ⊢
  have hparse := ClassMember.lists_parse_of_mem
    (fun m hm => hsound m (List.mem_append_right _ hm)) (ClassMember.mem_undashed hx hdash) hdash
  rw [lists, List.any_append, ← lists, ← lists, hparse, Bool.or_true]

/-- **A class has a listed character on the side where it belongs** unless the character is behind a
difference. -/
theorem accepts_iff_of_mem_listed
    (hsound : ∀ m ∈ (ofContents contents).members, m.isBackward = false)
    (hx : x ∈ listed contents) (hdash : x ≠ '-') :
    ((ofContents contents).accepts x = true ↔ ¬ IsMarked contents) ↔
      lists (behind (ofContents contents).members) x = false := by
  have haccepts := accepts_eq_of_lists (ofContents contents).negated
    (lists_of_mem_listed hsound hx hdash)
  rw [haccepts]
  have hnegated : (ofContents contents).negated = decide (IsMarked contents) := by
    rw [ofContents_eq]
  rw [hnegated]
  by_cases hmarked : IsMarked contents <;>
    cases lists (behind (ofContents contents).members) x <;> simp [hmarked]

/-- Dashes take characters out exactly if a listed character is behind a difference. -/
theorem takesOut_iff (hsound : ∀ m ∈ (ofContents contents).members, m.isBackward = false) :
    TakesOut contents ↔ ∃ x ∈ listed contents, x ≠ '-' ∧
      lists (behind (ofContents contents).members) x = true := by
  rw [ofContents_eq] at hsound ⊢
  simp only [ClassMember.behind_parseBody]
  simp only [ClassMember.parseBody_eq] at hsound
  constructor
  · rintro ⟨x, hdoubled⟩
    have hbehind := ClassMember.lists_behind_of_doubled
      (fun m hm => hsound m (List.mem_append_right _ hm)) hdoubled
    exact ⟨x, (List.dropWhile_sublist _).subset hdoubled.mem, hdoubled.choose_spec.choose_spec.2.2,
      hbehind⟩
  · rintro ⟨x, -, hdash, hbehind⟩
    exact ClassMember.exists_doubled_of_lists_behind hbehind hdash

/-- **A class keeps to its list exactly if no dashes take anything out of it.** -/
theorem keepsToItsList_iff_not_takesOut
    (hsound : ∀ m ∈ (ofContents contents).members, m.isBackward = false) :
    KeepsToItsList contents ↔ ¬ TakesOut contents := by
  obtain ⟨e, he, haccepts⟩ := ClassExpression.read?_written contents
  rw [takesOut_iff hsound]
  constructor
  · rintro ⟨e', he', hkeeps⟩ ⟨x, hx, hdash, hbehind⟩
    obtain rfl := Option.some.inj (he'.symm.trans he)
    have hside := hkeeps x hx hdash
    rw [haccepts, accepts_iff_of_mem_listed hsound hx hdash, hbehind] at hside
    cases hside
  · intro hnone
    refine ⟨e, he, fun x hx hdash => ?_⟩
    rw [haccepts, accepts_iff_of_mem_listed hsound hx hdash, ← Bool.not_eq_true]
    intro hbehind
    exact hnone ⟨x, hx, hdash, hbehind⟩

end CharClass

namespace Rule

open CharClass (KeepsToItsList TakesOut IsMarked listed lists behind written ofContents)

/-- No range of a rule is backward. -/
theorem isBackward_eq_false {r : Rule} {contents : Text}
    (h : Glob.HasClass r.expression.core contents) :
    ∀ m ∈ (ofContents contents).members, m.isBackward = false := by
  intro m hm
  have hsound : (Glob.parse r.expression.core).isSound = true :=
    (Glob.isSound_iff _).mpr (r.expression.fault?_eq_none_iff.mp r.fault?_eq_none)
  have hclass := List.all_eq_true.mp hsound _ (Glob.mem_parse_iff.mpr ⟨contents, h, rfl⟩)
  simpa using List.all_eq_true.mp hclass m hm

/-- **The classes that keep to their list** are those in which no doubled dash has more than dashes
behind it, the dashes at the front aside. In any other class the listed characters behind the first
difference are lost, and no others. The difference is the only operator that a written class has. -/
theorem keepsToItsList_iff {r : Rule} {contents : Text}
    (h : Glob.HasClass r.expression.core contents) :
    (KeepsToItsList contents ↔ ¬ TakesOut contents) ∧
      ∃ e, ClassExpression.read? (written contents) = some e ∧
        (∀ o, .operator o ∈ e.parts → o = .difference) ∧
        ∀ x ∈ listed contents, x ≠ '-' →
          ((e.accepts x = true ↔ ¬ IsMarked contents) ↔
            lists (behind (ofContents contents).members) x = false) := by
  have hsound := isBackward_eq_false h
  refine ⟨CharClass.keepsToItsList_iff_not_takesOut hsound, _,
    ClassExpression.read?_written_eq contents, fun o ho => ?_, fun x hx hdash => ?_⟩
  · obtain ⟨m, -, hm⟩ := List.mem_map.mp ho
    cases m <;> cases hm
    rfl
  · rw [ClassExpression.accepts_ofMember]
    exact CharClass.accepts_iff_of_mem_listed hsound hx hdash

/-- The signs of all other operators are members like any others, also in a negated class. -/
theorem keepsToItsList_iff_signs :
    ∃ r : Rule, r.expression = .ofText "[!&&~~^[]".toList ∧
      Glob.HasClass r.expression.core "!&&~~^[".toList ∧ KeepsToItsList "!&&~~^[".toList := by
  let r : Rule := ⟨.exclude, .ordinary, .ofText "[!&&~~^[]".toList, by decide, by decide +kernel⟩
  have hclass : Glob.HasClass r.expression.core "!&&~~^[".toList :=
    .here (g := "!&&~~^[]".toList) (n := 7) (by decide)
  refine ⟨r, rfl, hclass, (keepsToItsList_iff hclass).1.mpr ?_⟩
  rintro ⟨x, u, v, htext, -⟩
  have hdash : '-' ∈ u ++ '-' :: '-' :: v := by simp
  rw [← htext] at hdash
  exact absurd hdash (by decide)

/-- Not every class keeps to its list: two dashes take the second of two letters out. -/
theorem not_forall_keepsToItsList :
    ¬ ∀ (r : Rule) (contents : Text), Glob.HasClass r.expression.core contents →
      KeepsToItsList contents := by
  intro h
  let r : Rule := ⟨.exclude, .ordinary, .ofText "[a--b]".toList, by decide, by decide +kernel⟩
  obtain ⟨e, he, hkeeps⟩ := h r "a--b".toList (.here (g := "a--b]".toList) (n := 4) (by decide))
  obtain ⟨e', he', haccepts⟩ := ClassExpression.read?_written "a--b".toList
  obtain rfl := Option.some.inj (he.symm.trans he')
  have hb := (hkeeps 'b' (by decide) (by decide)).mpr (by decide)
  rw [haccepts] at hb
  exact absurd hb (by decide)

end Rule

end PathFilter
