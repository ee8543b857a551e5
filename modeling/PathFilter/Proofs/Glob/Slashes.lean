import PathFilter.Proofs.Glob.Expression

/-!
# The slashes of a glob

Each token of a glob has so many slashes in every text that it stands for. A single star and a
question mark have none, a character has one if it is the slash. Only a class can have one more, if
it takes a slash among other characters, and a run of stars has any number. So the slashes in the
texts of a glob lie between two numbers, and both are reached.

## Main definitions

* `GlobToken.slashes`, `Glob.slashes`: the slashes that every text of a token and of a glob has
* `GlobToken.spare`, `Glob.spare`: those that a text may have besides

## Main results

* `Glob.count_of_spells`, `Glob.exists_spells`: how many slashes the texts of a glob have
* `Glob.slashes_parse`: the slashes of a text are those of its tokens
* `Glob.getLast?_of_spells`, `Glob.getLast?_parse`: the texts of a glob for directories end with a
  slash
-/

namespace PathFilter

/-! ## The slashes of a token -/

namespace GlobToken

/-- The slashes that every text of a token has. -/
def slashes : GlobToken → Nat
  | literal c => if c = '/' then 1 else 0
  | _ => 0

/-- The slashes that a text of a token may have besides, runs of stars aside. -/
def spare : GlobToken → Nat
  | oneOf cls => if cls.accepts '/' then 1 else 0
  | _ => 0

variable {token : GlobToken} {t : Text}

/-- **The slashes in a text of a token** are those that it must have and perhaps the spare one. -/
theorem count_of_spells (htoken : token ≠ globstar) (h : token.Spells t) :
    token.slashes ≤ t.count '/' ∧ t.count '/' ≤ token.slashes + token.spare := by
  cases token with
  | literal c =>
    obtain rfl : t = [c] := h
    simp [slashes, spare, List.count_singleton]
  | anyOne =>
    obtain ⟨c, hc, rfl⟩ := h
    simp [slashes, spare, hc]
  | star =>
    have hnone : t.count '/' = 0 := List.count_eq_zero.mpr h
    simp [slashes, hnone]
  | globstar => exact absurd rfl htoken
  | oneOf cls =>
    obtain ⟨c, hc, rfl⟩ := h
    refine ⟨Nat.zero_le _, ?_⟩
    by_cases hslash : c = '/'
    · subst hslash
      simp [slashes, spare, hc]
    · simp [hslash]

/-- Some text of a token has the spare slash, unless the token is a class without characters. -/
theorem exists_spells (h : ∀ cls, token = oneOf cls → ∃ x, cls.accepts x = true) :
    ∃ t, token.Spells t ∧ t.count '/' = token.slashes + token.spare := by
  cases token with
  | literal c => exact ⟨[c], rfl, by simp [slashes, spare, List.count_singleton]⟩
  | anyOne => exact ⟨['x'], ⟨'x', by decide, rfl⟩, rfl⟩
  | star => exact ⟨[], List.not_mem_nil, rfl⟩
  | globstar => exact ⟨[], List.not_mem_nil, rfl⟩
  | oneOf cls =>
    by_cases hslash : cls.accepts '/' = true
    · exact ⟨['/'], ⟨'/', hslash, rfl⟩, by simp [slashes, spare, hslash]⟩
    · obtain ⟨x, hx⟩ := h cls rfl
      have hne : x ≠ '/' := by
        rintro rfl
        exact hslash hx
      exact ⟨[x], ⟨x, hx, rfl⟩, by simp [slashes, spare, hslash, hne]⟩

end GlobToken

/-! ## The slashes of a glob -/

namespace Glob

/-- The slashes that every text of a glob has. -/
def slashes : Glob → Nat
  | [] => 0
  | token :: g => token.slashes + slashes g

/-- The slashes that a text of a glob may have besides, runs of stars aside. -/
def spare : Glob → Nat
  | [] => 0
  | token :: g => token.spare + spare g

@[simp] theorem slashes_cons (token : GlobToken) (g : Glob) :
    slashes (token :: g) = token.slashes + slashes g := rfl

@[simp] theorem spare_cons (token : GlobToken) (g : Glob) :
    spare (token :: g) = token.spare + spare g := rfl

/-- **The slashes in a text of a glob**, if it has no run of stars. -/
theorem count_of_spells {g : Glob} {t : Text} (hg : .globstar ∉ g) (h : Spells g t) :
    g.slashes ≤ t.count '/' ∧ t.count '/' ≤ g.slashes + g.spare := by
  induction h with
  | nil => exact ⟨le_rfl, Nat.zero_le _⟩
  | cons ht _ ih =>
    obtain ⟨htoken, hrest⟩ := not_or.mp (List.mem_cons.not.mp hg)
    obtain ⟨hleast, hmost⟩ := GlobToken.count_of_spells (Ne.symm htoken) ht
    obtain ⟨ihleast, ihmost⟩ := ih hrest
    simp only [slashes_cons, spare_cons, List.count_append]
    omega

/-- **Some text of a glob has all spare slashes**, unless a class is without characters. -/
theorem exists_spells {g : Glob} (h : ∀ cls, .oneOf cls ∈ g → ∃ x, cls.accepts x = true) :
    ∃ t, Spells g t ∧ t.count '/' = g.slashes + g.spare := by
  induction g with
  | nil => exact ⟨[], .nil, rfl⟩
  | cons token g ih =>
    obtain ⟨t, ht, hcount⟩ := token.exists_spells fun cls hcls => h cls (by simp [hcls])
    obtain ⟨u, hu, hrest⟩ := ih fun cls hcls => h cls (List.mem_cons_of_mem _ hcls)
    refine ⟨t ++ u, .cons ht hu, ?_⟩
    rw [List.count_append, hcount, hrest, slashes_cons, spare_cons]
    omega

/-- A glob has no spare slash exactly if no class takes one. -/
theorem spare_eq_zero_iff {g : Glob} :
    g.spare = 0 ↔ ∀ cls, .oneOf cls ∈ g → cls.accepts '/' = false := by
  have hspare : ∀ token : GlobToken,
      token.spare = 0 ↔ ∀ cls, token = .oneOf cls → cls.accepts '/' = false := by
    intro token
    cases token <;> simp [GlobToken.spare]
  induction g with
  | nil => simp [spare]
  | cons token g ih =>
    rw [spare_cons, Nat.add_eq_zero_iff, hspare]
    simp only [ih, List.mem_cons, or_imp, forall_and, @eq_comm _ token]

/-- No text is spelled by a class without characters. -/
theorem not_spells_of_mem {g : Glob} {cls : CharClass} (h : .oneOf cls ∈ g)
    (hcls : ∀ x, cls.accepts x = false) (t : Text) : ¬ Spells g t := by
  intro hs
  induction hs with
  | nil => cases h
  | cons ht _ ih =>
    rcases List.mem_cons.mp h with rfl | hlater
    · obtain ⟨x, hx, -⟩ := ht
      rw [hcls] at hx
      cases hx
    · exact ih hlater

end Glob

/-! ## The slashes of a text -/

namespace CharClass

theorem getElem?_of_membersEnd? {text : Text} {n : Nat} (h : membersEnd? text = some n) :
    text[n]? = some ']' := by
  obtain ⟨m, hm, rfl⟩ := Option.map_eq_some_iff.mp h
  obtain ⟨hlt, hget, -⟩ := List.idxOf?_eq_some_iff.mp hm
  rw [← List.getElem?_drop, List.getElem?_eq_getElem hlt, hget]

/-- What closes a class is a bracket. -/
theorem eq_of_closing? {g : Text} {n : Nat} (h : closing? g = some n) :
    g = g.take n ++ ']' :: g.drop (n + 1) := by
  have hbracket : g[n]? = some ']' := by
    by_cases hmarked : IsMarked g
    · obtain ⟨c, rest, rfl, -⟩ := hmarked.exists_cons
      rw [closing?, if_pos hmarked] at h
      obtain ⟨m, hm, rfl⟩ := Option.map_eq_some_iff.mp h
      rw [Nat.add_comm, List.getElem?_cons_succ]
      exact getElem?_of_membersEnd? hm
    · rw [closing?, if_neg hmarked] at h
      exact getElem?_of_membersEnd? h
  obtain ⟨hlt, hget⟩ := List.getElem?_eq_some_iff.mp hbracket
  rw [← hget, ← List.drop_eq_getElem_cons hlt, List.take_append_drop]

end CharClass

namespace Glob

theorem slashes_consStar (g : Glob) : (consStar g).slashes = g.slashes := by
  unfold consStar
  split <;> simp [slashes, GlobToken.slashes]

/-- **The slashes of a text are those of its tokens**, if no class lists one. -/
theorem slashes_parse {g : Text} (h : ∀ contents, HasClass g contents → '/' ∉ contents) :
    (parse g).slashes = g.count '/' := by
  fun_induction parse g with
  | case1 => rfl
  | case2 rest ih =>
    rw [slashes_cons, ih fun contents hc => h contents (.plain (by decide) hc)]
    simp [GlobToken.slashes]
  | case3 rest ih =>
    rw [slashes_consStar, ih fun contents hc => h contents (.plain (by decide) hc)]
    simp
  | case4 rest cls after hr ih =>
    rw [CharClass.read?_eq] at hr
    obtain ⟨n, hn, he⟩ := Option.map_eq_some_iff.mp hr
    cases he
    have hlisted : (rest.take n).count '/' = 0 := List.count_eq_zero.mpr (h _ (.here hn))
    rw [slashes_cons, ih fun contents hc => h contents (.later hn hc)]
    conv_rhs => rw [CharClass.eq_of_closing? hn]
    simp [GlobToken.slashes, hlisted]
  | case5 rest hr ih =>
    rw [CharClass.read?_eq, Option.map_eq_none_iff] at hr
    rw [slashes_cons, ih fun contents hc => h contents (.bracket hr hc)]
    simp [GlobToken.slashes]
  | case6 => rfl
  | case7 c rest ih =>
    rw [slashes_cons, ih fun contents hc => h contents (.escaped hc)]
    by_cases hc : c = '/' <;> simp [GlobToken.slashes, hc, Nat.add_comm]
  | case8 c rest h1 h2 h3 h4 h5 ih =>
    have hplain := not_mem_of_parse h3 h4 h5
    rw [slashes_cons, ih fun contents hc => h contents (.plain hplain hc)]
    by_cases hc : c = '/' <;> simp [GlobToken.slashes, hc, Nat.add_comm]

/-- Two stars in a row make up a run of stars. -/
theorem isInfix_of_globstar_mem {g : Text} (h : .globstar ∈ parse g) : ['*', '*'] <:+: g := by
  fun_induction parse g with
  | case1 => cases h
  | case2 rest ih => exact (ih (by simpa using h)).trans (List.suffix_cons _ _).isInfix
  | case3 rest ih =>
    -- the run of stars is there already, or this star and the next one begin it
    by_cases hrest : .globstar ∈ parse rest
    · exact (ih hrest).trans (List.suffix_cons _ _).isInfix
    · by_cases hhead : rest.head? = some '*'
      · obtain ⟨rest', rfl⟩ := List.head?_eq_some_iff.mp hhead
        exact (List.prefix_append ['*', '*'] rest').isInfix
      · rw [consStar_of_not_beginsWithStar (not_beginsWithStar_parse hhead)] at h
        exact absurd (by simpa using h) hrest
  | case4 rest cls after hr ih =>
    rw [CharClass.read?_eq] at hr
    obtain ⟨n, hn, he⟩ := Option.map_eq_some_iff.mp hr
    cases he
    exact (ih (by simpa using h)).trans
      ((List.drop_suffix _ _).trans (List.suffix_cons _ _)).isInfix
  | case5 rest hr ih => exact (ih (by simpa using h)).trans (List.suffix_cons _ _).isInfix
  | case6 => simp at h
  | case7 c rest ih =>
    exact (ih (by simpa using h)).trans
      ((List.suffix_cons _ _).trans (List.suffix_cons _ _)).isInfix
  | case8 c rest h1 h2 h3 h4 h5 ih =>
    exact (ih (by simpa using h)).trans (List.suffix_cons _ _).isInfix

/-! ### The slash at the end -/

theorem getLast?_consStar {g : Glob} {c : Char} (h : g.getLast? = some (.literal c)) :
    (consStar g).getLast? = some (.literal c) := by
  cases g with
  | nil => cases h
  | cons token g =>
    cases g with
    | nil =>
      obtain rfl : token = .literal c := by simpa using h
      rfl
    | cons token' g =>
      rw [List.getLast?_cons_cons] at h
      cases token <;> simp only [consStar, List.getLast?_cons_cons, h]

/-- The last token of a text that ends with a slash is that slash. -/
theorem getLast?_parse {g : Text} (h : g.getLast? = some '/') :
    (parse g).getLast? = some (.literal '/') := by
  have hrest : ∀ {c : Char} {rest : Text}, c ≠ '/' → (c :: rest).getLast? = some '/' →
      rest.getLast? = some '/' := by
    intro c rest hc hlast
    cases rest with
    | nil => exact absurd (by simpa using hlast) hc
    | cons d rest => rwa [List.getLast?_cons_cons] at hlast
  fun_induction parse g with
  | case1 => cases h
  | case2 rest ih => simp [List.getLast?_cons, ih (hrest (by decide) h)]
  | case3 rest ih => exact getLast?_consStar (ih (hrest (by decide) h))
  | case4 rest cls after hr ih =>
    rw [CharClass.read?_eq] at hr
    obtain ⟨n, hn, he⟩ := Option.map_eq_some_iff.mp hr
    cases he
    rw [CharClass.eq_of_closing? hn, ← List.cons_append, List.getLast?_append,
      List.getLast?_cons, Option.some_or] at h
    have hafter : (rest.drop (n + 1)).getLast? = some '/' :=
      hrest (c := ']') (by decide) (by rw [List.getLast?_cons, h])
    simp [List.getLast?_cons, ih hafter]
  | case5 rest hr ih => simp [List.getLast?_cons, ih (hrest (by decide) h)]
  | case6 => cases h
  | case7 c rest ih =>
    have hlast := hrest (by decide) h
    cases rest with
    | nil =>
      obtain rfl : c = '/' := by simpa using hlast
      simp
    | cons d rest =>
      rw [List.getLast?_cons_cons] at hlast
      simp [List.getLast?_cons, ih hlast]
  | case8 c rest h1 h2 h3 h4 h5 ih =>
    cases rest with
    | nil =>
      obtain rfl : c = '/' := by simpa using h
      simp
    | cons d rest =>
      rw [List.getLast?_cons_cons] at h
      simp [List.getLast?_cons, ih h]

/-- A text of a glob ends with the character that the glob ends with. -/
theorem getLast?_of_spells {g : Glob} {t : Text} {c : Char} (hg : g.getLast? = some (.literal c))
    (h : Spells g t) : t.getLast? = some c := by
  induction h with
  | nil => cases hg
  | @cons token g t u ht hu ih =>
    cases g with
    | nil =>
      obtain rfl : token = .literal c := by simpa using hg
      obtain rfl : t = [c] := ht
      obtain rfl := spells_nil_iff.mp hu
      rfl
    | cons token' g =>
      rw [List.getLast?_cons_cons] at hg
      rw [List.getLast?_append, ih hg, Option.some_or]

end Glob

end PathFilter
