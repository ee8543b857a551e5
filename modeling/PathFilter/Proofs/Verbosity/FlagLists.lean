import Mathlib.Data.List.Induction
import Mathlib.Data.Nat.Digits.Defs
import PathFilter.Verbosity.Token

/-!
# Lists of flag tokens

A list of flag tokens is cut at its commas, and the tokens are applied one after the other until one
is refused. A token is accepted if it is a name of the family, with a number up to 255 behind it or
with none. Each flag ends up with the level of the last token in force that is about it, and keeps
its level if there is none.

## Main definitions

* `FlagToken.IsName`, `FlagToken.number`: the names of a family, and the number that digits spell
* `FlagToken.IsAccepted`: the tokens that are accepted
* `FlagToken.Sets`: the level that a token gives to a flag
* `Verbosity.Settled`: the level of a flag after some tokens, as the last of them has it

## Main results

* `FlagToken.reads_iff_parse`: a token is taken apart where its digits start, and nowhere else
* `Verbosity.level_applyToken`: what one token does to the levels
* `Verbosity.settled_applyTokens`: what some tokens do to the levels
* `Verbosity.applyList_settles`: what a list of tokens does, whether or not one is refused
-/

namespace PathFilter

/-- The pieces between the marks are those of the library. -/
theorem pieces_eq_splitOnP {α : Type} (isMark : α → Bool) (xs : List α) :
    pieces isMark xs = xs.splitOnP isMark := by
  induction xs with
  | nil => rfl
  | cons x xs ih =>
    rw [pieces, List.splitOnP_cons_eq_if_modifyHead, ← ih]
    split
    · rfl
    · rcases hp : pieces isMark xs with _ | ⟨p, ps⟩
      · exact absurd hp (pieces_ne_nil isMark xs)
      · rfl

/-- Flags of one family that have one name are the same. -/
theorem Flag.eq_of_name {flag other : Flag} (hf : flag.family = other.family)
    (hname : flag.name.toList = other.name.toList) : flag = other := by
  have h := named?_name flag
  rw [hf, hname, named?_name] at h
  exact (Option.some.inj h).symm

namespace FlagToken

/-! ## The form of a token -/

/-- **A name of a family**: that of one of its flags, or one for all of them. -/
inductive IsName (f : Family) : Text → Prop where
  | all : IsName f "all".toList
  | none : IsName f "none".toList
  | flag {flag : Flag} (h : flag ∈ Flag.ofFamily f) : IsName f flag.name.toList

/-- **The number that decimal digits spell**; the last digit counts ones. -/
def number (digits : Text) : Nat :=
  Nat.ofDigits 10 (digits.reverse.map fun c => c.toNat - '0'.toNat)

/-- Whether a token is a name of the family with a level behind it, or without one for level 1. -/
def Reads (f : Family) (token name : Text) (l : UInt8) : Prop :=
  IsName f name ∧ ∃ digits : Text, token = name ++ digits ∧ (∀ c ∈ digits, c.isDigit = true) ∧
    l.toNat = if digits = [] then 1 else number digits

/-- **The tokens that are accepted**: a name of the family, and behind it decimal digits that spell
a number up to 255, or nothing. -/
def IsAccepted (f : Family) (token : Text) : Prop :=
  ∃ name digits : Text, token = name ++ digits ∧ IsName f name ∧ (∀ c ∈ digits, c.isDigit = true) ∧
    number digits ≤ 255

/-- **The level that a token gives to a flag.** A token about a flag names it or all flags of its
family; `none` stands for level 0 whatever follows it. -/
inductive Sets (flag : Flag) (token : Text) : UInt8 → Prop where
  | own {l : UInt8} (h : Reads flag.family token flag.name.toList l) : Sets flag token l
  | all {l : UInt8} (h : Reads flag.family token "all".toList l) : Sets flag token l
  | none {l : UInt8} (h : Reads flag.family token "none".toList l) : Sets flag token 0

variable {f : Family} {token name digits : Text} {l : UInt8}

/-- No name is empty, and no name holds a digit. -/
theorem IsName.plain (h : IsName f name) : name ≠ [] ∧ ∀ c ∈ name, c.isDigit = false := by
  have hplain : name ≠ [] ∧ name.any Char.isDigit = false := by
    cases h with
    | all => decide
    | none => decide
    | @flag flag _ => rcases flag with (_ | _ | _ | _) | (_ | _ | _) <;> decide
  refine ⟨hplain.1, fun c hc => ?_⟩
  exact Bool.eq_false_of_not_eq_true (List.any_eq_false.mp hplain.2 c hc)

/-- A token is accepted exactly if it reads as some name and level. -/
theorem isAccepted_iff_reads : IsAccepted f token ↔ ∃ name l, Reads f token name l := by
  constructor
  · rintro ⟨name, digits, rfl, hname, hdigits, hle⟩
    by_cases hnil : digits = []
    · exact ⟨name, 1, hname, digits, rfl, hdigits, by rw [if_pos hnil]; rfl⟩
    · refine ⟨name, (number digits).toUInt8, hname, digits, rfl, hdigits, ?_⟩
      rw [if_neg hnil]
      exact Nat.mod_eq_of_lt (by omega)
  · rintro ⟨name, l, hname, digits, rfl, hdigits, hl⟩
    refine ⟨name, digits, rfl, hname, hdigits, ?_⟩
    by_cases hnil : digits = []
    · rw [hnil]
      decide
    · rw [if_neg hnil] at hl
      have := l.toNat_lt
      omega

/-- One more digit makes the number ten times as large and adds the digit. -/
theorem number_concat (digits : Text) (c : Char) :
    number (digits ++ [c]) = 10 * number digits + (c.toNat - '0'.toNat) := by
  rw [number, List.reverse_append, List.reverse_singleton, List.singleton_append, List.map_cons,
    Nat.ofDigits_cons, number]
  omega

/-- Reading the digits from the front gives the number that they spell. -/
theorem foldl_eq_number (digits : Text) :
    digits.foldl (fun n c => 10 * n + (c.toNat - '0'.toNat)) 0 = number digits := by
  induction digits using List.reverseRecOn with
  | nil => rfl
  | append_singleton digits c ih =>
    rw [List.foldl_append, ih, number_concat]
    rfl

/-- Digits spell a level exactly if their number is one. -/
theorem level?_eq_some_iff :
    level? digits = some l ↔ (∀ c ∈ digits, c.isDigit = true) ∧ l.toNat = number digits := by
  simp only [level?, foldl_eq_number, List.all_eq_true]
  have hlt := l.toNat_lt
  by_cases hdigits : ∀ c ∈ digits, c.isDigit = true
  · rw [if_pos hdigits]
    by_cases hle : number digits ≤ 255
    · have hround : (number digits).toUInt8.toNat = number digits := Nat.mod_eq_of_lt (by omega)
      simp only [if_pos hle, Option.some.injEq, ← UInt8.toNat_inj, hround]
      exact ⟨fun h => ⟨hdigits, h.symm⟩, fun h => h.2.symm⟩
    · simp only [if_neg hle, reduceCtorEq, false_iff, not_and]
      omega
  · simp [hdigits]

/-- **A token is taken apart where its digits start**, and nowhere else. -/
theorem parse_eq_ok_iff (hname : name ≠ [] ∧ ∀ c ∈ name, c.isDigit = false) :
    parse token = .ok ⟨name, l⟩ ↔
      ∃ digits, token = name ++ digits ∧ (∀ c ∈ digits, c.isDigit = true) ∧
        l.toNat = if digits = [] then 1 else number digits := by
  constructor
  · intro h
    have hcut := List.takeWhile_append_dropWhile (p := fun c => !c.isDigit) (l := token)
    rw [parse] at h
    split_ifs at h with htoken hfront hdigits
    · obtain ⟨rfl, rfl⟩ := FlagToken.mk.inj (Except.ok.inj h)
      exact ⟨[], by rw [← hdigits, hcut], by simp, rfl⟩
    · cases hl : level? (token.dropWhile fun c => !c.isDigit) with
      | none => rw [hl] at h; cases h
      | some k =>
        rw [hl] at h
        obtain ⟨rfl, rfl⟩ := FlagToken.mk.inj (Except.ok.inj h)
        obtain ⟨hall, hk⟩ := level?_eq_some_iff.mp hl
        exact ⟨_, hcut.symm, hall, by rw [if_neg hdigits, hk]⟩
  · rintro ⟨digits, rfl, hall, hl⟩
    have hletters : ∀ c ∈ name, (!c.isDigit) = true := fun c hc => by simp [hname.2 c hc]
    have htake : digits.takeWhile (fun c => !c.isDigit) = [] := by
      cases digits with
      | nil => rfl
      | cons c cs => simp [hall c]
    have hdrop : digits.dropWhile (fun c => !c.isDigit) = digits := by
      cases digits with
      | nil => rfl
      | cons c cs => simp [hall c]
    rw [parse, List.takeWhile_append_of_pos hletters, List.dropWhile_append_of_pos hletters, htake,
      hdrop, List.append_nil, if_neg (by simp [hname.1]), if_neg hname.1]
    by_cases hnil : digits = []
    · rw [if_pos hnil] at hl ⊢
      rw [UInt8.toNat_inj.mp (show l.toNat = (1 : UInt8).toNat from hl)]
    · rw [if_neg hnil] at hl ⊢
      rw [level?_eq_some_iff.mpr ⟨hall, hl⟩]

/-- A token reads as a name and a level if it is taken apart so, and the name is one of the
family. -/
theorem reads_iff_parse : Reads f token name l ↔ IsName f name ∧ parse token = .ok ⟨name, l⟩ :=
  and_congr_right fun hname => (parse_eq_ok_iff hname.plain).symm

/-- A token reads in one way at most. -/
theorem Reads.unique {name' : Text} {l' : UInt8} (h : Reads f token name l)
    (h' : Reads f token name' l') : name = name' ∧ l = l' := by
  have hparse := (reads_iff_parse.mp h).2.symm.trans (reads_iff_parse.mp h').2
  exact FlagToken.mk.inj (Except.ok.inj hparse)

/-- A flag is neither called `all` nor `none`. -/
theorem name_ne_all (flag : Flag) : flag.name.toList ≠ "all".toList := by
  rcases flag with (_ | _ | _ | _) | (_ | _ | _) <;> decide

theorem name_ne_none (flag : Flag) : flag.name.toList ≠ "none".toList := by
  rcases flag with (_ | _ | _ | _) | (_ | _ | _) <;> decide

/-- A token gives a flag one level at most. -/
theorem Sets.unique {flag : Flag} {l l' : UInt8} (h : Sets flag token l)
    (h' : Sets flag token l') : l = l' := by
  cases h with
  | own h =>
    cases h' with
    | own h' => exact (h.unique h').2
    | all h' => exact absurd (h.unique h').1 (name_ne_all flag)
    | none h' => exact absurd (h.unique h').1 (name_ne_none flag)
  | all h =>
    cases h' with
    | own h' => exact absurd (h'.unique h).1 (name_ne_all flag)
    | all h' => exact (h.unique h').2
    | none h' => exact absurd (h.unique h').1 (by decide)
  | none h =>
    cases h' with
    | own h' => exact absurd (h'.unique h).1 (name_ne_none flag)
    | all h' => exact absurd (h'.unique h).1 (by decide)
    | none h' => rfl

end FlagToken

namespace Verbosity

open FlagToken (IsName IsAccepted Reads Sets)

variable {f : Family} {token : Text} {v w : Verbosity}

/-! ## One token -/

/-- What a token that is applied does: it sets one flag or all flags of its family. -/
theorem applyToken_cases (h : v.applyToken f token = .ok w) :
    ∃ l, (Reads f token "all".toList l ∧ w = v.setAll f l) ∨
      (Reads f token "none".toList l ∧ w = v.setAll f 0) ∨
      ∃ flag : Flag, flag.family = f ∧ Reads f token flag.name.toList l ∧ w = v.set flag l := by
  unfold applyToken at h
  rcases hparse : FlagToken.parse token with fault | ⟨name, l⟩
  · rw [hparse] at h
    cases h
  · simp only [hparse] at h
    have hreads (hname : IsName f name) : Reads f token name l :=
      FlagToken.reads_iff_parse.mpr ⟨hname, hparse⟩
    refine ⟨l, ?_⟩
    split_ifs at h with hall hnone
    · subst hall
      exact .inl ⟨hreads .all, (Except.ok.inj h).symm⟩
    · subst hnone
      exact .inr (.inl ⟨hreads .none, (Except.ok.inj h).symm⟩)
    · cases hnamed : Flag.named? f name with
      | none => rw [hnamed] at h; cases h
      | some flag =>
        rw [hnamed] at h
        have hmem : flag ∈ Flag.ofFamily f := List.mem_of_find?_eq_some hnamed
        have heq : flag.name.toList = name := by simpa using List.find?_some hnamed
        subst heq
        exact .inr (.inr ⟨flag, Flag.family_of_mem_ofFamily hmem, hreads (.flag hmem),
          (Except.ok.inj h).symm⟩)

/-- **A token is applied exactly if it is accepted.** -/
theorem exists_applyToken_iff (v : Verbosity) :
    (∃ w, v.applyToken f token = .ok w) ↔ IsAccepted f token := by
  rw [FlagToken.isAccepted_iff_reads]
  constructor
  · rintro ⟨w, h⟩
    obtain ⟨l, ⟨h, -⟩ | ⟨h, -⟩ | ⟨flag, -, h, -⟩⟩ := applyToken_cases h
    · exact ⟨_, l, h⟩
    · exact ⟨_, l, h⟩
    · exact ⟨_, l, h⟩
  · rintro ⟨name, l, h⟩
    obtain ⟨hname, hparse⟩ := FlagToken.reads_iff_parse.mp h
    simp only [applyToken, hparse]
    cases hname with
    | all => exact ⟨_, rfl⟩
    | none => exact ⟨_, rfl⟩
    | @flag flag hmem =>
      have hnamed : Flag.named? f flag.name.toList = some flag := by
        rw [← Flag.family_of_mem_ofFamily hmem]
        exact Flag.named?_name flag
      rw [if_neg (FlagToken.name_ne_all flag), if_neg (FlagToken.name_ne_none flag), hnamed]
      exact ⟨_, rfl⟩

/-- **What one token does to the levels**: a flag that it is about gets the level it asks for, and
any other flag keeps its own. -/
theorem level_applyToken (h : v.applyToken f token = .ok w) (flag : Flag) :
    (flag.family = f ∧ Sets flag token (w.level flag)) ∨
      ((flag.family = f → ∀ l, ¬ Sets flag token l) ∧ w.level flag = v.level flag) := by
  obtain ⟨l, ⟨hreads, rfl⟩ | ⟨hreads, rfl⟩ | ⟨other, rfl, hreads, rfl⟩⟩ := applyToken_cases h
  · rw [level_setAll]
    by_cases hf : flag.family = f
    · subst hf
      rw [if_pos rfl]
      exact .inl ⟨rfl, .all hreads⟩
    · exact .inr ⟨fun heq => absurd heq hf, if_neg hf⟩
  · rw [level_setAll]
    by_cases hf : flag.family = f
    · subst hf
      rw [if_pos rfl]
      exact .inl ⟨rfl, .none hreads⟩
    · exact .inr ⟨fun heq => absurd heq hf, if_neg hf⟩
  · rw [level_set]
    by_cases hflag : flag = other
    · subst hflag
      rw [if_pos rfl]
      exact .inl ⟨rfl, .own hreads⟩
    · rw [if_neg hflag]
      refine .inr ⟨fun hf k hk => ?_, rfl⟩
      cases hk with
      | own hk =>
        rw [hf] at hk
        exact hflag (Flag.eq_of_name hf (hk.unique hreads).1)
      | all hk =>
        rw [hf] at hk
        exact FlagToken.name_ne_all other (hreads.unique hk).1
      | none hk =>
        rw [hf] at hk
        exact FlagToken.name_ne_none other (hreads.unique hk).1

/-! ## Lists of tokens -/

/-- **The level of a flag after some tokens**: that of the last token that is about it, or the level
it had. -/
inductive Settled (v : Verbosity) (flag : Flag) : List Text → UInt8 → Prop where
  | kept {tokens : List Text} (h : ∀ t ∈ tokens, ∀ l, ¬ Sets flag t l) :
      Settled v flag tokens (v.level flag)
  | set (before : List Text) {after : List Text} {token : Text} {l : UInt8} (h : Sets flag token l)
      (hafter : ∀ t ∈ after, ∀ k, ¬ Sets flag t k) : Settled v flag (before ++ token :: after) l

/-- After some tokens a flag has one level. -/
theorem Settled.unique {flag : Flag} {tokens : List Text} {l k : UInt8}
    (hl : Settled v flag tokens l) (hk : Settled v flag tokens k) : l = k := by
  cases hl with
  | kept hl =>
    generalize hts : tokens = ts at hk
    cases hk with
    | kept => rfl
    | set before hk =>
      subst hts
      exact absurd hk (hl _ (by simp) _)
  | @set before after token _ hl hafter =>
    generalize hts : before ++ token :: after = ts at hk
    cases hk with
    | kept hk =>
      subst hts
      exact absurd hl (hk _ (by simp) _)
    | set before' hk hafter' =>
      -- of two last tokens neither stands behind the other
      rcases List.append_eq_append_iff.mp hts with ⟨as, -, h⟩ | ⟨as, -, h⟩
      · cases as with
        | nil =>
          obtain ⟨rfl, -⟩ := List.cons.inj h
          exact hl.unique hk
        | cons t as =>
          obtain ⟨rfl, rfl⟩ := List.cons.inj h
          exact absurd hk (hafter _ (by simp) _)
      · cases as with
        | nil =>
          obtain ⟨rfl, -⟩ := List.cons.inj h
          exact hl.unique hk
        | cons t as =>
          obtain ⟨rfl, rfl⟩ := List.cons.inj h
          exact absurd hl (hafter' _ (by simp) _)

/-- A token before others, if it is applied. -/
theorem Settled.cons {flag : Flag} {tokens : List Text} {l : UInt8} (hf : flag.family = f)
    (htoken : v.applyToken f token = .ok w) (h : Settled w flag tokens l) :
    Settled v flag (token :: tokens) l := by
  cases h with
  | kept h =>
    rcases level_applyToken htoken flag with ⟨-, hset⟩ | ⟨hnot, hlevel⟩
    · exact .set [] hset h
    · rw [hlevel]
      exact .kept (List.forall_mem_cons.mpr ⟨hnot hf, h⟩)
  | set before h hafter => exact .set (token :: before) h hafter

/-- **What some tokens do**: those before the first that is refused are in force. -/
theorem applyTokens_settles (v : Verbosity) (f : Family) (tokens : List Text) :
    ∃ inForce refused, tokens = inForce ++ refused ∧ (∀ t ∈ inForce, IsAccepted f t) ∧
      (∀ t ∈ refused.head?, ¬ IsAccepted f t) ∧
      ((v.applyTokens f tokens).2 = none ↔ refused = []) ∧
      (∀ flag : Flag, flag.family = f →
        Settled v flag inForce ((v.applyTokens f tokens).1.level flag)) ∧
      ∀ flag : Flag, flag.family ≠ f →
        (v.applyTokens f tokens).1.level flag = v.level flag := by
  induction tokens generalizing v with
  | nil =>
    exact ⟨[], [], rfl, by simp, by simp, by simp, fun flag _ => .kept (by simp), fun _ _ => rfl⟩
  | cons token tokens ih =>
    rw [applyTokens]
    cases htoken : v.applyToken f token with
    | error fault =>
      refine ⟨[], token :: tokens, rfl, by simp, ?_, by simp, fun flag _ => .kept (by simp),
        fun _ _ => rfl⟩
      rintro t ⟨⟩ haccepted
      obtain ⟨w, hw⟩ := (exists_applyToken_iff v).mpr haccepted
      rw [htoken] at hw
      cases hw
    | ok w =>
      obtain ⟨inForce, refused, rfl, haccepted, hrefused, hnone, hown, hother⟩ := ih w
      refine ⟨token :: inForce, refused, rfl, List.forall_mem_cons.mpr
        ⟨(exists_applyToken_iff v).mp ⟨w, htoken⟩, haccepted⟩, hrefused, hnone, ?_, ?_⟩
      · exact fun flag hf => (hown flag hf).cons hf htoken
      · intro flag hf
        rw [hother flag hf]
        exact (level_applyToken htoken flag).elim (fun h => absurd h.1 hf) (·.2)

/-- **What a list of tokens does.** The list is cut at its commas, and empty pieces are no tokens.
The tokens before the first that is not accepted are in force, all of them if each is accepted,
which is when nothing is refused. Each flag of the family then has the level of the last token in
force that is about it, or the level it had; the flags of the other family have the levels they
had. -/
theorem applyList_settles (v : Verbosity) (f : Family) (list : Text) :
    let tokens := (list.splitOn ',').filter (· ≠ [])
    let (w, refusal) := v.applyList f list
    ∃ inForce refused, tokens = inForce ++ refused ∧
      (∀ t ∈ inForce, IsAccepted f t) ∧
      (∀ t ∈ refused.head?, ¬ IsAccepted f t) ∧
      (refusal = none ↔ ∀ t ∈ tokens, IsAccepted f t) ∧
      (∀ flag : Flag, flag.family = f → ∀ l, w.level flag = l ↔ Settled v flag inForce l) ∧
      ∀ flag : Flag, flag.family ≠ f → w.level flag = v.level flag := by
  intro tokens
  have htokens : tokens = tokensOf list := by
    rw [tokensOf, pieces_eq_splitOnP]
    rfl
  obtain ⟨inForce, refused, hcut, haccepted, hrefused, hnone, hown, hother⟩ :=
    applyTokens_settles v f tokens
  rw [applyList, ← htokens]
  refine ⟨inForce, refused, hcut, haccepted, hrefused, hnone.trans ?_, ?_, hother⟩
  · constructor
    · rintro rfl
      rw [hcut, List.append_nil]
      exact haccepted
    · intro hall
      rcases refused with _ | ⟨t, refused⟩
      · rfl
      · exact absurd (hall t (by rw [hcut]; simp)) (hrefused t rfl)
  · exact fun flag hf l => ⟨fun h => h ▸ hown flag hf, fun h => (hown flag hf).unique h⟩

/-- What stands before a token that is refused stays in force. -/
example : silent.applyList .info "all3,,none9,skip,name256,del".toList =
    (⟨⟨0, 0, 1, 0⟩, ⟨0, 0, 0⟩⟩, some (.badLevel "name256".toList)) := by decide

end Verbosity

end PathFilter
