import PathFilter.Proofs.Glob.Reading

/-!
# Globs as regular expressions

A glob is compiled as a regular expression, whose notation has rules of its own: groups are opened
and closed, a repetition follows on something to repeat, a backslash stands before a mark, and the
ends of a range are in order. The expression of a glob keeps all of them but the last one. It can
be read whatever characters the glob holds, and it is well formed exactly if no class of the glob
has a range whose ends are the wrong way round.

## Main definitions

* `ExpressionSign.read? text`: the signs of a regular expression
* `ExpressionSign.isBalanced`: whether groups and repetitions are where they may be
* `Expression.Compiles`: whether a text is a well-formed regular expression
* `Glob.HasClass g contents`: whether a glob has a closed class with these contents
* `Glob.HasBackwardRange`: whether a class of the glob has a range that descends

## Main results

* `Glob.read?_expression`: the expression of a glob can be read
* `Glob.compiles_iff`: it is well formed exactly if the glob is sound
* `Glob.isSound_iff`: a glob is sound exactly if no class has a backward range
-/

namespace PathFilter

/-! ## The notation -/

/-- A sign of a regular expression. Of the notation only those are told apart that globs are written
in; whatever else means something is refused. -/
inductive ExpressionSign where
  /-- The character itself. -/
  | char (c : Char)
  /-- A dot. -/
  | any
  /-- One character of a class. -/
  | oneOf (e : ClassExpression)
  /-- The beginning of the line. -/
  | start
  /-- The end of the line. -/
  | stop
  /-- The beginning of a group. -/
  | opening
  /-- The end of a group. -/
  | closing
  /-- Any number of what stands before. -/
  | many
  /-- What stands before, or nothing. -/
  | perhaps
deriving DecidableEq, Repr

namespace ExpressionSign

/-- The text up to the bracket that closes a class, and the text after it. A bracket that is escaped
closes nothing. -/
def contents? : Text → Option (Text × Text)
  | [] => none
  | ']' :: rest => some ([], rest)
  | '\\' :: c :: rest =>
    (contents? rest).map fun (contents, after) => ('\\' :: c :: contents, after)
  | c :: rest => (contents? rest).map fun (contents, after) => (c :: contents, after)

/-- The class that the text after a `[` begins with. There is no class without members: a bracket
at the front would be one. -/
def class? (text : Text) : Option (ClassExpression × Text) :=
  match contents? text with
  | none => none
  | some (contents, after) =>
    if contents ∈ [[], ['^']] then none
    else (ClassExpression.read? contents).map fun e => (e, after)

/-- The sign that a text begins with, and the text after it. -/
def next? : Text → Option (ExpressionSign × Text)
  | [] => none
  | '\\' :: c :: rest => if c ∈ expressionMarks then some (char c, rest) else none
  | '[' :: rest => (class? rest).map fun (e, after) => (oneOf e, after)
  | '(' :: '?' :: ':' :: rest => some (opening, rest)
  | ')' :: rest => some (closing, rest)
  | '.' :: rest => some (any, rest)
  | '^' :: rest => some (start, rest)
  | '$' :: rest => some (stop, rest)
  | '*' :: rest => some (many, rest)
  | '?' :: rest => some (perhaps, rest)
  | c :: rest => if c ∈ expressionMarks then none else some (char c, rest)

theorem contents?_length {text contents after : Text}
    (h : contents? text = some (contents, after)) :
    after.length < text.length := by
  fun_induction contents? text generalizing contents with
  | case1 => cases h
  | case2 rest =>
    cases h
    simp
  | case3 c rest ih =>
    obtain ⟨⟨inner, a⟩, hr, he⟩ := Option.map_eq_some_iff.mp h
    cases he
    have := ih hr
    simp only [List.length_cons]
    omega
  | case4 c rest _ _ ih =>
    obtain ⟨⟨inner, a⟩, hr, he⟩ := Option.map_eq_some_iff.mp h
    cases he
    have := ih hr
    simp only [List.length_cons]
    omega

theorem class?_length {text after : Text} {e : ClassExpression}
    (h : class? text = some (e, after)) :
    after.length < text.length := by
  unfold class? at h
  split at h
  · cases h
  · next hc =>
    split at h
    · cases h
    · obtain ⟨_, -, he⟩ := Option.map_eq_some_iff.mp h
      cases he
      exact contents?_length hc

theorem next?_length {text after : Text} {sign : ExpressionSign}
    (h : next? text = some (sign, after)) : after.length < text.length := by
  unfold next? at h
  split at h
  case h_3 rest =>
    obtain ⟨⟨e, a⟩, hr, he⟩ := Option.map_eq_some_iff.mp h
    cases he
    exact (class?_length hr).trans (by simp)
  all_goals
    first
    | split at h <;> cases h
    | cases h
  all_goals
    simp only [List.length_cons]
    omega

/-- **The signs of a regular expression.** -/
def read? (text : Text) : Option (List ExpressionSign) :=
  match text with
  | [] => some []
  | c :: rest =>
    match _h : next? (c :: rest) with
    | none => none
    | some (sign, after) => (read? after).map (sign :: ·)
termination_by text.length
decreasing_by exact next?_length _h

/-- Whether every group is closed, where `depth` of them are open, and every repetition has
something before it to repeat. -/
def isBalanced : Nat → Bool → List ExpressionSign → Bool
  | depth, _, [] => depth == 0
  | depth, _, opening :: rest => isBalanced (depth + 1) false rest
  | 0, _, closing :: _ => false
  | depth + 1, _, closing :: rest => isBalanced depth true rest
  | depth, repeatable, many :: rest => repeatable && isBalanced depth false rest
  | depth, repeatable, perhaps :: rest => repeatable && isBalanced depth false rest
  | depth, _, start :: rest => isBalanced depth false rest
  | depth, _, stop :: rest => isBalanced depth false rest
  | depth, _, _ :: rest => isBalanced depth true rest

/-- Whether the ends of every range are in order. -/
def isAscending : ExpressionSign → Bool
  | oneOf e => e.parts.all fun
    | .range low high => low.val ≤ high.val
    | _ => true
  | _ => true

end ExpressionSign

/-- **Whether a text is a well-formed regular expression**: it can be read, its groups and
repetitions are where they may be, and its ranges ascend. -/
def Expression.Compiles (text : Text) : Prop :=
  ∃ signs, ExpressionSign.read? text = some signs ∧ ExpressionSign.isBalanced 0 false signs = true ∧
    signs.all ExpressionSign.isAscending = true

namespace ExpressionSign

theorem read?_nil : read? [] = some [] := by rw [read?]

theorem read?_of_next? {text after : Text} {sign : ExpressionSign}
    (h : next? text = some (sign, after)) : read? text = (read? after).map (sign :: ·) := by
  rw [read?.eq_def]
  split
  · cases h
  · split
    · next hn =>
      rw [h] at hn
      cases hn
    · next hs =>
      rw [h] at hs
      cases hs
      rfl

/-- Whether a text is read as some signs wherever it stands in front. -/
def Reads (text : Text) (signs : List ExpressionSign) : Prop :=
  ∀ rest, read? (text ++ rest) = (read? rest).map (signs ++ ·)

theorem Reads.append {s t : Text} {ss ts : List ExpressionSign} (hs : Reads s ss)
    (ht : Reads t ts) : Reads (s ++ t) (ss ++ ts) := by
  intro rest
  rw [List.append_assoc, hs, ht, Option.map_map]
  congr 1
  funext signs
  exact (List.append_assoc ss ts signs).symm

theorem Reads.of_next? {t : Text} {sign : ExpressionSign}
    (h : ∀ rest, next? (t ++ rest) = some (sign, rest)) : Reads t [sign] := by
  intro rest
  rw [read?_of_next? (h rest)]
  rfl

theorem Reads.read? {t : Text} {signs : List ExpressionSign} (h : Reads t signs) :
    read? t = some signs := by
  have hall := h []
  rw [List.append_nil, read?_nil, Option.map_some, List.append_nil] at hall
  exact hall

/-! ### Characters and classes -/

/-- A character that is escaped where needed is read as itself. -/
theorem reads_escaped (c : Char) : Reads (escaped expressionMarks c) [char c] := by
  refine .of_next? fun rest => ?_
  by_cases hc : c ∈ expressionMarks
  · rw [escaped, if_pos hc]
    show (if c ∈ expressionMarks then some (char c, rest) else none) = _
    rw [if_pos hc]
  · have hplain : ∀ d ∈ ['\\', '[', '(', ')', '.', '^', '$', '*', '?'], c ≠ d := by
      rintro d hd rfl
      exact hc (ClassSign.mem_of_all_contains (by decide) c hd)
    rw [escaped, if_neg hc]
    show next? (c :: rest) = _
    unfold next?
    split
    case h_11 heq =>
      cases heq
      rw [if_neg hc]
    case h_1 heq => cases heq
    all_goals
      next heq =>
        cases heq
        exact absurd rfl (hplain _ (by simp))

theorem contents?_escaped (c : Char) (text : Text) :
    contents? (escaped expressionClassMarks c ++ text) =
      (contents? text).map fun (contents, after) =>
        (escaped expressionClassMarks c ++ contents, after) := by
  by_cases hc : c ∈ expressionClassMarks
  · rw [escaped, if_pos hc]
    rfl
  · have hplain : ∀ d ∈ ['\\', '[', ']'], c ≠ d := by
      rintro d hd rfl
      exact hc (ClassSign.mem_expressionClassMarks c hd)
    rw [escaped, if_neg hc, List.singleton_append, contents?]
    · rfl
    · rintro rfl
      exact hplain ']' (by simp) rfl
    · rintro _ _ rfl
      exact absurd rfl (hplain '\\' (by simp))

/-- The members of a class of a glob hold no bracket that would close it. -/
theorem contents?_members (members rest : Text) :
    contents? (members.flatMap (escaped expressionClassMarks) ++ ']' :: rest) =
      some (members.flatMap (escaped expressionClassMarks), rest) := by
  induction members with
  | nil => rfl
  | cons c members ih =>
    rw [List.flatMap_cons, List.append_assoc, contents?_escaped, ih]
    rfl

theorem contents?_written (contents rest : Text) :
    contents? (CharClass.written contents ++ ']' :: rest) =
      some (CharClass.written contents, rest) := by
  by_cases hmarked : CharClass.IsMarked contents
  · obtain ⟨c, members, rfl, hc⟩ := hmarked.exists_cons
    rw [CharClass.written_cons hc, List.cons_append, contents?, contents?_members]
    · rfl
    · simp
    · simp
  · rw [CharClass.written_of_not_isMarked hmarked, contents?_members]

/-- A written class is read as the class it was written for, provided that it has members. -/
theorem reads_class {contents : Text} (h : CharClass.written contents ∉ [[], ['^']]) :
    Reads ('[' :: CharClass.written contents ++ [']'])
      [oneOf ⟨(CharClass.ofContents contents).negated,
        (CharClass.ofContents contents).members.map ClassPart.ofMember⟩] := by
  refine .of_next? fun rest => ?_
  have htext : '[' :: CharClass.written contents ++ [']'] ++ rest =
      '[' :: (CharClass.written contents ++ ']' :: rest) := by simp
  rw [htext]
  show (class? (CharClass.written contents ++ ']' :: rest)).map _ = _
  rw [class?, contents?_written]
  simp only [if_neg h, ClassExpression.read?_written_eq, Option.map_some]

end ExpressionSign

/-! ## The classes of a glob -/

namespace CharClass

/-- What closes a class stands behind a member of it. -/
theorem pos_of_membersEnd? {text : Text} {n : Nat} (h : membersEnd? text = some n) :
    0 < n ∧ n < text.length := by
  obtain ⟨m, hm, hn⟩ := Option.map_eq_some_iff.mp h
  obtain ⟨hlt, hget, -⟩ := List.idxOf?_eq_some_iff.mp hm
  by_cases hfirst : text.head? = some ']'
  · rw [if_pos hfirst] at hn
    simp only [if_pos hfirst, List.length_drop] at hlt
    omega
  · simp only [if_neg hfirst, List.drop_zero, Nat.zero_add] at hlt hget hn
    subst hn
    -- a bracket at the front would be a member
    refine ⟨Nat.pos_of_ne_zero ?_, hlt⟩
    rintro rfl
    rw [List.head?_eq_getElem?, List.getElem?_eq_getElem hlt, hget] at hfirst
    exact hfirst rfl

theorem escaped_ne_nil (marks : Text) (c : Char) : escaped marks c ≠ [] := by
  unfold escaped
  split <;> simp

theorem flatMap_escaped_ne_nil (marks : Text) {members : Text} (h : members ≠ []) :
    members.flatMap (escaped marks) ≠ [] := by
  obtain ⟨c, rest, rfl⟩ := List.exists_cons_of_ne_nil h
  rw [List.flatMap_cons]
  exact List.append_ne_nil_of_left_ne_nil (escaped_ne_nil marks c) _

/-- **A class that is closed has members**, and they are written in the expression. -/
theorem written_of_closing? {g : Text} {n : Nat} (h : closing? g = some n) :
    written (g.take n) ∉ [[], ['^']] := by
  have htake : ∀ {text : Text} {m : Nat}, membersEnd? text = some m → text.take m ≠ [] := by
    intro text m hm
    obtain ⟨hpos, hlt⟩ := pos_of_membersEnd? hm
    exact List.ne_nil_of_length_pos (by rw [List.length_take]; omega)
  rw [List.mem_cons, List.mem_singleton, not_or]
  by_cases hmarked : IsMarked g
  · rw [closing?, if_pos hmarked] at h
    obtain ⟨c, rest, rfl, hc⟩ := hmarked.exists_cons
    obtain ⟨m, hm, rfl⟩ := Option.map_eq_some_iff.mp h
    have hne := flatMap_escaped_ne_nil expressionClassMarks (htake hm)
    rw [Nat.add_comm, List.take_succ_cons, written_cons hc]
    exact ⟨List.cons_ne_nil _ _, fun he => hne (List.cons.inj he).2⟩
  · rw [closing?, if_neg hmarked] at h
    have hplain : ¬ IsMarked (g.take n) := fun hm => hmarked (isMarked_of_isMarked_take hm)
    have hhead : (g.take n).head? ≠ some '^' := fun hm => hplain (.inr hm)
    rw [written_of_not_isMarked hplain]
    refine ⟨flatMap_escaped_ne_nil expressionClassMarks (htake h), fun he => ?_⟩
    have hwritten := ClassExpression.head?_written_ne hhead
    rw [he] at hwritten
    exact hwritten rfl

/-- The expressions of the members are the text they were read from, escaped where needed. -/
theorem flatMap_expression_parse (members : Text) :
    (ClassMember.parse members).flatMap ClassMember.expression =
      members.flatMap (escaped expressionClassMarks) := by
  have hdash : escaped expressionClassMarks '-' = ['-'] := by decide
  fun_induction ClassMember.parse members with
  | case1 => rfl
  | case2 rest ih =>
    simp only [List.flatMap_cons, ClassMember.expression, hdash, ih]
    rfl
  | case3 c rest hc ih =>
    simp only [List.flatMap_cons, ClassMember.expression, hdash, ih]
    rfl
  | case4 low high rest hl hh ih =>
    simp only [List.flatMap_cons, ClassMember.expression, hdash, ih, List.append_assoc]
    rfl
  | case5 c rest h1 h2 h3 ih => simp only [List.flatMap_cons, ClassMember.expression, ih]

theorem flatMap_expression_parseBody (members : Text) :
    (ClassMember.parseBody members).flatMap ClassMember.expression =
      members.flatMap (escaped expressionClassMarks) := by
  fun_induction ClassMember.parseBody members with
  | case1 rest ih =>
    rw [List.flatMap_cons, List.flatMap_cons, ih]
    rfl
  | case2 members h => exact flatMap_expression_parse members

end CharClass

/-- A class is written between brackets. -/
theorem GlobToken.expression_oneOf (contents : Text) :
    expression (.oneOf (.ofContents contents)) = '[' :: CharClass.written contents ++ [']'] := by
  by_cases hmarked : CharClass.IsMarked contents
  · obtain ⟨c, members, rfl, hc⟩ := hmarked.exists_cons
    rw [CharClass.written_cons hc, CharClass.ofContents_cons hc, expression,
      CharClass.flatMap_expression_parseBody]
    rfl
  · rw [CharClass.written_of_not_isMarked hmarked, CharClass.ofContents_of_not_isMarked hmarked,
      expression, CharClass.flatMap_expression_parseBody]
    rfl

namespace Glob

/-- **Whether a glob, read from left to right, has a closed class with these contents.** -/
inductive HasClass : Text → Text → Prop where
  /-- A bracket that is closed begins a class. -/
  | here {n : Nat} {g : Text} (hn : CharClass.closing? g = some n) : HasClass ('[' :: g) (g.take n)
  /-- Further classes begin behind it. -/
  | later {n : Nat} {g contents : Text} (hn : CharClass.closing? g = some n)
      (h : HasClass (g.drop (n + 1)) contents) : HasClass ('[' :: g) contents
  /-- A bracket that is not closed is passed over. -/
  | bracket {g contents : Text} (hg : CharClass.closing? g = none) (h : HasClass g contents) :
      HasClass ('[' :: g) contents
  /-- A backslash takes the next character with it. -/
  | escaped {c : Char} {g contents : Text} (h : HasClass g contents) :
      HasClass ('\\' :: c :: g) contents
  /-- Any other character is passed over. -/
  | plain {c : Char} {g contents : Text} (hc : c ∉ ['\\', '[']) (h : HasClass g contents) :
      HasClass (c :: g) contents

/-- **Whether a class of the glob has a backward range**, where its contents mean what they mean in
a regular expression. -/
def HasBackwardRange (g : Text) : Prop :=
  ∃ contents e low high, HasClass g contents ∧
    ClassExpression.read? (CharClass.written contents) = some e ∧
    .range low high ∈ e.parts ∧ high.val < low.val

/-- What stands in the brackets of a class is no empty class. -/
theorem HasClass.written {g contents : Text} (h : HasClass g contents) :
    CharClass.written contents ∉ [[], ['^']] := by
  induction h with
  | here hn => exact CharClass.written_of_closing? hn
  | later _ _ ih => exact ih
  | bracket _ _ ih => exact ih
  | escaped _ ih => exact ih
  | plain _ _ ih => exact ih

theorem mem_consStar {cls : CharClass} {g : Glob} : .oneOf cls ∈ consStar g ↔ .oneOf cls ∈ g := by
  unfold consStar
  split <;> simp

/-- A character that begins neither a class nor an escape: a backslash is followed by a character or
by nothing. -/
theorem not_mem_of_parse {c : Char} {rest : Text} (hbracket : c ≠ '[')
    (hlast : c = '\\' → rest ≠ []) (hescape : ∀ d after, c = '\\' → rest ≠ d :: after) :
    c ∉ ['\\', '['] := by
  have hslash : c ≠ '\\' := by
    intro hs
    cases rest with
    | nil => exact hlast hs rfl
    | cons d after => exact hescape d after hs rfl
  simp [hslash, hbracket]

/-- **The classes of the tokens are those of the text.** -/
theorem mem_parse_iff {cls : CharClass} {g : Text} :
    .oneOf cls ∈ parse g ↔ ∃ contents, HasClass g contents ∧ cls = .ofContents contents := by
  constructor
  · intro h
    fun_induction parse g with
    | case1 => cases h
    | case2 rest ih =>
      obtain ⟨contents, hc, he⟩ := ih (by simpa using h)
      exact ⟨contents, .plain (by decide) hc, he⟩
    | case3 rest ih =>
      obtain ⟨contents, hc, he⟩ := ih (mem_consStar.mp h)
      exact ⟨contents, .plain (by decide) hc, he⟩
    | case4 rest first after hr ih =>
      rw [CharClass.read?_eq] at hr
      obtain ⟨n, hn, he⟩ := Option.map_eq_some_iff.mp hr
      cases he
      rcases List.mem_cons.mp h with hfirst | hlater
      · cases hfirst
        exact ⟨_, .here hn, rfl⟩
      · obtain ⟨contents, hc, he⟩ := ih hlater
        exact ⟨contents, .later hn hc, he⟩
    | case5 rest hr ih =>
      rw [CharClass.read?_eq, Option.map_eq_none_iff] at hr
      obtain ⟨contents, hc, he⟩ := ih (by simpa using h)
      exact ⟨contents, .bracket hr hc, he⟩
    | case6 => simp at h
    | case7 c rest ih =>
      obtain ⟨contents, hc, he⟩ := ih (by simpa using h)
      exact ⟨contents, .escaped hc, he⟩
    | case8 c rest h1 h2 h3 h4 h5 ih =>
      obtain ⟨contents, hc, he⟩ := ih (by simpa using h)
      exact ⟨contents, .plain (not_mem_of_parse h3 h4 h5) hc, he⟩
  · rintro ⟨contents, h, rfl⟩
    induction h with
    | here hn => simp [parse_oneOf hn]
    | later hn _ ih => simp [parse_oneOf hn, ih]
    | bracket hg _ ih => simp [parse_bracket hg, ih]
    | escaped _ ih => simp [parse_escaped, ih]
    | @plain c g contents hc _ ih =>
      by_cases hstar : c = '*'
      · subst hstar
        rw [parse]
        exact mem_consStar.mpr ih
      by_cases hone : c = '?'
      · subst hone
        simp [parse_anyOne, ih]
      · have hplain : c ∉ ['\\', '*', '?', '['] := by simp_all
        simp [parse_plain hplain, ih]

/-- A class of a glob begins with a bracket. -/
theorem HasClass.bracket_mem {g contents : Text} (h : HasClass g contents) : '[' ∈ g := by
  induction h with
  | here _ => exact List.mem_cons_self
  | later _ _ _ => exact List.mem_cons_self
  | bracket _ _ _ => exact List.mem_cons_self
  | escaped _ ih => exact List.mem_cons_of_mem _ (List.mem_cons_of_mem _ ih)
  | plain _ _ ih => exact List.mem_cons_of_mem _ ih

theorem mem_map_ofMember {ms : List ClassMember} {low high : Char} :
    .range low high ∈ ms.map ClassPart.ofMember ↔ .range low high ∈ ms := by
  constructor
  · intro h
    obtain ⟨m, hm, he⟩ := List.mem_map.mp h
    cases m <;> cases he
    exact hm
  · exact List.mem_map_of_mem (f := ClassPart.ofMember)

/-- **A glob is sound exactly if no class has a backward range.** -/
theorem isSound_iff (g : Text) : (parse g).isSound = true ↔ ¬ HasBackwardRange g := by
  rw [← Bool.not_eq_false, not_iff_not]
  constructor
  · intro h
    obtain ⟨token, htoken, hunsound⟩ := List.all_eq_false.mp h
    cases token with
    | oneOf cls =>
      obtain ⟨contents, hclass, rfl⟩ := mem_parse_iff.mp htoken
      obtain ⟨m, hm, hback⟩ : ∃ m ∈ (CharClass.ofContents contents).members,
          m.isBackward = true := by simpa using hunsound
      cases m with
      | range low high =>
        refine ⟨contents, _, low, high, hclass, ClassExpression.read?_written_eq contents,
          mem_map_ofMember.mpr hm, ?_⟩
        simpa [ClassMember.isBackward] using hback
      | _ => cases hback
    | _ => exact absurd rfl hunsound
  · rintro ⟨contents, e, low, high, hclass, he, hrange, hback⟩
    rw [ClassExpression.read?_written_eq] at he
    cases he
    refine List.all_eq_false.mpr ⟨_, mem_parse_iff.mpr ⟨contents, hclass, rfl⟩, ?_⟩
    have hm := mem_map_ofMember.mp hrange
    simp only [List.all_eq_true, Bool.not_eq_true', not_forall]
    exact ⟨_, hm, by simpa [ClassMember.isBackward] using hback⟩

end Glob

/-! ## The expression of a glob -/

namespace GlobToken

/-- The signs of the expression of a token. -/
def signs : GlobToken → List ExpressionSign
  | literal c => [.char c]
  | anyOne => [.oneOf ⟨true, [.char '/']⟩]
  | star => [.oneOf ⟨true, [.char '/']⟩, .many]
  | globstar => [.any, .many]
  | oneOf cls => [.oneOf ⟨cls.negated, cls.members.map ClassPart.ofMember⟩]

open ExpressionSign in
/-- The expression of a token is read as its signs. -/
theorem reads_expression {token : GlobToken} {g : Text} (h : token ∈ Glob.parse g) :
    Reads token.expression token.signs := by
  have hone : Reads "[^/]".toList [.oneOf ⟨true, [.char '/']⟩] := .of_next? fun rest => rfl
  have hmany : Reads ['*'] [.many] := .of_next? fun rest => rfl
  cases token with
  | literal c => exact reads_escaped c
  | anyOne => exact hone
  | star => exact hone.append hmany
  | globstar => exact .append (s := ['.']) (.of_next? fun rest => rfl) hmany
  | oneOf cls =>
    obtain ⟨contents, hclass, rfl⟩ := Glob.mem_parse_iff.mp h
    rw [expression_oneOf]
    exact reads_class hclass.written

/-- The signs of a token ascend exactly if no range of it is backward. -/
theorem isAscending_signs (token : GlobToken) :
    token.signs.all ExpressionSign.isAscending = Glob.isSound [token] := by
  cases token with
  | oneOf cls =>
    simp only [signs, Glob.isSound, List.all_cons, List.all_nil, Bool.and_true,
      ExpressionSign.isAscending, List.all_map]
    congr 1
    funext m
    cases m with
    | range low high =>
      simp only [Function.comp_apply, ClassPart.ofMember, ClassMember.isBackward]
      rw [← decide_not, decide_eq_decide]
      exact UInt32.not_lt.symm
    | _ => rfl
  | _ => rfl

end GlobToken

namespace Glob

open ExpressionSign

/-- The signs of what stands before the tokens of a glob. -/
def startSigns (anchored : Bool) : List ExpressionSign :=
  if anchored then [.start] else [.start, .opening, .any, .many, .char '/', .closing, .perhaps]

/-- The signs of the expression of a glob. -/
def signs (anchored : Bool) (g : Glob) : List ExpressionSign :=
  startSigns anchored ++ g.flatMap GlobToken.signs ++ [.stop]

theorem reads_expressionStart (anchored : Bool) :
    Reads (expressionStart anchored) (startSigns anchored) := by
  have hstart : Reads ['^'] [.start] := .of_next? fun rest => rfl
  cases anchored with
  | true => exact hstart
  | false =>
    have hopening : Reads "(?:".toList [.opening] := .of_next? fun rest => rfl
    have hnames : Reads ".*".toList [.any, .many] :=
      .append (s := ['.']) (t := ['*']) (.of_next? fun rest => rfl) (.of_next? fun rest => rfl)
    have hslash : Reads ['/'] [.char '/'] := .of_next? fun rest => rfl
    have hclosing : Reads ")?".toList [.closing, .perhaps] :=
      .append (s := [')']) (t := ['?']) (.of_next? fun rest => rfl) (.of_next? fun rest => rfl)
    exact hstart.append (hopening.append (hnames.append (hslash.append hclosing)))

theorem reads_tokens {tokens : Glob}
    (h : ∀ token ∈ tokens, Reads token.expression token.signs) :
    Reads (tokens.flatMap GlobToken.expression) (tokens.flatMap GlobToken.signs) := by
  induction tokens with
  | nil => exact fun rest => by simp
  | cons token tokens ih =>
    obtain ⟨htoken, htokens⟩ := List.forall_mem_cons.mp h
    exact htoken.append (ih htokens)

/-- **The expression of a glob can be read**, whatever characters the glob holds. -/
theorem read?_expression (anchored : Bool) (g : Text) :
    read? ((parse g).expression anchored) = some ((parse g).signs anchored) := by
  have hstop : Reads ['$'] [.stop] := .of_next? fun rest => rfl
  have htokens := reads_tokens fun token (h : token ∈ parse g) => GlobToken.reads_expression h
  exact (((reads_expressionStart anchored).append htokens).append hstop).read?

theorem isBalanced_tokens (repeatable : Bool) (g : Glob) :
    isBalanced 0 repeatable (g.flatMap GlobToken.signs ++ [.stop]) = true := by
  induction g generalizing repeatable with
  | nil => rfl
  | cons token g ih => cases token <;> simp [GlobToken.signs, isBalanced, ih]

/-- Groups and repetitions are where they may be. -/
theorem isBalanced_signs (anchored : Bool) (g : Glob) :
    isBalanced 0 false (g.signs anchored) = true := by
  cases anchored <;> simp [signs, startSigns, isBalanced, isBalanced_tokens]

theorem isAscending_signs (anchored : Bool) (g : Glob) :
    (g.signs anchored).all isAscending = g.isSound := by
  have hstart : (startSigns anchored).all isAscending = true := by cases anchored <;> rfl
  have htokens : (g.flatMap GlobToken.signs).all isAscending = g.isSound := by
    rw [List.all_flatMap, isSound]
    congr 1
    funext token
    rw [GlobToken.isAscending_signs]
    simp [isSound]
  rw [signs, List.all_append, List.all_append, hstart, htokens, Bool.true_and]
  exact Bool.and_true _

/-- **The expression of a glob is well formed exactly if the glob is sound.** -/
theorem compiles_iff (anchored : Bool) (g : Text) :
    Expression.Compiles ((parse g).expression anchored) ↔ (parse g).isSound = true := by
  rw [← isAscending_signs anchored]
  constructor
  · rintro ⟨signs, hread, -, hascending⟩
    rw [read?_expression] at hread
    cases hread
    exact hascending
  · intro hascending
    exact ⟨_, read?_expression anchored g, isBalanced_signs anchored _, hascending⟩

end Glob

end PathFilter
