import PathFilter.Glob.Fault

/-!
# Character classes in regular expressions

A regular expression has classes of its own, with more operators than a glob knows: `--` takes
characters out, `&&` and `~~` intersect and compare, and a class may stand within a class. A
backslash takes a character for itself. The class of a glob is written as such a class, its own
mark as `^` and a backslash before each member that would otherwise be an operator, the dash
excepted.

## Main definitions

* `ClassSign`, `ClassSign.read?`: the characters of a written class, escaped or not
* `ClassPart.parse`: the characters, ranges and operators that the signs make up
* `ClassExpression.read?`, `ClassExpression.accepts`: a written class and its characters
* `CharClass.written`: the contents of a class of a glob, written for a regular expression
* `CharClass.ofContents`: the class of a glob with given contents

## Main results

* `ClassPart.parse_signs`: of the operators only the difference survives the writing
* `ClassExpression.read?_written`: a written class can be read and has the same characters
-/

namespace PathFilter

/-! ## The notation -/

/-- A character of a class as it is written. After a backslash it is no operator. -/
structure ClassSign where
  /-- The character. -/
  char : Char
  /-- Whether a backslash stands before it. -/
  isEscaped : Bool
deriving DecidableEq, Repr

namespace ClassSign

/-- Whether the sign may be a dash between two ends of a range. -/
def isDash (s : ClassSign) : Bool := s.char == '-' && !s.isEscaped

/-- **The signs of a written class**, up to the bracket that closes it. Only a mark can be escaped.
A bracket that is not escaped belongs to a class within the class, which no glob spells. -/
def read? : Text → Option (List ClassSign)
  | [] => some []
  | '\\' :: c :: rest =>
    if c ∈ expressionMarks then (read? rest).map (⟨c, true⟩ :: ·) else none
  | c :: rest =>
    if c ∈ ['\\', '[', ']'] then none else (read? rest).map (⟨c, false⟩ :: ·)

end ClassSign

/-- What joins two unions of characters in a class. -/
inductive ClassOperator where
  /-- The characters on the left that are not on the right. -/
  | difference
  /-- The characters on both sides. -/
  | intersection
  /-- The characters on one side only. -/
  | symmetricDifference
deriving DecidableEq, Repr

namespace ClassOperator

/-- The operator that two signs make up. -/
def ofSigns? (a b : ClassSign) : Option ClassOperator :=
  if a.isEscaped || b.isEscaped || a.char != b.char then none
  else if a.char = '-' then some difference
  else if a.char = '&' then some intersection
  else if a.char = '~' then some symmetricDifference
  else none

/-- Whether a character is in a joined class, given whether it is on the left and on the right. -/
def join : ClassOperator → Bool → Bool → Bool
  | difference, l, r => l && !r
  | intersection, l, r => l && r
  | symmetricDifference, l, r => l != r

end ClassOperator

/-- A part of a class of a regular expression. -/
inductive ClassPart where
  /-- The character itself. -/
  | char (c : Char)
  /-- The characters from `low` to `high`. -/
  | range (low high : Char)
  /-- What follows is joined to what came before. -/
  | operator (o : ClassOperator)
deriving DecidableEq, Repr

namespace ClassPart

/-- **The parts that signs make up** after the dashes at the front. A dash spans a range unless the
class or an operator follows on it. -/
def parse : List ClassSign → List ClassPart
  | [] => []
  | [a] => [char a.char]
  | a :: b :: rest =>
    match ClassOperator.ofSigns? a b with
    | some o => operator o :: parse rest
    | none =>
      if b.isDash then
        match rest with
        | [] => char a.char :: parse [b]
        | c :: rest' =>
          if c.isDash then char a.char :: parse (b :: c :: rest')
          else range a.char c.char :: parse rest'
      else char a.char :: parse (b :: rest)

/-- The parts of a class. The dashes at the front stand for themselves. -/
def parseBody : List ClassSign → List ClassPart
  | [] => []
  | a :: rest => if a.isDash then char '-' :: parseBody rest else parse (a :: rest)

/-- Whether a character is in the class of some parts, where `union` tells whether it is in the
union so far and `outer` what becomes of that union. Operators are carried out from the left. -/
def holds (x : Char) (outer : Bool → Bool) (union : Bool) : List ClassPart → Bool
  | [] => outer union
  | char c :: ps => holds x outer (union || x == c) ps
  | range low high :: ps => holds x outer (union || (low.val ≤ x.val && x.val ≤ high.val)) ps
  | operator o :: ps => holds x (o.join (outer union)) false ps

end ClassPart

/-- A class of a regular expression. -/
structure ClassExpression where
  /-- Whether the class begins with a `^`. -/
  negated : Bool
  /-- The parts of the class. -/
  parts : List ClassPart
deriving DecidableEq, Repr

namespace ClassExpression

/-- **The class that is written between two brackets.** -/
def read? : Text → Option ClassExpression
  | '^' :: rest => (ClassSign.read? rest).map fun signs => ⟨true, ClassPart.parseBody signs⟩
  | text => (ClassSign.read? text).map fun signs => ⟨false, ClassPart.parseBody signs⟩

/-- **The characters of a class.** -/
def accepts (e : ClassExpression) (x : Char) : Bool :=
  ClassPart.holds x id false e.parts != e.negated

end ClassExpression

/-! ## Writing the class of a glob -/

namespace CharClass

/-- **The contents of a class of a glob as they are written in a regular expression.** -/
def written : Text → Text
  | '!' :: members => '^' :: members.flatMap (escaped expressionClassMarks)
  | '^' :: members => '^' :: members.flatMap (escaped expressionClassMarks)
  | members => members.flatMap (escaped expressionClassMarks)

/-- The class of a glob with given contents. -/
def ofContents : Text → CharClass
  | '!' :: members => ⟨true, ClassMember.parseBody members⟩
  | '^' :: members => ⟨true, ClassMember.parseBody members⟩
  | members => ⟨false, ClassMember.parseBody members⟩

/-- Whether a class with these contents is negated. -/
def IsMarked (contents : Text) : Prop := contents.head? = some '!' ∨ contents.head? = some '^'

instance (contents : Text) : Decidable (IsMarked contents) :=
  inferInstanceAs (Decidable (_ ∨ _))

theorem IsMarked.exists_cons {contents : Text} (h : IsMarked contents) :
    ∃ c members, contents = c :: members ∧ (c = '!' ∨ c = '^') := by
  rcases h with h | h <;> obtain ⟨members, rfl⟩ := List.head?_eq_some_iff.mp h
  · exact ⟨_, members, rfl, .inl rfl⟩
  · exact ⟨_, members, rfl, .inr rfl⟩

section Marks

variable {c : Char} {contents : Text}

theorem written_cons (hc : c = '!' ∨ c = '^') (members : Text) :
    written (c :: members) = '^' :: members.flatMap (escaped expressionClassMarks) := by
  rcases hc with rfl | rfl <;> rfl

theorem ofContents_cons (hc : c = '!' ∨ c = '^') (members : Text) :
    ofContents (c :: members) = ⟨true, ClassMember.parseBody members⟩ := by
  rcases hc with rfl | rfl <;> rfl

theorem written_of_not_isMarked (h : ¬ IsMarked contents) :
    written contents = contents.flatMap (escaped expressionClassMarks) := by
  unfold written
  split
  · exact absurd (.inl rfl) h
  · exact absurd (.inr rfl) h
  · rfl

theorem ofContents_of_not_isMarked (h : ¬ IsMarked contents) :
    ofContents contents = ⟨false, ClassMember.parseBody contents⟩ := by
  unfold ofContents
  split
  · exact absurd (.inl rfl) h
  · exact absurd (.inr rfl) h
  · rfl

end Marks

end CharClass

/-- The sign that a member of a class is written as. -/
def ClassSign.ofMember (c : Char) : ClassSign := ⟨c, c ∈ expressionClassMarks⟩

/-- The part of a class of a regular expression that a part of a class of a glob becomes. -/
def ClassPart.ofMember : ClassMember → ClassPart
  | .single c => char c
  | .range low high => range low high
  | .without => operator .difference

namespace ClassSign

theorem isDash_ofMember (c : Char) : (ofMember c).isDash = (c == '-') := by
  by_cases h : c = '-'
  · subst h
    rfl
  · have hne : (c == '-') = false := by simpa using h
    simp [isDash, ofMember, hne]

theorem isDash_dash : (ofMember '-').isDash = true := rfl

theorem ofSigns?_dash : ClassOperator.ofSigns? (ofMember '-') (ofMember '-') = some .difference :=
  rfl

/-- Members make up no other operator: all other signs of operators are escaped. -/
theorem ofSigns?_ofMember {a b : Char} (h : ¬ (a = '-' ∧ b = '-')) :
    ClassOperator.ofSigns? (ofMember a) (ofMember b) = none := by
  unfold ClassOperator.ofSigns?
  split
  · rfl
  · next hs =>
    simp only [ofMember, Bool.or_eq_true, decide_eq_true_eq, bne_iff_ne, not_or,
      Decidable.not_not] at hs
    obtain ⟨⟨ha, -⟩, rfl⟩ := hs
    have hdash : a ≠ '-' := fun he => h ⟨he, he⟩
    have hand : a ≠ '&' := by
      rintro rfl
      exact ha (by decide)
    have htilde : a ≠ '~' := by
      rintro rfl
      exact ha (by decide)
    simp [ofMember, hdash, hand, htilde]

theorem mem_of_all_contains {s t : Text} (h : s.all t.contains = true) : ∀ c ∈ s, c ∈ t := by
  intro c hc
  simpa using List.all_eq_true.mp h c hc

theorem mem_expressionMarks : ∀ c ∈ expressionClassMarks, c ∈ expressionMarks :=
  mem_of_all_contains (by decide)

theorem mem_expressionClassMarks : ∀ c ∈ ['\\', '[', ']'], c ∈ expressionClassMarks :=
  mem_of_all_contains (by decide)

/-- Written members are read as their signs. -/
theorem read?_written (members : Text) :
    read? (members.flatMap (escaped expressionClassMarks)) = some (members.map ofMember) := by
  induction members with
  | nil => rfl
  | cons c members ih =>
    rw [List.flatMap_cons, List.map_cons]
    by_cases hc : c ∈ expressionClassMarks
    · rw [escaped, if_pos hc, List.cons_append, List.singleton_append]
      show (if c ∈ expressionMarks then (read? _).map _ else none) = _
      rw [if_pos (mem_expressionMarks c hc), ih]
      simp [ofMember, hc]
    · have hplain : c ∉ ['\\', '[', ']'] := fun h => hc (mem_expressionClassMarks c h)
      rw [escaped, if_neg hc, List.singleton_append, read?]
      · rw [if_neg hplain, ih]
        simp [ofMember, hc]
      · rintro _ _ rfl
        exact absurd (by simp) hplain

end ClassSign

namespace ClassPart

section Equations

variable {a b : ClassSign}

theorem parse_of_operator {o : ClassOperator} (h : ClassOperator.ofSigns? a b = some o)
    (rest : List ClassSign) : parse (a :: b :: rest) = operator o :: parse rest := by
  rw [parse.eq_def]
  simp only [h]

theorem parse_of_range {c : ClassSign} (h : ClassOperator.ofSigns? a b = none)
    (hb : b.isDash = true) (hc : c.isDash = false) (rest : List ClassSign) :
    parse (a :: b :: c :: rest) = range a.char c.char :: parse rest := by
  rw [parse]
  simp [h, hb, hc]

theorem parse_of_isDash {c : ClassSign} (h : ClassOperator.ofSigns? a b = none)
    (hc : c.isDash = true) (rest : List ClassSign) :
    parse (a :: b :: c :: rest) = char a.char :: parse (b :: c :: rest) := by
  rw [parse]
  simp [h, hc]

theorem parse_of_not_isDash (h : ClassOperator.ofSigns? a b = none) (hb : b.isDash = false)
    (rest : List ClassSign) : parse (a :: b :: rest) = char a.char :: parse (b :: rest) := by
  rw [parse.eq_def]
  simp only [h, hb, Bool.false_eq_true, if_false]

theorem parse_pair (h : ClassOperator.ofSigns? a b = none) :
    parse [a, b] = char a.char :: parse [b] := by
  rw [parse.eq_def]
  simp [h]

end Equations

/-- **Members make up the parts that the glob has.** Of the operators only the difference is left,
as no other survives the writing. -/
theorem parse_signs (members : Text) :
    parse (members.map ClassSign.ofMember) = (ClassMember.parse members).map ofMember := by
  fun_induction ClassMember.parse members with
  | case1 => rfl
  | case2 rest ih =>
    simp only [List.map_cons]
    rw [parse_of_operator ClassSign.ofSigns?_dash, ih]
    rfl
  | case3 c rest hc ih =>
    have hne : ¬ (c = '-' ∧ '-' = '-') := fun h => hc h.1
    simp only [List.map_cons]
    rw [parse_of_isDash (ClassSign.ofSigns?_ofMember hne) ClassSign.isDash_dash,
      parse_of_operator ClassSign.ofSigns?_dash, ih]
    rfl
  | case4 low high rest hl hh ih =>
    have hlow : ¬ (low = '-' ∧ '-' = '-') := fun h => hl h.1
    have hhigh : (ClassSign.ofMember high).isDash = false := by
      rw [ClassSign.isDash_ofMember]
      simpa using hh
    simp only [List.map_cons]
    rw [parse_of_range (ClassSign.ofSigns?_ofMember hlow) ClassSign.isDash_dash hhigh, ih]
    rfl
  | case5 c rest h1 h2 h3 ih =>
    cases rest with
    | nil => rfl
    | cons d rest =>
      have hne : ¬ (c = '-' ∧ d = '-') := by
        rintro ⟨rfl, rfl⟩
        exact h1 rest rfl rfl
      simp only [List.map_cons] at ih ⊢
      by_cases hd : d = '-'
      · subst hd
        -- the dash ends the class: anything behind it would have made a range or an operator
        cases rest with
        | nil =>
          show parse [ClassSign.ofMember c, ClassSign.ofMember '-'] = _
          rw [parse_pair (ClassSign.ofSigns?_ofMember hne)]
          exact congrArg (char c :: ·) ih
        | cons e rest => exact absurd rfl (h3 e rest)
      · have hdash : (ClassSign.ofMember d).isDash = false := by
          rw [ClassSign.isDash_ofMember]
          simpa using hd
        rw [parse_of_not_isDash (ClassSign.ofSigns?_ofMember hne) hdash, ih]
        rfl

/-- The same with the dashes at the front. -/
theorem parseBody_signs (members : Text) :
    parseBody (members.map ClassSign.ofMember) =
      (ClassMember.parseBody members).map ofMember := by
  fun_induction ClassMember.parseBody members with
  | case1 rest ih =>
    rw [List.map_cons, parseBody, if_pos ClassSign.isDash_dash, ih]
    rfl
  | case2 members h =>
    rw [← parse_signs members]
    cases members with
    | nil => rfl
    | cons c members =>
      have hc : (ClassSign.ofMember c).isDash = false := by
        rw [ClassSign.isDash_ofMember, beq_eq_false_iff_ne]
        rintro rfl
        exact h members rfl
      rw [List.map_cons, parseBody, if_neg (by simp [hc])]

/-! ## The characters -/

theorem holds_ofMember {m : ClassMember} (hm : m ≠ .without) (x : Char) (outer : Bool → Bool)
    (union : Bool) (ps : List ClassPart) :
    holds x outer union (ofMember m :: ps) = holds x outer (union || m.accepts x) ps := by
  cases m with
  | single c => rfl
  | range low high => rfl
  | without => exact absurd rfl hm

theorem pieces_cons_member {m : ClassMember} (hm : m ≠ .without) {ms p : List ClassMember}
    {ps : List (List ClassMember)} (h : pieces (· == .without) ms = p :: ps) :
    pieces (· == .without) (m :: ms) = (m :: p) :: ps := by
  have hne : (m == .without) = false := by simpa using hm
  simp [pieces, hne, h]

theorem exists_pieces (ms : List ClassMember) :
    ∃ p ps, pieces (· == .without) ms = p :: ps :=
  List.exists_cons_of_ne_nil (pieces_ne_nil _ ms)

/-- **The characters of the first union that no later one takes out.** What becomes of the first
union makes no difference to the later ones. -/
theorem holds_pieces (x : Char) (outer : Bool → Bool) (union : Bool) {ms p : List ClassMember}
    {ps : List (List ClassMember)} (h : pieces (· == .without) ms = p :: ps) :
    holds x outer union (ms.map ofMember) =
      (outer (union || CharClass.lists p x) && ps.all fun q => !CharClass.lists q x) := by
  induction ms generalizing outer union p ps with
  | nil =>
    obtain ⟨rfl, rfl⟩ := by simpa using h
    simp [holds, CharClass.lists]
  | cons m ms ih =>
    obtain ⟨q, qs, hq⟩ := exists_pieces ms
    by_cases hm : m = .without
    · subst hm
      rw [pieces_cons_mark rfl, hq] at h
      obtain ⟨rfl, rfl⟩ := by simpa using h
      show holds x (ClassOperator.difference.join (outer union)) false (ms.map ofMember) = _
      rw [ih _ _ hq]
      simp [ClassOperator.join, CharClass.lists, Bool.and_assoc]
    · rw [pieces_cons_member hm hq] at h
      obtain ⟨rfl, rfl⟩ := by simpa using h
      rw [List.map_cons, holds_ofMember hm, ih _ _ hq]
      simp [CharClass.lists, Bool.or_assoc]

end ClassPart

namespace ClassExpression

/-- The class of some members has the characters that the glob gives it. -/
theorem accepts_ofMember (negated : Bool) (ms : List ClassMember) (x : Char) :
    accepts ⟨negated, ms.map ClassPart.ofMember⟩ x = CharClass.accepts ⟨negated, ms⟩ x := by
  obtain ⟨p, ps, h⟩ := ClassPart.exists_pieces ms
  rw [accepts, ClassPart.holds_pieces x id false h]
  simp [CharClass.accepts, h]

theorem read?_of_head?_ne {text : Text} (h : text.head? ≠ some '^') :
    read? text = (ClassSign.read? text).map fun signs => ⟨false, ClassPart.parseBody signs⟩ := by
  unfold read?
  split
  · exact absurd rfl h
  · rfl

/-- Members that do not begin with a `^` are not taken for a negated class. -/
theorem head?_written_ne {members : Text} (h : members.head? ≠ some '^') :
    (members.flatMap (escaped expressionClassMarks)).head? ≠ some '^' := by
  cases members with
  | nil => simp
  | cons c members =>
    rw [List.flatMap_cons, escaped]
    split
    · simp
    · simpa using h

/-- A written class is read as the parts that the glob has. -/
theorem read?_written_eq (contents : Text) :
    read? (CharClass.written contents) = some ⟨(CharClass.ofContents contents).negated,
      (CharClass.ofContents contents).members.map ClassPart.ofMember⟩ := by
  by_cases hmarked : CharClass.IsMarked contents
  · obtain ⟨c, members, rfl, hc⟩ := hmarked.exists_cons
    rw [CharClass.written_cons hc, CharClass.ofContents_cons hc, read?, ClassSign.read?_written,
      Option.map_some, ClassPart.parseBody_signs]
  · rw [CharClass.written_of_not_isMarked hmarked, CharClass.ofContents_of_not_isMarked hmarked]
    have hhead : contents.head? ≠ some '^' := fun h => hmarked (.inr h)
    rw [read?_of_head?_ne (head?_written_ne hhead), ClassSign.read?_written, Option.map_some,
      ClassPart.parseBody_signs]

/-- **A written class can be read**, and it has the characters that the glob gives it. -/
theorem read?_written (contents : Text) :
    ∃ e, read? (CharClass.written contents) = some e ∧
      ∀ x, e.accepts x = (CharClass.ofContents contents).accepts x :=
  ⟨_, read?_written_eq contents, accepts_ofMember _ _⟩

end ClassExpression

end PathFilter
