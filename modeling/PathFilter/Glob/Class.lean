import PathFilter.Text.Blank

/-!
# Character classes

The class `[...]` of a glob lists characters and ranges of characters. A `-` is a plain member at
the front and at the end of the class, spans a range between two other members, and doubled
anywhere else takes the members after it out of those before it. A leading `!` or `^` negates the
class as a whole.

## Main definitions

* `ClassMember`: one part of a class as it is written
* `CharClass`: a class, its members and whether they are negated
* `CharClass.accepts`: the characters of a class
* `CharClass.read? text`: the class that the text after a `[` begins with

## Main results

* `CharClass.read?_length`: what follows a class is shorter than the text it was read from
* `CharClass.accepts_negated`: negation exchanges the characters inside and outside
-/

namespace PathFilter

/-- One part of a character class, as it is written. -/
inductive ClassMember where
  /-- The character itself. -/
  | single (c : Char)
  /-- The characters from `low` to `high`; none if they are the wrong way round. -/
  | range (low high : Char)
  /-- What follows is taken out of what came before. -/
  | without
deriving DecidableEq, Repr

namespace ClassMember

/-- The characters a single part stands for. -/
def accepts : ClassMember → Char → Bool
  | single c, x => x == c
  | range low high, x => low.val ≤ x.val && x.val ≤ high.val
  | without, _ => false

/-- The parts of a class after its leading dashes. -/
def parse : Text → List ClassMember
  | [] => []
  | '-' :: '-' :: rest => without :: parse rest
  | c :: '-' :: '-' :: rest => single c :: without :: parse rest
  | low :: '-' :: high :: rest => range low high :: parse rest
  | c :: rest => single c :: parse rest

/-- The parts of a class. The dashes at the front are members. -/
def parseBody : Text → List ClassMember
  | '-' :: rest => single '-' :: parseBody rest
  | rest => parse rest

/-- Whether the part is a range whose ends are the wrong way round. -/
def isBackward : ClassMember → Bool
  | range low high => high.val < low.val
  | _ => false

end ClassMember

/-- A character class: its parts in order, and whether it stands for the other characters. -/
structure CharClass where
  /-- Whether the class begins with a `!` or a `^`. -/
  negated : Bool
  /-- The parts of the class. -/
  members : List ClassMember
deriving DecidableEq, Repr

namespace CharClass

/-- Whether some member accepts the character. -/
def lists (ms : List ClassMember) (x : Char) : Bool := ms.any (·.accepts x)

/-- **The characters of a class**: those of the first list that are in no list taken out of it,
or, if the class is negated, all others. -/
def accepts (cls : CharClass) (x : Char) : Bool :=
  match pieces (· == .without) cls.members with
  | [] => cls.negated
  -- every list behind the first one is taken out, however many dashes were doubled
  | kept :: taken => (lists kept x && taken.all fun ms => !lists ms x) != cls.negated

/-- Negation exchanges the characters inside and outside. -/
theorem accepts_negated (ms : List ClassMember) (x : Char) :
    (CharClass.mk true ms).accepts x = !(CharClass.mk false ms).accepts x := by
  rcases h : pieces (· == .without) ms with _ | ⟨kept, taken⟩ <;> simp [accepts, h]

/-- The text before the first `]` and the text after it. -/
def close? : Text → Option (Text × Text)
  | [] => none
  | ']' :: rest => some ([], rest)
  | c :: rest => (close? rest).map fun (body, after) => (c :: body, after)

/-- The members that the text begins with and the text after the `]` that ends them. A `]` at the
front is a member. -/
def body? : Text → Option (List ClassMember × Text)
  | ']' :: rest =>
    (close? rest).map fun (body, after) => (ClassMember.parseBody (']' :: body), after)
  | text => (close? text).map fun (body, after) => (ClassMember.parseBody body, after)

/-- **The class that the text after a `[` begins with**, and the text after its `]`. There is none
if the class is not closed. -/
def read? : Text → Option (CharClass × Text)
  | '!' :: rest => (body? rest).map fun (ms, after) => (⟨true, ms⟩, after)
  | '^' :: rest => (body? rest).map fun (ms, after) => (⟨true, ms⟩, after)
  | text => (body? text).map fun (ms, after) => (⟨false, ms⟩, after)

theorem close?_length {text body after : Text} (h : close? text = some (body, after)) :
    after.length < text.length := by
  fun_induction close? text generalizing body after with
  | case1 => simp at h
  | case2 rest =>
    obtain ⟨rfl, rfl⟩ := by simpa using h
    simp
  | case3 c rest _ ih =>
    obtain ⟨⟨b, a⟩, hr, he⟩ := Option.map_eq_some_iff.mp h
    obtain ⟨rfl, rfl⟩ := by simpa using he
    have := ih hr
    simp only [List.length_cons]
    omega

theorem body?_length {text after : Text} {ms : List ClassMember}
    (h : body? text = some (ms, after)) : after.length < text.length := by
  unfold body? at h
  split at h <;> obtain ⟨⟨b, a⟩, hr, he⟩ := Option.map_eq_some_iff.mp h <;>
    obtain ⟨-, rfl⟩ := by simpa using he
  · have := close?_length hr
    simp only [List.length_cons]
    omega
  · exact close?_length hr

/-- What follows a class is shorter than the text it was read from. -/
theorem read?_length {text after : Text} {cls : CharClass}
    (h : read? text = some (cls, after)) : after.length < text.length := by
  unfold read? at h
  split at h <;> obtain ⟨⟨ms, a⟩, hr, he⟩ := Option.map_eq_some_iff.mp h <;>
    obtain ⟨-, rfl⟩ := by simpa using he
  · have := body?_length hr
    simp only [List.length_cons]
    omega
  · have := body?_length hr
    simp only [List.length_cons]
    omega
  · exact body?_length hr

end CharClass

end PathFilter
