import PathFilter.Directive.Basic
import PathFilter.FilterError

/-!
# The marks of a directive

The first field of a rule line is read from left to right as a sequence of marks. Signs and letters
combine freely, words stand for the signs, and commas separate. The modifiers `e` and `n` count
only after the mark of a merge directive, where they are read before any word. The marks must not
contradict each other, and there must be at least one that asks for something.

## Main definitions

* `Mark`, `Marks`: the marks, and the set of those a field holds
* `Marks.scan`: the marks of a text added to others
* `Marks.check`: the contradictions
* `Marks.parse field`: the marks of a field
* `Marks.directive`: what the marks ask for

## Main results

* `Marks.parse_check`: marks that were read hold no contradiction
-/

namespace PathFilter

/-- A mark that is written as a sign, a letter or a word. -/
inductive Mark where
  | include
  | exclude
  | merge
  | dirMerge
  | protect
  | risk
deriving DecidableEq, Repr

/-- The words for marks. No word is the beginning of another. -/
def Mark.words : List (Text × Mark) :=
  [("dir-merge".toList, .dirMerge), ("exclude".toList, .exclude), ("include".toList, .include),
    ("protect".toList, .protect), ("merge".toList, .merge), ("risk".toList, .risk),
    ("hide".toList, .protect), ("show".toList, .risk)]

/-- The mark that a character stands for. -/
def Mark.ofChar? : Char → Option Mark
  | '+' => some .include
  | '-' => some .exclude
  | '.' => some .merge
  | ':' => some .dirMerge
  | 'P' => some .protect
  | 'H' => some .protect
  | 'R' => some .risk
  | 'S' => some .risk
  | _ => none

/-- The mark whose word the text begins with, and the rest of the text. -/
def Mark.word? (text : Text) : Option (Mark × Text) :=
  words.findSome? fun (word, mark) =>
    if word.isPrefixOf text then some (mark, text.drop word.length) else none

/-- **The marks of a field.** -/
structure Marks where
  including : Bool
  excluding : Bool
  merge : Bool
  dirMerge : Bool
  protect : Bool
  risk : Bool
  /-- The modifier `e`: the rule file excludes itself. -/
  excludeSelf : Bool
  /-- The modifier `n`: rules from above are no longer seen. -/
  noInherit : Bool
deriving DecidableEq, Repr

namespace Marks

/-- No marks. -/
def none : Marks := ⟨false, false, false, false, false, false, false, false⟩

/-- The marks with one more. -/
def add (m : Marks) : Mark → Marks
  | .include => { m with including := true }
  | .exclude => { m with excluding := true }
  | .merge => { m with merge := true }
  | .dirMerge => { m with dirMerge := true }
  | .protect => { m with protect := true }
  | .risk => { m with risk := true }

/-- Whether the marks are those of a merge directive. -/
def isMerge (m : Marks) : Bool := m.merge || m.dirMerge

/-- Whether the marks are those of a rule about deletion. -/
def isDeletion (m : Marks) : Bool := m.protect || m.risk

end Marks

theorem Mark.word?_length {text rest : Text} {mark : Mark} (h : word? text = some (mark, rest)) :
    rest.length < text.length := by
  obtain ⟨⟨word, k⟩, hm, h⟩ := List.exists_of_findSome?_eq_some h
  obtain ⟨hp, -, rfl⟩ : word <+: text ∧ k = mark ∧ text.drop word.length = rest := by
    simpa [List.isPrefixOf_iff_prefix] using h
  have hle := hp.length_le
  have hpos : 0 < word.length := by
    simp only [words, List.mem_cons, Prod.mk.injEq, List.not_mem_nil, or_false] at hm
    rcases hm with ⟨rfl, -⟩ | ⟨rfl, -⟩ | ⟨rfl, -⟩ | ⟨rfl, -⟩ | ⟨rfl, -⟩ | ⟨rfl, -⟩ | ⟨rfl, -⟩ |
      ⟨rfl, -⟩ <;> decide
  rw [List.length_drop]
  omega

namespace Marks

/-- **The marks of a text added to those before it.** After the mark of a merge directive the
letters `e` and `n` are modifiers, and `w` is refused. -/
def scan (m : Marks) (text : Text) : Except LineFault Marks :=
  match text with
  | [] => .ok m
  | c :: rest =>
    -- behind a merge mark an `e` is the modifier, even that of `exclude`
    if m.isMerge && c == 'e' then scan { m with excludeSelf := true } rest
    else if m.isMerge && c == 'n' then scan { m with noInherit := true } rest
    else if m.isMerge && c == 'w' then .error .unsupported
    else
      match _h : Mark.word? (c :: rest) with
      | some (mark, after) => scan (m.add mark) after
      | .none =>
        match Mark.ofChar? c with
        | some mark => scan (m.add mark) rest
        | .none =>
          if c == ',' then scan m rest
          else if c == 'e' || c == 'n' || c == 'w' then .error (.misplaced c)
          else .error (.unknown c)
termination_by text.length
decreasing_by
  all_goals try simp only [List.length_cons]; omega
  exact Mark.word?_length _h

/-- Whether the marks contradict each other. -/
def isContradictory (m : Marks) : Bool :=
  (m.merge && m.dirMerge) || (m.including && m.excluding) || (m.protect && m.risk) ||
    (m.isDeletion && (m.including || m.excluding || m.isMerge))

/-- Whether the marks ask for nothing. -/
def isIdle (m : Marks) : Bool := !(m.including || m.excluding || m.isDeletion || m.isMerge)

/-- The marks, provided that they agree with each other and ask for something. -/
def check (m : Marks) : Except LineFault Marks :=
  if m.isContradictory then .error .contradiction
  else if m.isIdle then .error .format
  else .ok m

/-- **The marks that a field spells.** -/
def parse (field : Text) : Except LineFault Marks := scan none field >>= check

/-- The polarity that the marks name. -/
def polarity? (m : Marks) : Option Polarity :=
  if m.including then some .include else if m.excluding then some .exclude else Option.none

/-- The options of a merge directive with these marks. -/
def options (m : Marks) : MergeOptions := ⟨m.polarity?, m.excludeSelf, m.noInherit⟩

/-- **What the marks ask for.** -/
def directive (m : Marks) : Directive :=
  if m.merge then .merge m.options
  else if m.dirMerge then .dirMerge m.options
  else if m.protect then .rule .exclude .protect
  else if m.risk then .rule .include .risk
  else .rule (m.polarity?.getD .exclude) .ordinary

/-- Marks that were read hold no contradiction and ask for something. -/
theorem parse_check {field : Text} {m : Marks} (h : parse field = .ok m) :
    m.isContradictory = false ∧ m.isIdle = false := by
  unfold parse at h
  cases hs : scan none field with
  | error e => simp [hs, bind, Except.bind] at h
  | ok m' =>
    simp only [hs, bind, Except.bind, check] at h
    split at h
    · simp at h
    · split at h
      · simp at h
      · obtain rfl := by simpa using h
        simp_all

end Marks

end PathFilter
