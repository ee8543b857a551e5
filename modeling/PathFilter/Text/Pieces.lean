/-!
# Cutting a list at marks

A list cut at every element that is a mark: the pieces between the marks, in order. Lines are the
pieces of a file between line feeds, names the pieces of a path between slashes, and the tokens of
a flag list the pieces between commas.

## Main definitions

* `pieces isMark xs`: the pieces of `xs`, one more than there are marks

## Main results

* `pieces_ne_nil`: there is always at least one piece
* `length_pieces`: there is one piece more than there are marks
* `mark_not_mem_pieces`: no piece holds a mark
* `intercalate_pieces`: nothing is lost
* `pieces_append_cons`: a mark between two lists separates their pieces
-/

namespace PathFilter

variable {α : Type}

/-- **The pieces** of a list between its marks. A list without marks is its only piece, so the
empty list has the empty piece. -/
def pieces (isMark : α → Bool) : List α → List (List α)
  | [] => [[]]
  | x :: xs =>
    if isMark x then [] :: pieces isMark xs
    else
      match pieces isMark xs with
      | [] => [[x]]
      | p :: ps => (x :: p) :: ps

@[simp] theorem pieces_nil (isMark : α → Bool) : pieces isMark [] = [[]] := rfl

theorem pieces_ne_nil (isMark : α → Bool) (xs : List α) : pieces isMark xs ≠ [] := by
  cases xs with
  | nil => simp
  | cons x xs =>
    rw [pieces]
    split
    · simp
    · split <;> simp

theorem pieces_cons_mark {isMark : α → Bool} {x : α} (hx : isMark x = true) (xs : List α) :
    pieces isMark (x :: xs) = [] :: pieces isMark xs := by
  simp [pieces, hx]

theorem pieces_of_unmarked {isMark : α → Bool} {xs : List α} (h : ∀ x ∈ xs, isMark x = false) :
    pieces isMark xs = [xs] := by
  induction xs with
  | nil => rfl
  | cons x xs ih =>
    have hx := h x (by simp)
    simp [pieces, hx, ih fun y hy => h y (by simp [hy])]

/-- Unmarked elements before a list belong to its first piece. -/
theorem pieces_append_of_unmarked {isMark : α → Bool} {xs ys p : List α} {ps : List (List α)}
    (h : ∀ x ∈ xs, isMark x = false) (hp : pieces isMark ys = p :: ps) :
    pieces isMark (xs ++ ys) = (xs ++ p) :: ps := by
  induction xs with
  | nil => exact hp
  | cons x xs ih =>
    have hx : isMark x = false := h x List.mem_cons_self
    have hrest := ih fun y hy => h y (List.mem_cons_of_mem _ hy)
    simp [pieces, hx, hrest]

/-- There is one piece more than there are marks. -/
theorem length_pieces (isMark : α → Bool) (xs : List α) :
    (pieces isMark xs).length = xs.countP isMark + 1 := by
  induction xs with
  | nil => rfl
  | cons x xs ih =>
    cases hx : isMark x with
    | true => simp [pieces, hx, ih]
    | false =>
      rcases hp : pieces isMark xs with _ | ⟨p, ps⟩
      · exact absurd hp (pieces_ne_nil isMark xs)
      · simp [pieces, hx, hp] at ih ⊢
        omega

/-- No piece holds a mark. -/
theorem mark_not_mem_pieces (isMark : α → Bool) (xs : List α) :
    ∀ p ∈ pieces isMark xs, ∀ x ∈ p, isMark x = false := by
  induction xs with
  | nil => simp
  | cons y xs ih =>
    cases hy : isMark y with
    | true => simpa [pieces, hy] using ih
    | false =>
      rcases hp : pieces isMark xs with _ | ⟨q, qs⟩
      · exact absurd hp (pieces_ne_nil isMark xs)
      · rw [hp] at ih
        simp only [pieces, hy, hp]
        intro p hmem x hx
        rcases List.mem_cons.mp hmem with rfl | hmem
        · rcases List.mem_cons.mp hx with rfl | hx
          · exact hy
          · exact ih q (by simp) x hx
        · exact ih p (by simp [hmem]) x hx

/-- Joined by the mark, the pieces are the list again. -/
theorem intercalate_pieces [BEq α] [LawfulBEq α] (x : α) (xs : List α) :
    [x].intercalate (pieces (· == x) xs) = xs := by
  induction xs with
  | nil => rfl
  | cons y xs ih =>
    rcases hp : pieces (· == x) xs with _ | ⟨p, ps⟩
    · exact absurd hp (pieces_ne_nil _ xs)
    · rw [hp] at ih
      by_cases hy : y = x
      · subst hy
        rw [pieces_cons_mark (by simp), hp]
        rw [List.intercalate_cons_cons]
        simp [ih]
      · have hne : (y == x) = false := by simpa using hy
        rw [pieces, hne, hp]
        cases ps with
        | nil => simpa using ih
        | cons q qs => simpa [List.intercalate_cons_cons] using ih

/-- A mark between two lists separates their pieces. -/
theorem pieces_append_cons {isMark : α → Bool} {x : α} (hx : isMark x = true) (xs ys : List α) :
    pieces isMark (xs ++ x :: ys) = pieces isMark xs ++ pieces isMark ys := by
  induction xs with
  | nil => simp [pieces, hx]
  | cons z xs ih =>
    cases hz : isMark z with
    | true => simp [pieces, hz, ih]
    | false =>
      rcases hp : pieces isMark xs with _ | ⟨p, ps⟩
      · exact absurd hp (pieces_ne_nil isMark xs)
      · rw [hp] at ih
        simp [pieces, hz, ih, hp]

end PathFilter
