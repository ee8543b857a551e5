/-!
# Numbers with one decimal place

A binary fraction is written with one decimal place by rounding its exact value; a value half-way
between two tenths goes to the even one.

## Main definitions

* `roundDiv num den`: the integer nearest to a quotient
* `Binary`: a fraction whose denominator is a power of two
* `Binary.ofFloat`: the exact value of a floating-point number without its sign
* `Binary.tenths`: the value in tenths

## Main results

* `two_mul_roundDiv_le`, `le_two_mul_roundDiv`: the rounded quotient is off by half a unit at most
-/

namespace PathFilter

/-- **The integer nearest to a quotient.** A tie goes to the even one. -/
def roundDiv (num den : Nat) : Nat :=
  let q := num / den
  let r := num % den
  if 2 * r < den then q
  else if den < 2 * r then q + 1
  else if q % 2 = 0 then q
  else q + 1

/-- The rounded quotient exceeds the quotient by half a unit at most. -/
theorem two_mul_roundDiv_le (num : Nat) {den : Nat} (h : 0 < den) :
    2 * den * roundDiv num den ≤ 2 * num + den := by
  have hd := Nat.div_add_mod num den
  have hm := Nat.mod_lt num h
  have he : den * (num / den + 1) = den * (num / den) + den := Nat.mul_succ _ _
  unfold roundDiv
  dsimp only
  split
  · rw [Nat.mul_assoc]
    omega
  · split
    · rw [Nat.mul_assoc]
      omega
    · split <;> rw [Nat.mul_assoc] <;> omega

/-- The rounded quotient falls short of the quotient by half a unit at most. -/
theorem le_two_mul_roundDiv (num : Nat) {den : Nat} (h : 0 < den) :
    2 * num ≤ 2 * den * roundDiv num den + den := by
  have hd := Nat.div_add_mod num den
  have hm := Nat.mod_lt num h
  have he : den * (num / den + 1) = den * (num / den) + den := Nat.mul_succ _ _
  unfold roundDiv
  dsimp only
  split
  · rw [Nat.mul_assoc]
    omega
  · split
    · rw [Nat.mul_assoc]
      omega
    · split <;> rw [Nat.mul_assoc] <;> omega

/-- A fraction whose denominator is a power of two. -/
structure Binary where
  numerator : Nat
  /-- The exponent of the denominator. -/
  places : Nat
deriving DecidableEq, Repr

namespace Binary

/-- A power of two. -/
def twoPow (n : Nat) : Nat := Nat.pow 2 n

/-- The exact value of a finite floating-point number, its sign left out. Of its 64 bits, 11 are the
exponent and 52 the fraction. -/
def ofFloat (x : Float) : Binary :=
  let bits := x.toBits.toNat
  let exponent := bits / twoPow 52 % twoPow 11
  let fraction := bits % twoPow 52
  if exponent = 0 then ⟨fraction, 1074⟩
  else if exponent ≤ 1075 then ⟨twoPow 52 + fraction, 1075 - exponent⟩
  else ⟨(twoPow 52 + fraction) * twoPow (exponent - 1075), 0⟩

/-- The value in tenths. -/
def tenths (b : Binary) : Nat := roundDiv (10 * b.numerator) (twoPow b.places)

/-- **The value with one decimal place.** -/
def toTenths (b : Binary) : String :=
  let n := b.tenths
  ToString.toString (n / 10) ++ "." ++ ToString.toString (n % 10)

end Binary

end PathFilter
