import PathFilter.Proofs.Text.Decoding
import PathFilter.FileTree.Basic

/-!
# Names in the order of their bytes

Names are put in order character by character. Since a greater character has greater bytes in
UTF-8, this is the order of the bytes as well.

## Main results

* `Text.utf8EncodeChar_append_lt`: a greater character has greater bytes, whatever follows
* `utf8_lt_of_nameLe`: of two names, the one that comes first has the lesser bytes
-/

namespace PathFilter

/-- A greater character has greater bytes, whatever follows. -/
theorem Text.utf8EncodeChar_append_lt {c d : Char} (h : c.val < d.val) (s t : List UInt8) :
    String.utf8EncodeChar c ++ s < String.utf8EncodeChar d ++ t := by
  have hlt : c.val.toNat < d.val.toNat := UInt32.lt_iff_toNat_lt.mp h
  have hmax : d.val.toNat < 1114112 := by
    rcases d.valid with hd | ⟨-, hd⟩
    · exact Nat.lt_trans hd (by decide)
    · exact hd
  simp only [String.utf8EncodeChar]
  generalize c.val.toNat = m at hlt ⊢
  generalize d.val.toNat = n at hlt hmax ⊢
  -- the bytes hold the digits to the base 64
  have hdigits (k : Nat) : k / 4096 = k / 64 / 64 ∧ k / 262144 = k / 64 / 64 / 64 := by
    simp only [Nat.div_div_eq_div_mul, and_self]
  simp only [(hdigits _).1, (hdigits _).2]
  -- encodings of two lengths differ in the first byte, others in the first digit that does
  repeat' split
  all_goals
    simp only [List.cons_append, List.nil_append, List.cons_lt_cons_iff, UInt8.lt_iff_toNat_lt,
      ← UInt8.toNat_inj, UInt8.toNat_ofNat']
    omega

/-- Of two names, the one that comes first has the lesser bytes. -/
theorem utf8_lt_of_nameLe {s t : Text} (h : nameLe s t = true) (hne : s ≠ t) :
    s.utf8 < t.utf8 := by
  induction s generalizing t with
  | nil =>
    obtain ⟨b, bs, hb⟩ := List.exists_cons_of_ne_nil
      (mt Text.utf8_eq_nil_iff.mp (Ne.symm hne))
    rw [hb]
    exact List.nil_lt_cons b bs
  | cons c s ih =>
    cases t with
    | nil => simp [nameLe] at h
    | cons d t =>
      simp only [nameLe] at h
      split at h
      · next hlt => exact Text.utf8EncodeChar_append_lt hlt _ _
      · split at h
        · cases h
        · next hle hge =>
          obtain rfl : c = d := Char.ext (UInt32.le_antisymm (UInt32.not_lt.mp hge)
            (UInt32.not_lt.mp hle))
          exact List.append_left_lt (ih h fun hst => hne (by rw [hst]))

end PathFilter
