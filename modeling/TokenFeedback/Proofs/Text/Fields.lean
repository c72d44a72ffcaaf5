import Mathlib.Algebra.Ring.Nat
import TokenFeedback.Text.Digits

/-!
# Texts put together from fields

A text that is put together from fields can be taken apart again if each field has a fixed width or
does not hold the mark that comes behind it. Numbers are fields of fixed width if they have no more
digits than that.

* `eq_of_width`, `eq_of_last_width`: fields of the same width, in front and at the end.
* `eq_of_mark`: fields up to a mark.
* `length_padded`, `isDigit_of_mem_padded`, `padded_inj`: padded numbers.
* `eq_of_padded`: **a text with two padded numbers at its end.**
-/

namespace TokenFeedback.Text

/-- Texts that begin with fields of the same width have the same fields. -/
theorem eq_of_width {a b a' b' : String} (h : a ++ b = a' ++ b') (width : a.length = a'.length) :
    a = a' ∧ b = b' := by
  have hlist : a.toList ++ b.toList = a'.toList ++ b'.toList := by
    rw [← String.toList_append, h, String.toList_append]
  obtain ⟨hfirst, hlast⟩ := List.append_inj hlist width
  exact ⟨String.toList_inj.1 hfirst, String.toList_inj.1 hlast⟩

/-- Texts that end in fields of the same width have the same fields. -/
theorem eq_of_last_width {a b a' b' : String} (h : a ++ b = a' ++ b')
    (width : b.length = b'.length) : a = a' ∧ b = b' := by
  have hlength := congrArg String.length h
  rw [String.length_append, String.length_append, width] at hlength
  exact eq_of_width h (Nat.add_right_cancel hlength)

theorem eq_of_first_mark {mark : Char} {a a' b b' : List Char} (ha : mark ∉ a) (ha' : mark ∉ a')
    (h : a ++ mark :: b = a' ++ mark :: b') : a = a' ∧ b = b' := by
  induction a generalizing a' with
  | nil =>
    cases a' with
    | nil => exact ⟨rfl, (List.cons.inj h).2⟩
    | cons c a' => exact absurd ((List.cons.inj h).1 ▸ List.mem_cons_self) ha'
  | cons c a ih =>
    cases a' with
    | nil => exact absurd ((List.cons.inj h).1 ▸ List.mem_cons_self) ha
    | cons c' a' =>
      obtain ⟨rfl, hrest⟩ := List.cons.inj h
      obtain ⟨rfl, hb⟩ := ih (List.not_mem_of_not_mem_cons ha) (List.not_mem_of_not_mem_cons ha')
        hrest
      exact ⟨rfl, hb⟩

/-- Texts with a field that ends where its mark comes have the same fields. -/
theorem eq_of_mark {separator a a' b b' : String} {mark : Char}
    (begins : separator.toList.head? = some mark) (ha : mark ∉ a.toList) (ha' : mark ∉ a'.toList)
    (h : a ++ separator ++ b = a' ++ separator ++ b') : a = a' ∧ b = b' := by
  obtain ⟨rest, hmark⟩ := List.head?_eq_some_iff.1 begins
  have hlist : a.toList ++ mark :: (rest ++ b.toList) =
      a'.toList ++ mark :: (rest ++ b'.toList) := by
    have hall := congrArg String.toList h
    simpa only [String.toList_append, hmark, List.append_assoc, List.cons_append] using hall
  obtain ⟨hfirst, hlast⟩ := eq_of_first_mark ha ha' hlist
  exact ⟨String.toList_inj.1 hfirst, String.toList_inj.1 (List.append_cancel_left hlast)⟩

/-! ### Padded numbers -/

theorem toList_padded (width n : Nat) :
    (padded width n).toList =
      List.replicate (width - (Nat.toDigits 10 n).length) '0' ++ Nat.toDigits 10 n := by
  rw [padded, String.toList_ofList]
  simp only [Nat.toString_eq_repr, Nat.toList_repr]

theorem isDigit_of_mem_padded {width n : Nat} {c : Char} (h : c ∈ (padded width n).toList) :
    c.isDigit = true := by
  rw [toList_padded, List.mem_append] at h
  rcases h with hzero | hdigit
  · rw [(List.mem_replicate.1 hzero).2]
    rfl
  · exact Nat.isDigit_of_mem_toDigits (by decide) (by decide) hdigit

/-- A number that fits has just its width. -/
theorem length_padded {width n : Nat} (hwidth : 0 < width) (fits : n < 10 ^ width) :
    (padded width n).length = width := by
  have hdigits := (Nat.length_toDigits_le_iff (by decide) hwidth).2 fits
  rw [← String.length_toList, toList_padded, List.length_append, List.length_replicate]
  exact Nat.sub_add_cancel hdigits

/-- Zeros in front of a number do not change it. -/
theorem value_padded (width n : Nat) : Nat.ofDigitChars 10 (padded width n).toList 0 = n := by
  rw [toList_padded, Nat.ofDigitChars_append, Nat.ofDigitChars_replicate_zero, Nat.mul_zero,
    Nat.ofDigitChars_ten_toDigits]

theorem padded_inj {width n n' : Nat} (h : padded width n = padded width n') : n = n' := by
  rw [← value_padded width n, h, value_padded]

/-- **A text with two padded numbers at its end** has these numbers. -/
theorem eq_of_padded {separator a a' : String} {m n m' n' : Nat} (hm : m < 100 ∧ m' < 100)
    (hn : n < 100 ∧ n' < 100)
    (h : a ++ separator ++ padded 2 m ++ separator ++ padded 2 n =
      a' ++ separator ++ padded 2 m' ++ separator ++ padded 2 n') :
    a = a' ∧ m = m' ∧ n = n' := by
  have width {i j : Nat} (hi : i < 100 ∧ j < 100) : (padded 2 i).length = (padded 2 j).length :=
    (length_padded (by decide) hi.1).trans (length_padded (by decide) hi.2).symm
  obtain ⟨hfront, hlast⟩ := eq_of_last_width h (width hn)
  obtain ⟨hfirst, hmiddle⟩ :=
    eq_of_last_width ((String.append_left_inj separator).1 hfront) (width hm)
  exact ⟨(String.append_left_inj separator).1 hfirst, padded_inj hmiddle, padded_inj hlast⟩

end TokenFeedback.Text
