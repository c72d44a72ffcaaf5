import Mathlib.Algebra.Ring.Nat
import Mathlib.Data.List.Induction
import TokenFeedback.Bytes

/-!
# Numbers on the wire

Writing a number and reading it back, and reading bytes and writing them back.

* `ofBigEndian_bigEndian`: a number that fits in its bytes is read back.
* `bigEndian_ofBigEndian`: any run of bytes is the written form of the number that it spells.
-/

namespace TokenFeedback

theorem ofBigEndian_concat (bytes : Bytes) (b : UInt8) :
    ofBigEndian (bytes ++ [b]) = ofBigEndian bytes * 256 + b.toNat := by
  simp [ofBigEndian, List.foldl_append]

/-- A number that fits in its bytes is read back. -/
theorem ofBigEndian_bigEndian (width n : Nat) (h : n < 256 ^ width) :
    ofBigEndian (bigEndian width n) = n := by
  induction width generalizing n with
  | zero =>
    have hn : n = 0 := by simpa using h
    rw [hn]
    rfl
  | succ width ih =>
    have hq : n / 256 < 256 ^ width := by
      rw [Nat.pow_succ] at h
      exact Nat.div_lt_of_lt_mul (by omega)
    rw [bigEndian, ofBigEndian_concat, ih _ hq, UInt8.toNat_ofNat']
    omega

/-- Any run of bytes is the written form of the number that it spells. -/
theorem bigEndian_ofBigEndian (bytes : Bytes) :
    bigEndian bytes.length (ofBigEndian bytes) = bytes := by
  induction bytes using List.reverseRecOn with
  | nil => rfl
  | append_singleton bytes b ih =>
    have hb := b.toNat_lt
    have hq : (ofBigEndian bytes * 256 + b.toNat) / 256 = ofBigEndian bytes := by omega
    have hr : UInt8.ofNat (ofBigEndian bytes * 256 + b.toNat) = b := by
      rw [← UInt8.toNat_inj, UInt8.toNat_ofNat']
      omega
    rw [List.length_append, List.length_singleton, bigEndian, ofBigEndian_concat, hq, ih, hr]

/-- A run of bytes spells a number that fits in them. -/
theorem ofBigEndian_lt (bytes : Bytes) : ofBigEndian bytes < 256 ^ bytes.length := by
  induction bytes using List.reverseRecOn with
  | nil => decide
  | append_singleton bytes b ih =>
    have hb := b.toNat_lt
    rw [ofBigEndian_concat, List.length_append, List.length_singleton, Nat.pow_succ]
    omega

end TokenFeedback
