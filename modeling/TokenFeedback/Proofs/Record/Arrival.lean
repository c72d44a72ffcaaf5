import Mathlib.Order.Bounds.Basic
import TokenFeedback.Proofs.Record.Parse

/-!
# When a record arrives

Of the wire form of a list of records only the first bytes may have come. The decoder has then
given exactly the records whose last byte is among them.

* `Decoder.drain_of_prefix`: no record comes before its last byte.
* `Decoder.drain_take_encodeAll`: **which records any first part of the wire form gives, and
  whether a record is under way after it.**
-/

namespace TokenFeedback

theorem wireLength_cons (r : Record) (rs : List Record) :
    wireLength (r :: rs) = r.encodedLength + wireLength rs := by
  simp only [wireLength, List.map_cons, List.sum_cons]

theorem wireLength_take_mono (rs : List Record) {i j : Nat} (h : i ≤ j) :
    wireLength (rs.take i) ≤ wireLength (rs.take j) := by
  induction rs generalizing i j with
  | nil => simp only [List.take_nil, le_refl]
  | cons r rs ih =>
    cases i with
    | zero => exact Nat.zero_le _
    | succ i =>
      obtain ⟨j, rfl⟩ : ∃ m, j = m + 1 := ⟨j - 1, by omega⟩
      rw [List.take_succ_cons, List.take_succ_cons, wireLength_cons, wireLength_cons]
      have := ih (i := i) (j := j) (by omega)
      omega

theorem wireLength_toSecond (rs : List Record) :
    wireLength (rs.map Record.toSecond) = wireLength rs := by
  rw [wireLength, List.map_map]
  rfl

namespace Decoder

/-- **No record comes before its last byte**: the wire form of a record begins with that of no
other record. -/
theorem drain_of_prefix {r : Record} {part missing : Bytes}
    (h : r.encode = .ok (part ++ missing)) (hm : missing ≠ []) :
    (fresh.feed part).drain.1 = [] := by
  obtain ⟨-, wire, he, ha⟩ := drain_accounts (fresh.feed part)
  rcases hd : (fresh.feed part).drain.1 with _ | ⟨r', rs⟩
  · rfl
  -- a first record would be decoded out of the whole wire form too, with bytes left behind it
  rw [hd] at he
  obtain ⟨first, rest, h1, -, rfl⟩ := (encodeAll_cons_eq_ok_iff r' rs wire).1 he
  have hp : first ++ (rest ++ (fresh.feed part).drain.2.remainder) = part := by
    rw [← List.append_assoc]
    exact ha
  have hr := Awaiting.decode_encode h []
  have hr' := Awaiting.decode_encode h1
    (rest ++ (fresh.feed part).drain.2.remainder ++ missing)
  rw [← List.append_assoc, hp] at hr'
  rw [List.append_nil, hr'] at hr
  have hnil : rest ++ (fresh.feed part).drain.2.remainder ++ missing = [] :=
    (Prod.mk.inj (Prod.mk.inj hr).2).2
  exact absurd (List.append_eq_nil_iff.1 hnil).2 hm

/-- The records that a first part of the wire form gives, counted. -/
theorem drain_take {ts : List Record} {wire : Bytes} {k : Nat} (h : encodeAll ts = .ok wire) :
    ∃ i, IsGreatest {j | j ≤ ts.length ∧ wireLength (ts.take j) ≤ k} i ∧
      (fresh.feed (wire.take k)).drain.1 = (ts.take i).map Record.toSecond := by
  induction ts generalizing wire k with
  | nil =>
    refine ⟨0, ⟨⟨Nat.le_refl 0, Nat.zero_le k⟩, fun j hj => hj.1⟩, ?_⟩
    rw [← Except.ok.inj h, List.take_nil, feed_nil, drain_of_short fresh_stalled]
    rfl
  | cons t ts ih =>
    obtain ⟨first, rest, h1, h2, rfl⟩ := (encodeAll_cons_eq_ok_iff t ts wire).1 h
    have hl := Record.length_of_encode h1
    rcases Nat.lt_or_ge k first.length with hk | hk
    · -- the first record is not complete
      refine ⟨0, ⟨⟨Nat.zero_le _, Nat.zero_le k⟩, ?_⟩, ?_⟩
      · intro j hj
        rcases j with _ | j
        · exact Nat.le_refl 0
        · have hw := hj.2
          rw [List.take_succ_cons, wireLength_cons] at hw
          omega
      · have hsplit : t.encode = .ok (first.take k ++ first.drop k) := by
          rw [List.take_append_drop, h1]
        have hne : first.drop k ≠ [] := by
          intro hnil
          have := List.drop_eq_nil_iff.1 hnil
          omega
        rw [List.take_append_of_le_length (Nat.le_of_lt hk), drain_of_prefix hsplit hne]
        rfl
    · -- the first record is complete, and the rest is a shorter list
      obtain ⟨i, ⟨⟨hi, hw⟩, hmax⟩, hd⟩ := ih (k := k - first.length) h2
      refine ⟨i + 1, ⟨⟨Nat.succ_le_succ hi, ?_⟩, ?_⟩, ?_⟩
      · rw [List.take_succ_cons, wireLength_cons]
        omega
      · intro j hj
        rcases j with _ | j
        · exact Nat.zero_le _
        · have hwj := hj.2
          rw [List.take_succ_cons, wireLength_cons] at hwj
          exact Nat.succ_le_succ (hmax ⟨Nat.le_of_succ_le_succ hj.1, by omega⟩)
      · rw [List.take_append, List.take_of_length_le hk, drain_encode h1, hd]
        rfl

/-- **Decoding undoes encoding on every first part of the wire form.** Of records that have a wire
form, the first `k` bytes give the first `i`, where `i` is the largest number of records that fit in
`k` bytes. Each has its token and its time to the second, so it is the record itself exactly when
its time is a whole second. A record is under way after the `k` bytes exactly when no number of
records takes `k` bytes. -/
theorem drain_take_encodeAll {ts : List Record} {wire : Bytes} {k : Nat}
    (h : encodeAll ts = .ok wire) (hk : k ≤ wire.length) :
    (∃ i, IsGreatest {j | j ≤ ts.length ∧ wireLength (ts.take j) ≤ k} i ∧
        (fresh.feed (wire.take k)).drain.1 = (ts.take i).map Record.toSecond) ∧
      (∀ t ∈ ts, t.toSecond.token = t.token ∧ t.toSecond.timestamp = t.timestamp ∧
        t.toSecond.expiration.nanos = 0 ∧ (t.toSecond = t ↔ t.expiration.nanos = 0)) ∧
      ((fresh.feed (wire.take k)).drain.2.hasRemainder = true ↔
        ∀ j ≤ ts.length, wireLength (ts.take j) ≠ k) := by
  obtain ⟨i, hi, hd⟩ := drain_take (k := k) h
  refine ⟨⟨i, hi, hd⟩, fun t _ => ⟨rfl, rfl, rfl, t.toSecond_eq_self_iff⟩, ?_⟩
  -- what is under way is as long as the bytes that the given records leave
  obtain ⟨-, given, he, ha⟩ := drain_accounts (fresh.feed (wire.take k))
  rw [hd] at he
  have hl := length_of_encodeAll he
  rw [wireLength_toSecond] at hl
  have hsum := congrArg List.length ha
  rw [List.length_append, hl] at hsum
  have hr : (fresh.feed (wire.take k)).remainder.length = k := List.length_take_of_le hk
  rw [hr] at hsum
  rw [hasRemainder_iff, ← List.length_pos_iff]
  constructor
  · intro hpos j hj hjk
    have hji := hi.2 ⟨hj, Nat.le_of_eq hjk⟩
    have := wireLength_take_mono ts hji
    omega
  · intro hne
    have := hne i hi.1.1
    omega

/-- A record inside a leap second and one with a fraction, cut inside the header of the second. -/
theorem drain_take_encodeAll_leap_second :
    encodeAll [⟨[7, 8], ⟨59, 1500000000, by decide⟩⟩, ⟨[], ⟨60, 250000000, by decide⟩⟩] =
        .ok [0, 0, 0, 59, 0, 2, 7, 8, 0, 0, 0, 60, 0, 0] ∧
      (fresh.feed [0, 0, 0, 59, 0, 2, 7, 8, 0]).drain.1 = [⟨[7, 8], .ofWire 59⟩] ∧
      (fresh.feed [0, 0, 0, 59, 0, 2, 7, 8, 0]).drain.2.hasRemainder = true := by
  have h : encodeAll [⟨[7, 8], ⟨59, 1500000000, by decide⟩⟩, ⟨[], ⟨60, 250000000, by decide⟩⟩] =
      .ok [0, 0, 0, 59, 0, 2, 7, 8, 0, 0, 0, 60, 0, 0] := by rfl
  obtain ⟨⟨i, hi, hd⟩, -, hr⟩ := drain_take_encodeAll (k := 9) h (by decide)
  have h1 : 1 ≤ i := hi.2 (by decide)
  have h2 : i < 2 := by
    by_contra hge
    obtain rfl : i = 2 := by
      have := hi.1.1
      rw [List.length_cons, List.length_singleton] at this
      omega
    exact absurd hi.1.2 (by decide)
  obtain rfl : i = 1 := by omega
  exact ⟨h, hd, hr.2 (by decide)⟩

end Decoder

end TokenFeedback
