import TokenFeedback.Proofs.BigEndian
import TokenFeedback.Record.Decoder

/-!
# The wire form of records

A record that has a wire form is a header, which is the header of a decoder that awaits the
record's token, and the token.

* `Record.toSecond`: a record as its wire form carries it, to the whole second.
* `Record.encode_eq_ok_iff`: which records have a wire form, and what it is.
* `encodeAll_cons_eq_ok_iff`: the wire form of a list, record by record.
* `wireLength`: how many bytes a list of records takes.
-/

namespace TokenFeedback

/-- The point of time without its fraction of a second. A leap second belongs to the second before
it. -/
def Timestamp.floor (t : Timestamp) : Timestamp :=
  ⟨t.secs, 0, t.dated.1, t.dated.2.1, by decide⟩

theorem Timestamp.floor_eq_self_iff (t : Timestamp) : t.floor = t ↔ t.nanos = 0 := by
  obtain ⟨secs, nanos, dated⟩ := t
  rw [floor, Timestamp.mk.injEq]
  exact ⟨fun h => h.2.symm, fun h => ⟨rfl, h.symm⟩⟩

namespace Record

/-- A record as its wire form carries it. -/
def toSecond (r : Record) : Record := ⟨r.token, r.expiration.floor⟩

theorem toSecond_eq_self_iff (r : Record) : r.toSecond = r ↔ r.expiration.nanos = 0 := by
  obtain ⟨token, expiration⟩ := r
  rw [toSecond, Record.mk.injEq, Timestamp.floor_eq_self_iff]
  exact ⟨fun h => h.2, fun h => ⟨rfl, h⟩⟩

/-- The decoder's record is the sent one to the second. -/
theorem ofWire_eq_toSecond {r : Record} {e : UInt32} (h : r.timestamp = e.toNat) :
    ofWire r.token e = r.toSecond := by
  have hs : r.expiration.secs = e.toNat := h
  rw [ofWire, toSecond, Record.mk.injEq]
  refine ⟨rfl, ?_⟩
  rw [Timestamp.floor, Timestamp.ofWire, Timestamp.mk.injEq]
  exact ⟨hs.symm, rfl⟩

/-- **Which records have a wire form, and what it is**: the fields of a header that hold the
time and the length of the token, and the token. -/
theorem encode_eq_ok_iff (r : Record) (wire : Bytes) :
    r.encode = .ok wire ↔
      ∃ (e : UInt32) (n : UInt16), r.timestamp = e.toNat ∧ r.token.length = n.toNat ∧
        wire = (Awaiting.token e n).header ++ r.token := by
  constructor
  · intro h
    by_cases hl : r.token.length > maxTokenLength
    · rw [encode, if_pos hl] at h
      cases h
    by_cases ht : 0 ≤ r.timestamp ∧ r.timestamp < 4294967296
    · have hn : r.token.length < 65536 := Nat.lt_succ_of_le (Nat.not_lt.1 hl)
      rw [encode, if_neg hl, wireExpiration, if_pos ht] at h
      have hw : bigEndian 4 r.timestamp.toNat ++ bigEndian 2 r.token.length ++ r.token = wire :=
        Except.ok.inj h
      have ht' : r.timestamp.toNat < UInt32.size := (Int.toNat_lt ht.1).2 ht.2
      have he : (UInt32.ofNat r.timestamp.toNat).toNat = r.timestamp.toNat :=
        UInt32.toNat_ofNat_of_lt' ht'
      have hm : (UInt16.ofNat r.token.length).toNat = r.token.length :=
        UInt16.toNat_ofNat_of_lt' hn
      refine ⟨.ofNat r.timestamp.toNat, .ofNat r.token.length, ?_, hm.symm, ?_⟩
      · rw [he, Int.toNat_of_nonneg ht.1]
      rw [Awaiting.header, he, hm, hw]
    · rw [encode, if_neg hl, wireExpiration, if_neg ht] at h
      cases h
  · rintro ⟨e, n, he, hn, rfl⟩
    have h32 := e.toNat_lt
    have h16 := n.toNat_lt
    have hl : ¬ r.token.length > maxTokenLength := by
      rw [hn]
      exact Nat.not_lt.2 (Nat.le_of_lt_succ h16)
    rw [encode, if_neg hl, wireExpiration, if_pos (by omega), he, hn]
    rfl

theorem encode_ofWire {token : Bytes} {n : UInt16} (h : token.length = n.toNat) (e : UInt32) :
    (ofWire token e).encode = .ok ((Awaiting.token e n).header ++ token) :=
  (encode_eq_ok_iff _ _).2 ⟨e, n, rfl, h, rfl⟩

theorem length_of_encode {r : Record} {wire : Bytes} (h : r.encode = .ok wire) :
    wire.length = r.encodedLength := by
  obtain ⟨e, n, -, -, rfl⟩ := (encode_eq_ok_iff r wire).1 h
  simp only [Awaiting.header, List.length_append, length_bigEndian, encodedLength]

end Record

/-- **The wire form of a list, record by record.** -/
theorem encodeAll_cons_eq_ok_iff (r : Record) (rs : List Record) (wire : Bytes) :
    encodeAll (r :: rs) = .ok wire ↔
      ∃ first rest, r.encode = .ok first ∧ encodeAll rs = .ok rest ∧ first ++ rest = wire := by
  rw [encodeAll]
  rcases r.encode with e | first
  · exact ⟨fun h => (by cases h), fun ⟨_, _, h, _⟩ => (by cases h)⟩
  rcases encodeAll rs with e | rest
  · exact ⟨fun h => (by cases h), fun ⟨_, _, _, h, _⟩ => (by cases h)⟩
  constructor
  · intro h
    exact ⟨first, rest, rfl, rfl, Except.ok.inj h⟩
  · rintro ⟨_, _, h, h', rfl⟩
    rw [← Except.ok.inj h, ← Except.ok.inj h']
    rfl

/-- How many bytes a list of records takes on the wire. -/
def wireLength (rs : List Record) : Nat := (rs.map Record.encodedLength).sum

theorem length_of_encodeAll {rs : List Record} {wire : Bytes} (h : encodeAll rs = .ok wire) :
    wire.length = wireLength rs := by
  induction rs generalizing wire with
  | nil => rw [← Except.ok.inj h]; rfl
  | cons r rs ih =>
    obtain ⟨first, rest, h1, h2, rfl⟩ := (encodeAll_cons_eq_ok_iff r rs wire).1 h
    rw [List.length_append, Record.length_of_encode h1, ih h2]
    simp only [wireLength, List.map_cons, List.sum_cons]

end TokenFeedback
