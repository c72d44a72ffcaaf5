import TokenFeedback.Proofs.Record.Parse
import TokenFeedback.Proofs.Stream.Contribution

/-!
# What a stream leaves

The bytes of a stream are the wire forms of its records and, behind them, the residue: the beginning
of one more record.

* `recordsOf_accounts`: records and residue make up the stream.
* `Decoder.Stalled.exists_completion`: a residue is part of the wire form of a record, and not all
  of it.
* `hasRemainder_after_iff`: a residue is left exactly when the stream is no list of whole records.
-/

namespace TokenFeedback

/-- The bytes that belong to no record of the stream. -/
def residueOf (stream : Bytes) : Bytes := (Decoder.after stream).remainder

/-- **Records and residue make up the stream.** -/
theorem recordsOf_accounts (stream : Bytes) :
    ∃ wire, encodeAll (recordsOf stream) = .ok wire ∧ wire ++ residueOf stream = stream := by
  obtain ⟨-, wire, he, ha⟩ := Decoder.drain_accounts (Decoder.fresh.feed stream)
  exact ⟨wire, he, ha⟩

/-- Whole records leave nothing. -/
theorem residueOf_encodeAll {records : List Record} {stream : Bytes}
    (h : encodeAll records = .ok stream) : residueOf stream = [] := by
  have hd := Decoder.drain_encodeAll h []
  rw [List.append_nil, Decoder.feed_nil, Decoder.drain_of_short Decoder.fresh_stalled] at hd
  rw [residueOf, Decoder.after, hd]
  rfl

/-- **A residue is left exactly when the stream is no list of whole records.** -/
theorem hasRemainder_after_iff (stream : Bytes) :
    (Decoder.after stream).hasRemainder = true ↔ ¬ ∃ records, encodeAll records = .ok stream := by
  rw [Decoder.hasRemainder_iff]
  refine not_congr ⟨fun h => ?_, fun ⟨records, h⟩ => residueOf_encodeAll h⟩
  obtain ⟨wire, he, ha⟩ := recordsOf_accounts stream
  rw [residueOf, h, List.append_nil] at ha
  exact ⟨recordsOf stream, ha ▸ he⟩

/-- The bytes of a number, of which some are there. -/
theorem exists_bigEndian {bytes : Bytes} {width : Nat} (h : bytes.length < width) :
    ∃ missing n, missing ≠ [] ∧ n < 256 ^ width ∧ bytes ++ missing = bigEndian width n := by
  have hlen : (bytes ++ List.replicate (width - bytes.length) 0).length = width := by
    rw [List.length_append, List.length_replicate]
    omega
  refine ⟨List.replicate (width - bytes.length) 0,
    ofBigEndian (bytes ++ List.replicate (width - bytes.length) 0), ?_, ?_, ?_⟩
  · intro hnil
    have := congrArg List.length hnil
    rw [List.length_replicate, List.length_nil] at this
    omega
  · have hlt := ofBigEndian_lt (bytes ++ List.replicate (width - bytes.length) 0)
    rwa [hlen] at hlt
  · have hb := bigEndian_ofBigEndian (bytes ++ List.replicate (width - bytes.length) 0)
    rw [hlen] at hb
    exact hb.symm

/-- **What a stalled decoder holds is part of the wire form of a record, and not all of it.** -/
theorem Decoder.Stalled.exists_completion {d : Decoder} (h : d.Stalled) :
    ∃ (r : Record) (missing : Bytes), missing ≠ [] ∧
      r.encode = .ok (d.remainder ++ missing) := by
  obtain ⟨state, buffer⟩ := d
  have hz (n : Nat) : (List.replicate n (0 : UInt8)).length = n := List.length_replicate
  cases state with
  | expiration =>
    obtain ⟨missing, k, hne, hk, hb⟩ := exists_bigEndian (show buffer.length < 4 from h)
    have he : (UInt32.ofNat k).toNat = k := UInt32.toNat_ofNat_of_lt' hk
    refine ⟨_, missing ++ bigEndian 2 0, fun hnil => hne (List.append_eq_nil_iff.1 hnil).1,
      (@Record.encode_ofWire [] 0 rfl (.ofNat k)).trans (congrArg _ ?_)⟩
    rw [Awaiting.header, he, ← hb, List.append_nil, List.append_assoc]
    rfl
  | length e =>
    obtain ⟨missing, k, hne, hk, hb⟩ := exists_bigEndian (show buffer.length < 2 from h)
    have hn : (UInt16.ofNat k).toNat = k := UInt16.toNat_ofNat_of_lt' hk
    refine ⟨_, missing ++ List.replicate k 0, fun hnil => hne (List.append_eq_nil_iff.1 hnil).1,
      (Record.encode_ofWire (n := .ofNat k) (by rw [hz, hn]) e).trans (congrArg _ ?_)⟩
    rw [Awaiting.header, hn, ← hb, remainder, Awaiting.header]
    simp only [List.append_assoc]
  | token e n =>
    have hlt : buffer.length < n.toNat := h
    refine ⟨_, List.replicate (n.toNat - buffer.length) 0, fun hnil => ?_,
      (Record.encode_ofWire (n := n) ?_ e).trans (congrArg _ (List.append_assoc _ _ _).symm)⟩
    · have := congrArg List.length hnil
      rw [hz, List.length_nil] at this
      omega
    · rw [List.length_append, hz]
      exact Nat.add_sub_of_le (Nat.le_of_lt hlt)

end TokenFeedback
