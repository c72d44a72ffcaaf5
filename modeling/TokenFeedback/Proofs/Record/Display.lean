import TokenFeedback.Record
import TokenFeedback.Proofs.Calendar
import TokenFeedback.Proofs.Hex

/-!
# What the text of a record tells

The text of a record is its token in hexadecimal, the mark of the expiration and the time in the
internet form. No digit of the token is a blank, so the first blank of the text ends the token.

* `Record.blank_notMem_tokenHex`: where the token ends.
* `Record.display_eq_iff`: **which records are shown the same.**
* `Record.display_leap`: two that are.
-/

namespace TokenFeedback.Record

theorem blank_notMem_tokenHex (r : Record) : ' ' ∉ r.tokenHex.toList := fun h =>
  absurd (mem_hexText h) (by decide)

/-- The text is the text of the two fields. -/
theorem display_eq_iff_fields (a b : Record) :
    a.display = b.display ↔
      a.token = b.token ∧ a.expiration.rfc3339 = b.expiration.rfc3339 := by
  constructor
  · intro h
    have hfields : a.tokenHex ++ " (expired " ++ a.expiration.rfc3339 =
        b.tokenHex ++ " (expired " ++ b.expiration.rfc3339 :=
      (String.append_left_inj _).1 h
    obtain ⟨htoken, hexpiration⟩ :=
      Text.eq_of_mark rfl a.blank_notMem_tokenHex b.blank_notMem_tokenHex hfields
    exact ⟨hexText_inj htoken, hexpiration⟩
  · intro ⟨htoken, hexpiration⟩
    rw [display, display, tokenHex, tokenHex, htoken, hexpiration]

/-- **Which records are shown the same**: a record and itself, and records of one token whose times
are shown the same, since one of them is inside a leap second that is not the end of a minute and
the other as far in the second behind. All else about a record is found in its text, whatever its
token and its time. The token is shown with two lower-case digits a byte, which spell it. -/
theorem display_eq_iff (a b : Record) :
    (a.display = b.display ↔
      a = b ∨ a.token = b.token ∧
        (a.expiration.ShownAs b.expiration ∨ b.expiration.ShownAs a.expiration)) ∧
      a.tokenHex.length = 2 * a.token.length ∧
      (∀ c ∈ a.tokenHex.toList, c ∈ hexDigits) ∧
      ofHex? a.tokenHex = some a.token := by
  refine ⟨?_, length_hexText a.token, fun c => mem_hexText, ofHex?_hexText a.token⟩
  rw [display_eq_iff_fields, Timestamp.rfc3339_eq_iff]
  constructor
  · rintro ⟨htoken, hsame | hshown⟩
    · left
      cases a
      cases b
      rw [Record.mk.injEq]
      exact ⟨htoken, hsame⟩
    · exact .inr ⟨htoken, hshown⟩
  · rintro (rfl | ⟨htoken, hshown⟩)
    · exact ⟨rfl, .inl rfl⟩
    · exact ⟨htoken, .inr hshown⟩

/-- Four minutes before midnight: a third of a second inside a leap second behind the fourth second,
and a third of a second behind the fifth. -/
theorem display_leap :
    let inside : Record := ⟨[171], 86164, 1333333333, by decide⟩
    let behind : Record := ⟨[171], 86165, 333333333, by decide⟩
    inside.display = "ab (expired 1970-01-01T23:56:05.333333333+00:00)" ∧
      behind.display = inside.display ∧ inside ≠ behind := by
  decide +kernel

/-- The leap second at the end of a year, and a year before 0. -/
example :
    (Record.mk [0, 255] ⟨1483228799, 1500000000, by decide⟩).display =
        "00ff (expired 2016-12-31T23:59:60.500+00:00)" ∧
      (Record.mk [] ⟨-62198755200, 0, by decide⟩).display =
        " (expired -0001-01-01T00:00:00+00:00)" := by
  decide +kernel

end TokenFeedback.Record
