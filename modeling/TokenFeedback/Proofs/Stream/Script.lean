import TokenFeedback.Stream.Transport

/-!
# Attempts to read a script

An attempt passes the waits that are over, and those of no length, and is settled by the first
event behind them.

* `Transport.Meets`: the event that settles an attempt, the answer, and what is left.
* `Transport.read_cases`: **all that an attempt can do to a script.**
* `Transport.read_prompt`: what an attempt does that is made as soon as it is worth it.
* `Transport.ahead`: the script with the reads of no bytes that come behind it.
-/

namespace TokenFeedback

namespace Transport

/-- What an attempt to read meets behind the waits that it passes: its answer, and the transport
that it leaves. -/
inductive Meets (now room : Nat) (left : Transport) :
    List Event → Poll (Except IoError Bytes) → Prop
  /-- A wait that is not over. -/
  | waiting {rest} (busy : now < left.busyUntil) (events : left.events = rest) :
    Meets now room left rest .pending
  | silence {rest} (events : left.events = .silence :: rest) :
    Meets now room left (.silence :: rest) .pending
  /-- The end of the script of a transport that stays open. -/
  | idle (stays : left.staysOpen = true) (events : left.events = []) :
    Meets now room left [] .pending
  /-- The end of the script of a transport that does not. -/
  | closed (stays : left.staysOpen = false) (free : left.busyUntil ≤ now)
      (events : left.events = []) : Meets now room left [] (.ready (.ok []))
  | data {bytes rest} (free : left.busyUntil ≤ now)
      (events : left.events = afterTaking bytes room rest) :
    Meets now room left (.data bytes :: rest) (.ready (.ok (bytes.take room)))
  | failure {e rest} (free : left.busyUntil ≤ now) (events : left.events = rest) :
    Meets now room left (.failure e :: rest) (.ready (.error e))
  | close {rest} (free : left.busyUntil ≤ now) (events : left.events = rest) :
    Meets now room left (.close :: rest) (.ready (.ok []))

/-- **All that an attempt to read can do to a script.** -/
theorem read_cases (t : Transport) (now room : Nat) :
    (t.read now room).2.staysOpen = t.staysOpen ∧
      ∃ (waits : List Nat) (rest : List Event), t.events = waits.map .wait ++ rest ∧
        (waits = [] → (t.read now room).2.busyUntil = t.busyUntil) ∧
        Meets now room (t.read now room).2 rest (t.read now room).1 := by
  refine ⟨rfl, ?_⟩
  obtain ⟨events, busy, stays⟩ := t
  simp only [read]
  -- a wait that begins here sets `busy` for what is behind it
  induction events generalizing busy with
  | nil =>
    unfold readEvents
    by_cases hb : now < busy
    · rw [if_pos hb]
      exact ⟨[], [], rfl, fun _ => rfl, .waiting hb rfl⟩
    · rw [if_neg hb]
      refine ⟨[], [], rfl, fun _ => rfl, ?_⟩
      cases stays with
      | true => exact .idle rfl rfl
      | false => exact .closed rfl (Nat.not_lt.1 hb) rfl
  | cons e rest ih =>
    unfold readEvents
    by_cases hb : now < busy
    · rw [if_pos hb]
      exact ⟨[], e :: rest, rfl, fun _ => rfl, .waiting hb rfl⟩
    · rw [if_neg hb]
      have hfree := Nat.not_lt.1 hb
      cases e with
      | wait ms =>
        obtain ⟨waits, later, hl, -, hm⟩ := ih (now + ms)
        exact ⟨ms :: waits, later, congrArg (Event.wait ms :: ·) hl,
          fun hnil => absurd hnil (List.cons_ne_nil ms waits), hm⟩
      | data bytes => exact ⟨[], _, rfl, fun _ => rfl, .data hfree rfl⟩
      | failure e => exact ⟨[], _, rfl, fun _ => rfl, .failure hfree rfl⟩
      | close => exact ⟨[], _, rfl, fun _ => rfl, .close hfree rfl⟩
      | silence => exact ⟨[], _, rfl, fun _ => rfl, .silence rfl⟩

/-- An attempt that is made as soon as it is worth it passes waits of no length only. It begins the
next wait, or it is settled behind them. -/
theorem read_prompt (t : Transport) {now : Nat} (free : t.busyUntil ≤ now) (room : Nat) :
    ∃ k rest, t.events = List.replicate k (.wait 0) ++ rest ∧
      ((t.read now room).2.busyUntil ≤ now ∧ Meets now room (t.read now room).2 rest
          (t.read now room).1 ∨
        ∃ ms, 0 < ms ∧ rest = .wait ms :: (t.read now room).2.events ∧
          (t.read now room).2.busyUntil = now + ms ∧ (t.read now room).1 = .pending) := by
  obtain ⟨events, busy, stays⟩ := t
  simp only [read]
  have hb : ¬ now < busy := Nat.not_lt.2 free
  induction events generalizing busy with
  | nil =>
    refine ⟨0, [], rfl, .inl ?_⟩
    unfold readEvents
    rw [if_neg hb]
    cases stays with
    | true => exact ⟨free, .idle rfl rfl⟩
    | false => exact ⟨free, .closed rfl free rfl⟩
  | cons e rest ih =>
    cases e with
    | wait ms =>
      rcases Nat.eq_zero_or_pos ms with rfl | hpos
      · obtain ⟨k, later, hl, hm⟩ := ih now (Nat.le_refl now) (Nat.lt_irrefl now)
        refine ⟨k + 1, later, congrArg (Event.wait 0 :: ·) hl, ?_⟩
        unfold readEvents
        rw [if_neg hb]
        exact hm
      · refine ⟨0, .wait ms :: rest, rfl, .inr ⟨ms, hpos, ?_⟩⟩
        have hbegun : readEvents stays now room rest (now + ms) = (.pending, now + ms, rest) := by
          unfold readEvents
          rw [if_pos (Nat.lt_add_of_pos_right hpos)]
        have hread : readEvents stays now room (.wait ms :: rest) busy =
            (.pending, now + ms, rest) := by
          rw [← hbegun, readEvents, if_neg hb]
        rw [hread]
        exact ⟨rfl, rfl, rfl⟩
    | data bytes =>
      refine ⟨0, _, rfl, .inl ?_⟩
      unfold readEvents
      rw [if_neg hb]
      exact ⟨free, .data free rfl⟩
    | failure e =>
      refine ⟨0, _, rfl, .inl ?_⟩
      unfold readEvents
      rw [if_neg hb]
      exact ⟨free, .failure free rfl⟩
    | close =>
      refine ⟨0, _, rfl, .inl ?_⟩
      unfold readEvents
      rw [if_neg hb]
      exact ⟨free, .close free rfl⟩
    | silence =>
      refine ⟨0, _, rfl, .inl ?_⟩
      unfold readEvents
      rw [if_neg hb]
      exact ⟨free, .silence rfl⟩

theorem scriptSize_waits (waits : List Nat) (rest : List Event) :
    scriptSize (waits.map .wait ++ rest) = waits.length + scriptSize rest := by
  induction waits with
  | nil => rw [List.length_nil, Nat.zero_add]; rfl
  | cons ms waits ih =>
    have hs : (Event.wait ms).size = 1 := rfl
    rw [List.map_cons, List.cons_append, scriptSize, ih, List.length_cons, hs]
    omega

/-- An attempt that is answered leaves no wait running. -/
theorem free_of_read_ready {t : Transport} {now room : Nat} {result : Except IoError Bytes}
    (h : (t.read now room).1 = .ready result) : (t.read now room).2.busyUntil ≤ now := by
  obtain ⟨-, waits, rest, -, -, hm⟩ := read_cases t now room
  rw [h] at hm
  cases hm with
  | closed _ hf _ => exact hf
  | data hf _ => exact hf
  | failure hf _ => exact hf
  | close hf _ => exact hf

/-- The reads of no bytes that come behind the script. -/
def closes (staysOpen : Bool) (n : Nat) : List Event :=
  if staysOpen then [] else List.replicate n .close

/-- The script of a transport, with up to `n` reads behind it. -/
def ahead (t : Transport) (n : Nat) : List Event := t.events ++ closes t.staysOpen n

end Transport

end TokenFeedback
