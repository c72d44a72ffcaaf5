import TokenFeedback.Proofs.Stream.Contribution

/-!
# A script on a clock

The walk along a script that `contributions` makes, now with the times: when each item is handed
out by a reader that is polled as soon as that is worth it, when the last read was completed, and
what becomes of a reader that gives up after a silence.

* `outlook`: the items that are ahead of a reader, each with its time.
* `items_outlook`: without a limit on silences they are the contributions of the script.
* `beforeSilence?`: the events before the first silence that is too long.
* `outlook_of_silence`: **up to that silence a limit changes nothing, and there the reader gives
  up.**
* `outlook_read`: what an attempt to read takes off the script, on the clock.
-/

namespace TokenFeedback

open Transport (Event)

/-- What is ahead of a reader. -/
structure Outlook where
  /-- The items, each with the time at which it comes. -/
  items : List (Nat × StreamItem)
  /-- The bytes of the last stream, at the end. -/
  stream : Bytes
  /-- When the last read is completed. -/
  last : Nat

/-- The outlook with some items in front. -/
def Outlook.behind (items : List (Nat × StreamItem)) (o : Outlook) : Outlook :=
  { o with items := items ++ o.items }

/-- The outlook with a limit on silences that ends it, counted from the last read. -/
def Outlook.endedBy (o : Outlook) (d : Span) : Outlook :=
  { o with items := o.items ++ [(o.last + d.ticks, some (.error (.idleTimeout d)))] }

theorem Outlook.behind_behind (a b : List (Nat × StreamItem)) (o : Outlook) :
    (o.behind b).behind a = o.behind (a ++ b) := by
  simp only [behind, List.append_assoc]

/-- The items that all come at one time. -/
def allAt (now : Nat) (items : List StreamItem) : List (Nat × StreamItem) := items.map (now, ·)

theorem allAt_append (now : Nat) (a b : List StreamItem) :
    allAt now (a ++ b) = allAt now a ++ allAt now b :=
  List.map_append

theorem map_snd_allAt (now : Nat) (items : List StreamItem) :
    (allAt now items).map Prod.snd = items := by
  rw [allAt, List.map_map]
  exact List.map_id items

/-- A silence that nothing ends, since the read at time `last`: a reader with a limit on silences
gives up. -/
def givenUp (idle : Option Span) (seen : Bytes) (last : Nat) : Outlook :=
  ⟨idle.toList.map fun d => (last + d.ticks, some (.error (.idleTimeout d))), seen, last⟩

/-- Is a silence from time `last` to time `t` longer than the limit? -/
def outlasts (idle : Option Span) (last t : Nat) : Bool :=
  match idle with
  | none => false
  | some d => last + d.ticks < t

/-- What is ahead of a reader at time `now` that has read last at time `last`, when the bytes `seen`
came since the stream began. A reader with a limit on silences gives up when one is longer; that
is its last item here. -/
def outlook (idle : Option Span) (staysOpen : Bool) : Bytes → Nat → Nat → List Event → Outlook
  | seen, last, _, [] => if staysOpen then givenUp idle seen last else ⟨[], seen, last⟩
  | _, _, now, .close :: rest => (outlook idle staysOpen [] now now rest).behind [(now, none)]
  | _, _, now, .data [] :: rest => (outlook idle staysOpen [] now now rest).behind [(now, none)]
  | seen, _, now, .data (b :: bytes) :: rest =>
    (outlook idle staysOpen (seen ++ b :: bytes) now now rest).behind
      (allAt now (handedOut (completed seen (b :: bytes))))
  | seen, _, now, .failure e :: rest =>
    (outlook idle staysOpen seen now now rest).behind
      (allAt now [some (.error (.ofIo e)), none])
  | seen, last, now, .wait ms :: rest =>
    if outlasts idle last (now + ms) then givenUp idle seen last
    else outlook idle staysOpen seen last (now + ms) rest
  | seen, last, _, .silence :: _ => givenUp idle seen last

section

variable (idle : Option Span) (staysOpen : Bool)

theorem outlook_data {chunk : Bytes} (h : chunk ≠ []) (seen : Bytes) (last now : Nat)
    (rest : List Event) :
    outlook idle staysOpen seen last now (.data chunk :: rest) =
      (outlook idle staysOpen (seen ++ chunk) now now rest).behind
        (allAt now (handedOut (completed seen chunk))) := by
  cases chunk with
  | nil => exact absurd rfl h
  | cons b bytes => rfl

/-- Data in two pieces is ahead as it is in one. -/
theorem outlook_data_append {a b : Bytes} (ha : a ≠ []) (hb : b ≠ []) (seen : Bytes)
    (last now : Nat) (rest : List Event) :
    outlook idle staysOpen seen last now (.data (a ++ b) :: rest) =
      outlook idle staysOpen seen last now (.data a :: .data b :: rest) := by
  rw [outlook_data _ _ (List.append_ne_nil_of_left_ne_nil ha b), outlook_data _ _ ha,
    outlook_data _ _ hb, Outlook.behind_behind, completed_append, handedOut_append, allAt_append,
    List.append_assoc]

/-- No read is completed before the last one. -/
theorem le_last_outlook (seen : Bytes) {last now : Nat} (h : last ≤ now) (script : List Event) :
    last ≤ (outlook idle staysOpen seen last now script).last := by
  induction script generalizing seen last now with
  | nil =>
    unfold outlook
    split <;> exact Nat.le_refl last
  | cons e rest ih =>
    cases e with
    | close => exact Nat.le_trans h (ih [] (Nat.le_refl now))
    | failure e => exact Nat.le_trans h (ih seen (Nat.le_refl now))
    | silence => exact Nat.le_refl last
    | data bytes =>
      cases bytes with
      | nil => exact Nat.le_trans h (ih [] (Nat.le_refl now))
      | cons b bytes => exact Nat.le_trans h (ih (seen ++ b :: bytes) (Nat.le_refl now))
    | wait ms =>
      unfold outlook
      split
      · exact Nat.le_refl last
      · exact ih seen (Nat.le_trans h (Nat.le_add_right now ms))

end

/-- Whether the limit on silences is not yet reached at time `now`. -/
def Patient (idle : Option Span) (last now : Nat) : Prop := ∀ d ∈ idle, now ≤ last + d.ticks

theorem Patient.self (idle : Option Span) (now : Nat) : Patient idle now now :=
  fun d _ => Nat.le_add_right now d.ticks

theorem outlasts_eq_false_iff (idle : Option Span) (last t : Nat) :
    outlasts idle last t = false ↔ Patient idle last t := by
  cases idle with
  | none => exact ⟨fun _ d hd => (by cases hd), fun _ => rfl⟩
  | some d =>
    have hd : outlasts (some d) last t = decide (last + d.ticks < t) := rfl
    rw [hd, decide_eq_false_iff_not, Nat.not_lt]
    exact ⟨fun h _ hd => Option.some.inj hd ▸ h, fun h => h d rfl⟩

theorem Patient.none (last now : Nat) : Patient none last now := fun _ hd => (by cases hd)

theorem patient_some (d : Span) (last now : Nat) :
    Patient (some d) last now ↔ now ≤ last + d.ticks :=
  ⟨fun h => h d rfl, fun h _ hd => Option.some.inj hd ▸ h⟩

/-- A wait within the limit only takes time. -/
theorem outlook_wait {idle : Option Span} {last now ms : Nat} (h : Patient idle last (now + ms))
    (staysOpen : Bool) (seen : Bytes) (rest : List Event) :
    outlook idle staysOpen seen last now (.wait ms :: rest) =
      outlook idle staysOpen seen last (now + ms) rest := by
  rw [outlook, (outlasts_eq_false_iff idle last (now + ms)).2 h]
  rfl

/-- A wait beyond the limit is not waited for. -/
theorem outlook_wait_too_long {idle : Option Span} {last now ms : Nat}
    (h : ¬ Patient idle last (now + ms)) (staysOpen : Bool) (seen : Bytes) (rest : List Event) :
    outlook idle staysOpen seen last now (.wait ms :: rest) = givenUp idle seen last := by
  rw [← outlasts_eq_false_iff, Bool.not_eq_false] at h
  rw [outlook, if_pos h]

/-- No item comes before its time. -/
theorem le_of_mem_outlook (idle : Option Span) (staysOpen : Bool) (seen : Bytes) {last now : Nat}
    (h : Patient idle last now) (script : List Event) :
    ∀ x ∈ (outlook idle staysOpen seen last now script).items, now ≤ x.1 := by
  have hup (seen : Bytes) (last now : Nat) (h : Patient idle last now) :
      ∀ x ∈ (givenUp idle seen last).items, now ≤ x.1 := by
    intro x hx
    obtain ⟨d, hd, rfl⟩ := List.mem_map.1 hx
    exact h d (Option.mem_toList.1 hd)
  have hall (now : Nat) (items : List StreamItem) : ∀ x ∈ allAt now items, now ≤ x.1 := by
    intro x hx
    obtain ⟨item, -, rfl⟩ := List.mem_map.1 hx
    exact Nat.le_refl now
  have hpre {now : Nat} {front : List (Nat × StreamItem)} {o : Outlook}
      (hf : ∀ x ∈ front, now ≤ x.1) (ho : ∀ x ∈ o.items, now ≤ x.1) :
      ∀ x ∈ (o.behind front).items, now ≤ x.1 :=
    fun x hx => (List.mem_append.1 hx).elim (hf x) (ho x)
  induction script generalizing seen last now with
  | nil =>
    unfold outlook
    split
    · exact hup seen last now h
    · exact fun x hx => absurd hx List.not_mem_nil
  | cons e rest ih =>
    have hgo (seen : Bytes) := ih seen (Patient.self idle now)
    cases e with
    | close => exact hpre (hall now [none]) (hgo [])
    | failure e => exact hpre (hall now _) (hgo seen)
    | silence => exact hup seen last now h
    | data bytes =>
      cases bytes with
      | nil => exact hpre (hall now [none]) (hgo [])
      | cons b bytes => exact hpre (hall now _) (hgo _)
    | wait ms =>
      unfold outlook
      split
      · exact hup seen last now h
      · next hw =>
        have hp := (outlasts_eq_false_iff idle last (now + ms)).1 (Bool.eq_false_iff.2 hw)
        exact fun x hx => Nat.le_trans (Nat.le_add_right now ms) (ih seen hp x hx)

/-- **Without a limit on silences the items are the contributions of the script.** -/
theorem items_outlook (staysOpen : Bool) (seen : Bytes) (last now : Nat) (script : List Event) :
    (outlook none staysOpen seen last now script).items.map Prod.snd =
      contributions seen script := by
  induction script generalizing seen last now with
  | nil =>
    unfold outlook
    split <;> rfl
  | cons e rest ih =>
    cases e with
    | close => exact congrArg (none :: ·) (ih [] now now)
    | failure e =>
      exact congrArg (fun items => some (.error (.ofIo e)) :: none :: items) (ih seen now now)
    | silence => rfl
    | wait ms => exact ih seen last (now + ms)
    | data bytes =>
      cases bytes with
      | nil => exact congrArg (none :: ·) (ih [] now now)
      | cons b bytes =>
        rw [outlook, Outlook.behind, List.map_append, map_snd_allAt, ih]
        rfl

section

variable (staysOpen : Bool)

/-- Without a limit on silences the last read is completed when the last item comes or later. -/
theorem le_last_of_mem_outlook (seen : Bytes) {last now : Nat} (script : List Event) :
    ∀ x ∈ (outlook none staysOpen seen last now script).items,
      x.1 ≤ (outlook none staysOpen seen last now script).last := by
  have hall {now : Nat} {o : Outlook} (hl : now ≤ o.last) (ho : ∀ x ∈ o.items, x.1 ≤ o.last)
      (items : List StreamItem) : ∀ x ∈ (o.behind (allAt now items)).items, x.1 ≤ o.last := by
    intro x hx
    rcases List.mem_append.1 hx with hx | hx
    · obtain ⟨item, -, rfl⟩ := List.mem_map.1 hx
      exact hl
    · exact ho x hx
  induction script generalizing seen last now with
  | nil =>
    unfold outlook
    split <;> exact fun x hx => absurd hx List.not_mem_nil
  | cons e rest ih =>
    have hgo (seen : Bytes) :=
      hall (le_last_outlook none staysOpen seen (Nat.le_refl now) rest) (ih seen)
    cases e with
    | close => exact hgo [] [none]
    | failure e => exact hgo seen _
    | silence => exact fun x hx => absurd hx List.not_mem_nil
    | wait ms => exact ih seen
    | data bytes =>
      cases bytes with
      | nil => exact hgo [] [none]
      | cons b bytes => exact hgo _ _

/-- Without a limit on silences the items of a first part of the script come first. -/
theorem items_outlook_prefix (seen : Bytes) (last now : Nat) (part rest : List Event) :
    (outlook none staysOpen seen last now part).items <+:
      (outlook none staysOpen seen last now (part ++ rest)).items := by
  have hbehind {a b : Outlook} (h : a.items <+: b.items) (front : List (Nat × StreamItem)) :
      (a.behind front).items <+: (b.behind front).items :=
    (List.prefix_append_right_inj front).2 h
  induction part generalizing seen last now with
  | nil =>
    have hnil : (outlook none staysOpen seen last now []).items = [] := by
      unfold outlook
      split <;> rfl
    rw [hnil]
    exact List.nil_prefix
  | cons e part ih =>
    cases e with
    | close => exact hbehind (ih [] now now) _
    | failure e => exact hbehind (ih seen now now) _
    | silence => exact List.nil_prefix
    | wait ms => exact ih seen last (now + ms)
    | data bytes =>
      cases bytes with
      | nil => exact hbehind (ih [] now now) _
      | cons b bytes => exact hbehind (ih _ now now) _

end

/-! ### Silences -/

/-- The events before the first silence that is longer than `span`, if there is one. A silence
lasts from one completed read to the next, and it has lasted for `quiet` already; waits add up. -/
def beforeSilence? (span : Nat) (staysOpen : Bool) : Nat → List Event → Option (List Event)
  | _, [] => if staysOpen then some [] else none
  | _, .silence :: _ => some []
  | quiet, .wait ms :: rest =>
    if span < quiet + ms then some []
    else (beforeSilence? span staysOpen (quiet + ms) rest).map (.wait ms :: ·)
  | _, .data bytes :: rest => (beforeSilence? span staysOpen 0 rest).map (.data bytes :: ·)
  | _, .failure e :: rest => (beforeSilence? span staysOpen 0 rest).map (.failure e :: ·)
  | _, .close :: rest => (beforeSilence? span staysOpen 0 rest).map (.close :: ·)

/-- The events before a silence are the first of the script. -/
theorem isPrefix_of_beforeSilence {span : Nat} {staysOpen : Bool} {quiet : Nat}
    {script part : List Event} (h : beforeSilence? span staysOpen quiet script = some part) :
    part <+: script := by
  have hcons {e : Event} {rest part : List Event} {quiet : Nat}
      (ih : ∀ {part}, beforeSilence? span staysOpen quiet rest = some part → part <+: rest)
      (h : (beforeSilence? span staysOpen quiet rest).map (e :: ·) = some part) :
      part <+: e :: rest := by
    obtain ⟨p, hp, rfl⟩ := Option.map_eq_some_iff.1 h
    exact List.cons_prefix_cons.2 ⟨rfl, ih hp⟩
  have hnil {part script : List Event} (h : some [] = some part) : part <+: script :=
    Option.some.inj h ▸ List.nil_prefix
  induction script generalizing quiet part with
  | nil =>
    unfold beforeSilence? at h
    split at h
    · exact hnil h
    · cases h
  | cons e rest ih =>
    cases e with
    | silence => exact hnil h
    | wait ms =>
      unfold beforeSilence? at h
      split at h
      · exact hnil h
      · exact hcons ih h
    | data bytes => exact hcons ih h
    | failure e => exact hcons ih h
    | close => exact hcons ih h

theorem beforeSilence_append_closes (span : Nat) (staysOpen : Bool) (quiet : Nat)
    (script : List Event) (n : Nat) :
    beforeSilence? span staysOpen quiet (script ++ Transport.closes staysOpen n) =
      beforeSilence? span staysOpen quiet script := by
  cases staysOpen with
  | true => rw [show Transport.closes true n = [] from rfl, List.append_nil]
  | false =>
    have hend (quiet : Nat) : beforeSilence? span false quiet (List.replicate n .close) = none := by
      induction n generalizing quiet with
      | zero => rfl
      | succ n ih => rw [List.replicate_succ, beforeSilence?, ih]; rfl
    induction script generalizing quiet with
    | nil => exact hend quiet
    | cons e rest ih =>
      cases e with
      | silence => rfl
      | wait ms =>
        rw [List.cons_append, beforeSilence?, beforeSilence?, ih]
      | data bytes => exact congrArg (Option.map (.data bytes :: ·)) (ih 0)
      | failure e => exact congrArg (Option.map (.failure e :: ·)) (ih 0)
      | close => exact congrArg (Option.map (.close :: ·)) (ih 0)

/-- Behind a script with no silence for ever every read has its item. -/
theorem le_length_outlook_closes {span quiet : Nat} {staysOpen : Bool} {script : List Event}
    (h : beforeSilence? span staysOpen quiet script = none) (seen : Bytes) (last now n : Nat) :
    n ≤ (outlook none staysOpen seen last now
      (script ++ Transport.closes staysOpen n)).items.length := by
  have hbehind {o : Outlook} (h : n ≤ o.items.length) (front : List (Nat × StreamItem)) :
      n ≤ (o.behind front).items.length := by
    rw [Outlook.behind, List.length_append]
    omega
  induction script generalizing quiet seen last now with
  | nil =>
    cases staysOpen with
    | true => cases h
    | false =>
      clear hbehind
      induction n generalizing seen last now with
      | zero => exact Nat.zero_le _
      | succ n ih => exact Nat.succ_le_succ (ih [] now now)
  | cons e rest ih =>
    cases e with
    | silence => cases h
    | wait ms =>
      unfold beforeSilence? at h
      split at h
      · cases h
      · exact ih (Option.map_eq_none_iff.1 h) seen last (now + ms)
    | failure e => exact hbehind (ih (Option.map_eq_none_iff.1 h) seen now now) _
    | close => exact hbehind (ih (Option.map_eq_none_iff.1 h) [] now now) _
    | data bytes =>
      have hr := Option.map_eq_none_iff.1 h
      cases bytes with
      | nil => exact hbehind (ih hr [] now now) _
      | cons b bytes => exact hbehind (ih hr _ now now) _

/-- **A limit that no silence exceeds changes nothing.** -/
theorem outlook_of_no_silence {d : Span} {staysOpen : Bool} {quiet : Nat} {script : List Event}
    (h : beforeSilence? d.ticks staysOpen quiet script = none) (seen : Bytes) (last : Nat) :
    outlook (some d) staysOpen seen last (last + quiet) script =
      outlook none staysOpen seen last (last + quiet) script := by
  induction script generalizing quiet seen last with
  | nil =>
    cases staysOpen with
    | true => cases h
    | false => rfl
  | cons e rest ih =>
    -- behind a completed read the silence begins anew
    have hgo (h : beforeSilence? d.ticks staysOpen 0 rest = none) (seen : Bytes) (now : Nat) :=
      ih h seen now
    simp only [Nat.add_zero] at hgo
    cases e with
    | silence => cases h
    | wait ms =>
      unfold beforeSilence? at h
      split at h
      · cases h
      · next hw =>
        have hp : Patient (some d) last (last + quiet + ms) := by
          rw [patient_some]
          omega
        rw [outlook_wait hp, outlook_wait (.none last _), Nat.add_assoc,
          ih (Option.map_eq_none_iff.1 h)]
    | failure e =>
      exact congrArg (Outlook.behind _) (hgo (Option.map_eq_none_iff.1 h) seen _)
    | close => exact congrArg (Outlook.behind _) (hgo (Option.map_eq_none_iff.1 h) [] _)
    | data bytes =>
      have hr := Option.map_eq_none_iff.1 h
      cases bytes with
      | nil => exact congrArg (Outlook.behind _) (hgo hr [] _)
      | cons b bytes => exact congrArg (Outlook.behind _) (hgo hr _ _)

/-- **Up to the first silence that is too long the limit changes nothing, and there the reader gives
up**: at the last completed read and the limit, counted from it. -/
theorem outlook_of_silence {d : Span} {staysOpen : Bool} {quiet : Nat} {script part : List Event}
    (h : beforeSilence? d.ticks staysOpen quiet script = some part) (seen : Bytes) (last : Nat) :
    outlook (some d) staysOpen seen last (last + quiet) script =
      (outlook none staysOpen seen last (last + quiet) part).endedBy d := by
  have hnil (seen : Bytes) (last now : Nat) :
      outlook none staysOpen seen last now [] = ⟨[], seen, last⟩ := by
    cases staysOpen <;> rfl
  induction script generalizing quiet seen last part with
  | nil =>
    cases staysOpen with
    | true => obtain rfl := Option.some.inj h; rfl
    | false => cases h
  | cons e rest ih =>
    have hgo {part : List Event} (h : beforeSilence? d.ticks staysOpen 0 rest = some part)
        (seen : Bytes) (now : Nat) := ih h seen now
    simp only [Nat.add_zero] at hgo
    cases e with
    | silence => obtain rfl := Option.some.inj h; rw [hnil]; rfl
    | wait ms =>
      unfold beforeSilence? at h
      split at h
      · next hw =>
        obtain rfl := Option.some.inj h
        have hp : ¬ Patient (some d) last (last + quiet + ms) := by
          rw [patient_some]
          omega
        rw [outlook_wait_too_long hp, hnil]
        rfl
      · next hw =>
        obtain ⟨p, hp, rfl⟩ := Option.map_eq_some_iff.1 h
        have hpatient : Patient (some d) last (last + quiet + ms) := by
          rw [patient_some]
          omega
        rw [outlook_wait hpatient, outlook_wait (.none last _), Nat.add_assoc, ih hp]
    | failure e =>
      obtain ⟨p, hp, rfl⟩ := Option.map_eq_some_iff.1 h
      rw [outlook, hgo hp]
      rfl
    | close =>
      obtain ⟨p, hp, rfl⟩ := Option.map_eq_some_iff.1 h
      rw [outlook, hgo hp]
      rfl
    | data bytes =>
      obtain ⟨p, hp, rfl⟩ := Option.map_eq_some_iff.1 h
      cases bytes with
      | nil =>
        rw [outlook, hgo hp]
        rfl
      | cons b bytes =>
        rw [outlook, hgo hp, outlook]
        simp only [Outlook.behind, Outlook.endedBy, List.append_assoc]

/-! ### Attempts to read -/

theorem outlook_zero_waits {idle : Option Span} {last now : Nat} (h : Patient idle last now)
    (staysOpen : Bool) (seen : Bytes) (k : Nat) (rest : List Event) :
    outlook idle staysOpen seen last now (List.replicate k (.wait 0) ++ rest) =
      outlook idle staysOpen seen last now rest := by
  induction k with
  | zero => rfl
  | succ k ih =>
    rw [List.replicate_succ, List.cons_append, outlook_wait (by rwa [Nat.add_zero]), Nat.add_zero]
    exact ih

/-- What an attempt at time `now` makes of the outlook, by its answer: `left` is the transport that
it leaves, and up to `n` more reads go behind its script. -/
inductive OnTime (idle : Option Span) (seen : Bytes) (last now n : Nat) (t left : Transport) :
    Poll (Except IoError Bytes) → Outlook → Prop
  /-- A wait has begun. -/
  | waits {o} (later : now < left.busyUntil) (fewer : left.left < t.left)
      (within : Patient idle last left.busyUntil →
        o = outlook idle left.staysOpen seen last left.busyUntil (left.ahead (n + 1)))
      (beyond : ¬ Patient idle last left.busyUntil → o = givenUp idle seen last) :
      OnTime idle seen last now n t left .pending o
  /-- Nothing more comes. -/
  | silent (free : left.busyUntil ≤ now)
      (quiet : ∀ later, now ≤ later → ∀ room, (left.read later room).1 = .pending) :
      OnTime idle seen last now n t left .pending (givenUp idle seen last)
  | fails {e} (free : left.busyUntil ≤ now) (fewer : left.left ≤ t.left) :
      OnTime idle seen last now n t left (.ready (.error e))
        ((outlook idle left.staysOpen seen now now (left.ahead (n + 1))).behind
          (allAt now [some (.error (.ofIo e)), none]))
  | ends {m} (free : left.busyUntil ≤ now) (fewer : left.left ≤ t.left) (le : n ≤ m) :
      OnTime idle seen last now n t left (.ready (.ok []))
        ((outlook idle left.staysOpen [] now now (left.ahead m)).behind [(now, none)])
  | brings {b bytes} (free : left.busyUntil ≤ now) (fewer : left.left ≤ t.left) :
      OnTime idle seen last now n t left (.ready (.ok (b :: bytes)))
        ((outlook idle left.staysOpen (seen ++ b :: bytes) now now (left.ahead (n + 1))).behind
          (allAt now (handedOut (completed seen (b :: bytes)))))

/-- **What an attempt takes off a script on the clock**, if it is made as soon as that is worth it
and while the limit on silences is not reached. -/
theorem outlook_read {idle : Option Span} {last now : Nat} (patient : Patient idle last now)
    {t : Transport} (free : t.busyUntil ≤ now) (room n : Nat) (seen : Bytes) :
    OnTime idle seen last now n t (t.read now (room + 1)).2 (t.read now (room + 1)).1
      (outlook idle t.staysOpen seen last now (t.ahead (n + 1))) := by
  obtain ⟨hstays, -⟩ := Transport.read_cases t now (room + 1)
  obtain ⟨k, rest, hevents, hm⟩ := Transport.read_prompt t free (room + 1)
  rcases hread : t.read now (room + 1) with ⟨answer, left⟩
  rw [hread] at hstays hm
  simp only at hstays hm
  have ha (n : Nat) : left.ahead n = left.events ++ Transport.closes t.staysOpen n := by
    rw [Transport.ahead, hstays]
  have ht : outlook idle t.staysOpen seen last now (t.ahead (n + 1)) =
      outlook idle t.staysOpen seen last now (rest ++ Transport.closes t.staysOpen (n + 1)) := by
    rw [Transport.ahead, hevents, List.append_assoc, outlook_zero_waits patient]
  have hfewer {later : List Event} (h : left.events.length ≤ later.length) (e : Event)
      (hrest : rest = e :: later) : left.left < t.left := by
    rw [Transport.left, Transport.left, hevents, hrest, List.length_append, List.length_cons]
    omega
  rw [ht]
  rcases hm with ⟨hfree, hm⟩ | ⟨ms, hpos, hrest, hbusy, rfl⟩
  · cases hm with
    | waiting busy _ => exact absurd busy (Nat.not_lt.2 hfree)
    | silence he =>
      refine .silent hfree fun later hl room => ?_
      show (Transport.readEvents left.staysOpen later room left.events left.busyUntil).1 = _
      unfold Transport.readEvents
      rw [if_neg (Nat.not_lt.2 (Nat.le_trans hfree hl)), he]
    | idle hs he =>
      rw [← hstays, hs]
      refine .silent hfree fun later hl room => ?_
      show (Transport.readEvents left.staysOpen later room left.events left.busyUntil).1 = _
      unfold Transport.readEvents
      rw [if_neg (Nat.not_lt.2 (Nat.le_trans hfree hl)), he, hs]
      rfl
    | closed hs _ he =>
      have hout : outlook idle t.staysOpen seen last now
            ([] ++ Transport.closes t.staysOpen (n + 1)) =
          (outlook idle left.staysOpen [] now now (left.ahead n)).behind [(now, none)] := by
        rw [ha, he, ← hstays, hs]
        rfl
      rw [hout]
      refine .ends hfree ?_ (Nat.le_refl n)
      rw [Transport.left, he]
      exact Nat.zero_le _
    | @failure e later _ he =>
      have hout : outlook idle t.staysOpen seen last now
            (.failure e :: later ++ Transport.closes t.staysOpen (n + 1)) =
          (outlook idle left.staysOpen seen now now (left.ahead (n + 1))).behind
            (allAt now [some (.error (.ofIo e)), none]) := by
        rw [hstays, ha, he]
        rfl
      rw [hout]
      exact .fails hfree (Nat.le_of_lt (hfewer (Nat.le_of_eq (congrArg List.length he)) _ rfl))
    | @close later _ he =>
      have hout : outlook idle t.staysOpen seen last now
            (.close :: later ++ Transport.closes t.staysOpen (n + 1)) =
          (outlook idle left.staysOpen [] now now (left.ahead (n + 1))).behind [(now, none)] := by
        rw [hstays, ha, he]
        rfl
      rw [hout]
      exact .ends hfree (Nat.le_of_lt (hfewer (Nat.le_of_eq (congrArg List.length he)) _ rfl))
        (Nat.le_succ n)
    | @data bytes later _ he =>
      cases bytes with
      | nil =>
        have he' : left.events = later := he
        have hout : outlook idle t.staysOpen seen last now
              (.data [] :: later ++ Transport.closes t.staysOpen (n + 1)) =
            (outlook idle left.staysOpen [] now now (left.ahead (n + 1))).behind [(now, none)] := by
          rw [hstays, ha, he']
          rfl
        rw [hout]
        exact .ends hfree (Nat.le_of_lt (hfewer (Nat.le_of_eq (congrArg List.length he')) _ rfl))
          (Nat.le_succ n)
      | cons b bytes =>
        have hne : (b :: bytes).take (room + 1) ≠ [] := by simp
        have hout : outlook idle t.staysOpen seen last now
              (.data (b :: bytes) :: later ++ Transport.closes t.staysOpen (n + 1)) =
            (outlook idle left.staysOpen (seen ++ (b :: bytes).take (room + 1)) now now
              (left.ahead (n + 1))).behind
              (allAt now (handedOut (completed seen ((b :: bytes).take (room + 1))))) := by
          rw [hstays, ha, he, Transport.afterTaking]
          split
          · next hdrop =>
            have hall : (b :: bytes).take (room + 1) = b :: bytes :=
              List.take_of_length_le (List.drop_eq_nil_iff.1 (List.isEmpty_iff.1 hdrop))
            rw [hall]
            rfl
          · next hdrop =>
            -- what there is no room for stays ahead, and is worth the rest of the event
            have hne' : (b :: bytes).drop (room + 1) ≠ [] := fun h => hdrop (List.isEmpty_iff.2 h)
            have hsplit := outlook_data_append idle t.staysOpen hne hne' seen last now
              (later ++ Transport.closes t.staysOpen (n + 1))
            rw [List.take_append_drop] at hsplit
            rw [List.cons_append, hsplit, outlook_data _ _ hne]
            rfl
        rw [hout]
        have hle : left.left ≤ t.left := by
          rw [Transport.left, Transport.left, he, Transport.afterTaking, hevents]
          split <;> simp only [List.length_append, List.length_cons] <;> omega
        exact .brings hfree hle
  · have hfresh : now < left.busyUntil := by omega
    refine .waits hfresh (hfewer (Nat.le_refl _) _ hrest) (fun hp => ?_) fun hp => ?_
    · rw [hbusy] at hp ⊢
      rw [hrest, List.cons_append, outlook_wait hp, ha, hstays]
    · rw [hbusy] at hp
      rw [hrest, List.cons_append, outlook_wait_too_long hp]

end TokenFeedback
