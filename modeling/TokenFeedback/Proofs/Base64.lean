import TokenFeedback.Base64
import TokenFeedback.Proofs.BigEndian

/-!
# Base64 there and back

The text of bytes is read back as those bytes, however many there are. Reading takes blocks of eight
symbols and writing takes groups of three bytes, so they meet every six bytes; what is left behind
the last full block is one or two groups, of which the last may be padded.

* `symbols`: what the characters of a text are to mean.
* `lastBlock_symbols`: up to six bytes are read from the last block.
* `decodeFrom_symbols`: **reading, from anywhere inside a block.**
* `decode_encode`: **the text of bytes is read as those bytes.**
* `mem_encode`: the characters that a text is made of.
-/

namespace TokenFeedback.Base64

/-! ### Characters -/

/-- A digit has six bits. -/
def Symbol.Fits : Symbol → Prop
  | .digit n => n < 64
  | .pad => True

/-- How a symbol is written. -/
def Symbol.character : Symbol → UInt8
  | .digit n => Base64.character n
  | .pad => 61

theorem read_character : ∀ n < 64,
    isBlank (character n) = false ∧ symbol? (character n) = some (.digit n) := by
  decide

/-- What is written for a symbol is read as that symbol. -/
theorem read_symbol {s : Symbol} (h : s.Fits) :
    isBlank s.character = false ∧ symbol? s.character = some s := by
  cases s with
  | digit n => exact read_character n h
  | pad => decide

section

variable {s : Symbol} {block : List Symbol} (fits : s.Fits) (rest : Bytes)

include fits

/-- A symbol that the block has room for. -/
theorem decodeFrom_room (room : block.length < 8) :
    decodeFrom block (s.character :: rest) = decodeFrom (block ++ [s]) rest := by
  obtain ⟨hblank, hsymbol⟩ := read_symbol fits
  rw [decodeFrom, if_neg (Bool.eq_false_iff.1 hblank), hsymbol]
  simp only [if_pos room]

/-- A symbol behind a full block of digits begins the next one. -/
theorem decodeFrom_full (full : block.length = 8) (digits : block.any Symbol.isPad = false)
    {later : Bytes} (h : decodeFrom [s] rest = .ok later) :
    decodeFrom block (s.character :: rest) = .ok (join block ++ later) := by
  obtain ⟨hblank, hsymbol⟩ := read_symbol fits
  have hroom : ¬ block.length < 8 := by omega
  rw [decodeFrom, if_neg (Bool.eq_false_iff.1 hblank), hsymbol]
  simp only [if_neg hroom, if_neg (Bool.eq_false_iff.1 digits), h]
  rfl

end

/-! ### Groups of three bytes -/

/-- The four digits of three bytes. -/
def group (a b c : UInt8) : List Symbol :=
  let n := ofBigEndian [a, b, c]
  [.digit (n / 262144), .digit (n / 4096 % 64), .digit (n / 64 % 64), .digit (n % 64)]

/-- The symbols of bytes: four digits for three bytes, and the last ones padded. -/
def symbols : Bytes → List Symbol
  | a :: b :: c :: rest => group a b c ++ symbols rest
  | [a, b] => (group a b 0).take 3 ++ [.pad]
  | [a] => [.digit (a.toNat / 4), .digit (a.toNat % 4 * 16), .pad, .pad]
  | [] => []

theorem encode_eq (bytes : Bytes) : encode bytes = (symbols bytes).map Symbol.character := by
  induction bytes using symbols.induct with
  | case1 a b c rest ih =>
    rw [encode, symbols, List.map_append, ih]
    rfl
  | case2 a b => rfl
  | case3 a => rfl
  | case4 => rfl

/-- Four symbols for every three bytes that have begun. -/
theorem length_symbols (bytes : Bytes) : (symbols bytes).length = (bytes.length + 2) / 3 * 4 := by
  induction bytes using symbols.induct with
  | case1 a b c rest ih =>
    simp only [symbols, group, List.length_append, List.length_cons, List.length_nil, ih]
    omega
  | case2 a b => simp [symbols, group]
  | case3 a => simp [symbols]
  | case4 => rfl

theorem group_fits (a b c : UInt8) : ∀ s ∈ group a b c, s.Fits := by
  have hn : ofBigEndian [a, b, c] < 256 ^ 3 := ofBigEndian_lt [a, b, c]
  intro s hs
  simp only [group, List.mem_cons, List.not_mem_nil, or_false] at hs
  rcases hs with rfl | rfl | rfl | rfl <;> simp only [Symbol.Fits] <;> omega

theorem symbols_fit (bytes : Bytes) : ∀ s ∈ symbols bytes, s.Fits := by
  induction bytes using symbols.induct with
  | case1 a b c rest ih =>
    intro s hs
    exact (List.mem_append.1 hs).elim (group_fits a b c s) (ih s)
  | case2 a b =>
    intro s hs
    rcases List.mem_append.1 hs with hs | hs
    · exact group_fits a b 0 s (List.mem_of_mem_take hs)
    · rw [List.mem_singleton.1 hs]
      trivial
  | case3 a =>
    have ha := a.toNat_lt
    intro s hs
    simp only [symbols, List.mem_cons, List.not_mem_nil, or_false] at hs
    rcases hs with rfl | rfl | rfl | rfl <;> simp only [Symbol.Fits] <;> omega
  | case4 => intro s hs; cases hs

theorem join_group (a b c : UInt8) (rest : List Symbol) :
    join (group a b c ++ rest) = a :: b :: c :: join rest := by
  have hn : ofBigEndian [a, b, c] < 256 ^ 3 := ofBigEndian_lt [a, b, c]
  have hbytes : bigEndian 3 (ofBigEndian [a, b, c]) = [a, b, c] := bigEndian_ofBigEndian [a, b, c]
  have hsum : ((ofBigEndian [a, b, c] / 262144 * 64 + ofBigEndian [a, b, c] / 4096 % 64) * 64 +
      ofBigEndian [a, b, c] / 64 % 64) * 64 + ofBigEndian [a, b, c] % 64 =
      ofBigEndian [a, b, c] := by omega
  simp only [group, List.cons_append, List.nil_append, join, Symbol.bits, hsum, hbytes]

/-- Two bytes are read from three digits. -/
theorem join_two (a b : UInt8) : join ((group a b 0).take 3) = [a, b] := by
  have hzero : ofBigEndian [a, b, 0] = ofBigEndian [a, b] * 256 + (0 : UInt8).toNat :=
    ofBigEndian_concat [a, b] 0
  rw [UInt8.toNat_zero, Nat.add_zero] at hzero
  have hn : ofBigEndian [a, b] < 256 ^ 2 := ofBigEndian_lt [a, b]
  have hbytes : bigEndian 2 (ofBigEndian [a, b]) = [a, b] := bigEndian_ofBigEndian [a, b]
  have hsum : ((ofBigEndian [a, b, 0] / 262144 * 64 + ofBigEndian [a, b, 0] / 4096 % 64) * 64 +
      ofBigEndian [a, b, 0] / 64 % 64) / 4 = ofBigEndian [a, b] := by omega
  simp only [group, List.take, join, Symbol.bits, hsum, hbytes]

/-- One byte is read from two digits. -/
theorem join_one (a : UInt8) :
    join [.digit (a.toNat / 4), .digit (a.toNat % 4 * 16)] = [a] := by
  have ha := a.toNat_lt
  have hsum : (a.toNat / 4 * 64 + a.toNat % 4 * 16) / 16 = a.toNat := by omega
  simp only [join, Symbol.bits, hsum]
  exact congrArg (fun b => [b]) (UInt8.ofNat_toNat)

/-! ### Blocks of eight symbols -/

/-- Up to three bytes are read from the last four symbols. -/
theorem lastFour_symbols (bytes : Bytes) (h : bytes.length ≤ 3) :
    lastFour (symbols bytes) = .ok bytes := by
  match bytes, h with
  | [], _ => rfl
  | [a], _ => exact congrArg Except.ok (join_one a)
  | [a, b], _ => exact congrArg Except.ok (join_two a b)
  | [a, b, c], _ => exact congrArg Except.ok (join_group a b c [])

/-- **Up to six bytes are read from the last block.** -/
theorem lastBlock_symbols (bytes : Bytes) (h : bytes.length ≤ 6) :
    lastBlock (symbols bytes) = .ok bytes := by
  match bytes, h with
  | [], _ => rfl
  | [a], _ => exact lastFour_symbols [a] (Nat.le_of_ble_eq_true rfl)
  | [a, b], _ => exact lastFour_symbols [a, b] (Nat.le_of_ble_eq_true rfl)
  | [a, b, c], _ => exact lastFour_symbols [a, b, c] (Nat.le_of_ble_eq_true rfl)
  | a :: b :: c :: d :: rest, h =>
    have hshort : (d :: rest).length ≤ 3 := by
      simp only [List.length_cons] at h ⊢
      omega
    have hlast := lastFour_symbols (d :: rest) hshort
    have hmore : ¬ (symbols (a :: b :: c :: d :: rest)).length ≤ 4 := by
      rw [length_symbols]
      simp only [List.length_cons]
      omega
    have hgroup : (symbols (a :: b :: c :: d :: rest)).take 4 = group a b c := rfl
    have hrest : (symbols (a :: b :: c :: d :: rest)).drop 4 = symbols (d :: rest) := rfl
    have hdigits : (group a b c).any Symbol.isPad = false := rfl
    rw [lastBlock, if_neg hmore, hgroup, hrest, hdigits, hlast]
    exact congrArg (fun bytes => Except.ok (bytes ++ (d :: rest))) (join_group a b c [])

/-- **Reading goes on from anywhere inside a block**: the symbols that it holds and those to come
are read together, as the bytes that they were written for. -/
theorem decodeFrom_symbols (ss block : List Symbol) (bytes : Bytes) (hblock : block.length ≤ 8)
    (h : block ++ ss = symbols bytes) :
    decodeFrom block (ss.map Symbol.character) = .ok bytes := by
  induction ss generalizing block bytes with
  | nil =>
    have hlength := length_symbols bytes
    rw [List.append_nil] at h
    rw [← h] at hlength
    rw [List.map_nil, decodeFrom, h]
    exact lastBlock_symbols bytes (by omega)
  | cons s ss ih =>
    have hfits : s.Fits :=
      symbols_fit bytes s (h ▸ List.mem_append_right block List.mem_cons_self)
    have hlength := congrArg List.length h
    rw [length_symbols, List.length_append, List.length_cons] at hlength
    rw [List.map_cons]
    rcases Nat.lt_or_ge block.length 8 with hroom | hfull
    · rw [decodeFrom_room hfits _ hroom]
      refine ih (block ++ [s]) bytes ?_ ?_
      · rw [List.length_append]
        exact hroom
      · rw [List.append_assoc]
        exact h
    · -- the block is the two groups of the first six bytes
      have hsix : 6 < bytes.length := by omega
      match bytes, hsix with
      | a :: b :: c :: d :: e :: f :: rest, _ =>
        have hgroups : symbols (a :: b :: c :: d :: e :: f :: rest) =
            (group a b c ++ group d e f) ++ symbols rest := by
          rw [symbols, symbols, List.append_assoc]
        obtain ⟨rfl, hrest⟩ := List.append_inj (h.trans hgroups) (Nat.le_antisymm hblock hfull)
        have hjoin : join (group a b c ++ group d e f) = [a, b, c, d, e, f] := by
          rw [join_group, ← List.append_nil (group d e f), join_group]
          rfl
        have hlater := ih [s] rest (Nat.le_of_ble_eq_true rfl) hrest
        rw [decodeFrom_full hfits _ rfl rfl hlater, hjoin]
        rfl

/-- **The text of bytes is read as those bytes.** -/
theorem decode_encode (bytes : Bytes) : decode (encode bytes) = .ok bytes := by
  rw [encode_eq]
  exact decodeFrom_symbols (symbols bytes) [] bytes (Nat.zero_le 8) rfl

/-- A text has no dash and no line end in it. -/
theorem mem_encode {bytes : Bytes} {b : UInt8} (h : b ∈ encode bytes) :
    b ≠ 45 ∧ b ≠ 10 ∧ b ≠ 13 := by
  have hdigit : ∀ n < 64, character n ≠ 45 ∧ character n ≠ 10 ∧ character n ≠ 13 := by decide
  rw [encode_eq] at h
  obtain ⟨s, hs, rfl⟩ := List.mem_map.1 h
  have hfits := symbols_fit bytes s hs
  cases s with
  | digit n => exact hdigit n hfits
  | pad => decide

end TokenFeedback.Base64
