import Mathlib.Data.List.TakeWhile
import TokenFeedback.Pem
import TokenFeedback.Proofs.Base64

/-!
# PEM files there and back

A file that is put together from sections and commentary is read as the sections that were put in,
up to the first thing in it that is malformed, which is read as what is wrong with it.

* `Piece`: what a file is put together from. Each piece is well formed by its type.
* `sectionsFrom_step`: what one line does, whatever comes behind it.
* `sectionsFrom_block`: **a section is read from its begin line to its end line.**
* `sectionsFrom_unlines`: the reader does not see which line ends are used.
* `sections_file`: **the pieces of a file are read one by one**, and then what is behind them.
* `sections_behind`: **what is put behind a file changes nothing that was read of it.**
* `Fault`, `sections_fault`: **what is malformed is found**, behind any pieces.
-/

namespace TokenFeedback.Pem

/-! ### Lines -/

/-- What may end a line. -/
inductive LineEnd where
  | lf
  | cr
  | crlf

def LineEnd.bytes : LineEnd → Bytes
  | .lf => [10]
  | .cr => [13]
  | .crlf => [13, 10]

/-- Lines as a text, each with its end. -/
def unlines (e : LineEnd) (ls : List Bytes) : Bytes := ls.flatMap (· ++ e.bytes)

theorem unlines_cons (e : LineEnd) (line : Bytes) (ls : List Bytes) :
    unlines e (line :: ls) = line ++ e.bytes ++ unlines e ls := List.flatMap_cons

/-- A line has no line end in it. -/
def Clean (line : Bytes) : Prop := ∀ b ∈ line, isLineEnd b = false

instance (line : Bytes) : Decidable (Clean line) := inferInstanceAs (Decidable (∀ b ∈ line, _))

theorem Clean.append {a b : Bytes} (ha : Clean a) (hb : Clean b) : Clean (a ++ b) := by
  intro c hc
  exact (List.mem_append.1 hc).elim (ha c) (hb c)

theorem lines_line {line : Bytes} (h : Clean line) {b : UInt8} (hb : isLineEnd b = true)
    (rest : Bytes) : lines (line ++ b :: rest) = line :: lines rest := by
  induction line with
  | nil => rw [List.nil_append, lines, if_pos hb]
  | cons c line ih =>
    have hc : ¬ isLineEnd c = true := Bool.eq_false_iff.1 (h c List.mem_cons_self)
    have hline : Clean line := fun b hb => h b (List.mem_cons_of_mem c hb)
    rw [List.cons_append, lines, if_neg hc, ih hline]

/-- The line that begins a section with this label. -/
def beginLine (label : Bytes) : Bytes := beginMark ++ label ++ dashes

/-- The line that ends it. -/
def endLine (label : Bytes) : Bytes := endMark ++ label ++ dashes

theorem beginMark_eq : beginMark = [45, 45, 45, 45, 45, 66, 69, 71, 73, 78, 32] := by
  decide +kernel

theorem endMark_eq : endMark = [45, 45, 45, 45, 45, 69, 78, 68, 32] := by decide +kernel

theorem dashes_eq : dashes = [45, 45, 45, 45, 45] := by decide +kernel

theorem clean_beginMark : Clean beginMark := by decide +kernel

theorem clean_endMark : Clean endMark := by decide +kernel

theorem clean_dashes : Clean dashes := by decide +kernel

theorem after?_append (mark rest : Bytes) : after? mark (mark ++ rest) = some rest := by
  rw [after?, if_pos (List.isPrefixOf_iff_prefix.2 (List.prefix_append mark rest)),
    List.drop_left]

theorem after?_eq_none {mark line : Bytes} (h : ¬ mark <+: line) : after? mark line = none := by
  rw [after?, if_neg fun hp => h (List.isPrefixOf_iff_prefix.1 hp)]

/-- The end line of a section does not begin one. -/
theorem not_begins_endLine (label : Bytes) : ¬ beginMark <+: endLine label := by
  rw [beginMark_eq, endLine, endMark_eq]
  simp [List.cons_prefix_cons]

/-! ### What one line does -/

section

variable {label : Option Bytes} {l text line : Bytes} {rest : List Bytes}

theorem sectionsFrom_illegal (h : classify label line = .beginning none) :
    sectionsFrom label text (line :: rest) =
      .error (.illegalSectionStart line) :: sectionsFrom none [] rest := by
  rw [sectionsFrom.eq_def]
  simp only [h]

theorem sectionsFrom_begin (h : classify label line = .beginning (some l)) :
    sectionsFrom label text (line :: rest) = sectionsFrom (some l) text rest := by
  rw [sectionsFrom.eq_def]
  simp only [h]

theorem sectionsFrom_end (h : classify (some l) line = .ending) :
    sectionsFrom (some l) text (line :: rest) =
      (close? l text).toList ++ sectionsFrom none [] rest := by
  rw [sectionsFrom.eq_def]
  simp only [h]

theorem sectionsFrom_content (h : classify (some l) line = .content) :
    sectionsFrom (some l) text (line :: rest) = sectionsFrom (some l) (text ++ line) rest := by
  rw [sectionsFrom.eq_def]
  simp only [h]

theorem sectionsFrom_outside (h : classify none line = .content) :
    sectionsFrom none text (line :: rest) = sectionsFrom none text rest := by
  rw [sectionsFrom.eq_def]
  simp only [h]

/-- What a line does does not depend on what comes behind it. -/
theorem sectionsFrom_step (label : Option Bytes) (text line : Bytes) :
    ∃ found label' text', ∀ rest,
      sectionsFrom label text (line :: rest) = found ++ sectionsFrom label' text' rest := by
  rcases hc : classify label line with (_ | l) | _ | _
  · exact ⟨[_], none, [], fun rest => sectionsFrom_illegal hc⟩
  · exact ⟨[], some l, text, fun rest => sectionsFrom_begin hc⟩
  · cases label with
    | none =>
      rw [classify] at hc
      split at hc <;> cases hc
    | some l => exact ⟨_, none, [], fun rest => sectionsFrom_end hc⟩
  · cases label with
    | none => exact ⟨[], none, text, fun rest => sectionsFrom_outside hc⟩
    | some l => exact ⟨[], some l, text ++ line, fun rest => sectionsFrom_content hc⟩

/-- What lines do does not depend on what comes behind them. -/
theorem sectionsFrom_steps (label : Option Bytes) (text : Bytes) (ls : List Bytes) :
    ∃ found label' text', ∀ rest,
      sectionsFrom label text (ls ++ rest) = found ++ sectionsFrom label' text' rest := by
  induction ls generalizing label text with
  | nil => exact ⟨[], label, text, fun rest => rfl⟩
  | cons line ls ih =>
    obtain ⟨found, label₁, text₁, hline⟩ := sectionsFrom_step label text line
    obtain ⟨later, label₂, text₂, hlines⟩ := ih label₁ text₁
    refine ⟨found ++ later, label₂, text₂, fun rest => ?_⟩
    rw [List.cons_append, hline, hlines, List.append_assoc]

end

/-- A line that begins no section and stands in none. -/
theorem classify_outside {line : Bytes} (h : ¬ beginMark <+: line) :
    classify none line = .content := by
  rw [classify, after?_eq_none h]

/-- A line that stands in a section and neither begins nor ends one. -/
theorem classify_inside {label line : Bytes} (h : ¬ beginMark <+: line)
    (h' : ¬ endLine label <+: line) : classify (some label) line = .content := by
  have hends : ¬ endsSection label line = true := fun he => h' (List.isPrefixOf_iff_prefix.1 he)
  rw [classify, after?_eq_none h]
  simp only [if_neg hends]

theorem classify_endLine (label : Bytes) : classify (some label) (endLine label) = .ending := by
  have hends : endsSection label (endLine label) = true :=
    List.isPrefixOf_iff_prefix.2 (List.prefix_refl _)
  rw [classify, after?_eq_none (not_begins_endLine label)]
  simp only [if_pos hends]

theorem sectionsFrom_blank (label : Option Bytes) (text : Bytes) (rest : List Bytes) :
    sectionsFrom label text ([] :: rest) = sectionsFrom label text rest := by
  have hbegin : ¬ beginMark <+: [] := by rw [beginMark_eq]; simp
  cases label with
  | none => exact sectionsFrom_outside (classify_outside hbegin)
  | some l =>
    have hend : ¬ endLine l <+: [] := by rw [endLine, endMark_eq]; simp
    rw [sectionsFrom_content (classify_inside hbegin hend), List.append_nil]

theorem sectionsFrom_line {line : Bytes} (h : Clean line) (e : LineEnd) (label : Option Bytes)
    (text rest : Bytes) :
    sectionsFrom label text (lines (line ++ e.bytes ++ rest)) =
      sectionsFrom label text (line :: lines rest) := by
  rw [List.append_assoc]
  cases e with
  | lf => exact congrArg _ (lines_line h rfl rest)
  | cr => exact congrArg _ (lines_line h rfl rest)
  | crlf =>
    -- the reader finds a blank line between the two characters
    have hblank : lines (10 :: rest) = [] :: lines rest := rfl
    have hlines : lines (line ++ 13 :: 10 :: rest) = line :: [] :: lines rest := by
      rw [lines_line h rfl, hblank]
    obtain ⟨found, label', text', hstep⟩ := sectionsFrom_step label text line
    calc sectionsFrom label text (lines (line ++ 13 :: 10 :: rest))
        = found ++ sectionsFrom label' text' ([] :: lines rest) := by rw [hlines, hstep]
      _ = sectionsFrom label text (line :: lines rest) := by rw [sectionsFrom_blank, hstep]

/-- **The reader does not see which line ends are used.** -/
theorem sectionsFrom_unlines {ls : List Bytes} (h : ∀ line ∈ ls, Clean line) (e : LineEnd)
    (label : Option Bytes) (text rest : Bytes) :
    sectionsFrom label text (lines (unlines e ls ++ rest)) =
      sectionsFrom label text (ls ++ lines rest) := by
  induction ls generalizing label text with
  | nil => rfl
  | cons line ls ih =>
    have hsplit : unlines e (line :: ls) ++ rest = line ++ e.bytes ++ (unlines e ls ++ rest) := by
      rw [unlines_cons, List.append_assoc]
    obtain ⟨found, label', text', hstep⟩ := sectionsFrom_step label text line
    rw [hsplit, sectionsFrom_line (h line List.mem_cons_self), hstep, List.cons_append, hstep,
      ih fun line hl => h line (List.mem_cons_of_mem _ hl)]

/-! ### Sections -/

/-- A label that a begin line can carry: its end cannot be taken for the dashes behind it. -/
def Labels (label : Bytes) : Prop := 45 ∉ label.reverse.takeWhile fun b => b == 45 || b == 32

instance (label : Bytes) : Decidable (Labels label) := inferInstanceAs (Decidable (¬ _ ∈ _))

theorem labelOf?_dashes {label : Bytes} (h : Labels label) :
    labelOf? (label ++ dashes) = some label := by
  have htail : (label ++ dashes).reverse.takeWhile (fun b => b == 45 || b == 32) =
      dashes ++ label.reverse.takeWhile fun b => b == 45 || b == 32 := by
    have hdashes : ∀ b ∈ dashes.reverse, (b == 45 || b == 32) = true := by decide +kernel
    rw [List.reverse_append, List.takeWhile_append_of_pos hdashes, dashes_eq]
    rfl
  rw [Labels] at h
  rw [labelOf?, htail]
  generalize hspaces : label.reverse.takeWhile (fun b => b == 45 || b == 32) = spaces at h ⊢
  have hcount : (dashes ++ spaces).count 45 = 5 := by
    rw [List.count_append, List.count_eq_zero.2 h, dashes_eq]
    rfl
  have hblank : ∀ b ∈ spaces.reverse, (b == 32) = true := by
    intro b hb
    have hmem : b ∈ spaces := List.mem_reverse.1 hb
    have hor := List.mem_takeWhile_imp (hspaces ▸ hmem)
    have hne : b ≠ 45 := fun he => h (he ▸ hmem)
    simpa [hne] using hor
  have hdrop : (dashes ++ spaces).reverse.dropWhile (· == 32) = dashes := by
    rw [List.reverse_append, List.dropWhile_append_of_pos hblank, dashes_eq]
    rfl
  have hlength : (label ++ dashes).length - dashes.length = label.length := by
    rw [List.length_append, Nat.add_sub_cancel]
  simp only [if_pos hcount, hdrop, hlength, List.take_left]

theorem classify_beginLine {label : Bytes} (h : Labels label) (inside : Option Bytes) :
    classify inside (beginLine label) = .beginning (some label) := by
  have hafter : after? beginMark (beginLine label) = some (label ++ dashes) := by
    rw [beginLine, List.append_assoc, after?_append]
  rw [classify.eq_def, hafter]
  simp only [labelOf?_dashes h]

/-- A line that may stand in a section. -/
structure Inside (label line : Bytes) : Prop where
  not_begins : ¬ beginMark <+: line
  not_ends : ¬ endLine label <+: line

/-- The lines in a section are collected. -/
theorem sectionsFrom_body {label : Bytes} {body : List Bytes}
    (h : ∀ line ∈ body, Inside label line) (text : Bytes) (rest : List Bytes) :
    sectionsFrom (some label) text (body ++ rest) =
      sectionsFrom (some label) (text ++ body.flatten) rest := by
  induction body generalizing text with
  | nil => rw [List.flatten_nil, List.append_nil, List.nil_append]
  | cons line body ih =>
    have hline := h line List.mem_cons_self
    rw [List.cons_append, sectionsFrom_content (classify_inside hline.not_begins hline.not_ends),
      ih fun line hl => h line (List.mem_cons_of_mem _ hl), List.flatten_cons, List.append_assoc]

/-- A section with any label and any text. -/
structure Block where
  label : Bytes
  body : List Bytes
  labels : Labels label
  clean : ∀ line ∈ label :: body, Clean line
  inside : ∀ line ∈ body, Inside label line

/-- The lines of a section up to its end line. -/
def Block.opened (b : Block) : List Bytes := beginLine b.label :: b.body

def Block.lines (b : Block) : List Bytes := b.opened ++ [endLine b.label]

/-- The reader stands in the section and has its text. -/
theorem sectionsFrom_opened (b : Block) (rest : List Bytes) :
    sectionsFrom none [] (b.opened ++ rest) = sectionsFrom (some b.label) b.body.flatten rest := by
  rw [Block.opened, List.cons_append, sectionsFrom_begin (classify_beginLine b.labels none),
    sectionsFrom_body b.inside, List.nil_append]

/-- **A section is read from its begin line to its end line.** -/
theorem sectionsFrom_block (b : Block) (rest : List Bytes) :
    sectionsFrom none [] (b.lines ++ rest) =
      (close? b.label b.body.flatten).toList ++ sectionsFrom none [] rest := by
  rw [Block.lines, List.append_assoc, sectionsFrom_opened, List.singleton_append,
    sectionsFrom_end (classify_endLine b.label)]

theorem Block.clean_opened (b : Block) : ∀ line ∈ b.opened, Clean line := by
  intro line hline
  rcases List.mem_cons.1 hline with rfl | hbody
  · have hlabel : Clean b.label := b.clean b.label List.mem_cons_self
    exact (clean_beginMark.append hlabel).append clean_dashes
  · exact b.clean line (List.mem_cons_of_mem _ hbody)

theorem Block.clean_lines (b : Block) : ∀ line ∈ b.lines, Clean line := by
  intro line hline
  rcases List.mem_append.1 hline with hopened | hend
  · exact b.clean_opened line hopened
  · have hlabel : Clean b.label := b.clean b.label List.mem_cons_self
    rw [List.mem_singleton.1 hend]
    exact (clean_endMark.append hlabel).append clean_dashes

/-! ### Sections as they are usually written -/

theorem Kind.ofLabel?_label (k : Kind) : Kind.ofLabel? (textBytes k.label) = some k := by
  cases k <;> decide +kernel

theorem Kind.labels (k : Kind) : Labels (textBytes k.label) ∧ Clean (textBytes k.label) := by
  cases k <;> decide +kernel

/-- A text in lines of 64 characters. -/
def columns (text : Bytes) : List Bytes :=
  match text with
  | [] => []
  | b :: rest => (b :: rest.take 63) :: columns (rest.drop 63)
termination_by text.length
decreasing_by simp only [List.length_drop, List.length_cons]; omega

theorem flatten_columns (text : Bytes) : (columns text).flatten = text := by
  induction text using columns.induct with
  | case1 => rw [columns]; rfl
  | case2 b rest ih =>
    rw [columns, List.flatten_cons, ih, List.cons_append, List.take_append_drop]

theorem mem_of_mem_columns {text line : Bytes} {b : UInt8} (h : line ∈ columns text)
    (hb : b ∈ line) : b ∈ text := by
  rw [← flatten_columns text]
  exact List.mem_flatten.2 ⟨line, h, hb⟩

/-- What has no dash in it may stand in any section. -/
theorem inside_of_not_mem {label line : Bytes} (h : 45 ∉ line) : Inside label line where
  not_begins hp := h (hp.subset (by rw [beginMark_eq]; decide))
  not_ends hp := h (hp.subset (by rw [endLine, endMark_eq]; simp))

/-- The section as it is usually written, without its line ends. -/
def Section.block (s : Section) : Block where
  label := textBytes s.kind.label
  body := columns (Base64.encode s.der)
  labels := s.kind.labels.1
  clean := by
    intro line hline
    rcases List.mem_cons.1 hline with rfl | hbody
    · exact s.kind.labels.2
    · intro b hb
      obtain ⟨-, hlf, hcr⟩ := Base64.mem_encode (mem_of_mem_columns hbody hb)
      simp [isLineEnd, hlf, hcr]
  inside := by
    intro line hline
    have hdash : 45 ∉ line := fun hb =>
      (Base64.mem_encode (mem_of_mem_columns hline hb)).1 rfl
    exact inside_of_not_mem hdash

theorem close?_block (s : Section) :
    close? s.block.label s.block.body.flatten = some (.ok s) := by
  have hbody : s.block.body.flatten = Base64.encode s.der := flatten_columns _
  have hkind : Kind.ofLabel? s.block.label = some s.kind := s.kind.ofLabel?_label
  rw [close?, hkind, hbody, Base64.decode_encode]
  rfl

/-! ### Files -/

/-- What a file is put together from: sections as they are usually written; sections in any other
form that is base64, or with an unknown label, which may hold anything; and lines between them. -/
inductive Piece where
  | known (s : Section)
  | other (b : Block) (found : Option Section)
    (reads : close? b.label b.body.flatten = found.map .ok)
  | comment (line : Bytes) (clean : Clean line) (outside : ¬ beginMark <+: line)

def Piece.lines : Piece → List Bytes
  | .known s => s.block.lines
  | .other b _ _ => b.lines
  | .comment line _ _ => [line]

/-- The section that is to be read. -/
def Piece.section? : Piece → Option Section
  | .known s => some s
  | .other _ found _ => found
  | .comment _ _ _ => none

/-- The sections that are to be read. -/
def contents (pieces : List Piece) : List Section := pieces.filterMap Piece.section?

/-- The text of a file. -/
def file (e : LineEnd) (pieces : List Piece) : Bytes := unlines e (pieces.flatMap Piece.lines)

theorem Piece.clean_lines (p : Piece) : ∀ line ∈ p.lines, Clean line := by
  cases p with
  | known s => exact s.block.clean_lines
  | other b found reads => exact b.clean_lines
  | comment line clean outside =>
    intro l hl
    rwa [List.mem_singleton.1 hl]

theorem sectionsFrom_piece (p : Piece) (rest : List Bytes) :
    sectionsFrom none [] (p.lines ++ rest) =
      p.section?.toList.map .ok ++ sectionsFrom none [] rest := by
  cases p with
  | known s =>
    rw [Piece.lines, sectionsFrom_block, close?_block]
    rfl
  | other b found reads =>
    rw [Piece.lines, sectionsFrom_block, reads]
    cases found <;> rfl
  | comment line clean outside => exact sectionsFrom_outside (classify_outside outside)

theorem sectionsFrom_pieces (pieces : List Piece) (rest : List Bytes) :
    sectionsFrom none [] (pieces.flatMap Piece.lines ++ rest) =
      (contents pieces).map .ok ++ sectionsFrom none [] rest := by
  induction pieces with
  | nil => rfl
  | cons p pieces ih =>
    rw [List.flatMap_cons, List.append_assoc, sectionsFrom_piece, ih, contents, contents,
      List.filterMap_cons]
    cases p.section? <;> rfl

/-- **The pieces of a file are read one by one**, and then what is behind them. -/
theorem sections_file (e : LineEnd) (pieces : List Piece) (rest : Bytes) :
    sections (file e pieces ++ rest) = (contents pieces).map .ok ++ sections rest := by
  have hclean : ∀ line ∈ pieces.flatMap Piece.lines, Clean line := by
    intro line hline
    obtain ⟨p, -, hp⟩ := List.mem_flatMap.1 hline
    exact p.clean_lines line hp
  rw [sections, file, sectionsFrom_unlines hclean, sectionsFrom_pieces]
  rfl

/-- A file of pieces has their sections and no fault. -/
theorem sections_pieces (e : LineEnd) (pieces : List Piece) :
    sections (file e pieces) = (contents pieces).map .ok := by
  rw [← List.append_nil (file e pieces), sections_file]
  exact List.append_nil _

/-! ### What is put behind a file -/

theorem lines_cons_ne_nil (b : UInt8) (rest : Bytes) : lines (b :: rest) ≠ [] := by
  rw [lines]
  split
  · exact List.cons_ne_nil _ _
  · split <;> exact List.cons_ne_nil _ _

theorem lines_append (file : Bytes) {b : UInt8} (hb : isLineEnd b = true) (behind : Bytes) :
    lines (file ++ b :: behind) = lines (file ++ [b]) ++ lines behind := by
  induction file with
  | nil =>
    rw [List.nil_append, List.nil_append, lines, lines, if_pos hb, if_pos hb]
    rfl
  | cons c file ih =>
    rw [List.cons_append, List.cons_append, lines, lines, ih]
    split
    · rfl
    · cases hfile : lines (file ++ [b]) with
      | nil =>
        cases file with
        | nil => exact absurd hfile (lines_cons_ne_nil b [])
        | cons d file => exact absurd hfile (lines_cons_ne_nil d (file ++ [b]))
      | cons line later => rfl

/-- A file that is ended with a line end has its lines, and perhaps a blank one behind them. -/
theorem lines_ended (file : Bytes) {b : UInt8} (hb : isLineEnd b = true) :
    ∃ blank, lines (file ++ [b]) = lines file ++ blank := by
  induction file with
  | nil => exact ⟨lines [b], rfl⟩
  | cons c file ih =>
    obtain ⟨blank, hblank⟩ := ih
    rw [List.cons_append, lines, lines]
    split
    · exact ⟨blank, congrArg _ hblank⟩
    · cases hfile : lines file with
      | nil =>
        -- the file is one line, and the line end is its own
        cases file with
        | nil =>
          refine ⟨[], ?_⟩
          rw [List.nil_append, lines, if_pos hb, lines]
          rfl
        | cons d file => exact absurd hfile (lines_cons_ne_nil d file)
      | cons line later =>
        rw [hblank, hfile]
        exact ⟨blank, rfl⟩

/-- **What is put behind a file changes nothing that was read of it**, but for a section that the
file leaves open. -/
theorem sections_behind (file : Bytes) :
    ∃ found ending, sections file = found ++ ending ∧
      (∀ x ∈ ending, ∃ l, x = .error (.missingSectionEnd l)) ∧
      ∀ (e : LineEnd) (behind : Bytes), ∃ later,
        sections (file ++ e.bytes ++ behind) = found ++ later := by
  obtain ⟨found, label, text, hfile⟩ := sectionsFrom_steps none [] (lines file)
  refine ⟨found, sectionsFrom label text [], ?_, ?_, fun e behind => ?_⟩
  · rw [sections, ← hfile, List.append_nil]
  · intro x hx
    cases label with
    | none => cases hx
    | some l => exact ⟨l, List.mem_singleton.1 hx⟩
  · obtain ⟨b, rest, hb, hends⟩ : ∃ b rest, isLineEnd b = true ∧ e.bytes = b :: rest := by
      cases e with
      | lf => exact ⟨10, [], rfl, rfl⟩
      | cr => exact ⟨13, [], rfl, rfl⟩
      | crlf => exact ⟨13, [10], rfl, rfl⟩
    obtain ⟨blank, hblank⟩ := lines_ended file hb
    refine ⟨sectionsFrom label text (blank ++ lines (rest ++ behind)), ?_⟩
    rw [sections, hends, List.append_assoc, List.cons_append, lines_append file hb, hblank,
      List.append_assoc, hfile]

/-! ### What is malformed -/

/-- The rest of a file that begins with something malformed: a line that is to begin a section and
does not say which, a section with a known label whose text is no base64, or a section that nothing
ends. -/
inductive Fault where
  | illegal (behind : Bytes) (clean : Clean behind) (unlabelled : labelOf? behind = none)
    (rest : Bytes)
  | garbled (b : Block) (kind : Kind) (known : Kind.ofLabel? b.label = some kind)
    (error : Base64.Error) (garbled : Base64.decode b.body.flatten = .error error) (rest : Bytes)
  | unclosed (b : Block)

namespace Fault

def text (e : LineEnd) : Fault → Bytes
  | .illegal behind _ _ rest => unlines e [beginMark ++ behind] ++ rest
  | .garbled b _ _ _ _ rest => unlines e b.lines ++ rest
  | .unclosed b => unlines e b.opened

def error : Fault → Error
  | .illegal behind _ _ _ => .illegalSectionStart (beginMark ++ behind)
  | .garbled _ _ _ error _ _ => .base64 error
  | .unclosed b => .missingSectionEnd b.label

end Fault

/-- **What is malformed is found**: the reader says what is wrong with it before all else. -/
theorem sections_fault (e : LineEnd) (f : Fault) :
    ∃ later, sections (f.text e) = .error f.error :: later := by
  cases f with
  | illegal behind clean unlabelled rest =>
    have hclean : ∀ line ∈ [beginMark ++ behind], Clean line := by
      intro line hline
      rw [List.mem_singleton.1 hline]
      exact clean_beginMark.append clean
    have hline : classify none (beginMark ++ behind) = .beginning none := by
      rw [classify.eq_def, after?_append]
      simp only [unlabelled]
    refine ⟨sections rest, ?_⟩
    rw [sections, Fault.text, sectionsFrom_unlines hclean, List.singleton_append,
      sectionsFrom_illegal hline]
    rfl
  | garbled b kind known error garbled rest =>
    refine ⟨sections rest, ?_⟩
    have hclose : close? b.label b.body.flatten = some (.error (.base64 error)) := by
      rw [close?, known, garbled]
      rfl
    rw [sections, Fault.text, sectionsFrom_unlines b.clean_lines, sectionsFrom_block, hclose]
    rfl
  | unclosed b =>
    refine ⟨[], ?_⟩
    have htext : unlines e b.opened = unlines e b.opened ++ [] := (List.append_nil _).symm
    rw [sections, Fault.text, htext, sectionsFrom_unlines b.clean_opened, sectionsFrom_opened]
    rfl

end TokenFeedback.Pem
