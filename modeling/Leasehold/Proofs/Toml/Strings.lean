import Leasehold.Proofs.Text.Lexing
import Leasehold.Toml.Lexeme
import Leasehold.Toml.Text
import Mathlib.Data.List.Basic

/-!
# Strings read back

A string is written in one of four kinds of quotes, and each kind has rules of its own for what may
stand in it. Whatever the kind, the lexer cuts off what was written as one string with the
characters it had (`Leasehold.Toml.LexState.cuts_stringText`).

Two kinds have escapes. There the writer may leave any string at all, because everything that means
something between the quotes is escaped; in a block it is enough that no three quotes come in a row.
The other two kinds take characters as they are, and hold only what the choice of the kind has
made sure of: no control characters, and no row of quotes that would end them.

The quotes that close a block come right after those that belong to the string, so the machine
counts up to five in a row, and the first of them are the string's.
-/

namespace Leasehold.Toml

open Text

/-- The kinds of quotes that may hold several lines. -/
def Style.isBlock : Style → Bool
  | .basic => false
  | .plain => false
  | .basicBlock => true
  | .plainBlock => true

namespace LexState

/-! ### Escapes -/

/-- **Escapes in a string** are read back, whatever opened the string. -/
def unescapes {state : LexState} (isBlock : Bool) {read : List Char}
    (hbackslash : state.step '\\' = some (escape isBlock read, []))
    (hother : ∀ {c : Char}, c ≠ '"' → c ≠ '\\' → isControl c = false →
      state.step c = some (resume isBlock (c :: read), [])) :
    lexer.Unescapes escapes state fun c => resume isBlock (c :: read) where
  escape := escape isBlock read
  number := number isBlock read
  backslash := hbackslash
  short {c d} h := by
    have hletter : escaped? d = some c := by
      rw [escaped?, unescape?_of_shortEscape? h]
      split_ifs with hname
      · subst hname
        cases unescape?_of_shortEscape? h
      · rfl
    rw [lexer_step, step, hletter]
  byNumber := rfl
  digit {missing value digit c} hmissing h := by
    simp [step, h, Nat.not_le.2 hmissing]
  last {value digit c} h hvalue := by
    have hlow : value * 16 + digit < 0xD800 := Nat.lt_trans hvalue (by decide)
    simp [step, h, character?, hlow]
  other := hother

/-- A string that has just been opened. -/
def unescapesOpened :
    lexer.Unescapes escapes (opened .basic) fun c => resume false [c] :=
  unescapes false rfl fun hquote hslash hcontrol => by
    simp [step, inLine, Quote.char, resume, hquote, hslash, hcontrol]

/-- A string of one line. -/
def unescapesLine (read : List Char) :
    lexer.Unescapes escapes (line .basic read) fun c => line .basic (c :: read) :=
  unescapes false rfl fun hquote hslash hcontrol => by
    simp [step, inLine, Quote.char, resume, hquote, hslash, hcontrol]

/-- The quotes just read in a block belong to the string once something else comes. -/
def unescapesBlock (read : List Char) {row : Nat} (hrow : row ≤ 2) (fresh : Bool) :
    lexer.Unescapes escapes (block .basic read row fresh) fun c =>
      block .basic (c :: (List.replicate row '"' ++ read)) 0 false :=
  have hfew : ¬3 ≤ row := by omega
  unescapes true (by simp [step, inBlock, Quote.char, hfew])
    fun {c} hquote hslash hcontrol => by
      have hline : c ≠ '\n' := by rintro rfl; exact absurd hcontrol (by decide)
      have hreturn : c ≠ '\r' := by rintro rfl; exact absurd hcontrol (by decide)
      simp [step, inBlock, Quote.char, resume, hfew, hquote, hslash, hline, hreturn, hcontrol]

/-! ### Strings of one line -/

/-- What may stand between single quotes on one line stands for itself. -/
theorem step_plain {c : Char} (hc : isEscapeOnly c = false ∧ c ≠ '\n' ∧ c ≠ '\'')
    (read : List Char) : lexer.step (line .plain read) c = some (line .plain (c :: read), []) := by
  obtain ⟨hescape, hline, hquote⟩ := hc
  have hcontrol : ¬(isControl c = true ∧ c ≠ '\t') := by
    simp only [isEscapeOnly, isControl] at hescape ⊢
    grind
  simp [step, inLine, Quote.char, hquote, hcontrol]

theorem run_closeLine (q : Quote) (read rest : List Char) :
    lexer.run (line q read) (q.char :: rest) =
      (lexer.run lexer.between rest).map (textLexeme read false :: ·) := by
  have hstep : lexer.step (line q read) q.char = some (lexer.between, [textLexeme read false]) :=
    if_pos rfl
  exact lexer.run_of_completes hstep rest

/-- An open lexeme that whatever comes next closes. -/
theorem run_of_closing {state : LexState} {l : Lexeme} {rest : List Char}
    (hfinish : state.finish = some [l])
    (hstep : ∀ c ∈ rest.head?, state.step c = some (closing l c)) :
    lexer.run state rest = (lexer.run lexer.between rest).map (l :: ·) :=
  lexer.run_of_closes hfinish hstep

/-- What comes right after a string is no quote. -/
def NoQuote (rest : List Char) : Prop := ∀ q : Quote, ∀ c ∈ rest.head?, c ≠ q.char

theorem run_opening (q : Quote) (cs : List Char) :
    lexer.run lexer.between (q.char :: cs) = lexer.run (opened q) cs := by
  cases q <;> exact lexer.run_of_step rfl cs

/-- A string without characters is closed by whatever comes next. -/
theorem cuts_empty (q : Quote) {rest : List Char} (hrest : NoQuote rest) :
    lexer.Cuts [q.char, q.char] [.text "" false] rest := by
  have htwice : lexer.step (opened q) q.char = some (openedTwice q, []) := if_pos rfl
  rw [Lexer.Cuts, List.cons_append]
  refine (run_opening q _).trans ?_
  rw [List.cons_append, lexer.run_of_step htwice]
  exact run_of_closing rfl fun c hc => if_neg (hrest q c hc)

theorem cuts_basic (s : List Char) {rest : List Char} (hrest : NoQuote rest) :
    lexer.Cuts (Style.basic.render s) [.text (String.ofList s) false] rest := by
  cases s with
  | nil => exact cuts_empty .basic hrest
  | cons c s =>
    have hopened := unescapesOpened.run_write c
      (s.flatMap escapes.write ++ Quote.basic.char :: rest)
    have hline := Lexer.Unescapes.run_flatMap_write (line .basic) unescapesLine s [c]
      (Quote.basic.char :: rest)
    have hclose := run_closeLine .basic (s.reverse ++ [c]) rest
    have hchars : Style.basic.render (c :: s) ++ rest =
        Quote.basic.char ::
          (escapes.write c ++ (s.flatMap escapes.write ++ Quote.basic.char :: rest)) := by
      simp [Style.render, Quote.char]
    rw [Lexer.Cuts, hchars, run_opening, hopened, resume, if_neg Bool.false_ne_true, hline, hclose]
    simp [textLexeme]

theorem cuts_plain {s rest : List Char}
    (hs : ∀ c ∈ s, isEscapeOnly c = false ∧ c ≠ '\n' ∧ c ≠ '\'') (hrest : NoQuote rest) :
    lexer.Cuts (Style.plain.render s) [.text (String.ofList s) false] rest := by
  cases s with
  | nil => exact cuts_empty .plain hrest
  | cons c s =>
    have hquote := (List.forall_mem_cons.1 hs).1.2.2
    -- The first character only has to be told from a second quote.
    have hopened : ∀ cs, lexer.run (opened .plain) (c :: cs) =
        lexer.run (line .plain []) (c :: cs) := by
      intro cs
      have hsame : lexer.step (opened .plain) c = lexer.step (line .plain []) c := if_neg hquote
      rw [lexer.run_cons, lexer.run_cons, hsame]
    have hclose := run_closeLine .plain (c :: s).reverse rest
    have hchars : Style.plain.render (c :: s) ++ rest =
        Quote.plain.char :: (c :: s ++ Quote.plain.char :: rest) := by
      simp [Style.render, Quote.char]
    rw [Lexer.Cuts, hchars, run_opening, List.cons_append, hopened, ← List.cons_append,
      lexer.run_row fun d hd => step_plain (hs d hd), List.append_nil, hclose, textLexeme,
      List.reverse_reverse]
    rfl

/-! ### Blocks -/

/-- Three quotes open a block. The end of the line right after them does not count, and is there
whenever another one would be taken for it. -/
theorem run_openBlock (q : Quote) (s cs : List Char) :
    lexer.run lexer.between
        ([q.char, q.char, q.char] ++ (if s.contains '\n' then ['\n'] else []) ++ cs) =
      lexer.run (block q [] 0 (!s.contains '\n')) cs := by
  have htwice : lexer.step (opened q) q.char = some (openedTwice q, []) := if_pos rfl
  have hthird : lexer.step (openedTwice q) q.char = some (block q [] 0 true, []) :=
    if_pos rfl
  have hline : lexer.step (block q [] 0 true) '\n' = some (block q [] 0 false, []) := by
    cases q <;> rfl
  have hquotes : ∀ cs, lexer.run lexer.between (q.char :: q.char :: q.char :: cs) =
      lexer.run (block q [] 0 true) cs := fun cs => by
    rw [run_opening, lexer.run_of_step htwice, lexer.run_of_step hthird]
  cases hs : s.contains '\n' with
  | true => exact (hquotes _).trans (lexer.run_of_step hline cs)
  | false => exact hquotes cs

/-- One more quote of fewer than five in a row. -/
theorem run_quote (q : Quote) (read : List Char) {row : Nat} (hrow : row < 4) (fresh : Bool)
    (cs : List Char) :
    lexer.run (block q read row fresh) (q.char :: cs) =
      lexer.run (block q read (row + 1) false) cs := by
  refine lexer.run_of_step ?_ cs
  rw [lexer_step, step, if_pos rfl, if_neg (Nat.ne_of_lt hrow)]

/-- **Three quotes close a block**; up to two more right before them belong to the string. -/
theorem run_closeBlock (q : Quote) (read : List Char) {row : Nat} (hrow : row ≤ 2) (fresh : Bool)
    {rest : List Char} (hrest : NoQuote rest) :
    lexer.run (block q read row fresh) (q.char :: q.char :: q.char :: rest) =
      (lexer.run lexer.between rest).map
        (textLexeme (List.replicate row q.char ++ read) true :: ·) := by
  rw [run_quote q read (by omega), run_quote q read (by omega)]
  by_cases hfive : row = 2
  · subst hfive
    refine lexer.run_of_completes ?_ rest
    rw [lexer_step, step, if_pos rfl, if_pos rfl]
    rfl
  · have hdrop : (List.replicate (row + 1 + 1 + 1) q.char).drop 3 = List.replicate row q.char := by
      simp
    rw [run_quote q read (by omega)]
    refine run_of_closing ?_ fun c hc => ?_
    · simp only [finish, if_pos (show 3 ≤ row + 1 + 1 + 1 by omega), hdrop]
    · simp only [step, if_neg (hrest q c hc), if_pos (show 3 ≤ row + 1 + 1 + 1 by omega), hdrop]

/-- The end of a line within a block, unless it is the one at the very start. -/
theorem run_newline (q : Quote) (read : List Char) {row : Nat} (hrow : row ≤ 2) (cs : List Char) :
    lexer.run (block q read row false) ('\n' :: cs) =
      lexer.run (block q ('\n' :: (List.replicate row q.char ++ read)) 0 false) cs := by
  refine lexer.run_of_step ?_ cs
  have hfew : ¬3 ≤ row := by omega
  have hquote : '\n' ≠ q.char := by cases q <;> decide
  simp [step, inBlock, hfew, hquote]

/-- **A block with escapes** is read as what was escaped. The induction goes over the string with
the quotes that were just read; two of them at most are held back, because the writer escapes the
third. -/
theorem run_escapeBlock {s : List Char} {row : Nat} (hrow : row ≤ 2) {fresh : Bool}
    (hfresh : fresh = false ∨ '\n' ∉ s) (read : List Char) {rest : List Char}
    (hrest : NoQuote rest) :
    lexer.run (block .basic read row fresh) (escapeBlock row s ++ '"' :: '"' :: '"' :: rest) =
      (lexer.run lexer.between rest).map
        (textLexeme (s.reverse ++ (List.replicate row '"' ++ read)) true :: ·) := by
  induction s generalizing row fresh read with
  | nil => exact run_closeBlock .basic read hrow fresh hrest
  | cons c s ih =>
    rw [escapeBlock]
    split_ifs with hquote htwo hline
    · -- the third quote in a row
      subst hquote htwo
      have hescape : lexer.run (block .basic read 2 fresh)
          ('\\' :: '"' :: (escapeBlock 0 s ++ '"' :: '"' :: '"' :: rest)) =
          lexer.run (block .basic ('"' :: (List.replicate 2 '"' ++ read)) 0 false)
            (escapeBlock 0 s ++ '"' :: '"' :: '"' :: rest) :=
        (unescapesBlock read (by omega) fresh).run_short rfl _
      rw [List.cons_append, List.cons_append, hescape, ih (by omega) (.inl rfl)]
      simp
    · -- a quote that is not the third
      subst hquote
      have hnext := run_quote .basic read (Nat.lt_of_le_of_lt hrow (by decide)) fresh
        (escapeBlock (row + 1) s ++ '"' :: '"' :: '"' :: rest)
      rw [Quote.char] at hnext
      rw [List.cons_append, hnext, ih (by omega) (.inl rfl), List.reverse_cons,
        List.append_assoc, List.replicate_succ]
      rfl
    · -- the end of a line
      subst hline
      obtain rfl := hfresh.resolve_right fun h => h List.mem_cons_self
      rw [List.cons_append, run_newline .basic read hrow, ih (by omega) (.inl rfl)]
      simp [Quote.char]
    · -- any other character
      have hescape : lexer.run (block .basic read row fresh)
          (escapes.write c ++ (escapeBlock 0 s ++ '"' :: '"' :: '"' :: rest)) =
          lexer.run (block .basic (c :: (List.replicate row '"' ++ read)) 0 false)
            (escapeBlock 0 s ++ '"' :: '"' :: '"' :: rest) :=
        (unescapesBlock read hrow fresh).run_write c _
      rw [List.append_assoc, hescape, ih (by omega) (.inl rfl)]
      simp

theorem cuts_basicBlock (s : List Char) {rest : List Char} (hrest : NoQuote rest) :
    lexer.Cuts (Style.basicBlock.render s) [.text (String.ofList s) true] rest := by
  have hfresh : (!s.contains '\n') = false ∨ '\n' ∉ s := by simp [Classical.em]
  have hchars : Style.basicBlock.render s ++ rest =
      [Quote.basic.char, Quote.basic.char, Quote.basic.char] ++
        (if s.contains '\n' then ['\n'] else []) ++
        (escapeBlock 0 s ++ '"' :: '"' :: '"' :: rest) := by
    simp [Style.render, Quote.char]
  rw [Lexer.Cuts, hchars, run_openBlock, run_escapeBlock (by omega) hfresh [] hrest]
  simp [textLexeme]

/-! ### Rows of quotes -/

/-- The longest row of a character so far, and the row at the end. -/
def countRow (q : Char) (counts : Nat × Nat) (c : Char) : Nat × Nat :=
  if c = q then (max counts.1 (counts.2 + 1), counts.2 + 1) else (counts.1, 0)

/-- A row that was seen does not go away. -/
theorem le_foldl_countRow (q : Char) (s : List Char) (counts : Nat × Nat) :
    counts.1 ≤ (s.foldl (countRow q) counts).1 := by
  induction s generalizing counts with
  | nil => exact Nat.le_refl _
  | cons c s ih =>
    refine Nat.le_trans ?_ (ih (countRow q counts c))
    unfold countRow
    split_ifs
    · exact Nat.le_max_left _ _
    · exact Nat.le_refl _

theorem ne_of_longestRow {q : Char} {s : List Char} {counts : Nat × Nat}
    (h : (s.foldl (countRow q) counts).1 = 0) : ∀ c ∈ s, c ≠ q := by
  induction s generalizing counts with
  | nil => simp
  | cons c s ih =>
    refine List.forall_mem_cons.2 ⟨?_, ih h⟩
    rintro rfl
    have hseen := le_foldl_countRow c s (countRow c counts c)
    have hrow : counts.2 + 1 ≤ (countRow c counts c).1 := by
      rw [countRow, if_pos rfl]
      exact Nat.le_max_right _ _
    have hzero : (s.foldl (countRow c) (countRow c counts c)).1 = 0 := h
    omega

/-- **A block without escapes** is read as it is, when it has at most two quotes in a row. -/
theorem run_plainBlock {s : List Char} (hs : ∀ c ∈ s, isEscapeOnly c = false) {best row : Nat}
    (hrow : row ≤ 2) (hrows : (s.foldl (countRow '\'') (best, row)).1 ≤ 2) {fresh : Bool}
    (hfresh : fresh = false ∨ '\n' ∉ s) (read : List Char) {rest : List Char}
    (hrest : NoQuote rest) :
    lexer.run (block .plain read row fresh) (s ++ '\'' :: '\'' :: '\'' :: rest) =
      (lexer.run lexer.between rest).map
        (textLexeme (s.reverse ++ (List.replicate row '\'' ++ read)) true :: ·) := by
  induction s generalizing best row fresh read with
  | nil => exact run_closeBlock .plain read hrow fresh hrest
  | cons c s ih =>
    obtain ⟨hc, htail⟩ := List.forall_mem_cons.1 hs
    rw [List.foldl_cons, countRow] at hrows
    by_cases hquote : c = '\''
    · subst hquote
      rw [if_pos rfl] at hrows
      have hseen := le_foldl_countRow '\'' s (max best (row + 1), row + 1)
      have hfew : row + 1 ≤ 2 :=
        Nat.le_trans (Nat.le_max_right best (row + 1)) (Nat.le_trans hseen hrows)
      have hnext := run_quote .plain read (Nat.lt_of_le_of_lt hrow (by decide)) fresh
        (s ++ '\'' :: '\'' :: '\'' :: rest)
      rw [Quote.char] at hnext
      rw [List.cons_append, hnext, ih htail hfew hrows (.inl rfl), List.reverse_cons,
        List.append_assoc, List.replicate_succ]
      rfl
    · rw [if_neg hquote] at hrows
      by_cases hline : c = '\n'
      · subst hline
        obtain rfl := hfresh.resolve_right fun h => h List.mem_cons_self
        rw [List.cons_append, run_newline .plain read hrow, ih htail (by omega) hrows (.inl rfl)]
        simp [Quote.char]
      · have hstep : lexer.step (block .plain read row fresh) c =
            some (block .plain (c :: (List.replicate row '\'' ++ read)) 0 false, []) := by
          have hfew : ¬3 ≤ row := by omega
          have hreturn : c ≠ '\r' := by rintro rfl; exact absurd hc (by decide)
          have hcontrol : ¬(isControl c = true ∧ c ≠ '\t') := by
            simp only [isEscapeOnly, isControl] at hc ⊢
            grind
          simp [step, inBlock, Quote.char, hfew, hquote, hline, hreturn, hcontrol]
        rw [List.cons_append, lexer.run_of_step hstep, ih htail (by omega) hrows (.inl rfl)]
        simp

theorem cuts_plainBlock {s rest : List Char} (hs : ∀ c ∈ s, isEscapeOnly c = false)
    (hrows : longestRow '\'' s ≤ 2) (hrest : NoQuote rest) :
    lexer.Cuts (Style.plainBlock.render s) [.text (String.ofList s) true] rest := by
  have hfresh : (!s.contains '\n') = false ∨ '\n' ∉ s := by simp [Classical.em]
  have hchars : Style.plainBlock.render s ++ rest =
      [Quote.plain.char, Quote.plain.char, Quote.plain.char] ++
        (if s.contains '\n' then ['\n'] else []) ++ (s ++ '\'' :: '\'' :: '\'' :: rest) := by
    simp [Style.render, Quote.char]
  rw [Lexer.Cuts, hchars, run_openBlock, run_plainBlock hs (by omega) hrows hfresh [] hrest]
  simp [textLexeme]

/-! ### The kind of quotes -/

/-- What the choice of single quotes makes sure of. -/
theorem plain_of_style {s : List Char} (h : Style.of s = .plain) :
    ∀ c ∈ s, isEscapeOnly c = false ∧ c ≠ '\n' ∧ c ≠ '\'' := by
  simp only [Style.of] at h
  split_ifs at h with hbasic hplain
  simp only [Bool.and_eq_true, Bool.not_eq_true', decide_eq_true_eq] at hplain
  obtain ⟨⟨hescape, hline⟩, hquotes⟩ := hplain
  intro c hc
  refine ⟨by simpa using List.any_eq_false.1 hescape c hc, ?_, ne_of_longestRow hquotes c hc⟩
  rintro rfl
  exact absurd (List.contains_iff_mem.2 hc) (Bool.eq_false_iff.1 hline)

/-- What the choice of a block between single quotes makes sure of. -/
theorem plainBlock_of_style {s : List Char} (h : Style.of s = .plainBlock) :
    (∀ c ∈ s, isEscapeOnly c = false) ∧ longestRow '\'' s ≤ 2 := by
  simp only [Style.of] at h
  split_ifs at h with hbasic hplain hbasicBlock hplainBlock
  simp only [Bool.and_eq_true, Bool.not_eq_true', decide_eq_true_eq] at hplainBlock
  obtain ⟨hescape, hquotes⟩ := hplainBlock
  exact ⟨fun c hc => by simpa using List.any_eq_false.1 hescape c hc, hquotes⟩

/-- **A written string** is cut off as one string with the characters it had, whatever kind of
quotes it was given. -/
theorem cuts_stringText (s : String) {rest : List Char} (hrest : NoQuote rest) :
    lexer.Cuts (stringText s).toList [.text s (Style.of s.toList).isBlock] rest := by
  have hself : String.ofList s.toList = s := String.ofList_toList
  rw [stringText, String.toList_ofList]
  cases hstyle : Style.of s.toList with
  | basic => simpa only [hself, Style.isBlock] using cuts_basic s.toList hrest
  | plain => simpa only [hself, Style.isBlock] using cuts_plain (plain_of_style hstyle) hrest
  | basicBlock => simpa only [hself, Style.isBlock] using cuts_basicBlock s.toList hrest
  | plainBlock =>
    obtain ⟨hescape, hrows⟩ := plainBlock_of_style hstyle
    simpa only [hself, Style.isBlock] using cuts_plainBlock hescape hrows hrest

end LexState

end Leasehold.Toml
