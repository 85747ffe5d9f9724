import Leasehold.Proofs.Text.Digits
import Leasehold.Proofs.Toml.Strings
import Leasehold.Toml.Statement

/-!
# Cutting what was written

A document is written section by section, and the lexer takes it apart in the same way: a section
is cut into its own lexemes, whatever comes after it (`Leasehold.Toml.LexState.cuts_section`), and
so is every value at the end of its line (`Leasehold.Toml.LexState.cuts_value`).

* `Leasehold.Toml.IsBareKey`, `Leasehold.Toml.Section.IsReadable` – what a section has to be like to
  be read again;
* `Leasehold.Toml.Plain.lexemes`, `Leasehold.Toml.Section.lexemes`,
  `Leasehold.Toml.documentLexemes` – the lexemes that are written;
* `Leasehold.Toml.Lexeme.ofText?_documentText` – the text of a document has the lexemes of the
  document.

A bare word needs something after it that ends it, and blanks something that is no blank. Each is
said of the rest of the text, so that the parts of a line can be put together.
-/

namespace Leasehold.Toml

open Text
open ReadState (isKeyChar)

/-! ### What can be written -/

/-- **A bare key**: letters, digits, underscores and hyphens. -/
structure IsBareKey (key : String) : Prop where
  /-- There is at least one character. -/
  ne_nil : key.toList ≠ []
  /-- All of them may stand in a bare key. -/
  chars : ∀ c ∈ key.toList, isKeyChar c = true

/-- Whether a value is in the range of its kind. -/
def Plain.Fits : Plain → Prop
  | natural n => fitsInteger n = true
  | text _ => True
  | texts _ => True

/-- **A section that can be read**: its keys are bare, different from each other, and have values
in range. -/
structure Section.IsReadable (s : Section) : Prop where
  /-- The name of the section is bare. -/
  name : IsBareKey s.name
  /-- So are the keys. -/
  keys : ∀ e ∈ s.entries, IsBareKey e.1
  /-- The values are in range. -/
  fits : ∀ e ∈ s.entries, e.2.Fits
  /-- No key is used twice. -/
  nodup : (s.entries.map Prod.fst).Nodup

/-! ### The lexemes of a document -/

/-- The lexeme of a string. -/
def Lexeme.ofString (s : String) : Lexeme := .text s (Style.of s.toList).isBlock

/-- The lexemes of a string in a list that has a line for each item. -/
def Lexeme.ofItem (s : String) : List Lexeme :=
  [.gap false, Lexeme.ofString s, .mark ',', .newline]

/-- **The lexemes of a value.** -/
def Plain.lexemes : Plain → List Lexeme
  | natural n => [.bare (toString n).toList]
  | text s => [Lexeme.ofString s]
  | texts [] => [.mark '[', .mark ']']
  | texts [s] => [.mark '[', Lexeme.ofString s, .mark ']']
  | texts (s :: s' :: ss) =>
    .mark '[' :: .newline :: ((s :: s' :: ss).flatMap Lexeme.ofItem ++ [.mark ']'])

/-- The lexemes of a value under its key. -/
def Lexeme.ofEntry (entry : String × Plain) : List Lexeme :=
  [.bare entry.1.toList, .gap true, .mark '=', .gap true] ++ (entry.2.lexemes ++ [.newline])

/-- **The lexemes of a section.** -/
def Section.lexemes (s : Section) : List Lexeme :=
  [.mark '[', .bare s.name.toList, .mark ']', .newline] ++ s.entries.flatMap Lexeme.ofEntry

/-- **The lexemes of a document.** -/
def documentLexemes : List Section → List Lexeme
  | [] => []
  | [s] => s.lexemes
  | s :: s' :: ss => s.lexemes ++ .newline :: documentLexemes (s' :: ss)

/-! ### Cutting -/

namespace LexState

/-- The characters that end a bare word are neither digits nor may they stand in keys. -/
theorem facts_of_endsBare {c : Char} (h : endsBare c = true) :
    isKeyChar c = false ∧ isDigit c = false := by
  have hmem : c ∈ [' ', '\t', '\n', '\r', '#', '"', '\'', '.', '=', ',', '[', ']', '\x7b',
      '\x7d'] := by
    simpa [endsBare, isMark, or_assoc] using h
  have hall : [' ', '\t', '\n', '\r', '#', '"', '\'', '.', '=', ',', '[', ']', '\x7b',
      '\x7d'].all (fun c => isKeyChar c = false ∧ isDigit c = false) = true := by decide
  exact of_decide_eq_true (List.all_eq_true.1 hall c hmem)

theorem endsBare_of_isKeyChar {c : Char} (h : isKeyChar c = true) : endsBare c = false :=
  Bool.eq_false_iff.2 fun hends => by
    rw [(facts_of_endsBare hends).1] at h
    cases h

theorem endsBare_of_isDigit {c : Char} (h : isDigit c = true) : endsBare c = false :=
  Bool.eq_false_iff.2 fun hends => by
    rw [(facts_of_endsBare hends).2] at h
    cases h

/-- **A bare word** is cut off whole. -/
theorem cuts_bare {w rest : List Char} (hne : w ≠ []) (hw : ∀ c ∈ w, endsBare c = false)
    (hrest : ∀ c ∈ rest.head?, endsBare c = true) : lexer.Cuts w [.bare w] rest := by
  cases w with
  | nil => exact absurd rfl hne
  | cons c w =>
    obtain ⟨hc, hw⟩ := List.forall_mem_cons.1 hw
    have hopen : lexer.step lexer.between c = some (bare [c], []) := by
      have hopening : opening c = (bare [c], []) := by
        simp only [endsBare, Bool.or_eq_false_iff, decide_eq_false_iff_not] at hc
        simp [opening, hc]
      exact congrArg some hopening
    have hword : (w.reverse ++ [c]).reverse = c :: w := by simp
    have hrow : ∀ d ∈ w, ∀ read, lexer.step (bare read) d = some (bare (d :: read), []) :=
      fun d hd _ => if_neg (Bool.eq_false_iff.1 (hw d hd))
    rw [Lexer.Cuts, List.cons_append, lexer.run_of_step hopen, lexer.run_row hrow]
    refine run_of_closing (by rw [finish, hword]) fun d hd => ?_
    rw [step, if_pos (hrest d hd), hword]

theorem cuts_mark (c : Char) (hc : isMark c = true) (rest : List Char) :
    lexer.Cuts [c] [.mark c] rest := by
  have hmem : c ∈ ['.', '=', ',', '[', ']', '\x7b', '\x7d'] := by
    simpa [isMark, or_assoc] using hc
  have hall : ['.', '=', ',', '[', ']', '\x7b', '\x7d'].all
      (fun c => opening c = (between, [.mark c])) = true := by decide
  have hopening : opening c = (between, [.mark c]) :=
    of_decide_eq_true (List.all_eq_true.1 hall c hmem)
  have hstep : lexer.step lexer.between c = some (lexer.between, [.mark c]) :=
    congrArg some hopening
  exact lexer.run_of_completes hstep rest

theorem cuts_newline (rest : List Char) : lexer.Cuts ['\n'] [.newline] rest :=
  lexer.run_of_completes rfl rest

/-- Blanks are cut off when something else comes next. -/
theorem run_gap (read : List Char) {rest : List Char}
    (hrest : ∀ c ∈ rest.head?, c ≠ ' ' ∧ c ≠ '\t') :
    lexer.run (gap read) rest = (lexer.run lexer.between rest).map (gapLexeme read :: ·) := by
  refine run_of_closing rfl fun c hc => if_neg ?_
  simpa using hrest c hc

theorem cuts_space {rest : List Char} (hrest : ∀ c ∈ rest.head?, c ≠ ' ' ∧ c ≠ '\t') :
    lexer.Cuts [' '] [.gap true] rest := by
  have hopen : lexer.step lexer.between ' ' = some (gap [' '], []) := rfl
  rw [Lexer.Cuts, List.singleton_append, lexer.run_of_step hopen, run_gap [' '] hrest]
  rfl

theorem cuts_indent {rest : List Char} (hrest : ∀ c ∈ rest.head?, c ≠ ' ' ∧ c ≠ '\t') :
    lexer.Cuts [' ', ' ', ' ', ' '] [.gap false] rest := by
  have hopen : lexer.step lexer.between ' ' = some (gap [' '], []) := rfl
  have hmore : ∀ c ∈ [' ', ' ', ' '], ∀ read,
      lexer.step (gap read) c = some (gap (c :: read), []) := by
    simp [step]
  rw [Lexer.Cuts, List.cons_append, lexer.run_of_step hopen, lexer.run_row hmore, run_gap _ hrest]
  rfl

theorem cuts_key {key : String} (hkey : IsBareKey key) {rest : List Char}
    (hrest : ∀ c ∈ rest.head?, endsBare c = true) : lexer.Cuts key.toList [.bare key.toList] rest :=
  cuts_bare hkey.ne_nil (fun c hc => endsBare_of_isKeyChar (hkey.chars c hc)) hrest

/-- A string starts with a quote. -/
theorem head_stringText (s : String) (rest : List Char) :
    ∀ c ∈ ((stringText s).toList ++ rest).head?, c ≠ ' ' ∧ c ≠ '\t' := by
  rw [stringText, String.toList_ofList]
  cases Style.of s.toList <;> simp [Style.render]

/-- An item on a line of its own. -/
theorem cuts_item (s : String) (rest : List Char) :
    lexer.Cuts ("    " ++ stringText s ++ ",\n").toList (Lexeme.ofItem s) rest := by
  have hquote : NoQuote (',' :: '\n' :: rest) := by
    intro q c hc
    cases hc
    cases q <;> decide
  have hindent : lexer.Cuts [' ', ' ', ' ', ' '] [.gap false]
      ((stringText s).toList ++ ([','] ++ ['\n']) ++ rest) := by
    rw [List.append_assoc]
    exact cuts_indent (head_stringText s _)
  have hstring : lexer.Cuts (stringText s).toList [Lexeme.ofString s] ([','] ++ ['\n'] ++ rest) :=
    cuts_stringText s hquote
  have hend := (cuts_mark ',' rfl ('\n' :: rest)).append (cuts_newline rest)
  have hchars : ("    " ++ stringText s ++ ",\n").toList =
      [' ', ' ', ' ', ' '] ++ ((stringText s).toList ++ ([','] ++ ['\n'])) := by
    simp
  have hline := hindent.append (hstring.append hend)
  rw [hchars]
  exact hline

theorem cuts_items (ss : List String) (rest : List Char) :
    lexer.Cuts ((ss.map fun s => "    " ++ stringText s ++ ",\n").flatMap String.toList)
      (ss.flatMap Lexeme.ofItem) rest := by
  induction ss with
  | nil => exact lexer.cuts_nil rest
  | cons s ss ih => exact (cuts_item s _).append ih

/-- **A value** is cut into its lexemes at the end of its line. -/
theorem cuts_value (v : Plain) (rest : List Char) :
    lexer.Cuts v.toText.toList v.lexemes ('\n' :: rest) := by
  have hquote : ∀ d rest, d = '\n' ∨ d = ']' → NoQuote (d :: rest) := by
    intro d rest hd q c hc
    cases hc
    obtain rfl | rfl := hd <;> cases q <;> decide
  cases v with
  | natural n =>
    rw [Plain.toText, Plain.lexemes, toList_toString]
    refine cuts_bare Nat.toDigits_ne_nil
      (fun c hc => endsBare_of_isDigit (isDigit_of_mem_toDigits hc)) fun c hc => ?_
    cases hc
    rfl
  | text s => exact cuts_stringText s (hquote '\n' rest (.inl rfl))
  | texts ss =>
    match ss with
    | [] => exact (cuts_mark '[' rfl _).append (cuts_mark ']' rfl _)
    | [s] =>
      have hstring : lexer.Cuts (stringText s).toList [Lexeme.ofString s]
          ([']'] ++ ('\n' :: rest)) :=
        cuts_stringText s (hquote ']' _ (.inr rfl))
      have hchars : (Plain.texts [s]).toText.toList =
          ['['] ++ ((stringText s).toList ++ [']']) := by
        simp [Plain.toText, listText]
      rw [hchars]
      exact (cuts_mark '[' rfl _).append
        (hstring.append (cuts_mark ']' rfl _))
    | s :: s' :: ss =>
      have hchars : (Plain.texts (s :: s' :: ss)).toText.toList =
          ['['] ++ (['\n'] ++ (((s :: s' :: ss).map fun s =>
            "    " ++ stringText s ++ ",\n").flatMap String.toList ++ [']'])) := by
        simp [Plain.toText, listText, String.toList_join]
      rw [hchars]
      exact (cuts_mark '[' rfl _).append ((cuts_newline _).append
        ((cuts_items (s :: s' :: ss) _).append (cuts_mark ']' rfl _)))

theorem head_toText (v : Plain) (rest : List Char) :
    ∀ c ∈ (v.toText.toList ++ '\n' :: rest).head?, c ≠ ' ' ∧ c ≠ '\t' := by
  cases v with
  | natural n =>
    rw [Plain.toText, toList_toString]
    cases hds : Nat.toDigits 10 n with
    | nil => exact absurd hds Nat.toDigits_ne_nil
    | cons d ds =>
      have hdigit : isDigit d = true :=
        isDigit_of_mem_toDigits (n := n) (hds ▸ List.mem_cons_self)
      intro c hc
      cases hc
      constructor <;> rintro rfl <;> exact absurd hdigit (by decide)
  | text s => exact head_stringText s _
  | texts ss =>
    match ss with
    | [] => simp [Plain.toText, listText]
    | [s] => simp [Plain.toText, listText]
    | s :: s' :: ss => simp [Plain.toText, listText]

/-- **A value under its key** is cut into its lexemes, whatever comes on the next line. -/
theorem cuts_entry {entry : String × Plain} (hkey : IsBareKey entry.1) (rest : List Char) :
    lexer.Cuts (entry.1 ++ " = " ++ entry.2.toText ++ "\n").toList (Lexeme.ofEntry entry) rest := by
  have hchars : (entry.1 ++ " = " ++ entry.2.toText ++ "\n").toList =
      entry.1.toList ++ ([' '] ++ (['='] ++ ([' '] ++ (entry.2.toText.toList ++ ['\n'])))) := by
    simp
  have hspace : ∀ cs : List Char, ∀ c ∈ (' ' :: cs).head?, endsBare c = true := by
    intro cs c hc
    cases hc
    rfl
  have hequals : ∀ cs : List Char, ∀ c ∈ ('=' :: cs).head?, c ≠ ' ' ∧ c ≠ '\t' := by
    intro cs c hc
    cases hc
    decide
  have hvalue : lexer.Cuts entry.2.toText.toList entry.2.lexemes (['\n'] ++ rest) :=
    cuts_value entry.2 rest
  have hafter : lexer.Cuts [' '] [.gap true] (entry.2.toText.toList ++ ['\n'] ++ rest) := by
    rw [List.append_assoc]
    exact cuts_space (head_toText entry.2 rest)
  have hline := (cuts_key hkey (hspace _)).append ((cuts_space (hequals _)).append
    ((cuts_mark '=' rfl _).append (hafter.append (hvalue.append (cuts_newline rest)))))
  rw [hchars]
  exact hline

theorem cuts_entries {entries : List (String × Plain)} (hkeys : ∀ e ∈ entries, IsBareKey e.1)
    (rest : List Char) :
    lexer.Cuts
      ((entries.map fun (key, v) => key ++ " = " ++ v.toText ++ "\n").flatMap String.toList)
      (entries.flatMap Lexeme.ofEntry) rest := by
  induction entries with
  | nil => exact lexer.cuts_nil rest
  | cons e entries ih =>
    obtain ⟨he, hkeys⟩ := List.forall_mem_cons.1 hkeys
    exact (cuts_entry he _).append (ih hkeys)

/-- **A section** is cut into its lexemes, whatever comes after it. -/
theorem cuts_section {s : Section} (hs : s.IsReadable) (rest : List Char) :
    lexer.Cuts s.toText.toList s.lexemes rest := by
  have hchars : s.toText.toList = (['['] ++ (s.name.toList ++ ([']'] ++ ['\n']))) ++
      (s.entries.map fun (key, v) => key ++ " = " ++ v.toText ++ "\n").flatMap String.toList := by
    simp [Section.toText, String.toList_join]
  have hbracket : ∀ cs : List Char, ∀ c ∈ (']' :: cs).head?, endsBare c = true := by
    intro cs c hc
    cases hc
    rfl
  rw [hchars]
  exact ((cuts_mark '[' rfl _).append ((cuts_key hs.name (hbracket _)).append
    ((cuts_mark ']' rfl _).append (cuts_newline _)))).append (cuts_entries hs.keys rest)

/-- **A document** is cut into the lexemes of its sections. -/
theorem cuts_documentText {sections : List Section} (hsections : ∀ s ∈ sections, s.IsReadable)
    (rest : List Char) :
    lexer.Cuts (documentText sections).toList (documentLexemes sections) rest := by
  induction sections with
  | nil => exact lexer.cuts_nil rest
  | cons s sections ih =>
    obtain ⟨hs, hsections⟩ := List.forall_mem_cons.1 hsections
    cases sections with
    | nil => exact cuts_section hs rest
    | cons s' sections =>
      have hchars : (documentText (s :: s' :: sections)).toList =
          s.toText.toList ++ (['\n'] ++ (documentText (s' :: sections)).toList) := by
        simp [documentText, String.intercalate_cons_cons]
      rw [hchars]
      exact (cuts_section hs _).append ((cuts_newline _).append (ih hsections))

end LexState

/-- **The lexemes of a text that was written.** -/
theorem Lexeme.ofText?_documentText {sections : List Section}
    (hsections : ∀ s ∈ sections, s.IsReadable) :
    Lexeme.ofText? (documentText sections) = some (documentLexemes sections) := by
  have hlexemes : lexer.lexemes? (documentText sections).toList =
      some (documentLexemes sections) :=
    (LexState.cuts_documentText hsections []).lexemes?
  have hmark : ∀ {c : Char} {cs : List Char}, (documentText sections).toList = c :: cs →
      c.toNat ≠ 0xFEFF := by
    intro c cs h
    cases sections with
    | nil => cases h
    | cons s sections =>
      have hfirst : (documentText (s :: sections)).toList.head? = some '[' := by
        cases sections <;> simp [documentText, Section.toText, String.intercalate_cons_cons]
      rw [h] at hfirst
      cases hfirst
      decide
  unfold Lexeme.ofText?
  split
  · rename_i c cs h
    rw [if_neg (hmark h), ← h, hlexemes]
  · rename_i h
    rw [← h, hlexemes]

end Leasehold.Toml
