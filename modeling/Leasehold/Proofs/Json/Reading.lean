import Leasehold.Json.Tree
import Leasehold.Proofs.Json.Numerals
import Leasehold.Proofs.Text.Lexing

/-!
# Reading back what was written

A text is read in two passes, and the text of a value without blanks is told apart by both of them.

* The first pass cuts the text. What was written for one value is cut off by itself, because a mark
  or the end of the text comes next, and neither goes on with a word or a numeral
  (`Leasehold.Json.Value.cuts_compact`).
* The second pass puts the lexemes together. Each tree comes back from its own lexemes, whatever is
  open around it (`Leasehold.Json.Tree.foldlM_lexemes`).

So the text of a value reads as the tree of the value (`Leasehold.Json.Tree.ofText?_compact`), in
which all strings are as they were before they were escaped and all numbers are spelled as they
were printed. What the numerals mean is left to whoever looks at them.
-/

namespace Leasehold.Json

open Text

/-! ### The tree of a value -/

/-- The numeral that a text spells, as a tree. -/
def Tree.ofNumeral? (text : String) : Option Tree := (Numeral.ofText? text.toList).map .numeral

namespace Value

mutual

/-- **The tree that the text of a value reads as**, absent where a number spells no numeral. -/
def tree? : Value → Option Tree
  | null => some .null
  | bool b => some (.bool b)
  | integer n => Tree.ofNumeral? (toString n)
  | decimal x =>
    match Shortest.render? x with
    | some spelling => Tree.ofNumeral? spelling
    | none => some .null
  | text s => some (.text (some s))
  | array items => (itemTrees? items).map .array
  | object members => (memberTrees? members).map .object

/-- The trees of items. -/
def itemTrees? : List Value → Option (List Tree)
  | [] => some []
  | v :: vs => v.tree?.bind fun t => (itemTrees? vs).map (t :: ·)

/-- The trees of members. -/
def memberTrees? : List (String × Value) → Option (List (Option String × Tree))
  | [] => some []
  | (k, v) :: ms => v.tree?.bind fun t => (memberTrees? ms).map ((some k, t) :: ·)

end

end Value

namespace Tree

mutual

/-- **The lexemes of a tree.** -/
def lexemes : Tree → List Lexeme
  | null => [.word ['n', 'u', 'l', 'l']]
  | bool true => [.word ['t', 'r', 'u', 'e']]
  | bool false => [.word ['f', 'a', 'l', 's', 'e']]
  | numeral n => [.numeral n]
  | text content => [.text content]
  | array items => .mark '[' :: (itemLexemes items ++ [.mark ']'])
  | object members => .mark '\x7b' :: (memberLexemes members ++ [.mark '\x7d'])

/-- The lexemes of items, with commas between them. -/
def itemLexemes : List Tree → List Lexeme
  | [] => []
  | [t] => t.lexemes
  | t :: ts => t.lexemes ++ .mark ',' :: itemLexemes ts

/-- The lexemes of members, with commas between them. -/
def memberLexemes : List (Option String × Tree) → List Lexeme
  | [] => []
  | [(k, t)] => .text k :: .mark ':' :: t.lexemes
  | (k, t) :: ms => .text k :: .mark ':' :: (t.lexemes ++ .mark ',' :: memberLexemes ms)

end

end Tree

/-! ### Cutting -/

namespace LexState

/-- **What ends an open lexeme**: a mark, or the end of the text. -/
inductive Ends : List Char → Prop
  /-- The text is at its end. -/
  | nil : Ends []
  /-- A mark comes next. -/
  | mark {c : Char} (hc : isMark c = true) (cs : List Char) : Ends (c :: cs)

/-- **A mark stands for itself**, and is part of no word and no numeral. -/
theorem mark_facts {c : Char} (hc : isMark c = true) :
    opening c = some (between, [.mark c]) ∧ isNumeralChar c = false ∧ ¬('a' ≤ c ∧ c ≤ 'z') := by
  have hmem : c ∈ ['[', ']', '\x7b', '\x7d', ':', ','] := by
    simpa [isMark, or_assoc] using hc
  have hall : ['[', ']', '\x7b', '\x7d', ':', ','].all (fun c => opening c =
      some (between, [.mark c]) ∧ isNumeralChar c = false ∧ ¬('a' ≤ c ∧ c ≤ 'z')) = true := by
    decide
  exact of_decide_eq_true (List.all_eq_true.1 hall c hmem)

theorem cuts_mark {c : Char} (hc : isMark c = true) (rest : List Char) :
    lexer.Cuts [c] [.mark c] rest := by
  have hstep : lexer.step lexer.between c = some (lexer.between, [.mark c]) := (mark_facts hc).1
  exact lexer.run_of_completes hstep rest

/-- A mark before a text. -/
theorem cuts_mark_cons {c : Char} (hc : isMark c = true) {cs rest : List Char} {ls : List Lexeme}
    (h : lexer.Cuts cs ls rest) : lexer.Cuts (c :: cs) (.mark c :: ls) rest :=
  (cuts_mark hc (cs ++ rest)).append h

/-- An open lexeme that the next mark closes. -/
theorem run_of_ends (state : LexState) (l : Lexeme) (hfinish : state.finish = some [l])
    (hstep : ∀ c, isMark c = true → state.step c = closing (some l) c) {rest : List Char}
    (hrest : Ends rest) : lexer.run state rest = (lexer.run between rest).map (l :: ·) := by
  refine lexer.run_of_closes hfinish fun c hc => ?_
  cases hrest with
  | nil => cases hc
  | @mark d hd cs =>
    obtain rfl := Option.some.inj hc
    have hmark : lexer.step lexer.between d = some (between, [.mark d]) := (mark_facts hd).1
    have hclose : lexer.step state d = closing (some l) d := hstep d hd
    rw [hclose, hmark, closing, (mark_facts hd).1]
    rfl

/-! ### Words -/

/-- **A word** is cut off whole. -/
theorem cuts_word {c : Char} {cs rest : List Char} (hopen : opening c = some (word [c], []))
    (hcs : cs.all (fun d => 'a' ≤ d ∧ d ≤ 'z') = true) (hrest : Ends rest) :
    lexer.Cuts (c :: cs) [.word (c :: cs)] rest := by
  have hstep : lexer.step lexer.between c = some (word [c], []) := hopen
  have hletters : ∀ d ∈ cs, ∀ read, (word read).step d = some (word (d :: read), []) :=
    fun d hd _ => if_pos (of_decide_eq_true (List.all_eq_true.1 hcs d hd))
  have hends := run_of_ends (word (c :: cs).reverse) (.word (c :: cs))
    (by rw [finish, List.reverse_reverse])
    (fun d hd => by rw [step, if_neg (mark_facts hd).2.2, List.reverse_reverse]) hrest
  rw [Lexer.Cuts, List.cons_append, lexer.run_of_step hstep, lexer.run_row hletters,
    ← List.reverse_cons, hends]
  rfl

/-! ### Numerals -/

/-- A minus sign or a digit opens a numeral. -/
theorem opening_numeral {c : Char} (hc : c = '-' ∨ isDigit c = true) :
    opening c = some (numeral [c], []) := by
  rcases hc with rfl | hc
  · decide
  · have hall : ∀ n < 58, 48 ≤ n →
        opening (Char.ofNat n) = some (numeral [Char.ofNat n], []) := by
      decide
    have hbounds : 48 ≤ c.toNat ∧ c.toNat ≤ 57 := by
      simpa [isDigit, Char.le_def, UInt32.le_iff_toNat_le] using hc
    have hc := hall c.toNat (by omega) hbounds.1
    rwa [Char.ofNat_toNat] at hc

/-- **A numeral** is cut off whole. -/
theorem cuts_numeral {cs rest : List Char} {n : Numeral} (hn : Numeral.ofText? cs = some n)
    (hrest : Ends rest) : lexer.Cuts cs [.numeral n] rest := by
  obtain ⟨c, cs, rfl, hc, hcs⟩ := Numeral.shape_of_ofText? hn
  have hstep : lexer.step lexer.between c = some (numeral [c], []) := opening_numeral hc
  have hrow : ∀ d ∈ cs, ∀ read, (numeral read).step d = some (numeral (d :: read), []) :=
    fun d hd _ => if_pos (hcs d hd)
  have hlexeme : numeralLexeme? (c :: cs).reverse = some (.numeral n) := by
    rw [numeralLexeme?, List.reverse_reverse, hn]
    rfl
  have hends := run_of_ends (numeral (c :: cs).reverse) (.numeral n)
    (by rw [finish, hlexeme]; rfl)
    (fun d hd => by rw [step, (mark_facts hd).2.1, hlexeme]; rfl) hrest
  rw [Lexer.Cuts, List.cons_append, lexer.run_of_step hstep, lexer.run_row hrow,
    ← List.reverse_cons, hends]
  rfl

/-! ### Strings -/

/-- **Escapes in a string** are read back. -/
def unescapes (read : List Char) :
    lexer.Unescapes Value.escapes (text (some read)) fun c => text (some (c :: read)) where
  escape := escape (some read) none
  number := number (some read) none
  backslash := rfl
  short {c d} h := by
    have hletter : escaped? d = some c := by
      rw [escaped?, unescape?_of_shortEscape? h]
      split_ifs with hslash
      · subst hslash
        cases unescape?_of_shortEscape? h
      · rfl
    have hne : d ≠ 'u' := by
      rintro rfl
      cases unescape?_of_shortEscape? h
    rw [lexer_step, step, if_neg hne, hletter]
    rfl
  byNumber := rfl
  digit {missing value digit c} hmissing h := by
    simp [step, h, Nat.not_le.2 hmissing]
  last {value digit c} h hvalue := by
    have hlow : ¬55296 ≤ value * 16 + digit := by omega
    have hhigh : ¬56320 ≤ value * 16 + digit := by omega
    simp [step, h, numbered, push, hlow, hhigh]
  other {c} hquote hslash hcontrol := by
    have hblank : ¬c.toNat < 32 := of_decide_eq_false hcontrol
    simp [step, inText, hquote, hslash, hblank, push]

/-- **A string** is cut off whole, whatever comes after it. -/
theorem cuts_quoted (s : String) (rest : List Char) :
    lexer.Cuts (Value.quoted s).toList [.text (some s)] rest := by
  have hopen : lexer.step lexer.between '"' = some (text (some []), []) := by decide
  have hclose : lexer.step (text (some s.toList.reverse)) '"' =
      some (lexer.between, [.text (some s)]) := by
    simp [step, inText, lexer]
  have hchars : (Value.quoted s).toList =
      '"' :: (s.toList.flatMap Value.escapes.write ++ ['"']) := by
    simp [Value.quoted]
  have hread := Lexer.Unescapes.run_flatMap_write (fun read => text (some read)) unescapes
    s.toList [] ('"' :: rest)
  rw [List.append_nil] at hread
  rw [Lexer.Cuts, hchars, List.cons_append, lexer.run_of_step hopen, List.append_assoc,
    List.singleton_append, hread, lexer.run_of_completes hclose]
  rfl

end LexState

/-! ### Cutting a whole text -/

namespace Value

open LexState

theorem toList_compact_object (members : List (String × Value)) :
    (object members).compact.toList =
      '\x7b' :: ((compactMembers members).toList ++ ['\x7d']) := by
  simp [compact]

theorem cuts_ofNumeral? {spelling : String} {t : Tree} (h : Tree.ofNumeral? spelling = some t)
    {rest : List Char} (hrest : Ends rest) : lexer.Cuts spelling.toList t.lexemes rest := by
  obtain ⟨n, hn, rfl⟩ := Option.map_eq_some_iff.1 h
  exact cuts_numeral hn hrest

mutual

/-- **The text of a value** cuts into the lexemes of its tree. -/
theorem cuts_compact {v : Value} {t : Tree} (h : v.tree? = some t) {rest : List Char}
    (hrest : Ends rest) : lexer.Cuts v.compact.toList t.lexemes rest := by
  cases v with
  | null =>
    cases h
    exact cuts_word (by decide) (by decide) hrest
  | bool b =>
    cases h
    cases b with
    | true => exact cuts_word (by decide) (by decide) hrest
    | false => exact cuts_word (by decide) (by decide) hrest
  | integer n => exact cuts_ofNumeral? h hrest
  | decimal x =>
    rw [tree?] at h
    rw [compact, decimalText]
    cases hx : Shortest.render? x with
    | none =>
      rw [hx] at h
      cases h
      exact cuts_word (by decide) (by decide) hrest
    | some spelling =>
      rw [hx] at h
      exact cuts_ofNumeral? h hrest
  | text s =>
    cases h
    exact cuts_quoted s rest
  | array items =>
    obtain ⟨ts, hts, rfl⟩ := Option.map_eq_some_iff.1 h
    have hclose := cuts_mark (c := ']') rfl rest
    have hitems := cuts_compactItems hts (.mark (c := ']') rfl rest)
    have htext : (array items).compact.toList = '[' :: ((compactItems items).toList ++ [']']) := by
      simp [compact]
    rw [htext]
    exact cuts_mark_cons rfl (hitems.append hclose)
  | object members =>
    obtain ⟨ts, hts, rfl⟩ := Option.map_eq_some_iff.1 h
    have hclose := cuts_mark (c := '\x7d') rfl rest
    have hmembers := cuts_compactMembers hts (.mark (c := '\x7d') rfl rest)
    rw [toList_compact_object]
    exact cuts_mark_cons rfl (hmembers.append hclose)

/-- Items with commas between them. -/
theorem cuts_compactItems {vs : List Value} {ts : List Tree} (h : itemTrees? vs = some ts)
    {rest : List Char} (hrest : Ends rest) :
    lexer.Cuts (compactItems vs).toList (Tree.itemLexemes ts) rest := by
  cases vs with
  | nil =>
    cases h
    exact lexer.cuts_nil rest
  | cons v vs =>
    obtain ⟨t, ht, hvs⟩ := Option.bind_eq_some_iff.1 h
    obtain ⟨ts, hts, rfl⟩ := Option.map_eq_some_iff.1 hvs
    cases vs with
    | nil =>
      cases hts
      exact cuts_compact ht hrest
    | cons w vs =>
      have hv := cuts_compact ht (.mark (c := ',') rfl ((compactItems (w :: vs)).toList ++ rest))
      have hrest := cuts_mark_cons (c := ',') rfl (cuts_compactItems hts hrest)
      have htext : (compactItems (v :: w :: vs)).toList =
          v.compact.toList ++ ',' :: (compactItems (w :: vs)).toList := by
        simp [compactItems]
      obtain ⟨u, us, rfl⟩ : ∃ u us, ts = u :: us := by
        obtain ⟨u, -, hus⟩ := Option.bind_eq_some_iff.1 hts
        obtain ⟨us, -, rfl⟩ := Option.map_eq_some_iff.1 hus
        exact ⟨u, us, rfl⟩
      rw [htext]
      exact hv.append hrest

/-- Members with commas between them. -/
theorem cuts_compactMembers {ms : List (String × Value)} {ts : List (Option String × Tree)}
    (h : memberTrees? ms = some ts) {rest : List Char} (hrest : Ends rest) :
    lexer.Cuts (compactMembers ms).toList (Tree.memberLexemes ts) rest := by
  cases ms with
  | nil =>
    cases h
    exact lexer.cuts_nil rest
  | cons m ms =>
    obtain ⟨k, v⟩ := m
    obtain ⟨t, ht, hms⟩ := Option.bind_eq_some_iff.1 h
    obtain ⟨ts, hts, rfl⟩ := Option.map_eq_some_iff.1 hms
    cases ms with
    | nil =>
      cases hts
      have htext : (compactMembers [(k, v)]).toList =
          (quoted k).toList ++ ':' :: v.compact.toList := by
        simp [compactMembers]
      rw [htext]
      exact (cuts_quoted k _).append (cuts_mark_cons (c := ':') rfl (cuts_compact ht hrest))
    | cons m ms =>
      have hv := cuts_compact ht (.mark (c := ',') rfl ((compactMembers (m :: ms)).toList ++ rest))
      have hrest := cuts_mark_cons (c := ',') rfl (cuts_compactMembers hts hrest)
      have htext : (compactMembers ((k, v) :: m :: ms)).toList =
          (quoted k).toList ++
            ':' :: (v.compact.toList ++ ',' :: (compactMembers (m :: ms)).toList) := by
        simp [compactMembers]
      obtain ⟨u, us, rfl⟩ : ∃ u us, ts = u :: us := by
        obtain ⟨u, -, hus⟩ := Option.bind_eq_some_iff.1 hts
        obtain ⟨us, -, rfl⟩ := Option.map_eq_some_iff.1 hus
        exact ⟨_, us, rfl⟩
      rw [htext]
      exact (cuts_quoted k _).append (cuts_mark_cons (c := ':') rfl (hv.append hrest))

end

end Value

/-! ### Putting together -/

namespace Tree

open ReadState

/-- Reading goes on in the state that a lexeme leads to. -/
theorem foldlM_of_step {state next : ReadState} {l : Lexeme} (h : step state l = some next)
    (ls : List Lexeme) : (l :: ls).foldlM step state = ls.foldlM step next := by
  rw [List.foldlM_cons, h, Option.bind_eq_bind, Option.bind_some]

/-- Reading goes on in the state that some lexemes lead to. -/
theorem foldlM_of_foldlM {state next : ReadState} {read : List Lexeme}
    (h : read.foldlM step state = some next) (ls : List Lexeme) :
    (read ++ ls).foldlM step state = ls.foldlM step next := by
  rw [List.foldlM_append, h, Option.bind_eq_bind, Option.bind_some]

/-- A lexeme where a value is due, be it the first item of an array. -/
theorem step_value {frames : List Frame} {e : Expected} (he : e = .value ∨ e = .firstItem)
    {l : Lexeme} (hl : l ≠ .mark ']') : step ⟨frames, e⟩ l = value frames l := by
  rcases he with rfl | rfl
  · rfl
  · exact if_neg hl

/-- A name where one is due, be it the first one of an object. -/
theorem step_name {members : List (Option String × Tree)} {frames : List Frame}
    {name : Option String} {e : Expected} (he : e = .name ∨ e = .firstName) (k : Option String) :
    step ⟨.object members name :: frames, e⟩ (.text k) =
      some ⟨.object members k :: frames, .colon⟩ := by
  rcases he with rfl | rfl
  · rfl
  · have hne : Lexeme.text k ≠ .mark '\x7d' := nofun
    rw [step, if_neg hne]
    rfl

/-- A value that is one lexeme. -/
theorem foldlM_singleton {frames : List Frame} {e : Expected} (he : e = .value ∨ e = .firstItem)
    {l : Lexeme} (hl : l ≠ .mark ']') : [l].foldlM step ⟨frames, e⟩ = value frames l := by
  rw [List.foldlM_cons, step_value he hl]
  exact Option.bind_fun_some _

mutual

/-- **Each tree comes back from its lexemes**, whatever is open around it. -/
theorem foldlM_lexemes (t : Tree) (frames : List Frame) {e : Expected}
    (he : e = .value ∨ e = .firstItem) :
    t.lexemes.foldlM step ⟨frames, e⟩ = some (complete t frames) := by
  cases t with
  | null => exact foldlM_singleton he nofun
  | bool b =>
    cases b with
    | true => exact foldlM_singleton he nofun
    | false => exact foldlM_singleton he nofun
  | numeral n => exact foldlM_singleton he nofun
  | text content => exact foldlM_singleton he nofun
  | array items =>
    have hopen : step ⟨frames, e⟩ (.mark '[') = some ⟨.array [] :: frames, .firstItem⟩ :=
      step_value he (by decide)
    rw [lexemes, foldlM_of_step hopen]
    cases items with
    | nil => rfl
    | cons t ts =>
      have hitems := foldlM_itemLexemes (t :: ts) nofun [] frames (.inr rfl)
      have hclose : step ⟨.array (t :: ts).reverse :: frames, .more⟩ (.mark ']') =
          some (complete (.array (t :: ts).reverse.reverse) frames) := rfl
      rw [List.append_nil] at hitems
      rw [foldlM_of_foldlM hitems, foldlM_of_step hclose, List.reverse_reverse]
      rfl
  | object members =>
    have hopen : step ⟨frames, e⟩ (.mark '\x7b') = some ⟨.object [] none :: frames, .firstName⟩ :=
      step_value he (by decide)
    rw [lexemes, foldlM_of_step hopen]
    cases members with
    | nil => rfl
    | cons m ms =>
      have hmembers :
          (memberLexemes (m :: ms)).foldlM step ⟨.object [] none :: frames, .firstName⟩ =
            some ⟨.object ((m :: ms).reverse ++ []) none :: frames, .more⟩ :=
        foldlM_memberLexemes (m :: ms) nofun [] frames (.inr rfl)
      have hclose : step ⟨.object (m :: ms).reverse none :: frames, .more⟩ (.mark '\x7d') =
          some (complete (.object (m :: ms).reverse.reverse) frames) := rfl
      rw [List.append_nil] at hmembers
      rw [foldlM_of_foldlM hmembers, foldlM_of_step hclose, List.reverse_reverse]
      rfl

/-- Items with commas between them become the items of the array that is open. -/
theorem foldlM_itemLexemes (ts : List Tree) (hts : ts ≠ []) (read : List Tree)
    (frames : List Frame) {e : Expected} (he : e = .value ∨ e = .firstItem) :
    (itemLexemes ts).foldlM step ⟨.array read :: frames, e⟩ =
      some ⟨.array (ts.reverse ++ read) :: frames, .more⟩ := by
  match ts with
  | [t] => exact foldlM_lexemes t (.array read :: frames) he
  | t :: u :: us =>
    have ht := foldlM_lexemes t (.array read :: frames) he
    have hcomma : step ⟨.array (t :: read) :: frames, .more⟩ (.mark ',') =
        some ⟨.array (t :: read) :: frames, .value⟩ := rfl
    rw [itemLexemes, foldlM_of_foldlM ht, complete, foldlM_of_step hcomma,
      foldlM_itemLexemes (u :: us) nofun (t :: read) frames (.inl rfl)]
    · simp
    · nofun

/-- Members with commas between them become the members of the object that is open. -/
theorem foldlM_memberLexemes (ms : List (Option String × Tree)) (hms : ms ≠ [])
    (read : List (Option String × Tree)) (frames : List Frame) {name : Option String}
    {e : Expected} (he : e = .name ∨ e = .firstName) :
    (memberLexemes ms).foldlM step ⟨.object read name :: frames, e⟩ =
      some ⟨.object (ms.reverse ++ read) none :: frames, .more⟩ := by
  match ms with
  | [(k, t)] =>
    have ht := foldlM_lexemes t (.object read k :: frames) (.inl rfl)
    have hcolon : step ⟨.object read k :: frames, .colon⟩ (.mark ':') =
        some ⟨.object read k :: frames, .value⟩ := rfl
    rw [memberLexemes, foldlM_of_step (step_name he k), foldlM_of_step hcolon, ht]
    rfl
  | (k, t) :: n :: ns =>
    have ht := foldlM_lexemes t (.object read k :: frames) (.inl rfl)
    have hcolon : step ⟨.object read k :: frames, .colon⟩ (.mark ':') =
        some ⟨.object read k :: frames, .value⟩ := rfl
    have hcomma : step ⟨.object ((k, t) :: read) none :: frames, .more⟩ (.mark ',') =
        some ⟨.object ((k, t) :: read) none :: frames, .name⟩ := rfl
    rw [memberLexemes, foldlM_of_step (step_name he k), foldlM_of_step hcolon,
      foldlM_of_foldlM ht, complete, foldlM_of_step hcomma,
      foldlM_memberLexemes (n :: ns) nofun ((k, t) :: read) frames (.inl rfl)]
    · simp
    · nofun

end

/-- **The text of a value reads as the tree of the value.** -/
theorem ofText?_compact {v : Value} {t : Tree} (h : v.tree? = some t) :
    ofText? v.compact = some t := by
  have hcuts : Lexeme.ofText? v.compact = some t.lexemes := (Value.cuts_compact h .nil).lexemes?
  rw [ofText?, hcuts]
  have hread := foldlM_lexemes t [] (.inl rfl)
  simp only [Option.bind_eq_bind, Option.bind_some, hread]
  rfl

end Tree

end Leasehold.Json
