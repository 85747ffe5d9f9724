import Leasehold.Text.Escape
import Leasehold.Text.Lexer
import Mathlib.Data.Option.Basic
import Mathlib.Tactic.SplitIfs

/-!
# Cutting a text

What a lexer does with a text that was written for it, whatever its language.

* `Leasehold.Text.Lexer.Cuts` – a text cuts into some lexemes before some rest of it; such texts can
  be put one after the other (`Leasehold.Text.Lexer.Cuts.append`).
* `Leasehold.Text.Lexer.run_row`, `Leasehold.Text.Lexer.run_of_closes` – a lexeme that takes
  characters one by one, and one that whatever comes next closes.
* `Leasehold.Text.Lexer.Unescapes` – what a lexer has to do within a string for the escapes of its
  language to be read back (`Leasehold.Text.Lexer.Unescapes.run_write`).
-/

namespace Leasehold.Text

namespace Lexer

variable {State Lexeme : Type} (m : Lexer State Lexeme)

/-! ### The lexer on a text -/

theorem run_cons (state : State) (c : Char) (cs : List Char) :
    m.run state (c :: cs) =
      (m.step state c).bind fun next => (m.run next.1 cs).map (next.2 ++ ·) := by
  rw [run.eq_def]
  simp only [Option.bind_eq_bind, Option.map_eq_bind]
  rfl

/-- A step that completes no lexeme. -/
theorem run_of_step {state next : State} {c : Char} (h : m.step state c = some (next, []))
    (cs : List Char) : m.run state (c :: cs) = m.run next cs := by
  rw [run_cons, h, Option.bind_some]
  exact Option.map_id'

/-- A step that completes a lexeme and leaves none open. -/
theorem run_of_completes {state : State} {c : Char} {l : Lexeme}
    (h : m.step state c = some (m.between, [l])) (cs : List Char) :
    m.run state (c :: cs) = (m.run m.between cs).map (l :: ·) := by
  rw [run_cons, h, Option.bind_some]
  rfl

/-- An open lexeme that takes a row of characters. -/
theorem run_row {taking : List Char → State} {row : List Char}
    (h : ∀ c ∈ row, ∀ read, m.step (taking read) c = some (taking (c :: read), []))
    (read rest : List Char) :
    m.run (taking read) (row ++ rest) = m.run (taking (row.reverse ++ read)) rest := by
  induction row generalizing read with
  | nil => rfl
  | cons c row ih =>
    obtain ⟨hc, hrow⟩ := List.forall_mem_cons.1 h
    rw [List.cons_append, m.run_of_step (hc read), ih hrow, List.reverse_cons, List.append_assoc]
    rfl

/-- An open lexeme that whatever comes next closes, besides what it does when no lexeme is open. -/
theorem run_of_closes {state : State} {l : Lexeme} {rest : List Char}
    (hfinish : m.finish state = some [l])
    (hstep : ∀ c ∈ rest.head?, m.step state c =
      (m.step m.between c).map fun next => (next.1, l :: next.2)) :
    m.run state rest = (m.run m.between rest).map (l :: ·) := by
  cases rest with
  | nil =>
    rw [run, run, hfinish, m.finish_between]
    rfl
  | cons c cs =>
    rw [run_cons, run_cons, hstep c rfl]
    cases m.step m.between c with
    | none => rfl
    | some next => exact (Option.map_map (l :: ·) (next.2 ++ ·) (m.run next.1 cs)).symm

/-! ### Texts that are cut off -/

/-- A text **cuts into** some lexemes before some rest of it. -/
def Cuts (cs : List Char) (ls : List Lexeme) (rest : List Char) : Prop :=
  m.run m.between (cs ++ rest) = (m.run m.between rest).map (ls ++ ·)

theorem cuts_nil (rest : List Char) : m.Cuts [] [] rest := Option.map_id'.symm

variable {m} in
theorem Cuts.append {cs cs' rest : List Char} {ls ls' : List Lexeme}
    (h : m.Cuts cs ls (cs' ++ rest)) (h' : m.Cuts cs' ls' rest) :
    m.Cuts (cs ++ cs') (ls ++ ls') rest := by
  rw [Cuts, List.append_assoc, h, h', Option.map_map]
  refine congrArg (fun f => (m.run m.between rest).map f) (funext fun ls'' => ?_)
  exact (List.append_assoc ls ls' ls'').symm

variable {m} in
/-- A text that cuts into lexemes up to its end has these lexemes. -/
theorem Cuts.lexemes? {cs : List Char} {ls : List Lexeme} (h : m.Cuts cs ls []) :
    m.lexemes? cs = some ls := by
  rw [Cuts, List.append_nil, run, m.finish_between, Option.map_some, List.append_nil] at h
  exact h

end Lexer

/-! ### Escapes -/

/-- **Escapes of one letter** are read as what they were written for. -/
theorem unescape?_of_shortEscape? {c d : Char} (h : shortEscape? c = some d) :
    unescape? d = some c := by
  have hnamed : ∀ {n : Nat}, c.toNat = n → c = Char.ofNat n := fun h => by
    rw [← h, Char.ofNat_toNat]
  unfold shortEscape? at h
  split_ifs at h with hself hline hreturn htab hback hfeed
  all_goals obtain rfl := Option.some.inj h
  · rw [unescape?, if_pos hself]
  · rw [hline]; rfl
  · rw [hreturn]; rfl
  · rw [htab]; rfl
  · rw [hnamed hback]; rfl
  · rw [hnamed hfeed]; rfl

/-- **A lexer within a string**: a backslash opens an escape, which is a letter or a number of four
digits, and what need not be escaped stands for itself. The state `after c` has one more character
`c` of the string. -/
structure Lexer.Unescapes {State Lexeme : Type} (m : Lexer State Lexeme) (e : Escapes)
    (state : State) (after : Char → State) where
  /-- The state after the backslash. -/
  escape : State
  /-- The state within a number: how many digits are missing, and the number so far. -/
  number : Nat → Nat → State
  /-- A backslash opens an escape. -/
  backslash : m.step state '\\' = some (escape, [])
  /-- An escape of one letter. -/
  short : ∀ {c d : Char}, shortEscape? c = some d → m.step escape d = some (after c, [])
  /-- The start of a number. -/
  byNumber : m.step escape 'u' = some (number 4 0, [])
  /-- A digit that is not the last one. -/
  digit : ∀ {missing value digit : Nat} {c : Char}, 1 < missing → hexValue? c = some digit →
    m.step (number missing value) c = some (number (missing - 1) (value * 16 + digit), [])
  /-- The last digit. -/
  last : ∀ {value digit : Nat} {c : Char}, hexValue? c = some digit → value * 16 + digit < 128 →
    m.step (number 1 value) c = some (after (Char.ofNat (value * 16 + digit)), [])
  /-- What need not be escaped stands for itself. -/
  other : ∀ {c : Char}, c ≠ '"' → c ≠ '\\' → e.mustEscape c = false →
    m.step state c = some (after c, [])

namespace Lexer.Unescapes

variable {State Lexeme : Type} {m : Lexer State Lexeme} {e : Escapes} {state : State}
  {after : Char → State}

/-- An escape of one letter. -/
theorem run_short (u : m.Unescapes e state after) {c d : Char} (h : shortEscape? c = some d)
    (rest : List Char) : m.run state ('\\' :: d :: rest) = m.run (after c) rest := by
  rw [m.run_of_step u.backslash, m.run_of_step (u.short h)]

/-- An escape of a character by its number. -/
theorem run_number (u : m.Unescapes e state after) {c : Char} (hc : c.toNat < 128)
    (rest : List Char) :
    m.run state ('\\' :: 'u' :: '0' :: '0' :: hexDigit e.ten (c.toNat / 16) ::
      hexDigit e.ten (c.toNat % 16) :: rest) = m.run (after c) rest := by
  have hzero : hexValue? '0' = some 0 := rfl
  have hhigh : hexValue? (hexDigit e.ten (c.toNat / 16)) = some (c.toNat / 16) :=
    hexValue?_hexDigit e.ten_cases (by omega)
  have hlow : hexValue? (hexDigit e.ten (c.toNat % 16)) = some (c.toNat % 16) :=
    hexValue?_hexDigit e.ten_cases (by omega)
  have hvalue : ((0 * 16 + 0) * 16 + 0) * 16 + c.toNat / 16 = c.toNat / 16 := by omega
  have hwhole : c.toNat / 16 * 16 + c.toNat % 16 = c.toNat := by omega
  have hlast := u.last hlow (by omega : c.toNat / 16 * 16 + c.toNat % 16 < 128)
  rw [hwhole, Char.ofNat_toNat] at hlast
  rw [m.run_of_step u.backslash, m.run_of_step u.byNumber,
    m.run_of_step (u.digit (by decide) hzero), m.run_of_step (u.digit (by decide) hzero),
    m.run_of_step (u.digit (by decide) hhigh), hvalue, m.run_of_step hlast]

/-- **A written character** is read as the character. -/
theorem run_write (u : m.Unescapes e state after) (c : Char) (rest : List Char) :
    m.run state (e.write c ++ rest) = m.run (after c) rest := by
  unfold Escapes.write
  cases hshort : shortEscape? c with
  | some d => exact u.run_short hshort rest
  | none =>
    have hself : c ≠ '"' ∧ c ≠ '\\' := by
      constructor <;> rintro rfl <;> cases hshort
    cases hmust : e.mustEscape c with
    | true => exact u.run_number (e.lt_of_mustEscape hmust) rest
    | false => exact m.run_of_step (u.other hself.1 hself.2 hmust) rest

/-- **A written row of characters** is read as the row. -/
theorem run_flatMap_write (taking : List Char → State)
    (u : ∀ read, m.Unescapes e (taking read) fun c => taking (c :: read))
    (cs read rest : List Char) :
    m.run (taking read) (cs.flatMap e.write ++ rest) =
      m.run (taking (cs.reverse ++ read)) rest := by
  induction cs generalizing read with
  | nil => rfl
  | cons c cs ih =>
    rw [List.flatMap_cons, List.append_assoc, (u read).run_write, ih, List.reverse_cons,
      List.append_assoc]
    rfl

end Lexer.Unescapes

end Leasehold.Text
