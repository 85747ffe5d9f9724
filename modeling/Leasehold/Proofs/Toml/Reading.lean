import Leasehold.Proofs.Toml.Cutting
import Leasehold.Toml.Document

/-!
# Documents read back

A document is written section by section, and its text reads as the table that it stands for
(`Leasehold.Toml.Document.ofText?_documentText`). After the lexer it passes two more machines, and
what a section does to each of them hardly depends on what came before it.

* The lexemes of a section are the statements of that section
  (`Leasehold.Toml.ReadState.foldlM_section`): its header, and one assignment for each value.
* The statements of a section add its table to a document
  (`Leasehold.Toml.Document.foldlM_section`), as long as no name is used twice.
-/

namespace Leasehold.Toml

open Text

/-! ### Numbers -/

theorem grouped?_of_all {p : Char → Bool} {ds : List Char} (hds : ∀ c ∈ ds, p c = true) :
    grouped? p true ds = some ds := by
  induction ds with
  | nil => rfl
  | cons d ds ih =>
    obtain ⟨hd, hds⟩ := List.forall_mem_cons.1 hds
    rw [grouped?, if_pos hd, ih hds]
    rfl

/-- The digits of a number are no other text that starts like a number. -/
theorem toDigits_ne {n : Nat} {c : Char} (hc : isDigit c = false) (cs : List Char) :
    Nat.toDigits 10 n ≠ c :: cs := by
  intro h
  have hdigit : isDigit c = true := isDigit_of_mem_toDigits (n := n) (h ▸ List.mem_cons_self)
  rw [hc] at hdigit
  cases hdigit

theorem decimalDigits?_toDigits (n : Nat) :
    decimalDigits? (Nat.toDigits 10 n) = some (Nat.toDigits 10 n) := by
  have hgrouped : grouped? isDigit false (Nat.toDigits 10 n) = some (Nat.toDigits 10 n) := by
    cases hds : Nat.toDigits 10 n with
    | nil => exact absurd hds Nat.toDigits_ne_nil
    | cons d ds =>
      have hall : ∀ c ∈ d :: ds, isDigit c = true := fun c hc =>
        isDigit_of_mem_toDigits (n := n) (hds ▸ hc)
      obtain ⟨hd, htail⟩ := List.forall_mem_cons.1 hall
      rw [grouped?, if_pos hd, grouped?_of_all htail]
      rfl
  rw [decimalDigits?, hgrouped]
  split
  · rename_i hzero
    cases eq_nil_of_toDigits (Option.some.inj hzero)
  · rfl

/-- **A number in base ten** reads back. -/
theorem integer?_toDigits (n : Nat) : Toml.integer? (Nat.toDigits 10 n) = some (n : Int) := by
  have hsign : splitSign (Nat.toDigits 10 n) = (false, Nat.toDigits 10 n) := by
    unfold splitSign
    split
    · rename_i h
      exact absurd h (toDigits_ne (by decide) _)
    · rename_i h
      exact absurd h (toDigits_ne (by decide) _)
    · rfl
  unfold Toml.integer?
  split
  · rename_i h
    cases eq_nil_of_toDigits h
  · rename_i h
    cases eq_nil_of_toDigits h
  · rename_i h
    cases eq_nil_of_toDigits h
  · simp [hsign, decimalDigits?_toDigits, ofDigits_toDigits]

theorem scalar?_toString {n : Nat} (hn : fitsInteger n = true) :
    scalar? (toString n).toList = some (.integer n) := by
  have hchars : (toString n).toList = Nat.toDigits 10 n := by
    rw [Nat.toString_eq_repr, Nat.toList_repr]
  rw [hchars, scalar?, if_neg (toDigits_ne (by decide) _), if_neg (toDigits_ne (by decide) _),
    integer?_toDigits]
  exact if_pos hn

/-! ### Statements -/

/-- **The statements of a section**: its header, and one assignment for each value. -/
def Section.statements (s : Section) : List Statement :=
  .header [s.name] :: s.entries.map fun (key, v) => .assign [key] v.value

namespace ReadState

theorem foldlM_cons {s s' : ReadState} {l : Lexeme} (h : s.step l = some s') (ls : List Lexeme) :
    (l :: ls).foldlM step s = ls.foldlM step s' := by
  rw [List.foldlM_cons, h]
  rfl

/-- The items of a list, one a line, go into the array that is open. -/
theorem foldlM_items (ss : List String) (statements : List Statement) (items : List Value)
    (frames : List Frame) (ls : List Lexeme) :
    (ss.flatMap Lexeme.ofItem ++ ls).foldlM step ⟨statements, .array items :: frames, .item⟩ =
      ls.foldlM step
        ⟨statements, .array ((ss.map Value.text).reverse ++ items) :: frames, .item⟩ := by
  induction ss generalizing items with
  | nil => rfl
  | cons s ss ih =>
    have hitem : ∀ ls, (Lexeme.ofItem s ++ ls).foldlM step
        ⟨statements, .array items :: frames, .item⟩ =
        ls.foldlM step ⟨statements, .array (.text s :: items) :: frames, .item⟩ := fun _ => rfl
    rw [List.flatMap_cons, List.append_assoc, hitem, ih]
    simp

/-- **The value of an assignment** is read to the end of its line. -/
theorem foldlM_value {v : Plain} (hv : v.Fits) (key : List String) (statements : List Statement)
    (ls : List Lexeme) :
    (v.lexemes ++ .newline :: ls).foldlM step ⟨statements, [.assign key], .value⟩ =
      ls.foldlM step ⟨.assign key v.value :: statements, [], .line⟩ := by
  cases v with
  | natural n =>
    have hend : (⟨statements, [.assign key], .scalar (toString n).toList⟩ : ReadState).step
        .newline = some ⟨.assign key (.integer n) :: statements, [], .line⟩ := by
      simp only [step, endScalar, scalar?_toString hv]
      rfl
    have hbegin : (⟨statements, [.assign key], .value⟩ : ReadState).step
        (.bare (toString n).toList) =
        some ⟨statements, [.assign key], .scalar (toString n).toList⟩ := rfl
    rw [Plain.lexemes, List.singleton_append, foldlM_cons hbegin, foldlM_cons hend]
    rfl
  | text s => rfl
  | texts ss =>
    rcases ss with _ | ⟨s, _ | ⟨s', ss⟩⟩
    · rfl
    · rfl
    · have hopen : ∀ ls, (Lexeme.mark '[' :: .newline :: ls).foldlM step
          ⟨statements, [.assign key], .value⟩ =
          ls.foldlM step ⟨statements, [.array [], .assign key], .item⟩ := fun _ => rfl
      have hclose : ∀ items, ([Lexeme.mark ']'] ++ .newline :: ls).foldlM step
          ⟨statements, [.array items, .assign key], .item⟩ =
          ls.foldlM step ⟨.assign key (.array items.reverse) :: statements, [], .line⟩ :=
        fun _ => rfl
      rw [Plain.lexemes, List.cons_append, List.cons_append, hopen, List.append_assoc,
        foldlM_items, hclose, List.append_nil, List.reverse_reverse]
      rfl

theorem keyPart?_of_isBareKey {key : String} (hkey : IsBareKey key) :
    keyPart? (.bare key.toList) = some key := by
  rw [keyPart?, if_pos (List.all_eq_true.2 hkey.chars), String.ofList_toList]

theorem foldlM_entry {entry : String × Plain} (hkey : IsBareKey entry.1) (hv : entry.2.Fits)
    (statements : List Statement) (ls : List Lexeme) :
    (Lexeme.ofEntry entry ++ ls).foldlM step ⟨statements, [], .line⟩ =
      ls.foldlM step ⟨.assign [entry.1] entry.2.value :: statements, [], .line⟩ := by
  have hpart : (⟨statements, [], .line⟩ : ReadState).step (.bare entry.1.toList) =
      some ⟨statements, [], .afterPart .assign [entry.1]⟩ := by
    simp only [step, stepPlain, readPart, keyPart?_of_isBareKey hkey]
    rfl
  have hequals : ∀ ls, (Lexeme.gap true :: .mark '=' :: .gap true :: ls).foldlM step
      ⟨statements, [], .afterPart .assign [entry.1]⟩ =
      ls.foldlM step ⟨statements, [.assign [entry.1]], .value⟩ := fun _ => rfl
  have hlexemes : Lexeme.ofEntry entry ++ ls =
      .bare entry.1.toList :: .gap true :: .mark '=' :: .gap true ::
        (entry.2.lexemes ++ .newline :: ls) := by
    simp [Lexeme.ofEntry]
  rw [hlexemes, foldlM_cons hpart, hequals, foldlM_value hv]

theorem foldlM_entries {entries : List (String × Plain)} (hkeys : ∀ e ∈ entries, IsBareKey e.1)
    (hfits : ∀ e ∈ entries, e.2.Fits) (statements : List Statement) (ls : List Lexeme) :
    (entries.flatMap Lexeme.ofEntry ++ ls).foldlM step ⟨statements, [], .line⟩ =
      ls.foldlM step
        ⟨(entries.map fun (key, v) => Statement.assign [key] v.value).reverse ++ statements, [],
          .line⟩ := by
  induction entries generalizing statements with
  | nil => rfl
  | cons e entries ih =>
    obtain ⟨hkey, hkeys⟩ := List.forall_mem_cons.1 hkeys
    obtain ⟨hfit, hfits⟩ := List.forall_mem_cons.1 hfits
    rw [List.flatMap_cons, List.append_assoc, foldlM_entry hkey hfit, ih hkeys hfits]
    simp

/-- **The lexemes of a section** are its statements. -/
theorem foldlM_section {s : Section} (hs : s.IsReadable) (statements : List Statement)
    (ls : List Lexeme) :
    (s.lexemes ++ ls).foldlM step ⟨statements, [], .line⟩ =
      ls.foldlM step ⟨s.statements.reverse ++ statements, [], .line⟩ := by
  have hpart : (⟨statements, [], .headerStart⟩ : ReadState).step (.bare s.name.toList) =
      some ⟨statements, [], .afterPart .header [s.name]⟩ := by
    simp only [step, stepPlain, readPart, keyPart?_of_isBareKey hs.name]
    rfl
  have hopen : (⟨statements, [], .line⟩ : ReadState).step (.mark '[') =
      some ⟨statements, [], .headerStart⟩ := rfl
  have hclose : ∀ ls, (Lexeme.mark ']' :: .newline :: ls).foldlM step
      ⟨statements, [], .afterPart .header [s.name]⟩ =
      ls.foldlM step ⟨.header [s.name] :: statements, [], .line⟩ := fun _ => rfl
  have hlexemes : s.lexemes ++ ls = .mark '[' :: .bare s.name.toList :: .mark ']' :: .newline ::
      (s.entries.flatMap Lexeme.ofEntry ++ ls) := by
    simp [Section.lexemes]
  rw [hlexemes, foldlM_cons hopen, foldlM_cons hpart, hclose, foldlM_entries hs.keys hs.fits]
  simp [Section.statements]

theorem foldlM_documentLexemes {sections : List Section}
    (hsections : ∀ s ∈ sections, s.IsReadable) (statements : List Statement) :
    (documentLexemes sections).foldlM step ⟨statements, [], .line⟩ =
      some ⟨(sections.flatMap Section.statements).reverse ++ statements, [], .line⟩ := by
  induction sections generalizing statements with
  | nil => rfl
  | cons s sections ih =>
    obtain ⟨hs, hsections⟩ := List.forall_mem_cons.1 hsections
    cases sections with
    | nil =>
      have hlast := foldlM_section hs statements []
      rw [List.append_nil] at hlast
      rw [documentLexemes, hlast, List.flatMap_singleton]
      rfl
    | cons s' sections =>
      have hblank : ∀ statements, (⟨statements, [], .line⟩ : ReadState).step .newline =
          some ⟨statements, [], .line⟩ := fun _ => rfl
      rw [documentLexemes, foldlM_section hs, foldlM_cons (hblank _), ih hsections]
      simp

end ReadState

/-- **The statements of a text that was written.** -/
theorem Statement.ofText?_documentText {sections : List Section}
    (hsections : ∀ s ∈ sections, s.IsReadable) :
    Statement.ofText? (documentText sections) =
      some (sections.flatMap Section.statements) := by
  have hstate := ReadState.foldlM_documentLexemes hsections []
  rw [List.append_nil] at hstate
  rw [Statement.ofText?, Lexeme.ofText?_documentText hsections, Option.bind_eq_bind,
    Option.bind_some, hstate, Option.bind_eq_bind, Option.bind_some]
  exact congrArg some (List.reverse_reverse _)

/-! ### Tables -/

namespace Members

theorem find?_eq_none {name : String} {ms : Members} :
    ms.find? name = none ↔ name ∉ ms.map Prod.fst := by
  rw [Members.find?, Option.map_eq_none_iff, List.find?_eq_none]
  simp only [decide_eq_true_eq, List.mem_map, not_exists, not_and]

theorem find?_append_self {name : String} {ms : Members} (h : ms.find? name = none) (v : Value) :
    Members.find? name (ms ++ [(name, v)]) = some v := by
  simp only [Members.find?, Option.map_eq_none_iff] at h
  simp [Members.find?, List.find?_append, h]

/-- What is changed under the name of the last member changes the last member only. -/
theorem map_append_self {name : String} {ms : Members} (h : ms.find? name = none) (v w : Value) :
    (ms ++ [(name, v)]).map (fun m => if m.1 = name then (name, w) else m) =
      ms ++ [(name, w)] := by
  have hkept : ms.map (fun m => if m.1 = name then (name, w) else m) = ms := by
    refine (List.map_congr_left fun m hm => if_neg fun hname => ?_).trans (List.map_id' ms)
    exact find?_eq_none.1 h (hname ▸ List.mem_map_of_mem hm)
  rw [List.map_append, hkept]
  simp

theorem assign?_of_free {key : String} {ms : Members} (h : ms.find? key = none) (v : Value) :
    ms.assign? [key] v = some (ms ++ [(key, v)]) := by
  simp [Members.assign?, Members.change?, Members.add?, h]

end Members

namespace Document

/-- A header of a new name opens an empty table. -/
theorem add?_header {d : Document} {name : String} (h : d.members.find? name = none) :
    d.add? (.header [name]) = some ⟨d.members ++ [(name, .table .defined [])], [name]⟩ := by
  simp [add?, Members.atHeader?, Members.change?, Members.define?, h]

/-- An assignment adds to the table that is open. -/
theorem add?_assign {ms inner : Members} {name key : String} (hname : ms.find? name = none)
    (hkey : inner.find? key = none) (v : Value) :
    add? ⟨ms ++ [(name, .table .defined inner)], [name]⟩ (.assign [key] v) =
      some ⟨ms ++ [(name, .table .defined (inner ++ [(key, v)]))], [name]⟩ := by
  simp [add?, Members.change?, Members.find?_append_self hname, Origin.isOpenToHeaders,
    Members.assign?_of_free hkey, Members.map_append_self hname]

theorem foldlM_cons {d d' : Document} {s : Statement} (h : d.add? s = some d')
    (statements : List Statement) :
    (s :: statements).foldlM add? d = statements.foldlM add? d' := by
  rw [List.foldlM_cons, h]
  rfl

/-- The assignments under a header, of keys that are free and different from each other. -/
theorem foldlM_entries {ms inner : Members} {name : String} (hname : ms.find? name = none)
    {entries : List (String × Plain)} (hnodup : (entries.map Prod.fst).Nodup)
    (hfree : ∀ e ∈ entries, inner.find? e.1 = none) (statements : List Statement) :
    ((entries.map fun e => Statement.assign [e.1] e.2.value) ++ statements).foldlM add?
        ⟨ms ++ [(name, .table .defined inner)], [name]⟩ =
      statements.foldlM add?
        ⟨ms ++ [(name, .table .defined (inner ++ entries.map fun e => (e.1, e.2.value)))],
          [name]⟩ := by
  induction entries generalizing inner with
  | nil => simp
  | cons e entries ih =>
    obtain ⟨hkey, hfree⟩ := List.forall_mem_cons.1 hfree
    obtain ⟨hnew, hnodup⟩ := List.nodup_cons.1 hnodup
    have hlater : ∀ e' ∈ entries, Members.find? e'.1 (inner ++ [(e.1, e.2.value)]) = none := by
      intro e' he'
      have hfresh := Members.find?_eq_none.1 (hfree e' he')
      have hother : e'.1 ≠ e.1 := fun h => hnew (h ▸ List.mem_map_of_mem he')
      exact Members.find?_eq_none.2 (by simp_all)
    rw [List.map_cons, List.cons_append, foldlM_cons (add?_assign hname hkey _),
      ih hnodup hlater]
    simp

/-- **The statements of a section** add its table to a document that has no table of its name. -/
theorem foldlM_section {d : Document} {s : Section} (hs : s.IsReadable)
    (hname : d.members.find? s.name = none) (statements : List Statement) :
    (s.statements ++ statements).foldlM add? d =
      statements.foldlM add? ⟨d.members ++ [s.member], [s.name]⟩ := by
  have hempty : ∀ e ∈ s.entries, Members.find? e.1 [] = none := fun _ _ => rfl
  rw [Section.statements, List.cons_append, foldlM_cons (add?_header hname),
    foldlM_entries hname hs.nodup hempty]
  rfl

theorem foldlM_sections {sections : List Section} (hsections : ∀ s ∈ sections, s.IsReadable)
    (hnodup : (sections.map Section.name).Nodup) {d : Document}
    (hfree : ∀ s ∈ sections, d.members.find? s.name = none) :
    ∃ path, (sections.flatMap Section.statements).foldlM add? d =
      some ⟨d.members ++ documentTable sections, path⟩ := by
  induction sections generalizing d with
  | nil => exact ⟨d.path, by simp [documentTable]⟩
  | cons s sections ih =>
    obtain ⟨hs, hsections⟩ := List.forall_mem_cons.1 hsections
    obtain ⟨hname, hfree⟩ := List.forall_mem_cons.1 hfree
    obtain ⟨hnew, hnodup⟩ := List.nodup_cons.1 hnodup
    have hlater : ∀ s' ∈ sections, Members.find? s'.name (d.members ++ [s.member]) = none := by
      intro s' hs'
      have hfresh := Members.find?_eq_none.1 (hfree s' hs')
      have hother : s'.name ≠ s.name := fun h => hnew (h ▸ List.mem_map_of_mem hs')
      exact Members.find?_eq_none.2 (by simp_all [Section.member])
    obtain ⟨path, hpath⟩ := ih hsections hnodup (d := ⟨d.members ++ [s.member], [s.name]⟩) hlater
    refine ⟨path, ?_⟩
    rw [List.flatMap_cons, foldlM_section hs hname, hpath]
    simp [documentTable]

/-- **The text of a document reads as the table it stands for**, if its sections can be read and no
two of them have the same name. -/
theorem ofText?_documentText {sections : List Section}
    (hsections : ∀ s ∈ sections, s.IsReadable) (hnodup : (sections.map Section.name).Nodup) :
    ofText? (documentText sections) = some (documentTable sections) := by
  obtain ⟨path, hpath⟩ := foldlM_sections hsections hnodup (d := {}) fun _ _ => rfl
  rw [ofText?, Statement.ofText?_documentText hsections, Option.bind_eq_bind, Option.bind_some,
    hpath]
  rfl

end Document

end Leasehold.Toml
