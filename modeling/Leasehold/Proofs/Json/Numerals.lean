import Leasehold.Json.Lexeme
import Leasehold.Proofs.Text.Digits

/-!
# The characters of numerals

A numeral can be told from all else in a text by its characters: it starts with a minus sign or a
digit, and goes on with characters that nothing else is made of
(`Leasehold.Json.Numeral.shape_of_ofText?`).

An integer is written as the numeral that has its digits
(`Leasehold.Json.Numeral.ofText?_toString`), and reads back as long as it fits 64 bits
(`Leasehold.Json.Numeral.integer?_ofInteger`).
-/

namespace Leasehold

open Text

namespace Json

namespace Numeral

/-! ### Integers -/

/-- **The numeral of an integer.** -/
def ofInteger (n : Int) : Numeral := ⟨n < 0, Nat.toDigits 10 n.natAbs, none, none⟩

theorem toList_toString (n : Int) :
    (toString n).toList =
      if n < 0 then '-' :: Nat.toDigits 10 n.natAbs else Nat.toDigits 10 n.natAbs := by
  rw [Int.toString_eq_repr]
  cases n with
  | ofNat m =>
    have hm : ¬Int.ofNat m < 0 := Int.not_lt.2 (Int.natCast_nonneg m)
    rw [if_neg hm]
    exact Nat.toList_repr
  | negSucc m =>
    rw [if_pos (Int.negSucc_lt_zero m), Int.repr, String.toList_append, Nat.toList_repr]
    rfl

theorem wholeDigits?_toDigits (n : Nat) :
    wholeDigits? (Nat.toDigits 10 n) = some (Nat.toDigits 10 n, []) := by
  rw [wholeDigits?, spanDigits_of_all fun c => isDigit_of_mem_toDigits]
  split
  · rename_i hnil
    exact absurd (congrArg Prod.fst hnil) Nat.toDigits_ne_nil
  · rename_i hzero
    cases eq_nil_of_toDigits (congrArg Prod.fst hzero)
  · rename_i ds rest _ _ h
    obtain ⟨rfl, rfl⟩ := Prod.mk.inj h
    rfl

/-- **The text of an integer** spells the numeral of the integer. -/
theorem ofText?_toString (n : Int) : ofText? (toString n).toList = some (ofInteger n) := by
  have hwhole := wholeDigits?_toDigits n.natAbs
  rw [toList_toString, ofInteger]
  by_cases hn : n < 0
  · simp [ofText?, hn, hwhole, fraction?, power?]
  · have hminus : ∀ s, Nat.toDigits 10 n.natAbs ≠ '-' :: s := by
      intro s hs
      have hdigit : isDigit '-' = true := isDigit_of_mem_toDigits (hs ▸ List.mem_cons_self)
      exact absurd hdigit (by decide)
    rw [if_neg hn, ofText?, hwhole]
    · simp [hn, fraction?, power?]
    · exact hminus

/-- **The numeral of an integer of 64 bits** with sign reads back. -/
theorem integer?_ofInteger {n : Int} (hlow : -9223372036854775808 ≤ n)
    (hhigh : n ≤ 9223372036854775807) : (ofInteger n).integer? = some n := by
  simp only [ofInteger, integer?, ofDigits_toDigits, decide_eq_true_eq]
  by_cases hn : n < 0
  · rw [if_pos hn, if_pos (by omega)]
    exact congrArg some (by omega)
  · rw [if_neg hn, if_pos (by omega)]
    exact congrArg some (by omega)

/-! ### The characters of any numeral -/

theorem isNumeralChar_of_isDigit {c : Char} (h : isDigit c = true) : isNumeralChar c = true := by
  simp [isNumeralChar, h]

theorem all_of_wholeDigits? {s ds rest : List Char} (h : wholeDigits? s = some (ds, rest)) :
    s = ds ++ rest ∧ ds ≠ [] ∧ ∀ c ∈ ds, isDigit c = true := by
  have hspan := spanDigits_append s
  have hdigits := @isDigit_of_mem_spanDigits s
  rw [wholeDigits?] at h
  split at h
  · cases h
  · cases h
  · rename_i ds' rest' hnil _ heq
    cases h
    rw [heq] at hspan hdigits
    exact ⟨hspan.symm, hnil, fun c => hdigits⟩

theorem all_of_fraction? {s rest : List Char} {ds : Option (List Char)}
    (h : fraction? s = some (ds, rest)) (hrest : ∀ c ∈ rest, isNumeralChar c = true) :
    ∀ c ∈ s, isNumeralChar c = true := by
  rw [fraction?.eq_def] at h
  split at h
  · rename_i s'
    have hspan := spanDigits_append s'
    have hdigits := @isDigit_of_mem_spanDigits s'
    simp only at h
    split at h
    · cases h
    · cases h
      intro c hc
      rcases List.mem_cons.1 hc with rfl | hc
      · rfl
      · rw [← hspan, List.mem_append] at hc
        rcases hc with hc | hc
        · exact isNumeralChar_of_isDigit (hdigits hc)
        · exact hrest c hc
  · cases h
    exact hrest

theorem all_of_power? {s : List Char} {p : Option (Bool × List Char)} (h : power? s = some p) :
    ∀ c ∈ s, isNumeralChar c = true := by
  have hdigits : ∀ {ds : List Char}, ds.all isDigit = true → ∀ c ∈ ds, isNumeralChar c = true :=
    fun hds c hc => isNumeralChar_of_isDigit (List.all_eq_true.1 hds c hc)
  rw [power?.eq_def] at h
  split at h
  · nofun
  · rename_i e s
    split at h
    · rename_i he
      have he : isNumeralChar e = true := by
        rcases Bool.or_eq_true_iff.1 he with he | he
        · rw [of_decide_eq_true he]
          rfl
        · rw [of_decide_eq_true he]
          rfl
      refine List.forall_mem_cons.2 ⟨he, ?_⟩
      simp only at h
      split at h
      · split at h
        · rename_i hds
          exact List.forall_mem_cons.2 ⟨rfl, hdigits hds.2⟩
        · cases h
      · split at h
        · rename_i hds
          exact List.forall_mem_cons.2 ⟨rfl, hdigits hds.2⟩
        · cases h
      · split at h
        · rename_i hds
          exact hdigits hds.2
        · cases h
    · cases h

/-- The parts of a numeral behind its sign: a digit, and then characters of numerals only. -/
theorem shape_of_parts {s ds s₁ s₂ : List Char} {fraction : Option (List Char)}
    {power : Option (Bool × List Char)} (hwhole : wholeDigits? s = some (ds, s₁))
    (hfraction : fraction? s₁ = some (fraction, s₂)) (hpower : power? s₂ = some power) :
    ∃ c cs, s = c :: cs ∧ isDigit c = true ∧ ∀ c ∈ cs, isNumeralChar c = true := by
  obtain ⟨rfl, hne, hds⟩ := all_of_wholeDigits? hwhole
  have hrest := all_of_fraction? hfraction (all_of_power? hpower)
  cases ds with
  | nil => exact absurd rfl hne
  | cons c cs =>
    obtain ⟨hc, hcs⟩ := List.forall_mem_cons.1 hds
    refine ⟨c, cs ++ s₁, rfl, hc, fun d hd => ?_⟩
    rcases List.mem_append.1 hd with hd | hd
    · exact isNumeralChar_of_isDigit (hcs d hd)
    · exact hrest d hd

/-- **The text of a numeral**: a minus sign or a digit, and then characters of numerals only. -/
theorem shape_of_ofText? {s : List Char} {n : Numeral} (h : ofText? s = some n) :
    ∃ c cs, s = c :: cs ∧ (c = '-' ∨ isDigit c = true) ∧ ∀ c ∈ cs, isNumeralChar c = true := by
  rw [ofText?.eq_def] at h
  simp only [Option.bind_eq_bind, Option.bind_eq_some_iff, Prod.exists] at h
  obtain ⟨ds, s₁, hwhole, fraction, s₂, hfraction, power, hpower, -⟩ := h
  split at hwhole
  · obtain ⟨c, cs, rfl, hc, hcs⟩ := shape_of_parts hwhole hfraction hpower
    exact ⟨'-', c :: cs, rfl, .inl rfl,
      List.forall_mem_cons.2 ⟨isNumeralChar_of_isDigit hc, hcs⟩⟩
  · obtain ⟨c, cs, rfl, hc, hcs⟩ := shape_of_parts hwhole hfraction hpower
    exact ⟨c, cs, rfl, .inr hc, hcs⟩

end Numeral

end Json

end Leasehold
