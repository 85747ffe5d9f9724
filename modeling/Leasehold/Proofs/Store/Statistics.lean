import Leasehold.Proofs.Json.Reading
import Leasehold.Store.Aggregations

/-!
# The text of statistics

A row keeps the statistics of a mode as a JSON text. Statistics that were built by remembering
runs (`Leasehold.RunStats.IsRecorded`) hold nothing but counts of 64 bits and runtimes, so the text
brings them back wherever the text of each runtime does
(`Leasehold.Store.StatsText.read?_foreign`). The one text that stands for something else, the empty
object, is not among those that are written.
-/

namespace Leasehold

/-! ### Lists in a JSON text -/

namespace Json

/-- Items that can each be read back are read back together. -/
theorem exists_itemTrees? {α : Type} {f : α → Value} {g : Tree → Option α} {as : List α}
    (h : ∀ a ∈ as, ∃ t, (f a).tree? = some t ∧ g t = some a) :
    ∃ ts, Value.itemTrees? (as.map f) = some ts ∧ ts.mapM g = some as := by
  induction as with
  | nil => exact ⟨[], rfl, rfl⟩
  | cons a as ih =>
    obtain ⟨t, ht, hg⟩ := h a List.mem_cons_self
    obtain ⟨ts, hts, hgs⟩ := ih fun b hb => h b (List.mem_cons_of_mem a hb)
    refine ⟨t :: ts, ?_, ?_⟩
    · rw [List.map_cons, Value.itemTrees?, ht, hts]
      rfl
    · rw [List.mapM_cons, hg, hgs]
      rfl

/-- An integer of 64 bits is read back. -/
theorem exists_tree?_integer {n : Int} (hn : Cell.InRange n) :
    ∃ t, (Value.integer n).tree? = some t ∧ t.integer64? = some n := by
  refine ⟨.numeral (.ofInteger n), ?_, ?_⟩
  · rw [Value.tree?, Tree.ofNumeral?, Numeral.ofText?_toString]
    rfl
  · have hlow : -9223372036854775808 ≤ n := hn.1
    have hhigh : n ≤ 9223372036854775807 := hn.2
    rw [Tree.integer64?, Tree.integer?, Numeral.integer?_ofInteger hlow hhigh]
    simp [Option.filter, hlow, hhigh]

/-- A floating-point number is read back where its text is. -/
theorem exists_tree?_decimal {x : Float} (hx : Store.reread? x = some x) :
    ∃ t, (Value.decimal x).tree? = some t ∧ t.float? = some x := by
  rw [Store.reread?] at hx
  obtain ⟨spelling, hspelling, hx⟩ := Option.bind_eq_some_iff.1 hx
  obtain ⟨n, hn, hx⟩ := Option.bind_eq_some_iff.1 hx
  refine ⟨.numeral n, ?_, hx⟩
  rw [Value.tree?, hspelling]
  exact congrArg (Option.map Tree.numeral) hn

end Json

/-! ### Statistics -/

namespace RunStats

/-- **Statistics that were built by remembering runs**, one after another. -/
inductive IsRecorded : RunStats → Prop
  /-- No run is remembered yet. -/
  | empty : IsRecorded {}
  /-- One more run is remembered. -/
  | record {s : RunStats} (hs : IsRecorded s) (runtime : Span) {processed : Int}
    (hprocessed : Cell.InRange processed) : IsRecorded (s.record runtime processed)

/-- What is recent was there before, or has just come. -/
theorem mem_recent {α : Type} {xs : List α} {x y : α} (h : y ∈ recent (xs ++ [x])) :
    y ∈ xs ∨ y = x := by
  rw [recent] at h
  simpa using List.mem_of_mem_drop h

/-- All remembered counts have 64 bits. -/
theorem IsRecorded.inRange {s : RunStats} (hs : s.IsRecorded) :
    ∀ n ∈ s.records, Cell.InRange n := by
  induction hs with
  | empty => nofun
  | @record s _ runtime processed hprocessed ih =>
    intro n hn
    rcases mem_recent hn with hn | rfl
    · exact ih n hn
    · exact hprocessed

/-- **The text of statistics** reads as the statistics. -/
theorem ofText?_compact {s : RunStats} (hs : s.IsRecorded)
    (hruntimes : ∀ x ∈ s.runtimes, Store.reread? x = some x) :
    ofText? s.toJson.compact = some s := by
  obtain ⟨xs, hxs, hfloats⟩ := Json.exists_itemTrees? (f := Json.Value.decimal)
    fun x hx => Json.exists_tree?_decimal (hruntimes x hx)
  obtain ⟨ns, hns, hintegers⟩ := Json.exists_itemTrees? (f := Json.Value.integer)
    fun n hn => Json.exists_tree?_integer (hs.inRange n hn)
  have htree : s.toJson.tree? = some (.object [(some "runtimes_in_seconds", .array xs),
      (some "processed_records", .array ns)]) := by
    simp [toJson, Json.Value.tree?, Json.Value.memberTrees?, hxs, hns]
  rw [ofText?, Json.Tree.ofText?_compact htree]
  simp [ofJson?, Json.Tree.fields?, Json.Tree.list?, hfloats, hintegers]

end RunStats

namespace Store

/-- Reading back what reads as itself. -/
theorem mapM_eq_self {α : Type} {f : α → Option α} {as : List α} (h : ∀ a ∈ as, f a = some a) :
    as.mapM f = some as := by
  induction as with
  | nil => rfl
  | cons a as ih =>
    obtain ⟨ha, has⟩ := List.forall_mem_cons.1 h
    rw [List.mapM_cons, ha, ih has]
    rfl

/-- A text that neither starts nor ends with a blank is trimmed. -/
theorem trim_eq_self {c d : Char} {cs : List Char} (hc : Text.isBlank c = false)
    (hd : Text.isBlank d = false) : Text.trim (c :: (cs ++ [d])) = c :: (cs ++ [d]) := by
  simp [Text.trim, Text.dropBlanks, hc, hd]

namespace StatsText

/-- **The text that is written for statistics** reads as the statistics. -/
theorem read?_foreign {s : RunStats} (hs : s.IsRecorded)
    (hruntimes : ∀ x ∈ s.runtimes, reread? x = some x) :
    (foreign s.toJson.compact).read? = some s := by
  obtain ⟨cs, hcs⟩ : ∃ cs, (Json.Value.compactMembers
      [("runtimes_in_seconds", .array (s.runtimes.map .decimal)),
        ("processed_records", .array (s.records.map .integer))]).toList = '"' :: cs := by
    rw [Json.Value.compactMembers, Json.Value.quoted]
    · simp only [String.toList_append, List.append_assoc]
      exact ⟨_, rfl⟩
    · intro hnil
      cases hnil
  have htext : s.toJson.compact.toList = '\x7b' :: ('"' :: cs ++ ['\x7d']) := by
    rw [RunStats.toJson, Json.Value.toList_compact_object, hcs]
  rw [read?, htext, trim_eq_self rfl rfl, if_neg (by simp)]
  exact RunStats.ofText?_compact hs hruntimes

/-- Statistics as they are kept in a row read as themselves, too. -/
theorem read?_written {s : RunStats} (hruntimes : ∀ x ∈ s.runtimes, reread? x = some x) :
    (written s).read? = some s := by
  rw [read?, mapM_eq_self hruntimes]
  rfl

end StatsText

end Store

end Leasehold
