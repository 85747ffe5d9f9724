import Leasehold.Project.Resolution
import Leasehold.Proofs.Files.Writing
import Leasehold.Proofs.Toml.Reading
import Leasehold.Settings.Warnings

/-!
# Saved settings read back

Settings are written with every default spelled out, and the file reads as the settings that were
saved, whatever texts and numbers they hold (`Leasehold.Layout.loadSettings_saveSettings`).

A name that is written differently from how it is read would not fail. It would leave a setting at
its default, so each section is read from just what is written for it
(`Leasehold.LeaseSettings.read?_written` and its like), and what is written for it is a section that
can be read (`Leasehold.Settings.isReadable_sections`): all keys are bare and all numbers are in the
range of the reader.
-/

namespace Leasehold

open Toml (Value Members Section IsBareKey fitsInteger)

/-! ### What is written can be read -/

instance : DecidablePred IsBareKey := fun key =>
  decidable_of_iff (key.toList ≠ [] ∧ key.toList.all Toml.ReadState.isKeyChar = true)
    ⟨fun h => ⟨h.1, List.all_eq_true.1 h.2⟩, fun h => ⟨h.ne_nil, List.all_eq_true.2 h.chars⟩⟩

theorem fitsInteger_word64 (n : UInt64) : fitsInteger n.toNat = true := by
  have hn := n.toNat_lt
  simp only [fitsInteger, Bool.and_eq_true, decide_eq_true_eq]
  omega

theorem fitsInteger_word32 (n : UInt32) : fitsInteger n.toNat = true := by
  have hn := n.toNat_lt
  simp only [fitsInteger, Bool.and_eq_true, decide_eq_true_eq]
  omega

namespace Toml.Section

/-- A section whose keys are known. -/
theorem isReadable_of_keys {s : Section} (hname : IsBareKey s.name) (keys : List String)
    (hkeys : s.entries.map Prod.fst = keys) (hbare : ∀ key ∈ keys, IsBareKey key)
    (hnodup : keys.Nodup) (hfits : ∀ e ∈ s.entries, e.2.Fits) : s.IsReadable where
  name := hname
  keys e he := hbare e.1 (hkeys ▸ List.mem_map_of_mem he)
  fits := hfits
  nodup := hkeys ▸ hnodup

end Toml.Section

theorem LeaseSettings.isReadable_toSection (s : LeaseSettings) : s.toSection.IsReadable :=
  Section.isReadable_of_keys (by decide +kernel : IsBareKey "lease")
    ["backend", "ttl_secs", "sleep_ms", "retries"] rfl (by decide +kernel) (by decide +kernel)
    (by simp [toSection, Toml.Plain.Fits, fitsInteger_word64, fitsInteger_word32])

theorem AggregationSettings.isReadable_toSection (s : AggregationSettings) :
    s.toSection.IsReadable :=
  Section.isReadable_of_keys (by decide +kernel : IsBareKey "aggregation")
    ["max_runtime_secs", "batch_size", "step_page_size", "mode"] rfl (by decide +kernel)
    (by decide +kernel) (by simp [toSection, Toml.Plain.Fits, fitsInteger_word64])

theorem HookSettings.isReadable_toSection (s : HookSettings) : s.toSection.IsReadable :=
  Section.isReadable_of_keys (by decide +kernel : IsBareKey "hooks")
    ["lock_ttl_secs", "lock_sleep_ms", "lock_retries", "delivery_timeout_secs"] rfl
    (by decide +kernel) (by decide +kernel)
    (by simp [toSection, Toml.Plain.Fits, fitsInteger_word64, fitsInteger_word32])

theorem CounterSettings.isReadable_toSection (s : CounterSettings) : s.toSection.IsReadable :=
  Section.isReadable_of_keys (by decide +kernel : IsBareKey "counters")
    ["attributes", "lock_ttl_secs", "lock_retries"] rfl (by decide +kernel) (by decide +kernel)
    (by simp [toSection, Toml.Plain.Fits, fitsInteger_word64, fitsInteger_word32])

theorem LoggingSettings.isReadable_toSection (s : LoggingSettings) : s.toSection.IsReadable :=
  Section.isReadable_of_keys (by decide +kernel : IsBareKey "logging") ["level", "format"] rfl
    (by decide +kernel) (by decide +kernel) (by simp [toSection, Toml.Plain.Fits])

/-- **All sections can be read**, whatever the settings are. -/
theorem Settings.isReadable_sections (s : Settings) : ∀ x ∈ s.sections, x.IsReadable := by
  simp only [sections, List.forall_mem_cons, List.not_mem_nil, false_implies, implies_true,
    and_true]
  exact ⟨s.lease.isReadable_toSection, s.aggregation.isReadable_toSection,
    s.hooks.isReadable_toSection, s.counters.isReadable_toSection,
    s.logging.isReadable_toSection⟩

theorem Settings.nodup_names (s : Settings) : (s.sections.map Section.name).Nodup := by
  have hnames : s.sections.map Section.name =
      ["lease", "aggregation", "hooks", "counters", "logging"] := rfl
  rw [hnames]
  decide +kernel

/-! ### Values read back -/

@[simp]
theorem readWord64?_toNat (n : UInt64) : readWord64? (.integer n.toNat) = some n := by
  have hn : 0 ≤ (n.toNat : Int) ∧ (n.toNat : Int) < 18446744073709551616 :=
    ⟨by omega, by have := n.toNat_lt; omega⟩
  rw [readWord64?, if_pos hn, Int.toNat_natCast, UInt64.ofNat_toNat]

@[simp]
theorem readWord32?_toNat (n : UInt32) : readWord32? (.integer n.toNat) = some n := by
  have hn : 0 ≤ (n.toNat : Int) ∧ (n.toNat : Int) < 4294967296 :=
    ⟨by omega, by have := n.toNat_lt; omega⟩
  rw [readWord32?, if_pos hn, Int.toNat_natCast, UInt32.ofNat_toNat]

@[simp]
theorem readTexts?_map (ss : List String) : readTexts? (.array (ss.map .text)) = some ss := by
  rw [readTexts?]
  induction ss with
  | nil => rfl
  | cons s ss ih =>
    rw [List.map_cons, List.mapM_cons, ih]
    rfl

/-! ### Sections read back -/

namespace Fields

/-- **What a section that was written is read from.** -/
def written (s : Section) : Fields := .byName (s.entries.map fun (key, v) => (key, v.value))

variable {α : Type} {name : String} {place : Nat} {f : Value → Option α} {default : α}

@[simp]
theorem read?_cons_self (v : Value) (ms : Members) :
    (byName ((name, v) :: ms)).read? name place f default = f v := by
  simp [read?, find?, Members.find?]

@[simp]
theorem read?_cons_of_ne {other : String} (h : other ≠ name) (v : Value) (ms : Members) :
    (byName ((other, v) :: ms)).read? name place f default =
      (byName ms).read? name place f default := by
  simp [read?, find?, Members.find?, h]

end Fields

theorem LeaseSettings.read?_written (s : LeaseSettings) :
    LeaseSettings.read? (.written s.toSection) = some s := by
  simp [read?, toSection, Fields.written, Toml.Plain.value, readName?, BackendKind.ofName?_name]

theorem AggregationSettings.read?_written (s : AggregationSettings) :
    AggregationSettings.read? (.written s.toSection) = some s := by
  simp [read?, toSection, Fields.written, Toml.Plain.value, readName?, Mode.ofName?_name]

theorem HookSettings.read?_written (s : HookSettings) :
    HookSettings.read? (.written s.toSection) = some s := by
  simp [read?, toSection, Fields.written, Toml.Plain.value]

theorem CounterSettings.read?_written (s : CounterSettings) :
    CounterSettings.read? (.written s.toSection) = some s := by
  simp [read?, toSection, Fields.written, Toml.Plain.value]

theorem LoggingSettings.read?_written (s : LoggingSettings) :
    LoggingSettings.read? (.written s.toSection) = some s := by
  simp [read?, toSection, Fields.written, Toml.Plain.value, readText?, readName?,
    LogFormat.ofName?_name]

namespace Settings

theorem readSection?_of_find? {α : Type} {ms : Members} {x : Section} {f : Fields → Option α}
    {a : α} (hfind : ms.find? x.name = some x.member.2) (hread : f (.written x) = some a) :
    readSection? ms x.name f = some a := by
  rw [readSection?, hfind]
  exact hread

/-- The table of some settings is read as the settings. -/
theorem read?_documentTable (s : Settings) : read? (Toml.documentTable s.sections) = some s := by
  have hlease : readSection? (Toml.documentTable s.sections) "lease" LeaseSettings.read? =
      some s.lease := readSection?_of_find? (x := s.lease.toSection) rfl s.lease.read?_written
  have haggregation : readSection? (Toml.documentTable s.sections) "aggregation"
      AggregationSettings.read? = some s.aggregation :=
    readSection?_of_find? (x := s.aggregation.toSection) rfl s.aggregation.read?_written
  have hhooks : readSection? (Toml.documentTable s.sections) "hooks" HookSettings.read? =
      some s.hooks := readSection?_of_find? (x := s.hooks.toSection) rfl s.hooks.read?_written
  have hcounters : readSection? (Toml.documentTable s.sections) "counters"
      CounterSettings.read? = some s.counters :=
    readSection?_of_find? (x := s.counters.toSection) rfl s.counters.read?_written
  have hlogging : readSection? (Toml.documentTable s.sections) "logging"
      LoggingSettings.read? = some s.logging :=
    readSection?_of_find? (x := s.logging.toSection) rfl s.logging.read?_written
  simp [read?, hlease, haggregation, hhooks, hcounters, hlogging]

/-- **The text of some settings reads as the settings.** -/
theorem ofText?_toText (s : Settings) : ofText? s.toText = some s := by
  rw [ofText?, toText, Toml.Document.ofText?_documentText s.isReadable_sections s.nodup_names,
    Option.bind_eq_bind, Option.bind_some, read?_documentTable]

end Settings

/-! ### Files -/

namespace Layout

/-- **Saved settings read back unchanged.** Wherever a file can be written, settings can be saved,
whatever they are; the file is loaded as the settings that were saved, so whatever is done by the
settings that were loaded is done as before; and saving them again leaves the file as it is. -/
theorem loadSettings_saveSettings (s : Settings) {t : FileTree} {file : Path}
    (hfile : t.IsWritable file) :
    ∃ saved, saveSettings t file s = .ok saved ∧ saved.readText? file = some s.toText ∧
      loadSettings saved file = .ok s ∧
      ∀ loaded, loadSettings saved file = .ok loaded →
        saveSettings saved file loaded = .ok saved ∧
        loaded.lease.lockOptions = s.lease.lockOptions ∧
        loaded.hooks.lockOptions = s.hooks.lockOptions ∧
        loaded.counters.lockOptions = s.counters.lockOptions ∧
        loaded.hooks.deliveryTimeout = s.hooks.deliveryTimeout ∧
        (∀ (p : Project) (v : Variables) (mode : Option Mode),
          { p with settings := loaded }.workerOptions v mode =
            { p with settings := s }.workerOptions v mode) ∧
        loaded.warnings = s.warnings := by
  obtain ⟨place, hsite, hplace⟩ := hfile
  have hwrite := FileTree.writeText?_of_site hsite hplace s.toText
  have hread := FileTree.readText?_put hsite hplace s.toText
  have hagain := FileTree.writeText?_put hsite hplace s.toText s.toText
  have hload : loadSettings (t.put place (.text s.toText)) file = .ok s := by
    rw [loadSettings, hread]
    simp only [s.ofText?_toText]
  refine ⟨t.put place (.text s.toText), by rw [saveSettings, hwrite], hread, hload, ?_⟩
  intro loaded hloaded
  rw [hload] at hloaded
  cases hloaded
  exact ⟨by rw [saveSettings, hagain], rfl, rfl, rfl, rfl, fun _ _ _ => rfl, rfl⟩

/-- Texts with both kinds of quotes, backslashes, ends of lines and control characters. -/
def quotedSettings : Settings where
  counters :=
    { quantities := ["a\"b", "c:\\d'e\"", "one\ntwo'''\"\"\"\"", "\t\r", "é", ""]
      lockTtlSecs := 18446744073709551615 }
  logging := { level := "'info'\n\\\"\"\"" }

theorem loadSettings_saveSettings_quoted :
    FileTree.IsWritable {} "/cronlease.toml" ∧
      ∃ saved, saveSettings {} "/cronlease.toml" quotedSettings = .ok saved ∧
        loadSettings saved "/cronlease.toml" = .ok quotedSettings := by
  have hfile : FileTree.IsWritable {} "/cronlease.toml" := ⟨["cronlease.toml"], rfl, rfl⟩
  obtain ⟨saved, hsave, -, hload, -⟩ := loadSettings_saveSettings quotedSettings hfile
  exact ⟨hfile, saved, hsave, hload⟩

end Layout

end Leasehold
