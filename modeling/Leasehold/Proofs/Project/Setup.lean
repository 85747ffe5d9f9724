import Leasehold.Project.Setup
import Leasehold.Proofs.Files.Directories

/-!
# Setting up again and again

Setting up a project makes its directory, its settings and its database, in this order, and what
it made stays when the next thing fails. A project passes for initialized as soon as there are
settings.

However often a project is set up, nothing that was there is lost, and when it ended well once, it
ends well from then on and does nothing more (`Leasehold.setsUpAgain`). When it fails, it depends on
what failed. Without a directory there are no settings before and none afterwards. But when the
database cannot be made, the settings have been written already: a project that was not initialized
is initialized after a failure (`Leasehold.isInitialized_blockedProject`).
-/

namespace Leasehold

variable {t t' : FileTree} {project : Path} {place : Place}

namespace Layout

/-! ### The directory of a project -/

theorem isName_home : Path.IsName ".cronlease" := ⟨by decide, by decide, by decide⟩

theorem isName_settings : Path.IsName "cronlease.toml" := ⟨by decide, by decide, by decide⟩

theorem isName_database : Path.IsName "cronlease.db" := ⟨by decide, by decide, by decide⟩

theorem endsInName_home (project : Path) : (home project).EndsInName :=
  Path.endsInName_join isName_home project

/-- The database of a project is never thrown away. -/
theorem databaseFile_ne_throwAway (project : Path) : databaseFile project ≠ FileTree.throwAway := by
  intro h
  have hlast := Path.getLast?_join isName_database (home project)
  rw [show (home project).join "cronlease.db" = databaseFile project from rfl, h] at hlast
  exact absurd hlast (by decide)

/-- **The directory of a project's files** stands at a place. -/
structure HomeAt (t : FileTree) (project : Path) (place : Place) : Prop where
  /-- The path of the directory leads there. -/
  locate : t.locate (home project) = .ok place
  /-- There is a directory. -/
  directory : t.hasDirectory place = true

theorem exists_homeAt :
    t.find? (home project) = some .directory ↔ ∃ place, HomeAt t project place := by
  rw [FileTree.find?_eq_some]
  exact exists_congr fun place =>
    ⟨fun h => ⟨h.1, FileTree.hasDirectory_iff.2 h.2⟩,
      fun h => ⟨h.locate, FileTree.hasDirectory_iff.1 h.directory⟩⟩

namespace HomeAt

variable {other : Place} {name : String} {e : FileEntry}

theorem keeps (h : HomeAt t project place) (hkeeps : t.Keeps t') : HomeAt t' project place :=
  ⟨hkeeps.locate h.locate, hkeeps.hasDirectory h.directory⟩

/-- What is put where no directory stands does not move the directory of a project. -/
theorem put (h : HomeAt t project place) (hother : t.hasDirectory other = false) :
    HomeAt (t.put other e) project place := by
  have hne : place ≠ other := by
    rintro rfl
    rw [h.directory] at hother
    cases hother
  refine ⟨?_, by rw [FileTree.hasDirectory_put_of_ne hne, h.directory]⟩
  have hlocate := h.locate
  rw [FileTree.locate, if_neg (endsInName_home project).ne_empty] at hlocate ⊢
  exact FileTree.walk_put hother hlocate h.directory

/-- A file of a project stands in the directory under its name. -/
theorem find?_join (h : HomeAt t project place) (hname : Path.IsName name) :
    t.find? ((home project).join name) = t.item? (place ++ [name]) :=
  FileTree.find?_join (endsInName_home project) hname h.locate h.directory

theorem site?_join (h : HomeAt t project place) (hname : Path.IsName name) :
    t.site? ((home project).join name) = some (place ++ [name]) :=
  FileTree.site?_join (endsInName_home project) hname h.locate h.directory

end HomeAt

/-- An initialized project has a directory. -/
theorem find?_home_of_isInitialized (h : isInitialized t project = true) :
    t.find? (home project) = some .directory := by
  obtain ⟨e, he⟩ := Option.isSome_iff_exists.1 h
  exact FileTree.find?_of_find?_join (endsInName_home project) isName_settings he

end Layout

/-- **Whether a file can be opened as a database.** One without any text is an empty database. -/
def FileEntry.opens : FileEntry → Bool
  | .database _ => true
  | .text s => s = ""
  | _ => false

open Layout (HomeAt settingsFile databaseFile isInitialized endsInName_home isName_settings
  isName_database)

namespace Setup

/-! ### One thing after the other -/

/-- **The directory** is there afterwards, or it cannot be made. -/
theorem makeHome_cases (t : FileTree) (project : Path) :
    ∃ t', t.Keeps t' ∧
      (makeHome t project = (.ok (), t') ∧ t'.find? (Layout.home project) = some .directory ∨
        makeHome t project = (.error (.cannotCreate (Layout.home project)), t') ∧
          t'.find? (Layout.home project) ≠ some .directory) := by
  obtain ⟨hkeeps, hok⟩ := FileTree.find?_makeDirectories (endsInName_home project).ne_empty
    (Path.steps_join_ne_nil Layout.isName_home project) t
  rw [makeHome]
  rcases hmade : t.makeDirectories (Layout.home project) with ⟨x | done, t'⟩
  all_goals rw [hmade] at hkeeps hok
  · exact ⟨t', hkeeps, .inr ⟨rfl, fun h => nomatch hok.2 h⟩⟩
  · exact ⟨t', hkeeps, .inl ⟨rfl, hok.1 rfl⟩⟩

theorem makeHome_of_find? (h : t.find? (Layout.home project) = some .directory) :
    makeHome t project = (.ok (), t) := by
  rw [makeHome, FileTree.makeDirectories_of_find? (endsInName_home project).ne_empty h]

theorem makeSettings_of_isInitialized (h : isInitialized t project = true) :
    makeSettings t project = (.ok false, t) :=
  if_pos h

/-- **The settings** can always be written into the directory of a project, and nothing is lost. -/
theorem makeSettings_of_homeAt (h : HomeAt t project place) :
    ∃ wrote t', makeSettings t project = (.ok wrote, t') ∧ t.Keeps t' ∧
      isInitialized t' project = true := by
  by_cases hsettings : isInitialized t project = true
  · exact ⟨false, t, makeSettings_of_isInitialized hsettings, .refl t, hsettings⟩
  · have hitem : t.item? (place ++ ["cronlease.toml"]) = none := by
      rw [← h.find?_join isName_settings]
      exact Option.not_isSome_iff_eq_none.1 hsettings
    have hfree : t.hasDirectory (place ++ ["cronlease.toml"]) = false := by
      rw [FileTree.hasDirectory, hitem]
    have hsite : t.site? (settingsFile project) = some (place ++ ["cronlease.toml"]) :=
      h.site?_join isName_settings
    have hwrite := FileTree.writeText?_of_site hsite hfree ({} : Settings).toText
    refine ⟨true, t.put (place ++ ["cronlease.toml"]) (.text ({} : Settings).toText), ?_,
      FileTree.Keeps.put hitem _, ?_⟩
    · refine (if_neg hsettings).trans ?_
      rw [Layout.saveSettings, hwrite]
    · rw [isInitialized, FileTree.contains, FileTree.find?_put hsite hfree]
      rfl

/-- **The database** is there, or it is made where there is none or an empty file, or there is
something else in its place. -/
theorem makeDatabase_cases (h : HomeAt t project place) :
    (∃ s, t.find? (databaseFile project) = some (.database s) ∧
        makeDatabase t project = (.ok (), t)) ∨
      ((∀ e, t.item? (place ++ ["cronlease.db"]) = some e → e = .text "") ∧
        makeDatabase t project = (.ok (), t.put (place ++ ["cronlease.db"]) (.database {}))) ∨
      ((∃ e, t.find? (databaseFile project) = some e ∧ e.opens = false) ∧
        makeDatabase t project = (.error (.cannotInitialize (databaseFile project)), t)) := by
  have hsite : t.site? (databaseFile project) = some (place ++ ["cronlease.db"]) :=
    h.site?_join isName_database
  have hfind : t.find? (databaseFile project) = t.item? (place ++ ["cronlease.db"]) :=
    h.find?_join isName_database
  rw [makeDatabase, FileTree.openDatabase, if_neg (Layout.databaseFile_ne_throwAway project), hsite,
    hfind]
  cases hitem : t.item? (place ++ ["cronlease.db"]) with
  | none => exact .inr (.inl ⟨nofun, rfl⟩)
  | some e =>
    have hlocate : t.locate (databaseFile project) = .ok (place ++ ["cronlease.db"]) :=
      FileTree.locate_join_eq_ok (endsInName_home project) isName_database h.locate h.directory
        hitem
    rw [hlocate]
    cases e with
    | database s => exact .inl ⟨s, rfl, rfl⟩
    | directory => exact .inr (.inr ⟨⟨_, rfl, rfl⟩, rfl⟩)
    | other => exact .inr (.inr ⟨⟨_, rfl, rfl⟩, rfl⟩)
    | text s =>
      by_cases hs : s = ""
      · refine .inr (.inl ⟨fun e he => ?_, ?_⟩)
        · rw [← Option.some.inj he, hs]
        · simp only [if_pos hs]
      · refine .inr (.inr ⟨⟨_, rfl, decide_eq_false hs⟩, ?_⟩)
        simp only [if_neg hs]

/-! ### What is there stays -/

/-- **What setting up leaves as it was**: everything, but for an empty file under the name of the
database, which becomes one. -/
structure Preserves (project : Path) (t t' : FileTree) : Prop where
  /-- What stands somewhere stands there afterwards. -/
  item : ∀ place e, t.item? place = some e → t'.item? place = some e ∨
    place.getLast? = some "cronlease.db" ∧ e = .text "" ∧ t'.item? place = some (.database {})
  /-- The path of the settings leads to the same settings. -/
  settings : ∀ e, t.find? (settingsFile project) = some e → t'.find? (settingsFile project) = some e

theorem Preserves.of_keeps (h : t.Keeps t') : Preserves project t t' :=
  ⟨fun place e hitem => .inl (h.item place e hitem), fun _ => h.find?⟩

theorem Preserves.trans {t'' : FileTree} (h : Preserves project t t')
    (h' : Preserves project t' t'') : Preserves project t t'' := by
  refine ⟨fun place e hitem => ?_, fun e hfind => h'.settings e (h.settings e hfind)⟩
  rcases h.item place e hitem with hkept | ⟨hname, hempty, hdatabase⟩
  · exact h'.item place e hkept
  · rcases h'.item place _ hdatabase with hkept | ⟨-, hnot, -⟩
    · exact .inr ⟨hname, hempty, hkept⟩
    · cases hnot

theorem Preserves.isInitialized (h : Preserves project t t')
    (ht : Layout.isInitialized t project = true) : Layout.isInitialized t' project = true := by
  obtain ⟨e, he⟩ := Option.isSome_iff_exists.1 ht
  rw [Layout.isInitialized, FileTree.contains, h.settings e he]
  rfl

/-- **A database that was made** is at its path, and the rest is as before. -/
theorem put_database (h : HomeAt t project place)
    (hempty : ∀ e, t.item? (place ++ ["cronlease.db"]) = some e → e = .text "") :
    HomeAt (t.put (place ++ ["cronlease.db"]) (.database {})) project place ∧
      (t.put (place ++ ["cronlease.db"]) (.database {})).find? (databaseFile project) =
        some (.database {}) ∧
      Preserves project t (t.put (place ++ ["cronlease.db"]) (.database {})) := by
  have hfree : t.hasDirectory (place ++ ["cronlease.db"]) = false := by
    rw [Bool.eq_false_iff]
    intro hdirectory
    have hnot := hempty .directory (FileTree.hasDirectory_iff.1 hdirectory)
    cases hnot
  have hplace := h.put (e := .database {}) hfree
  have hmade : (t.put (place ++ ["cronlease.db"]) (.database {})).item?
      (place ++ ["cronlease.db"]) = some (.database {}) := FileTree.item?_put_self t (by simp) _
  refine ⟨hplace, (hplace.find?_join isName_database).trans hmade, fun other e hitem => ?_,
    fun e hfind => ?_⟩
  · by_cases hother : other = place ++ ["cronlease.db"]
    · rw [hother] at hitem ⊢
      exact .inr ⟨List.getLast?_concat, hempty e hitem, hmade⟩
    · rw [FileTree.item?_put_of_ne t hother]
      exact .inl hitem
  · have hother : place ++ ["cronlease.toml"] ≠ place ++ ["cronlease.db"] := by simp
    rw [settingsFile, h.find?_join isName_settings] at hfind
    rw [settingsFile, hplace.find?_join isName_settings, FileTree.item?_put_of_ne t hother, hfind]

end Setup

/-! ### One run -/

/-- **A project that is set up.** -/
structure IsSetUp (t : FileTree) (project : Path) : Prop where
  /-- It has a directory. -/
  home : t.find? (Layout.home project) = some .directory
  /-- It has settings. -/
  settings : isInitialized t project = true
  /-- It has a database. -/
  database : ∃ s, t.find? (databaseFile project) = some (.database s)

/-- **A project that is set up** is left alone. -/
theorem setUp_of_isSetUp (h : IsSetUp t project) :
    setUp t project = (.ok ⟨Layout.home project, false, false⟩, t) := by
  obtain ⟨place, hplace⟩ := Layout.exists_homeAt.1 h.home
  obtain ⟨s, hs⟩ := h.database
  have hitem : t.item? (place ++ ["cronlease.db"]) = some (.database s) :=
    (hplace.find?_join isName_database).symm.trans hs
  have hdatabase : Setup.makeDatabase t project = (.ok (), t) := by
    rcases Setup.makeDatabase_cases hplace with ⟨-, -, hmake⟩ | ⟨hempty, -⟩ | ⟨⟨e, he, hopens⟩, -⟩
    · exact hmake
    · cases hempty _ hitem
    · rw [hs] at he
      cases he
      cases hopens
  rw [setUp, Setup.makeHome_of_find? h.home]
  simp only [Setup.makeSettings_of_isInitialized h.settings, hdatabase]
  rw [FileTree.contains, h.home]
  rfl

/-- **What one run does**: it sets the project up, or there is no directory and there are no
settings, or there are settings and something else than a database is in its place. -/
theorem setUp_cases (t : FileTree) (project : Path) :
    ∃ t', Setup.Preserves project t t' ∧
      ((∃ s, setUp t project = (.ok s, t') ∧ IsSetUp t' project) ∨
        (setUp t project = (.error (.cannotCreate (Layout.home project)), t') ∧
          isInitialized t' project = false) ∨
        (setUp t project = (.error (.cannotInitialize (databaseFile project)), t') ∧
          isInitialized t' project = true ∧
          ∃ e, t'.find? (databaseFile project) = some e ∧ e.opens = false)) := by
  obtain ⟨t₁, hkeeps, ⟨hmake, hhome⟩ | ⟨hmake, hhome⟩⟩ := Setup.makeHome_cases t project
  · obtain ⟨place, hplace⟩ := Layout.exists_homeAt.1 hhome
    obtain ⟨wrote, t₂, hwrite, hkeeps', hsettings⟩ := Setup.makeSettings_of_homeAt hplace
    have hplace' := hplace.keeps hkeeps'
    have hpreserves : Setup.Preserves project t t₂ := .of_keeps (hkeeps.trans hkeeps')
    rw [setUp, hmake]
    simp only [hwrite]
    rcases Setup.makeDatabase_cases hplace' with ⟨s, hs, hopen⟩ | ⟨hempty, hopen⟩ | ⟨he, hopen⟩
    · refine ⟨t₂, hpreserves, .inl ⟨_, by rw [hopen], ?_⟩⟩
      exact ⟨Layout.exists_homeAt.2 ⟨place, hplace'⟩, hsettings, s, hs⟩
    · obtain ⟨hplace'', hdatabase, hpreserves'⟩ := Setup.put_database hplace' hempty
      refine ⟨_, hpreserves.trans hpreserves', .inl ⟨_, by rw [hopen], ?_⟩⟩
      exact ⟨Layout.exists_homeAt.2 ⟨place, hplace''⟩, hpreserves'.isInitialized hsettings, _,
        hdatabase⟩
    · exact ⟨t₂, hpreserves, .inr (.inr ⟨by rw [hopen], hsettings, he⟩)⟩
  · refine ⟨t₁, .of_keeps hkeeps, .inr (.inl ⟨by rw [setUp, hmake], ?_⟩)⟩
    exact Bool.eq_false_iff.2 fun h => hhome (Layout.find?_home_of_isInitialized h)

theorem preserves_setUp (t : FileTree) (project : Path) :
    Setup.Preserves project t (setUp t project).2 := by
  obtain ⟨t', hpreserves, ⟨s, h, -⟩ | ⟨h, -⟩ | ⟨h, -⟩⟩ := setUp_cases t project
  all_goals
    rw [h]
    exact hpreserves

/-- After a run that ended well the project is set up. -/
theorem isSetUp_of_setUp {s : Setup} (hs : (setUp t project).1 = .ok s) :
    IsSetUp (setUp t project).2 project := by
  obtain ⟨t', -, ⟨s', h, hdone⟩ | ⟨h, -⟩ | ⟨h, -⟩⟩ := setUp_cases t project
  · rw [h]
    exact hdone
  · rw [h] at hs
    cases hs
  · rw [h] at hs
    cases hs

/-- **Why a run failed**, and whether the project is initialized then. -/
theorem isInitialized_of_setUp {x : ProjectError} (hx : (setUp t project).1 = .error x) :
    x = .cannotCreate (Layout.home project) ∧ isInitialized t project = false ∧
        isInitialized (setUp t project).2 project = false ∨
      x = .cannotInitialize (databaseFile project) ∧
        isInitialized (setUp t project).2 project = true ∧
        ∃ e, (setUp t project).2.find? (databaseFile project) = some e ∧ e.opens = false := by
  obtain ⟨t', hpreserves, ⟨s, h, -⟩ | ⟨h, hsettings⟩ | ⟨h, hsettings, he⟩⟩ := setUp_cases t project
  · rw [h] at hx
    cases hx
  · rw [h] at hx ⊢
    refine .inl ⟨(Except.error.inj hx).symm, Bool.eq_false_iff.2 fun hbefore => ?_, hsettings⟩
    rw [hpreserves.isInitialized hbefore] at hsettings
    cases hsettings
  · rw [h] at hx ⊢
    exact .inr ⟨(Except.error.inj hx).symm, hsettings, he⟩

/-! ### Any number of runs -/

/-- The tree after a number of runs. -/
def setUps (t : FileTree) (project : Path) : Nat → FileTree
  | 0 => t
  | n + 1 => (setUp (setUps t project n) project).2

theorem preserves_setUps (t : FileTree) (project : Path) (n : Nat) :
    Setup.Preserves project t (setUps t project n) := by
  induction n with
  | zero => exact .of_keeps (.refl t)
  | succ n ih => exact ih.trans (preserves_setUp (setUps t project n) project)

/-- What is set up stays as it is. -/
theorem setUps_of_isSetUp {n m : Nat} (h : IsSetUp (setUps t project n) project) (hm : n ≤ m) :
    setUps t project m = setUps t project n := by
  induction hm with
  | refl => rfl
  | step hm ih => rw [setUps, ih, setUp_of_isSetUp h]

/-- **What setting up a project again and again does**, from any tree; `setUps t project n` is the
tree after `n` runs. -/
structure SetsUpAgain (t : FileTree) (project : Path) : Prop where
  /-- What is there stays, above all the settings. -/
  preserves : ∀ n, Setup.Preserves project t (setUps t project n)
  /-- After a run that ended well there are settings, and every later run ends well and does
  nothing. -/
  ok : ∀ n s, (setUp (setUps t project n) project).1 = .ok s →
    isInitialized (setUps t project (n + 1)) project = true ∧
      ∀ m, n < m → setUp (setUps t project m) project =
        (.ok ⟨Layout.home project, false, false⟩, setUps t project m)
  /-- A run fails because of the directory, or because of something that is no database. -/
  error : ∀ n x, (setUp (setUps t project n) project).1 = .error x →
    x = .cannotCreate (Layout.home project) ∨
      x = .cannotInitialize (databaseFile project) ∧
        ∃ e, (setUps t project (n + 1)).find? (databaseFile project) = some e ∧ e.opens = false
  /-- After a run that failed the project is as initialized as before, unless it failed because of
  the database: then it is initialized. -/
  initialized : ∀ n x, (setUp (setUps t project n) project).1 = .error x →
    isInitialized (setUps t project (n + 1)) project =
      (isInitialized (setUps t project n) project ||
        x = .cannotInitialize (databaseFile project))

/-- **Setting up can be repeated**, whatever there is in the way. -/
theorem setsUpAgain (t : FileTree) (project : Path) : SetsUpAgain t project := by
  refine ⟨preserves_setUps t project, fun n s hs => ?_, fun n x hx => ?_, fun n x hx => ?_⟩
  · have hdone : IsSetUp (setUps t project (n + 1)) project := isSetUp_of_setUp hs
    refine ⟨hdone.settings, fun m hm => ?_⟩
    rw [setUps_of_isSetUp hdone hm]
    exact setUp_of_isSetUp hdone
  · rcases isInitialized_of_setUp hx with ⟨hx, -⟩ | ⟨hx, -, he⟩
    · exact .inl hx
    · exact .inr ⟨hx, he⟩
  · rw [setUps]
    rcases isInitialized_of_setUp hx with ⟨rfl, hbefore, hafter⟩ | ⟨rfl, hafter, -⟩
    · rw [hbefore, hafter]
      rfl
    · rw [hafter, decide_eq_true rfl, Bool.or_true]

/-! An empty file in the database's place is no obstacle. -/

/-- A project with a file that somebody has just touched. -/
def touchedProject : FileTree :=
  { entries := [(["p"], .directory), (["p", ".cronlease"], .directory),
      (["p", ".cronlease", "cronlease.db"], .text "")] }

/-- **The second run finds what the first one made.** -/
theorem setsUpAgain_touchedProject :
    (setUp touchedProject "/p").1 = .ok ⟨"/p/.cronlease", false, true⟩ ∧
      isInitialized (setUps touchedProject "/p" 1) "/p" = true ∧
      (setUp (setUps touchedProject "/p" 1) "/p").1 = .ok ⟨"/p/.cronlease", false, false⟩ := by
  have hfirst : (setUp touchedProject "/p").1 = .ok ⟨"/p/.cronlease", false, true⟩ := by
    decide +kernel
  obtain ⟨hsettings, hagain⟩ := (setsUpAgain touchedProject "/p").ok 0 _ hfirst
  exact ⟨hfirst, hsettings, congrArg Prod.fst (hagain 1 Nat.zero_lt_one)⟩

/-! A directory in the database's place is one. -/

/-- A project that has a directory where its database should be. -/
def blockedProject : FileTree :=
  { entries := [(["p"], .directory), (["p", ".cronlease"], .directory),
      (["p", ".cronlease", "cronlease.db"], .directory)] }

/-- **A run that fails can leave a project initialized that was not.** -/
theorem isInitialized_blockedProject :
    isInitialized blockedProject "/p" = false ∧
      (setUp blockedProject "/p").1 = .error (.cannotInitialize "/p/.cronlease/cronlease.db") ∧
      isInitialized (setUp blockedProject "/p").2 "/p" = true := by
  refine ⟨?_, ?_, ?_⟩ <;> decide +kernel

end Leasehold
