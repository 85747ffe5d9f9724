import Leasehold.Files.Tree
import Mathlib.Data.List.Basic

/-!
# Files read back

A text that was written into a file is what the file is read as
(`Leasehold.FileTree.readText?_put`), and writing another one afterwards is the same as writing that
one at once (`Leasehold.FileTree.writeText?_put`).

A path is followed through directories only, and a text is never put where a directory stands, so
writing changes nothing on the way to any place that could be reached
(`Leasehold.FileTree.walk_put`).
-/

namespace Leasehold.FileTree

/-- **A text can be written at a path**: there is a directory for the file, and none in its
place. -/
def IsWritable (t : FileTree) (p : Path) : Prop :=
  ∃ place, t.site? p = some place ∧ t.hasDirectory place = false

variable {t : FileTree} {place : Place} {e : FileEntry}

theorem hasDirectory_put_of_ne {other : Place} (h : other ≠ place) :
    (t.put place e).hasDirectory other = t.hasDirectory other := by
  rw [hasDirectory, hasDirectory, item?_put_of_ne t h]

theorem put_put (t : FileTree) (place : Place) (e e' : FileEntry) :
    (t.put place e).put place e' = t.put place e' := by
  simp [put, List.filter_filter]

/-! ### Paths -/

/-- A path that leads to a directory starts at one. -/
theorem hasDirectory_of_walk {parts : List String} {here there : Place}
    (h : t.walk here parts = .ok there) (hthere : t.hasDirectory there = true) :
    t.hasDirectory here = true := by
  cases parts with
  | nil =>
    cases h
    exact hthere
  | cons part parts =>
    by_contra hnot
    rw [walk, if_neg hnot] at h
    cases h

/-- **What is put where no directory stands** does not change where other paths lead. -/
theorem walk_put (hplace : t.hasDirectory place = false) {parts : List String}
    {here there : Place} (h : t.walk here parts = .ok there)
    (hthere : t.hasDirectory there = true) : (t.put place e).walk here parts = .ok there := by
  have hother : ∀ {p : Place}, t.hasDirectory p = true → p ≠ place := by
    rintro p hp rfl
    rw [hplace] at hp
    cases hp
  induction parts generalizing here with
  | nil => exact h
  | cons part parts ih =>
    have hhere := hasDirectory_of_walk h hthere
    have hkept : (t.put place e).hasDirectory here = true := by
      rw [hasDirectory_put_of_ne (hother hhere), hhere]
    rw [walk, if_pos hhere] at h
    rw [walk, if_pos hkept]
    split_ifs at h ⊢ with hstays hup hmissing
    · exact ih h
    · exact ih h
    · exact ih h
    · rename_i hitem
      -- The part leads to a directory, which is not where something was put.
      have hnext := hother (hasDirectory_of_walk h hthere)
      rw [item?_put_of_ne t hnext] at hmissing
      exact absurd hitem hmissing

/-- One part more leads to what stands there under its name. -/
theorem walk_concat {parts : List String} {here there : Place} {name : String}
    (h : t.walk here parts = .ok there) (hthere : t.hasDirectory there = true)
    (hstays : Path.stays name = false) (hup : name ≠ "..")
    (hitem : (t.item? (there ++ [name])).isSome = true) :
    t.walk here (parts ++ [name]) = .ok (there ++ [name]) := by
  induction parts generalizing here with
  | nil =>
    cases h
    rw [List.nil_append, walk, if_pos hthere, if_neg (Bool.eq_false_iff.1 hstays), if_neg hup,
      if_pos hitem]
    rfl
  | cons part parts ih =>
    have hhere := hasDirectory_of_walk h hthere
    rw [walk, if_pos hhere] at h
    rw [List.cons_append, walk, if_pos hhere]
    split_ifs at h ⊢
    · exact ih h
    · exact ih h
    · exact ih h

/-! ### Sites -/

/-- **Where a file of a path would stand**: under its name in the directory that the rest of the
path leads to. -/
theorem site?_eq_some {p : Path} (h : t.site? p = some place) :
    ∃ directory name, p.parts = p.parts.dropLast ++ [name] ∧ Path.stays name = false ∧
      name ≠ ".." ∧ t.walk (t.start p) p.parts.dropLast = .ok directory ∧
      t.hasDirectory directory = true ∧ place = directory ++ [name] := by
  unfold site? at h
  split at h
  · cases h
  · rename_i name hname
    split at h
    · cases h
    · rename_i hplain
      simp only [Bool.or_eq_true, decide_eq_true_eq, not_or, Bool.not_eq_true] at hplain
      split at h
      · rename_i directory hwalk
        split at h
        · rename_i hdirectory
          cases h
          exact ⟨directory, name, (List.dropLast_append_getLast? name hname).symm, hplain.1,
            hplain.2, hwalk, hdirectory, rfl⟩
        · cases h
      · cases h

theorem ne_concat (directory : Place) (name : String) : directory ≠ directory ++ [name] := by
  intro h
  have hlength := congrArg List.length h
  simp at hlength

/-- Something written at a path stands where it would stand now. -/
theorem site?_put {p : Path} (h : t.site? p = some place) (hplace : t.hasDirectory place = false) :
    (t.put place e).site? p = some place := by
  obtain ⟨directory, name, hparts, hstays, hup, hwalk, hdirectory, rfl⟩ := site?_eq_some h
  have hlast : p.parts.getLast? = some name := by
    rw [hparts]
    exact List.getLast?_concat
  have hkept : (t.put (directory ++ [name]) e).walk ((t.put (directory ++ [name]) e).start p)
      p.parts.dropLast = .ok directory := walk_put hplace hwalk hdirectory
  have hthere : (t.put (directory ++ [name]) e).hasDirectory directory = true := by
    rw [hasDirectory_put_of_ne (ne_concat directory name), hdirectory]
  simp [site?, hlast, hstays, hup, hkept, hthere]

/-- **What was put at the place of a path** is what the path leads to. -/
theorem find?_put {p : Path} (h : t.site? p = some place) (hplace : t.hasDirectory place = false) :
    (t.put place e).find? p = some e := by
  obtain ⟨directory, name, hparts, hstays, hup, hwalk, hdirectory, rfl⟩ := site?_eq_some h
  have hroot : directory ++ [name] ≠ [] := by simp
  have hitem := item?_put_self t hroot e
  have hne : p ≠ "" := by
    rintro rfl
    have hempty : Path.parts "" = [""] := rfl
    rw [hempty] at hparts
    obtain rfl : "" = name := by simpa using hparts
    cases hstays
  have hthere : (t.put (directory ++ [name]) e).hasDirectory directory = true := by
    rw [hasDirectory_put_of_ne (ne_concat directory name), hdirectory]
  have hlocate : (t.put (directory ++ [name]) e).locate p = .ok (directory ++ [name]) := by
    rw [locate, if_neg hne, hparts]
    exact walk_concat (walk_put hplace hwalk hdirectory) hthere hstays hup
      (by rw [hitem]; rfl)
  rw [find?, hlocate]
  exact hitem

/-- **A text that was written** is what the file is read as. -/
theorem readText?_put {p : Path} (h : t.site? p = some place)
    (hplace : t.hasDirectory place = false) (s : String) :
    (t.put place (.text s)).readText? p = some s := by
  rw [readText?, find?_put h hplace]

theorem writeText?_of_site {p : Path} (h : t.site? p = some place)
    (hplace : t.hasDirectory place = false) (s : String) :
    t.writeText? p s = some (t.put place (.text s)) := by
  rw [writeText?, h, Option.bind_eq_bind, Option.bind_some, hplace]
  rfl

/-- **A second text** replaces the first. -/
theorem writeText?_put {p : Path} (h : t.site? p = some place)
    (hplace : t.hasDirectory place = false) (s s' : String) :
    (t.put place (.text s)).writeText? p s' = some (t.put place (.text s')) := by
  have hroot : place ≠ [] := by
    obtain ⟨directory, name, -, -, -, -, -, rfl⟩ := site?_eq_some h
    simp
  have hfree : (t.put place (.text s)).hasDirectory place = false := by
    rw [hasDirectory, item?_put_self t hroot]
  rw [writeText?_of_site (site?_put h hplace) hfree, put_put]

end Leasehold.FileTree
