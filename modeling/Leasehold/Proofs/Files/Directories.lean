import Leasehold.Proofs.Files.Writing

/-!
# Directories that are made

Making a directory makes those on the way first, and whatever becomes of that, nothing that stood
somewhere is lost (`Leasehold.FileTree.Keeps`). It ends well just when there is a directory
afterwards (`Leasehold.FileTree.find?_makeDirectories`), and it does nothing when there was one
before (`Leasehold.FileTree.makeDirectories_of_find?`).

A path and the path of a file below it are read in different ways: the former by its steps, the
latter with all its parts. Parts that stay in place matter only where there is no directory, so both
lead to the same directories (`Leasehold.FileTree.walk_filter_iff`).
-/

namespace Leasehold

/-! ### Names behind paths -/

namespace Path

variable {p : Path} {name : String}

/-- **A name**: a part of a path that leads one place on. -/
structure IsName (name : String) : Prop where
  /-- There is no slash in it. -/
  noSlash : '/' ∉ name.toList
  /-- It does not stay in place. -/
  stays : stays name = false
  /-- It does not lead back. -/
  ne_up : name ≠ ".."

/-- **A path that ends in a name**, so that there is a last character and it is no slash. -/
def EndsInName (p : Path) : Prop := ∃ c, p.toList.getLast? = some c ∧ c ≠ '/'

theorem EndsInName.ne_empty (h : p.EndsInName) : p ≠ "" := by
  rintro rfl
  obtain ⟨c, hc, -⟩ := h
  cases hc

theorem EndsInName.getLast?_ne (h : p.EndsInName) : p.toList.getLast? ≠ some '/' := by
  obtain ⟨c, hc, hne⟩ := h
  rw [hc]
  exact fun hslash => hne (Option.some.inj hslash)

theorem IsName.toList_ne_nil (h : IsName name) : name.toList ≠ [] := by
  intro hnil
  have hempty : name = "" := String.toList_eq_nil_iff.1 hnil
  have hstays := h.stays
  rw [hempty] at hstays
  cases hstays

theorem IsName.isAbsolute (h : IsName name) : Path.isAbsolute name = false := by
  refine decide_eq_false fun hhead => h.noSlash ?_
  exact List.mem_of_mem_head? hhead

theorem cut_ne_nil (cs : List Char) : cut cs ≠ [] := by
  cases cs with
  | nil => nofun
  | cons c cs =>
    rw [cut]
    split
    · nofun
    · split <;> nofun

theorem cut_append_slash (cs ds : List Char) : cut (cs ++ '/' :: ds) = cut cs ++ cut ds := by
  induction cs with
  | nil => rfl
  | cons c cs ih =>
    rw [List.cons_append, cut, cut, ih]
    split
    · rfl
    · cases hcut : cut cs with
      | nil => exact absurd hcut (cut_ne_nil cs)
      | cons part rest => rfl

theorem cut_of_noSlash {cs : List Char} (h : '/' ∉ cs) : cut cs = [cs] := by
  induction cs with
  | nil => rfl
  | cons c cs ih =>
    obtain ⟨hc, hcs⟩ := not_or.1 (mt List.mem_cons.2 h)
    rw [cut, if_neg (Ne.symm hc), ih hcs]

theorem toList_join (hname : IsName name) (p : Path) :
    (p.join name).toList = p.toList ++ name.toList ∧
        (p = "" ∨ p.toList.getLast? = some '/') ∨
      (p.join name).toList = p.toList ++ '/' :: name.toList ∧ p.EndsInName := by
  rw [join, hname.isAbsolute]
  simp only [Bool.false_eq_true, if_false]
  split
  · rename_i hend
    exact .inl ⟨String.toList_append, hend⟩
  · rename_i hend
    obtain ⟨hne, hslash⟩ := not_or.1 hend
    refine .inr ⟨?_, ?_⟩
    · rw [String.toList_append, String.toList_append, List.append_assoc]
      rfl
    · have hnil : p.toList ≠ [] := mt String.toList_eq_nil_iff.1 hne
      refine ⟨p.toList.getLast hnil, List.getLast?_eq_some_getLast hnil, fun hlast => hslash ?_⟩
      rw [List.getLast?_eq_some_getLast hnil, hlast]

/-- What a name behind a path ends with. -/
theorem getLast?_join (hname : IsName name) (p : Path) :
    (p.join name).toList.getLast? = name.toList.getLast? := by
  have hlast : ∀ c, name.toList.getLast? = some c → ∀ front : List Char,
      (front ++ name.toList).getLast? = some c := fun c hc front => by
    rw [List.getLast?_append, hc]
    rfl
  have hnil := hname.toList_ne_nil
  rw [List.getLast?_eq_some_getLast hnil]
  rcases toList_join hname p with ⟨h, -⟩ | ⟨h, -⟩
  · rw [h]
    exact hlast _ (List.getLast?_eq_some_getLast hnil) _
  · rw [h, List.append_cons]
    exact hlast _ (List.getLast?_eq_some_getLast hnil) _

theorem endsInName_join (hname : IsName name) (p : Path) : (p.join name).EndsInName := by
  have hnil := hname.toList_ne_nil
  refine ⟨name.toList.getLast hnil, ?_, fun hlast => hname.noSlash ?_⟩
  · rw [getLast?_join hname, List.getLast?_eq_some_getLast hnil]
  · rw [← hlast]
    exact List.getLast_mem hnil

/-- **A name behind a path** is one part more. -/
theorem parts_join (hp : p.EndsInName) (hname : IsName name) :
    (p.join name).parts = p.parts ++ [name] := by
  rcases toList_join hname p with ⟨-, hempty | hslash⟩ | ⟨h, -⟩
  · exact absurd hempty hp.ne_empty
  · exact absurd hslash hp.getLast?_ne
  · rw [parts, h, cut_append_slash, cut_of_noSlash hname.noSlash, List.map_append, parts]
    rw [List.map_singleton, String.ofList_toList]

/-- The last part of a path that ends in a name. -/
theorem mem_parts_join (hname : IsName name) (p : Path) : name ∈ (p.join name).parts := by
  have hcut : [name.toList] = cut name.toList := (cut_of_noSlash hname.noSlash).symm
  have hmem : name ∈ [name.toList].map String.ofList := by
    rw [List.map_singleton, String.ofList_toList]
    exact List.mem_singleton_self name
  rw [hcut] at hmem
  rcases toList_join hname p with ⟨h, hempty | hslash⟩ | ⟨h, -⟩
  · rw [parts, h, hempty]
    exact hmem
  · obtain ⟨front, hfront⟩ := List.getLast?_eq_some_iff.1 hslash
    rw [parts, h, hfront, List.append_assoc, List.singleton_append, cut_append_slash,
      List.map_append]
    exact List.mem_append_right _ hmem
  · rw [parts, h, cut_append_slash, List.map_append]
    exact List.mem_append_right _ hmem

theorem steps_join_ne_nil (hname : IsName name) (p : Path) : (p.join name).steps ≠ [] := by
  refine List.ne_nil_of_mem (a := name) (List.mem_filter.2 ⟨mem_parts_join hname p, ?_⟩)
  rw [hname.stays]
  rfl

theorem isAbsolute_join (hp : p ≠ "") (hname : IsName name) :
    (p.join name).isAbsolute = p.isAbsolute := by
  have hnil : p.toList ≠ [] := mt String.toList_eq_nil_iff.1 hp
  obtain ⟨c, cs, hcs⟩ := List.exists_cons_of_ne_nil hnil
  rcases toList_join hname p with ⟨h, -⟩ | ⟨h, -⟩ <;> rw [isAbsolute, isAbsolute, h, hcs] <;> rfl

end Path

namespace FileTree

variable {t t' t'' : FileTree} {p : Path} {place here there base : Place} {name : String}
  {parts before steps : List String} {e : FileEntry}

/-! ### Places below a directory -/

theorem hasDirectory_iff : t.hasDirectory place = true ↔ t.item? place = some .directory := by
  rw [hasDirectory]
  cases t.item? place with
  | none => simp
  | some e => cases e <;> simp

theorem find?_eq_some :
    t.find? p = some e ↔ ∃ place, t.locate p = .ok place ∧ t.item? place = some e := by
  rw [find?]
  cases t.locate p with
  | ok place => simp
  | error x => simp

theorem walk_append (t : FileTree) (here : Place) (parts rest : List String) :
    t.walk here (parts ++ rest) = (t.walk here parts).bind fun there => t.walk there rest := by
  induction parts generalizing here with
  | nil => rfl
  | cons part parts ih =>
    rw [List.cons_append, walk, walk]
    split_ifs
    · exact ih here
    · exact ih here.dropLast
    · exact ih (here ++ [part])
    · rfl
    · rfl

theorem walk_name (hname : Path.IsName name) :
    t.walk there [name] =
      if t.hasDirectory there then
        if (t.item? (there ++ [name])).isSome then .ok (there ++ [name]) else .error .missing
      else .error .notDirectory := by
  rw [walk, hname.stays]
  simp only [Bool.false_eq_true, if_false, if_neg hname.ne_up, walk]

theorem start_join (hp : p ≠ "") (hname : Path.IsName name) :
    t.start (p.join name) = t.start p := by
  rw [start, start, Path.isAbsolute_join hp hname]

theorem locate_join (hp : p.EndsInName) (hname : Path.IsName name) :
    t.locate (p.join name) = (t.locate p).bind fun there => t.walk there [name] := by
  rw [locate, locate, if_neg hp.ne_empty, if_neg (Path.endsInName_join hname p).ne_empty,
    start_join hp.ne_empty hname, Path.parts_join hp hname, walk_append]

/-- **What a path below a directory leads to** stands in that directory under its name. -/
theorem find?_join (hp : p.EndsInName) (hname : Path.IsName name) (hplace : t.locate p = .ok place)
    (hdirectory : t.hasDirectory place = true) :
    t.find? (p.join name) = t.item? (place ++ [name]) := by
  rw [find?, locate_join hp hname, hplace, Except.bind, walk_name hname, if_pos hdirectory]
  split_ifs with hitem
  · rfl
  · rw [Bool.not_eq_true, Option.isSome_eq_false_iff, Option.isNone_iff_eq_none] at hitem
    rw [hitem]

theorem locate_join_eq_ok (hp : p.EndsInName) (hname : Path.IsName name)
    (hplace : t.locate p = .ok place) (hdirectory : t.hasDirectory place = true)
    (hitem : t.item? (place ++ [name]) = some e) :
    t.locate (p.join name) = .ok (place ++ [name]) := by
  rw [locate_join hp hname, hplace, Except.bind, walk_name hname, if_pos hdirectory, hitem]
  rfl

/-- A new file below a directory would stand there under its name. -/
theorem site?_join (hp : p.EndsInName) (hname : Path.IsName name) (hplace : t.locate p = .ok place)
    (hdirectory : t.hasDirectory place = true) :
    t.site? (p.join name) = some (place ++ [name]) := by
  rw [locate, if_neg hp.ne_empty] at hplace
  rw [site?, Path.parts_join hp hname, List.getLast?_concat, List.dropLast_concat,
    start_join hp.ne_empty hname, hplace]
  simp [hname.stays, hname.ne_up, hdirectory]

/-- **What a path below another one leads to** stands in a directory. -/
theorem find?_of_find?_join (hp : p.EndsInName) (hname : Path.IsName name)
    (h : t.find? (p.join name) = some e) : t.find? p = some .directory := by
  obtain ⟨there, hthere, -⟩ := find?_eq_some.1 h
  rw [locate_join hp hname] at hthere
  cases hplace : t.locate p with
  | error x =>
    rw [hplace] at hthere
    cases hthere
  | ok place =>
    rw [hplace, Except.bind, walk_name hname] at hthere
    split_ifs at hthere with hdirectory
    exact find?_eq_some.2 ⟨place, hplace, hasDirectory_iff.1 hdirectory⟩

/-! ### Nothing is lost -/

/-- **Nothing is lost** from one tree to another: what stands somewhere still stands there. -/
structure Keeps (t t' : FileTree) : Prop where
  /-- One stands where one stood. -/
  here : t'.here = t.here
  /-- What stood somewhere stands there. -/
  item : ∀ place e, t.item? place = some e → t'.item? place = some e

theorem Keeps.refl (t : FileTree) : t.Keeps t := ⟨rfl, fun _ _ h => h⟩

theorem Keeps.trans (h : t.Keeps t') (h' : t'.Keeps t'') : t.Keeps t'' :=
  ⟨h'.here.trans h.here, fun place e hitem => h'.item place e (h.item place e hitem)⟩

/-- Something is put where nothing stood. -/
theorem Keeps.put (h : t.item? place = none) (e : FileEntry) : t.Keeps (t.put place e) := by
  refine ⟨rfl, fun other e' hitem => ?_⟩
  rw [item?_put_of_ne t ?_, hitem]
  rintro rfl
  rw [h] at hitem
  cases hitem

theorem Keeps.hasDirectory (h : t.Keeps t') (hplace : t.hasDirectory place = true) :
    t'.hasDirectory place = true :=
  hasDirectory_iff.2 (h.item place .directory (hasDirectory_iff.1 hplace))

theorem Keeps.walk (h : t.Keeps t') (hwalk : t.walk here parts = .ok there) :
    t'.walk here parts = .ok there := by
  induction parts generalizing here with
  | nil => exact hwalk
  | cons part parts ih =>
    rw [FileTree.walk] at hwalk ⊢
    split_ifs at hwalk with hhere hstays hup hitem
    · rw [if_pos (h.hasDirectory hhere), if_pos hstays]
      exact ih hwalk
    · rw [if_pos (h.hasDirectory hhere), if_neg hstays, if_pos hup]
      exact ih hwalk
    · obtain ⟨e, he⟩ := Option.isSome_iff_exists.1 hitem
      rw [if_pos (h.hasDirectory hhere), if_neg hstays, if_neg hup, h.item _ e he,
        Option.isSome_some, if_pos rfl]
      exact ih hwalk

theorem Keeps.start (h : t.Keeps t') (p : Path) : t'.start p = t.start p := by
  rw [FileTree.start, FileTree.start, h.here]

theorem Keeps.locate (h : t.Keeps t') (hplace : t.locate p = .ok place) :
    t'.locate p = .ok place := by
  rw [FileTree.locate] at hplace ⊢
  split_ifs at hplace ⊢
  rw [h.start]
  exact h.walk hplace

/-- **What a path leads to** it leads to afterwards. -/
theorem Keeps.find? (h : t.Keeps t') (hfind : t.find? p = some e) : t'.find? p = some e := by
  obtain ⟨place, hplace, hitem⟩ := find?_eq_some.1 hfind
  exact find?_eq_some.2 ⟨place, h.locate hplace, h.item place e hitem⟩

/-! ### One directory -/

theorem makeDirectory_of_walk (h : t.walk base before.reverse = .ok place) :
    t.makeDirectory base (name :: before) =
      if !t.hasDirectory place then .error .notDirectory
      else if name = ".." || (t.item? (place ++ [name])).isSome then .error .occupied
      else .ok (t.put (place ++ [name]) .directory) := by
  rw [makeDirectory, h]
  rfl

theorem makeDirectory_eq_ok (h : t.makeDirectory base (name :: before) = .ok t') :
    ∃ place, t.walk base before.reverse = .ok place ∧ t.hasDirectory place = true ∧ name ≠ ".." ∧
      t.item? (place ++ [name]) = none ∧ t' = t.put (place ++ [name]) .directory := by
  cases hwalk : t.walk base before.reverse with
  | error x =>
    rw [makeDirectory, hwalk] at h
    cases h
  | ok place =>
    rw [makeDirectory_of_walk hwalk] at h
    split_ifs at h with hdirectory hname
    simp only [Bool.or_eq_true, decide_eq_true_eq, not_or] at hname
    refine ⟨place, rfl, ?_, hname.1, Option.not_isSome_iff_eq_none.1 hname.2,
      (Except.ok.inj h).symm⟩
    simpa using hdirectory

theorem leadsToDirectory_iff : t.leadsToDirectory base steps = true ↔
    ∃ place, t.walk base steps.reverse = .ok place ∧ t.hasDirectory place = true := by
  rw [leadsToDirectory]
  cases t.walk base steps.reverse with
  | ok place => simp
  | error x => simp

/-- Steps that lead to a directory come by directories. -/
theorem leadsToDirectory_of_cons (h : t.leadsToDirectory base (name :: before) = true) :
    ∃ place, t.walk base before.reverse = .ok place ∧ t.hasDirectory place = true ∧
      t.walk place [name] = t.walk base (name :: before).reverse := by
  obtain ⟨there, hwalk, hthere⟩ := leadsToDirectory_iff.1 h
  rw [List.reverse_cons, walk_append] at hwalk ⊢
  cases hplace : t.walk base before.reverse with
  | error x =>
    rw [hplace] at hwalk
    cases hwalk
  | ok place =>
    rw [hplace] at hwalk
    exact ⟨place, rfl, hasDirectory_of_walk hwalk hthere, rfl⟩

/-- **A directory that was made** is there. -/
theorem leadsToDirectory_of_makeDirectory (hname : Path.stays name = false)
    (h : t.makeDirectory base (name :: before) = .ok t') :
    t.Keeps t' ∧ t'.leadsToDirectory base (name :: before) = true := by
  obtain ⟨place, hwalk, hdirectory, hup, hitem, rfl⟩ := makeDirectory_eq_ok h
  have hkeeps := Keeps.put hitem .directory
  have hmade : (t.put (place ++ [name]) .directory).item? (place ++ [name]) = some .directory :=
    item?_put_self t (by simp) .directory
  refine ⟨hkeeps, leadsToDirectory_iff.2 ⟨place ++ [name], ?_, hasDirectory_iff.2 hmade⟩⟩
  rw [List.reverse_cons]
  exact walk_concat (hkeeps.walk hwalk) (hkeeps.hasDirectory hdirectory) hname hup
    (by rw [hmade]; rfl)

/-- **A directory that is there** is not made again. -/
theorem makeDirectory_of_leadsToDirectory (hname : Path.stays name = false)
    (h : t.leadsToDirectory base (name :: before) = true) :
    t.makeDirectory base (name :: before) = .error .occupied := by
  obtain ⟨place, hwalk, hdirectory, hlast⟩ := leadsToDirectory_of_cons h
  obtain ⟨there, hthere, -⟩ := leadsToDirectory_iff.1 h
  rw [← hlast, walk, if_pos hdirectory, hname] at hthere
  have hoccupied : (decide (name = "..") || (t.item? (place ++ [name])).isSome) = true := by
    by_cases hup : name = ".."
    · rw [decide_eq_true hup, Bool.true_or]
    · simp only [Bool.false_eq_true, if_false, if_neg hup] at hthere
      split_ifs at hthere with hitem
      rw [hitem, Bool.or_true]
  rw [makeDirectory_of_walk hwalk, hdirectory, hoccupied]
  rfl

/-! ### All directories on the way -/

theorem settle_snd (t : FileTree) (base : Place) (steps : List String) (x : FileError) :
    (settle t base steps x).2 = t := by
  rw [settle]
  split_ifs <;> rfl

theorem isOk_settle (t : FileTree) (base : Place) (steps : List String) (x : FileError) :
    (settle t base steps x).1.isOk = t.leadsToDirectory base steps := by
  rw [settle]
  split_ifs with h
  · rw [h]
    rfl
  · rw [Bool.eq_false_iff.2 h]
    rfl

/-- **Making a directory with those on the way** loses nothing, and ends well just when the
directory is there afterwards. -/
theorem makeAll_spec (hsteps : ∀ name ∈ steps, Path.stays name = false) (t : FileTree) :
    t.Keeps (makeAll base steps t).2 ∧ (steps ≠ [] →
      (makeAll base steps t).1.isOk = (makeAll base steps t).2.leadsToDirectory base steps) := by
  induction steps generalizing t with
  | nil => exact ⟨.refl t, fun h => absurd rfl h⟩
  | cons name before ih =>
    obtain ⟨hname, hbefore⟩ := List.forall_mem_cons.1 hsteps
    rw [makeAll]
    split
    · rename_i made hmake
      obtain ⟨hkeeps, hleads⟩ := leadsToDirectory_of_makeDirectory hname hmake
      exact ⟨hkeeps, fun _ => hleads.symm⟩
    · rename_i hmake
      obtain ⟨hkeeps, hok⟩ := ih hbefore t
      split
      · rename_i x t₁ hall
        rw [hall] at hkeeps hok
        refine ⟨hkeeps, fun _ => (Bool.eq_false_iff.2 fun hleads => ?_).symm⟩
        -- What is on the way to a directory would have been found, too.
        obtain ⟨place, hwalk, hdirectory, -⟩ := leadsToDirectory_of_cons hleads
        have hfound := leadsToDirectory_iff.2 ⟨place, hwalk, hdirectory⟩
        have hne : before ≠ [] := by
          rintro rfl
          cases hall
        rw [← hok hne] at hfound
        cases hfound
      · rename_i t₀ t₁ hall
        rw [hall] at hkeeps
        split
        · rename_i made hmake'
          obtain ⟨hkeeps', hleads⟩ := leadsToDirectory_of_makeDirectory hname hmake'
          exact ⟨hkeeps.trans hkeeps', fun _ => hleads.symm⟩
        · rw [isOk_settle, settle_snd]
          exact ⟨hkeeps, fun _ => rfl⟩
    · rw [isOk_settle, settle_snd]
      exact ⟨.refl t, fun _ => rfl⟩

theorem makeAll_of_leadsToDirectory (hsteps : ∀ name ∈ steps, Path.stays name = false)
    (h : t.leadsToDirectory base steps = true) : makeAll base steps t = (.ok t, t) := by
  cases steps with
  | nil => rfl
  | cons name before =>
    have hmake := makeDirectory_of_leadsToDirectory (hsteps name List.mem_cons_self) h
    rw [makeAll, hmake]
    exact if_pos h

/-- **Parts that stay in place** do not matter on the way to a directory. -/
theorem walk_filter_iff (t : FileTree) (here there : Place) (parts : List String) :
    (t.walk here (parts.filter (!Path.stays ·)) = .ok there ∧ t.hasDirectory there = true) ↔
      t.walk here parts = .ok there ∧ t.hasDirectory there = true := by
  induction parts generalizing here with
  | nil => exact Iff.rfl
  | cons part parts ih =>
    cases hstays : Path.stays part with
    | true =>
      rw [List.filter_cons_of_neg (by simp [hstays]), ih, walk]
      by_cases hhere : t.hasDirectory here = true
      · rw [if_pos hhere, if_pos hstays]
      · rw [if_neg hhere]
        constructor
        · exact fun h => absurd (hasDirectory_of_walk h.1 h.2) hhere
        · rintro ⟨hwalk, -⟩
          cases hwalk
    | false =>
      rw [List.filter_cons_of_pos (by simp [hstays]), walk, walk, hstays]
      simp only [Bool.false_eq_true, if_false]
      split_ifs
      · exact ih here.dropLast
      · exact ih (here ++ [part])
      · exact Iff.rfl
      · exact Iff.rfl

/-- The steps of a path lead to a directory just when the path does. -/
theorem leadsToDirectory_steps (hp : p ≠ "") (t : FileTree) :
    t.leadsToDirectory (t.start p) p.steps.reverse = true ↔ t.find? p = some .directory := by
  rw [leadsToDirectory_iff, List.reverse_reverse, find?_eq_some, locate, if_neg hp]
  refine exists_congr fun place => ?_
  rw [Path.steps, walk_filter_iff, hasDirectory_iff]

theorem stays_of_mem_steps : ∀ name ∈ p.steps.reverse, Path.stays name = false := by
  intro name hmem
  simpa using (List.mem_filter.1 (List.mem_reverse.1 hmem)).2

/-- **Making a directory** loses nothing, and it ends well just when the directory is there
afterwards. -/
theorem find?_makeDirectories (hp : p ≠ "") (hsteps : p.steps ≠ []) (t : FileTree) :
    t.Keeps (t.makeDirectories p).2 ∧
      ((t.makeDirectories p).1.isOk = true ↔
        (t.makeDirectories p).2.find? p = some .directory) := by
  have hall : ∀ name ∈ p.steps.reverse, Path.stays name = false := stays_of_mem_steps
  obtain ⟨hkeeps, hok⟩ := @makeAll_spec (t.start p) _ hall t
  have hne : p.steps.reverse ≠ [] := mt List.reverse_eq_nil_iff.1 hsteps
  have hfound := leadsToDirectory_steps hp (makeAll (t.start p) p.steps.reverse t).2
  rw [hkeeps.start, ← hok hne] at hfound
  rw [makeDirectories]
  rcases hmade : makeAll (t.start p) p.steps.reverse t with ⟨_ | made, t₁⟩
  all_goals
    rw [hmade] at hkeeps hfound
    exact ⟨hkeeps, hfound⟩

/-- **A directory that is there** is found, and nothing is made. -/
theorem makeDirectories_of_find? (hp : p ≠ "") (h : t.find? p = some .directory) :
    t.makeDirectories p = (.ok (), t) := by
  rw [makeDirectories, makeAll_of_leadsToDirectory stays_of_mem_steps
    ((leadsToDirectory_steps hp t).2 h)]
  rfl

end FileTree

end Leasehold
