import ClusterInventory.FileSystem

/-! # Places

Nothing that is done to a file system takes a directory away, and making directories leaves every
file as it is. So a path that could be followed leads to the same place afterwards. A path without
two dots does not lead to a file that was there while a directory on its way was missing.
-/

namespace ClusterInventory

namespace FileSystem

/-! ## Entries -/

theorem lookup_filter_ne {entries : List (Place × Entry)} {place other : Place}
    (hOther : other ≠ place) :
    (entries.filter fun e => e.1 ≠ place).lookup other = entries.lookup other := by
  induction entries with
  | nil => rfl
  | cons e rest ih =>
    obtain ⟨there, entry⟩ := e
    by_cases hThere : there = place
    · rw [List.filter_cons_of_neg (by simpa using hThere), ih, List.lookup_cons,
        beq_false_of_ne (hThere ▸ hOther)]
    · rw [List.filter_cons_of_pos (by simpa using hThere), List.lookup_cons, List.lookup_cons, ih]

theorem find?_put {fs : FileSystem} {place : Place} (hPlace : fs.find? place ≠ some .directory)
    (entry : Entry) (other : Place) :
    (fs.put place entry).find? other = if other = place then some entry else fs.find? other := by
  unfold find? at *
  by_cases hSame : other = place
  · subst hSame
    have hBelow : ¬(other.isAbove || other = Place.root) = true := fun hAbove => by
      simp [hAbove] at hPlace
    simp [put, hBelow]
  · rw [if_neg hSame]
    simp only [put, List.lookup_cons, beq_false_of_ne hSame, lookup_filter_ne hSame]

theorem find?_put_of_directory {fs : FileSystem} {place other : Place}
    (hPlace : fs.find? place ≠ some .directory) (entry : Entry)
    (hOther : fs.find? other = some .directory) :
    (fs.put place entry).find? other = some .directory := by
  rw [find?_put hPlace, if_neg]
  · exact hOther
  · rintro rfl
    exact hPlace hOther

structure Grows (fs fs' : FileSystem) : Prop where
  directory : ∀ place, fs.find? place = some .directory → fs'.find? place = some .directory
  file : ∀ place content,
    fs'.find? place = some (.file content) ↔ fs.find? place = some (.file content)

theorem Grows.refl (fs : FileSystem) : fs.Grows fs where
  directory _ := id
  file _ _ := Iff.rfl

theorem Grows.trans {fs more most : FileSystem} (h : fs.Grows more) (hMore : more.Grows most) :
    fs.Grows most where
  directory place hFound := hMore.directory place (h.directory place hFound)
  file place content := (hMore.file place content).trans (h.file place content)

theorem grows_put_directory {fs : FileSystem} {place : Place} (hNone : fs.find? place = none) :
    fs.Grows (fs.put place .directory) := by
  have hFree : fs.find? place ≠ some .directory := by
    rw [hNone]
    exact (Option.some_ne_none _).symm
  constructor
  · intro other hFound
    exact find?_put_of_directory hFree .directory hFound
  · intro other content
    rw [find?_put hFree]
    split
    · rename_i hSame
      rw [hSame, hNone]
      simp
    · rfl

/-! ## Walks -/

theorem walk_cons {fs : FileSystem} {here : Place} (hHere : fs.find? here = some .directory)
    (name : String) (rest : Path) : fs.walk here (name :: rest) = fs.walk (here.next name) rest := by
  rw [walk, hHere]

theorem find?_of_walk_cons {fs : FileSystem} {here place : Place} {name : String} {rest : Path}
    (h : fs.walk here (name :: rest) = .ok place) : fs.find? here = some .directory := by
  rw [walk] at h
  split at h
  · assumption
  · cases h
  · cases h

theorem walk_of_directories {fs fs' : FileSystem}
    (hMore : ∀ place, fs.find? place = some .directory → fs'.find? place = some .directory)
    {here place : Place} {path : Path} (h : fs.walk here path = .ok place) :
    fs'.walk here path = .ok place := by
  induction path generalizing here with
  | nil => exact h
  | cons name rest ih =>
    have hHere := find?_of_walk_cons h
    rw [walk_cons hHere] at h
    rw [walk_cons (hMore here hHere)]
    exact ih h

theorem locate_of_directories {fs fs' : FileSystem}
    (hMore : ∀ place, fs.find? place = some .directory → fs'.find? place = some .directory)
    {place : Place} {path : Path} (h : fs.locate path = .ok place) :
    fs'.locate path = .ok place := by
  unfold locate at *
  split at h
  · cases h
  · rename_i hPath
    rw [if_neg hPath]
    exact walk_of_directories hMore h

/-- A path that ends with a slash leads to a directory. -/
theorem find?_of_walk_slashes {fs : FileSystem} {here place : Place} {path : Path}
    (hSlashes : path.all (· == "") = true) (hPath : path ≠ [])
    (h : fs.walk here path = .ok place) : fs.find? place = some .directory := by
  induction path generalizing here with
  | nil => exact absurd rfl hPath
  | cons name rest ih =>
    obtain ⟨hName, hRest⟩ : name = "" ∧ rest.all (· == "") = true := by
      simpa using hSlashes
    have hHere := find?_of_walk_cons h
    have hStays : here.next name = here := by
      rw [hName]
      rfl
    rw [walk_cons hHere, hStays] at h
    by_cases hLast : rest = []
    · subst hLast
      obtain rfl := Except.ok.inj h
      exact hHere
    · exact ih hRest hLast h

theorem bare_eq_of_walk {fs : FileSystem} {here place : Place} {path : Path}
    (h : fs.walk here path = .ok place) (hPlace : fs.find? place ≠ some .directory) :
    path.bare = path := by
  induction path generalizing here with
  | nil => rfl
  | cons name rest ih =>
    rw [walk_cons (find?_of_walk_cons h)] at h
    rw [Path.bare]
    split
    · rename_i hSlashes
      by_cases hRest : rest = []
      · rw [hRest]
      · exact absurd (find?_of_walk_slashes hSlashes hRest h) hPlace
    · rw [ih h]

theorem bare_eq_of_locate {fs : FileSystem} {place : Place} {path : Path}
    (h : fs.locate path = .ok place) (hPlace : fs.find? place ≠ some .directory) :
    path.bare = path := by
  unfold locate at h
  split at h
  · cases h
  · exact bare_eq_of_walk h hPlace

/-! ## Reading and writing -/

theorem entry_eq (fs : FileSystem) (path : Path) :
    fs.entry path =
      (fs.locate path).bind fun place => (fs.find? place).elim (.error .notFound) .ok := by
  unfold entry
  cases fs.locate path with
  | error e => rfl
  | ok place =>
    simp only [bind, Except.bind]
    cases fs.find? place with
    | none => rfl
    | some e => rfl

theorem entry_eq_ok_iff (fs : FileSystem) (path : Path) (e : Entry) :
    fs.entry path = .ok e ↔ ∃ place, fs.locate path = .ok place ∧ fs.find? place = some e := by
  rw [entry_eq]
  cases fs.locate path with
  | error error => simp [Except.bind]
  | ok place => cases hFound : fs.find? place <;> simp [Except.bind, hFound]

theorem entry_eq_notFound_iff (fs : FileSystem) (path : Path) :
    fs.entry path = .error .notFound ↔ fs.locate path = .error .notFound ∨
      ∃ place, fs.locate path = .ok place ∧ fs.find? place = none := by
  rw [entry_eq]
  cases fs.locate path with
  | error error => simp [Except.bind]
  | ok place => cases hFound : fs.find? place <;> simp [Except.bind, hFound]

theorem read_eq_ok_iff (fs : FileSystem) (path : Path) (text : String) :
    fs.read path = .ok text ↔ fs.entry path = .ok (.file (.text text)) := by
  unfold read
  split <;> simp_all

theorem read_eq_notFound_iff (fs : FileSystem) (path : Path) :
    fs.read path = .error .notFound ↔ fs.entry path = .error .notFound := by
  unfold read
  split <;> simp_all

/-- A file is written at the place that its path leads to, and nowhere else. -/
theorem write_eq_ok_iff (fs fs' : FileSystem) (path : Path) (text : String) :
    fs.write path text = .ok fs' ↔ ∃ place, fs.locate path = .ok place ∧
      fs.find? place ≠ some .directory ∧ fs' = fs.put place (.file (.text text)) := by
  unfold write
  constructor
  · intro h
    cases hPlace : fs.locate path.bare with
    | error e =>
      rw [hPlace] at h
      cases h
    | ok place =>
      rw [hPlace] at h
      simp only [bind, Except.bind] at h
      split at h
      · cases h
      · rename_i hFree
        obtain ⟨hBare, hFree⟩ := not_or.mp hFree
        rw [← Decidable.not_not.mp hBare] at hPlace
        exact ⟨place, hPlace, hFree, (Except.ok.inj h).symm⟩
  · rintro ⟨place, hPlace, hFree, rfl⟩
    have hBare := bare_eq_of_locate hPlace hFree
    rw [hBare, hPlace]
    simp [bind, Except.bind, hFree, pure, Except.pure]

theorem locate_put {fs : FileSystem} {place there : Place} {path : Path}
    (hPlace : fs.find? place ≠ some .directory) (entry : Entry) (h : fs.locate path = .ok there) :
    (fs.put place entry).locate path = .ok there :=
  locate_of_directories (fun _ => find?_put_of_directory hPlace entry) h

/-- What was written can be read. -/
theorem read_of_write {fs fs' : FileSystem} {path : Path} {text : String}
    (h : fs.write path text = .ok fs') : fs'.read path = .ok text := by
  obtain ⟨place, hPlace, hFree, rfl⟩ := (write_eq_ok_iff fs fs' path text).mp h
  rw [read_eq_ok_iff, entry_eq_ok_iff]
  refine ⟨place, locate_put hFree _ hPlace, ?_⟩
  rw [find?_put hFree, if_pos rfl]

/-! ## Directories -/

theorem grows_makeFrom {fs fs' : FileSystem} {made : Bool} {here : Place} {path : Path}
    {result : Except IoError Unit} (h : fs.makeFrom made here path = (result, fs')) :
    fs.Grows fs' := by
  induction path generalizing fs made here with
  | nil =>
    obtain ⟨_, rfl⟩ := Prod.mk.inj h
    exact .refl fs
  | cons name rest ih =>
    rw [makeFrom] at h
    split at h
    · exact ih h
    · obtain ⟨_, rfl⟩ := Prod.mk.inj h
      exact .refl fs
    · rename_i hNone
      exact (grows_put_directory hNone).trans (ih h)

theorem grows_makeDirectories {fs fs' : FileSystem} {path : Path} {result : Except IoError Unit}
    (h : fs.makeDirectories path = (result, fs')) : fs.Grows fs' :=
  grows_makeFrom h

/-- Making the same directories again changes nothing, and fails where it failed. -/
theorem makeFrom_makeFrom {fs fs' : FileSystem} {made : Bool} {here : Place} {path : Path}
    {result : Except IoError Unit} (h : fs.makeFrom made here path = (result, fs')) (again : Bool) :
    ∃ result', fs'.makeFrom again here path = (result', fs') ∧
      (result' = .ok () ↔ result = .ok ()) := by
  induction path generalizing fs made here with
  | nil =>
    obtain ⟨rfl, rfl⟩ := Prod.mk.inj h
    exact ⟨.ok (), rfl, Iff.rfl⟩
  | cons name rest ih =>
    have hGrows := grows_makeFrom h
    rw [makeFrom] at h ⊢
    split at h
    · rename_i hPlace
      rw [hGrows.directory _ hPlace]
      exact ih h
    · rename_i content hPlace
      rw [(hGrows.file _ _).mpr hPlace]
      obtain ⟨rfl, rfl⟩ := Prod.mk.inj h
      exact ⟨_, rfl, by simp⟩
    · rename_i hNone
      have hMade : (fs.put (here.next name) .directory).find? (here.next name) = some .directory := by
        rw [find?_put (by rw [hNone]; simp), if_pos rfl]
      rw [(grows_makeFrom h).directory _ hMade]
      exact ih h

/-! ## Sound file systems -/

def Sound (fs : FileSystem) : Prop :=
  ∀ place name, fs.find? (place ++ [name]) ≠ none → fs.find? place = some .directory

theorem Sound.find?_parent {fs : FileSystem} (hSound : fs.Sound) {here : Place}
    (hHere : fs.find? here = some .directory) : fs.find? here.parent = some .directory := by
  unfold Place.parent
  split
  · rfl
  · split
    · rename_i hAbove
      have hHigher : Place.isAbove (here ++ [".."]) = true := by
        simpa [Place.isAbove] using hAbove
      simp [find?, hHigher]
    · rename_i hBelow
      have hNonempty : here ≠ [] := by
        rintro rfl
        exact hBelow rfl
      apply hSound here.dropLast (here.getLast hNonempty)
      rw [List.dropLast_concat_getLast, hHere]
      exact Option.some_ne_none _

/-- What is no directory yet is named in the directory where it is looked for. -/
theorem Sound.next_eq_append {fs : FileSystem} (hSound : fs.Sound) {here : Place} {name : String}
    (hHere : fs.find? here = some .directory)
    (hNext : fs.find? (here.next name) ≠ some .directory) : here.next name = here ++ [name] := by
  unfold Place.next at *
  split at hNext
  · exact absurd hHere hNext
  · split at hNext
    · exact absurd (hSound.find?_parent hHere) hNext
    · rename_i hIdle hDots
      rw [if_neg hIdle, if_neg hDots]

theorem Sound.put {fs : FileSystem} (hSound : fs.Sound) {here : Place} {name : String}
    (hHere : fs.find? here = some .directory)
    (hNext : fs.find? (here ++ [name]) ≠ some .directory) (entry : Entry) :
    (fs.put (here ++ [name]) entry).Sound := by
  intro place other hFound
  apply find?_put_of_directory hNext
  rw [find?_put hNext] at hFound
  split at hFound
  · rename_i hSame
    rw [(List.append_inj' hSame rfl).1]
    exact hHere
  · exact hSound place other hFound

theorem Sound.makeFrom {fs fs' : FileSystem} (hSound : fs.Sound) {made : Bool} {here : Place}
    (hHere : fs.find? here = some .directory) {path : Path} {result : Except IoError Unit}
    (h : fs.makeFrom made here path = (result, fs')) : fs'.Sound := by
  induction path generalizing fs made here with
  | nil =>
    obtain ⟨_, rfl⟩ := Prod.mk.inj h
    exact hSound
  | cons name rest ih =>
    rw [FileSystem.makeFrom] at h
    split at h
    · rename_i hPlace
      exact ih hSound hPlace h
    · obtain ⟨_, rfl⟩ := Prod.mk.inj h
      exact hSound
    · rename_i hNone
      have hFree : fs.find? (here.next name) ≠ some .directory := by
        rw [hNone]
        exact (Option.some_ne_none _).symm
      have hNext := hSound.next_eq_append hHere hFree
      rw [hNext] at h hFree
      exact ih (hSound.put hHere hFree .directory) (by rw [find?_put hFree, if_pos rfl]) h

theorem Sound.makeDirectories {fs fs' : FileSystem} (hSound : fs.Sound) {path : Path}
    {result : Except IoError Unit} (h : fs.makeDirectories path = (result, fs')) : fs'.Sound :=
  hSound.makeFrom rfl h

theorem Sound.exists_directory_of_walk {fs : FileSystem} (hSound : fs.Sound) {here place : Place}
    (hHere : fs.find? here = some .directory) {path : Path} (h : fs.walk here path = .ok place)
    (hPlace : fs.find? place ≠ some .directory) :
    ∃ directory name, place = directory ++ [name] ∧ fs.find? directory = some .directory := by
  induction path generalizing here with
  | nil =>
    obtain rfl := Except.ok.inj h
    exact absurd hHere hPlace
  | cons name rest ih =>
    rw [walk_cons hHere] at h
    by_cases hNext : fs.find? (here.next name) = some .directory
    · exact ih hNext h
    · cases rest with
      | nil =>
        obtain rfl := Except.ok.inj h
        exact ⟨here, name, hSound.next_eq_append hHere hNext, hHere⟩
      | cons => exact absurd (find?_of_walk_cons h) hNext

theorem Sound.write {fs fs' : FileSystem} (hSound : fs.Sound) {path : Path} {text : String}
    (h : fs.write path text = .ok fs') : fs'.Sound := by
  obtain ⟨place, hPlace, hFree, rfl⟩ := (write_eq_ok_iff fs fs' path text).mp h
  unfold locate at hPlace
  split at hPlace
  · cases hPlace
  · obtain ⟨directory, name, rfl, hDirectory⟩ := hSound.exists_directory_of_walk rfl hPlace hFree
    exact hSound.put hDirectory hFree _

/-! ## Paths without two dots -/

theorem Sound.find?_append {fs : FileSystem} (hSound : fs.Sound) {here : Place}
    (hNone : fs.find? here = none) (names : List String) : fs.find? (here ++ names) = none := by
  induction names generalizing here with
  | nil => rwa [List.append_nil]
  | cons name rest ih =>
    have hNext : fs.find? (here ++ [name]) = none := by
      cases hFound : fs.find? (here ++ [name]) with
      | none => rfl
      | some e =>
        have hHere := hSound here name (by rw [hFound]; exact Option.some_ne_none e)
        rw [hNone] at hHere
        cases hHere
    rw [List.append_cons]
    exact ih hNext

theorem exists_append_of_walk {fs : FileSystem} {here place : Place} {path : Path}
    (hStraight : ".." ∉ path) (h : fs.walk here path = .ok place) :
    ∃ names, place = here ++ names := by
  induction path generalizing here with
  | nil =>
    obtain rfl := Except.ok.inj h
    exact ⟨[], (List.append_nil here).symm⟩
  | cons name rest ih =>
    obtain ⟨hName, hRest⟩ := List.ne_and_not_mem_of_not_mem_cons hStraight
    rw [walk_cons (find?_of_walk_cons h)] at h
    obtain ⟨names, rfl⟩ := ih hRest h
    unfold Place.next
    split
    · exact ⟨names, rfl⟩
    · rw [if_neg hName.symm, ← List.append_cons]
      exact ⟨name :: names, rfl⟩

/-- Where nothing was found before, there is no old file after directories were made. -/
theorem find?_of_missing {fs made : FileSystem} (hSound : fs.Sound) (hGrows : fs.Grows made)
    {here place : Place} {path : Path} (hStraight : ".." ∉ path)
    (hMissing : fs.walk here path = .error .notFound ∨
      ∃ there, fs.walk here path = .ok there ∧ fs.find? there = none)
    (h : made.walk here path = .ok place) : fs.find? place = none := by
  induction path generalizing here with
  | nil =>
    obtain rfl := Except.ok.inj h
    obtain hMissing | ⟨there, hThere, hNone⟩ := hMissing
    · cases hMissing
    · obtain rfl := Except.ok.inj hThere
      exact hNone
  | cons name rest ih =>
    cases hHere : fs.find? here with
    | none =>
      obtain ⟨names, rfl⟩ := exists_append_of_walk hStraight h
      exact hSound.find?_append hHere names
    | some e =>
      cases e with
      | directory =>
        rw [walk_cons (hGrows.directory here hHere)] at h
        rw [walk_cons hHere] at hMissing
        exact ih (List.not_mem_of_not_mem_cons hStraight) hMissing h
      | file content =>
        have hFile := (hGrows.file here content).mpr hHere
        rw [find?_of_walk_cons h] at hFile
        cases hFile

theorem ne_file_of_missing {fs made : FileSystem} (hSound : fs.Sound) (hGrows : fs.Grows made)
    {path : Path} (hStraight : ".." ∉ path) (hMissing : fs.entry path = .error .notFound)
    (content : Content) : made.entry path ≠ .ok (.file content) := by
  intro hEntry
  obtain ⟨place, hPlace, hFile⟩ := (entry_eq_ok_iff made path _).mp hEntry
  rw [entry_eq_notFound_iff] at hMissing
  unfold locate at hPlace hMissing
  split at hPlace
  · cases hPlace
  · rename_i hPath
    rw [if_neg hPath] at hMissing
    have hNone := find?_of_missing hSound hGrows hStraight hMissing hPlace
    rw [(hGrows.file place content).mp hFile] at hNone
    cases hNone

end FileSystem

end ClusterInventory
