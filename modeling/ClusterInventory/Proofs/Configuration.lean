import ClusterInventory.Config
import ClusterInventory.Proofs.Places

/-! # Loading a configuration

A configuration is read, and only where the default path cannot be opened because nothing is there a
default one is written. Such a path may yet lead to a file once its missing directories are made,
and then the text of that file is lost. It takes two dots after a directory that is missing.
-/

namespace ClusterInventory

def FileSystem.Keeps (fs fs' : FileSystem) : Prop :=
  ∀ place content, fs.find? place = some (.file content) → fs'.find? place = some (.file content)

theorem FileSystem.Grows.keeps {fs fs' : FileSystem} (h : fs.Grows fs') : fs.Keeps fs' :=
  fun place content => (h.file place content).mpr

namespace Config

theorem load_eq_ok_iff (fs : FileSystem) (path : String) (c : Config) :
    load fs path = .ok c ↔
      ∃ text, fs.read (Path.ofText path) = .ok text ∧ ofYaml? text = some c := by
  unfold load
  split
  · rename_i hRead
    simp [hRead]
  · rename_i text hRead
    split
    · rename_i hParse
      simp [hRead, hParse]
    · rename_i hParse
      simp [hRead, hParse]

theorem load_eq_notFound_iff (fs : FileSystem) (path : String) :
    load fs path = .error (.io .notFound) ↔ fs.read (Path.ofText path) = .error .notFound := by
  unfold load
  split
  · rename_i hRead
    simp [hRead]
  · rename_i text hRead
    split
    · simp [hRead]
    · simp [hRead]

/-- The default configuration can be read back. -/
theorem ofYaml?_toYaml_default : ofYaml? ({} : Config).toYaml = some {} := by
  decide +kernel

/-! ## Saving -/

theorem save_eq_ok_iff (c : Config) (fs fs' : FileSystem) (path : String) :
    c.save fs path = (.ok (), fs') ↔
      ∃ made, fs.makeDirectories (Path.ofText path).directory = (.ok (), made) ∧
        made.write (Path.ofText path) c.toYaml = .ok fs' := by
  unfold save
  split
  · rename_i hMade
    simp [hMade]
  · rename_i made hMade
    split
    · rename_i hWrite
      simp [hMade, hWrite]
    · rename_i written hWrite
      simp [hMade, hWrite]

/-- Where a configuration cannot be saved, only directories are new, and it will not be saved the
next time. -/
theorem of_save_eq_error {c : Config} {fs fs' : FileSystem} {path : String} {e : Failure}
    (h : c.save fs path = (.error e, fs')) : fs.Grows fs' ∧ (c.save fs' path).2 = fs' := by
  unfold save at h
  split at h
  · rename_i error made hMade
    obtain ⟨_, rfl⟩ := Prod.mk.inj h
    refine ⟨FileSystem.grows_makeDirectories hMade, ?_⟩
    obtain ⟨result, hAgain, hResult⟩ := FileSystem.makeFrom_makeFrom hMade false
    have hFails : result ≠ .ok () := fun hOk => by cases hResult.mp hOk
    unfold save FileSystem.makeDirectories
    rw [hAgain]
    cases result with
    | error => rfl
    | ok => exact absurd rfl hFails
  · rename_i made hMade
    split at h
    · rename_i error hWrite
      obtain ⟨_, rfl⟩ := Prod.mk.inj h
      refine ⟨FileSystem.grows_makeDirectories hMade, ?_⟩
      obtain ⟨result, hAgain, hResult⟩ := FileSystem.makeFrom_makeFrom hMade false
      obtain rfl := hResult.mpr rfl
      unfold save FileSystem.makeDirectories
      rw [hAgain]
      simp only [hWrite]
    · cases h

theorem load_of_save {c : Config} {fs fs' : FileSystem} {path : String}
    (h : c.save fs path = (.ok (), fs')) (hText : ofYaml? c.toYaml = some c) :
    load fs' path = .ok c := by
  obtain ⟨made, _, hWrite⟩ := (save_eq_ok_iff c fs fs' path).mp h
  rw [load_eq_ok_iff]
  exact ⟨c.toYaml, FileSystem.read_of_write hWrite, hText⟩

theorem sound_save {c : Config} {fs fs' : FileSystem} (hSound : fs.Sound) {path : String}
    {result : Except Failure Unit} (h : c.save fs path = (result, fs')) : fs'.Sound := by
  unfold save at h
  split at h
  · rename_i hMade
    obtain ⟨_, rfl⟩ := Prod.mk.inj h
    exact hSound.makeDirectories hMade
  · rename_i hMade
    split at h
    · obtain ⟨_, rfl⟩ := Prod.mk.inj h
      exact hSound.makeDirectories hMade
    · rename_i hWrite
      obtain ⟨_, rfl⟩ := Prod.mk.inj h
      exact (hSound.makeDirectories hMade).write hWrite

/-! ## Loading or creating -/

variable (env : Environment) (fs : FileSystem)

/-- Without a path the default file is loaded, or it is missing and is saved or not. -/
theorem loadOrCreate_cases :
    (load fs (defaultPath env) ≠ .error (.io .notFound) ∧
      loadOrCreate env fs none = ⟨load fs (defaultPath env), fs, []⟩) ∨
    load fs (defaultPath env) = .error (.io .notFound) ∧ ∃ log fs',
      (({} : Config).save fs (defaultPath env) = (.ok (), fs') ∧
        loadOrCreate env fs none = ⟨.ok {}, fs', log⟩) ∨
      ∃ e, ({} : Config).save fs (defaultPath env) = (.error e, fs') ∧
        loadOrCreate env fs none = ⟨.error e, fs', log⟩ := by
  by_cases hMissing : load fs (defaultPath env) = .error (.io .notFound)
  · refine .inr ⟨hMissing, ?_⟩
    simp only [loadOrCreate, hMissing]
    generalize ({} : Config).save fs (defaultPath env) = saved
    obtain ⟨result, fs'⟩ := saved
    cases result with
    | error e => exact ⟨_, fs', .inr ⟨e, rfl, rfl⟩⟩
    | ok => exact ⟨_, fs', .inl ⟨rfl, rfl⟩⟩
  · refine .inl ⟨hMissing, ?_⟩
    simp only [loadOrCreate]

theorem loadOrCreate_of_load_eq_ok {c : Config} (h : load fs (defaultPath env) = .ok c) :
    loadOrCreate env fs none = ⟨.ok c, fs, []⟩ := by
  obtain ⟨_, hLoaded⟩ | ⟨hMissing, _⟩ := loadOrCreate_cases env fs
  · rw [hLoaded, h]
  · rw [h] at hMissing
    cases hMissing

theorem sound_loadOrCreate (hSound : fs.Sound) (path : Option String) :
    (loadOrCreate env fs path).fileSystem.Sound := by
  cases path with
  | some path => exact hSound
  | none =>
    obtain ⟨_, hLoaded⟩ | ⟨_, log, fs', ⟨hSave, hLoaded⟩ | ⟨e, hSave, hLoaded⟩⟩ :=
      loadOrCreate_cases env fs
    · rw [hLoaded]
      exact hSound
    · rw [hLoaded]
      exact sound_save hSound hSave
    · rw [hLoaded]
      exact sound_save hSound hSave

/-- After a success the same is loaded again. -/
theorem loadOrCreate_of_ok {c : Config} (h : (loadOrCreate env fs none).result = .ok c) :
    loadOrCreate env (loadOrCreate env fs none).fileSystem none =
      ⟨.ok c, (loadOrCreate env fs none).fileSystem, []⟩ := by
  obtain ⟨_, hLoaded⟩ | ⟨_, log, fs', ⟨hSave, hLoaded⟩ | ⟨e, _, hLoaded⟩⟩ :=
    loadOrCreate_cases env fs
  · rw [hLoaded] at h ⊢
    exact loadOrCreate_of_load_eq_ok env fs h
  · rw [hLoaded] at h ⊢
    obtain rfl := Except.ok.inj h
    exact loadOrCreate_of_load_eq_ok env fs' (load_of_save hSave ofYaml?_toYaml_default)
  · rw [hLoaded] at h
    cases h

/-- Trying again changes nothing more. -/
theorem fileSystem_loadOrCreate_loadOrCreate :
    (loadOrCreate env (loadOrCreate env fs none).fileSystem none).fileSystem =
      (loadOrCreate env fs none).fileSystem := by
  obtain ⟨_, hLoaded⟩ | ⟨_, log, fs', ⟨_, hLoaded⟩ | ⟨e, hSave, hLoaded⟩⟩ :=
    loadOrCreate_cases env fs
  · rw [hLoaded, hLoaded]
  · rw [loadOrCreate_of_ok env fs (congrArg Loaded.result hLoaded)]
  · rw [hLoaded]
    have hSame := (of_save_eq_error hSave).2
    obtain ⟨_, hAgain⟩ | ⟨_, _, _, ⟨hSaved, hAgain⟩ | ⟨_, hSaved, hAgain⟩⟩ :=
      loadOrCreate_cases env fs'
    · rw [hAgain]
    · rw [hSaved] at hSame
      rw [hAgain]
      exact hSame
    · rw [hSaved] at hSame
      rw [hAgain]
      exact hSame

/-- The default path leads to nothing, but once its directories are made it leads to a file that has
been there all along. -/
structure Overwrites (content : Content) : Prop where
  missing : fs.read (Path.ofText (defaultPath env)) = .error .notFound
  present : ∃ made,
    fs.makeDirectories (Path.ofText (defaultPath env)).directory = (.ok (), made) ∧
      made.entry (Path.ofText (defaultPath env)) = .ok (.file content)

theorem keeps_loadOrCreate_iff :
    fs.Keeps (loadOrCreate env fs none).fileSystem ↔
      ∀ content, Overwrites env fs content → content = .text ({} : Config).toYaml := by
  obtain ⟨hPresent, hLoaded⟩ | ⟨hMissing, log, fs', ⟨hSave, hLoaded⟩ | ⟨e, hSave, hLoaded⟩⟩ :=
    loadOrCreate_cases env fs
  · rw [hLoaded]
    refine iff_of_true (fun _ _ => id) fun content hOverwrites => ?_
    exact absurd ((load_eq_notFound_iff fs _).mpr hOverwrites.missing) hPresent
  · rw [hLoaded]
    obtain ⟨made, hMade, hWrite⟩ := (save_eq_ok_iff {} fs fs' _).mp hSave
    obtain ⟨place, hPlace, hFree, rfl⟩ := (FileSystem.write_eq_ok_iff made fs' _ _).mp hWrite
    have hGrows := FileSystem.grows_makeDirectories hMade
    constructor
    · rintro hKeeps content ⟨_, made', hMade', hEntry⟩
      obtain rfl : made = made' := (Prod.mk.inj (hMade.symm.trans hMade')).2
      obtain ⟨place', hPlace', hFile⟩ := (FileSystem.entry_eq_ok_iff made _ _).mp hEntry
      obtain rfl : place = place' := Except.ok.inj (hPlace.symm.trans hPlace')
      have hStill := hKeeps place content ((hGrows.file place content).mp hFile)
      rw [FileSystem.find?_put hFree, if_pos rfl] at hStill
      injection hStill with hEntry
      injection hEntry with hContent
      exact hContent.symm
    · intro hSame other content hFound
      rw [← hGrows.file] at hFound
      rw [FileSystem.find?_put hFree]
      split
      · rename_i hPlace'
        subst hPlace'
        have hEntry := (FileSystem.entry_eq_ok_iff made _ _).mpr ⟨other, hPlace, hFound⟩
        rw [hSame content ⟨(load_eq_notFound_iff fs _).mp hMissing, made, hMade, hEntry⟩]
      · exact hFound
  · rw [hLoaded]
    refine iff_of_true (of_save_eq_error hSave).1.keeps fun content hOverwrites => ?_
    obtain ⟨made, hMade, hEntry⟩ := hOverwrites.present
    obtain ⟨place, hPlace, hFile⟩ := (FileSystem.entry_eq_ok_iff made _ _).mp hEntry
    have hWrite := (FileSystem.write_eq_ok_iff made _ _ ({} : Config).toYaml).mpr
      ⟨place, hPlace, by rw [hFile]; simp, rfl⟩
    rw [(save_eq_ok_iff {} fs _ _).mpr ⟨made, hMade, hWrite⟩] at hSave
    cases hSave

/-- Without two dots a default path that leads to nothing does not lead to an old file. -/
theorem not_overwrites_of_straight (hSound : fs.Sound)
    (hStraight : ".." ∉ Path.ofText (defaultPath env)) (content : Content) :
    ¬Overwrites env fs content := by
  rintro ⟨hMissing, made, hMade, hEntry⟩
  rw [FileSystem.read_eq_notFound_iff] at hMissing
  exact FileSystem.ne_file_of_missing hSound (FileSystem.grows_makeDirectories hMade) hStraight
    hMissing content hEntry

structure Loads : Prop where
  explicit : ∀ path, (loadOrCreate env fs (some path)).fileSystem = fs ∧
    ∀ c, (loadOrCreate env fs (some path)).result = .ok c ↔
      ∃ text, fs.read (Path.ofText path) = .ok text ∧ ofYaml? text = some c
  readable : ∀ text, fs.read (Path.ofText (defaultPath env)) = .ok text →
    (loadOrCreate env fs none).fileSystem = fs ∧
      (loadOrCreate env fs none).result = (ofYaml? text).elim (.error .format) .ok
  unreadable : ∀ e, fs.read (Path.ofText (defaultPath env)) = .error e → e ≠ .notFound →
    (loadOrCreate env fs none).fileSystem = fs ∧
      (loadOrCreate env fs none).result = .error (.io e)
  created : ∀ c, fs.read (Path.ofText (defaultPath env)) = .error .notFound →
    (loadOrCreate env fs none).result = .ok c → c = {} ∧
      (loadOrCreate env fs none).fileSystem.read (Path.ofText (defaultPath env)) =
        .ok ({} : Config).toYaml ∧
      ∃ place, (loadOrCreate env fs none).fileSystem.locate (Path.ofText (defaultPath env)) =
          .ok place ∧
        ∀ other content, other ≠ place →
          ((loadOrCreate env fs none).fileSystem.find? other = some (.file content) ↔
            fs.find? other = some (.file content))
  refused : ∀ e, fs.read (Path.ofText (defaultPath env)) = .error .notFound →
    (loadOrCreate env fs none).result = .error e → fs.Grows (loadOrCreate env fs none).fileSystem

theorem loads : Loads env fs where
  explicit path := ⟨rfl, load_eq_ok_iff fs path⟩
  readable text hRead := by
    obtain ⟨_, hLoaded⟩ | ⟨hMissing, _⟩ := loadOrCreate_cases env fs
    · rw [hLoaded]
      refine ⟨rfl, ?_⟩
      simp only [load, hRead]
      cases ofYaml? text with
      | none => rfl
      | some c => rfl
    · rw [load_eq_notFound_iff, hRead] at hMissing
      cases hMissing
  unreadable e hRead hOther := by
    obtain ⟨_, hLoaded⟩ | ⟨hMissing, _⟩ := loadOrCreate_cases env fs
    · rw [hLoaded]
      simp only [load, hRead, and_self]
    · rw [load_eq_notFound_iff, hRead] at hMissing
      exact absurd (Except.error.inj hMissing) hOther
  created c hRead hResult := by
    obtain ⟨hPresent, _⟩ | ⟨_, log, fs', ⟨hSave, hLoaded⟩ | ⟨e, _, hLoaded⟩⟩ :=
      loadOrCreate_cases env fs
    · exact absurd ((load_eq_notFound_iff fs _).mpr hRead) hPresent
    · rw [hLoaded] at hResult ⊢
      obtain rfl := Except.ok.inj hResult
      obtain ⟨made, hMade, hWrite⟩ := (save_eq_ok_iff {} fs fs' _).mp hSave
      refine ⟨rfl, FileSystem.read_of_write hWrite, ?_⟩
      obtain ⟨place, hPlace, hFree, rfl⟩ := (FileSystem.write_eq_ok_iff made fs' _ _).mp hWrite
      refine ⟨place, FileSystem.locate_put hFree _ hPlace, fun other content hOther => ?_⟩
      rw [FileSystem.find?_put hFree, if_neg hOther]
      exact (FileSystem.grows_makeDirectories hMade).file other content
    · rw [hLoaded] at hResult
      cases hResult
  refused e hRead hResult := by
    obtain ⟨hPresent, _⟩ | ⟨_, log, fs', ⟨_, hLoaded⟩ | ⟨e, hSave, hLoaded⟩⟩ :=
      loadOrCreate_cases env fs
    · exact absurd ((load_eq_notFound_iff fs _).mpr hRead) hPresent
    · rw [hLoaded] at hResult
      cases hResult
    · rw [hLoaded]
      exact (of_save_eq_error hSave).1

/-! ## Many steps -/

inductive Step where
  | load (path : String)
  | loadOrCreate (path : Option String)
  deriving DecidableEq, Repr

def Step.take (fs : FileSystem) : Step → FileSystem
  | load _ => fs
  | loadOrCreate path => (Config.loadOrCreate env fs path).fileSystem

def run (steps : List Step) : FileSystem := steps.foldl (Step.take env) fs

theorem take_cases (step : Step) :
    step.take env fs = fs ∨ step.take env fs = (loadOrCreate env fs none).fileSystem := by
  cases step with
  | load path => exact .inl rfl
  | loadOrCreate path =>
    cases path with
    | none => exact .inr rfl
    | some path => exact .inl rfl

/-- Of many steps only the first that finds no default configuration counts. -/
theorem run_cases (steps : List Step) :
    run env fs steps = fs ∨ run env fs steps = (loadOrCreate env fs none).fileSystem := by
  induction steps generalizing fs with
  | nil => exact .inl rfl
  | cons step rest ih =>
    have hRest : run env fs (step :: rest) = run env (step.take env fs) rest := rfl
    rw [hRest]
    obtain hStep | hStep := take_cases env fs step
    · rw [hStep]
      exact ih fs
    · rw [hStep]
      obtain hRun | hRun := ih (loadOrCreate env fs none).fileSystem
      · exact .inr hRun
      · rw [hRun, fileSystem_loadOrCreate_loadOrCreate]
        exact .inr rfl

theorem sound_run (hSound : fs.Sound) (steps : List Step) : (run env fs steps).Sound := by
  obtain hRun | hRun := run_cases env fs steps
  · rwa [hRun]
  · rw [hRun]
    exact sound_loadOrCreate env fs hSound none

theorem run_loadOrCreate (steps : List Step) :
    run env (loadOrCreate env fs none).fileSystem steps =
      (loadOrCreate env fs none).fileSystem := by
  obtain hRun | hRun := run_cases env (loadOrCreate env fs none).fileSystem steps
  · exact hRun
  · rw [hRun, fileSystem_loadOrCreate_loadOrCreate]

theorem keeps_run_iff :
    (∀ steps, fs.Keeps (run env fs steps)) ↔ fs.Keeps (loadOrCreate env fs none).fileSystem := by
  constructor
  · intro hKeeps
    exact hKeeps [.loadOrCreate none]
  · intro hKeeps steps
    obtain hRun | hRun := run_cases env fs steps
    · rw [hRun]
      exact fun _ _ => id
    · rwa [hRun]

/-- Files stay as they are over all steps, unless the default path comes to lead to an old file with
another text than that of the default configuration; and what was once loaded is loaded again. In a
file system that is sound, and stays so over all steps, a path without two dots never does that. -/
theorem loads_and_keeps_iff :
    Loads env fs ∧
    (∀ c steps, (loadOrCreate env fs none).result = .ok c →
      loadOrCreate env (run env (loadOrCreate env fs none).fileSystem steps) none =
        ⟨.ok c, (loadOrCreate env fs none).fileSystem, []⟩) ∧
    ((∀ steps, fs.Keeps (run env fs steps)) ↔
      ∀ content, Overwrites env fs content → content = .text ({} : Config).toYaml) ∧
    (fs.Sound → ∀ steps, (run env fs steps).Sound) ∧
    (fs.Sound → ".." ∉ Path.ofText (defaultPath env) → ∀ steps, fs.Keeps (run env fs steps)) := by
  refine ⟨loads env fs, ?_, ?_, sound_run env fs, ?_⟩
  · intro c steps hResult
    rw [run_loadOrCreate]
    exact loadOrCreate_of_ok env fs hResult
  · rw [keeps_run_iff, keeps_loadOrCreate_iff]
  · intro hSound hStraight
    rw [keeps_run_iff, keeps_loadOrCreate_iff]
    intro content hOverwrites
    exact absurd hOverwrites (not_overwrites_of_straight env fs hSound hStraight content)

/-- A home directory with a configuration that leaves secrets out. -/
def secretless : FileSystem := ⟨[
  (["/", "home", ".kollect", "config.yaml"],
    .file (.text "filters:\n  ignore_kinds: [Secret]\n")),
  (["/", "home", ".kollect"], .directory),
  (["/", "home"], .directory)]⟩

/-- The home directory is named by way of a directory that is missing. -/
theorem loadOrCreate_secretless_loses :
    ¬∀ env fs steps, FileSystem.Keeps fs (run env fs steps) := by
  intro hAll
  have hLost := hAll [("HOME", "/home/missing/..")] secretless [.loadOrCreate none]
    ["/", "home", ".kollect", "config.yaml"] _ rfl
  revert hLost
  decide +kernel

end Config

end ClusterInventory
