import Fieldbus.Proofs.Files.Growth
import Fieldbus.Proofs.Settings.Writing

/-!
# Loading settings again and again

Loading settings at a path where nothing is makes the directories around it and a file with the
defaults.  The tree grows by these alone, so what a path gave it gives again, whatever is loaded in
between.  There is one exception.  Whether something is at the path is asked before the directories
are made, and a path that goes up out of a missing directory may lead to a file as soon as this
directory is there.  Then the defaults are written over that file (`Settings.Overwrites`).
-/

namespace Fieldbus.Settings

open Files

variable {tree : Tree} {path : String}

/-- The content of a file that is made for the defaults. -/
def defaultContent : List UInt8 := (render {}).toUTF8.toList

/-- The paths of the directories around a path, the nearest first. -/
def surroundings (path : List Char) : List (List Char) :=
  match parent? path with
  | none => []
  | some around => Tree.ancestry around

/-- Nothing is at the path, but once the directories around it are made it leads to a file. -/
def Overwrites (tree : Tree) (path : String) : Prop :=
  (∃ e, tree.find path.toList = .error e) ∧
    ∃ around place content, tree.makeDirectories (surroundings path.toList) = (.ok (), around) ∧
      around.find path.toList = .ok (place, .file content)

theorem createFile_eq (tree : Tree) (path : List Char) :
    createFile tree path =
      match tree.makeDirectories (surroundings path) with
      | (.error e, around) => (.error e, around)
      | (.ok (), around) =>
        match around.writeFile path defaultContent with
        | .ok made => (.ok (), made)
        | .error e => (.error e, around) := by
  unfold createFile surroundings
  cases parent? path <;> rfl

/-- What loading can do: read what is at the path, fail over the directories or the file, or make
both. -/
theorem load_cases (tree : Tree) (path : String) :
    (∃ found, tree.find path.toList = .ok found ∧
      load tree path = ((readFile tree path).map fun s => (s, .file), tree)) ∨
    (∃ e, tree.find path.toList = .error e) ∧
      ((∃ e, load tree path =
        (.error (.files path e), (tree.makeDirectories (surroundings path.toList)).2)) ∨
      ∃ around made, tree.makeDirectories (surroundings path.toList) = (.ok (), around) ∧
        around.writeFile path.toList defaultContent = .ok made ∧
        load tree path = (.ok ({}, .createdDefaults), made)) := by
  cases hfind : tree.find path.toList with
  | ok found => exact .inl ⟨found, rfl, by rw [load, hfind]⟩
  | error e =>
    refine .inr ⟨⟨e, rfl⟩, ?_⟩
    rw [load, hfind]
    simp only [createFile_eq]
    rcases hmade : tree.makeDirectories (surroundings path.toList) with ⟨_ | _, around⟩
    · exact .inl ⟨_, rfl⟩
    · cases hwrite : around.writeFile path.toList defaultContent with
      | error e => exact .inl ⟨e, by simp only [hwrite]⟩
      | ok made => exact .inr ⟨around, made, rfl, hwrite, by simp only [hwrite]⟩

/-! ## One load -/

/-- A place is as it was, or it was empty and is now one of the directories around the path. -/
def Undisturbed (path : String) (tree tree' : Tree) (place : Place) : Prop :=
  tree'.entry? place = tree.entry? place ∨
    tree.entry? place = none ∧
      ∃ up ∈ surroundings path.toList, tree'.find up = .ok (place, .directory)

/-- What loading at a path leaves of the tree when it does no damage. -/
structure Harmless (tree : Tree) (path : String) : Prop where
  /-- All that stood in the tree still does, files with the same content. -/
  growsTo : tree.GrowsTo (load tree path).2
  /-- Nothing is made where something is. -/
  existing : ∀ found, tree.find path.toList = .ok found → (load tree path).2 = tree
  /-- Only one file is made, and it holds the defaults that are answered. -/
  created : ∀ s, (load tree path).1 = .ok (s, .createdDefaults) →
    s = {} ∧ ∃ place, tree.entry? place = none ∧
      (load tree path).2.find path.toList = .ok (place, .file defaultContent) ∧
      (load tree path).2.readText path.toList = .ok (render {}) ∧
      ∀ other, other ≠ place → Undisturbed path tree (load tree path).2 other
  /-- No file is made by a load that fails. -/
  refused : ∀ e, (load tree path).1 = .error e →
    ∀ place, Undisturbed path tree (load tree path).2 place

theorem undisturbed_of_makeDirectories (tree : Tree) (path : String) (place : Place) :
    Undisturbed path tree (tree.makeDirectories (surroundings path.toList)).2 place :=
  (tree.gainsDirectories_makeDirectories (surroundings path.toList)).gained place

/-- Unless the path overwrites, the file is made in an empty place. -/
theorem slot_empty_of_not_overwrites (hspares : ¬ Overwrites tree path)
    (hmissing : ∃ e, tree.find path.toList = .error e) {around : Tree}
    (haround : tree.makeDirectories (surroundings path.toList) = (.ok (), around))
    {place : Place} {name : String}
    (hslot : around.slot path.toList = .ok (place, some name))
    (hshort : name.utf8ByteSize ≤ maxPartBytes) (hstroke : ¬ EndsWithStroke path.toList)
    (hfree : around.entry? (place ++ [name]) ≠ some .directory) :
    around.entry? (place ++ [name]) = none := by
  cases hentry : around.entry? (place ++ [name]) with
  | none => rfl
  | some entry =>
    cases entry with
    | directory => exact absurd hentry hfree
    | file content =>
      -- A file in the slot would be what the path leads to.
      rcases Tree.slot_eq_ok hslot with ⟨hcheck, hdirectory, before, hsteps, hwalk, hdot, hup⟩
      have hstep : around.step place name = .ok (place ++ [name]) :=
        Tree.step_eq_ok_iff.mpr
          ⟨hdirectory, .inr (.inr ⟨hdot, hup, hshort, by rw [hentry]; rfl, rfl⟩)⟩
      have hway : around.walk (around.start path.toList) (steps path.toList) =
          .ok (place ++ [name]) := by
        rw [hsteps, Tree.walk_append, hwalk]
        exact Tree.walk_cons_eq_ok_iff.mpr ⟨_, hstep, rfl⟩
      have hfind := Tree.find_eq_ok_iff.mpr ⟨hcheck, hway, hentry, fun _ _ => hstroke⟩
      exact absurd ⟨hmissing, around, _, content, haround, hfind⟩ hspares

theorem harmless_of_not_overwrites (hspares : ¬ Overwrites tree path) : Harmless tree path := by
  rcases load_cases tree path with ⟨found, hfind, hload⟩ |
    ⟨hmissing, ⟨e, hload⟩ | ⟨around, made, haround, hwrite, hload⟩⟩
  · -- What is at the path is read.
    have hgrows := Tree.GrowsTo.refl tree
    refine ⟨?_, ?_, ?_, ?_⟩
    all_goals rw [hload]
    · exact hgrows
    · exact fun _ _ => rfl
    · intro s hcreated
      cases hread : readFile tree path with
      | error e => simp [hread, Except.map] at hcreated
      | ok settings => simp [hread, Except.map] at hcreated
    · exact fun _ _ place => .inl rfl
  · -- No file is made.
    refine ⟨?_, ?_, ?_, ?_⟩
    all_goals rw [hload]
    · exact (tree.gainsDirectories_makeDirectories _).growsTo
    · intro found hfind
      rcases hmissing with ⟨e', hfind'⟩
      rw [hfind'] at hfind
      cases hfind
    · intro s hcreated
      cases hcreated
    · exact fun _ _ place => undisturbed_of_makeDirectories tree path place
  · -- The file is made, in a place that was empty before the directories were made too.
    rcases Tree.writeFile_eq_ok hwrite with ⟨place, name, hslot, hstroke, hshort, hfree, rfl⟩
    have hempty := slot_empty_of_not_overwrites hspares hmissing haround hslot hshort hstroke hfree
    have hgains := tree.gainsDirectories_makeDirectories (surroundings path.toList)
    rw [haround] at hgains
    have hfile := Tree.growsTo_insert hempty (.file defaultContent)
    have hfind := Tree.find_insert_slot (.file defaultContent) hslot hshort hfree
      fun _ _ => hstroke
    have hold : tree.entry? (place ++ [name]) = none := by
      rcases hgains.gained (place ++ [name]) with hsame | ⟨hnone, -⟩
      · exact hsame.symm.trans hempty
      · exact hnone
    refine ⟨?_, ?_, ?_, ?_⟩
    all_goals rw [hload]
    · exact hgains.growsTo.trans hfile
    · intro found hfound
      rcases hmissing with ⟨e', hfind'⟩
      rw [hfind'] at hfound
      cases hfound
    · intro s hcreated
      cases hcreated
      have htext := Tree.readText_of_writeFile hwrite
      rw [defaultContent, textOf_toUTF8] at htext
      refine ⟨rfl, _, hold, hfind, htext, fun other hother => ?_⟩
      rcases hgains.gained other with hsame | ⟨hnone, up, hup, hdirectory⟩
      · exact .inl ((around.entry?_insert_of_ne _ hother).trans hsame)
      · exact .inr ⟨hnone, up, hup, hfile.find hdirectory⟩
    · intro e hrefused
      cases hrefused

/-- After a load that succeeds, something is at the path and reads as what was answered. -/
theorem readFile_of_load {s : Settings} {source : Source}
    (hload : (load tree path).1 = .ok (s, source)) :
    (∃ found, (load tree path).2.find path.toList = .ok found) ∧
      readFile (load tree path).2 path = .ok s := by
  rcases load_cases tree path with ⟨found, hfind, hcase⟩ |
    ⟨-, ⟨e, hcase⟩ | ⟨around, made, -, hwrite, hcase⟩⟩
  · rw [hcase] at hload ⊢
    cases hread : readFile tree path with
    | error e => simp [hread, Except.map] at hload
    | ok settings =>
      simp only [hread, Except.map, Except.ok.injEq, Prod.mk.injEq] at hload
      exact ⟨⟨found, hfind⟩, congrArg Except.ok hload.1⟩
  · rw [hcase] at hload
    cases hload
  · rw [hcase] at hload ⊢
    cases hload
    have htext := Tree.readText_of_writeFile hwrite
    rw [defaultContent, textOf_toUTF8] at htext
    refine ⟨Tree.exists_find_of_readText htext, ?_⟩
    simp only [readFile]
    rw [htext, ofText, parse_render]

/-- A text that has not the form of settings was found at the path, and the tree is as it was. -/
theorem readFile_of_load_error {p : String} {failure : Json.Failure} {line column : Nat}
    (hload : (load tree path).1 = .error (.form p failure line column)) :
    (∃ found, (load tree path).2.find path.toList = .ok found) ∧
      readFile (load tree path).2 path = .error (.form p failure line column) := by
  rcases load_cases tree path with ⟨found, hfind, hcase⟩ |
    ⟨-, ⟨e, hcase⟩ | ⟨around, made, -, -, hcase⟩⟩
  · rw [hcase] at hload ⊢
    cases hread : readFile tree path with
    | error e =>
      simp only [hread, Except.map, Except.error.injEq] at hload
      exact ⟨⟨found, hfind⟩, congrArg Except.error hload⟩
    | ok settings => simp [hread, Except.map] at hload
  · rw [hcase] at hload
    cases hload
  · rw [hcase] at hload
    cases hload

/-- Loading where something is at the path answers what it reads as. -/
theorem load_of_find {found : Place × Entry} (hfind : tree.find path.toList = .ok found) :
    load tree path = ((readFile tree path).map fun s => (s, .file), tree) := by
  rw [load, hfind]

/-! ## Paths that overwrite -/

theorem splitParts_ne_nil (path : List Char) : splitParts path ≠ [] := by
  cases path with
  | nil => exact List.cons_ne_nil _ _
  | cons c path =>
    rw [splitParts]
    split
    · exact List.cons_ne_nil _ _
    · split <;> exact List.cons_ne_nil _ _

/-- A path without a name on its way is the root. -/
theorem isAbsolute_of_steps_eq_nil {path : List Char} (hne : path ≠ []) (hsteps : steps path = []) :
    IsAbsolute path := by
  cases path with
  | nil => exact absurd rfl hne
  | cons c path =>
    by_cases hc : c = '/'
    · exact congrArg some hc
    · -- The first part holds the first character.
      rw [steps, splitParts, if_neg hc] at hsteps
      cases hparts : splitParts path with
      | nil => exact absurd hparts (splitParts_ne_nil path)
      | cons part parts =>
        rw [hparts] at hsteps
        simp at hsteps

/-- In a tree without gaps, a file is only reached by a plain name. -/
theorem slot_of_find_file {place : Place} {content : List UInt8} {path : List Char}
    (hclosed : tree.Closed) (hfind : tree.find path = .ok (place, .file content)) :
    ∃ around name, tree.slot path = .ok (around, some name) ∧ place = around ++ [name] ∧
      name.utf8ByteSize ≤ maxPartBytes ∧ ¬ EndsWithStroke path := by
  rcases Tree.find_eq_ok_iff.mp hfind with ⟨hcheck, hwalk, hentry, hstroke⟩
  rcases List.eq_nil_or_concat (steps path) with hnil | ⟨before, name, hsteps⟩
  · have hne : path ≠ [] := by
      rintro rfl
      cases hcheck
    rw [hnil, Tree.start, if_pos (isAbsolute_of_steps_eq_nil hne hnil)] at hwalk
    cases hwalk
    cases hentry
  · rw [List.concat_eq_append] at hsteps
    rw [hsteps, Tree.walk_append] at hwalk
    cases hbefore : tree.walk (tree.start path) before with
    | error e =>
      rw [hbefore] at hwalk
      cases hwalk
    | ok around =>
      rw [hbefore] at hwalk
      rcases Tree.walk_cons_eq_ok_iff.mp hwalk with ⟨next, hstep, hnext⟩
      cases hnext
      rcases Tree.step_eq_ok_iff.mp hstep with ⟨hdirectory, hway⟩
      rcases hway with ⟨-, rfl⟩ | ⟨-, rfl⟩ | ⟨hdot, hup, hshort, -, rfl⟩
      · rw [hdirectory] at hentry
        cases hentry
      · -- What lies above a directory is a directory too.
        rcases List.eq_nil_or_concat around with rfl | ⟨above, last, rfl⟩
        · cases hentry
        · rw [List.concat_eq_append] at hdirectory hentry
          rw [List.dropLast_concat, hclosed above last (by rw [hdirectory]; rfl)] at hentry
          cases hentry
      · refine ⟨around, name, ?_, rfl, hshort, hstroke content rfl⟩
        have hplain : ¬ (name = "." ∨ name = "..") := not_or.mpr ⟨hdot, hup⟩
        simp only [Tree.slot, hcheck, hsteps, List.dropLast_concat, hbefore, hdirectory,
          List.getLast?_concat, if_neg hplain, bind, Except.bind, pure, Except.pure]
        rfl

/-- A path that overwrites replaces a file by the defaults, and answers that it made them. -/
theorem Overwrites.load_eq (h : Overwrites tree path) (hclosed : tree.Closed) :
    ∃ place content, tree.entry? place = some (.file content) ∧
      (load tree path).1 = .ok ({}, .createdDefaults) ∧
      Tree.entry? (load tree path).2 place = some (.file defaultContent) := by
  rcases h with ⟨⟨e, hmissing⟩, around, place, content, haround, hfind⟩
  have hgains := tree.gainsDirectories_makeDirectories (surroundings path.toList)
  have hclosed' := hclosed.makeDirectories (surroundings path.toList)
  rw [haround] at hgains hclosed'
  have hfile := (Tree.find_eq_ok_iff.mp hfind).2.2.1
  rcases slot_of_find_file hclosed' hfind with ⟨above, name, hslot, rfl, hshort, hstroke⟩
  have hold : tree.entry? (above ++ [name]) = some (.file content) := by
    rcases hgains.gained (above ++ [name]) with hsame | ⟨-, up, -, hup⟩
    · exact hsame.symm.trans hfile
    · have hdirectory := (Tree.find_eq_ok_iff.mp hup).2.2.1
      rw [hfile] at hdirectory
      cases hdirectory
  have hwrite : around.writeFile path.toList defaultContent =
      .ok (around.insert (above ++ [name]) (.file defaultContent)) := by
    simp only [Tree.writeFile, hslot, if_neg hstroke, if_neg (Nat.not_lt.mpr hshort), hfile, bind,
      Except.bind, pure, Except.pure]
    rfl
  have hload : load tree path =
      (.ok ({}, .createdDefaults), around.insert (above ++ [name]) (.file defaultContent)) := by
    rw [load, hmissing]
    simp only [createFile_eq, haround, hwrite]
  refine ⟨_, content, hold, ?_, ?_⟩
  all_goals rw [hload]
  exact around.entry?_insert_self _ (by simp)

/-- Only a step up out of a missing directory can overwrite. -/
theorem not_overwrites_of_no_step_up (hclosed : tree.Closed) (hup : ".." ∉ steps path.toList) :
    ¬ Overwrites tree path := by
  rintro ⟨⟨e, hmissing⟩, around, place, content, haround, hfind⟩
  have hgains := tree.gainsDirectories_makeDirectories (surroundings path.toList)
  rw [haround] at hgains
  have hfile := (Tree.find_eq_ok_iff.mp hfind).2.2.1
  -- The directories that were made are no files, so this one was there before.
  have hold : tree.entry? place = some (.file content) := by
    rcases hgains.gained place with hsame | ⟨-, up, -, hmade⟩
    · exact hsame.symm.trans hfile
    · have hdirectory := (Tree.find_eq_ok_iff.mp hmade).2.2.1
      rw [hfile] at hdirectory
      cases hdirectory
  rw [hclosed.find_of_growsTo hgains.growsTo hup hfind hold] at hmissing
  cases hmissing

theorem closed_load (hclosed : tree.Closed) (path : String) : (load tree path).2.Closed := by
  have haround := hclosed.makeDirectories (surroundings path.toList)
  rcases load_cases tree path with ⟨found, hfind, hload⟩ |
    ⟨-, ⟨e, hload⟩ | ⟨around, made, hmade, hwrite, hload⟩⟩
  all_goals rw [hload]
  · exact hclosed
  · exact haround
  · rw [hmade] at haround
    exact haround.writeFile hwrite

/-! ## Many loads -/

/-- The tree after loading at paths, one after the other. -/
def loadAll (tree : Tree) : List String → Tree
  | [] => tree
  | path :: paths => loadAll (load tree path).2 paths

/-- None of the loads at these paths overwrites a file. -/
def SparesFiles (tree : Tree) : List String → Prop
  | [] => True
  | path :: paths => ¬ Overwrites tree path ∧ SparesFiles (load tree path).2 paths

theorem loadAll_append (tree : Tree) (before after : List String) :
    loadAll tree (before ++ after) = loadAll (loadAll tree before) after := by
  induction before generalizing tree with
  | nil => rfl
  | cons path before ih => exact ih (load tree path).2

theorem sparesFiles_append {before after : List String} :
    SparesFiles tree (before ++ after) ↔
      SparesFiles tree before ∧ SparesFiles (loadAll tree before) after := by
  induction before generalizing tree with
  | nil => exact (true_and _).to_iff.symm
  | cons path before ih => exact (and_congr_right fun _ => ih).trans and_assoc.symm

/-- Paths without a step up spare all files of a tree without gaps. -/
theorem sparesFiles_of_no_step_up {paths : List String} (hclosed : tree.Closed)
    (hup : ∀ path ∈ paths, ".." ∉ steps path.toList) : SparesFiles tree paths := by
  induction paths generalizing tree with
  | nil => trivial
  | cons path paths ih =>
    exact ⟨not_overwrites_of_no_step_up hclosed (hup path List.mem_cons_self),
      ih (closed_load hclosed path) fun later hlater => hup later (List.mem_cons_of_mem _ hlater)⟩

theorem growsTo_loadAll {paths : List String} (hspares : SparesFiles tree paths) :
    tree.GrowsTo (loadAll tree paths) := by
  induction paths generalizing tree with
  | nil => exact .refl tree
  | cons path paths ih =>
    exact (harmless_of_not_overwrites hspares.1).growsTo.trans (ih hspares.2)

/-- What is at a path is answered again after other loads. -/
theorem load_after_loads {paths : List String} (hspares : SparesFiles tree paths)
    {found : Place × Entry} (hfind : tree.find path.toList = .ok found) :
    (load (loadAll tree paths) path).1 = (readFile tree path).map fun s => (s, .file) := by
  have hgrows := growsTo_loadAll hspares
  have hread : readFile (loadAll tree paths) path = readFile tree path := by
    rw [readFile, readFile, hgrows.readText hfind]
  rw [load_of_find (hgrows.find hfind), hread]

/-- As long as no load overwrites, every load leaves all files as they are, makes nothing where
something is, and otherwise makes at most the missing directories around its path and one file with
the defaults, which it then answers; a load that fails makes no file.  What a path answered once it
answers from then on: the same settings, now from a file, or the same failure of form. -/
theorem loads_harmless_and_stable {tree : Tree} {paths : List String}
    (hspares : SparesFiles tree paths) :
    (∀ (before after : List String) (path : String), paths = before ++ path :: after →
      Harmless (loadAll tree before) path) ∧
    ∀ (before between after : List String) (path : String),
      paths = before ++ path :: (between ++ path :: after) →
      (∀ s source, (load (loadAll tree before) path).1 = .ok (s, source) →
        (load (loadAll tree (before ++ path :: between)) path).1 = .ok (s, .file)) ∧
      ∀ p failure line column,
        (load (loadAll tree before) path).1 = .error (.form p failure line column) →
        (load (loadAll tree (before ++ path :: between)) path).1 =
          .error (.form p failure line column) := by
  refine ⟨?_, ?_⟩
  · rintro before after path rfl
    exact harmless_of_not_overwrites (sparesFiles_append.mp hspares).2.1
  · rintro before between after path rfl
    have hbetween := (sparesFiles_append.mp (sparesFiles_append.mp hspares).2.2).1
    have hlater : loadAll tree (before ++ path :: between) =
        loadAll (load (loadAll tree before) path).2 between := loadAll_append tree before _
    rw [hlater]
    refine ⟨?_, ?_⟩
    · intro s source hload
      rcases readFile_of_load hload with ⟨⟨found, hfind⟩, hread⟩
      rw [load_after_loads hbetween hfind, hread]
      rfl
    · intro p failure line column hload
      rcases readFile_of_load_error hload with ⟨⟨found, hfind⟩, hread⟩
      rw [load_after_loads hbetween hfind, hread]
      rfl

/-! ## A file that is alone in its tree -/

/-- The default settings with another port. -/
def anotherPort : Settings := { server := { port := 1 } }

/-- One file, which holds these settings. -/
def onlyFile : Tree := { entries := [(["b"], .file anotherPort.render.toUTF8.toList)] }

theorem closed_onlyFile : onlyFile.Closed := by
  have hempty : Tree.Closed {} := by
    intro place name hthere
    unfold Tree.entry? at hthere
    rw [if_neg (by simp)] at hthere
    cases hthere
  have hinserted : Tree.Closed
      (Tree.insert {} ([] ++ ["b"]) (.file anotherPort.render.toUTF8.toList)) :=
    hempty.insert rfl (by decide) _
  exact hinserted

/-- A file that is found and holds the text of settings is read as these. -/
theorem readFile_of_find {s : Settings} {place : Place}
    (hfind : tree.find path.toList = .ok (place, .file s.render.toUTF8.toList)) :
    readFile tree path = .ok s := by
  have htext : tree.readText path.toList = .ok s.render := by
    simp only [Tree.readText, hfind, bind, Except.bind]
    exact textOf_toUTF8 _
  rw [readFile, htext, ofText, parse_render]

/-- The defaults are made beside the file, in a directory of their own, and found there again. -/
theorem loads_beside_onlyFile :
    SparesFiles onlyFile ["a/c", "b", "a/c"] ∧ Harmless onlyFile "a/c" ∧
      (load onlyFile "a/c").1 = .ok ({}, .createdDefaults) ∧
      (load (loadAll onlyFile ["a/c", "b"]) "a/c").1 = .ok ({}, .file) := by
  have hspares : SparesFiles onlyFile ["a/c", "b", "a/c"] :=
    sparesFiles_of_no_step_up closed_onlyFile (by decide)
  have hfirst : (load onlyFile "a/c").1 = .ok ({}, .createdDefaults) := rfl
  rcases loads_harmless_and_stable hspares with ⟨hharmless, hstable⟩
  exact ⟨hspares, hharmless [] ["b", "a/c"] "a/c" rfl, hfirst,
    (hstable [] ["b"] [] "a/c" rfl).1 {} .createdDefaults hfirst⟩

/-- Between two loads that find the file, a load at a path that goes up out of a missing directory
writes the defaults over it. -/
theorem load_overwrites_behind_missing_directory :
    (load onlyFile "b").1 = .ok (anotherPort, .file) ∧
      (load (loadAll onlyFile ["b"]) "a/../b").1 = .ok ({}, .createdDefaults) ∧
      (load (loadAll onlyFile ["b", "a/../b"]) "b").1 = .ok ({}, .file) ∧ anotherPort ≠ {} ∧
      ¬ ∀ (tree : Tree) (path : String) (place : Place) (content : List UInt8),
        tree.entry? place = some (.file content) →
          Tree.entry? (load tree path).2 place = some (.file content) := by
  have hfind : onlyFile.find "b".toList =
      .ok (["b"], .file anotherPort.render.toUTF8.toList) := rfl
  have hfirst : load onlyFile "b" = (.ok (anotherPort, .file), onlyFile) := by
    rw [load_of_find hfind, readFile_of_find hfind]
    rfl
  have hsecond : load onlyFile "a/../b" = (.ok ({}, .createdDefaults),
      { entries := [(["b"], .file defaultContent), (["a"], .directory)] }) := rfl
  have hfind' : Tree.find { entries := [(["b"], .file defaultContent), (["a"], .directory)] }
      "b".toList = .ok (["b"], .file (render {}).toUTF8.toList) := rfl
  have hports : anotherPort ≠ {} := by decide
  refine ⟨by rw [hfirst], ?_, ?_, hports, ?_⟩
  · simp only [loadAll, hfirst, hsecond]
  · simp only [loadAll, hfirst, hsecond]
    rw [load_of_find hfind', readFile_of_find hfind']
    rfl
  · -- Equal contents would be the text of both settings.
    intro hkept
    have hsame := hkept onlyFile "a/../b" ["b"] anotherPort.render.toUTF8.toList rfl
    rw [hsecond] at hsame
    have hcontent : (render {}).toUTF8.toList = anotherPort.render.toUTF8.toList :=
      Entry.file.inj (Option.some.inj hsame)
    have htext := textOf_toUTF8 (render {})
    rw [hcontent, textOf_toUTF8] at htext
    have hparse := parse_render {}
    rw [← Except.ok.inj htext, parse_render] at hparse
    exact hports (Except.ok.inj hparse)

end Fieldbus.Settings
