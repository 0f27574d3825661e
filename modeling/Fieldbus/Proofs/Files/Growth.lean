import Fieldbus.Proofs.Files.Writing
import Mathlib.Data.List.Induction

/-!
# Trees that grow

A tree grows when entries are put in places that were empty (`Tree.GrowsTo`).  Every path that led
somewhere leads there still, and every file reads as it did.  Making the directories around a path
lets a tree grow by directories only, and each is one that was asked for.  A path that leads nowhere
may lead to an entry that was there all along once such directories are made, but only by a step up
out of one of them.
-/

namespace Fieldbus.Files.Tree

variable {t t' : Tree} {place : Place} {entry : Entry} {path : List Char}

/-- All that stands in the first tree stands in the second, and paths start where they did. -/
structure GrowsTo (t t' : Tree) : Prop where
  working_eq : t'.working = t.working
  entry?_eq : ∀ {place : Place} {entry : Entry},
    t.entry? place = some entry → t'.entry? place = some entry

theorem GrowsTo.refl (t : Tree) : t.GrowsTo t :=
  ⟨rfl, id⟩

theorem GrowsTo.trans {t'' : Tree} (first : t.GrowsTo t') (second : t'.GrowsTo t'') :
    t.GrowsTo t'' :=
  ⟨second.working_eq.trans first.working_eq, fun h => second.entry?_eq (first.entry?_eq h)⟩

theorem growsTo_insert (hfree : t.entry? place = none) (entry : Entry) :
    t.GrowsTo (t.insert place entry) := by
  refine ⟨rfl, fun {other} _ hother => ?_⟩
  have hne : other ≠ place := by
    rintro rfl
    rw [hfree] at hother
    cases hother
  exact (t.entry?_insert_of_ne entry hne).trans hother

/-! ## Paths in a growing tree -/

theorem GrowsTo.step (h : t.GrowsTo t') {start finish : Place} {name : String}
    (hstep : t.step start name = .ok finish) : t'.step start name = .ok finish := by
  rcases step_eq_ok_iff.mp hstep with ⟨hdirectory, hway⟩
  refine step_eq_ok_iff.mpr ⟨h.entry?_eq hdirectory, ?_⟩
  rcases hway with hdot | hup | ⟨hdot, hup, hshort, hthere, hfinish⟩
  · exact .inl hdot
  · exact .inr (.inl hup)
  · rcases Option.isSome_iff_exists.mp hthere with ⟨entry, hentry⟩
    exact .inr (.inr ⟨hdot, hup, hshort, by rw [h.entry?_eq hentry]; rfl, hfinish⟩)

theorem walk_cons_eq_ok_iff {start finish : Place} {name : String} {names : List String} :
    t.walk start (name :: names) = .ok finish ↔
      ∃ next, t.step start name = .ok next ∧ t.walk next names = .ok finish := by
  rw [walk]
  cases t.step start name with
  | error e => simp [bind, Except.bind]
  | ok next => simp [bind, Except.bind]

theorem GrowsTo.walk (h : t.GrowsTo t') {start finish : Place} {names : List String}
    (hwalk : t.walk start names = .ok finish) : t'.walk start names = .ok finish := by
  induction names generalizing start with
  | nil => exact hwalk
  | cons name names ih =>
    rcases walk_cons_eq_ok_iff.mp hwalk with ⟨next, hstep, hrest⟩
    exact walk_cons_eq_ok_iff.mpr ⟨next, h.step hstep, ih hrest⟩

/-- A path names the entry at the end of its way; a file only if it does not ask for a directory. -/
theorem find_eq_ok_iff :
    t.find path = .ok (place, entry) ↔
      checkPath path = .ok () ∧ t.walk (t.start path) (steps path) = .ok place ∧
        t.entry? place = some entry ∧ ∀ content, entry = .file content → ¬ EndsWithStroke path := by
  unfold find
  cases checkPath path with
  | error e => simp [bind, Except.bind]
  | ok u =>
    cases t.walk (t.start path) (steps path) with
    | error e => simp [bind, Except.bind]
    | ok finish =>
      simp only [bind, Except.bind, true_and, Except.ok.injEq]
      split
      · rename_i hnone
        simp only [reduceCtorEq, false_iff]
        rintro ⟨rfl, hentry, -⟩
        rw [hnone] at hentry
        cases hentry
      · rename_i hdirectory
        constructor
        · intro h
          cases h
          exact ⟨rfl, hdirectory, fun content hfile => nomatch hfile⟩
        · rintro ⟨rfl, hentry, -⟩
          rw [hdirectory] at hentry
          cases hentry
          rfl
      · rename_i content hfile
        split
        · rename_i hstroke
          simp only [reduceCtorEq, false_iff]
          rintro ⟨rfl, hentry, hplain⟩
          rw [hfile] at hentry
          cases hentry
          exact hplain content rfl hstroke
        · rename_i hstroke
          constructor
          · intro h
            cases h
            exact ⟨rfl, hfile, fun _ _ => hstroke⟩
          · rintro ⟨rfl, hentry, -⟩
            rw [hfile] at hentry
            cases hentry
            rfl

theorem GrowsTo.find (h : t.GrowsTo t') {found : Place × Entry}
    (hfind : t.find path = .ok found) : t'.find path = .ok found := by
  rcases find_eq_ok_iff.mp hfind with ⟨hcheck, hwalk, hentry, hstroke⟩
  have hstart : t'.start path = t.start path := by
    rw [start, start, h.working_eq]
  refine find_eq_ok_iff.mpr ⟨hcheck, ?_, h.entry?_eq hentry, hstroke⟩
  rw [hstart]
  exact h.walk hwalk

/-- What a path names reads as it did before the tree grew. -/
theorem GrowsTo.readText (h : t.GrowsTo t') {found : Place × Entry}
    (hfind : t.find path = .ok found) : t'.readText path = t.readText path := by
  rw [Tree.readText, Tree.readText, hfind, h.find hfind]

theorem exists_find_of_readText {text : String} (hread : t.readText path = .ok text) :
    ∃ found, t.find path = .ok found := by
  cases hfind : t.find path with
  | ok found => exact ⟨found, rfl⟩
  | error e =>
    simp only [Tree.readText, hfind, bind, Except.bind] at hread
    cases hread

/-! ## Making directories -/

/-- The tree grows by nothing but directories that these paths name in the end. -/
structure GainsDirectories (paths : List (List Char)) (t t' : Tree) : Prop where
  growsTo : t.GrowsTo t'
  gained : ∀ place, t'.entry? place = t.entry? place ∨
    t.entry? place = none ∧ ∃ path ∈ paths, t'.find path = .ok (place, .directory)

theorem GainsDirectories.refl (paths : List (List Char)) (t : Tree) :
    GainsDirectories paths t t :=
  ⟨.refl t, fun _ => .inl rfl⟩

theorem GainsDirectories.trans {paths : List (List Char)} {t'' : Tree}
    (first : GainsDirectories paths t t') (second : GainsDirectories paths t' t'') :
    GainsDirectories paths t t'' := by
  refine ⟨first.growsTo.trans second.growsTo, fun place => ?_⟩
  rcases second.gained place with hsame | ⟨hnone, hnew⟩
  · rw [hsame]
    rcases first.gained place with hsame' | ⟨hnone, path, hpath, hfind⟩
    · exact .inl hsame'
    · exact .inr ⟨hnone, path, hpath, second.growsTo.find hfind⟩
  · refine .inr ⟨?_, hnew⟩
    rcases first.gained place with hsame | ⟨hnone, -⟩
    · exact hsame.symm.trans hnone
    · exact hnone

theorem GainsDirectories.mono {paths more : List (List Char)}
    (h : GainsDirectories paths t t') (hsub : ∀ path ∈ paths, path ∈ more) :
    GainsDirectories more t t' := by
  refine ⟨h.growsTo, fun place => ?_⟩
  rcases h.gained place with hsame | ⟨hnone, path, hpath, hfind⟩
  · exact .inl hsame
  · exact .inr ⟨hnone, path, hsub path hpath, hfind⟩

/-- A directory that is made goes to the slot of its path, where nothing stood. -/
theorem makeDirectory_eq_ok (hmake : t.makeDirectory path = .ok t') :
    ∃ place name, t.slot path = .ok (place, some name) ∧ name.utf8ByteSize ≤ maxPartBytes ∧
      t.entry? (place ++ [name]) = none ∧ t' = t.insert (place ++ [name]) .directory := by
  unfold makeDirectory at hmake
  cases hslot : t.slot path with
  | error e => simp [hslot, bind, Except.bind] at hmake
  | ok found =>
    rcases found with ⟨place, _ | name⟩
    · simp [hslot, bind, Except.bind] at hmake
    · simp only [hslot, bind, Except.bind] at hmake
      split at hmake
      · cases hmake
      rename_i hlong
      split at hmake
      · cases hmake
      rename_i hfree
      cases hmake
      exact ⟨place, name, rfl, Nat.not_lt.mp hlong, Option.not_isSome_iff_eq_none.mp hfree, rfl⟩

theorem gainsDirectories_of_makeDirectory {paths : List (List Char)}
    (hmake : t.makeDirectory path = .ok t') (hpath : path ∈ paths) :
    GainsDirectories paths t t' := by
  rcases makeDirectory_eq_ok hmake with ⟨place, name, hslot, hshort, hfree, rfl⟩
  have hfind := find_insert_slot .directory hslot hshort (by rw [hfree]; exact nofun)
    fun _ hfile => nomatch hfile
  refine ⟨growsTo_insert hfree _, fun other => ?_⟩
  by_cases hother : other = place ++ [name]
  · subst hother
    exact .inr ⟨hfree, path, hpath, hfind⟩
  · exact .inl (t.entry?_insert_of_ne _ hother)

/-- Whether or not all of them can be made, the tree gains nothing but directories of the paths. -/
theorem gainsDirectories_makeDirectories (t : Tree) (paths : List (List Char)) :
    GainsDirectories paths t (t.makeDirectories paths).2 := by
  induction paths generalizing t with
  | nil => exact .refl _ t
  | cons path around ih =>
    have hself : path ∈ path :: around := List.mem_cons_self
    have haround : GainsDirectories (path :: around) t (t.makeDirectories around).2 :=
      (ih t).mono fun _ h => List.mem_cons_of_mem path h
    unfold makeDirectories
    split
    · exact .refl _ t
    split
    · rename_i made hmake
      exact gainsDirectories_of_makeDirectory hmake hself
    · -- The directory around it is missing, so the others are made first.
      split
      · rename_i t₁ hmade
        rw [hmade] at haround
        exact haround
      · rename_i t₁ hmade
        rw [hmade] at haround
        split
        · rename_i made hmake
          exact haround.trans (gainsDirectories_of_makeDirectory hmake hself)
        · split
          · exact haround
          · exact haround
    · split
      · exact .refl _ t
      · exact .refl _ t

/-! ## Trees without gaps -/

/-- Everything that stands in the tree stands in a directory. -/
def Closed (t : Tree) : Prop :=
  ∀ (place : Place) (name : String), (t.entry? (place ++ [name])).isSome →
    t.entry? place = some .directory

theorem Closed.insert (h : t.Closed) {name : String}
    (hdirectory : t.entry? place = some .directory)
    (hfree : t.entry? (place ++ [name]) ≠ some .directory) (entry : Entry) :
    (t.insert (place ++ [name]) entry).Closed := by
  intro other last hthere
  have hother : t.entry? other = some .directory := by
    by_cases hslot : other ++ [last] = place ++ [name]
    · rw [(List.append_inj' hslot rfl).1]
      exact hdirectory
    · rw [t.entry?_insert_of_ne entry hslot] at hthere
      exact h other last hthere
  have hne : other ≠ place ++ [name] := by
    rintro rfl
    exact hfree hother
  exact (t.entry?_insert_of_ne entry hne).trans hother

theorem Closed.makeDirectory (h : t.Closed) (hmake : t.makeDirectory path = .ok t') :
    t'.Closed := by
  rcases makeDirectory_eq_ok hmake with ⟨place, name, hslot, -, hfree, rfl⟩
  exact h.insert (slot_eq_ok hslot).2.1 (by rw [hfree]; exact nofun) _

theorem Closed.makeDirectories (h : t.Closed) (paths : List (List Char)) :
    (t.makeDirectories paths).2.Closed := by
  induction paths generalizing t with
  | nil => exact h
  | cons path around ih =>
    have haround := ih h
    unfold Tree.makeDirectories
    split
    · exact h
    split
    · rename_i made hmake
      exact h.makeDirectory hmake
    · split
      · rename_i t₁ hmade
        rw [hmade] at haround
        exact haround
      · rename_i t₁ hmade
        rw [hmade] at haround
        split
        · rename_i made hmake
          exact haround.makeDirectory hmake
        · split
          · exact haround
          · exact haround
    · split
      · exact h
      · exact h

theorem Closed.writeFile (h : t.Closed) {content : List UInt8}
    (hwrite : t.writeFile path content = .ok t') : t'.Closed := by
  rcases writeFile_eq_ok hwrite with ⟨place, name, hslot, -, -, hfree, rfl⟩
  exact h.insert (slot_eq_ok hslot).2.1 hfree _

/-- What something stands below is a directory. -/
theorem Closed.entry?_of_append (h : t.Closed) {below : Place} (hbelow : below ≠ [])
    (hthere : (t.entry? (place ++ below)).isSome) : t.entry? place = some .directory := by
  -- From the end of the place upwards, one name at a time.
  induction below using List.reverseRecOn with
  | nil => exact absurd rfl hbelow
  | append_singleton names name ih =>
    have hlast : t.entry? (place ++ names) = some .directory := by
      refine h (place ++ names) name ?_
      rwa [List.append_assoc]
    cases names with
    | nil => rwa [List.append_nil] at hlast
    | cons first rest => exact ih (List.cons_ne_nil _ _) (by rw [hlast]; rfl)

/-- Without a step up, a way leads down from where it starts. -/
theorem walk_eq_ok_append {start finish : Place} {names : List String} (hup : ".." ∉ names)
    (hwalk : t.walk start names = .ok finish) : ∃ below, finish = start ++ below := by
  induction names generalizing start with
  | nil =>
    cases hwalk
    exact ⟨[], (List.append_nil _).symm⟩
  | cons name names ih =>
    rcases walk_cons_eq_ok_iff.mp hwalk with ⟨next, hstep, hrest⟩
    rcases ih (fun h => hup (List.mem_cons_of_mem _ h)) hrest with ⟨below, hbelow⟩
    rcases (step_eq_ok_iff.mp hstep).2 with ⟨-, rfl⟩ | ⟨rfl, -⟩ | ⟨-, -, -, -, rfl⟩
    · exact ⟨below, hbelow⟩
    · exact absurd List.mem_cons_self hup
    · exact ⟨name :: below, by rw [hbelow, List.append_assoc]; rfl⟩

/-- A way without a step up to something that was there before the tree grew was open before. -/
theorem Closed.walk_of_growsTo (h : t.Closed) (hgrows : t.GrowsTo t') {start finish : Place}
    {names : List String} (hup : ".." ∉ names) (hwalk : t'.walk start names = .ok finish)
    (hthere : (t.entry? finish).isSome) : t.walk start names = .ok finish := by
  induction names generalizing start with
  | nil => exact hwalk
  | cons name names ih =>
    rcases walk_cons_eq_ok_iff.mp hwalk with ⟨next, hstep, hrest⟩
    have hup' : ".." ∉ names := fun h => hup (List.mem_cons_of_mem _ h)
    rcases walk_eq_ok_append hup' hrest with ⟨below, rfl⟩
    have hnext : (t.entry? next).isSome := by
      cases below with
      | nil => rwa [List.append_nil] at hthere
      | cons first rest =>
        rw [h.entry?_of_append (List.cons_ne_nil _ _) hthere]
        rfl
    refine walk_cons_eq_ok_iff.mpr ⟨next, ?_, ih hup' hrest⟩
    rcases step_eq_ok_iff.mp hstep with ⟨hdirectory, hway⟩
    rcases hway with ⟨hdot, rfl⟩ | ⟨rfl, -⟩ | ⟨hdot, hnotup, hshort, -, rfl⟩
    · -- Where the step stays, something stood already, and it is a directory now.
      rcases Option.isSome_iff_exists.mp hnext with ⟨entry, hentry⟩
      have hsame := hgrows.entry?_eq hentry
      rw [hdirectory] at hsame
      cases hsame
      exact step_eq_ok_iff.mpr ⟨hentry, .inl ⟨hdot, rfl⟩⟩
    · exact absurd List.mem_cons_self hup
    · exact step_eq_ok_iff.mpr
        ⟨h start name hnext, .inr (.inr ⟨hdot, hnotup, hshort, hnext, rfl⟩)⟩

/-- A path without a step up that leads to something old led there before the tree grew. -/
theorem Closed.find_of_growsTo (h : t.Closed) (hgrows : t.GrowsTo t') (hup : ".." ∉ steps path)
    (hfind : t'.find path = .ok (place, entry)) (hold : t.entry? place = some entry) :
    t.find path = .ok (place, entry) := by
  rcases find_eq_ok_iff.mp hfind with ⟨hcheck, hwalk, -, hstroke⟩
  have hstart : t'.start path = t.start path := by
    rw [start, start, hgrows.working_eq]
  rw [hstart] at hwalk
  exact find_eq_ok_iff.mpr
    ⟨hcheck, h.walk_of_growsTo hgrows hup hwalk (by rw [hold]; rfl), hold, hstroke⟩

end Fieldbus.Files.Tree
