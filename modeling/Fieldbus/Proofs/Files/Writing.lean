import Fieldbus.Files.Tree

/-!
# Files that are read back

An entry is only put where no directory stands, so that every way through the tree leads where it
did before.  A path that a file was written under therefore names this file, and what is read there
is what was written.
-/

namespace Fieldbus.Files

/-! ## Bytes of a text -/

theorem toList_loop_eq (bytes : ByteArray) (i : Nat) (r : List UInt8) :
    ByteArray.toList.loop bytes i r = r.reverse ++ bytes.data.toList.drop i := by
  induction i, r using ByteArray.toList.loop.induct bytes with
  | case1 i r hi ih =>
    have hsize : i < bytes.data.toList.length := hi
    have hbyte : bytes.get! i = bytes.data.toList[i] := by
      simp [ByteArray.get!, getElem!_pos bytes.data i hi]
    rw [ByteArray.toList.loop, if_pos hi, ih, hbyte, List.drop_eq_getElem_cons hsize]
    simp
  | case2 i r hi =>
    have hnone : bytes.data.toList.drop i = [] := List.drop_eq_nil_of_le (Nat.not_lt.mp hi)
    rw [ByteArray.toList.loop, if_neg hi, hnone, List.append_nil]

/-- The bytes of a text hold that text. -/
theorem textOf_toUTF8 (text : String) : textOf ⟨text.toUTF8.toList.toArray⟩ = .ok text := by
  have hbytes : (⟨text.toUTF8.toList.toArray⟩ : ByteArray) = text.toUTF8 := by
    rw [ByteArray.toList, toList_loop_eq]
    rfl
  have hread : String.fromUTF8? text.toUTF8 = some text := dif_pos text.isValidUTF8
  rw [hbytes, textOf, hread]

namespace Tree

variable {t : Tree} {place other : Place} {entry : Entry}

/-! ## Entries -/

theorem entry?_insert_self (t : Tree) (entry : Entry) (hplace : place ≠ []) :
    entry? (t.insert place entry) place = some entry := by
  unfold entry?
  rw [if_neg hplace, insert, List.lookup_cons_self]

theorem lookup_filter_ne (entries : List (Place × Entry)) (hne : other ≠ place) :
    (entries.filter fun e => e.1 ≠ place).lookup other = entries.lookup other := by
  induction entries with
  | nil => rfl
  | cons e entries ih =>
    by_cases he : e.1 = place
    · have hother : (other == e.1) = false := by simpa [he] using hne
      rw [List.filter_cons_of_neg (by simpa using he), ih, List.lookup_cons, hother]
    · rw [List.filter_cons_of_pos (by simpa using he), List.lookup_cons, List.lookup_cons, ih]

theorem entry?_insert_of_ne (t : Tree) (entry : Entry) (hne : other ≠ place) :
    entry? (t.insert place entry) other = t.entry? other := by
  have hother : (other == place) = false := by simpa using hne
  unfold entry?
  rw [insert, List.lookup_cons, hother, lookup_filter_ne t.entries hne]

/-! ## Ways -/

theorem walk_append (t : Tree) (place : Place) (before after : List String) :
    t.walk place (before ++ after) = (do t.walk (← t.walk place before) after) := by
  induction before generalizing place with
  | nil => rfl
  | cons name before ih =>
    rw [List.cons_append, walk, walk]
    cases hstep : t.step place name with
    | error e => rfl
    | ok next => exact ih next

/-- A step stays, goes up, or goes down to a name that is there. -/
theorem step_eq_ok_iff {start finish : Place} {name : String} :
    t.step start name = .ok finish ↔ t.entry? start = some .directory ∧
      (name = "." ∧ finish = start ∨
        name = ".." ∧ finish = start.dropLast ∨
        name ≠ "." ∧ name ≠ ".." ∧ name.utf8ByteSize ≤ maxPartBytes ∧
          (t.entry? (start ++ [name])).isSome ∧ finish = start ++ [name]) := by
  constructor
  · intro hstep
    unfold step at hstep
    split at hstep
    · cases hstep
    rename_i hdirectory
    refine ⟨Decidable.not_not.mp hdirectory, ?_⟩
    split at hstep
    · rename_i hdot
      cases hstep
      exact .inl ⟨hdot, rfl⟩
    split at hstep
    · rename_i hup
      cases hstep
      exact .inr (.inl ⟨hup, rfl⟩)
    split at hstep
    · cases hstep
    split at hstep
    · rename_i hdot hup hlong hthere
      cases hstep
      exact .inr (.inr ⟨hdot, hup, Nat.not_lt.mp hlong, hthere, rfl⟩)
    · cases hstep
  · rintro ⟨hdirectory, hway⟩
    rw [step, if_neg (not_not_intro hdirectory)]
    rcases hway with ⟨hdot, rfl⟩ | ⟨rfl, rfl⟩ | ⟨hdot, hup, hshort, hthere, rfl⟩
    · rw [if_pos hdot]
    · rw [if_neg (by decide), if_pos rfl]
    · rw [if_neg hdot, if_neg hup, if_neg (Nat.not_lt.mpr hshort), if_pos hthere]

/-- A step leads where it did when an entry is put in a place where no directory stood. -/
theorem step_insert (hplace : t.entry? place ≠ some .directory) (entry : Entry)
    {start finish : Place} {name : String} (hstep : t.step start name = .ok finish) :
    (t.insert place entry).step start name = .ok finish := by
  rcases step_eq_ok_iff.mp hstep with ⟨hdirectory, hway⟩
  have hstart : start ≠ place := by
    rintro rfl
    exact hplace hdirectory
  refine step_eq_ok_iff.mpr ⟨(t.entry?_insert_of_ne entry hstart).trans hdirectory, ?_⟩
  rcases hway with hdot | hup | ⟨hdot, hup, hshort, hthere, hfinish⟩
  · exact .inl hdot
  · exact .inr (.inl hup)
  · refine .inr (.inr ⟨hdot, hup, hshort, ?_, hfinish⟩)
    -- The name that the step goes to may be the one with the new entry.
    by_cases hnew : start ++ [name] = place
    · have hnonempty : place ≠ [] := by simp [← hnew]
      rw [hnew, t.entry?_insert_self entry hnonempty]
      rfl
    · rw [t.entry?_insert_of_ne entry hnew]
      exact hthere

theorem walk_insert (hplace : t.entry? place ≠ some .directory) (entry : Entry)
    {start finish : Place} {names : List String} (hwalk : t.walk start names = .ok finish) :
    (t.insert place entry).walk start names = .ok finish := by
  induction names generalizing start with
  | nil => exact hwalk
  | cons name names ih =>
    rw [walk] at hwalk ⊢
    cases hstep : t.step start name with
    | error e =>
      rw [hstep] at hwalk
      cases hwalk
    | ok next =>
      rw [hstep] at hwalk
      rw [step_insert hplace entry hstep]
      exact ih hwalk

/-! ## Files -/

/-- The slot of a path is the last name on its way and the directory before it. -/
theorem slot_eq_ok {path : List Char} {name : String}
    (hslot : t.slot path = .ok (place, some name)) :
    checkPath path = .ok () ∧ t.entry? place = some .directory ∧
      ∃ before, steps path = before ++ [name] ∧ t.walk (t.start path) before = .ok place ∧
        name ≠ "." ∧ name ≠ ".." := by
  unfold slot at hslot
  cases hcheck : checkPath path with
  | error e => simp [hcheck, bind, Except.bind] at hslot
  | ok u =>
    cases hwalk : t.walk (t.start path) (steps path).dropLast with
    | error e => simp [hcheck, hwalk, bind, Except.bind] at hslot
    | ok before =>
      simp only [hcheck, hwalk, bind, Except.bind] at hslot
      split at hslot
      · cases hslot
      rename_i hdirectory
      cases hlast : (steps path).getLast? with
      | none => simp [hlast, pure, Except.pure] at hslot
      | some last =>
        simp only [hlast, pure, Except.pure, Except.ok.injEq, Prod.mk.injEq] at hslot
        rcases hslot with ⟨rfl, hname⟩
        split at hname
        · cases hname
        rename_i hplain
        cases hname
        rcases not_or.mp hplain with ⟨hdot, hup⟩
        rcases List.getLast?_eq_some_iff.mp hlast with ⟨names, hsteps⟩
        rw [hsteps, List.dropLast_concat] at hwalk
        exact ⟨rfl, Decidable.not_not.mp hdirectory, names, hsteps, hwalk, hdot, hup⟩

/-- A file that is written goes to the slot of its path, which no directory takes. -/
theorem writeFile_eq_ok {path : List Char} {content : List UInt8} {t' : Tree}
    (hwrite : t.writeFile path content = .ok t') :
    ∃ place name, t.slot path = .ok (place, some name) ∧ ¬ EndsWithStroke path ∧
      name.utf8ByteSize ≤ maxPartBytes ∧ t.entry? (place ++ [name]) ≠ some .directory ∧
      t' = t.insert (place ++ [name]) (.file content) := by
  unfold writeFile at hwrite
  cases hslot : t.slot path with
  | error e => simp [hslot, bind, Except.bind] at hwrite
  | ok found =>
    rcases found with ⟨place, _ | name⟩
    · simp [hslot, bind, Except.bind] at hwrite
    · simp only [hslot, bind, Except.bind] at hwrite
      split at hwrite
      · cases hwrite
      rename_i hstroke
      split at hwrite
      · cases hwrite
      rename_i hlong
      split at hwrite
      · cases hwrite
      rename_i hfree
      cases hwrite
      exact ⟨place, name, rfl, hstroke, Nat.not_lt.mp hlong, hfree, rfl⟩

/-- An entry that is put in the slot of a path stands where the path leads then, unless it is a file
and the path asks for a directory. -/
theorem find_insert_slot (entry : Entry) {path : List Char} {name : String}
    (hslot : t.slot path = .ok (place, some name)) (hshort : name.utf8ByteSize ≤ maxPartBytes)
    (hfree : t.entry? (place ++ [name]) ≠ some .directory)
    (hstroke : ∀ content, entry = .file content → ¬ EndsWithStroke path) :
    (t.insert (place ++ [name]) entry).find path = .ok (place ++ [name], entry) := by
  rcases slot_eq_ok hslot with ⟨hcheck, hdirectory, before, hsteps, hwalk, hdot, hup⟩
  have hentry : entry? (t.insert (place ++ [name]) entry) (place ++ [name]) = some entry :=
    t.entry?_insert_self _ (by simp)
  have hplace : entry? (t.insert (place ++ [name]) entry) place = some .directory := by
    rw [← hdirectory]
    exact t.entry?_insert_of_ne _ (by simp)
  have hthere : (Tree.entry? (t.insert (place ++ [name]) entry) (place ++ [name])).isSome := by
    rw [hentry]
    rfl
  -- The way to the entry is the way to its directory and one step more.
  have hstep := step_eq_ok_iff.mpr ⟨hplace, .inr (.inr ⟨hdot, hup, hshort, hthere, rfl⟩)⟩
  have hway : (t.insert (place ++ [name]) entry).walk (t.start path) (steps path) =
      .ok (place ++ [name]) := by
    rw [hsteps, walk_append, walk_insert hfree _ hwalk]
    simp only [walk, hstep, bind, Except.bind]
  have hstart : (t.insert (place ++ [name]) entry).start path = t.start path := rfl
  simp only [find, hcheck, hstart, hway, hentry, bind, Except.bind, pure, Except.pure]
  cases entry with
  | directory => rfl
  | file content => exact if_neg (hstroke content rfl)

/-- A file is read as it was written. -/
theorem readText_of_writeFile {path : List Char} {content : List UInt8} {t' : Tree}
    (hwrite : t.writeFile path content = .ok t') :
    t'.readText path = textOf ⟨content.toArray⟩ := by
  rcases writeFile_eq_ok hwrite with ⟨place, name, hslot, hstroke, hshort, hfree, rfl⟩
  have hfind := find_insert_slot (.file content) hslot hshort hfree fun _ _ => hstroke
  simp only [readText, hfind, bind, Except.bind]

end Tree

end Fieldbus.Files
