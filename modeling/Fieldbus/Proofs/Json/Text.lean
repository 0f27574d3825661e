import Fieldbus.Proofs.Json.Grammar

/-!
# Reading texts

`readText` reads what `Decodes` says, and `skipText` passes over what has the form of a text.  The
first unescaped quote ends both, so that nothing depends on what follows.
-/

namespace Fieldbus.Json

variable {rest s raw chars esc : List Char}

theorem Escape.form {x : Char} (h : Escape esc x) :
    EscapeForm esc ∨ ∃ first second, esc = first ++ '\\' :: second ∧ EscapeForm first ∧
      EscapeForm second := by
  cases h with
  | letter h => exact Or.inl (.letter h)
  | unit h => exact Or.inl (.unit h)
  | pair h _ h' => exact Or.inr ⟨_, _, rfl, .unit h, .unit h'⟩

/-- What stands for characters has the form of a text. -/
theorem Decodes.form (h : Decodes raw chars) : TextForm raw := by
  induction h with
  | nil => exact .nil
  | plain hc _ ih => exact .plain hc ih
  | escape hesc _ ih =>
    rcases hesc.form with hform | ⟨first, second, rfl, hfirst, hsecond⟩
    · exact .escape hform ih
    · rw [List.append_assoc]
      exact .escape hfirst (.escape hsecond ih)

/-! ## Escapes -/

theorem yields_readCodeUnit {u : Nat} :
    Yields (readCodeUnit s) u rest ↔
      ∃ a b c d, s = a :: b :: c :: d :: rest ∧ codeUnit? a b c d = some u := by
  unfold readCodeUnit
  split
  · split
    · rename_i hunit
      rw [yields_ok]
      refine ⟨?_, ?_⟩
      · rintro ⟨rfl, rfl⟩
        exact ⟨_, _, _, _, rfl, hunit⟩
      · rintro ⟨a, b, c, d, h, hunit'⟩
        cases h
        cases hunit.symm.trans hunit'
        exact ⟨rfl, rfl⟩
    · rename_i hunit
      refine ⟨fun h => absurd h not_yields_error, ?_⟩
      rintro ⟨a, b, c, d, h, hunit'⟩
      cases h
      cases hunit.symm.trans hunit'
  · rename_i hshort
    refine ⟨?_, ?_⟩
    · intro h
      split at h
      · exact absurd h not_yields_error
      · exact absurd h not_yields_error
    · rintro ⟨a, b, c, d, rfl, -⟩
      exact absurd rfl (hshort a b c d rest)

theorem yields_readTrailing {leading : Nat} {x : Char} :
    Yields (readTrailing leading s) x rest ↔
      ∃ a b c d u, s = '\\' :: 'u' :: a :: b :: c :: d :: rest ∧ codeUnit? a b c d = some u ∧
        IsTrailing u ∧ pairedChar leading u = x := by
  refine ⟨?_, ?_⟩
  · intro h
    unfold readTrailing at h
    split at h
    · exact absurd h not_yields_error
    · exact absurd h not_yields_error
    · rcases yields_taken.mp h with ⟨u, r, _, hunit, h⟩
      rcases yields_readCodeUnit.mp hunit with ⟨a, b, c, d, rfl, hcode⟩
      split at h
      · rename_i htrailing
        rcases yields_pure.mp h with ⟨hpaired, rfl⟩
        dsimp only at hpaired
        exact ⟨a, b, c, d, u, rfl, hcode, htrailing, hpaired⟩
      · exact absurd h not_yields_error
    · exact absurd h not_yields_error
    · exact absurd h not_yields_error
  · rintro ⟨a, b, c, d, u, rfl, hcode, htrailing, hpaired⟩
    have hunit : Yields (readCodeUnit (a :: b :: c :: d :: rest)) u rest :=
      yields_readCodeUnit.mpr ⟨a, b, c, d, rfl, hcode⟩
    refine yields_taken.mpr ⟨u, rest, hunit.length_lt, hunit, ?_⟩
    rw [if_pos htrailing, yields_pure]
    dsimp only
    exact ⟨hpaired, rfl⟩

theorem of_readEscape {x : Char} (h : Yields (readEscape s) x rest) :
    ∃ esc, s = esc ++ rest ∧ Escape esc x := by
  unfold readEscape at h
  split at h
  · exact absurd h not_yields_error
  · rcases yields_taken.mp h with ⟨u, r, _, hunit, h⟩
    rcases yields_readCodeUnit.mp hunit with ⟨a, b, c, d, rfl, hcode⟩
    split at h
    · exact absurd h not_yields_error
    · rename_i htrailing
      dsimp only at h
      split at h
      · rename_i hleading
        rcases yields_readTrailing.mp (yields_widen.mp h)
          with ⟨a', b', c', d', u', rfl, hcode', htrailing', hpaired⟩
        subst hpaired
        exact ⟨_, rfl, .pair hcode hleading hcode' htrailing'⟩
      · rename_i hleading
        rcases yields_pure.mp h with ⟨rfl, rfl⟩
        exact ⟨_, rfl, .unit hcode hleading htrailing⟩
  · split at h
    · rename_i hletter
      rcases yields_ok.mp h with ⟨rfl, rfl⟩
      exact ⟨_, rfl, .letter hletter⟩
    · exact absurd h not_yields_error

theorem readEscape_of {x : Char} (hesc : Escape esc x) : Yields (readEscape (esc ++ rest)) x rest := by
  cases hesc with
  | letter hletter =>
    rw [List.singleton_append, readEscape]
    · simp only [hletter]
      exact yields_ok.mpr ⟨rfl, rfl⟩
    · rintro rfl
      cases hletter
  | @unit a b c d u hcode hleading htrailing =>
    have hunit : Yields (readCodeUnit (a :: b :: c :: d :: rest)) u rest :=
      yields_readCodeUnit.mpr ⟨a, b, c, d, rfl, hcode⟩
    simp only [List.cons_append, List.nil_append, readEscape]
    refine yields_taken.mpr ⟨u, rest, hunit.length_lt, hunit, ?_⟩
    rw [if_neg htrailing]
    dsimp only
    rw [if_neg hleading, yields_pure]
    exact ⟨rfl, rfl⟩
  | @pair a b c d a' b' c' d' u u' hcode hleading hcode' htrailing =>
    have hunit :
        Yields (readCodeUnit (a :: b :: c :: d :: '\\' :: 'u' :: a' :: b' :: c' :: d' :: rest)) u
          ('\\' :: 'u' :: a' :: b' :: c' :: d' :: rest) :=
      yields_readCodeUnit.mpr ⟨a, b, c, d, rfl, hcode⟩
    have htrailed : Yields (readTrailing u ('\\' :: 'u' :: a' :: b' :: c' :: d' :: rest))
        (pairedChar u u') rest :=
      yields_readTrailing.mpr ⟨a', b', c', d', u', rfl, hcode', htrailing, rfl⟩
    -- A leading unit is not refused as a trailing one that stands alone.
    have hnot : ¬ IsTrailing u := by
      rintro ⟨hlow, -⟩
      exact absurd (Nat.le_trans hlow hleading.2) (by decide)
    simp only [List.cons_append, List.nil_append, readEscape]
    refine yields_taken.mpr ⟨u, _, hunit.length_lt, hunit, ?_⟩
    rw [if_neg hnot]
    dsimp only
    rw [if_pos hleading]
    exact yields_widen.mpr htrailed

theorem yields_skipEscape :
    Yields (skipEscape s) () rest ↔ ∃ esc, s = esc ++ rest ∧ EscapeForm esc := by
  refine ⟨?_, ?_⟩
  · intro h
    unfold skipEscape at h
    split at h
    · exact absurd h not_yields_error
    · rcases yields_taken.mp h with ⟨u, r, _, hunit, h⟩
      rcases yields_readCodeUnit.mp hunit with ⟨a, b, c, d, rfl, hcode⟩
      rcases yields_pure.mp h with ⟨-, rfl⟩
      exact ⟨_, rfl, .unit hcode⟩
    · split at h
      · rename_i hletter
        rcases yields_ok.mp h with ⟨-, rfl⟩
        rcases Option.isSome_iff_exists.mp hletter with ⟨x, hx⟩
        exact ⟨_, rfl, .letter hx⟩
      · exact absurd h not_yields_error
  · rintro ⟨esc, rfl, hesc⟩
    cases hesc with
    | letter hletter =>
      rw [List.singleton_append, skipEscape]
      · rw [if_pos (Option.isSome_iff_exists.mpr ⟨_, hletter⟩)]
        exact yields_ok.mpr ⟨rfl, rfl⟩
      · rintro rfl
        cases hletter
    | @unit a b c d u hcode =>
      have hunit : Yields (readCodeUnit (a :: b :: c :: d :: rest)) u rest :=
        yields_readCodeUnit.mpr ⟨a, b, c, d, rfl, hcode⟩
      simp only [List.cons_append, List.nil_append, skipEscape]
      exact yields_taken.mpr ⟨u, rest, hunit.length_lt, hunit, yields_pure.mpr ⟨rfl, rfl⟩⟩

/-! ## Texts -/

theorem yields_readText :
    Yields (readText s) chars rest ↔ ∃ raw, s = raw ++ '"' :: rest ∧ Decodes raw chars := by
  refine ⟨?_, ?_⟩
  · intro h
    -- An escape is more than one character, so that the recursion is on the length.
    induction hlength : s.length using Nat.strongRecOn generalizing s chars rest with
    | _ n ih =>
      unfold readText at h
      split at h
      · exact absurd h not_yields_error
      · rcases yields_ok.mp h with ⟨rfl, rfl⟩
        exact ⟨[], rfl, .nil⟩
      · rcases yields_taken.mp h with ⟨x, behind, hlt, hescape, h⟩
        rcases yields_taken.mp h with ⟨more, _, _, hmore, h⟩
        rcases yields_pure.mp h with ⟨rfl, rfl⟩
        rcases of_readEscape hescape with ⟨esc, rfl, hesc⟩
        rcases ih behind.length (by simp only [List.length_cons] at hlength; omega) hmore rfl
          with ⟨raw, rfl, hraw⟩
        exact ⟨_, by rw [List.cons_append, List.append_assoc], .escape hesc hraw⟩
      · rename_i c s hquote hslash
        split at h
        · exact absurd h not_yields_error
        · rename_i hcontrol
          rcases yields_taken.mp h with ⟨more, _, _, hmore, h⟩
          rcases yields_pure.mp h with ⟨rfl, rfl⟩
          rcases ih s.length (by simp only [List.length_cons] at hlength; omega) hmore rfl
            with ⟨raw, rfl, hraw⟩
          exact ⟨c :: raw, rfl, .plain ⟨hquote, hslash, hcontrol⟩ hraw⟩
  · rintro ⟨raw, rfl, hraw⟩
    induction hraw with
    | nil =>
      rw [List.nil_append, readText]
      exact yields_ok.mpr ⟨rfl, rfl⟩
    | @plain c raw chars hc _ ih =>
      rcases hc with ⟨hquote, hslash, hcontrol⟩
      rw [List.cons_append, readText]
      · rw [if_neg hcontrol]
        exact yields_taken.mpr ⟨_, _, ih.length_lt, ih, yields_pure.mpr ⟨rfl, rfl⟩⟩
      · exact hquote
      · exact hslash
    | @escape esc raw chars x hesc _ ih =>
      have hescape : Yields (readEscape (esc ++ (raw ++ '"' :: rest))) x (raw ++ '"' :: rest) :=
        readEscape_of hesc
      rw [List.cons_append, List.append_assoc, readText]
      refine yields_taken.mpr ⟨_, _, hescape.length_lt, hescape, ?_⟩
      exact yields_taken.mpr ⟨_, _, ih.length_lt, ih, yields_pure.mpr ⟨rfl, rfl⟩⟩

theorem yields_skipText :
    Yields (skipText s) () rest ↔ ∃ raw, s = raw ++ '"' :: rest ∧ TextForm raw := by
  refine ⟨?_, ?_⟩
  · intro h
    induction hlength : s.length using Nat.strongRecOn generalizing s rest with
    | _ n ih =>
      unfold skipText at h
      split at h
      · exact absurd h not_yields_error
      · rcases yields_ok.mp h with ⟨-, rfl⟩
        exact ⟨[], rfl, .nil⟩
      · rcases yields_taken.mp h with ⟨_, behind, hlt, hescape, h⟩
        rcases yields_skipEscape.mp hescape with ⟨esc, rfl, hesc⟩
        rcases ih behind.length (by simp only [List.length_cons] at hlength; omega)
          (yields_widen.mp h) rfl with ⟨raw, rfl, hraw⟩
        exact ⟨_, by rw [List.cons_append, List.append_assoc], .escape hesc hraw⟩
      · rename_i c s hquote hslash
        split at h
        · exact absurd h not_yields_error
        · rename_i hcontrol
          rcases ih s.length (by simp only [List.length_cons] at hlength; omega)
            (yields_widen.mp h) rfl with ⟨raw, rfl, hraw⟩
          exact ⟨c :: raw, rfl, .plain ⟨hquote, hslash, hcontrol⟩ hraw⟩
  · rintro ⟨raw, rfl, hraw⟩
    induction hraw with
    | nil =>
      rw [List.nil_append, skipText]
      exact yields_ok.mpr ⟨rfl, rfl⟩
    | @plain c raw hc _ ih =>
      rcases hc with ⟨hquote, hslash, hcontrol⟩
      rw [List.cons_append, skipText]
      · rw [if_neg hcontrol]
        exact yields_widen.mpr ih
      · exact hquote
      · exact hslash
    | @escape esc raw hesc _ ih =>
      have hescape : Yields (skipEscape (esc ++ (raw ++ '"' :: rest))) () (raw ++ '"' :: rest) :=
        yields_skipEscape.mpr ⟨esc, rfl, hesc⟩
      rw [List.cons_append, List.append_assoc, skipText]
      exact yields_taken.mpr ⟨_, _, hescape.length_lt, hescape, yields_widen.mpr ih⟩

end Fieldbus.Json
