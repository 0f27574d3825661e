import Mathlib.Data.List.Forall2
import Fieldbus.Proofs.Json.Skip

/-!
# Reading values

`ReadsBy` says what a reader of values is for: it reads exactly the trees that mean something.  Here
are the readers of single values and of lists.
-/

namespace Fieldbus.Json

variable {α β : Type} {rest s : List Char}

/-- The reader reads the trees that mean something, and answers what they mean. -/
structure ReadsBy (r : Reader α) (means : Tree → α → Prop) : Prop where
  sound : ∀ {s rest : List Char} {value : α}, Yields (r s) value rest →
    ∃ pre tree body, Blanks pre ∧ s = pre ++ (body ++ rest) ∧ Spelled (.value tree) body ∧
      means tree value
  complete : ∀ {pre body rest : List Char} {tree : Tree} {value : α}, Blanks pre →
    Spelled (.value tree) body → Ends rest → means tree value →
      Yields (r (pre ++ (body ++ rest))) value rest

/-! ## Single values -/

/-- The tree is a truth value. -/
def Tree.IsFlag (tree : Tree) (value : Bool) : Prop :=
  tree = .flag value

/-- The tree is a text that stands for these characters. -/
def Tree.IsText (tree : Tree) (value : String) : Prop :=
  ∃ raw, tree = .text raw ∧ Decodes raw value.toList

/-- The tree is a number that is written with digits only. -/
def Tree.IsNatural (tree : Tree) (value : Nat) : Prop :=
  ∃ n : Numeral, tree = .number n ∧ n.Plain ∧ n.value = value

theorem readBool_readsBy : ReadsBy readBool Tree.IsFlag := by
  refine ⟨?_, ?_⟩
  · intro s rest value h
    unfold readBool at h
    rcases front_cases s with ⟨-, hfront⟩ | ⟨pre, c, r, _, hpre, -, rfl, hfront⟩
    · rw [hfront] at h
      exact absurd h not_yields_error
    · rw [hfront] at h
      split at h
      · exact absurd h not_yields_error
      · rename_i heq
        cases heq
        rcases yields_map_widen.mp h with ⟨_, hword, rfl⟩
        exact ⟨pre, _, _, hpre, by rw [yields_readWord.mp hword]; rfl, .isTrue, rfl⟩
      · rename_i heq
        cases heq
        rcases yields_map_widen.mp h with ⟨_, hword, rfl⟩
        exact ⟨pre, _, _, hpre, by rw [yields_readWord.mp hword]; rfl, .isFalse, rfl⟩
      · exact absurd h not_yields_error
  · rintro pre body rest tree value hpre hbody hends rfl
    unfold readBool
    cases hbody with
    | isTrue =>
      rcases front_append hpre (by decide : isBlank 't' = false) ('r' :: 'u' :: 'e' :: rest)
        with ⟨_, hfront⟩
      simp only [List.cons_append, List.nil_append, hfront]
      exact yields_map_widen.mpr ⟨(), yields_readWord.mpr rfl, rfl⟩
    | isFalse =>
      rcases front_append hpre (by decide : isBlank 'f' = false) ('a' :: 'l' :: 's' :: 'e' :: rest)
        with ⟨_, hfront⟩
      simp only [List.cons_append, List.nil_append, hfront]
      exact yields_map_widen.mpr ⟨(), yields_readWord.mpr rfl, rfl⟩

theorem readString_readsBy : ReadsBy readString Tree.IsText := by
  refine ⟨?_, ?_⟩
  · intro s rest value h
    unfold readString at h
    rcases front_cases s with ⟨-, hfront⟩ | ⟨pre, c, r, _, hpre, -, rfl, hfront⟩
    · rw [hfront] at h
      exact absurd h not_yields_error
    · rw [hfront] at h
      split at h
      · exact absurd h not_yields_error
      · rename_i heq
        cases heq
        rcases yields_map_widen.mp h with ⟨chars, htext, rfl⟩
        rcases yields_readText.mp htext with ⟨raw, rfl, hraw⟩
        refine ⟨pre, _, _, hpre, ?_, .text hraw.form, raw, rfl, ?_⟩
        · simp
        · rw [String.toList_ofList]
          exact hraw
      · exact absurd h not_yields_error
  · rintro pre body rest tree value hpre hbody hends ⟨raw, rfl, hraw⟩
    cases hbody with
    | text =>
      rcases front_append hpre (by decide : isBlank '"' = false) (raw ++ ['"'] ++ rest)
        with ⟨_, hfront⟩
      have htext : Yields (readText (raw ++ ['"'] ++ rest)) value.toList rest :=
        yields_readText.mpr ⟨raw, by simp, hraw⟩
      unfold readString
      simp only [List.cons_append, hfront]
      exact yields_map_widen.mpr ⟨_, htext, String.ofList_toList⟩

theorem readUnsigned_readsBy {expected : String} {bound : Nat} (hbound : bound ≤ maxSignificand) :
    ReadsBy (readUnsigned expected bound) fun tree value =>
      tree.IsNatural value ∧ value ≤ bound := by
  refine ⟨?_, ?_⟩
  · intro s rest value h
    rcases of_readUnsigned h with ⟨pre, whole, hpre, rfl, hwhole, hvalue, hle⟩
    -- The digits alone are a numeral.
    let n : Numeral := ⟨false, whole, [], []⟩
    have htext : n.text = whole := by simp [n, Numeral.text, Numeral.magnitude]
    refine ⟨pre, .number n, n.text, hpre, ?_, .number ⟨hwhole, .none, .none⟩,
      ⟨n, rfl, ?_, hvalue⟩, hle⟩
    · rw [htext]
    · exact ⟨rfl, rfl, rfl⟩
  · rintro pre body rest tree value hpre hbody hends
      ⟨⟨n, rfl, ⟨hpositive, hfraction, hexponent⟩, hvalue⟩, hle⟩
    have htext : n.text = n.whole := by
      simp [Numeral.text, Numeral.magnitude, hpositive, hfraction, hexponent]
    cases hbody with
    | number hn =>
      subst hvalue
      rw [htext]
      exact readUnsigned_of_whole hpre hn.whole hle hbound hends

/-! ## Lists -/

/-! ### Where a list goes on -/

theorem further_close {first : Bool} {b : List Char} (hb : Blanks b) :
    ∃ h, further first (b ++ ']' :: rest) = .ok (.close rest h) := by
  rcases front_append hb (by decide : isBlank ']' = false) rest with ⟨h, hfront⟩
  refine ⟨h, ?_⟩
  unfold further
  simp only [hfront]

theorem further_first {b : List Char} {c : Char} (hb : Blanks b) (hc : isBlank c = false)
    (hclose : c ≠ ']') : ∃ h, further true (b ++ c :: rest) = .ok (.item (c :: rest) h) := by
  rcases front_append hb hc rest with ⟨h, hfront⟩
  refine ⟨h, ?_⟩
  unfold further
  simp only [hfront]
  rfl

theorem further_next {b b' : List Char} {c : Char} (hb : Blanks b) (hb' : Blanks b')
    (hc : isBlank c = false) (hclose : c ≠ ']') :
    ∃ h, further false (b ++ ',' :: (b' ++ c :: rest)) = .ok (.item (b' ++ c :: rest) h) := by
  rcases front_append hb (by decide : isBlank ',' = false) (b' ++ c :: rest) with ⟨h, hfront⟩
  rcases front_append hb' hc rest with ⟨_, hfront'⟩
  refine ⟨Nat.le_of_lt h, ?_⟩
  unfold further
  simp only [hfront]
  simp [hfront']

theorem of_further_close {first : Bool} {h : rest.length < s.length}
    (hfurther : further first s = .ok (.close rest h)) : ∃ b, Blanks b ∧ s = b ++ ']' :: rest := by
  unfold further at hfurther
  rcases front_cases s with ⟨-, hfront⟩ | ⟨b, c, r, _, hb, -, rfl, hfront⟩
  · rw [hfront] at hfurther
    cases hfurther
  · rw [hfront] at hfurther
    split at hfurther
    · cases hfurther
    · rename_i heq
      cases heq
      cases hfurther
      exact ⟨b, hb, rfl⟩
    · split at hfurther
      · cases hfurther
      · split at hfurther
        · split at hfurther <;> cases hfurther
        · cases hfurther

/-- An item is looked for behind the blanks, or behind the comma. -/
theorem of_further_item {first : Bool} {r : List Char} {h : r.length ≤ s.length}
    (hfurther : further first s = .ok (.item r h)) :
    ∃ b, Blanks b ∧ s = if first then b ++ r else b ++ ',' :: r := by
  unfold further at hfurther
  rcases front_cases s with ⟨-, hfront⟩ | ⟨b, c, r', _, hb, -, rfl, hfront⟩
  · rw [hfront] at hfurther
    cases hfurther
  · rw [hfront] at hfurther
    split at hfurther
    · cases hfurther
    · cases hfurther
    · rename_i heq
      cases heq
      split at hfurther
      · rename_i hfirst
        cases hfurther
        exact ⟨b, hb, (if_pos hfirst).symm⟩
      · rename_i hfirst
        split at hfurther
        · rename_i hcomma
          subst hcomma
          split at hfurther
          · cases hfurther
          · cases hfurther
          · cases hfurther
            exact ⟨b, hb, (if_neg hfirst).symm⟩
        · cases hfurther

/-! ### Items -/

section

variable {item : Reader α} {means : Tree → α → Prop} {values : List α}

/-- An item, and what follows it up to the bracket that closes the list. -/
theorem yields_readItems_item {first : Bool} {r : List Char} {h : r.length ≤ s.length}
    (hfurther : further first s = .ok (.item r h)) :
    Yields (readItems item first s) values rest ↔
      ∃ value behind values', Yields (item r) value behind ∧
        Yields (readItems item false behind) values' rest ∧ values = value :: values' := by
  rw [readItems, hfurther]
  refine ⟨?_, ?_⟩
  · intro hyields
    rcases yields_taken.mp hyields with ⟨value, behind, _, hitem, hyields⟩
    rcases yields_map_widen.mp hyields with ⟨values', hitems, rfl⟩
    exact ⟨value, behind, values', hitem, hitems, rfl⟩
  · rintro ⟨value, behind, values', hitem, hitems, rfl⟩
    exact yields_taken.mpr ⟨value, behind, hitem.length_lt, hitem,
      yields_map_widen.mpr ⟨values', hitems, rfl⟩⟩

theorem yields_readItems_close {first : Bool} {r : List Char} {h : r.length < s.length}
    (hfurther : further first s = .ok (.close r h)) :
    Yields (readItems item first s) values rest ↔ values = [] ∧ rest = r := by
  rw [readItems, hfurther]
  dsimp only
  rw [yields_ok]
  exact ⟨fun h => ⟨h.1.symm, h.2.symm⟩, fun h => ⟨h.1.symm, h.2.symm⟩⟩

theorem not_yields_readItems {first : Bool} {e : Failure} (hfurther : further first s = .error e) :
    ¬ Yields (readItems item first s) values rest := by
  rw [readItems, hfurther]
  exact not_yields_error

theorem of_readItems_later (hitem : ReadsBy item means)
    (h : Yields (readItems item false s) values rest) :
    ∃ later more, s = more ++ rest ∧ Spelled (.items later) more ∧
      List.Forall₂ means later values := by
  induction hlength : s.length using Nat.strongRecOn generalizing s values with
  | _ n ih =>
    cases hfurther : further false s with
    | error e => exact absurd h (not_yields_readItems hfurther)
    | ok found =>
      cases found with
      | close r _ =>
        rcases (yields_readItems_close hfurther).mp h with ⟨rfl, rfl⟩
        rcases of_further_close hfurther with ⟨b, hb, rfl⟩
        exact ⟨[], _, by simp, .noItems hb, .nil⟩
      | item r _ =>
        rcases (yields_readItems_item hfurther).mp h
          with ⟨value, behind, values', hhead, htail, rfl⟩
        rcases of_further_item hfurther with ⟨b, hb, hs⟩
        rw [if_neg (by decide)] at hs
        subst hs
        have hlt : behind.length < n := by
          have := hhead.length_lt
          simp only [List.length_append, List.length_cons] at hlength
          omega
        rcases hitem.sound hhead with ⟨b', tree, body, hb', rfl, hbody, hvalue⟩
        rcases ih behind.length hlt htail rfl with ⟨later, more, rfl, hmore, heach⟩
        exact ⟨tree :: later, _, by simp, .items hb hb' hbody hmore, .cons hvalue heach⟩

theorem readItems_later_of (hitem : ReadsBy item means) {later : List Tree} {more : List Char}
    (h : Spelled (.items later) more) (heach : List.Forall₂ means later values) :
    Yields (readItems item false (more ++ rest)) values rest := by
  induction heach generalizing more with
  | nil =>
    cases h with
    | @noItems b hb =>
      rcases further_close hb with ⟨_, hfurther⟩
      rw [List.append_assoc, List.singleton_append]
      exact (yields_readItems_close hfurther).mpr ⟨rfl, rfl⟩
  | @cons tree value later values hvalue _ ih =>
    cases h with
    | @items b b' body more _ _ hb hb' hbody hmore =>
      have hs : b ++ ',' :: (b' ++ (body ++ more)) ++ rest =
          b ++ ',' :: (b' ++ (body ++ (more ++ rest))) := by simp
      have hread := hitem.complete hb' hbody (hmore.ends_items rest) hvalue
      rcases head_of_spelled hbody with ⟨c, r, rfl, hblank, hclose, -⟩
      rcases further_next hb hb' hblank hclose with ⟨_, hfurther⟩
      rw [hs]
      exact (yields_readItems_item hfurther).mpr ⟨value, _, values, hread, ih hmore, rfl⟩

theorem of_readList (hitem : ReadsBy item means) (h : Yields (readList item s) values rest) :
    ∃ pre trees body, Blanks pre ∧ s = pre ++ (body ++ rest) ∧
      Spelled (.value (.list trees)) body ∧ List.Forall₂ means trees values := by
  unfold readList at h
  rcases front_cases s with ⟨-, hfront⟩ | ⟨pre, c, r, _, hpre, -, rfl, hfront⟩
  · rw [hfront] at h
    exact absurd h not_yields_error
  · rw [hfront] at h
    split at h
    · exact absurd h not_yields_error
    · rename_i heq
      cases heq
      have hitems := yields_widen.mp h
      cases hfurther : further true r with
      | error e => exact absurd hitems (not_yields_readItems hfurther)
      | ok found =>
        cases found with
        | close r' _ =>
          rcases (yields_readItems_close hfurther).mp hitems with ⟨rfl, rfl⟩
          rcases of_further_close hfurther with ⟨b, hb, rfl⟩
          exact ⟨pre, [], _, hpre, by simp, .emptyList hb, .nil⟩
        | item r' _ =>
          rcases (yields_readItems_item hfurther).mp hitems
            with ⟨value, behind, values', hhead, htail, rfl⟩
          rcases of_further_item hfurther with ⟨b, hb, hs⟩
          rw [if_pos rfl] at hs
          subst hs
          -- The blanks behind the bracket are those that the first item is read with.
          rcases hitem.sound hhead with ⟨b', tree, body, hb', rfl, hbody, hvalue⟩
          rcases of_readItems_later hitem htail with ⟨later, more, rfl, hmore, heach⟩
          refine ⟨pre, tree :: later, _, hpre, ?_, .list (blanks_append hb hb') hbody hmore,
            .cons hvalue heach⟩
          simp
    · exact absurd h not_yields_error

theorem readList_of (hitem : ReadsBy item means) {pre body : List Char} {trees : List Tree}
    (hpre : Blanks pre) (hbody : Spelled (.value (.list trees)) body)
    (heach : List.Forall₂ means trees values) :
    Yields (readList item (pre ++ (body ++ rest))) values rest := by
  cases hbody with
  | @emptyList b hb =>
    cases heach
    have hs : pre ++ ('[' :: (b ++ [']']) ++ rest) = pre ++ '[' :: (b ++ ']' :: rest) := by simp
    rcases front_of_eq hs hpre (by decide) with ⟨_, hfront⟩
    rcases further_close hb with ⟨_, hfurther⟩
    unfold readList
    simp only [hfront]
    exact yields_widen.mpr ((yields_readItems_close hfurther).mpr ⟨rfl, rfl⟩)
  | @list b body more tree later hb hbody hmore =>
    rcases heach with _ | ⟨hvalue, heach⟩
    have hs : pre ++ ('[' :: (b ++ (body ++ more)) ++ rest) =
        pre ++ '[' :: (b ++ (body ++ (more ++ rest))) := by simp
    have hread := hitem.complete blanks_nil hbody (hmore.ends_items rest) hvalue
    rcases head_of_spelled hbody with ⟨c, r, rfl, hblank, hclose, -⟩
    rcases front_of_eq hs hpre (by decide) with ⟨_, hfront⟩
    rcases further_first hb hblank hclose with ⟨_, hfurther⟩
    unfold readList
    simp only [hfront]
    exact yields_widen.mpr ((yields_readItems_item hfurther).mpr
      ⟨_, _, _, hread, readItems_later_of hitem hmore heach, rfl⟩)

/-- A list of the values is read. -/
theorem readList_readsBy (hitem : ReadsBy item means) :
    ReadsBy (readList item) fun tree values =>
      ∃ trees, tree = .list trees ∧ List.Forall₂ means trees values := by
  refine ⟨?_, ?_⟩
  · intro s rest values h
    rcases of_readList hitem h with ⟨pre, trees, body, hpre, hs, hbody, heach⟩
    exact ⟨pre, .list trees, body, hpre, hs, hbody, trees, rfl, heach⟩
  · rintro pre body rest tree values hpre hbody - ⟨trees, rfl, heach⟩
    exact readList_of hitem hpre hbody heach

end

end Fieldbus.Json
