import Fieldbus.Proofs.Json.Overlay
import Fieldbus.Proofs.Json.Value

/-!
# Reading by a schema

A schema reads an object with one field after the other, from members or from the items of a list.
If its fields are those of some views, it reads exactly the trees that describe an object, and
answers the object that they describe (`Schema.readsBy`).
-/

namespace Fieldbus.Json

variable {σ : Type}

/-- The field goes by the name of the view, and reads what sets it. -/
structure Field.Matches (field : Field σ) (w : View σ) : Prop where
  name : field.name = w.name
  reads : ReadsBy field.read w.Sets

/-- The fields of the schema are those of the views. -/
def Schema.Fits (schema : Schema σ) (views : Views σ) : Prop :=
  List.Forall₂ Field.Matches schema.fields views.all

variable {schema : Schema σ} {views : Views σ} {seen names : List String} {key : String}
  {tree : Tree} {change : σ → σ} {entries : List (String × Tree)} {x y : σ}
  {c : Char} {rest r s : List Char}

theorem names_of_matches {fields : List (Field σ)} {all : List (View σ)}
    (h : List.Forall₂ Field.Matches fields all) : fields.map (·.name) = all.map (·.name) := by
  induction h with
  | nil => rfl
  | cons hfield _ ih => rw [List.map_cons, List.map_cons, ih, hfield.name]

/-- A key is looked up among the fields as it is among the views. -/
theorem find_of_matches {fields : List (Field σ)} {all : List (View σ)}
    (h : List.Forall₂ Field.Matches fields all) (key : String) :
    (∃ field w, fields.find? (·.name = key) = some field ∧ w ∈ all ∧ w.name = key ∧
      field.Matches w) ∨ (fields.find? (·.name = key) = none ∧ ∀ w ∈ all, w.name ≠ key) := by
  induction h with
  | nil => exact Or.inr ⟨rfl, fun _ hw => (nomatch hw)⟩
  | @cons field w fields all hfield _ ih =>
    by_cases hname : w.name = key
    · have hfound : (field :: fields).find? (·.name = key) = some field :=
        List.find?_cons_of_pos (by simpa using hfield.name.trans hname)
      exact Or.inl ⟨field, w, hfound, List.mem_cons_self, hname, hfield⟩
    · rw [List.find?_cons_of_neg (by simpa using fun heq => hname (hfield.name.symm.trans heq))]
      rcases ih with ⟨found, w', hfound, hw', hname', hmatches⟩ | ⟨hnone, hall⟩
      · exact Or.inl ⟨found, w', hfound, List.mem_cons_of_mem _ hw', hname', hmatches⟩
      · refine Or.inr ⟨hnone, ?_⟩
        intro w' hw'
        rcases List.mem_cons.mp hw' with rfl | hw'
        · exact hname
        · exact hall w' hw'

theorem missing?_eq_none (h : schema.Fits views) : schema.missing? seen = none ↔
    (schema.complete = true → ∀ w ∈ views.all, w.name ∈ seen) := by
  have hnames : (∀ field ∈ schema.fields, field.name ∈ seen) ↔ ∀ w ∈ views.all, w.name ∈ seen := by
    rw [← List.forall_mem_map (P := fun name => name ∈ seen), names_of_matches h,
      List.forall_mem_map]
  unfold Schema.missing?
  split
  · rename_i hcomplete
    rw [Option.map_eq_none_iff, List.find?_eq_none, ← hnames]
    simp [hcomplete]
  · rename_i hcomplete
    exact ⟨fun _ h => absurd h hcomplete, fun _ => rfl⟩

/-! ## Members -/

/-- What a member changes, and the names that were seen with it. -/
inductive Meant (views : Views σ) (seen : List String) :
    String → Tree → List String → (σ → σ) → Prop
  | known {w : View σ} {tree : Tree} {change : σ → σ} (hw : w ∈ views.all)
      (hfresh : w.name ∉ seen) (hsets : w.Sets tree change) :
      Meant views seen w.name tree [w.name] change
  | unknown {key : String} {tree : Tree} (hkey : ∀ w ∈ views.all, w.name ≠ key) :
      Meant views seen key tree [] id

theorem Meant.of_known {w : View σ} (hw : w ∈ views.all) (hname : w.name = key)
    (h : Meant views seen key tree names change) :
    w.name ∉ seen ∧ names = [w.name] ∧ w.Sets tree change := by
  cases h with
  | known hw' hfresh hsets =>
    have heq := eq_of_name_eq views.nodup hw hw' hname
    subst heq
    exact ⟨hfresh, rfl, hsets⟩
  | unknown hkey => exact absurd hname (hkey w hw)

theorem Meant.of_unknown (hkey : ∀ w ∈ views.all, w.name ≠ key)
    (h : Meant views seen key tree names change) : names = [] ∧ change = id := by
  cases h with
  | known hw => exact absurd rfl (hkey _ hw)
  | unknown => exact ⟨rfl, rfl⟩

/-- The first entry is laid, and then the others. -/
theorem laid_cons {complete : Bool} :
    Laid views complete seen ((key, tree) :: entries) x y ↔
      ∃ names change, Meant views seen key tree names change ∧
        Laid views complete (names ++ seen) entries (change x) y := by
  refine ⟨?_, ?_⟩
  · intro h
    cases h with
    | known hw hfresh hmeans more => exact ⟨_, _, .known hw hfresh ⟨_, hmeans, rfl⟩, more⟩
    | unknown hkey more => exact ⟨_, _, .unknown hkey, more⟩
  · rintro ⟨names, change, hmeant, more⟩
    cases hmeant with
    | known hw hfresh hsets =>
      rcases hsets with ⟨value, hmeans, rfl⟩
      exact .known hw hfresh hmeans more
    | unknown hkey => exact .unknown hkey more

theorem yields_startOfKey_first :
    Yields (Schema.startOfKey true c s) () rest ↔ c = '"' ∧ s = rest := by
  unfold Schema.startOfKey
  rw [if_pos rfl]
  split
  · rename_i hc
    rw [yields_ok]
    exact ⟨fun h => ⟨hc, h.2⟩, fun h => ⟨rfl, h.2⟩⟩
  · rename_i hc
    exact ⟨fun h => absurd h not_yields_error, fun h => absurd h.1 hc⟩

theorem yields_startOfKey_later :
    Yields (Schema.startOfKey false c s) () rest ↔
      c = ',' ∧ ∃ b, Blanks b ∧ s = b ++ '"' :: rest := by
  unfold Schema.startOfKey
  rw [if_neg (by decide)]
  refine ⟨?_, ?_⟩
  · intro h
    split at h
    · rename_i hc
      refine ⟨hc, ?_⟩
      rcases front_cases s with ⟨-, hfront⟩ | ⟨b, d, r, _, hb, -, rfl, hfront⟩
      · rw [hfront] at h
        exact absurd h not_yields_error
      · rw [hfront] at h
        split at h
        · exact absurd h not_yields_error
        · rename_i heq
          cases heq
          rcases yields_ok.mp h with ⟨-, rfl⟩
          exact ⟨b, hb, rfl⟩
        · exact absurd h not_yields_error
        · exact absurd h not_yields_error
    · exact absurd h not_yields_error
  · rintro ⟨rfl, b, hb, rfl⟩
    rcases front_append hb (by decide : isBlank '"' = false) rest with ⟨_, hfront⟩
    rw [if_pos rfl, hfront]
    exact yields_ok.mpr ⟨rfl, rfl⟩

theorem of_readMember {first : Bool} (hfits : schema.Fits views)
    (h : Yields (schema.readMember first seen c s) (names, change) rest) :
    ∃ start raw key tree text, Yields (Schema.startOfKey first c s) () start ∧
      '"' :: start = text ++ rest ∧ Spelled (.member raw tree) text ∧ Decodes raw key.toList ∧
      Meant views seen key tree names change := by
  unfold Schema.readMember at h
  rcases yields_taken.mp h with ⟨_, start, _, hstart, h⟩
  rcases yields_taken.mp h with ⟨name, behind, _, htext, h⟩
  rcases yields_readText.mp htext with ⟨raw, rfl, hraw⟩
  have hkey : Decodes raw (String.ofList name).toList := by
    rw [String.toList_ofList]
    exact hraw
  rcases find_of_matches hfits (String.ofList name)
    with ⟨field, w, hfind, hw, hname, hmatches⟩ | ⟨hfind, hunknown⟩
  · simp only [hfind] at h
    split at h
    · exact absurd h not_yields_error
    · rename_i hseen
      rcases yields_taken.mp h with ⟨_, colon, _, hcolon, h⟩
      rcases yields_readColon.mp hcolon with ⟨b, hb, rfl⟩
      rcases yields_taken.mp h with ⟨change', rest', _, hread, h⟩
      rcases yields_pure.mp h with ⟨hvalue, rfl⟩
      rcases Prod.mk.inj hvalue with ⟨rfl, rfl⟩
      rcases hmatches.reads.sound hread with ⟨b', tree, body, hb', rfl, hbody, hsets⟩
      have hfresh : w.name ∉ seen := by
        rw [← hmatches.name]
        simpa using hseen
      refine ⟨_, raw, _, tree, _, hstart, ?_, .member hraw.form hb hb' hbody, hkey, ?_⟩
      · simp
      · rw [← hname, hmatches.name]
        exact .known hw hfresh hsets
  · simp only [hfind] at h
    rcases yields_taken.mp h with ⟨_, colon, _, hcolon, h⟩
    rcases yields_readColon.mp hcolon with ⟨b, hb, rfl⟩
    rcases yields_taken.mp h with ⟨_, rest', _, hskip, h⟩
    rcases yields_pure.mp h with ⟨hvalue, rfl⟩
    rcases Prod.mk.inj hvalue with ⟨rfl, rfl⟩
    rcases of_skipValue hskip with ⟨b', tree, body, hb', rfl, hbody⟩
    refine ⟨_, raw, _, tree, _, hstart, ?_, .member hraw.form hb hb' hbody, hkey,
      .unknown hunknown⟩
    simp

theorem readMember_of {first : Bool} {start raw text : List Char} (hfits : schema.Fits views)
    (hstart : Yields (Schema.startOfKey first c s) () start) (hs : '"' :: start = text ++ rest)
    (h : Spelled (.member raw tree) text) (hends : Ends rest) (hraw : Decodes raw key.toList)
    (hmeant : Meant views seen key tree names change) :
    Yields (schema.readMember first seen c s) (names, change) rest := by
  cases h with
  | @member b b' body _ _ hform hb hb' hbody =>
    have htail : start = raw ++ '"' :: (b ++ ':' :: (b' ++ (body ++ rest))) := by
      simpa using hs
    subst htail
    have htext : Yields (readText (raw ++ '"' :: (b ++ ':' :: (b' ++ (body ++ rest))))) key.toList
        (b ++ ':' :: (b' ++ (body ++ rest))) := yields_readText.mpr ⟨raw, rfl, hraw⟩
    have hcolon : Yields (readColon (b ++ ':' :: (b' ++ (body ++ rest)))) ()
        (b' ++ (body ++ rest)) := yields_readColon.mpr ⟨b, hb, rfl⟩
    unfold Schema.readMember
    refine yields_taken.mpr ⟨_, _, hstart.length_lt, hstart, ?_⟩
    refine yields_taken.mpr ⟨_, _, htext.length_lt, htext, ?_⟩
    dsimp only
    rw [String.ofList_toList]
    -- The key is looked up among the fields; what it means is said of the views.
    rcases find_of_matches hfits key with ⟨field, w, hfind, hw, hname, hmatches⟩ | ⟨hfind, hkey⟩
    · rcases hmeant.of_known hw hname with ⟨hfresh, rfl, hsets⟩
      have hread := hmatches.reads.complete hb' hbody hends hsets
      have hseen : ¬ seen.contains field.name = true := by
        rw [hmatches.name]
        simpa using hfresh
      rw [hfind]
      dsimp only
      rw [if_neg hseen]
      refine yields_taken.mpr ⟨_, _, hcolon.length_lt, hcolon, ?_⟩
      refine yields_taken.mpr ⟨_, _, hread.length_lt, hread, ?_⟩
      exact yields_pure.mpr ⟨by rw [hmatches.name], rfl⟩
    · rcases hmeant.of_unknown hkey with ⟨rfl, rfl⟩
      have hskip := skipValue_of hb' hbody hends
      rw [hfind]
      refine yields_taken.mpr ⟨_, _, hcolon.length_lt, hcolon, ?_⟩
      exact yields_taken.mpr ⟨_, _, hskip.length_lt, hskip, yields_pure.mpr ⟨rfl, rfl⟩⟩

section

variable {first : Bool} {h : r.length < s.length}

theorem yields_readMembers_close (hfits : schema.Fits views) (hfront : front s = .char '}' r h) :
    Yields (schema.readMembers first seen x s) y rest ↔
      Laid views schema.complete seen [] x y ∧ rest = r := by
  rw [Schema.readMembers, hfront]
  dsimp only
  rw [if_pos rfl]
  cases hmissing : schema.missing? seen with
  | some name =>
    refine ⟨fun h => absurd h not_yields_error, ?_⟩
    rintro ⟨⟨hall⟩, -⟩
    cases hmissing.symm.trans ((missing?_eq_none hfits).mpr hall)
  | none =>
    dsimp only
    rw [yields_ok]
    refine ⟨?_, ?_⟩
    · rintro ⟨rfl, rfl⟩
      exact ⟨.nil ((missing?_eq_none hfits).mp hmissing), rfl⟩
    · rintro ⟨⟨-⟩, rfl⟩
      exact ⟨rfl, rfl⟩

theorem yields_readMembers_member (hfront : front s = .char c r h) (hc : c ≠ '}') :
    Yields (schema.readMembers first seen x s) y rest ↔
      ∃ names change behind, Yields (schema.readMember first seen c r) (names, change) behind ∧
        Yields (schema.readMembers false (names ++ seen) (change x) behind) y rest := by
  rw [Schema.readMembers, hfront]
  dsimp only
  rw [if_neg hc]
  refine ⟨?_, ?_⟩
  · intro h
    rcases yields_taken.mp h with ⟨⟨names, change⟩, behind, _, hmember, h⟩
    exact ⟨names, change, behind, hmember, yields_widen.mp h⟩
  · rintro ⟨names, change, behind, hmember, h⟩
    exact yields_taken.mpr ⟨_, _, hmember.length_lt, hmember, yields_widen.mpr h⟩

theorem not_yields_readMembers (hfront : front s = .blank) :
    ¬ Yields (schema.readMembers first seen x s) y rest := by
  rw [Schema.readMembers, hfront]
  exact not_yields_error

end

theorem of_readMembers_later (hfits : schema.Fits views)
    (h : Yields (schema.readMembers false seen x s) y rest) :
    ∃ later more entries, s = more ++ rest ∧ Spelled (.members later) more ∧
      Keyed later entries ∧ Laid views schema.complete seen entries x y := by
  induction hlength : s.length using Nat.strongRecOn generalizing s seen x with
  | _ n ih =>
    rcases front_cases s with ⟨-, hfront⟩ | ⟨b, c, r, hr, hb, -, rfl, hfront⟩
    · exact absurd h (not_yields_readMembers hfront)
    · by_cases hc : c = '}'
      · subst hc
        rcases (yields_readMembers_close hfits hfront).mp h with ⟨hlaid, rfl⟩
        exact ⟨[], _, [], by simp, .noMembers hb, .nil, hlaid⟩
      · rcases (yields_readMembers_member hfront hc).mp h
          with ⟨names, change, behind, hmember, htail⟩
        have hlt : behind.length < n := hlength ▸ Nat.lt_trans hmember.length_lt hr
        rcases of_readMember hfits hmember
          with ⟨start, raw, key, tree, text, hstart, hs, htext, hraw, hmeant⟩
        rcases yields_startOfKey_later.mp hstart with ⟨rfl, b', hb', rfl⟩
        rcases ih behind.length hlt htail rfl with ⟨later, more, entries, rfl, hmore, hkeys, hlaid⟩
        refine ⟨(raw, tree) :: later, _, (key, tree) :: entries, ?_,
          .members hb hb' htext hmore, .cons ⟨hraw, rfl⟩ hkeys, laid_cons.mpr ⟨_, _, hmeant, hlaid⟩⟩
        rw [hs]
        simp

theorem readMembers_later_of (hfits : schema.Fits views) {later : List (List Char × Tree)}
    {more : List Char} (h : Spelled (.members later) more) (hkeys : Keyed later entries)
    (hlaid : Laid views schema.complete seen entries x y) :
    Yields (schema.readMembers false seen x (more ++ rest)) y rest := by
  induction hkeys generalizing more seen x with
  | nil =>
    cases h with
    | @noMembers b hb =>
      rcases front_of_eq (by simp : b ++ ['}'] ++ rest = b ++ '}' :: rest) hb (by decide)
        with ⟨_, hfront⟩
      exact (yields_readMembers_close hfits hfront).mpr ⟨hlaid, rfl⟩
  | @cons member entry later entries hmember _ ih =>
    rcases member with ⟨raw, tree⟩
    rcases entry with ⟨key, tree'⟩
    rcases hmember with ⟨hraw, rfl⟩
    rcases laid_cons.mp hlaid with ⟨names, change, hmeant, hlaid⟩
    cases h with
    | @members b b' text more _ _ _ hb hb' htext hmore =>
      rcases head_of_member htext with ⟨r, rfl⟩
      have hs : b ++ ',' :: (b' ++ ('"' :: r ++ more)) ++ rest =
          b ++ ',' :: (b' ++ '"' :: (r ++ (more ++ rest))) := by simp
      rcases front_of_eq hs hb (by decide) with ⟨_, hfront⟩
      have hends : Ends (more ++ rest) := hmore.ends_members rest
      have hmember := readMember_of hfits (yields_startOfKey_later.mpr ⟨rfl, b', hb', rfl⟩) rfl
        htext hends hraw hmeant
      exact (yields_readMembers_member hfront (by decide)).mpr
        ⟨names, change, _, hmember, ih hmore hlaid⟩

/-! ## Positions -/

/-- The views whose fields were not seen. -/
structure Remaining (views : Views σ) (seen : List String) (all : List (View σ)) : Prop where
  nodup : (all.map (·.name)).Nodup
  mem_iff : ∀ w, w ∈ all ↔ w ∈ views.all ∧ w.name ∉ seen

theorem remaining_all : Remaining views [] views.all :=
  ⟨views.nodup, fun _ => ⟨fun hw => ⟨hw, List.not_mem_nil⟩, fun h => h.1⟩⟩

section

variable {w : View σ} {all : List (View σ)}

theorem Remaining.tail (h : Remaining views seen (w :: all)) :
    Remaining views (w.name :: seen) all := by
  have hnodup := h.nodup
  rw [List.map_cons, List.nodup_cons] at hnodup
  refine ⟨hnodup.2, ?_⟩
  intro w'
  refine ⟨?_, ?_⟩
  · intro hw'
    rcases (h.mem_iff w').mp (List.mem_cons_of_mem _ hw') with ⟨hmem, hfresh⟩
    refine ⟨hmem, ?_⟩
    intro hseen
    rcases List.mem_cons.mp hseen with hname | hseen
    · exact hnodup.1 (List.mem_map.mpr ⟨w', hw', hname⟩)
    · exact hfresh hseen
  · rintro ⟨hmem, hfresh⟩
    have hseen : w'.name ∉ seen := fun hseen => hfresh (List.mem_cons_of_mem _ hseen)
    rcases List.mem_cons.mp ((h.mem_iff w').mpr ⟨hmem, hseen⟩) with rfl | hw'
    · exact absurd List.mem_cons_self hfresh
    · exact hw'

theorem Remaining.seen_of_nil (h : Remaining views seen []) (hw : w ∈ views.all) :
    w.name ∈ seen := by
  by_cases hseen : w.name ∈ seen
  · exact hseen
  · exact nomatch (h.mem_iff w).mpr ⟨hw, hseen⟩

/-- With a field left, the object is only finished if not all have to be there. -/
theorem Remaining.laid_nil {complete : Bool} (h : Remaining views seen (w :: all)) :
    Laid views complete seen [] x y ↔ complete = false ∧ x = y := by
  rcases (h.mem_iff w).mp List.mem_cons_self with ⟨hw, hfresh⟩
  refine ⟨?_, ?_⟩
  · rintro ⟨hall⟩
    refine ⟨?_, rfl⟩
    cases complete with
    | false => rfl
    | true => exact absurd (hall rfl w hw) hfresh
  · rintro ⟨rfl, rfl⟩
    exact .nil fun hcomplete => nomatch hcomplete

end

theorem yields_readEndOfList :
    Yields (Schema.readEndOfList s) () rest ↔ ∃ b, Blanks b ∧ s = b ++ ']' :: rest := by
  refine ⟨?_, ?_⟩
  · intro h
    unfold Schema.readEndOfList at h
    rcases front_cases s with ⟨-, hfront⟩ | ⟨b, c, r, _, hb, -, rfl, hfront⟩
    · rw [hfront] at h
      exact absurd h not_yields_error
    · rw [hfront] at h
      split at h
      · exact absurd h not_yields_error
      · rename_i heq
        cases heq
        rcases yields_ok.mp h with ⟨-, rfl⟩
        exact ⟨b, hb, rfl⟩
      · split at h <;> exact absurd h not_yields_error
      · exact absurd h not_yields_error
  · rintro ⟨b, hb, rfl⟩
    rcases front_append hb (by decide : isBlank ']' = false) rest with ⟨_, hfront⟩
    unfold Schema.readEndOfList
    rw [hfront]
    exact yields_ok.mpr ⟨rfl, rfl⟩

section

variable {index : Nat} {first : Bool} {field : Field σ} {fields : List (Field σ)} {w : View σ}
  {all : List (View σ)}

theorem yields_readPositions_nil (h : Remaining views seen []) :
    Yields (schema.readPositions index x [] s) y rest ↔
      Laid views schema.complete seen [] x y ∧ ∃ b, Blanks b ∧ s = b ++ ']' :: rest := by
  rw [Schema.readPositions, yields_map]
  refine ⟨?_, ?_⟩
  · rintro ⟨_, hend, rfl⟩
    exact ⟨.nil fun _ w hw => h.seen_of_nil hw, yields_readEndOfList.mp hend⟩
  · rintro ⟨⟨-⟩, hend⟩
    exact ⟨(), yields_readEndOfList.mpr hend, rfl⟩

theorem yields_readPositions_close (hremaining : Remaining views seen (w :: all))
    (hfirst : decide (index = 0) = first) {h : r.length < s.length}
    (hfurther : further first s = .ok (.close r h)) :
    Yields (schema.readPositions index x (field :: fields) s) y rest ↔
      Laid views schema.complete seen [] x y ∧ rest = r := by
  rw [Schema.readPositions, hfirst, hfurther, hremaining.laid_nil]
  dsimp only
  cases hcomplete : schema.complete with
  | true => exact ⟨fun h => absurd h not_yields_error, fun h => (nomatch h.1.1)⟩
  | false =>
    rw [if_neg (by decide), yields_ok]
    exact ⟨fun h => ⟨⟨rfl, h.1⟩, h.2.symm⟩, fun h => ⟨h.1.2, h.2.symm⟩⟩

theorem yields_readPositions_item (hfirst : decide (index = 0) = first)
    {h : r.length ≤ s.length} (hfurther : further first s = .ok (.item r h)) :
    Yields (schema.readPositions index x (field :: fields) s) y rest ↔
      ∃ change behind, Yields (field.read r) change behind ∧
        Yields (schema.readPositions (index + 1) (change x) fields behind) y rest := by
  rw [Schema.readPositions, hfirst, hfurther]
  refine ⟨?_, ?_⟩
  · intro h
    rcases yields_taken.mp h with ⟨change, behind, _, hread, h⟩
    exact ⟨change, behind, hread, yields_widen.mp h⟩
  · rintro ⟨change, behind, hread, h⟩
    exact yields_taken.mpr ⟨change, behind, hread.length_lt, hread, yields_widen.mpr h⟩

theorem not_yields_readPositions (hfirst : decide (index = 0) = first) {e : Failure}
    (hfurther : further first s = .error e) :
    ¬ Yields (schema.readPositions index x (field :: fields) s) y rest := by
  rw [Schema.readPositions, hfirst, hfurther]
  exact not_yields_error

/-- An item at the position of a view is an entry under its name. -/
theorem Remaining.laid_cons {complete : Bool} (h : Remaining views seen (w :: all)) :
    Laid views complete seen ((w.name, tree) :: entries) x y ↔
      ∃ change, w.Sets tree change ∧ Laid views complete (w.name :: seen) entries (change x) y := by
  rcases (h.mem_iff w).mp List.mem_cons_self with ⟨hw, hfresh⟩
  rw [Json.laid_cons]
  refine ⟨?_, ?_⟩
  · rintro ⟨names, change, hmeant, hlaid⟩
    rcases hmeant.of_known hw rfl with ⟨-, rfl, hsets⟩
    exact ⟨change, hsets, hlaid⟩
  · rintro ⟨change, hsets, hlaid⟩
    exact ⟨_, change, .known hw hfresh hsets, hlaid⟩

theorem of_readPositions_later (hfields : List.Forall₂ Field.Matches fields all)
    (hremaining : Remaining views seen all)
    (h : Yields (schema.readPositions (index + 1) x fields s) y rest) :
    ∃ later more, s = more ++ rest ∧ Spelled (.items later) more ∧ later.length ≤ all.length ∧
      Laid views schema.complete seen ((all.map (·.name)).zip later) x y := by
  induction hfields generalizing index seen s x with
  | nil =>
    rcases (yields_readPositions_nil hremaining).mp h with ⟨hlaid, b, hb, rfl⟩
    exact ⟨[], _, by simp, .noItems hb, Nat.le_refl 0, hlaid⟩
  | @cons field w fields all hfield _ ih =>
    have hfirst : decide (index + 1 = 0) = false := decide_eq_false (Nat.succ_ne_zero index)
    cases hfurther : further false s with
    | error e => exact absurd h (not_yields_readPositions hfirst hfurther)
    | ok found =>
      cases found with
      | close r _ =>
        rcases (yields_readPositions_close hremaining hfirst hfurther).mp h with ⟨hlaid, rfl⟩
        rcases of_further_close hfurther with ⟨b, hb, rfl⟩
        exact ⟨[], _, by simp, .noItems hb, Nat.zero_le _, hlaid⟩
      | item r _ =>
        rcases (yields_readPositions_item hfirst hfurther).mp h with ⟨change, behind, hread, htail⟩
        rcases of_further_item hfurther with ⟨b, hb, hs⟩
        rw [if_neg (by decide)] at hs
        subst hs
        rcases hfield.reads.sound hread with ⟨b', tree, body, hb', rfl, hbody, hsets⟩
        rcases ih hremaining.tail htail with ⟨later, more, rfl, hmore, hle, hlaid⟩
        exact ⟨tree :: later, _, by simp, .items hb hb' hbody hmore, Nat.succ_le_succ hle,
          hremaining.laid_cons.mpr ⟨change, hsets, hlaid⟩⟩

theorem readPositions_later_of (hfields : List.Forall₂ Field.Matches fields all)
    (hremaining : Remaining views seen all) {later : List Tree} {more : List Char}
    (h : Spelled (.items later) more) (hle : later.length ≤ all.length)
    (hlaid : Laid views schema.complete seen ((all.map (·.name)).zip later) x y) :
    Yields (schema.readPositions (index + 1) x fields (more ++ rest)) y rest := by
  induction hfields generalizing index seen later more x with
  | nil =>
    cases h with
    | @noItems b hb => exact (yields_readPositions_nil hremaining).mpr ⟨hlaid, b, hb, by simp⟩
    | items => cases hle
  | @cons field w fields all hfield _ ih =>
    have hfirst : decide (index + 1 = 0) = false := decide_eq_false (Nat.succ_ne_zero index)
    cases h with
    | @noItems b hb =>
      rcases further_close hb with ⟨_, hfurther⟩
      rw [List.append_assoc, List.singleton_append]
      exact (yields_readPositions_close hremaining hfirst hfurther).mpr ⟨hlaid, rfl⟩
    | @items b b' body more tree later hb hb' hbody hmore =>
      have hs : b ++ ',' :: (b' ++ (body ++ more)) ++ rest =
          b ++ ',' :: (b' ++ (body ++ (more ++ rest))) := by simp
      rcases hremaining.laid_cons.mp hlaid with ⟨change, hsets, hlaid⟩
      have hread := hfield.reads.complete hb' hbody (hmore.ends_items rest) hsets
      rcases head_of_spelled hbody with ⟨c, r, rfl, hblank, hclose, -⟩
      rcases further_next hb hb' hblank hclose with ⟨_, hfurther⟩
      rw [hs]
      exact (yields_readPositions_item hfirst hfurther).mpr
        ⟨change, _, hread, ih hremaining.tail hmore (Nat.le_of_succ_le_succ hle) hlaid⟩

theorem of_readPositions (hfields : List.Forall₂ Field.Matches fields all)
    (hremaining : Remaining views seen all)
    (h : Yields (schema.readPositions 0 x fields s) y rest) :
    ∃ items more, '[' :: s = more ++ rest ∧ Spelled (.value (.list items)) more ∧
      items.length ≤ all.length ∧
      Laid views schema.complete seen ((all.map (·.name)).zip items) x y := by
  cases hfields with
  | nil =>
    rcases (yields_readPositions_nil hremaining).mp h with ⟨hlaid, b, hb, rfl⟩
    exact ⟨[], _, by simp, .emptyList hb, Nat.le_refl 0, hlaid⟩
  | @cons field w fields all hfield hfields =>
    have hfirst : decide (0 = 0) = true := rfl
    cases hfurther : further true s with
    | error e => exact absurd h (not_yields_readPositions hfirst hfurther)
    | ok found =>
      cases found with
      | close r _ =>
        rcases (yields_readPositions_close hremaining hfirst hfurther).mp h with ⟨hlaid, rfl⟩
        rcases of_further_close hfurther with ⟨b, hb, rfl⟩
        exact ⟨[], _, by simp, .emptyList hb, Nat.zero_le _, hlaid⟩
      | item r _ =>
        rcases (yields_readPositions_item hfirst hfurther).mp h with ⟨change, behind, hread, htail⟩
        rcases of_further_item hfurther with ⟨b, hb, hs⟩
        rw [if_pos rfl] at hs
        subst hs
        rcases hfield.reads.sound hread with ⟨b', tree, body, hb', rfl, hbody, hsets⟩
        rcases of_readPositions_later hfields hremaining.tail htail
          with ⟨later, more, rfl, hmore, hle, hlaid⟩
        exact ⟨tree :: later, _, by simp, .list (blanks_append hb hb') hbody hmore,
          Nat.succ_le_succ hle, hremaining.laid_cons.mpr ⟨change, hsets, hlaid⟩⟩

theorem readPositions_of (hfields : List.Forall₂ Field.Matches fields all)
    (hremaining : Remaining views seen all) {items : List Tree} {more : List Char}
    (h : Spelled (.value (.list items)) ('[' :: more)) (hle : items.length ≤ all.length)
    (hlaid : Laid views schema.complete seen ((all.map (·.name)).zip items) x y) :
    Yields (schema.readPositions 0 x fields (more ++ rest)) y rest := by
  cases hfields with
  | nil =>
    cases h with
    | @emptyList b hb => exact (yields_readPositions_nil hremaining).mpr ⟨hlaid, b, hb, by simp⟩
    | list => cases hle
  | @cons field w fields all hfield hfields =>
    have hfirst : decide (0 = 0) = true := rfl
    cases h with
    | @emptyList b hb =>
      rcases further_close hb with ⟨_, hfurther⟩
      rw [List.append_assoc, List.singleton_append]
      exact (yields_readPositions_close hremaining hfirst hfurther).mpr ⟨hlaid, rfl⟩
    | @list b body more tree later hb hbody hmore =>
      have hs : b ++ (body ++ more) ++ rest = b ++ (body ++ (more ++ rest)) := by simp
      rcases hremaining.laid_cons.mp hlaid with ⟨change, hsets, hlaid⟩
      have hread := hfield.reads.complete blanks_nil hbody (hmore.ends_items rest) hsets
      rcases head_of_spelled hbody with ⟨c, r, rfl, hblank, hclose, -⟩
      rcases further_first hb hblank hclose with ⟨_, hfurther⟩
      rw [hs]
      exact (yields_readPositions_item hfirst hfurther).mpr ⟨change, _, hread,
        readPositions_later_of hfields hremaining.tail hmore (Nat.le_of_succ_le_succ hle) hlaid⟩

end

/-! ## Objects -/

theorem of_readMembers (hfits : schema.Fits views)
    (h : Yields (schema.readMembers true seen x s) y rest) :
    ∃ members more entries, '{' :: s = more ++ rest ∧ Spelled (.value (.object members)) more ∧
      Keyed members entries ∧ Laid views schema.complete seen entries x y := by
  rcases front_cases s with ⟨-, hfront⟩ | ⟨b, c, r, hr, hb, -, rfl, hfront⟩
  · exact absurd h (not_yields_readMembers hfront)
  · by_cases hc : c = '}'
    · subst hc
      rcases (yields_readMembers_close hfits hfront).mp h with ⟨hlaid, rfl⟩
      exact ⟨[], _, [], by simp, .emptyObject hb, .nil, hlaid⟩
    · rcases (yields_readMembers_member hfront hc).mp h with ⟨names, change, behind, hmember, htail⟩
      rcases of_readMember hfits hmember
        with ⟨start, raw, key, tree, text, hstart, hs, htext, hraw, hmeant⟩
      rcases yields_startOfKey_first.mp hstart with ⟨rfl, rfl⟩
      rcases of_readMembers_later hfits htail with ⟨later, more, entries, rfl, hmore, hkeys, hlaid⟩
      refine ⟨(raw, tree) :: later, _, (key, tree) :: entries, ?_, .object hb htext hmore,
        .cons ⟨hraw, rfl⟩ hkeys, laid_cons.mpr ⟨_, _, hmeant, hlaid⟩⟩
      rw [hs]
      simp

theorem readMembers_of (hfits : schema.Fits views) {members : List (List Char × Tree)}
    {more : List Char} (h : Spelled (.value (.object members)) ('{' :: more))
    (hkeys : Keyed members entries) (hlaid : Laid views schema.complete seen entries x y) :
    Yields (schema.readMembers true seen x (more ++ rest)) y rest := by
  cases h with
  | @emptyObject b hb =>
    cases hkeys
    rcases front_of_eq (by simp : b ++ ['}'] ++ rest = b ++ '}' :: rest) hb (by decide)
      with ⟨_, hfront⟩
    exact (yields_readMembers_close hfits hfront).mpr ⟨hlaid, rfl⟩
  | @object b text more raw tree later hb htext hmore =>
    rcases hkeys with _ | @⟨_, ⟨key, tree'⟩, _, entries, ⟨hraw, rfl⟩, hkeys⟩
    rcases laid_cons.mp hlaid with ⟨names, change, hmeant, hlaid⟩
    rcases head_of_member htext with ⟨r, rfl⟩
    have hs : b ++ ('"' :: r ++ more) ++ rest = b ++ '"' :: (r ++ (more ++ rest)) := by simp
    rcases front_of_eq hs hb (by decide) with ⟨_, hfront⟩
    have hmember := readMember_of hfits (yields_startOfKey_first.mpr ⟨rfl, rfl⟩) rfl htext
      (hmore.ends_members rest) hraw hmeant
    exact (yields_readMembers_member hfront (by decide)).mpr
      ⟨names, change, _, hmember, readMembers_later_of hfits hmore hkeys hlaid⟩

/-- A schema whose fields are those of the views reads what describes an object. -/
theorem Schema.readsBy (hfits : schema.Fits views) :
    ReadsBy schema.read (Described views schema.base schema.complete) := by
  refine ⟨?_, ?_⟩
  · intro s rest value h
    unfold Schema.read at h
    rcases front_cases s with ⟨-, hfront⟩ | ⟨pre, c, r, _, hpre, -, rfl, hfront⟩
    · rw [hfront] at h
      exact absurd h not_yields_error
    · rw [hfront] at h
      split at h
      · exact absurd h not_yields_error
      · rename_i heq
        cases heq
        rcases of_readPositions hfits remaining_all (yields_widen.mp h)
          with ⟨items, more, hs, hmore, hle, hlaid⟩
        exact ⟨pre, _, more, hpre, by rw [hs], hmore, _, .positions hle, laid_iff_overlay.mp hlaid⟩
      · rename_i heq
        cases heq
        rcases of_readMembers hfits (yields_widen.mp h)
          with ⟨members, more, entries, hs, hmore, hkeys, hlaid⟩
        exact ⟨pre, _, more, hpre, by rw [hs], hmore, entries, .members hkeys,
          laid_iff_overlay.mp hlaid⟩
      · exact absurd h not_yields_error
  · rintro pre body rest tree value hpre hbody - ⟨entries, hentries, hoverlay⟩
    have hlaid := laid_iff_overlay.mpr hoverlay
    cases hentries with
    | positions hle =>
      have hopen : ∃ more, body = '[' :: more := by
        cases hbody with
        | emptyList | list => exact ⟨_, rfl⟩
      rcases hopen with ⟨more, rfl⟩
      rcases front_append hpre (by decide : isBlank '[' = false) (more ++ rest) with ⟨_, hfront⟩
      unfold Schema.read
      simp only [List.cons_append, hfront]
      exact yields_widen.mpr (readPositions_of hfits remaining_all hbody hle hlaid)
    | members hkeys =>
      have hopen : ∃ more, body = '{' :: more := by
        cases hbody with
        | emptyObject | object => exact ⟨_, rfl⟩
      rcases hopen with ⟨more, rfl⟩
      rcases front_append hpre (by decide : isBlank '{' = false) (more ++ rest) with ⟨_, hfront⟩
      unfold Schema.read
      simp only [List.cons_append, hfront]
      exact yields_widen.mpr (readMembers_of hfits hbody hkeys hlaid)

/-! ## Documents -/

/-- The text is one document, with blanks around it. -/
def IsDocument (text : String) (tree : Tree) : Prop :=
  ∃ pre body post, Blanks pre ∧ Blanks post ∧ text.toList = pre ++ (body ++ post) ∧
    Spelled (.value tree) body

theorem Schema.readDocument_eq_ok_iff (hfits : schema.Fits views) {text : String} {value : σ} :
    schema.readDocument text = .ok value ↔
      ∃ tree, IsDocument text tree ∧ Described views schema.base schema.complete tree value := by
  refine ⟨?_, ?_⟩
  · intro h
    unfold Schema.readDocument at h
    cases hread : schema.read text.toList with
    | error failure =>
      rw [hread] at h
      cases h
    | ok taken =>
      rw [hread] at h
      rcases taken with ⟨value', post, hlt⟩
      rcases (Schema.readsBy hfits).sound ⟨hlt, hread⟩
        with ⟨pre, tree, body, hpre, htext, hbody, hdescribed⟩
      cases hpost : skipBlanks post with
      | nil =>
        have heq : value' = value := by
          simpa [Bind.bind, Except.bind, hpost, pure, Except.pure] using h
        subst heq
        exact ⟨tree, ⟨pre, body, post, hpre, skipBlanks_eq_nil_iff.mp hpost, htext, hbody⟩,
          hdescribed⟩
      | cons c rest =>
        simp [Bind.bind, Except.bind, hpost] at h
  · rintro ⟨tree, ⟨pre, body, post, hpre, hpost, htext, hbody⟩, hdescribed⟩
    have hends : Ends post := by
      have hends := ends_blank hpost ends_nil
      rwa [List.append_nil] at hends
    rcases (Schema.readsBy hfits).complete hpre hbody hends hdescribed with ⟨_, hread⟩
    unfold Schema.readDocument
    rw [htext, hread]
    simp [Bind.bind, Except.bind, skipBlanks_eq_nil_iff.mpr hpost, pure, Except.pure]

end Fieldbus.Json
