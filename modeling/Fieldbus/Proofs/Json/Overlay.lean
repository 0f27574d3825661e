import Mathlib.Data.List.Forall2
import Fieldbus.Proofs.Json.Grammar

/-!
# Objects laid over others

A view is one field of an object: how it is seen and set, which trees may be written in it, and what
they mean.  A tree that writes some of the fields gives entries.  An object is an overlay of another
by these entries if each view shows what is written under its name, or what was there before if
nothing is.  Setting the fields one after the other, in the order of the entries, makes just that
object (`laid_iff_overlay`).
-/

namespace Fieldbus.Json

/-! ## Views -/

/-- One field of an object. -/
structure View (σ : Type) where
  Value : Type
  name : String
  get : σ → Value
  set : Value → σ → σ
  Admits : Tree → Prop
  Means : Tree → Value → Prop
  admits_iff : ∀ tree, Admits tree ↔ ∃ value, Means tree value

/-- The change sets the field to what the tree means. -/
def View.Sets {σ : Type} (w : View σ) (tree : Tree) (change : σ → σ) : Prop :=
  ∃ value, w.Means tree value ∧ change = w.set value

/-- All fields of an object.  They have names of their own, and the setting of one shows in no
other. -/
structure Views (σ : Type) where
  all : List (View σ)
  nodup : (all.map (·.name)).Nodup
  get_set : ∀ w ∈ all, ∀ value x, w.get (w.set value x) = value
  get_set_of_ne : ∀ w ∈ all, ∀ w' ∈ all, w'.name ≠ w.name → ∀ value x,
    w'.get (w.set value x) = w'.get x
  ext : ∀ x y, (∀ w ∈ all, w.get x = w.get y) → x = y

variable {σ : Type} {views : Views σ} {complete : Bool} {seen : List String}
  {entries : List (String × Tree)} {tree : Tree} {w w' : View σ} {x y : σ}

theorem eq_of_name_eq {all : List (View σ)} (hnodup : (all.map (·.name)).Nodup) (hw : w ∈ all)
    (hw' : w' ∈ all) (hname : w.name = w'.name) : w = w' := by
  induction all with
  | nil => cases hw
  | cons first all ih =>
    rw [List.map_cons, List.nodup_cons] at hnodup
    rcases List.mem_cons.mp hw with heq | hmem
    · rcases List.mem_cons.mp hw' with heq' | hmem'
      · exact heq.trans heq'.symm
      · rw [heq] at hname
        exact absurd (List.mem_map.mpr ⟨w', hmem', hname.symm⟩) hnodup.1
    · rcases List.mem_cons.mp hw' with heq' | hmem'
      · rw [heq'] at hname
        exact absurd (List.mem_map.mpr ⟨w, hmem, hname⟩) hnodup.1
      · exact ih hnodup.2 hmem hmem'

/-! ## Entries -/

/-- The members under the names that their keys stand for. -/
def Keyed : List (List Char × Tree) → List (String × Tree) → Prop :=
  List.Forall₂ fun member entry => Decodes member.1 entry.1.toList ∧ member.2 = entry.2

/-- The fields that a tree writes: in an object under their names, in a list in the order of the
views. -/
inductive Entries (views : Views σ) : Tree → List (String × Tree) → Prop
  | members {members : List (List Char × Tree)} {entries : List (String × Tree)}
      (hkeys : Keyed members entries) : Entries views (.object members) entries
  | positions {items : List Tree} (hlength : items.length ≤ views.all.length) :
      Entries views (.list items) ((views.all.map (·.name)).zip items)

/-- The object `y` shows in this field what is written, or else what `x` does. -/
def View.Overlays (w : View σ) (entries : List (String × Tree)) (x y : σ) : Prop :=
  (∀ tree, (w.name, tree) ∈ entries → w.Means tree (w.get y)) ∧
    ((∀ tree, (w.name, tree) ∉ entries) → w.get y = w.get x)

/-- The object `y` is `x` with the entries laid over it.  No field is written twice, and each is
written if all have to be. -/
structure Overlay (views : Views σ) (complete : Bool) (entries : List (String × Tree)) (x y : σ) :
    Prop where
  once : ∀ w ∈ views.all, entries.countP (·.1 = w.name) ≤ 1
  present : complete = true → ∀ w ∈ views.all, ∃ tree, (w.name, tree) ∈ entries
  shown : ∀ w ∈ views.all, w.Overlays entries x y

/-- The tree describes an object: the views admit what is written under their names. -/
def Accepted (views : Views σ) (complete : Bool) (tree : Tree) : Prop :=
  ∃ entries, Entries views tree entries ∧
    (∀ w ∈ views.all, entries.countP (·.1 = w.name) ≤ 1) ∧
    (complete = true → ∀ w ∈ views.all, ∃ tree, (w.name, tree) ∈ entries) ∧
    ∀ w ∈ views.all, ∀ tree, (w.name, tree) ∈ entries → w.Admits tree

/-- The tree describes the object, when what it does not write is as in `base`. -/
def Described (views : Views σ) (base : σ) (complete : Bool) (tree : Tree) (value : σ) : Prop :=
  ∃ entries, Entries views tree entries ∧ Overlay views complete entries base value

/-! ## One after the other -/

/-- Setting one field after the other makes `y` of `x`.  The fields that were seen before are not
written again, and what no view knows is passed over. -/
inductive Laid (views : Views σ) (complete : Bool) :
    List String → List (String × Tree) → σ → σ → Prop
  | nil {seen : List String} {x : σ}
      (hall : complete = true → ∀ w ∈ views.all, w.name ∈ seen) : Laid views complete seen [] x x
  | known {seen : List String} {w : View σ} {tree : Tree} {value : w.Value}
      {entries : List (String × Tree)} {x y : σ} (hw : w ∈ views.all) (hfresh : w.name ∉ seen)
      (hmeans : w.Means tree value)
      (more : Laid views complete (w.name :: seen) entries (w.set value x) y) :
      Laid views complete seen ((w.name, tree) :: entries) x y
  | unknown {seen : List String} {key : String} {tree : Tree} {entries : List (String × Tree)}
      {x y : σ} (hkey : ∀ w ∈ views.all, w.name ≠ key)
      (more : Laid views complete seen entries x y) :
      Laid views complete seen ((key, tree) :: entries) x y

/-! ### What an entry adds -/

section

variable {key : String} {tree' : Tree}

theorem mem_cons_of_name_ne (hname : w.name ≠ key) :
    (w.name, tree') ∈ (key, tree) :: entries ↔ (w.name, tree') ∈ entries := by
  rw [List.mem_cons]
  refine ⟨?_, Or.inr⟩
  rintro (heq | hmem)
  · exact absurd (Prod.mk.inj heq).1 hname
  · exact hmem

theorem overlays_cons_of_name_ne (hname : w.name ≠ key) :
    w.Overlays ((key, tree) :: entries) x y ↔ w.Overlays entries x y := by
  unfold View.Overlays
  simp only [mem_cons_of_name_ne hname]

theorem overlays_congr {x' : σ} (hget : w.get x' = w.get x) :
    w.Overlays entries x' y ↔ w.Overlays entries x y := by
  unfold View.Overlays
  rw [hget]

theorem countP_name_eq_zero_iff {name : String} :
    entries.countP (·.1 = name) = 0 ↔ ∀ tree, (name, tree) ∉ entries := by
  rw [List.countP_eq_zero]
  refine ⟨fun h tree hmem => h _ hmem (by simp), ?_⟩
  rintro h ⟨key, tree⟩ hmem hname
  have heq : key = name := by simpa using hname
  exact h tree (heq ▸ hmem)

end

/-! ### What was laid is an overlay -/

theorem Laid.not_mem_of_seen (h : Laid views complete seen entries x y) (hw : w ∈ views.all)
    (hseen : w.name ∈ seen) (tree : Tree) : (w.name, tree) ∉ entries := by
  induction h with
  | nil => exact List.not_mem_nil
  | @known seen w' _ _ _ _ _ _ hfresh _ _ ih =>
    have hname : w.name ≠ w'.name := fun heq => hfresh (heq ▸ hseen)
    rw [mem_cons_of_name_ne hname]
    exact ih (List.mem_cons_of_mem _ hseen)
  | unknown hkey _ ih =>
    rw [mem_cons_of_name_ne (hkey w hw)]
    exact ih hseen

theorem Laid.countP_le_one (h : Laid views complete seen entries x y) (hw : w ∈ views.all) :
    entries.countP (·.1 = w.name) ≤ 1 := by
  induction h with
  | nil => exact Nat.zero_le 1
  | @known seen w' tree _ entries _ _ _ _ _ more ih =>
    by_cases hname : w'.name = w.name
    · have hnone := more.not_mem_of_seen hw (hname ▸ List.mem_cons_self)
      have hcount : ((w'.name, tree) :: entries).countP (·.1 = w.name) = 1 := by
        rw [List.countP_cons_of_pos (by simpa using hname), countP_name_eq_zero_iff.mpr hnone]
      exact Nat.le_of_eq hcount
    · rw [List.countP_cons_of_neg (by simpa using hname)]
      exact ih
  | unknown hkey _ ih =>
    rw [List.countP_cons_of_neg (by simpa using (hkey w hw).symm)]
    exact ih

theorem Laid.present (h : Laid views complete seen entries x y) (hcomplete : complete = true)
    (hw : w ∈ views.all) : w.name ∈ seen ∨ ∃ tree, (w.name, tree) ∈ entries := by
  induction h with
  | nil hall => exact Or.inl (hall hcomplete w hw)
  | @known _ w' tree _ _ _ _ _ _ _ _ ih =>
    rcases ih with hseen | ⟨tree, hmem⟩
    · rcases List.mem_cons.mp hseen with hname | hseen
      · exact Or.inr ⟨tree, hname ▸ List.mem_cons_self⟩
      · exact Or.inl hseen
    · exact Or.inr ⟨tree, List.mem_cons_of_mem _ hmem⟩
  | unknown _ _ ih =>
    rcases ih with hseen | ⟨tree, hmem⟩
    · exact Or.inl hseen
    · exact Or.inr ⟨tree, List.mem_cons_of_mem _ hmem⟩

theorem Laid.overlays (h : Laid views complete seen entries x y) (hw : w ∈ views.all) :
    w.Overlays entries x y := by
  induction h with
  | nil => exact ⟨fun _ hmem => (nomatch hmem), fun _ => rfl⟩
  | @known seen w' tree value entries x y hw' _ hmeans more ih =>
    by_cases hname : w.name = w'.name
    · have heq : w = w' := eq_of_name_eq views.nodup hw hw' hname
      subst heq
      -- The field is not written again, so that it still shows this value.
      have hnone := more.not_mem_of_seen hw List.mem_cons_self
      have hvalue : w.get y = value := (ih.2 hnone).trans (views.get_set w hw value x)
      refine ⟨?_, fun habsent => absurd List.mem_cons_self (habsent tree)⟩
      intro tree' hmem
      rcases List.mem_cons.mp hmem with heq | hmem
      · rw [hvalue, (Prod.mk.inj heq).2]
        exact hmeans
      · exact absurd hmem (hnone tree')
    · rw [overlays_cons_of_name_ne hname,
        ← overlays_congr (views.get_set_of_ne w' hw' w hw hname value x)]
      exact ih
  | unknown hkey _ ih =>
    rw [overlays_cons_of_name_ne (hkey w hw)]
    exact ih

/-! ### An overlay can be laid -/

/-- Setting each field to what `y` shows makes `y`, if the fields that are not written show it
already. -/
theorem laid_of_shown (honce : ∀ w ∈ views.all, entries.countP (·.1 = w.name) ≤ 1)
    (hseen : ∀ w ∈ views.all, w.name ∈ seen → ∀ tree, (w.name, tree) ∉ entries)
    (hpresent : complete = true → ∀ w ∈ views.all,
      w.name ∈ seen ∨ ∃ tree, (w.name, tree) ∈ entries)
    (hshown : ∀ w ∈ views.all, w.Overlays entries x y) : Laid views complete seen entries x y := by
  induction entries generalizing seen x with
  | nil =>
    have heq : x = y := views.ext x y fun w hw => ((hshown w hw).2 fun _ => List.not_mem_nil).symm
    subst heq
    refine .nil ?_
    intro hcomplete w hw
    rcases hpresent hcomplete w hw with hmem | ⟨_, hmem⟩
    · exact hmem
    · cases hmem
  | cons entry entries ih =>
    rcases entry with ⟨key, tree⟩
    have honce' : ∀ w ∈ views.all, entries.countP (·.1 = w.name) ≤ 1 :=
      fun w hw => Nat.le_trans ((List.sublist_cons_self _ _).countP_le) (honce w hw)
    have hseen' : ∀ w ∈ views.all, w.name ∈ seen → ∀ tree', (w.name, tree') ∉ entries :=
      fun w hw hmem tree' hmem' => hseen w hw hmem tree' (List.mem_cons_of_mem _ hmem')
    by_cases hknown : ∃ w ∈ views.all, w.name = key
    · rcases hknown with ⟨w, hw, rfl⟩
      have hfresh : w.name ∉ seen := fun hmem => hseen w hw hmem tree List.mem_cons_self
      have hmeans : w.Means tree (w.get y) := (hshown w hw).1 tree List.mem_cons_self
      have hnone : ∀ tree', (w.name, tree') ∉ entries := by
        have hcount := honce w hw
        rw [List.countP_cons_of_pos (by simp)] at hcount
        exact countP_name_eq_zero_iff.mp (Nat.le_zero.mp (Nat.le_of_succ_le_succ hcount))
      -- With `w` set to what `y` shows, the entries that are left make `y` of the rest.
      refine .known hw hfresh hmeans (ih honce' ?_ ?_ ?_)
      · intro w' hw' hmem tree'
        rcases List.mem_cons.mp hmem with hname | hmem
        · exact hname ▸ hnone tree'
        · exact hseen' w' hw' hmem tree'
      · intro hcomplete w' hw'
        by_cases hname : w'.name = w.name
        · exact Or.inl (hname ▸ List.mem_cons_self)
        · rcases hpresent hcomplete w' hw' with hmem | ⟨tree', hmem⟩
          · exact Or.inl (List.mem_cons_of_mem _ hmem)
          · exact Or.inr ⟨tree', (mem_cons_of_name_ne hname).mp hmem⟩
      · intro w' hw'
        by_cases hname : w'.name = w.name
        · have heq : w' = w := eq_of_name_eq views.nodup hw' hw hname
          subst heq
          exact ⟨fun tree' hmem => absurd hmem (hnone tree'),
            fun _ => (views.get_set w' hw _ x).symm⟩
        · rw [overlays_congr (views.get_set_of_ne w hw w' hw' hname _ x),
            ← overlays_cons_of_name_ne hname]
          exact hshown w' hw'
    · have hkey : ∀ w ∈ views.all, w.name ≠ key := fun w hw hname => hknown ⟨w, hw, hname⟩
      refine .unknown hkey (ih honce' hseen' ?_ ?_)
      · intro hcomplete w hw
        rcases hpresent hcomplete w hw with hmem | ⟨tree', hmem⟩
        · exact Or.inl hmem
        · exact Or.inr ⟨tree', (mem_cons_of_name_ne (hkey w hw)).mp hmem⟩
      · intro w hw
        exact (overlays_cons_of_name_ne (hkey w hw)).mp (hshown w hw)

/-- Setting the fields in the order of the entries is laying the entries over the object. -/
theorem laid_iff_overlay :
    Laid views complete [] entries x y ↔ Overlay views complete entries x y := by
  refine ⟨?_, ?_⟩
  · intro h
    refine ⟨fun w hw => h.countP_le_one hw, ?_, fun w hw => h.overlays hw⟩
    intro hcomplete w hw
    rcases h.present hcomplete hw with hmem | hmem
    · cases hmem
    · exact hmem
  · rintro ⟨honce, hpresent, hshown⟩
    exact laid_of_shown honce (fun _ _ hmem => nomatch hmem)
      (fun hcomplete w hw => Or.inr (hpresent hcomplete w hw)) hshown

/-! ## Which trees describe an object -/

/-- Values for some of the fields make an object that shows them. -/
theorem exists_shown (base : σ) (holds : (w : View σ) → w.Value → Prop) {all : List (View σ)}
    (hsub : ∀ w ∈ all, w ∈ views.all) (hnodup : (all.map (·.name)).Nodup)
    (hall : ∀ w ∈ all, ∃ value, holds w value) : ∃ y, ∀ w ∈ all, holds w (w.get y) := by
  induction all with
  | nil => exact ⟨base, fun _ hw => (nomatch hw)⟩
  | cons w all ih =>
    rw [List.map_cons, List.nodup_cons] at hnodup
    have hw : w ∈ views.all := hsub w List.mem_cons_self
    have hsub' : ∀ w' ∈ all, w' ∈ views.all := fun w' hw' => hsub w' (List.mem_cons_of_mem _ hw')
    rcases hall w List.mem_cons_self with ⟨value, hvalue⟩
    rcases ih hsub' hnodup.2 fun w' hw' => hall w' (List.mem_cons_of_mem _ hw') with ⟨y, hy⟩
    refine ⟨w.set value y, ?_⟩
    intro w' hw'
    rcases List.mem_cons.mp hw' with rfl | hw'
    · rw [views.get_set w' hw]
      exact hvalue
    · have hname : w'.name ≠ w.name := fun heq => hnodup.1 (List.mem_map.mpr ⟨w', hw', heq⟩)
      rw [views.get_set_of_ne w hw w' (hsub' w' hw') hname]
      exact hy w' hw'

theorem eq_of_countP_le_one {name : String} (honce : entries.countP (·.1 = name) ≤ 1)
    {tree' : Tree} (hmem : (name, tree) ∈ entries) (hmem' : (name, tree') ∈ entries) :
    tree = tree' := by
  induction entries with
  | nil => cases hmem
  | cons entry entries ih =>
    by_cases hname : entry.1 = name
    · rw [List.countP_cons_of_pos (by simpa using hname)] at honce
      have hnone := countP_name_eq_zero_iff.mp (Nat.le_zero.mp (Nat.le_of_succ_le_succ honce))
      rcases List.mem_cons.mp hmem with heq | hmem
      · rcases List.mem_cons.mp hmem' with heq' | hmem'
        · exact (Prod.mk.inj (heq.trans heq'.symm)).2
        · exact absurd hmem' (hnone tree')
      · exact absurd hmem (hnone tree)
    · rw [List.countP_cons_of_neg (by simpa using hname)] at honce
      rcases List.mem_cons.mp hmem with rfl | hmem
      · exact absurd rfl hname
      · rcases List.mem_cons.mp hmem' with rfl | hmem'
        · exact absurd rfl hname
        · exact ih honce hmem hmem'

/-- A tree is accepted when there is an object that it describes. -/
theorem accepted_iff {base : σ} :
    Accepted views complete tree ↔ ∃ value, Described views base complete tree value := by
  refine ⟨?_, ?_⟩
  · rintro ⟨entries, hentries, honce, hpresent, hadmits⟩
    -- What a field has to show: the meaning of the only entry under its name, or the default.
    let holds (w : View σ) (value : w.Value) : Prop :=
      (∀ tree, (w.name, tree) ∈ entries → w.Means tree value) ∧
        ((∀ tree, (w.name, tree) ∉ entries) → value = w.get base)
    have hall : ∀ w ∈ views.all, ∃ value, holds w value := by
      intro w hw
      by_cases hwritten : ∃ tree, (w.name, tree) ∈ entries
      · rcases hwritten with ⟨tree, hmem⟩
        rcases (w.admits_iff tree).mp (hadmits w hw tree hmem) with ⟨value, hmeans⟩
        refine ⟨value, ?_, fun habsent => absurd hmem (habsent tree)⟩
        intro tree' hmem'
        exact eq_of_countP_le_one (honce w hw) hmem hmem' ▸ hmeans
      · exact ⟨w.get base, fun tree hmem => absurd ⟨tree, hmem⟩ hwritten, fun _ => rfl⟩
    rcases exists_shown base holds (fun _ hw => hw) views.nodup hall with ⟨value, hvalue⟩
    exact ⟨value, entries, hentries, honce, hpresent, hvalue⟩
  · rintro ⟨value, entries, hentries, honce, hpresent, hshown⟩
    refine ⟨entries, hentries, honce, hpresent, ?_⟩
    intro w hw tree hmem
    exact (w.admits_iff tree).mpr ⟨w.get value, (hshown w hw).1 tree hmem⟩

end Fieldbus.Json
