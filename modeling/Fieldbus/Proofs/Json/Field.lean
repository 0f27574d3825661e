import Fieldbus.Proofs.Json.Schema

/-!
# Kinds of fields

The views of the kinds of fields that schemas are made of.  Each says which trees may stand in such
a field and what they mean, and the field reads just that.
-/

namespace Fieldbus.Json

variable {σ τ α β : Type}

/-- Reading, and then a function of what was read. -/
theorem ReadsBy.map {r : Reader α} {means : Tree → α → Prop} (hr : ReadsBy r means) {f : α → β}
    {means' : Tree → β → Prop} (hmeans : ∀ tree b, means' tree b ↔ ∃ a, means tree a ∧ f a = b) :
    ReadsBy (fun s => do return (← r s).map f) means' := by
  refine ⟨?_, ?_⟩
  · intro s rest b h
    rcases yields_map.mp h with ⟨a, hread, rfl⟩
    rcases hr.sound hread with ⟨pre, tree, body, hpre, hs, hbody, ha⟩
    exact ⟨pre, tree, body, hpre, hs, hbody, (hmeans tree (f a)).mpr ⟨a, ha, rfl⟩⟩
  · intro pre body rest tree b hpre hbody hends hb
    rcases (hmeans tree b).mp hb with ⟨a, ha, rfl⟩
    exact yields_map.mpr ⟨a, hr.complete hpre hbody hends ha, rfl⟩

/-- A field that sets what is read, where the view says what that means. -/
theorem Field.matches_of_readsBy {field : Field σ} {w : View σ} {r : Reader w.Value}
    (hname : field.name = w.name) (hread : field.read = fun s => do return (← r s).map w.set)
    (hr : ReadsBy r w.Means) : field.Matches w := by
  refine ⟨hname, ?_⟩
  rw [hread]
  refine hr.map ?_
  intro tree change
  refine ⟨?_, ?_⟩
  · rintro ⟨value, hvalue, rfl⟩
    exact ⟨value, hvalue, rfl⟩
  · rintro ⟨value, hvalue, rfl⟩
    exact ⟨value, hvalue, rfl⟩

/-! ## Texts and truth values -/

/-- A field with a text: its quotes hold what stands for characters. -/
def View.text (name : String) (get : σ → String) (set : String → σ → σ) : View σ where
  Value := String
  name := name
  get := get
  set := set
  Admits tree := ∃ raw chars, tree = .text raw ∧ Decodes raw chars
  Means := Tree.IsText
  admits_iff tree := by
    refine ⟨?_, ?_⟩
    · rintro ⟨raw, chars, rfl, hraw⟩
      refine ⟨String.ofList chars, raw, rfl, ?_⟩
      rw [String.toList_ofList]
      exact hraw
    · rintro ⟨value, raw, rfl, hraw⟩
      exact ⟨raw, value.toList, rfl, hraw⟩

theorem Field.string_matches {name : String} {get : σ → String} {set : String → σ → σ} :
    (Field.string name set).Matches (View.text name get set) :=
  Field.matches_of_readsBy rfl rfl readString_readsBy

/-- A field with a truth value. -/
def View.flag (name : String) (get : σ → Bool) (set : Bool → σ → σ) : View σ where
  Value := Bool
  name := name
  get := get
  set := set
  Admits tree := tree = .flag true ∨ tree = .flag false
  Means := Tree.IsFlag
  admits_iff tree := by
    refine ⟨?_, ?_⟩
    · rintro (rfl | rfl)
      · exact ⟨true, rfl⟩
      · exact ⟨false, rfl⟩
    · rintro ⟨value, rfl⟩
      cases value with
      | true => exact Or.inl rfl
      | false => exact Or.inr rfl

theorem Field.bool_matches {name : String} {get : σ → Bool} {set : Bool → σ → σ} :
    (Field.bool name set).Matches (View.flag name get set) :=
  Field.matches_of_readsBy rfl rfl readBool_readsBy

/-! ## Integers -/

/-- Integers from zero up to a bound. -/
structure Width (β : Type) where
  bound : Nat
  toNat : β → Nat
  ofNat : Nat → β
  bound_le : bound ≤ maxSignificand
  toNat_le : ∀ value, toNat value ≤ bound
  ofNat_toNat : ∀ value, ofNat (toNat value) = value
  toNat_ofNat : ∀ n, n ≤ bound → toNat (ofNat n) = n

def Width.eight : Width UInt8 where
  bound := UInt8.size - 1
  toNat := UInt8.toNat
  ofNat := Nat.toUInt8
  bound_le := by decide
  toNat_le value := Nat.le_sub_one_of_lt value.toNat_lt
  ofNat_toNat _ := UInt8.ofNat_toNat
  toNat_ofNat _ hn := UInt8.toNat_ofNat_of_lt (Nat.lt_of_le_sub_one (by decide) hn)

def Width.sixteen : Width UInt16 where
  bound := UInt16.size - 1
  toNat := UInt16.toNat
  ofNat := Nat.toUInt16
  bound_le := by decide
  toNat_le value := Nat.le_sub_one_of_lt value.toNat_lt
  ofNat_toNat _ := UInt16.ofNat_toNat
  toNat_ofNat _ hn := UInt16.toNat_ofNat_of_lt (Nat.lt_of_le_sub_one (by decide) hn)

def Width.thirtyTwo : Width UInt32 where
  bound := UInt32.size - 1
  toNat := UInt32.toNat
  ofNat := Nat.toUInt32
  bound_le := by decide
  toNat_le value := Nat.le_sub_one_of_lt value.toNat_lt
  ofNat_toNat _ := UInt32.ofNat_toNat
  toNat_ofNat _ hn := UInt32.toNat_ofNat_of_lt (Nat.lt_of_le_sub_one (by decide) hn)

def Width.sixtyFour : Width UInt64 where
  bound := UInt64.size - 1
  toNat := UInt64.toNat
  ofNat := Nat.toUInt64
  bound_le := by decide
  toNat_le value := Nat.le_sub_one_of_lt value.toNat_lt
  ofNat_toNat _ := UInt64.ofNat_toNat
  toNat_ofNat _ hn := UInt64.toNat_ofNat_of_lt (Nat.lt_of_le_sub_one (by decide) hn)

/-- A field with an integer: digits only, and not above the bound. -/
def View.natural (width : Width β) (name : String) (get : σ → β) (set : β → σ → σ) : View σ where
  Value := β
  name := name
  get := get
  set := set
  Admits tree := ∃ n, tree.IsNatural n ∧ n ≤ width.bound
  Means tree value := tree.IsNatural (width.toNat value)
  admits_iff tree := by
    refine ⟨?_, ?_⟩
    · rintro ⟨n, hn, hle⟩
      refine ⟨width.ofNat n, ?_⟩
      rw [width.toNat_ofNat n hle]
      exact hn
    · rintro ⟨value, hvalue⟩
      exact ⟨_, hvalue, width.toNat_le value⟩

theorem Field.natural_matches {width : Width β} {name expected : String} {get : σ → β}
    {set : β → σ → σ} {field : Field σ} (hname : field.name = name)
    (hread : field.read = fun s => do
      return (← readUnsigned expected width.bound s).map fun n => set (width.ofNat n)) :
    field.Matches (View.natural width name get set) := by
  refine ⟨hname, ?_⟩
  rw [hread]
  refine (readUnsigned_readsBy width.bound_le).map ?_
  intro tree change
  refine ⟨?_, ?_⟩
  · rintro ⟨value, hvalue, rfl⟩
    exact ⟨width.toNat value, ⟨hvalue, width.toNat_le value⟩,
      congrArg set (width.ofNat_toNat value)⟩
  · rintro ⟨n, ⟨hn, hle⟩, rfl⟩
    rw [← width.toNat_ofNat n hle] at hn
    exact ⟨width.ofNat n, hn, rfl⟩

/-! ## Objects -/

section

variable {views : Views τ} {schema : Schema τ}

/-- A field with an object of its own, which is laid over `base`. -/
def View.object (views : Views τ) (base : τ) (name : String) (get : σ → τ) (set : τ → σ → σ) :
    View σ where
  Value := τ
  name := name
  get := get
  set := set
  Admits := Accepted views false
  Means := Described views base false
  admits_iff _ := accepted_iff

theorem Field.object_matches {name : String} {get : σ → τ} {set : τ → σ → σ}
    (hfits : schema.Fits views) (hcomplete : schema.complete = false) :
    (Field.object name schema set).Matches (View.object views schema.base name get set) := by
  have hreads := Schema.readsBy hfits
  rw [hcomplete] at hreads
  exact Field.matches_of_readsBy rfl rfl hreads

/-- A field with a list of objects, each with all of its fields. -/
def View.objects (views : Views τ) (base : τ) (name : String) (get : σ → List τ)
    (set : List τ → σ → σ) : View σ where
  Value := List τ
  name := name
  get := get
  set := set
  Admits tree := ∃ trees, tree = .list trees ∧ ∀ tree ∈ trees, Accepted views true tree
  Means tree values := ∃ trees, tree = .list trees ∧
    List.Forall₂ (Described views base true) trees values
  admits_iff tree := by
    refine ⟨?_, ?_⟩
    · rintro ⟨trees, rfl, hall⟩
      suffices h : ∃ values, List.Forall₂ (Described views base true) trees values by
        rcases h with ⟨values, h⟩
        exact ⟨values, trees, rfl, h⟩
      induction trees with
      | nil => exact ⟨[], .nil⟩
      | cons tree trees ih =>
        rcases accepted_iff.mp (hall tree List.mem_cons_self) with ⟨value, hvalue⟩
        rcases ih fun tree hmem => hall tree (List.mem_cons_of_mem _ hmem) with ⟨values, hvalues⟩
        exact ⟨value :: values, .cons hvalue hvalues⟩
    · rintro ⟨values, trees, rfl, hvalues⟩
      refine ⟨trees, rfl, ?_⟩
      induction hvalues with
      | nil => exact fun _ hmem => nomatch hmem
      | cons hvalue _ ih => exact List.forall_mem_cons.mpr ⟨accepted_iff.mpr ⟨_, hvalue⟩, ih⟩

theorem Field.objects_matches {name : String} {get : σ → List τ} {set : List τ → σ → σ}
    (hfits : schema.Fits views) (hcomplete : schema.complete = true) :
    (Field.objects name schema set).Matches (View.objects views schema.base name get set) := by
  have hreads := Schema.readsBy hfits
  rw [hcomplete] at hreads
  exact Field.matches_of_readsBy rfl rfl (readList_readsBy hreads)

end

end Fieldbus.Json
