import Fieldbus.Proofs.Device.Counter
import Mathlib.Data.List.Forall2

/-!
# Seeding

The seeds of a device are laid one after the other, so each cell ends with the last seed that is for
it (`seededCell`).  A seed that names no table or lies beyond the tables is skipped: it is answered
with one warning (`Seed.Warning`) and leaves the memory as it was, so a list can be cleared of such
seeds without changing what is built.
-/

namespace Fieldbus

theorem TableKind.ofName?_eq_some_iff {text : String} {k : TableKind} :
    ofName? text = some k ↔ text = k.name := by
  constructor
  · intro h
    have hname := List.find?_some h
    exact (eq_of_beq hname).symm
  · rintro rfl
    exact ofName?_name k

theorem TableKind.ofName?_eq_none_iff {text : String} :
    ofName? text = none ↔ ∀ k : TableKind, text ≠ k.name := by
  constructor
  · intro h k hk
    rw [ofName?_eq_some_iff.mpr hk] at h
    cases h
  · intro h
    cases hname : ofName? text with
    | none => rfl
    | some k => exact absurd (ofName?_eq_some_iff.mp hname) (h k)

namespace Seed

/-- The seed is for the cell `x` of the table `k`. -/
def IsFor (k : TableKind) (x : Nat) (seed : Seed) : Prop :=
  seed.kind = k.name ∧ seed.address.toNat = x

instance (k : TableKind) (x : Nat) (seed : Seed) : Decidable (seed.IsFor k x) :=
  inferInstanceAs (Decidable (_ ∧ _))

/-- Tables of `size` cells have no place for the seed: none of them has its name, or it lies beyond
their end. -/
def Skipped (size : Nat) (seed : Seed) : Prop :=
  (∀ k : TableKind, seed.kind ≠ k.name) ∨ size ≤ seed.address.toNat

instance (size : Nat) (seed : Seed) : Decidable (seed.Skipped size) :=
  decidable_of_iff (TableKind.ofName? seed.kind = none ∨ size ≤ seed.address.toNat)
    (or_congr TableKind.ofName?_eq_none_iff Iff.rfl)

/-- The warning that tables of `size` cells skip the seed: it names the text that is no table, or
the table and the address beyond its end. -/
inductive Warning (size : Nat) (seed : Seed) : Event → Prop where
  | unknown (hkind : ∀ k : TableKind, seed.kind ≠ k.name) :
    Warning size seed (.unknownSeedKind seed.kind)
  | outside {k : TableKind} (hkind : seed.kind = k.name) (haddress : size ≤ seed.address.toNat) :
    Warning size seed (.seedOutside k seed.address size)

/-- Only seeds that are skipped are warned about. -/
theorem Warning.skipped {size : Nat} {seed : Seed} {e : Event} (h : seed.Warning size e) :
    seed.Skipped size := by
  cases h with
  | unknown hkind => exact Or.inl hkind
  | outside _ haddress => exact Or.inr haddress

/-- Operators see the warnings as such. -/
theorem Warning.level_entry {size : Nat} {seed : Seed} {e : Event} (h : seed.Warning size e) :
    e.entry.level = .warn := by
  cases h <;> rfl

end Seed

/-- The word that a cell was seeded with last, as the cell holds it, or a blank. -/
def seededCell (seeds : List Seed) (k : TableKind) (x : Nat) : k.Cell :=
  match seeds.reverse.find? (·.IsFor k x) with
  | some seed => k.cellOfWord seed.value
  | none => k.blank

namespace Memory

variable {k : TableKind}

/-! ## One seed -/

theorem applySeed_of_unknown (m : Memory) {seed : Seed}
    (hkind : ∀ k : TableKind, seed.kind ≠ k.name) :
    m.applySeed seed = (m, [.unknownSeedKind seed.kind]) := by
  rw [applySeed, TableKind.ofName?_eq_none_iff.mpr hkind]

theorem applySeed_of_outside (m : Memory) {seed : Seed} (hkind : seed.kind = k.name)
    (haddress : m.size ≤ seed.address.toNat) :
    m.applySeed seed = (m, [.seedOutside k seed.address m.size]) := by
  rw [applySeed, TableKind.ofName?_eq_some_iff.mpr hkind]
  exact if_neg (Nat.not_lt.mpr haddress)

theorem applySeed_of_inside (m : Memory) {seed : Seed} (hkind : seed.kind = k.name)
    (haddress : seed.address.toNat < m.size) :
    m.applySeed seed =
      (m.lay (fun _ => false) k seed.address.toNat [k.cellOfWord seed.value], []) := by
  rw [applySeed, TableKind.ofName?_eq_some_iff.mpr hkind]
  exact if_pos haddress

/-- What can become of a seed: it is warned about and leaves the memory alone, or it has a place and
is laid there in silence. -/
theorem applySeed_cases (m : Memory) (seed : Seed) :
    (seed.Skipped m.size ∧ ∃ e, seed.Warning m.size e ∧ m.applySeed seed = (m, [e])) ∨
      (¬ seed.Skipped m.size ∧ ∃ k : TableKind, seed.kind = k.name ∧
        seed.address.toNat < m.size ∧ m.applySeed seed =
          (m.lay (fun _ => false) k seed.address.toNat [k.cellOfWord seed.value], [])) := by
  by_cases hkind : ∀ k : TableKind, seed.kind ≠ k.name
  · exact Or.inl ⟨Or.inl hkind, _, .unknown hkind, m.applySeed_of_unknown hkind⟩
  · rcases not_forall.mp hkind with ⟨k, hk⟩
    have hk := not_not.mp hk
    by_cases haddress : m.size ≤ seed.address.toNat
    · exact Or.inl ⟨Or.inr haddress, _, .outside hk haddress, m.applySeed_of_outside hk haddress⟩
    · have hinside : seed.address.toNat < m.size := Nat.not_le.mp haddress
      exact Or.inr ⟨not_or.mpr ⟨hkind, haddress⟩, k, hk, hinside, m.applySeed_of_inside hk hinside⟩

/-- A seed changes the one cell that it is for. -/
theorem cell?_applySeed (m : Memory) (seed : Seed) {x : Nat} (hx : x < m.size) :
    (m.applySeed seed).1.cell? k x =
      if seed.IsFor k x then some (k.cellOfWord seed.value) else m.cell? k x := by
  rcases m.applySeed_cases seed with ⟨hskipped, e, -, happly⟩ | ⟨-, k', hkind, haddress, happly⟩
  · have hnot : ¬ seed.IsFor k x := by
      rintro ⟨hkind, rfl⟩
      rcases hskipped with hunknown | houtside
      · exact hunknown k hkind
      · omega
    rw [happly, if_neg hnot]
  · rw [happly]
    by_cases hk : k = k'
    · subst hk
      -- The range that is laid is the single cell of the seed.
      rw [cell?_lay_self]
      by_cases hcell : seed.address.toNat = x
      · subst hcell
        rw [if_pos ⟨Nat.le_refl _, Nat.lt_succ_self _, haddress, rfl⟩, if_pos ⟨hkind, rfl⟩, Nat.sub_self]
        rfl
      · have hrange : ¬ (seed.address.toNat ≤ x ∧ x < seed.address.toNat + 1) := by omega
        rw [if_neg fun h => hrange ⟨h.1, h.2.1⟩, if_neg fun h => hcell h.2]
    · have hnot : ¬ seed.IsFor k x := by
        rintro ⟨hname, -⟩
        have hsame := TableKind.ofName?_eq_some_iff.mpr hname
        rw [TableKind.ofName?_eq_some_iff.mpr hkind] at hsame
        exact hk (Option.some.inj hsame).symm
      rw [cell?_lay_of_ne _ _ _ _ _ hk, if_neg hnot]

/-! ## Lists of seeds -/

theorem applySeeds_cons (m : Memory) (seed : Seed) (seeds : List Seed) :
    m.applySeeds (seed :: seeds) =
      (((m.applySeed seed).1.applySeeds seeds).1,
        (m.applySeed seed).2 ++ ((m.applySeed seed).1.applySeeds seeds).2) :=
  rfl

/-- The last seed for a cell decides it. -/
theorem cell?_applySeeds (m : Memory) (seeds : List Seed) {x : Nat} (hx : x < m.size) :
    (m.applySeeds seeds).1.cell? k x =
      match seeds.reverse.find? (·.IsFor k x) with
      | some seed => some (k.cellOfWord seed.value)
      | none => m.cell? k x := by
  -- By recursion on the seeds: what the head lays is the memory that the others find.
  induction seeds generalizing m with
  | nil => rfl
  | cons seed seeds ih =>
    have hx' : x < (m.applySeed seed).1.size := by rwa [size_applySeed]
    rw [applySeeds_cons, ih _ hx', List.reverse_cons, List.find?_append]
    cases seeds.reverse.find? (·.IsFor k x) with
    | some later => rfl
    | none =>
      rw [Option.none_or]
      by_cases hfor : seed.IsFor k x
      · simp [cell?_applySeed m seed hx, hfor]
      · simp [cell?_applySeed m seed hx, hfor]

theorem cell?_blank (size : Nat) {x : Nat} (hx : x < size) :
    (blank size).cell? k x = some k.blank := by
  cases k <;> simp [cell?, table, blank, TableKind.blank, hx]

theorem cell?_seeded (size : Nat) (seeds : List Seed) {x : Nat} (hx : x < size) :
    ((blank size).applySeeds seeds).1.cell? k x = some (seededCell seeds k x) := by
  rw [cell?_applySeeds _ _ hx, seededCell]
  cases seeds.reverse.find? (·.IsFor k x) with
  | some seed => rfl
  | none => exact cell?_blank size hx

/-- There is one warning for each seed that is skipped, in the order of the seeds, and no other. -/
theorem warnings_applySeeds (m : Memory) (seeds : List Seed) :
    List.Forall₂ (Seed.Warning m.size) (seeds.filter (·.Skipped m.size))
      (m.applySeeds seeds).2 := by
  induction seeds generalizing m with
  | nil => exact .nil
  | cons seed seeds ih =>
    have hlater := ih (m.applySeed seed).1
    rw [size_applySeed] at hlater
    rw [applySeeds_cons]
    rcases m.applySeed_cases seed with ⟨hskipped, e, hwarning, happly⟩ | ⟨hkept, k, -, -, happly⟩
    · rw [List.filter_cons_of_pos (by simpa using hskipped)]
      rw [happly] at hlater ⊢
      exact .cons hwarning hlater
    · rw [List.filter_cons_of_neg (by simpa using hkept)]
      rw [happly] at hlater ⊢
      exact hlater

/-- Seeds that are skipped might as well not be there. -/
theorem applySeeds_filter (m : Memory) (seeds : List Seed) :
    (m.applySeeds (seeds.filter (¬ ·.Skipped m.size))).1 = (m.applySeeds seeds).1 := by
  induction seeds generalizing m with
  | nil => rfl
  | cons seed seeds ih =>
    have hlater := ih (m.applySeed seed).1
    rw [size_applySeed] at hlater
    rcases m.applySeed_cases seed with ⟨hskipped, e, -, happly⟩ | ⟨hkept, -⟩
    · rw [List.filter_cons_of_neg (by simpa using hskipped), applySeeds_cons]
      rw [happly] at hlater ⊢
      exact hlater
    · rw [List.filter_cons_of_pos (by simpa using hkept)]
      exact hlater

end Memory

/-! ## Seeded devices -/

namespace Device

/-- Valid settings build a device around the memory that their seeds make. -/
theorem create_of_valid {s : DeviceSettings} (hvalid : s.Valid) {m : Memory}
    (hmemory : ((Memory.blank s.size).applySeeds s.initialData).1 = m) :
    create s = .ok
      ({ unitId := s.unitId
         counterAddress := s.counterAddress
         memory := m.setCounter s.counterAddress.toNat 0 },
        ((Memory.blank s.size).applySeeds s.initialData).2 ++
          [.deviceReady s.size s.unitId s.counterAddress]) := by
  subst hmemory
  rw [create, s.validate_eq_ok_iff.mpr hvalid]
  rfl

end Device

/-- Valid settings build a device in which every cell but the counter's holds the last seed for it,
or is blank if there is none, and the counter is zero.  Each seed that is skipped is warned about
once, in order, and nothing else is before the device is ready.  Lists that differ in skipped seeds
only build the same device. -/
theorem created_from_last_seeds {s : DeviceSettings} (hvalid : s.Valid) :
    ∃ (d : Device) (warnings : List Event),
      Device.create s =
        .ok (d, warnings ++ [.deviceReady s.size s.unitId s.counterAddress]) ∧
      (∀ (k : TableKind) (x : Nat), x < s.size →
        ¬ (k = .holding ∧ x = s.counterAddress.toNat) →
        d.memory.cell? k x = some (seededCell s.initialData k x)) ∧
      d.memory.cell? .holding s.counterAddress.toNat = some 0 ∧ d.counter = 0 ∧
      List.Forall₂ (Seed.Warning s.size) (s.initialData.filter (·.Skipped s.size)) warnings ∧
      (∀ w ∈ warnings, w.entry.level = .warn) ∧
      ∀ seeds : List Seed,
        seeds.filter (¬ ·.Skipped s.size) = s.initialData.filter (¬ ·.Skipped s.size) →
        ∃ events, Device.create { s with initialData := seeds } = .ok (d, events) := by
  have hcreate := Device.create_of_valid hvalid rfl
  have hcounter := Device.counterAt_of_create hcreate
  have hwarnings := (Memory.blank s.size).warnings_applySeeds s.initialData
  refine ⟨_, _, hcreate, ?_, hcounter.register_eq, hcounter.counter_eq, hwarnings, ?_, ?_⟩
  · intro k x hx hne
    exact (Memory.cell?_setCounter_of_ne _ _ _ _ hne).trans (Memory.cell?_seeded _ _ hx)
  · intro w hw
    rcases List.forall₂_iff_get.mp hwarnings with ⟨hlength, hget⟩
    rcases List.mem_iff_get.mp hw with ⟨i, rfl⟩
    exact (hget i (by rw [hlength]; exact i.isLt) i.isLt).level_entry
  · intro seeds hkept
    -- What is laid is decided by the seeds that are kept.
    have hsame : ((Memory.blank s.size).applySeeds seeds).1 =
        ((Memory.blank s.size).applySeeds s.initialData).1 := by
      rw [← Memory.applySeeds_filter _ seeds, ← Memory.applySeeds_filter _ s.initialData]
      exact congrArg (fun l => ((Memory.blank s.size).applySeeds l).1) hkept
    exact ⟨_, Device.create_of_valid (s := { s with initialData := seeds }) hvalid hsame⟩

/-- Settings with seeds of every sort: for one register twice, for the counter, for a bit, for no
table, and beyond the tables. -/
def mixedSeeds : DeviceSettings :=
  { maxRegisters := 4
    counterAddress := 1
    initialData := [⟨"holding", 2, 5⟩, ⟨"Holding", 2, 6⟩, ⟨"holding", 1, 8⟩, ⟨"input", 4, 3⟩,
      ⟨"coil", 0, 2⟩, ⟨"holding", 2, 7⟩] }

/-- The second seed of the register counts, the bit is set, and two seeds are skipped. -/
theorem created_from_mixedSeeds :
    mixedSeeds.Valid ∧ ∃ (d : Device) (warnings : List Event),
      Device.create mixedSeeds = .ok (d, warnings ++ [.deviceReady 4 1 1]) ∧
      d.memory.cell? .holding 2 = some (7 : UInt16) ∧ d.memory.cell? .coil 0 = some true ∧
      d.memory.cell? .holding 1 = some (0 : UInt16) ∧ d.memory.cell? .input 2 = some (0 : UInt16) ∧
      List.Forall₂ (Seed.Warning 4) [⟨"Holding", 2, 6⟩, ⟨"input", 4, 3⟩] warnings := by
  have hvalid : mixedSeeds.Valid := mixedSeeds.validate_eq_ok_iff.mp rfl
  rcases created_from_last_seeds hvalid with
    ⟨d, warnings, hcreate, hcells, hcounter, -, hwarnings, -⟩
  exact ⟨hvalid, d, warnings, hcreate, hcells .holding 2 (by decide) (by decide),
    hcells .coil 0 (by decide) (by decide), hcounter,
    hcells .input 2 (by decide) (by decide), hwarnings⟩

end Fieldbus
