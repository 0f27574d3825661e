import Fieldbus.Proofs.Files.Writing
import Fieldbus.Proofs.Json.Writing
import Fieldbus.Proofs.Settings.Reading
import Fieldbus.Settings.Load

/-!
# Settings that are written and read back

Every section writes all of its fields under the names that it reads them by, so a text of written
settings describes exactly these settings, and so does the file that is made for the defaults.
-/

namespace Fieldbus

/-! ## Sections -/

section

open Json

variable {complete : Bool}

theorem Seed.described_toDocument (seed base : Seed) :
    Described Seed.views base complete seed.toDocument.tree seed := by
  refine described_of_written ?_ complete
  exact .cons ⟨rfl, Document.isText_tree seed.kind⟩ <|
    .cons ⟨rfl, Document.isNatural_tree seed.address.toNat⟩ <|
    .cons ⟨rfl, Document.isNatural_tree seed.value.toNat⟩ .nil

theorem Seed.described_toDocuments (seeds : List Seed) (base : Seed) :
    List.Forall₂ (Described Seed.views base complete)
      (Document.trees (seeds.map Seed.toDocument)) seeds := by
  induction seeds with
  | nil => exact .nil
  | cons seed seeds ih => exact .cons (seed.described_toDocument base) ih

theorem ServerSettings.described_toDocument (s base : ServerSettings) :
    Described ServerSettings.views base complete s.toDocument.tree s := by
  refine described_of_written ?_ complete
  exact .cons ⟨rfl, Document.isText_tree s.address⟩ <|
    .cons ⟨rfl, Document.isNatural_tree s.port.toNat⟩ <|
    .cons ⟨rfl, Document.isNatural_tree s.maxClients.toNat⟩ <|
    .cons ⟨rfl, Document.isNatural_tree s.timeout.toNat⟩ <|
    .cons ⟨rfl, Document.isNatural_tree s.maxRetries.toNat⟩ <|
    .cons ⟨rfl, Document.isNatural_tree s.retryDelay.toNat⟩ <|
    .cons ⟨rfl, Document.isNatural_tree s.shutdownTimeout.toNat⟩ .nil

theorem LoggingSettings.described_toDocument (s base : LoggingSettings) :
    Described LoggingSettings.views base complete s.toDocument.tree s := by
  refine described_of_written ?_ complete
  exact .cons ⟨rfl, Document.isText_tree s.level⟩ <|
    .cons ⟨rfl, Document.isText_tree s.file⟩ <| .cons ⟨rfl, rfl⟩ .nil

theorem DeviceSettings.described_toDocument (s base : DeviceSettings) :
    Described DeviceSettings.views base complete s.toDocument.tree s := by
  refine described_of_written ?_ complete
  exact .cons ⟨rfl, Document.isNatural_tree s.unitId.toNat⟩ <|
    .cons ⟨rfl, Document.isNatural_tree s.maxRegisters.toNat⟩ <|
    .cons ⟨rfl, Document.isNatural_tree s.counterAddress.toNat⟩ <|
    .cons ⟨rfl, Document.isNatural_tree s.updateInterval.toNat⟩ <|
    .cons ⟨rfl, _, rfl, Seed.described_toDocuments s.initialData _⟩ .nil

theorem Settings.described_toDocument (s base : Settings) :
    Described Settings.views base complete s.toDocument.tree s := by
  refine described_of_written ?_ complete
  exact .cons ⟨rfl, s.server.described_toDocument _⟩ <|
    .cons ⟨rfl, s.logging.described_toDocument _⟩ <|
    .cons ⟨rfl, s.device.described_toDocument _⟩ .nil

end

/-! ## Texts and files -/

namespace Settings

theorem parse_render (s : Settings) : parse s.render = .ok s :=
  parse_eq_ok_iff.mpr
    ⟨s.toDocument.tree, s.toDocument.isDocument_render, s.described_toDocument {}⟩

open Files

theorem createFile_eq_ok {tree tree' : Tree} {path : List Char}
    (hcreate : createFile tree path = (.ok (), tree')) :
    ∃ around : Tree, around.writeFile path (render {}).toUTF8.toList = .ok tree' := by
  unfold createFile at hcreate
  -- The directories around the file have been made, and nothing more is known of them.
  extract_lets made at hcreate
  clear_value made
  rcases made with ⟨_ | _, around⟩
  · cases hcreate
  · cases hwrite : around.writeFile path (render {}).toUTF8.toList with
    | error e => simp only [hwrite, Prod.mk.injEq, reduceCtorEq, false_and] at hcreate
    | ok made =>
      simp only [hwrite, Prod.mk.injEq, true_and] at hcreate
      exact ⟨around, hcreate ▸ hwrite⟩

/-- Only a file that is made with the defaults is reported as such. -/
theorem load_eq_createdDefaults {tree tree' : Tree} {path : String} {s : Settings}
    (hload : load tree path = (.ok (s, .createdDefaults), tree')) :
    s = {} ∧ createFile tree path.toList = (.ok (), tree') := by
  unfold load at hload
  split at hload
  · rename_i hfound
    cases hread : readFile tree path with
    | error e => simp [hread, Except.map] at hload
    | ok settings => simp [hread, Except.map] at hload
  · split at hload
    · rename_i hcreate
      cases hload
      exact ⟨rfl, hcreate⟩
    · cases hload

theorem readFile_of_createFile {tree tree' : Tree} {path : String}
    (hcreate : createFile tree path.toList = (.ok (), tree')) :
    tree'.readText path.toList = .ok (render {}) ∧ readFile tree' path = .ok {} := by
  rcases createFile_eq_ok hcreate with ⟨around, hwrite⟩
  have htext : tree'.readText path.toList = .ok (render {}) := by
    rw [Tree.readText_of_writeFile hwrite, textOf_toUTF8]
  refine ⟨htext, ?_⟩
  rw [readFile, htext, ofText, parse_render]

/-- Whatever settings are written, the text is read back as these settings, field for field, with
their seeds in order.  When loading makes a file it answers the defaults, the file holds their text,
and reading it again gives the defaults. -/
theorem written_settings_read_back :
    (∀ s : Settings, parse s.render = .ok s) ∧
      ∀ (tree tree' : Tree) (path : String) (s : Settings),
        load tree path = (.ok (s, .createdDefaults), tree') →
          s = {} ∧ tree'.readText path.toList = .ok (render {}) ∧ readFile tree' path = .ok {} := by
  refine ⟨parse_render, ?_⟩
  intro tree tree' path s hload
  rcases load_eq_createdDefaults hload with ⟨rfl, hcreate⟩
  exact ⟨rfl, readFile_of_createFile hcreate⟩

/-- Where nothing is, a file with the defaults is made in a directory of its own and read back.  A
seed named with a quote, a backslash, controls and a character beyond 16 bits is read back too. -/
theorem written_defaults_read_back :
    ∃ tree' : Tree, load {} "a/b" = (.ok ({}, .createdDefaults), tree') ∧
      readFile tree' "a/b" = .ok {} ∧
      parse (render { device := { initialData := [⟨"\"\x01\n\\😀", 65535, 0⟩] } }) =
        .ok { device := { initialData := [⟨"\"\x01\n\\😀", 65535, 0⟩] } } := by
  have hload : load {} "a/b" = (.ok ({}, .createdDefaults),
      { entries := [(["a", "b"], .file (render {}).toUTF8.toList), (["a"], .directory)] }) := by
    rfl
  exact ⟨_, hload, (written_settings_read_back.2 _ _ _ _ hload).2.2,
    written_settings_read_back.1 _⟩

end Settings

end Fieldbus
