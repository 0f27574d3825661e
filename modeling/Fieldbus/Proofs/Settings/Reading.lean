import Fieldbus.Proofs.Json.Field
import Fieldbus.Settings.Document

/-!
# What a settings file means

The fields of each section, with the names that they go by in a file.  A file is read if it holds
one object that writes these fields as it may; what is read are the defaults with the file laid over
them (`Settings.parse_spec`).
-/

namespace Fieldbus

open Json

/-! ## Sections -/

/-- A seed in the list of initial values. -/
def Seed.views : Views Seed where
  all :=
    [.text "type" (·.kind) fun v seed => { seed with kind := v },
      .natural .sixteen "address" (·.address) fun v seed => { seed with address := v },
      .natural .sixteen "value" (·.value) fun v seed => { seed with value := v }]
  nodup := by decide
  get_set := by
    simp only [List.forall_mem_cons]
    exact ⟨fun _ _ => rfl, fun _ _ => rfl, fun _ _ => rfl, fun _ hw => (nomatch hw)⟩
  get_set_of_ne := by
    -- The setting of one field is looked at through every other.
    intro w hw w' hw' hname value x
    simp only [List.mem_cons, List.not_mem_nil, or_false] at hw hw'
    rcases hw with rfl | rfl | rfl <;>
      rcases hw' with rfl | rfl | rfl <;>
        first | exact absurd rfl hname | rfl
  ext := by
    intro x y h
    simp only [List.forall_mem_cons] at h
    rcases x with ⟨kind, address, value⟩
    rcases h with ⟨rfl, rfl, rfl, -⟩
    rfl

theorem Seed.schema_fits : Seed.schema.Fits Seed.views :=
  .cons Field.string_matches <| .cons (Field.natural_matches rfl rfl) <|
    .cons (Field.natural_matches rfl rfl) .nil

/-- The section of the listener. -/
def ServerSettings.views : Views ServerSettings where
  all :=
    [.text "address" (·.address) fun v s => { s with address := v },
      .natural .sixteen "port" (·.port) fun v s => { s with port := v },
      .natural .sixtyFour "max_clients" (·.maxClients) fun v s => { s with maxClients := v },
      .natural .sixtyFour "timeout" (·.timeout) fun v s => { s with timeout := v },
      .natural .thirtyTwo "max_retries" (·.maxRetries) fun v s => { s with maxRetries := v },
      .natural .sixtyFour "retry_delay" (·.retryDelay) fun v s => { s with retryDelay := v },
      .natural .sixtyFour "shutdown_timeout" (·.shutdownTimeout) fun v s =>
        { s with shutdownTimeout := v }]
  nodup := by decide
  get_set := by
    simp only [List.forall_mem_cons]
    exact ⟨fun _ _ => rfl, fun _ _ => rfl, fun _ _ => rfl, fun _ _ => rfl, fun _ _ => rfl,
      fun _ _ => rfl, fun _ _ => rfl, fun _ hw => (nomatch hw)⟩
  get_set_of_ne := by
    intro w hw w' hw' hname value x
    simp only [List.mem_cons, List.not_mem_nil, or_false] at hw hw'
    rcases hw with rfl | rfl | rfl | rfl | rfl | rfl | rfl <;>
      rcases hw' with rfl | rfl | rfl | rfl | rfl | rfl | rfl <;>
        first | exact absurd rfl hname | rfl
  ext := by
    intro x y h
    simp only [List.forall_mem_cons] at h
    rcases x with ⟨address, port, maxClients, timeout, maxRetries, retryDelay, shutdownTimeout⟩
    rcases h with ⟨rfl, rfl, rfl, rfl, rfl, rfl, rfl, -⟩
    rfl

theorem ServerSettings.schema_fits : ServerSettings.schema.Fits ServerSettings.views :=
  .cons Field.string_matches <| .cons (Field.natural_matches rfl rfl) <|
    .cons (Field.natural_matches rfl rfl) <| .cons (Field.natural_matches rfl rfl) <|
    .cons (Field.natural_matches rfl rfl) <| .cons (Field.natural_matches rfl rfl) <|
    .cons (Field.natural_matches rfl rfl) .nil

/-- The section of the journal. -/
def LoggingSettings.views : Views LoggingSettings where
  all :=
    [.text "level" (·.level) fun v s => { s with level := v },
      .text "file" (·.file) fun v s => { s with file := v },
      .flag "console" (·.console) fun v s => { s with console := v }]
  nodup := by decide
  get_set := by
    simp only [List.forall_mem_cons]
    exact ⟨fun _ _ => rfl, fun _ _ => rfl, fun _ _ => rfl, fun _ hw => (nomatch hw)⟩
  get_set_of_ne := by
    intro w hw w' hw' hname value x
    simp only [List.mem_cons, List.not_mem_nil, or_false] at hw hw'
    rcases hw with rfl | rfl | rfl <;>
      rcases hw' with rfl | rfl | rfl <;>
        first | exact absurd rfl hname | rfl
  ext := by
    intro x y h
    simp only [List.forall_mem_cons] at h
    rcases x with ⟨level, file, console⟩
    rcases h with ⟨rfl, rfl, rfl, -⟩
    rfl

theorem LoggingSettings.schema_fits : LoggingSettings.schema.Fits LoggingSettings.views :=
  .cons Field.string_matches <| .cons Field.string_matches <| .cons Field.bool_matches .nil

/-- The section of the device.  A list of seeds takes the place of the default one. -/
def DeviceSettings.views : Views DeviceSettings where
  all :=
    [.natural .eight "unit_id" (·.unitId) fun v s => { s with unitId := v },
      .natural .sixtyFour "max_registers" (·.maxRegisters) fun v s => { s with maxRegisters := v },
      .natural .sixteen "counter_address" (·.counterAddress) fun v s =>
        { s with counterAddress := v },
      .natural .sixtyFour "update_interval" (·.updateInterval) fun v s =>
        { s with updateInterval := v },
      .objects Seed.views ⟨"", 0, 0⟩ "initial_data" (·.initialData) fun v s =>
        { s with initialData := v }]
  nodup := by decide
  get_set := by
    simp only [List.forall_mem_cons]
    exact ⟨fun _ _ => rfl, fun _ _ => rfl, fun _ _ => rfl, fun _ _ => rfl, fun _ _ => rfl,
      fun _ hw => (nomatch hw)⟩
  get_set_of_ne := by
    intro w hw w' hw' hname value x
    simp only [List.mem_cons, List.not_mem_nil, or_false] at hw hw'
    rcases hw with rfl | rfl | rfl | rfl | rfl <;>
      rcases hw' with rfl | rfl | rfl | rfl | rfl <;>
        first | exact absurd rfl hname | rfl
  ext := by
    intro x y h
    simp only [List.forall_mem_cons] at h
    rcases x with ⟨unitId, maxRegisters, counterAddress, updateInterval, initialData⟩
    rcases h with ⟨rfl, rfl, rfl, rfl, rfl, -⟩
    rfl

theorem DeviceSettings.schema_fits : DeviceSettings.schema.Fits DeviceSettings.views :=
  .cons (Field.natural_matches rfl rfl) <| .cons (Field.natural_matches rfl rfl) <|
    .cons (Field.natural_matches rfl rfl) <| .cons (Field.natural_matches rfl rfl) <|
    .cons (Field.objects_matches Seed.schema_fits rfl) .nil

/-- All sections. -/
def Settings.views : Views Settings where
  all :=
    [.object ServerSettings.views {} "server" (·.server) fun v s => { s with server := v },
      .object LoggingSettings.views {} "logging" (·.logging) fun v s => { s with logging := v },
      .object DeviceSettings.views {} "modbus" (·.device) fun v s => { s with device := v }]
  nodup := by decide
  get_set := by
    simp only [List.forall_mem_cons]
    exact ⟨fun _ _ => rfl, fun _ _ => rfl, fun _ _ => rfl, fun _ hw => (nomatch hw)⟩
  get_set_of_ne := by
    intro w hw w' hw' hname value x
    simp only [List.mem_cons, List.not_mem_nil, or_false] at hw hw'
    rcases hw with rfl | rfl | rfl <;>
      rcases hw' with rfl | rfl | rfl <;>
        first | exact absurd rfl hname | rfl
  ext := by
    intro x y h
    simp only [List.forall_mem_cons] at h
    rcases x with ⟨server, logging, device⟩
    rcases h with ⟨rfl, rfl, rfl, -⟩
    rfl

theorem Settings.schema_fits : Settings.schema.Fits Settings.views :=
  .cons (Field.object_matches ServerSettings.schema_fits rfl) <|
    .cons (Field.object_matches LoggingSettings.schema_fits rfl) <|
    .cons (Field.object_matches DeviceSettings.schema_fits rfl) .nil

/-! ## Files -/

theorem Settings.parse_eq_ok_iff {text : String} {s : Settings} :
    Settings.parse text = .ok s ↔
      ∃ tree, IsDocument text tree ∧ Described Settings.views {} false tree s :=
  Schema.readDocument_eq_ok_iff Settings.schema_fits

/-- A file is read exactly when it holds one document that the sections accept, and what is read are
the defaults with this document laid over them. -/
theorem Settings.parse_spec (text : String) :
    ((∃ s, Settings.parse text = .ok s) ↔
      ∃ tree, IsDocument text tree ∧ Accepted Settings.views false tree) ∧
    ∀ s, Settings.parse text = .ok s ↔
      ∃ tree, IsDocument text tree ∧ Described Settings.views {} false tree s := by
  refine ⟨?_, fun _ => Settings.parse_eq_ok_iff⟩
  refine ⟨?_, ?_⟩
  · rintro ⟨s, hparse⟩
    rcases Settings.parse_eq_ok_iff.mp hparse with ⟨tree, hdocument, hdescribed⟩
    exact ⟨tree, hdocument, accepted_iff.mpr ⟨s, hdescribed⟩⟩
  · rintro ⟨tree, hdocument, haccepted⟩
    rcases accepted_iff.mp haccepted with ⟨s, hdescribed⟩
    exact ⟨s, Settings.parse_eq_ok_iff.mpr ⟨tree, hdocument, hdescribed⟩⟩

/-- A section that is unknown is passed over, and the greatest port is taken as it is written. -/
example : Settings.parse "\x7b\"x\": [null], \"server\": \x7b\"port\": 65535\x7d\x7d" =
    .ok { server := { port := 65535 } } := by
  decide +kernel

/-- One port more is too much. -/
example : (Settings.parse "\x7b\"server\": \x7b\"port\": 65536\x7d\x7d").isOk = false := by
  decide +kernel

end Fieldbus
