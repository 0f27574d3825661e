import Fieldbus.Json.Document
import Fieldbus.Json.Schema
import Fieldbus.Settings.Basic

/-!
# Settings as documents

A settings file holds one object with a section for the listener, one for the journal and one for
the device.  Reading it lays what is written over the defaults; writing it sets down every field, in
the order of the schemas.
-/

namespace Fieldbus

open Json

/-! ## Reading -/

/-- A seed has all of its fields. -/
def Seed.schema : Schema Seed where
  title := "struct RegisterValue"
  fields :=
    [.string "type" fun v seed => { seed with kind := v },
      .uint16 "address" fun v seed => { seed with address := v },
      .uint16 "value" fun v seed => { seed with value := v }]
  base := ⟨"", 0, 0⟩
  complete := true

def ServerSettings.schema : Schema ServerSettings where
  title := "struct ServerConfig"
  fields :=
    [.string "address" fun v s => { s with address := v },
      .uint16 "port" fun v s => { s with port := v },
      .count "max_clients" fun v s => { s with maxClients := v },
      .uint64 "timeout" fun v s => { s with timeout := v },
      .uint32 "max_retries" fun v s => { s with maxRetries := v },
      .uint64 "retry_delay" fun v s => { s with retryDelay := v },
      .uint64 "shutdown_timeout" fun v s => { s with shutdownTimeout := v }]
  base := {}

def LoggingSettings.schema : Schema LoggingSettings where
  title := "struct LoggingConfig"
  fields :=
    [.string "level" fun v s => { s with level := v },
      .string "file" fun v s => { s with file := v },
      .bool "console" fun v s => { s with console := v }]
  base := {}

def DeviceSettings.schema : Schema DeviceSettings where
  title := "struct ModbusConfig"
  fields :=
    [.uint8 "unit_id" fun v s => { s with unitId := v },
      .count "max_registers" fun v s => { s with maxRegisters := v },
      .uint16 "counter_address" fun v s => { s with counterAddress := v },
      .uint64 "update_interval" fun v s => { s with updateInterval := v },
      .objects "initial_data" Seed.schema fun v s => { s with initialData := v }]
  base := {}

def Settings.schema : Schema Settings where
  title := "struct Config"
  fields :=
    [.object "server" ServerSettings.schema fun v s => { s with server := v },
      .object "logging" LoggingSettings.schema fun v s => { s with logging := v },
      .object "modbus" DeviceSettings.schema fun v s => { s with device := v }]
  base := {}

/-- Reads settings from the text of a file. -/
def Settings.parse (text : String) : Except Failure Settings :=
  Settings.schema.readDocument text

/-! ## Writing -/

def Seed.toDocument (seed : Seed) : Document :=
  .object
    [("type", .text seed.kind), ("address", .number seed.address.toNat),
      ("value", .number seed.value.toNat)]

def ServerSettings.toDocument (s : ServerSettings) : Document :=
  .object
    [("address", .text s.address), ("port", .number s.port.toNat),
      ("max_clients", .number s.maxClients.toNat), ("timeout", .number s.timeout.toNat),
      ("max_retries", .number s.maxRetries.toNat), ("retry_delay", .number s.retryDelay.toNat),
      ("shutdown_timeout", .number s.shutdownTimeout.toNat)]

def LoggingSettings.toDocument (s : LoggingSettings) : Document :=
  .object [("level", .text s.level), ("file", .text s.file), ("console", .flag s.console)]

def DeviceSettings.toDocument (s : DeviceSettings) : Document :=
  .object
    [("unit_id", .number s.unitId.toNat), ("max_registers", .number s.maxRegisters.toNat),
      ("counter_address", .number s.counterAddress.toNat),
      ("update_interval", .number s.updateInterval.toNat),
      ("initial_data", .list (s.initialData.map Seed.toDocument))]

def Settings.toDocument (s : Settings) : Document :=
  .object
    [("server", s.server.toDocument), ("logging", s.logging.toDocument),
      ("modbus", s.device.toDocument)]

/-- The text of a file that holds these settings. -/
def Settings.render (s : Settings) : String :=
  s.toDocument.render

end Fieldbus
