import EgressControl.Json.Shape

/-! # Configuration

Everything that a run has to know before it starts.  The mode is kept as the user wrote it; it
is looked at when the run begins. -/

namespace EgressControl

open Json (Value)

/-- The processors of a host, as far as the object file depends on them. -/
inductive Architecture where
  /-- 64-bit ARM processors. -/
  | arm64
  | other
  deriving DecidableEq, Repr

/-- Where the addresses come from that are allowed from the start. -/
structure SeedSources where
  /-- Host names with commas between them. -/
  hosts : String := ""
  /-- IPv4 addresses with commas between them. -/
  addresses : String := ""
  /-- A file that lists nameservers. -/
  nameservers : Option String := none
  deriving DecidableEq

/-- The configuration of a run. -/
structure Config where
  mode : String
  /-- The object file with the filter program. -/
  artifact : String
  /-- Targets of programs that are not bound to the target with their own name. -/
  overrides : Table String String
  seed : SeedSources
  /-- A destination is allowed when one of its names contains one of these. -/
  suffixes : List String
  /-- The log of every observed connection. -/
  reportFile : Option String
  /-- The summary that is written at the end. -/
  summaryFile : Option String
  /-- The size of the perf buffer of each processor. -/
  bufferBytes : UInt64

namespace SeedSources

/-- The nameserver file of the system. -/
def systemNameservers : String := "/etc/resolv.conf"

/-- The names of the fields in JSON. -/
def fieldNames : List String := ["allowed_hosts", "allowed_ips", "resolv_conf"]

/-- The sources as a JSON value. -/
def toJson (s : SeedSources) : Value :=
  .record
    [("allowed_hosts", .text s.hosts), ("allowed_ips", .text s.addresses),
     ("resolv_conf", .optionalText s.nameservers)]

/-- Reads sources. -/
def ofJson? (v : Value) : Option SeedSources := do
  match ← v.fields? fieldNames with
  | [hosts, addresses, nameservers] =>
    return {
      hosts := ← Value.required Value.asText? hosts
      addresses := ← Value.required Value.asText? addresses
      nameservers := ← Value.optional Value.asText? nameservers }
  | _ => none

end SeedSources

namespace Config

/-- The object file for hosts with 64-bit x86 processors. -/
def artifactX86 : String := "./kntrl/bpf_bpfel_x86.o"

/-- The object file for hosts with 64-bit ARM processors. -/
def artifactArm64 : String := "./kntrl/bpf_bpfel_arm64.o"

/-- The object file for a host. -/
def artifactFor : Architecture → String
  | .arm64 => artifactArm64
  | .other => artifactX86

/-- The parts of names that are allowed unless the user names others. -/
def defaultSuffixes : List String := [".github.com", ".kondukto.io"]

/-- The size of a perf buffer unless another one is asked for. -/
def defaultBufferBytes : UInt64 := 4096

/-- The configuration of a user who says nothing, on a host with the given object file. -/
def default (artifact : String) : Config where
  mode := ""
  artifact := artifact
  overrides := .empty
  seed := { nameservers := some SeedSources.systemNameservers }
  suffixes := defaultSuffixes
  reportFile := none
  summaryFile := none
  bufferBytes := defaultBufferBytes

/-- The names of the fields in JSON. -/
def fieldNames : List String :=
  ["mode", "artifact", "attach_overrides", "seed", "allow_suffixes", "report_file",
   "summary_file", "perf_buffer_bytes"]

/-- The configuration as a JSON value. -/
def toJson (c : Config) : Value :=
  .record
    [("mode", .text c.mode), ("artifact", .text c.artifact),
     ("attach_overrides", .textTable c.overrides), ("seed", c.seed.toJson),
     ("allow_suffixes", .texts c.suffixes), ("report_file", .optionalText c.reportFile),
     ("summary_file", .optionalText c.summaryFile),
     ("perf_buffer_bytes", .nat c.bufferBytes.toNat)]

/-- Reads a configuration. -/
def ofJson? (v : Value) : Option Config := do
  match ← v.fields? fieldNames with
  | [mode, artifact, overrides, seed, suffixes, reportFile, summaryFile, bufferBytes] =>
    return {
      mode := ← Value.required Value.asText? mode
      artifact := ← Value.required Value.asText? artifact
      overrides := ← Value.required (Value.asTable Value.asText?) overrides
      seed := ← Value.required SeedSources.ofJson? seed
      suffixes := ← Value.required (Value.asList Value.asText?) suffixes
      reportFile := ← Value.optional Value.asText? reportFile
      summaryFile := ← Value.optional Value.asText? summaryFile
      bufferBytes :=
        .ofNat (← Value.required (Value.asNat? UInt64.size) bufferBytes) }
  | _ => none

/-- Reads the text of a configuration. -/
def parse? (text : String) : Option Config := (Value.parse? text).bind ofJson?

/-- The text of a configuration. -/
def render (c : Config) : String := c.toJson.compact

end Config

end EgressControl
