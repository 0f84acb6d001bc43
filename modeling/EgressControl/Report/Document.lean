import EgressControl.Address.Ipv4
import EgressControl.Json.Shape

/-! # What a run writes down

An `Observation` is one line of the log of connections; a `Summary` is written at the end of a
run, with one `Row` for each task, destination and port.  Each is read back from what is
written. -/

namespace EgressControl.Report

open Json (Value)

/-- One observed connection. -/
structure Observation where
  /-- The time at which it was written down. -/
  timestamp : String
  pid : UInt32
  task : String
  destination : Ipv4
  port : UInt16
  /-- The names of the destination. -/
  domains : List String
  /-- Whether the destination was allowed because of a name. -/
  allowed : Bool
  deriving DecidableEq

namespace Observation

/-- The names of the fields in JSON. -/
def fieldNames : List String :=
  ["timestamp", "pid", "task", "daddr", "dport", "domains", "allowed"]

/-- The observation as a JSON value. -/
def toJson (o : Observation) : Value :=
  .record
    [("timestamp", .text o.timestamp), ("pid", .nat o.pid.toNat), ("task", .text o.task),
     ("daddr", .text o.destination.text), ("dport", .nat o.port.toNat),
     ("domains", .texts o.domains), ("allowed", .bool o.allowed)]

/-- Reads an observation. -/
def ofJson? (v : Value) : Option Observation := do
  match ← v.fields? fieldNames with
  | [timestamp, pid, task, destination, port, domains, allowed] =>
    return {
      timestamp := ← Value.required Value.asText? timestamp
      pid := .ofNat (← Value.required (Value.asNat? UInt32.size) pid)
      task := ← Value.required Value.asText? task
      destination := ← (← Value.required Value.asText? destination) |> Ipv4.parse?
      port := .ofNat (← Value.required (Value.asNat? UInt16.size) port)
      domains := ← Value.required (Value.asList Value.asText?) domains
      allowed := ← Value.required Value.asBool? allowed }
  | _ => none

/-- Reads the text of an observation. -/
def parse? (text : String) : Option Observation := (Value.parse? text).bind ofJson?

/-- The text of an observation. -/
def render (o : Observation) : String := o.toJson.compact

end Observation

/-- What was seen of the connections of one task to one address and port. -/
structure Row where
  task : String
  /-- Address and port. -/
  destination : String
  /-- The names of the destination when it was first seen. -/
  domains : List String
  /-- The number of connections, which fits a word of 64 bits as long as `Consumer.counts_lt_size`
  says. -/
  connections : Nat
  /-- Whether the destination was allowed at least once because of a name. -/
  allowed : Bool
  deriving DecidableEq

namespace Row

/-- The names of the fields in JSON. -/
def fieldNames : List String := ["task", "destination", "domains", "connections", "allowed"]

/-- The row as a JSON value. -/
def toJson (r : Row) : Value :=
  .record
    [("task", .text r.task), ("destination", .text r.destination), ("domains", .texts r.domains),
     ("connections", .nat r.connections), ("allowed", .bool r.allowed)]

/-- Reads a row. -/
def ofJson? (v : Value) : Option Row := do
  match ← v.fields? fieldNames with
  | [task, destination, domains, connections, allowed] =>
    return {
      task := ← Value.required Value.asText? task
      destination := ← Value.required Value.asText? destination
      domains := ← Value.required (Value.asList Value.asText?) domains
      connections := ← Value.required (Value.asNat? UInt64.size) connections
      allowed := ← Value.required Value.asBool? allowed }
  | _ => none

/-- Reads the text of a row. -/
def parse? (text : String) : Option Row := (Value.parse? text).bind ofJson?

/-- The text of a row. -/
def render (r : Row) : String := r.toJson.compact

end Row

/-- What was seen during a run. -/
structure Summary where
  /-- The time at which the summary was made. -/
  timestamp : String
  totalEvents : Nat
  /-- The number of different addresses. -/
  uniqueDestinations : Nat
  connections : List Row
  deriving DecidableEq

namespace Summary

/-- The names of the fields in JSON. -/
def fieldNames : List String :=
  ["timestamp", "total_events", "unique_destinations", "connections"]

/-- The summary as a JSON value. -/
def toJson (s : Summary) : Value :=
  .record
    [("timestamp", .text s.timestamp), ("total_events", .nat s.totalEvents),
     ("unique_destinations", .nat s.uniqueDestinations),
     ("connections", .array (s.connections.map Row.toJson))]

/-- Reads a summary. -/
def ofJson? (v : Value) : Option Summary := do
  match ← v.fields? fieldNames with
  | [timestamp, totalEvents, uniqueDestinations, connections] =>
    return {
      timestamp := ← Value.required Value.asText? timestamp
      totalEvents := ← Value.required (Value.asNat? UInt64.size) totalEvents
      uniqueDestinations := ← Value.required (Value.asNat? UInt64.size) uniqueDestinations
      connections := ← Value.required (Value.asList Row.ofJson?) connections }
  | _ => none

/-- Reads the text of a summary. -/
def parse? (text : String) : Option Summary := (Value.parse? text).bind ofJson?

/-- The text of a summary, over many lines. -/
def render (s : Summary) : String := s.toJson.pretty

end Summary

end EgressControl.Report
