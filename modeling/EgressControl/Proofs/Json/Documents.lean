import EgressControl.Config
import EgressControl.Report.Document
import EgressControl.Proofs.Address.DottedQuad
import EgressControl.Proofs.Json.Shape

/-!
# What is written down is read back

Configurations, observations, rows and summaries are read back from their JSON text, with and
without line breaks, and from each text that has their fields in another order or other fields
besides (`documents_read_back`).
-/

namespace EgressControl

open Json (Value Spells)

/-- A reader gives back `x` from the texts of its JSON value: from the one without white space, from
the one over many lines, and from each text that spells another form of the value. -/
structure ReadsBack {α : Type} (parse? : String → Option α) (toJson : α → Value)
    (Form : α → Value → Prop) (x : α) : Prop where
  compact : parse? (toJson x).compact = some x
  pretty : parse? (toJson x).pretty = some x
  form : ∀ text v, Form x v → Spells text.toList v.tokens → parse? text = some x

/-- If a reader gives `x` for all its forms, it reads `x` back from each of its texts, be they
compact or pretty. -/
private theorem ReadsBack.of_forms {α : Type} {ofJson? : Value → Option α} {toJson : α → Value}
    {Form : α → Value → Prop} {x : α} (hvalid : (toJson x).Valid) (hself : Form x (toJson x))
    (h : ∀ v, Form x v → ofJson? v = some x) :
    ReadsBack (fun text => (Value.parse? text).bind ofJson?) toJson Form x where
  compact := by simp [Value.parse?_compact hvalid, h _ hself]
  pretty := by simp [Value.parse?_pretty hvalid, h _ hself]
  form text v hv hspells := by simp [Value.parse?_of_spells hspells, h v hv]

namespace SeedSources

/-- Sources are read from each object that extends theirs by further fields. -/
private theorem ofJson?_of_extends {s : SeedSources} {v : Value} (h : v.Extends s.toJson) :
    ofJson? v = some s := by
  have hfields : v.fields? fieldNames = _ := Value.fields?_of_extends h rfl (by decide)
  rw [ofJson?, hfields]
  simp

end SeedSources

namespace Config

/-- The JSON value of the configuration with these values for the overrides and for the sources. -/
def jsonWith (c : Config) (overrides seed : Value) : Value :=
  .record
    [("mode", .text c.mode), ("artifact", .text c.artifact), ("attach_overrides", overrides),
     ("seed", seed), ("allow_suffixes", .texts c.suffixes),
     ("report_file", .optionalText c.reportFile), ("summary_file", .optionalText c.summaryFile),
     ("perf_buffer_bytes", .nat c.bufferBytes.toNat)]

/-- A JSON value that has the fields of the configuration and of its sources in any order, with
others between them, and its overrides in any order. -/
def Form (c : Config) (v : Value) : Prop :=
  ∃ (overrides : List (String × String)) (seed : Value),
    overrides.Perm c.overrides.entries ∧ seed.Extends c.seed.toJson ∧
    v.Extends (c.jsonWith (.record (overrides.map fun e => (e.1, .text e.2))) seed)

/-- `toJson` is one of the forms of a configuration. -/
private theorem form_toJson (c : Config) : c.Form c.toJson := by
  refine ⟨c.overrides.entries, c.seed.toJson, .rfl, Value.extends_record _, ?_⟩
  rw [← Value.textTable_eq]
  exact Value.extends_record _

/-- A configuration is read from each of its forms: in any order of the overrides, and with further
fields. -/
private theorem ofJson?_of_form {c : Config} {v : Value} (h : c.Form v) : ofJson? v = some c := by
  obtain ⟨overrides, seed, hoverrides, hseed, hv⟩ := h
  have hfields : v.fields? fieldNames = _ := Value.fields?_of_extends hv rfl (by decide)
  rw [ofJson?, hfields]
  simp [Value.asTable_of_perm hoverrides, SeedSources.ofJson?_of_extends hseed,
    Value.asNat?_nat c.bufferBytes.toNat_lt]

/-- The numbers in a configuration are numbers of JSON. -/
private theorem valid_toJson (c : Config) : c.toJson.Valid := by
  simp [toJson, SeedSources.toJson]

/-- Configurations are read back from their texts. -/
private theorem readsBack (c : Config) : ReadsBack parse? toJson Form c :=
  .of_forms c.valid_toJson c.form_toJson fun _ => ofJson?_of_form

end Config

namespace Report.Observation

/-- An observation is read from each object that extends its own by further fields. -/
private theorem ofJson?_of_extends {o : Observation} {v : Value} (h : v.Extends o.toJson) :
    ofJson? v = some o := by
  have hfields : v.fields? fieldNames = _ := Value.fields?_of_extends h rfl (by decide)
  rw [ofJson?, hfields]
  simp [Value.asNat?_nat o.pid.toNat_lt, Value.asNat?_nat o.port.toNat_lt, Ipv4.parse?_text]

/-- The numbers in an observation are numbers of JSON. -/
theorem valid_toJson (o : Observation) : o.toJson.Valid := by
  simp [toJson]

/-- Observations are read back from their texts. -/
private theorem readsBack (o : Observation) :
    ReadsBack parse? toJson (fun o v => v.Extends o.toJson) o :=
  .of_forms o.valid_toJson (Value.extends_record _) fun _ => ofJson?_of_extends

/-- An observation is read back from its line in the log. -/
theorem parse?_render (o : Observation) : parse? o.render = some o := o.readsBack.compact

end Report.Observation

namespace Report.Row

/-- A row is read from each object that extends its own by further fields, if its count fits a word
of 64 bits. -/
private theorem ofJson?_of_extends {r : Row} {v : Value} (hr : r.connections < UInt64.size)
    (h : v.Extends r.toJson) : ofJson? v = some r := by
  have hfields : v.fields? fieldNames = _ := Value.fields?_of_extends h rfl (by decide)
  rw [ofJson?, hfields]
  simp [Value.asNat?_nat hr]

/-- The numbers in a row are numbers of JSON. -/
private theorem valid_toJson (r : Row) : r.toJson.Valid := by
  simp [toJson]

/-- Rows are read back from their texts, if their counts fit a word of 64 bits. -/
private theorem readsBack {r : Row} (hr : r.connections < UInt64.size) :
    ReadsBack parse? toJson (fun r v => v.Extends r.toJson) r :=
  .of_forms r.valid_toJson (Value.extends_record _) fun _ => ofJson?_of_extends hr

end Report.Row

namespace Report.Summary

/-- The JSON value of the summary with these values for its rows. -/
def jsonWith (s : Summary) (rows : List Value) : Value :=
  .record
    [("timestamp", .text s.timestamp), ("total_events", .nat s.totalEvents),
     ("unique_destinations", .nat s.uniqueDestinations), ("connections", .array rows)]

/-- A JSON value that has the fields of the summary and of its rows in any order, with others
between them. -/
def Form (s : Summary) (v : Value) : Prop :=
  ∃ rows, List.Forall₂ (fun r w => Value.Extends w (Row.toJson r)) s.connections rows ∧
    v.Extends (s.jsonWith rows)

/-- Every number fits in 64 bits. -/
structure InRange (s : Summary) : Prop where
  totalEvents : s.totalEvents < UInt64.size
  uniqueDestinations : s.uniqueDestinations < UInt64.size
  connections : ∀ r ∈ s.connections, r.connections < UInt64.size

/-- `toJson` is one of the forms of a summary. -/
private theorem form_toJson (s : Summary) : s.Form s.toJson := by
  refine ⟨s.connections.map Row.toJson, ?_, Value.extends_record _⟩
  rw [List.forall₂_map_right_iff, List.forall₂_same]
  exact fun _ _ => Value.extends_record _

/-- A summary is read from each of its forms, if its counts fit words of 64 bits (`InRange`). -/
private theorem ofJson?_of_form {s : Summary} {v : Value} (hs : s.InRange) (h : s.Form v) :
    ofJson? v = some s := by
  obtain ⟨rows, hrows, hv⟩ := h
  -- Each row is read from its own form.
  have hlist : Value.asList Row.ofJson? (.array rows) = some s.connections := by
    apply Value.mapM_of_forall₂
    rw [List.forall₂_iff_get] at hrows ⊢
    exact ⟨hrows.1, fun i hi hj =>
      Row.ofJson?_of_extends (hs.connections _ (List.get_mem _ _)) (hrows.2 i hi hj)⟩
  have hfields : v.fields? fieldNames = _ := Value.fields?_of_extends hv rfl (by decide)
  rw [ofJson?, hfields]
  simp [Value.asNat?_nat hs.totalEvents, Value.asNat?_nat hs.uniqueDestinations, hlist]

/-- The numbers in a summary are numbers of JSON. -/
private theorem valid_toJson (s : Summary) : s.toJson.Valid := by
  simp [toJson, Row.valid_toJson]

/-- Summaries are read back from their texts, if their counts fit words of 64 bits (`InRange`). -/
private theorem readsBack {s : Summary} (hs : s.InRange) : ReadsBack parse? toJson Form s :=
  .of_forms s.valid_toJson s.form_toJson fun _ => ofJson?_of_form hs

end Report.Summary

/-- Every configuration, observation, row and summary `ReadsBack` from its compact and its pretty
text, with counters up to the largest number of 64 bits.  `Config.render` of a configuration that
has been parsed is a fixed point of parsing and rendering. -/
theorem documents_read_back :
    (∀ c : Config, ReadsBack Config.parse? Config.toJson Config.Form c) ∧
    (∀ o : Report.Observation, ReadsBack Report.Observation.parse? Report.Observation.toJson
      (fun o v => v.Extends o.toJson) o) ∧
    (∀ r : Report.Row, r.connections < UInt64.size →
      ReadsBack Report.Row.parse? Report.Row.toJson (fun r v => v.Extends r.toJson) r) ∧
    (∀ s : Report.Summary, s.InRange →
      ReadsBack Report.Summary.parse? Report.Summary.toJson Report.Summary.Form s) ∧
    ∀ text written : String, (Config.parse? text).map Config.render = some written →
      (Config.parse? written).map Config.render = some written := by
  refine ⟨Config.readsBack, Report.Observation.readsBack, fun _ => Report.Row.readsBack,
    fun _ => Report.Summary.readsBack, ?_⟩
  intro text written h
  obtain ⟨c, -, rfl⟩ := Option.map_eq_some_iff.mp h
  rw [show Config.parse? c.render = some c from c.readsBack.compact, Option.map_some]

/-- A row with the largest number, a summary of it, and a text of a configuration. -/
theorem documents_read_back_largest :
    let r : Report.Row := ⟨"curl", "192.0.2.1:443", ["a\"b\n"], 18446744073709551615, true⟩
    let s : Report.Summary := ⟨"2024-05-01T12:00:00Z", 18446744073709551615, 1, [r]⟩
    let c := Config.default Config.artifactX86
    r.connections < UInt64.size ∧ s.InRange ∧
      Report.Row.parse? (Value.record [("x", .null), ("allowed", .bool true),
          ("connections", .nat 18446744073709551615), ("domains", .texts ["a\"b\n"]),
          ("destination", .text "192.0.2.1:443"), ("task", .text "curl")]).compact = some r ∧
      Report.Summary.parse? s.render = some s ∧
      (Config.parse? c.toJson.pretty).map Config.render = some c.render ∧
      (Config.parse? c.render).map Config.render = some c.render := by
  intro r s c
  have hr : r.connections < UInt64.size := by decide
  have hs : s.InRange := ⟨by decide, by decide, by decide⟩
  have hc : (Config.parse? c.toJson.pretty).map Config.render = some c.render := by
    rw [(documents_read_back.1 c).pretty, Option.map_some]
  refine ⟨hr, hs, (documents_read_back.2.2.1 r hr).form _ _ ?_ (Value.spells_compact (by simp)),
    (documents_read_back.2.2.2.1 s hs).pretty, hc, documents_read_back.2.2.2.2 _ _ hc⟩
  -- The members stand in reverse order, the one that is not known first.
  refine ⟨_, _, [("x", .null)], rfl, rfl, List.reverse_perm [_, _, _, _, _, _], ?_⟩
  simp [Value.IsScalar]

end EgressControl
