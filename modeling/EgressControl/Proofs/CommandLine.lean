import EgressControl.CommandLine.Request
import EgressControl.Proofs.Override
import Mathlib.Data.List.Perm.Basic
import Mathlib.Data.Set.List

/-!
# Options in any order

A user chooses what to set (`Choice`) and writes an argument for each value, in any order in which
the suffixes among themselves and the attach items among themselves are as they were chosen
(`Choice.Arranges`).  The order leaves no trace: the arguments are read one by one, each adds its
own setting (`run_written`), and what is collected of each setting is what was chosen for it
(`Choice.Orders.valuesOf`).

`Choice.arguments_ask_for` puts this together with what attach items mean: all orders ask for the
same configuration, which holds the values chosen and the usual ones for the rest, or all are
turned down because of the same item.
-/

namespace EgressControl.CommandLine

open Override (Malformed LastAssigned)

/-! ## Single arguments -/

/-- An argument that sets something, or the switch. -/
inductive Argument where
  | setting (s : Setting) (v : String)
  | verbose
  deriving DecidableEq

namespace Argument

/-- An argument as it is written. -/
def text : Argument → String
  | setting s v => "--" ++ s.longName ++ "=" ++ v
  | verbose => "--verbose"

/-- What an argument sets. -/
def value? : Argument → Option (Setting × String)
  | setting s v => some (s, v)
  | verbose => none

end Argument

/-- No name of a setting holds an equals sign, so that the first one ends the name. -/
private theorem sign_notMem_longName (s : Setting) : '=' ∉ s.longName.toList := by
  cases s <;> decide

/-- `ofLongName?` finds each setting by its `longName`. -/
private theorem ofLongName?_longName (s : Setting) :
    Flag.ofLongName? s.longName = some (.setting s) := by
  cases s <;> decide

/-- An argument is two dashes, the name of the setting, an equals sign and the value. -/
private theorem toList_text_setting (s : Setting) (v : String) :
    (Argument.setting s v).text.toList = '-' :: '-' :: (s.longName.toList ++ '=' :: v.toList) := by
  simp [Argument.text]

/-- The first equals sign separates the name of a setting from its value. -/
private theorem cutFirst_setting (s : Setting) (v : String) :
    Text.cutFirst '=' (s.longName.toList ++ '=' :: v.toList) = some (s.longName.toList, v.toList) :=
  Text.cutFirst_eq_some_iff.mpr ⟨rfl, sign_notMem_longName s⟩

/-- The value is taken as it is written, whatever stands in it. -/
private theorem step_setting (r : Reading) (s : Setting) (v : String) :
    r.step (Argument.setting s v).text = r.assign s v := by
  rw [Reading.step, toList_text_setting]
  simp only [Reading.stepLong, cutFirst_setting, String.ofList_toList, ofLongName?_longName]

/-- The switch is read by `turnOn`. -/
private theorem step_verbose (r : Reading) : r.step Argument.verbose.text = r.turnOn := rfl

/-- `run` reads one argument after the other, unless two dashes end the options. -/
private theorem run_cons (r : Reading) {arg : String} (rest : List String) (h : arg ≠ "--") :
    r.run (arg :: rest) =
      match r.step arg with
      | .error e => .error e
      | .ok r => r.run rest := by
  rw [Reading.run.eq_def]
  exact if_neg h

/-- No argument is taken for the two dashes that end the options. -/
private theorem text_ne_dashes (a : Argument) : a.text ≠ "--" := by
  intro h
  cases a with
  | setting s v =>
    have hlist := toList_text_setting s v
    rw [h] at hlist
    simp at hlist
  | verbose => exact absurd h (by decide)

/-- Arguments that are written alike are the same. -/
private theorem text_injective : Function.Injective Argument.text := by
  have hverbose (s : Setting) (v : String) :
      (Argument.setting s v).text ≠ Argument.verbose.text := fun h => by
    have hsign : '=' ∈ (Argument.setting s v).text.toList := by simp [toList_text_setting]
    rw [h] at hsign
    exact absurd hsign (by decide)
  rintro (⟨s, v⟩ | _) (⟨s', v'⟩ | _) h
  · rw [← String.toList_inj, toList_text_setting, toList_text_setting, List.cons.injEq,
      List.cons.injEq] at h
    have hcut := cutFirst_setting s v
    rw [h.2.2, cutFirst_setting, Option.some.injEq, Prod.mk.injEq, String.toList_inj,
      String.toList_inj] at hcut
    -- Settings with the same name are the same.
    have hname := ofLongName?_longName s
    rw [← hcut.1, ofLongName?_longName] at hname
    obtain rfl := Flag.setting.inj (Option.some.inj hname)
    rw [hcut.2]
  · exact absurd h (hverbose s v)
  · exact absurd h.symm (hverbose s' v')
  · rfl

/-! ## Reading arguments -/

namespace Options

/-- The options when some more arguments have been read. -/
def after (o : Options) (written : List Argument) : Options where
  values := o.values ++ written.filterMap Argument.value?
  verbose := o.verbose || written.contains .verbose

/-- Without any further arguments the options are what they were. -/
private theorem after_nil (o : Options) : o.after [] = o := by
  simp [after]

/-- A setting adds its value behind those that have been read before. -/
private theorem after_cons_setting (o : Options) (s : Setting) (v : String)
    (written : List Argument) :
    o.after (.setting s v :: written) =
      ({ o with values := o.values ++ [(s, v)] } : Options).after written := by
  simp [after, Argument.value?]

/-- The switch is turned on, and no value is added. -/
private theorem after_cons_verbose (o : Options) (written : List Argument) :
    o.after (.verbose :: written) = ({ o with verbose := true } : Options).after written := by
  simp [after, Argument.value?, List.filterMap_cons]

/-- The values read before stand before all others. -/
private theorem exists_valuesOf_after_cons (o : Options) (s : Setting) (v : String)
    (written : List Argument) :
    ∃ rest, (o.after (.setting s v :: written)).valuesOf s = o.valuesOf s ++ v :: rest := by
  simp [after, valuesOf, Argument.value?]

end Options

/-- Arguments that are in no conflict with the options read before: what can be set only once is set
once at most, the switch is turned on once at most, and no path is empty. -/
structure Compatible (o : Options) (written : List Argument) : Prop where
  single : ∀ s : Setting, s.isRepeatable = false → ((o.after written).valuesOf s).length ≤ 1
  switch : o.verbose.toNat + written.count .verbose ≤ 1
  path : ∀ s v, Argument.setting s v ∈ written → s.isPath = true → v ≠ ""

namespace Compatible

variable {o : Options} {written : List Argument}

/-- A setting is taken in if the arguments from it on are in no conflict. -/
private theorem set {s : Setting} {v : String} (h : Compatible o (.setting s v :: written)) :
    o.set s v = .ok { o with values := o.values ++ [(s, v)] } := by
  have hfresh : ¬(!s.isRepeatable ∧ (o.value? s).isSome) := by
    rintro ⟨honce, hset⟩
    -- There would be a value before this one.
    have hlength := h.single s (by simpa using honce)
    obtain ⟨rest, hvalues⟩ := o.exists_valuesOf_after_cons s v written
    obtain ⟨w, hw⟩ := Option.isSome_iff_exists.mp hset
    obtain ⟨before, hbefore⟩ := List.head?_eq_some_iff.mp hw
    simp [hvalues, hbefore] at hlength
  have hpath : ¬(s.isPath ∧ v.isEmpty) := by
    rintro ⟨hs, hv⟩
    exact h.path s v (by simp) hs (String.isEmpty_iff.mp hv)
  rw [Options.set, if_neg hfresh, if_neg hpath]

/-- The switch is taken in if it has not been turned on before (`Compatible`). -/
private theorem setVerbose (h : Compatible o (.verbose :: written)) :
    o.setVerbose = .ok { o with verbose := true } := by
  have hcount := h.switch
  rw [List.count_cons_self] at hcount
  -- The switch stands once in all that is written, so it is not on yet.
  have hoff : o.verbose = false := by
    cases hverbose : o.verbose with
    | false => rfl
    | true =>
      rw [hverbose, Bool.toNat_true] at hcount
      omega
  rw [Options.setVerbose, hoff]
  rfl

/-- The arguments behind a setting are `Compatible` with the options that hold its value. -/
private theorem tail_setting {s : Setting} {v : String}
    (h : Compatible o (.setting s v :: written)) :
    Compatible { o with values := o.values ++ [(s, v)] } written where
  single := by
    rw [← Options.after_cons_setting]
    exact h.single
  switch := by simpa using h.switch
  path s' v' hmem := h.path s' v' (by simp [hmem])

/-- The arguments behind the switch are `Compatible` with the options in which it is on. -/
private theorem tail_verbose (h : Compatible o (.verbose :: written)) :
    Compatible { o with verbose := true } written where
  single := by
    rw [← Options.after_cons_verbose]
    exact h.single
  switch := by
    have hcount := h.switch
    rw [List.count_cons_self] at hcount
    simp only [Bool.toNat_true]
    omega
  path s v hmem := h.path s v (by simp [hmem])

end Compatible

/-- Arguments that are in no conflict are read to the end, and each of them counts. -/
theorem run_written {o : Options} {written : List Argument} (h : Compatible o written) :
    Reading.run { options := o } (written.map Argument.text) = .ok (o.after written) := by
  -- No setting waits for its value between two arguments, since the value stands behind the sign.
  induction written generalizing o with
  | nil => rw [Options.after_nil]; rfl
  | cons a written ih =>
    rw [List.map_cons, run_cons _ _ (text_ne_dashes a)]
    cases a with
    | setting s v =>
      have hassign : Reading.assign { options := o } s v =
          .ok { options := { o with values := o.values ++ [(s, v)] } } := by
        simp only [Reading.assign, Reading.settle, h.set]
      rw [step_setting, hassign, Options.after_cons_setting]
      exact ih h.tail_setting
    | verbose =>
      have hturn : Reading.turnOn { options := o } =
          .ok { options := { o with verbose := true } } := by
        simp only [Reading.turnOn, Reading.settle, h.setVerbose]
      rw [step_verbose, hturn, Options.after_cons_verbose]
      exact ih h.tail_verbose

/-! ## What is chosen -/

/-- What a user chooses: at most one value for most settings, any number of suffixes and of attach
items, and the switch. -/
structure Choice where
  mode : Option String := none
  allowedHosts : Option String := none
  allowedIps : Option String := none
  suffixes : List String := []
  artifact : Option String := none
  items : List String := []
  nameservers : Option String := none
  reportFile : Option String := none
  summaryFile : Option String := none
  verbose : Bool := false

namespace Choice

variable {c : Choice} {args : List String} {written : List Argument}

/-- The arguments in which a choice is written. -/
def arguments (c : Choice) : List String :=
  c.mode.toList.map ("--mode=" ++ ·) ++
  c.allowedHosts.toList.map ("--allowed-hosts=" ++ ·) ++
  c.allowedIps.toList.map ("--allowed-ips=" ++ ·) ++
  c.suffixes.map ("--allow-suffix=" ++ ·) ++
  c.artifact.toList.map ("--ebpf-object=" ++ ·) ++
  c.items.map ("--attach=" ++ ·) ++
  c.nameservers.toList.map ("--resolv-conf=" ++ ·) ++
  c.reportFile.toList.map ("--report-file=" ++ ·) ++
  c.summaryFile.toList.map ("--output=" ++ ·) ++
  if c.verbose then ["--verbose"] else []

/-- The arguments of a choice in some order.  Suffixes stand in the order in which they were chosen,
and so do attach items. -/
structure Arranges (c : Choice) (args : List String) : Prop where
  perm : args.Perm c.arguments
  suffixes : (c.suffixes.map ("--allow-suffix=" ++ ·)).Sublist args
  items : (c.items.map ("--attach=" ++ ·)).Sublist args

/-- No path is empty.  Other values may be. -/
def NoEmptyPath (c : Choice) : Prop :=
  ∀ path ∈ c.artifact.toList ++ c.nameservers.toList ++ c.reportFile.toList ++
    c.summaryFile.toList, path ≠ ""

instance (c : Choice) : Decidable c.NoEmptyPath := List.decidableBAll (· ≠ "") _

/-- A configuration that holds what is chosen, and for the rest the usual values on a host with
processors of the given architecture. -/
structure Gives (c : Choice) (a : Architecture) (config : Config) : Prop where
  mode : config.mode = c.mode.getD (Config.default (defaultArtifact a)).mode
  artifact : config.artifact = c.artifact.getD (Config.default (defaultArtifact a)).artifact
  hosts : config.seed.hosts = c.allowedHosts.getD (Config.default (defaultArtifact a)).seed.hosts
  addresses : config.seed.addresses =
    c.allowedIps.getD (Config.default (defaultArtifact a)).seed.addresses
  nameservers : config.seed.nameservers =
    c.nameservers.or (Config.default (defaultArtifact a)).seed.nameservers
  suffixes : config.suffixes =
    if c.suffixes = [] then (Config.default (defaultArtifact a)).suffixes else c.suffixes
  reportFile : config.reportFile = c.reportFile.or (Config.default (defaultArtifact a)).reportFile
  summaryFile :
    config.summaryFile = c.summaryFile.or (Config.default (defaultArtifact a)).summaryFile
  bufferBytes : config.bufferBytes = (Config.default (defaultArtifact a)).bufferBytes
  /-- The last attach item on a program counts. -/
  overrides : ∀ program target, config.overrides.get? program = some target ↔
    LastAssigned c.items program target

/-- The values that are chosen for a setting. -/
def values (c : Choice) : Setting → List String
  | .mode => c.mode.toList
  | .allowedHosts => c.allowedHosts.toList
  | .allowedIps => c.allowedIps.toList
  | .allowSuffix => c.suffixes
  | .ebpfObject => c.artifact.toList
  | .attach => c.items
  | .resolvConf => c.nameservers.toList
  | .reportFile => c.reportFile.toList
  | .output => c.summaryFile.toList

/-- The arguments before they are written. -/
def given (c : Choice) : List Argument :=
  Setting.all.flatMap (fun s => (c.values s).map (.setting s)) ++
    if c.verbose then [.verbose] else []

/-- The same of the arguments before they are written. -/
structure Orders (c : Choice) (written : List Argument) : Prop where
  perm : written.Perm c.given
  suffixes : (c.suffixes.map (Argument.setting .allowSuffix)).Sublist written
  items : (c.items.map (Argument.setting .attach)).Sublist written

/-- To write the front of an argument before its value is to take the `text` of the argument. -/
private theorem map_append_eq (s : Setting) (front : String) (h : "--" ++ s.longName ++ "=" = front)
    (values : List String) :
    values.map (front ++ ·) = (values.map (Argument.setting s)).map Argument.text := by
  rw [List.map_map, ← h]
  rfl

/-- `arguments` are the texts of what is `given`. -/
private theorem arguments_eq (c : Choice) : c.arguments = c.given.map Argument.text := by
  have hswitch : (if c.verbose then ["--verbose"] else []) =
      (if c.verbose then [Argument.verbose] else []).map Argument.text := by
    cases c.verbose <;> rfl
  -- `arguments` writes setting after setting, `given` lists them in the same order.
  rw [arguments, map_append_eq .mode "--mode=" rfl,
    map_append_eq .allowedHosts "--allowed-hosts=" rfl,
    map_append_eq .allowedIps "--allowed-ips=" rfl,
    map_append_eq .allowSuffix "--allow-suffix=" rfl,
    map_append_eq .ebpfObject "--ebpf-object=" rfl, map_append_eq .attach "--attach=" rfl,
    map_append_eq .resolvConf "--resolv-conf=" rfl,
    map_append_eq .reportFile "--report-file=" rfl, map_append_eq .output "--output=" rfl, hswitch]
  simp only [given, Setting.all, values, List.flatMap_cons, List.flatMap_nil, List.map_append,
    List.append_nil, List.append_assoc]

/-- Arguments in some order (`Arranges`) are the texts of what is given, in some order
(`Orders`). -/
private theorem Arranges.exists_written (h : c.Arranges args) :
    ∃ written : List Argument, args = written.map Argument.text ∧ c.Orders written := by
  obtain ⟨hperm, hsuffixes, hitems⟩ := h
  rw [arguments_eq] at hperm
  have hrange : args ∈ Set.range (List.map Argument.text) := by
    rw [Set.range_list_map]
    intro arg harg
    obtain ⟨a, -, ha⟩ := List.mem_map.mp (hperm.mem_iff.mp harg)
    exact ⟨a, ha⟩
  obtain ⟨written, rfl⟩ := hrange
  -- Different arguments are written differently, so that nothing else can stand for one of them.
  have hkept {kept : List Argument}
      (hsub : (kept.map Argument.text).Sublist (written.map Argument.text)) :
      kept.Sublist written := by
    obtain ⟨found, hfound, heq⟩ := List.sublist_map_iff.mp hsub
    rwa [List.map_injective_iff.mpr text_injective heq]
  rw [map_append_eq .allowSuffix "--allow-suffix=" rfl] at hsuffixes
  rw [map_append_eq .attach "--attach=" rfl] at hitems
  exact ⟨written, rfl, (List.map_perm_map_iff text_injective).mp hperm, hkept hsuffixes,
    hkept hitems⟩

/-! ## What is collected -/

/-- In the order of `given`, the values that are collected for a setting are those chosen for it. -/
private theorem valuesOf_given (c : Choice) (s : Setting) :
    (({} : Options).after c.given).valuesOf s = c.values s := by
  cases s <;>
    simp [Options.after, Options.valuesOf, given, Setting.all, values, List.filterMap_append,
      List.filterMap_map, List.filter_map, Function.comp_def, Argument.value?]

/-- The switch is on exactly if it is chosen. -/
private theorem verbose_given (c : Choice) :
    (({} : Options).after c.given).verbose = c.verbose := by
  cases hverbose : c.verbose <;> simp [Options.after, given, hverbose]

/-- The switch is given once at most. -/
private theorem count_verbose_given (c : Choice) : c.given.count .verbose ≤ 1 := by
  have hsettings : Argument.verbose ∉
      Setting.all.flatMap fun s => (c.values s).map (Argument.setting s) := by
    simp
  rw [given, List.count_append, List.count_eq_zero.mpr hsettings]
  cases c.verbose <;> simp

/-- A setting that may not be repeated has one value at most. -/
private theorem length_values_le {s : Setting} (h : s.isRepeatable = false) :
    (c.values s).length ≤ 1 := by
  have hoption (o : Option String) : o.toList.length ≤ 1 := by cases o <;> simp
  cases s <;> first | contradiction | exact hoption _

/-- Of a setting everything is collected that is chosen, in its order. -/
theorem Orders.valuesOf (h : c.Orders written) (s : Setting) :
    (({} : Options).after written).valuesOf s = c.values s := by
  have hperm : ((({} : Options).after written).valuesOf s).Perm (c.values s) := by
    rw [← valuesOf_given]
    exact ((h.perm.filterMap _).filter _).map _
  by_cases hs : s.isRepeatable = true
  · have hkept : ((c.values s).map (Argument.setting s)).Sublist written := by
      cases s <;> first | contradiction | exact h.suffixes | exact h.items
    have hsub : (c.values s).Sublist ((({} : Options).after written).valuesOf s) := by
      have hvalues := ((hkept.filterMap Argument.value?).filter (·.1 = s)).map (·.2)
      simpa [Options.valuesOf, Options.after, List.filterMap_map, List.filter_map,
        Function.comp_def, Argument.value?] using hvalues
    exact (hsub.eq_of_length hperm.length_eq.symm).symm
  · -- There is one value at most, which leaves no order.
    have hlength := length_values_le (c := c) (Bool.eq_false_iff.mpr hs)
    match hvalues : c.values s with
    | [] => rw [hvalues] at hperm; exact hperm.eq_nil
    | [v] => rw [hvalues] at hperm; exact List.perm_singleton.mp hperm
    | _ :: _ :: _ => simp [hvalues] at hlength

/-- The switch counts wherever it stands. -/
private theorem Orders.verbose (h : c.Orders written) :
    (({} : Options).after written).verbose = c.verbose := by
  rw [← verbose_given, Bool.eq_iff_iff]
  simp [Options.after, h.perm.mem_iff]

/-- A setting that is given has one of the values chosen for it. -/
private theorem setting_mem_given {s : Setting} {v : String} (h : Argument.setting s v ∈ c.given) :
    v ∈ c.values s := by
  simp only [given, List.mem_append, List.mem_flatMap, List.mem_map] at h
  rcases h with ⟨s', -, v', hv', heq⟩ | hswitch
  · obtain ⟨rfl, rfl⟩ := Argument.setting.inj heq
    exact hv'
  · cases hverbose : c.verbose <;> simp [hverbose] at hswitch

/-- The values of the settings that are paths are not empty. -/
private theorem NoEmptyPath.ne_empty (hpaths : c.NoEmptyPath) {s : Setting} {v : String}
    (hv : v ∈ c.values s) (hs : s.isPath = true) : v ≠ "" := by
  refine hpaths v ?_
  cases s <;> first | contradiction | simp only [values] at hv; simp [hv]

/-- The arguments of a choice are in no conflict, in whatever order. -/
private theorem Orders.compatible (h : c.Orders written) (hpaths : c.NoEmptyPath) :
    Compatible {} written where
  single s hs := by
    rw [h.valuesOf]
    exact length_values_le hs
  switch := by
    rw [h.perm.count_eq]
    simpa using count_verbose_given c
  path _ _ hmem hs := hpaths.ne_empty (setting_mem_given (h.perm.mem_iff.mp hmem)) hs

/-! ## What is asked for -/

/-- `toConfig` depends on the values of each setting alone, not on the order of different
settings. -/
private theorem toConfig_congr {o o' : Options} (a : Architecture)
    (h : ∀ s, o.valuesOf s = o'.valuesOf s) : o.toConfig a = o'.toConfig a := by
  simp only [Options.toConfig, Options.value?, h]

/-- The values that are chosen get to their places. -/
private theorem toConfig_of_wellFormed {o : Options} (a : Architecture)
    (h : ∀ s, o.valuesOf s = c.values s) (hitems : ∀ item ∈ c.items, ¬Malformed item) :
    ∃ config, o.toConfig a = .ok config ∧ c.Gives a config := by
  have hread : Override.parseAll (o.valuesOf .attach) =
      .ok (.ofList (Override.assignments c.items)) := by
    rw [h]
    exact Override.parseAll_of_wellFormed hitems
  rw [Options.toConfig, hread]
  refine ⟨_, rfl, ?_⟩
  -- Each field of the configuration reads the values of one setting, which are the
  -- choice's.
  simp only [Options.value?, h, values, Option.head?_toList]
  exact {
    mode := rfl
    artifact := rfl
    hosts := rfl
    addresses := rfl
    nameservers := by cases c.nameservers <;> rfl
    suffixes := by simp only [List.isEmpty_iff]; rfl
    reportFile := by cases c.reportFile <;> rfl
    summaryFile := by cases c.summaryFile <;> rfl
    bufferBytes := rfl
    overrides := fun _ _ => Override.get?_assignments_iff }

/-- The first malformed attach item is told as it stands, and there is no configuration. -/
private theorem toConfig_of_first_malformed {o : Options} (a : Architecture)
    (h : ∀ s, o.valuesOf s = c.values s) {before after : List String} {item : String}
    (hitems : c.items = before ++ item :: after) (hbefore : ∀ i ∈ before, ¬Malformed i)
    (hitem : Malformed item) : o.toConfig a = .error (.invalidOverride item) := by
  rw [Options.toConfig, h .attach, values, hitems,
    Override.parseAll_of_first_malformed hbefore hitem]

/-- On a host with processors of any `Architecture`, every list of arguments that the choice
`Arranges` is parsed, with the same `verbose` and the same `toConfig`: a configuration that the
choice `Gives`, or `invalidOverride` with the first attach item that is `Malformed`. -/
theorem arguments_ask_for (a : Architecture) (c : Choice) (hpaths : c.NoEmptyPath) :
    ∃ result : Except ConfigError Config,
      (∀ args, c.Arranges args →
        ∃ o, Command.parse ("run" :: args) = .ok o ∧ o.verbose = c.verbose ∧
          o.toConfig a = result) ∧
      (((∀ item ∈ c.items, ¬Malformed item) ∧ ∃ config, result = .ok config ∧ c.Gives a config) ∨
        ∃ before item after, c.items = before ++ item :: after ∧ (∀ i ∈ before, ¬Malformed i) ∧
          Malformed item ∧ result = .error (.invalidOverride item)) := by
  -- What is read from the arguments in the order of `given` stands for all orders.
  have hgiven := valuesOf_given c
  refine ⟨(({} : Options).after c.given).toConfig a, ?_, ?_⟩
  · intro args hargs
    obtain ⟨written, rfl, horders⟩ := hargs.exists_written
    refine ⟨({} : Options).after written, run_written (horders.compatible hpaths),
      horders.verbose, toConfig_congr a fun s => ?_⟩
    rw [horders.valuesOf, hgiven]
  · rcases Override.wellFormed_or_first_malformed c.items with
      hitems | ⟨before, item, after, hitems, hbefore, hitem⟩
    · exact .inl ⟨hitems, toConfig_of_wellFormed a hgiven hitems⟩
    · exact .inr ⟨before, item, after, hitems, hbefore, hitem,
        toConfig_of_first_malformed a hgiven hitems hbefore hitem⟩

/-- Values that look like options and lists, and two targets for one program. -/
def misleading : Choice where
  mode := some "trace"
  allowedHosts := some "--verbose, a=b"
  suffixes := ["--mode=monitor", "-o"]
  items := ["open=do_open", " open = a=b"]
  reportFile := some "run log.jsonl"
  verbose := true

/-- Values that look like options are taken as they stand, and the last attach item on a program
counts. -/
theorem arguments_ask_for_misleading :
    let args := ["--attach=open=do_open", "--allow-suffix=--mode=monitor",
      "--allowed-hosts=--verbose, a=b", "--verbose", "--attach= open = a=b",
      "--report-file=run log.jsonl", "--allow-suffix=-o", "--mode=trace"]
    misleading.NoEmptyPath ∧ misleading.Arranges args ∧
      ∃ o config, Command.parse ("run" :: args) = .ok o ∧ o.verbose = true ∧
        o.toConfig .arm64 = .ok config ∧ misleading.Gives .arm64 config ∧
        config.overrides.get? "open" = some "a=b" := by
  intro args
  have hpaths : misleading.NoEmptyPath := by decide
  have hargs : misleading.Arranges args := ⟨by decide +kernel, by decide +kernel, by decide +kernel⟩
  obtain ⟨result, hall, hresult⟩ := arguments_ask_for .arm64 misleading hpaths
  obtain ⟨o, hparse, hverbose, rfl⟩ := hall args hargs
  -- None of the attach items is malformed, so the first alternative holds.
  have hitems : ∀ item ∈ misleading.items, ¬Malformed item := by
    simp only [← Override.parse?_eq_none_iff]
    decide +kernel
  rcases hresult with ⟨-, config, hconfig, hgives⟩ | ⟨before, item, after, heq, -, hitem, -⟩
  · have hlast : LastAssigned misleading.items "open" "a=b" :=
      ⟨["open=do_open"], " open = a=b", [], rfl,
        Override.parse?_eq_some_iff.mp (by decide +kernel), nofun⟩
    exact ⟨hpaths, hargs, o, config, hparse, hverbose, hconfig, hgives,
      (hgives.overrides _ _).mpr hlast⟩
  · exact absurd hitem (hitems item (by simp [heq]))

end Choice

end EgressControl.CommandLine
