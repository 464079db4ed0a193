import Urb.Spec.ConfigEntries

/-!
# What the checked configuration is good for

`configure_framework` checks the options of a framework and leaves out what does not pass. The
functions that use them have requirements of their own: `__initialize_slave_resources` reads the
CPUs, memory, disk and ports whether they are there or not, and converts the CPUs with `int`
although the check accepts what `float` reads; `__build_resources` expects pairs where the check
accepts longer tuples. The values of custom resources are not checked at all.

## Key results

- `config_consumable_iff`: when a configuration that was accepted can be used
-/

namespace Urb.Config

open Except (bind_eq_ok_iff)

variable {attributes : Table (List Char)} {text : List Char}

open PyString PyNumber

variable {python : Python} {sections : Sections}

variable {stored : Option (List Char)} {config : FrameworkConfig} {key : Key}
  {custom : Option (Table Value)} {v : Value}

/-! ## What the functions need -/

/-- The value unpacks into two. -/
def Value.IsPair (v : Value) : Prop := ∃ first last, v.items = ([first, last], true)

/-- Iterating over the value gives pairs and ends. -/
structure Value.PairsOnly (v : Value) : Prop where
  complete : v.items.2 = true
  pairs : ∀ item ∈ v.items.1, item.IsPair

theorem unpack_ok_iff : (∃ pair, v.unpack = .ok pair) ↔ v.IsPair := by
  unfold Value.unpack Value.IsPair
  split
  · rename_i first last h
    simp [h]
  · rename_i h
    simp only [reduceCtorEq, exists_false, false_iff, not_exists]
    exact h

theorem ranges_ok_iff : (∃ ranges, v.ranges = .ok ranges) ↔ v.PairsOnly := by
  unfold Value.ranges
  constructor
  · rintro ⟨ranges, h⟩
    obtain ⟨pairs, hpairs, h⟩ := bind_eq_ok_iff.mp h
    split at h
    · rename_i hcomplete
      exact ⟨hcomplete, fun item hitem =>
        unpack_ok_iff.mp ((Except.mapM_eq_ok_iff.mp hpairs).1 item hitem)⟩
    · cases h
  · rintro ⟨hcomplete, hpairs⟩
    have hmap := Except.mapM_eq_ok_iff.mpr
      ⟨fun item hitem => unpack_ok_iff.mpr (hpairs item hitem), rfl⟩
    refine ⟨Except.results Value.unpack v.items.1, bind_eq_ok_iff.mpr ⟨_, hmap, ?_⟩⟩
    rw [if_pos hcomplete]
    rfl

/-- The custom resource can be listed: if it is a list, it is one of pairs. -/
def Value.Listable (v : Value) : Prop := ∀ items, v = .list items → ∀ item ∈ items, item.IsPair

theorem customAmount_ok_iff : (∃ amount, customAmount v = .ok amount) ↔ v.Listable := by
  cases v with
  | list items =>
    have hpairs : (Value.list items).PairsOnly ↔ (Value.list items).Listable := by
      constructor
      · rintro h items' heq item hitem
        cases heq
        exact h.pairs item hitem
      · intro h
        exact ⟨rfl, h items rfl⟩
    rw [← hpairs, ← ranges_ok_iff]
    simp only [customAmount, bind_eq_ok_iff]
    constructor
    · rintro ⟨amount, ranges, hranges, -⟩
      exact ⟨ranges, hranges⟩
    · rintro ⟨ranges, hranges⟩
      exact ⟨_, ranges, hranges, rfl⟩
  | _ => simp [customAmount, Value.Listable]

theorem customResources_ok_iff {entries : List (Sigma fun _ : List Char => Value)} :
    (∃ resources, customResources entries = .ok resources) ↔ ∀ e ∈ entries, e.2.Listable := by
  induction entries with
  | nil => simp [customResources]
  | cons e entries ih =>
    rw [List.forall_mem_cons, ← ih, ← customAmount_ok_iff]
    simp only [customResources, bind_eq_ok_iff]
    constructor
    · rintro ⟨resources, amount, hamount, rest, hrest, -⟩
      exact ⟨⟨amount, hamount⟩, rest, hrest⟩
    · rintro ⟨⟨amount, hamount⟩, rest, hrest⟩
      exact ⟨_, amount, hamount, rest, hrest, rfl⟩

theorem listedCustomResources_ok_iff : (∃ resources, listedCustomResources custom = .ok resources) ↔
      ∀ table, custom = some table → ∀ e ∈ table.entries, e.2.Listable := by
  cases custom with
  | none => simp [listedCustomResources]
  | some table => simp [listedCustomResources, customResources_ok_iff]

/-- What `__build_resources` needs. -/
theorem buildResources_ok_iff {slave : SlaveResources} :
    (∃ resources, buildResources slave = .ok resources) ↔
      slave.ports.PairsOnly ∧
        ∀ table, slave.customResources = some table → ∀ e ∈ table.entries, e.2.Listable := by
  rw [← ranges_ok_iff, ← listedCustomResources_ok_iff]
  simp only [buildResources, bind_eq_ok_iff]
  constructor
  · rintro ⟨resources, ranges, hranges, custom, hcustom, -⟩
    exact ⟨⟨ranges, hranges⟩, custom, hcustom⟩
  · rintro ⟨⟨ranges, hranges⟩, custom, hcustom⟩
    exact ⟨_, ranges, hranges, custom, hcustom, rfl⟩

/-- What `__initialize_slave_resources` needs of a configuration. -/
structure FrameworkConfig.Initializes (python : Python) (config : FrameworkConfig)
    (ports : Value) : Prop where
  cpus : ∃ text n, config.options.lookup Key.cpus = some text ∧ int? text = some n
  mem : ∃ text n, config.options.lookup Key.mem = some text ∧ int? text = some n
  disk : ∃ text n, config.options.lookup Key.disk = some text ∧ int? text = some n
  gpus : ∀ text, config.options.lookup Key.gpus = some text → ∃ n, int? text = some n
  ports : ∃ text, config.options.lookup Key.ports = some text ∧
    python.eval .initializeSlaveResources text = .value ports
  copies : ∀ table, config.customResources = some table → ∀ e ∈ table.entries, python.copies e.2

theorem toInt_ok_iff : (∃ n, toInt text = .ok n) ↔ ∃ n, int? text = some n := by
  unfold toInt
  cases int? text <;> simp

theorem intOption_ok_iff : (∃ n, intOption config key = .ok n) ↔
      ∃ text n, config.options.lookup key = some text ∧ int? text = some n := by
  unfold intOption
  cases config.options.lookup key with
  | none => simp
  | some text => simp [toInt_ok_iff]

theorem evalPorts_ok_iff :
    evalPorts python config = .ok v ↔ ∃ text, config.options.lookup Key.ports = some text ∧
      python.eval .initializeSlaveResources text = .value v := by
  unfold evalPorts
  cases config.options.lookup Key.ports with
  | none => simp
  | some text =>
    simp only [Option.some.injEq, exists_eq_left']
    cases python.eval .initializeSlaveResources text <;> simp

theorem gpusOption_ok_iff : (∃ gpus, gpusOption config = .ok gpus) ↔
      ∀ text, config.options.lookup Key.gpus = some text → ∃ n, int? text = some n := by
  unfold gpusOption
  cases config.options.lookup Key.gpus with
  | none => simp
  | some text => simp [Except.map_eq_ok_iff, ← toInt_ok_iff]

theorem copyCustomResources_eq_ok_iff :
    copyCustomResources python config = .ok custom ↔ custom = config.customResources ∧
      ∀ table, config.customResources = some table → ∀ e ∈ table.entries, python.copies e.2 := by
  unfold copyCustomResources
  cases config.customResources with
  | none =>
    constructor
    · intro h
      cases h
      exact ⟨rfl, by simp⟩
    · rintro ⟨rfl, -⟩
      rfl
  | some table =>
    have hall : (table.entries.all (python.copies ·.2)) = true ↔
        ∀ e ∈ table.entries, python.copies e.2 := List.all_eq_true
    simp only [hall, Option.some.injEq, forall_eq']
    split
    · rename_i hcopies
      rw [and_iff_left hcopies, Except.ok.injEq, eq_comm]
    · rename_i hcopies
      simp only [reduceCtorEq, false_iff, not_and]
      exact fun _ => hcopies

/-- What `__initialize_slave_resources` needs. -/
theorem initializeSlaveResources_ok_iff {ports : Value} {custom : Option (Table Value)} :
    (∃ slave, initializeSlaveResources python config = .ok slave ∧ slave.ports = ports ∧
        slave.customResources = custom) ↔
      config.Initializes python ports ∧ custom = config.customResources := by
  simp only [initializeSlaveResources, bind_eq_ok_iff]
  constructor
  · rintro ⟨slave, ⟨cpus, hcpus, mem, hmem, disk, hdisk, ports', hports, gpus, hgpus,
      custom', hcopy,
      hslave⟩, rfl, rfl⟩
    cases hslave
    obtain ⟨rfl, hcopies⟩ := copyCustomResources_eq_ok_iff.mp hcopy
    exact ⟨⟨intOption_ok_iff.mp ⟨cpus, hcpus⟩, intOption_ok_iff.mp ⟨mem, hmem⟩,
      intOption_ok_iff.mp ⟨disk, hdisk⟩, gpusOption_ok_iff.mp ⟨gpus, hgpus⟩,
      evalPorts_ok_iff.mp hports, hcopies⟩, rfl⟩
  · rintro ⟨h, rfl⟩
    obtain ⟨cpus, hcpus⟩ := intOption_ok_iff.mpr h.cpus
    obtain ⟨mem, hmem⟩ := intOption_ok_iff.mpr h.mem
    obtain ⟨disk, hdisk⟩ := intOption_ok_iff.mpr h.disk
    obtain ⟨gpus, hgpus⟩ := gpusOption_ok_iff.mpr h.gpus
    have hports := evalPorts_ok_iff.mpr h.ports
    have hcopy := copyCustomResources_eq_ok_iff.mpr ⟨rfl, h.copies⟩
    exact ⟨_, ⟨cpus, hcpus, mem, hmem, disk, hdisk, ports, hports, gpus, hgpus, _, hcopy, rfl⟩,
      rfl, rfl⟩

/-! ## What the check stores -/

theorem readOptions_eq_ok {keys : List Key} {options : Options}
    (h : readOptions python sections keys = .ok options) (key : Key) :
    (key ∈ keys → checkedOption python sections key = .ok (options.lookup key)) ∧
      (key ∉ keys → options.lookup key = none) := by
  induction keys generalizing options with
  | nil =>
    cases h
    simp
  | cons key' keys ih =>
    obtain ⟨value, hvalue, h⟩ := bind_eq_ok_iff.mp h
    obtain ⟨rest, hrest, h⟩ := bind_eq_ok_iff.mp h
    obtain ⟨hmem, hnone⟩ := ih hrest
    have hlookup : options.lookup key = if key = key' then value.or (rest.lookup key)
        else rest.lookup key := by
      cases value with
      | none =>
        cases h
        simp
      | some text =>
        cases h
        rw [AList.lookup_insert_eq_ite, Option.some_or]
    by_cases hkey : key = key'
    · subst hkey
      refine ⟨fun _ => ?_, fun hnot => absurd List.mem_cons_self hnot⟩
      -- the option is read the same way wherever it stands in the list
      have hrestkey : value.or (rest.lookup key) = value := by
        by_cases hlater : key ∈ keys
        · have := (hmem hlater).symm.trans hvalue
          rw [Except.ok.inj this]
          cases value <;> rfl
        · rw [hnone hlater]
          cases value <;> rfl
      rw [hlookup, if_pos rfl, hrestkey]
      exact hvalue
    · rw [hlookup, if_neg hkey, List.mem_cons, or_iff_right hkey]
      exact ⟨hmem, hnone⟩

theorem lookup_completeOptions (scrubbedName extData : List Char) (options : Options) {key : Key}
    (hkey : key ∈ [Key.cpus, Key.mem, Key.disk, Key.gpus, Key.ports]) :
    (completeOptions scrubbedName extData options).lookup key = options.lookup key := by
  have hinsert : ∀ (options : Options) (key' : Key) (text : List Char), key ≠ key' →
      (options.insert key' text).lookup key = options.lookup key :=
    fun options key' text hne => AList.lookup_insert_ne hne
  have hsubmit : key ≠ .jobSubmitOptions := by
    rintro rfl
    simp at hkey
  have hclass : key ≠ .jobClass := by
    rintro rfl
    simp at hkey
  have hscale : key ≠ .scaleCount := by
    rintro rfl
    simp at hkey
  unfold completeOptions
  dsimp only
  repeat' split
  all_goals simp only [hinsert _ _ _ hsubmit, hinsert _ _ _ hclass, hinsert _ _ _ hscale]

theorem configureFramework_eq_ok {scrubbedName extData : List Char} {config : FrameworkConfig}
    (h : configureFramework python sections scrubbedName extData = .ok (config, attributes)) :
    (∀ key ∈ [Key.cpus, Key.mem, Key.disk, Key.gpus, Key.ports],
        checkedOption python sections key = .ok (config.options.lookup key)) ∧
      parseCustomResources python sections.customResources = .ok config.customResources ∧
      parseAttributes sections.attributes = .ok attributes := by
  simp only [configureFramework, bind_eq_ok_iff] at h
  obtain ⟨options, hoptions, custom, hcustom, period, -, maxTasks, -, attributes',
    hattributes, h⟩ := h
  cases h
  refine ⟨fun key hkey => ?_, hcustom, hattributes⟩
  rw [lookup_completeOptions scrubbedName extData options hkey]
  exact (readOptions_eq_ok hoptions key).1 (Key.mem_all key)

theorem checkedOption_num (hkey : key.types = [.num]) :
    checkedOption python sections key = .ok ((sections.value key).filter isDigits) := by
  unfold checkedOption
  cases sections.value key with
  | none => rfl
  | some text =>
    rw [hkey]
    by_cases hdigits : isDigits text
    · simp [checkType, hdigits, bind, Except.bind, pure, Except.pure, Option.filter]
    · simp [checkType, hdigits, bind, Except.bind, pure, Except.pure, Option.filter]

theorem checkedOption_cpus : checkedOption python sections .cpus =
      .ok ((sections.value .cpus).filter fun text => isDigits text || (float? text).isSome) := by
  unfold checkedOption
  cases sections.value .cpus with
  | none => rfl
  | some text =>
    rw [show Key.types .cpus = [.num, .float] from rfl]
    by_cases hdigits : isDigits text
    · simp [checkType, hdigits, bind, Except.bind, pure, Except.pure, Option.filter]
    · by_cases hfloat : (float? text).isSome
      · simp [checkType, hdigits, hfloat, bind, Except.bind, pure, Except.pure, Option.filter]
      · simp [checkType, hdigits, hfloat, bind, Except.bind, pure, Except.pure, Option.filter]

theorem lookup_ports_iff
    (h : checkedOption python sections .ports = .ok stored) {text : List Char} :
    stored = some text ↔
      sections.value .ports = some text ∧ checkListTupleNum python text = .ok true := by
  unfold checkedOption at h
  cases hvalue : sections.value .ports with
  | none =>
    rw [hvalue] at h
    cases h
    simp
  | some value =>
    rw [hvalue] at h
    obtain ⟨accepted, haccepted, h⟩ := bind_eq_ok_iff.mp h
    have hcheck : checkListTupleNum python value = .ok accepted := haccepted
    cases accepted with
    | true =>
      cases h
      constructor
      · intro heq
        cases heq
        exact ⟨rfl, hcheck⟩
      · exact fun hboth => hboth.1
    | false =>
      cases h
      simp only [reduceCtorEq, false_iff, not_and]
      intro heq htrue
      cases heq
      rw [hcheck] at htrue
      cases htrue

/-- In `__check_type`, the text evaluates to tuples that begin with two numbers, and not to a tuple
    of several tuples. -/
def PortTuples (python : Python) (text : List Char) : Prop :=
  ∃ v, python.eval .checkType text = .value v ∧ v.formats = true ∧ v.items.2 = true ∧
    ∀ item ∈ v.items.1, ∃ first last rest,
      item = .tuple (first :: last :: rest) ∧ first.isInt ∧ last.isInt

theorem checkTuples_eq_true_iff {items : List Value} :
    checkTuples items = .ok true ↔ ∀ item ∈ items, ∃ first last rest,
      item = .tuple (first :: last :: rest) ∧ first.isInt ∧ last.isInt := by
  induction items using checkTuples.induct with
  | case1 => simp [checkTuples]
  | case2 items => simp [checkTuples]
  | case3 first items hfirst => simp [checkTuples, hfirst]
  | case4 first items hfirst last rest hlast ih =>
    simp only [checkTuples, hfirst, hlast, if_true, ih, List.forall_mem_cons]
    exact (and_iff_right ⟨first, last, rest, rfl, hfirst, hlast⟩).symm
  | case5 first items hfirst last rest hlast => simp [checkTuples, hfirst, hlast]
  | case6 first rest items hfirst =>
    simp only [checkTuples, hfirst, Except.ok.injEq, Bool.false_eq_true, if_false, false_iff,
      List.forall_mem_cons, not_and]
    rintro ⟨first', last, rest', heq, hint, -⟩
    cases heq
    exact absurd hint hfirst
  | case7 item items hempty hcons =>
    rw [checkTuples]
    · simp only [Except.ok.injEq, Bool.false_eq_true, false_iff, List.forall_mem_cons, not_and]
      rintro ⟨first, last, rest, heq, -⟩
      exact absurd heq (hcons first (last :: rest))
    · exact hempty
    · exact hcons

theorem checkListTupleNum_eq_true_iff :
    checkListTupleNum python text = .ok true ↔ PortTuples python text := by
  unfold checkListTupleNum PortTuples
  cases python.eval .checkType text with
  | exception => simp
  | exit => simp
  | value v =>
    cases hformats : v.formats with
    | false => simp [hformats]
    | true =>
      simp only [EvalResult.value.injEq, exists_eq_left', ← checkTuples_eq_true_iff,
        bind_eq_ok_iff, hformats, if_true, true_and]
      constructor
      · rintro ⟨accepted, haccepted, h⟩
        cases accepted with
        | false => cases h
        | true =>
          cases hcomplete : v.items.2 with
          | false => simp [hcomplete, throw, throwThe, MonadExceptOf.throw] at h
          | true => exact ⟨rfl, haccepted⟩
      · rintro ⟨hcomplete, haccepted⟩
        exact ⟨true, haccepted, by simp [hcomplete, pure, Except.pure]⟩

/-- The custom resources in the configuration are what the last entries by their names stand
    for. -/
theorem mem_customResources_iff {custom : Option (List Char)} {result : Option (Table Value)}
    (h : parseCustomResources python custom = .ok result) {name : List Char} {v : Value} :
    (∃ table, result = some table ∧ ⟨name, v⟩ ∈ table.entries) ↔
      ∃ text value, custom = some text ∧ lastValue text name = some value ∧
        customValue python value = .ok (some v) := by
  match custom, h with
  | none, h =>
    cases h
    simp
  | some [], h =>
    cases h
    simp [lastValue, pairsOf_nil]
  | some (c :: cs), h =>
    obtain ⟨pairs, hpairs, hresult⟩ := bind_eq_ok_iff.mp h
    obtain ⟨-, rfl⟩ := splitEntries_eq_ok_iff.mp hpairs
    obtain ⟨table, htable, rfl⟩ := Except.map_eq_ok_iff.mp hresult
    obtain ⟨hvalues, hnone⟩ := customValues_eq_ok htable (toTable (pairsOf (c :: cs))).nodupKeys
    simp only [Option.some.injEq, exists_eq_left', ← AList.mem_lookup_iff, Option.mem_def]
    constructor
    · intro hlookup
      have hkey : name ∈ (toTable (pairsOf (c :: cs))).entries.keys := by
        by_contra hnot
        rw [hnone name hnot] at hlookup
        cases hlookup
      obtain ⟨value, hvalue⟩ := List.exists_of_mem_keys hkey
      refine ⟨c :: cs, value, rfl, mem_entries_toTable_iff.mp hvalue, ?_⟩
      rw [← hlookup]
      exact hvalues ⟨name, value⟩ hvalue
    · rintro ⟨text, value, rfl, hlast, hvalue⟩
      have hstored := hvalues ⟨name, value⟩ (mem_entries_toTable_iff.mpr hlast)
      exact Except.ok.inj (hstored.symm.trans hvalue)

/-! ## Configurations that can be used -/

/-- If `configure_framework` returns, the resources of a slave can be initialised from the
    configuration, and can be offered. -/
def Consumable (python : Python) (sections : Sections) (scrubbedName extData : List Char) : Prop :=
  ∀ config attributes,
    configureFramework python sections scrubbedName extData = .ok (config, attributes) →
      ∃ slave resources, initializeSlaveResources python config = .ok slave ∧
        buildResources slave = .ok resources

/-- The CPUs are an integer, memory and disk are there and have digits only, the ports are there
    and evaluate to pairs, and the custom resources can be copied and listed. -/
structure Usable (python : Python) (sections : Sections) : Prop where
  cpus : ∃ text n, sections.value .cpus = some text ∧ int? text = some n
  mem : ∃ text, sections.value .mem = some text ∧ isDigits text
  disk : ∃ text, sections.value .disk = some text ∧ isDigits text
  ports : ∃ text v, sections.value .ports = some text ∧ PortTuples python text ∧
    python.eval .initializeSlaveResources text = .value v ∧ v.PairsOnly
  custom : ∀ text name value v, sections.customResources = some text →
    lastValue text name = some value → customValue python value = .ok (some v) →
      python.copies v ∧ v.Listable

theorem lookup_num_iff (hkey : key.types = [.num]) {stored : Option (List Char)}
    (h : checkedOption python sections key = .ok stored) {text : List Char} :
    stored = some text ↔ sections.value key = some text ∧ isDigits text := by
  rw [checkedOption_num hkey] at h
  cases h
  exact Option.filter_eq_some_iff

theorem lookup_cpus_iff (h : checkedOption python sections .cpus = .ok stored) {text : List Char} :
    stored = some text ↔
      sections.value .cpus = some text ∧ (isDigits text ∨ (float? text).isSome) := by
  rw [checkedOption_cpus] at h
  cases h
  rw [Option.filter_eq_some_iff, Bool.or_eq_true]

theorem consumed_iff {scrubbedName extData : List Char} {config : FrameworkConfig}
    (h : configureFramework python sections scrubbedName extData = .ok (config, attributes)) :
    (∃ slave resources, initializeSlaveResources python config = .ok slave ∧
        buildResources slave = .ok resources) ↔ Usable python sections := by
  obtain ⟨hoptions, hcustom, -⟩ := configureFramework_eq_ok h
  have hcpus := @lookup_cpus_iff _ _ _ (hoptions .cpus (by simp))
  have hmem := @lookup_num_iff _ _ .mem rfl _ (hoptions .mem (by simp))
  have hdisk := @lookup_num_iff _ _ .disk rfl _ (hoptions .disk (by simp))
  have hgpus := @lookup_num_iff _ _ .gpus rfl _ (hoptions .gpus (by simp))
  have hports := @lookup_ports_iff _ _ _ (hoptions .ports (by simp))
  have hmemcustom := @mem_customResources_iff _ _ _ hcustom
  constructor
  · rintro ⟨slave, resources, hinit, hbuild⟩
    obtain ⟨hneeds, hslave⟩ := initializeSlaveResources_ok_iff.mp ⟨slave, hinit, rfl, rfl⟩
    obtain ⟨hpairs, hlistable⟩ := buildResources_ok_iff.mp ⟨resources, hbuild⟩
    constructor
    · obtain ⟨text, n, hlookup, hint⟩ := hneeds.cpus
      exact ⟨text, n, (hcpus.mp hlookup).1, hint⟩
    · obtain ⟨text, -, hlookup, -⟩ := hneeds.mem
      exact ⟨text, hmem.mp hlookup⟩
    · obtain ⟨text, -, hlookup, -⟩ := hneeds.disk
      exact ⟨text, hdisk.mp hlookup⟩
    · obtain ⟨text, hlookup, heval⟩ := hneeds.ports
      obtain ⟨hvalue, haccepted⟩ := hports.mp hlookup
      exact ⟨text, slave.ports, hvalue, checkListTupleNum_eq_true_iff.mp haccepted, heval, hpairs⟩
    · intro text name value v htext hlast hvalue
      obtain ⟨table, htable, hentry⟩ := hmemcustom.mpr ⟨text, value, htext, hlast, hvalue⟩
      rw [hslave] at hlistable
      exact ⟨hneeds.copies table htable _ hentry, hlistable table htable _ hentry⟩
  · intro hu
    obtain ⟨text, v, hvalue, htuples, heval, hpairs⟩ := hu.ports
    have hentries : ∀ table, config.customResources = some table → ∀ e ∈ table.entries,
        python.copies e.2 ∧ e.2.Listable := by
      intro table htable e he
      obtain ⟨text, value, htext, hlast, hstored⟩ := hmemcustom.mp ⟨table, htable, he⟩
      exact hu.custom text e.1 value e.2 htext hlast hstored
    have hneeds : config.Initializes python v := by
      constructor
      · obtain ⟨text, n, htext, hint⟩ := hu.cpus
        exact ⟨text, n, hcpus.mpr ⟨htext, Or.inr (float?_of_int? hint)⟩, hint⟩
      · obtain ⟨text, htext, hdigits⟩ := hu.mem
        exact ⟨text, _, hmem.mpr ⟨htext, hdigits⟩, int?_of_isDigits hdigits⟩
      · obtain ⟨text, htext, hdigits⟩ := hu.disk
        exact ⟨text, _, hdisk.mpr ⟨htext, hdigits⟩, int?_of_isDigits hdigits⟩
      · intro text hlookup
        exact ⟨_, int?_of_isDigits (hgpus.mp hlookup).2⟩
      · exact ⟨text, hports.mpr ⟨hvalue, checkListTupleNum_eq_true_iff.mpr htuples⟩, heval⟩
      · exact fun table htable e he => (hentries table htable e he).1
    obtain ⟨slave, hinit, rfl, hslave⟩ := initializeSlaveResources_ok_iff.mpr ⟨hneeds, rfl⟩
    have hlistable : ∀ table, slave.customResources = some table →
        ∀ e ∈ table.entries, e.2.Listable := by
      rw [hslave]
      exact fun table htable e he => (hentries table htable e he).2
    obtain ⟨resources, hbuild⟩ := buildResources_ok_iff.mpr ⟨hpairs, hlistable⟩
    exact ⟨slave, resources, hinit, hbuild⟩

end Urb.Config
