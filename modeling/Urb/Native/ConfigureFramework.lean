import Mathlib
import Urb.ForStd.PyNumber

/-!
# The configuration of a framework

`configure_framework` reads the options of a framework from the configuration file, where all
values are strings. It checks the values with `__check_type`, leaves out those that do not have
the right type, and stores the others as they are. `__initialize_slave_resources` and
`__build_resources` convert them when a slave registers.

Some values are Python expressions: the ports, and those custom resources that do not look like a
number. What they evaluate to is given by a `Python`, which may evaluate one text differently in
different functions, as the variables in scope differ.

The sections of the file that apply to the framework are given by `Sections`; how they are found
by the name of the framework is left out.
-/

namespace Urb.Config

open PyString PyNumber

inductive ConfigError where
  | keyError | valueError | typeError | indexError | evalError | systemExit
  deriving DecidableEq, Repr

/-! ## Values -/

/-- A Python value, as far as the configuration depends on it. For any other object, a `long` for
    one, the items are what iterating over it gives before it ends, or raises if it is not
    `complete`. -/
inductive Value where
  | int (n : Int)
  | bool (b : Bool)
  | float (x : PyFloat)
  | tuple (items : List Value)
  | list (items : List Value)
  | other (items : List Value) (complete : Bool)

namespace Value

/-- `isinstance(v, int)` -/
def isInt : Value → Bool
  | int _ => true
  | bool _ => true
  | _ => false

/-- The number that the value is. -/
def number? : Value → Option ℚ
  | int n => some n
  | float (.finite q) => some q
  | _ => none

/-- `'%s' % v` does not raise: the items of a tuple are the arguments of the format. -/
def formats : Value → Bool
  | tuple items => items.length = 1
  | _ => true

/-- What iterating over the value gives, and whether it ends without raising. -/
def items : Value → List Value × Bool
  | tuple items => (items, true)
  | list items => (items, true)
  | other items complete => (items, complete)
  | _ => ([], false)

/-- `begin, end = v` -/
def unpack (v : Value) : Except ConfigError (Value × Value) :=
  match v.items with
  | ([first, last], true) => .ok (first, last)
  | _ => .error .valueError

/-- `for begin, end in v` -/
def ranges (v : Value) : Except ConfigError (List (Value × Value)) := do
  let pairs ← v.items.1.mapM unpack
  if v.items.2 then pure pairs else throw .typeError

end Value

/-- The functions that evaluate texts of the configuration. -/
inductive Site where
  | checkType | configureFramework | initializeSlaveResources
  deriving DecidableEq, Repr

/-- How `eval` ends. `except Exception` does not catch an exit. -/
inductive EvalResult where
  | value (v : Value)
  | exception
  | exit

/-- The text is a decimal numeral, with blanks around it. -/
def Decimal (text : List Char) (q : ℚ) : Prop :=
  decimal? (strip text) = some q ∧ ∀ c ∈ text, isSpace c → c = ' ' ∨ c = '\t'

/-- An interpreter of Python 2. It reads a decimal numeral as the number that it denotes, rounded to
    a double, unless that is an octal numeral: those have no point and have a digit other than
    zero. -/
structure Python where
  eval : Site → List Char → EvalResult
  /-- The nearest double, or infinity if there is none. -/
  round : PyFloat → PyFloat
  /-- `copy.deepcopy` of the value does not raise. -/
  copies : Value → Bool
  eval_decimal : ∀ {site text q}, Decimal text q →
    ('.' ∈ text ∨ ∀ c ∈ text, c.isDigit → c = '0') →
      ∃ v, eval site text = .value v ∧ v.number? = (Value.float (round (.finite q))).number?

/-! ## Options and their types -/

/-- The options that `__check_type` checks. -/
inductive Key where
  | mem | cpus | gpus | disk | ports | maxRejectedOffers | maxTasks | sendTaskLost | scaleCount
  | concurrentTasks | jobSubmitOptions | jobSubmitClear | initialTasks | jobClass
  | resourceMapping | executorRunner | persistentVolumeClaims
  deriving DecidableEq, Repr

inductive OptionType where
  | num | float | str | listTupleNum | bool
  deriving DecidableEq, Repr

namespace Key

/-- The type of an option: a list of alternatives. -/
def types : Key → List OptionType
  | mem | gpus | disk | maxRejectedOffers | maxTasks | scaleCount | concurrentTasks
  | initialTasks => [.num]
  | cpus => [.num, .float]
  | ports => [.listTupleNum]
  | sendTaskLost | jobSubmitClear => [.bool]
  | jobSubmitOptions | jobClass | executorRunner | persistentVolumeClaims => [.str]
  | resourceMapping => [.str, .bool]

def all : List Key :=
  [mem, cpus, gpus, disk, ports, maxRejectedOffers, maxTasks, sendTaskLost, scaleCount,
    concurrentTasks, jobSubmitOptions, jobSubmitClear, initialTasks, jobClass, resourceMapping,
    executorRunner, persistentVolumeClaims]

theorem mem_all (key : Key) : key ∈ all := by cases key <;> decide

end Key

/-- The loop of `__check_type` over the items of a list of ports. -/
def checkTuples : List Value → Except ConfigError Bool
  | [] => .ok true
  | .tuple [] :: _ => .error .indexError
  | .tuple (first :: rest) :: items =>
    if first.isInt then
      match rest with
      | [] => .error .indexError
      | last :: _ => if last.isInt then checkTuples items else .ok false
    else .ok false
  | _ :: _ => .ok false

/-- The case `list_tuple_num` of `__check_type`. The value is formatted for the log in the same
    `try` block in which the text is evaluated. -/
def checkListTupleNum (python : Python) (value : List Char) : Except ConfigError Bool :=
  match python.eval .checkType value with
  | .exception => .ok false
  | .exit => .error .systemExit
  | .value v =>
    if v.formats then do
      -- the loop may return before the iteration raises
      if ← checkTuples v.items.1 then
        if v.items.2 then pure true else throw .typeError
      else pure false
    else .ok false

/-- `__check_type` -/
def checkType (python : Python) (value : List Char) : List OptionType → Except ConfigError Bool
  | [] => .ok false
  | .num :: types => if isDigits value then .ok true else checkType python value types
  | .float :: types => if (float? value).isSome then .ok true else checkType python value types
  | .str :: _ => .ok true
  | .listTupleNum :: _ => checkListTupleNum python value
  | .bool :: types =>
    if value = "True".toList ∨ value = "False".toList then .ok true
    else checkType python value types

/-! ## Entries -/

/-- `entry.split(':')`, where `dict` expects two parts. -/
def splitEntry (entry : List Char) : Except ConfigError (List Char × List Char) :=
  match entry.splitOn ':' with
  | [name, value] => .ok (name, value)
  | _ => .error .valueError

/-- `dict(entry.split(':') for entry in value.split(';'))`, in the order of the entries. -/
def splitEntries (value : List Char) : Except ConfigError (List (List Char × List Char)) :=
  (value.splitOn ';').mapM splitEntry

/-- A dictionary with names of the configuration file as keys. -/
abbrev Table (β : Type) := AList fun _ : List Char => β

/-- `dict(pairs)`: a later pair replaces an earlier one. -/
def toTable {β : Type} (pairs : List (List Char × β)) : Table β :=
  pairs.foldl (fun table pair => table.insert pair.1 pair.2) ∅

/-- The test for a number of a custom resource. -/
def looksNumeric (value : List Char) : Bool :=
  let vl := strip value
  let sign (c : Char) : Bool := c = '-' ∨ c = '+'
  vl = ['0'] ∨
    isDigits (if ['.', '.'] <:+: vl then vl
      else ((vl.dropWhile sign).rdropWhile (· = '0')).rdropWhile (· = '.'))

/-- The value of a custom resource. One that `eval` rejects is logged and left out. -/
def customValue (python : Python) (value : List Char) : Except ConfigError (Option Value) :=
  if looksNumeric value then
    match float? value with
    | some x => .ok (some (.float (python.round x)))
    | none => .error .valueError
  else
    match python.eval .configureFramework value with
    | .value v => .ok (some v)
    | .exception => .ok none
    | .exit => .error .systemExit

/-- `for k,v in cust_dict_tmp.iteritems()` -/
def customValues (python : Python) :
    List (Sigma fun _ : List Char => List Char) → Except ConfigError (Table Value)
  | [] => .ok ∅
  | ⟨name, value⟩ :: entries => do
    let v ← customValue python value
    let custDict ← customValues python entries
    match v with
    | some v => pure (custDict.insert name v)
    | none => pure custDict

/-- The custom resources of `configure_framework`. An empty text counts as none. -/
def parseCustomResources (python : Python) (value : Option (List Char)) :
    Except ConfigError (Option (Table Value)) :=
  match value with
  | none | some [] => .ok none
  | some value => do
    let pairs ← splitEntries value
    some <$> customValues python (toTable pairs).entries

/-- The attributes of `configure_framework`. -/
def parseAttributes (value : Option (List Char)) : Except ConfigError (Table (List Char)) :=
  match value with
  | none | some [] => .ok ∅
  | some value => toTable <$> splitEntries value

/-! ## The configuration -/

/-- The values in the section of the framework and in the section of the defaults. -/
structure Sections where
  own : Key → Option (List Char)
  defaults : Key → Option (List Char)
  customResources : Option (List Char) := none
  attributes : Option (List Char) := none
  ownOfferPeriod : Option (List Char) := none
  defaultOfferPeriod : Option (List Char) := none

/-- `if not value: value = default` -/
def orDefault (own default : Option (List Char)) : Option (List Char) :=
  match own with
  | some (c :: cs) => some (c :: cs)
  | _ => default

def Sections.value (sections : Sections) (key : Key) : Option (List Char) :=
  orDefault (sections.own key) (sections.defaults key)

/-- What is stored for an option: nothing if it is missing or has the wrong type. -/
def checkedOption (python : Python) (sections : Sections) (key : Key) :
    Except ConfigError (Option (List Char)) :=
  match sections.value key with
  | none => .ok none
  | some value => do
    if ← checkType python value key.types then pure (some value) else pure none

abbrev Options := AList fun _ : Key => List Char

def readOptions (python : Python) (sections : Sections) : List Key → Except ConfigError Options
  | [] => .ok ∅
  | key :: keys => do
    let value ← checkedOption python sections key
    let options ← readOptions python sections keys
    match value with
    | some value => pure (options.insert key value)
    | none => pure options

/-- `framework['config']`. The number `max_tasks` stands beside the options. -/
structure FrameworkConfig where
  options : Options
  customResources : Option (Table Value)
  offerPeriod : PyFloat
  maxTasks : Int

/-- The changes to the options after they were read: the submit options of the framework itself,
    its job class, and no scaling when resources are mapped. -/
def completeOptions (scrubbedName extData : List Char) (options : Options) : Options :=
  let options := match options.lookup Key.jobSubmitOptions with
    | some [] => options.insert Key.jobSubmitOptions extData
    | some text => options.insert Key.jobSubmitOptions (strip text ++ ' ' :: extData)
    | none => options
  let options := match options.lookup Key.jobClass with
    | some (_ :: _) => options
    | _ => options.insert Key.jobClass scrubbedName
  match options.lookup Key.resourceMapping with
  | some (_ :: _) => options.insert Key.scaleCount ['0']
  | _ => options

/-- `DEFAULT_FRAMEWORK_MAX_TASKS` -/
def defaultMaxTasks : Int := 10

/-- `DEFAULT_FRAMEWORK_OFFER_WAIT_PERIOD_IN_SECONDS` -/
def defaultOfferWaitPeriod : PyFloat := .finite 10

/-- `float(value)` of the offer period. An empty default is no default. -/
def offerPeriod (python : Python) (sections : Sections) : Except ConfigError PyFloat :=
  match orDefault sections.ownOfferPeriod sections.defaultOfferPeriod with
  | none | some [] => .ok defaultOfferWaitPeriod
  | some value =>
    match float? value with
    | some x => .ok (python.round x)
    | none => .error .valueError

/-- `int(text)` -/
def toInt (text : List Char) : Except ConfigError Int :=
  match int? text with
  | some n => .ok n
  | none => .error .valueError

def maxTasksOf (options : Options) : Except ConfigError Int :=
  match options.lookup .maxTasks with
  | none => .ok defaultMaxTasks
  | some text => do
    let n ← toInt text
    pure (if n ≤ 0 then defaultMaxTasks else n)

/-- `configure_framework`: the configuration and the attributes of the framework. -/
def configureFramework (python : Python) (sections : Sections) (scrubbedName extData : List Char) :
    Except ConfigError (FrameworkConfig × Table (List Char)) := do
  let options ← readOptions python sections Key.all
  let customResources ← parseCustomResources python sections.customResources
  let offerPeriod ← offerPeriod python sections
  let maxTasks ← maxTasksOf options
  let attributes ← parseAttributes sections.attributes
  let config : FrameworkConfig :=
    { options := completeOptions scrubbedName extData options
      customResources
      offerPeriod
      maxTasks }
  pure (config, attributes)

/-! ## Slaves -/

/-- The resources in the record of a slave. -/
structure SlaveResources where
  cpus : Int
  mem : Int
  disk : Int
  ports : Value
  gpus : Option Int
  customResources : Option (Table Value)

/-- `int(framework_config[key])` -/
def intOption (config : FrameworkConfig) (key : Key) : Except ConfigError Int :=
  match config.options.lookup key with
  | none => .error .keyError
  | some text => toInt text

/-- `eval(framework_config['ports'])` -/
def evalPorts (python : Python) (config : FrameworkConfig) : Except ConfigError Value :=
  match config.options.lookup .ports with
  | none => .error .keyError
  | some text =>
    match python.eval .initializeSlaveResources text with
    | .value v => .ok v
    | .exception => .error .evalError
    | .exit => .error .systemExit

/-- `copy.deepcopy(framework_config['custom_resources'])` -/
def copyCustomResources (python : Python) (config : FrameworkConfig) :
    Except ConfigError (Option (Table Value)) :=
  match config.customResources with
  | none => .ok none
  | some table =>
    if table.entries.all (python.copies ·.2) then .ok (some table) else .error .typeError

/-- `if 'gpus' in framework_config: int(framework_config['gpus'])` -/
def gpusOption (config : FrameworkConfig) : Except ConfigError (Option Int) :=
  match config.options.lookup .gpus with
  | none => .ok none
  | some text => some <$> toInt text

/-- `__initialize_slave_resources` -/
def initializeSlaveResources (python : Python) (config : FrameworkConfig) :
    Except ConfigError SlaveResources := do
  let cpus ← intOption config .cpus
  let mem ← intOption config .mem
  let disk ← intOption config .disk
  let ports ← evalPorts python config
  let gpus ← gpusOption config
  let customResources ← copyCustomResources python config
  pure { cpus, mem, disk, ports, gpus, customResources }

/-- What an offer lists of a resource. -/
inductive Amount where
  | scalar (value : Value)
  | ranges (ranges : List (Value × Value))

/-- A resource in an offer. -/
structure OfferedResource where
  name : List Char
  amount : Amount

/-- What is listed of a custom resource. A value of another type is logged and left out. -/
def customAmount : Value → Except ConfigError (Option Amount)
  | .int n => .ok (some (.scalar (.float (.finite n))))
  | .float x => .ok (some (.scalar (.float x)))
  | .list items => do
    let ranges ← (Value.list items).ranges
    pure (some (.ranges ranges))
  | _ => .ok none

def customResources : List (Sigma fun _ : List Char => Value) →
    Except ConfigError (List OfferedResource)
  | [] => .ok []
  | ⟨name, value⟩ :: entries => do
    let amount ← customAmount value
    let rest ← customResources entries
    pure ((amount.map fun amount => { name, amount }).toList ++ rest)

/-- `if custom_resources is not None` -/
def listedCustomResources : Option (Table Value) → Except ConfigError (List OfferedResource)
  | none => .ok []
  | some table => customResources table.entries

/-- `__build_resources` -/
def buildResources (slave : SlaveResources) : Except ConfigError (List OfferedResource) := do
  let ranges ← slave.ports.ranges
  let custom ← listedCustomResources slave.customResources
  let gpus := slave.gpus.filter (· ≠ 0)
  pure <|
    [{ name := "cpus".toList, amount := .scalar (.int slave.cpus) },
      { name := "mem".toList, amount := .scalar (.int slave.mem) },
      { name := "disk".toList, amount := .scalar (.int slave.disk) },
      { name := "ports".toList, amount := .ranges ranges }] ++
    (gpus.map fun n => { name := "gpus".toList, amount := .scalar (.int n) }).toList ++ custom

/-! ## A sample configuration -/

namespace Sample

/-- The ports in the configuration file that comes with the service. -/
def ports : List Char := "[(30000,31000)]".toList

/-- An interpreter that knows decimal numerals, which it does not round, and one list of ports. -/
def python : Python where
  eval _ text :=
    match decimal? (strip text) with
    | some q => .value (.float (.finite q))
    | none => if text = ports then .value (.list [.tuple [.int 30000, .int 31000]]) else .exception
  round x := x
  copies _ := true
  eval_decimal := by
    intro site text q h _
    exact ⟨.float (.finite q), by simp [h.1], rfl⟩

/-- A configuration with the given CPUs. -/
def sections (cpus : List Char) : Sections where
  own
    | .cpus => some cpus
    | _ => none
  defaults
    | .mem => some "4096".toList
    | .cpus => some "2".toList
    | .disk => some "81924".toList
    | .ports => some ports
    | _ => none

end Sample

end Urb.Config
