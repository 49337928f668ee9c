/-
# NetFT.CheckOptions — the command line of the check tool (`check_main.cpp`).

An option takes its value behind an equals sign or from the next argument; `--json` stands for itself, and
`--help` ends the scan.  `std::stod` and `std::stol` are arguments of the model.

* `Item` is what a command line is made of, `Item.render` how it is written: `parseArguments_iff`.
* `Settles`: each option has the value of its last setting, or its default (`setAll_eq_ok_iff`).
* **`parseOptions_iff`**: the command lines that are accepted, and what they mean.
-/
import NetFT.ConfigFields
import NetFT.XmlConfig

namespace NetFT.CheckMain

set_option autoImplicit false

open Library (Double bind_eq_ok_iff throwIf throwIf_eq_ok_iff)
open XmlConfig (ascii)

/-! ## Options -/

/-- The options that take a value. -/
inductive Key where
  | host | port | httpPort | configurationConnectTimeout | configurationTimeout | duration
  | countsPerForce | countsPerTorque | receiveTimeout | output
  deriving DecidableEq, Repr

/-- The options in the order in which `parse_options` compares them. -/
def Key.all : List Key :=
  [.host, .port, .httpPort, .configurationConnectTimeout, .configurationTimeout, .duration,
    .countsPerForce, .countsPerTorque, .receiveTimeout, .output]

/-- The name of an option, which is the field in its messages. -/
def Key.name : Key → String
  | .host => "host"
  | .port => "port"
  | .httpPort => "http-port"
  | .configurationConnectTimeout => "configuration-connect-timeout"
  | .configurationTimeout => "configuration-timeout"
  | .duration => "duration"
  | .countsPerForce => "counts-per-force"
  | .countsPerTorque => "counts-per-torque"
  | .receiveTimeout => "receive-timeout"
  | .output => "output"

/-- The option as it is written. -/
def Key.flag (key : Key) : List UInt8 := ascii "--" ++ ascii key.name

def jsonFlag : List UInt8 := ascii "--json"

def helpFlag : List UInt8 := ascii "--help"

def equalsSign : UInt8 := 0x3d

/-- The option that a word is. -/
def keyOf (word : List UInt8) : Option Key := Key.all.find? fun key => key.flag = word

/-- The options while they are read. -/
structure Settings where
  sensorHost : String := "192.168.1.1"
  rdtPort : Int := 49152
  httpPort : Int := 80
  configurationConnectTimeout : Double := .finite (1 / 2)
  configurationTimeout : Double := .finite 1
  duration : Double := .finite 5
  countsPerForce : Option Double := none
  countsPerTorque : Option Double := none
  receiveTimeout : Double := .finite (1 / 10)
  output : Option (List UInt8) := none
  deriving DecidableEq, Repr

/-- What `parse_options` returns. -/
structure Options where
  config : Config
  duration : ℚ
  output : Option (List UInt8)
  deriving DecidableEq, Repr

/-- The error of a value that is no number. -/
def invalidValue (field : String) : String := "invalid " ++ field ++ " value"

/-- `number`: all of the value must be a number. -/
def number (numbers : Numbers) (field : String) (value : List UInt8) : Except String Double :=
  match numbers.stod value with
  | some (parsed, used) => if used ≠ value.length then .error (invalidValue field) else .ok parsed
  | none => .error (invalidValue field)

/-- `integer`: all of the value, and in the range of an `int`. -/
def integer (numbers : Numbers) (field : String) (value : List UInt8) : Except String Int :=
  match numbers.stol value with
  | some (parsed, used) =>
    if used ≠ value.length ∨ parsed < -2147483648 ∨ 2147483647 < parsed then .error (invalidValue field)
    else .ok parsed
  | none => .error (invalidValue field)

/-- The branches of the loop that store a value. -/
def Settings.set (numbers : Numbers) (s : Settings) (key : Key) (value : List UInt8) : Except String Settings :=
  match key with
  | .host => .ok { s with sensorHost := textOf value }
  | .port => do return { s with rdtPort := ← integer numbers key.name value }
  | .httpPort => do return { s with httpPort := ← integer numbers key.name value }
  | .configurationConnectTimeout => do
    return { s with configurationConnectTimeout := ← number numbers key.name value }
  | .configurationTimeout => do return { s with configurationTimeout := ← number numbers key.name value }
  | .duration => do return { s with duration := ← number numbers key.name value }
  | .countsPerForce => do return { s with countsPerForce := some (← number numbers key.name value) }
  | .countsPerTorque => do return { s with countsPerTorque := some (← number numbers key.name value) }
  | .receiveTimeout => do return { s with receiveTimeout := ← number numbers key.name value }
  | .output => .ok { s with output := some value }

/-- The loop over the arguments; the flag says that it ended at `--help`. -/
def parseArguments (numbers : Numbers) : Settings → List (List UInt8) → Except String (Settings × Bool)
  | s, [] => .ok (s, false)
  | s, argument :: rest =>
    if argument = jsonFlag then parseArguments numbers s rest
    else if argument = helpFlag then .ok (s, true)
    else
      match keyOf (argument.takeWhile (· != equalsSign)) with
      | none => .error ("unknown argument: " ++ textOf argument)
      | some key =>
        if equalsSign ∈ argument then
          match s.set numbers key ((argument.dropWhile (· != equalsSign)).drop 1) with
          | .error what => .error what
          | .ok s => parseArguments numbers s rest
        else
          match rest with
          | [] => .error ("missing value for " ++ textOf key.flag)
          | value :: rest =>
            match s.set numbers key value with
            | .error what => .error what
            | .ok s => parseArguments numbers s rest

/-- The configuration, with the calibration that the two counts give. -/
def Settings.config (s : Settings) : ConfigFields where
  sensorHost := s.sensorHost
  rdtPort := s.rdtPort
  httpPort := s.httpPort
  receiveTimeout := s.receiveTimeout
  configurationConnectTimeout := s.configurationConnectTimeout
  configurationTimeout := s.configurationTimeout
  calibrationOverride :=
    match s.countsPerForce, s.countsPerTorque with
    | some force, some torque => some ⟨force, torque, .Newton, .NewtonMeter⟩
    | _, _ => none

/-- The checks behind the loop. -/
def Settings.finish (now : TimePoint) (s : Settings) : Except String Options := do
  let duration ← requireFinite "duration must be finite and greater than zero" s.duration
  throwIf (duration ≤ 0) "duration must be finite and greater than zero"
  throwIf (s.countsPerForce.isSome ≠ s.countsPerTorque.isSome)
    "counts-per-force and counts-per-torque must be provided together"
  let config ← s.config.validate now
  return { config, duration, output := s.output }

/-- `parse_options`; none asks for help, where nothing else of the options is read. -/
def parseOptions (numbers : Numbers) (now : TimePoint) (arguments : List (List UInt8)) :
    Except String (Option Options) := do
  let (s, help) ← parseArguments numbers {} arguments
  if help then return none
  return some (← s.finish now)

/-! ## What a command line is made of -/

/-- An argument list is made of these. -/
inductive Item where
  | json
  | joined (key : Key) (value : List UInt8)
  | separate (key : Key) (value : List UInt8)
  deriving DecidableEq, Repr

/-- The arguments that an item takes. -/
def Item.render : Item → List (List UInt8)
  | .json => [jsonFlag]
  | .joined key value => [key.flag ++ equalsSign :: value]
  | .separate key value => [key.flag, value]

/-- The value that it sets. -/
def Item.setting : Item → Option (Key × List UInt8)
  | .json => none
  | .joined key value | .separate key value => some (key, value)

/-- The values of a list of settings, stored one after the other. -/
def setAll (numbers : Numbers) (s : Settings) (settings : List (Key × List UInt8)) : Except String Settings :=
  settings.foldlM (fun s setting => s.set numbers setting.1 setting.2) s

/-! ## Reading an item -/

variable {numbers : Numbers} {s s' : Settings} {key : Key} {value : List UInt8}

/-- No two options are written alike. -/
theorem keyOf_flag (key : Key) : keyOf key.flag = some key := by
  cases key <;> decide

/-- A word is an option only as it is written. -/
theorem flag_of_keyOf {word : List UInt8} (h : keyOf word = some key) : key.flag = word := by
  have hfound := List.find?_some h
  simpa using hfound

/-- No option has an equals sign, so the first one ends it. -/
theorem equalsSign_notMem_flag (key : Key) : equalsSign ∉ key.flag := by
  cases key <;> decide

theorem flag_ne (key : Key) : key.flag ≠ jsonFlag ∧ key.flag ≠ helpFlag := by
  cases key <;> decide

/-- Option and value come apart at the first equals sign. -/
theorem takeWhile_joined (key : Key) (value : List UInt8) :
    (key.flag ++ equalsSign :: value).takeWhile (· != equalsSign) = key.flag ∧
      (key.flag ++ equalsSign :: value).dropWhile (· != equalsSign) = equalsSign :: value := by
  have hall : ∀ c ∈ key.flag, (c != equalsSign) = true := by
    intro c hc
    rw [bne_iff_ne]
    rintro rfl
    exact equalsSign_notMem_flag key hc
  rw [List.takeWhile_append_of_pos hall, List.dropWhile_append_of_pos hall]
  simp

/-- Without an equals sign the whole argument is the option. -/
theorem takeWhile_of_notMem {argument : List UInt8} (h : equalsSign ∉ argument) :
    argument.takeWhile (· != equalsSign) = argument := by
  rw [List.takeWhile_eq_self_iff]
  intro c hc
  rw [bne_iff_ne]
  rintro rfl
  exact h hc

/-- An option with its value is not one of the two flags. -/
theorem joined_ne (key : Key) (value : List UInt8) :
    key.flag ++ equalsSign :: value ≠ jsonFlag ∧ key.flag ++ equalsSign :: value ≠ helpFlag := by
  have hmem : equalsSign ∈ key.flag ++ equalsSign :: value :=
    List.mem_append_right _ List.mem_cons_self
  constructor
  · intro heq
    rw [heq] at hmem
    revert hmem
    decide
  · intro heq
    rw [heq] at hmem
    revert hmem
    decide

/-- The loop reads one item and goes on. -/
theorem parseArguments_render (item : Item) (rest : List (List UInt8)) :
    parseArguments numbers s (item.render ++ rest) =
      (setAll numbers s item.setting.toList >>= fun s => parseArguments numbers s rest) := by
  cases item with
  | json =>
    rw [Item.render, List.cons_append, parseArguments, if_pos rfl]
    rfl
  | joined key value =>
    obtain ⟨htake, hdrop⟩ := takeWhile_joined key value
    have hmem : equalsSign ∈ key.flag ++ equalsSign :: value :=
      List.mem_append_right _ List.mem_cons_self
    rw [Item.render, List.cons_append, parseArguments, if_neg (joined_ne key value).1,
      if_neg (joined_ne key value).2, htake, keyOf_flag]
    simp only [if_pos hmem, hdrop, List.drop_succ_cons, List.drop_zero]
    show _ = (s.set numbers key value >>= pure) >>= fun s => parseArguments numbers s rest
    cases s.set numbers key value <;> rfl
  | separate key value =>
    rw [Item.render, List.cons_append, parseArguments, if_neg (flag_ne key).1, if_neg (flag_ne key).2,
      takeWhile_of_notMem (equalsSign_notMem_flag key), keyOf_flag]
    simp only [if_neg (equalsSign_notMem_flag key)]
    show _ = (s.set numbers key value >>= pure) >>= fun s => parseArguments numbers s rest
    simp only [List.cons_append, List.nil_append]
    cases s.set numbers key value <;> rfl

/-- Settings are stored in order. -/
theorem setAll_append (settings more : List (Key × List UInt8)) :
    setAll numbers s (settings ++ more) = (setAll numbers s settings >>= fun s => setAll numbers s more) :=
  List.foldlM_append ..

/-- **The loop stores what the items set**, and goes on with what follows them. -/
theorem parseArguments_items (items : List Item) (rest : List (List UInt8)) :
    parseArguments numbers s (items.flatMap Item.render ++ rest) =
      (setAll numbers s (items.filterMap Item.setting) >>= fun s => parseArguments numbers s rest) := by
  induction items generalizing s with
  | nil => rfl
  | cons item items ih =>
    have hsettings : (item :: items).filterMap Item.setting =
        item.setting.toList ++ items.filterMap Item.setting := by
      cases item <;> rfl
    rw [List.flatMap_cons, List.append_assoc, parseArguments_render, hsettings, setAll_append]
    cases setAll numbers s item.setting.toList with
    | error what => rfl
    | ok s => exact ih

theorem setAll_cons {settings : List (Key × List UInt8)} {s₁ : Settings} (h : s.set numbers key value = .ok s₁)
    (h' : setAll numbers s₁ settings = .ok s') : setAll numbers s ((key, value) :: settings) = .ok s' := by
  show (s.set numbers key value >>= fun s => setAll numbers s settings) = _
  rw [h]
  exact h'

/-- An argument with an equals sign is an option with its value. -/
theorem split_of_mem {argument : List UInt8} (h : equalsSign ∈ argument) :
    argument = argument.takeWhile (· != equalsSign) ++
      equalsSign :: (argument.dropWhile (· != equalsSign)).drop 1 := by
  induction argument with
  | nil => cases h
  | cons c rest ih =>
    by_cases hc : c = equalsSign
    · subst hc
      simp
    · have hne : (c != equalsSign) = true := bne_iff_ne.mpr hc
      rw [List.takeWhile_cons_of_pos (p := (· != equalsSign)) hne,
        List.dropWhile_cons_of_pos (p := (· != equalsSign)) hne, List.cons_append,
        ← ih ((List.mem_cons.mp h).resolve_left fun heq => hc heq.symm)]

/-- What ends the scan. -/
def ending (help : Bool) (rest : List (List UInt8)) : List (List UInt8) :=
  if help then helpFlag :: rest else []

/-- The list ends with `--help`, or of itself. -/
theorem parseArguments_ending (help : Bool) (rest : List (List UInt8)) :
    parseArguments numbers s (ending help rest) = .ok (s, help) := by
  cases help with
  | false => rfl
  | true =>
    rw [ending, if_pos rfl, parseArguments, if_neg (by decide), if_pos rfl]

/-- **What the loop accepts**: items, and then the end or `--help`. -/
theorem parseArguments_iff {arguments : List (List UInt8)} {help : Bool} :
    parseArguments numbers s arguments = .ok (s', help) ↔
      ∃ (items : List Item) (rest : List (List UInt8)), arguments = items.flatMap Item.render ++ ending help rest ∧
        setAll numbers s (items.filterMap Item.setting) = .ok s' := by
  constructor
  · intro h
    fun_induction parseArguments numbers s arguments with
    | case1 s =>
      cases h
      exact ⟨[], [], rfl, rfl⟩
    | case2 s rest ih =>
      obtain ⟨items, tail, rfl, hset⟩ := ih h
      exact ⟨.json :: items, tail, rfl, hset⟩
    | case3 s rest hjson =>
      cases h
      exact ⟨[], rest, rfl, rfl⟩
    | case4 => cases h
    | case5 => cases h
    | case6 s argument rest _ _ key hkey hmem s₁ hset ih =>
      obtain ⟨items, tail, rfl, hrest⟩ := ih h
      refine ⟨.joined key ((argument.dropWhile (· != equalsSign)).drop 1) :: items, tail, ?_, ?_⟩
      · have hargument := split_of_mem hmem
        rw [← flag_of_keyOf hkey] at hargument
        rw [List.flatMap_cons, List.append_assoc, Item.render, ← hargument]
        rfl
      · exact setAll_cons hset hrest
    | case7 => cases h
    | case8 => cases h
    | case9 s argument _ _ key hkey hmem value rest s₁ hset ih =>
      obtain ⟨items, tail, rfl, hrest⟩ := ih h
      refine ⟨.separate key value :: items, tail, ?_, setAll_cons hset hrest⟩
      rw [takeWhile_of_notMem hmem] at hkey
      rw [← flag_of_keyOf hkey]
      rfl
  · rintro ⟨items, rest, rfl, hset⟩
    rw [parseArguments_items, hset]
    exact parseArguments_ending help rest

/-! ## The last setting counts -/

/-- The value of an option. -/
inductive Setting where
  | text (value : Option (List UInt8))
  | string (value : String)
  | integer (value : Int)
  | number (value : Double)
  | count (value : Option Double)
  deriving DecidableEq, Repr

/-- The value of an option. -/
def Settings.get (s : Settings) : Key → Setting
  | .host => .string s.sensorHost
  | .port => .integer s.rdtPort
  | .httpPort => .integer s.httpPort
  | .configurationConnectTimeout => .number s.configurationConnectTimeout
  | .configurationTimeout => .number s.configurationTimeout
  | .duration => .number s.duration
  | .countsPerForce => .count s.countsPerForce
  | .countsPerTorque => .count s.countsPerTorque
  | .receiveTimeout => .number s.receiveTimeout
  | .output => .text s.output

/-- What a text says for an option. -/
inductive Says (numbers : Numbers) : Key → List UInt8 → Setting → Prop where
  | host (value : List UInt8) : Says numbers .host value (.string (textOf value))
  | output (value : List UInt8) : Says numbers .output value (.text (some value))
  | integer {key : Key} {value : List UInt8} {n : Int} (hkey : key = .port ∨ key = .httpPort)
      (h : integer numbers key.name value = .ok n) : Says numbers key value (.integer n)
  | number {key : Key} {value : List UInt8} {x : Double}
      (hkey : key = .configurationConnectTimeout ∨ key = .configurationTimeout ∨ key = .duration ∨
        key = .receiveTimeout)
      (h : number numbers key.name value = .ok x) : Says numbers key value (.number x)
  | count {key : Key} {value : List UInt8} {x : Double} (hkey : key = .countsPerForce ∨ key = .countsPerTorque)
      (h : number numbers key.name value = .ok x) : Says numbers key value (.count (some x))

/-- The options have no other values. -/
theorem Settings.ext_get (h : ∀ key, s.get key = s'.get key) : s = s' := by
  obtain ⟨_, _, _, _, _, _, _, _, _, _⟩ := s
  obtain ⟨_, _, _, _, _, _, _, _, _, _⟩ := s'
  have hhost := h .host
  have hport := h .port
  have hhttp := h .httpPort
  have hconnect := h .configurationConnectTimeout
  have htotal := h .configurationTimeout
  have hduration := h .duration
  have hforce := h .countsPerForce
  have htorque := h .countsPerTorque
  have hreceive := h .receiveTimeout
  have houtput := h .output
  simp only [Settings.get, Setting.string.injEq, Setting.integer.injEq, Setting.number.injEq, Setting.count.injEq,
    Setting.text.injEq] at hhost hport hhttp hconnect htotal hduration hforce htorque hreceive houtput
  subst hhost hport hhttp hconnect htotal hduration hforce htorque hreceive houtput
  rfl

/-- Storing a value touches its option alone. -/
theorem says_of_set (h : s.set numbers key value = .ok s') :
    Says numbers key value (s'.get key) ∧ ∀ key', key' ≠ key → s'.get key' = s.get key' := by
  cases key with
  | host =>
    cases h
    exact ⟨.host value, fun key' hne => by cases key' <;> first | rfl | exact absurd rfl hne⟩
  | output =>
    cases h
    exact ⟨.output value, fun key' hne => by cases key' <;> first | rfl | exact absurd rfl hne⟩
  | port | httpPort =>
    obtain ⟨n, hn, heq⟩ := bind_eq_ok_iff.mp h
    cases heq
    exact ⟨.integer (by simp) hn, fun key' hne => by cases key' <;> first | rfl | exact absurd rfl hne⟩
  | configurationConnectTimeout | configurationTimeout | duration | receiveTimeout =>
    obtain ⟨x, hx, heq⟩ := bind_eq_ok_iff.mp h
    cases heq
    exact ⟨.number (by simp) hx, fun key' hne => by cases key' <;> first | rfl | exact absurd rfl hne⟩
  | countsPerForce | countsPerTorque =>
    obtain ⟨x, hx, heq⟩ := bind_eq_ok_iff.mp h
    cases heq
    exact ⟨.count (by simp) hx, fun key' hne => by cases key' <;> first | rfl | exact absurd rfl hne⟩

/-- A value that can be read can be stored. -/
theorem exists_set {setting : Setting} (h : Says numbers key value setting) :
    ∃ s', s.set numbers key value = .ok s' ∧ s'.get key = setting := by
  cases h with
  | host => exact ⟨_, rfl, rfl⟩
  | output => exact ⟨_, rfl, rfl⟩
  | integer hkey h =>
    rcases hkey with rfl | rfl <;>
      exact ⟨_, bind_eq_ok_iff.mpr ⟨_, h, rfl⟩, rfl⟩
  | number hkey h =>
    rcases hkey with rfl | rfl | rfl | rfl <;>
      exact ⟨_, bind_eq_ok_iff.mpr ⟨_, h, rfl⟩, rfl⟩
  | count hkey h =>
    rcases hkey with rfl | rfl <;>
      exact ⟨_, bind_eq_ok_iff.mpr ⟨_, h, rfl⟩, rfl⟩

/-- And is read in one way. -/
theorem says_unique {x y : Setting} (hx : Says numbers key value x) (hy : Says numbers key value y) : x = y := by
  obtain ⟨s₁, hset, rfl⟩ := exists_set (s := {}) hx
  obtain ⟨s₂, hset', rfl⟩ := exists_set (s := {}) hy
  rw [hset] at hset'
  cases hset'
  rfl

/-- A setting, by what the options are afterwards. -/
theorem set_eq_ok_iff :
    s.set numbers key value = .ok s' ↔
      Says numbers key value (s'.get key) ∧ ∀ key', key' ≠ key → s'.get key' = s.get key' := by
  refine ⟨says_of_set, fun ⟨hmeant, hrest⟩ => ?_⟩
  obtain ⟨s₁, hset, hget⟩ := exists_set (s := s) hmeant
  have hsame : s₁ = s' := by
    apply Settings.ext_get
    intro key'
    by_cases heq : key' = key
    · rw [heq, hget]
    · rw [(says_of_set hset).2 key' heq, hrest key' heq]
  rw [hset, hsame]

/-- The last value that is set for an option. -/
def lastSetting (settings : List (Key × List UInt8)) (key : Key) : Option (List UInt8) :=
  ((settings.filter fun setting => setting.1 = key).map Prod.snd).getLast?

/-- Every value can be read, and each option has its last one, or its default. -/
structure Settles (numbers : Numbers) (settings : List (Key × List UInt8)) (s : Settings) : Prop where
  readable : ∀ setting ∈ settings, ∃ x, Says numbers setting.1 setting.2 x
  last : ∀ key value, lastSetting settings key = some value → Says numbers key value (s.get key)
  default : ∀ key, lastSetting settings key = none → s.get key = ({} : Settings).get key

/-- A later setting replaces an earlier one. -/
theorem lastSetting_concat (settings : List (Key × List UInt8)) (setting : Key × List UInt8) (key : Key) :
    lastSetting (settings ++ [setting]) key =
      if setting.1 = key then some setting.2 else lastSetting settings key := by
  unfold lastSetting
  rw [List.filter_append, List.map_append]
  by_cases heq : setting.1 = key
  · rw [if_pos heq, List.filter_cons_of_pos (by simpa using heq)]
    simp
  · rw [if_neg heq, List.filter_cons_of_neg (by simpa using heq)]
    simp

/-- The last setting is stored last. -/
theorem setAll_concat (settings : List (Key × List UInt8)) (setting : Key × List UInt8) :
    setAll numbers s (settings ++ [setting]) = .ok s' ↔
      ∃ s₁, setAll numbers s settings = .ok s₁ ∧ s₁.set numbers setting.1 setting.2 = .ok s' := by
  rw [setAll_append, bind_eq_ok_iff]
  constructor
  · rintro ⟨s₁, hset, hlast⟩
    obtain ⟨s₂, hlast, heq⟩ := bind_eq_ok_iff.mp hlast
    cases heq
    exact ⟨s₁, hset, hlast⟩
  · rintro ⟨s₁, hset, hlast⟩
    exact ⟨s₁, hset, bind_eq_ok_iff.mpr ⟨s', hlast, rfl⟩⟩

/-- Readable values can be set. -/
theorem exists_setAll {settings : List (Key × List UInt8)}
    (h : ∀ setting ∈ settings, ∃ x, Says numbers setting.1 setting.2 x) :
    ∃ s', setAll numbers s settings = .ok s' := by
  induction settings generalizing s with
  | nil => exact ⟨s, rfl⟩
  | cons setting settings ih =>
    obtain ⟨x, hx⟩ := h setting List.mem_cons_self
    obtain ⟨s₁, hset, -⟩ := exists_set (s := s) hx
    obtain ⟨s', hrest⟩ := ih (s := s₁) fun later hmem => h later (List.mem_cons_of_mem setting hmem)
    exact ⟨s', setAll_cons hset hrest⟩

/-- **The settings in a row leave each option with its last value.** -/
theorem setAll_eq_ok_iff {settings : List (Key × List UInt8)} :
    setAll numbers {} settings = .ok s ↔ Settles numbers settings s := by
  -- by induction on the settings from the last one
  induction settings using List.reverseRecOn generalizing s with
  | nil =>
    constructor
    · intro h
      cases h
      exact ⟨nofun, nofun, fun _ _ => rfl⟩
    · intro h
      rw [show s = {} from Settings.ext_get fun key => h.default key rfl]
      rfl
  | append_singleton settings setting ih =>
    rw [setAll_concat]
    constructor
    · rintro ⟨s₁, hset, hlast⟩
      obtain ⟨hreadable, hvalue, hdefault⟩ := ih.mp hset
      obtain ⟨hmeant, hrest⟩ := says_of_set hlast
      refine ⟨fun later hmem => ?_, fun key value hkey => ?_, fun key hkey => ?_⟩
      · rcases List.mem_append.mp hmem with hold | hnew
        · exact hreadable later hold
        · rw [List.mem_singleton.mp hnew]
          exact ⟨_, hmeant⟩
      · rw [lastSetting_concat] at hkey
        split_ifs at hkey with heq
        · cases hkey
          exact heq ▸ hmeant
        · rw [hrest key fun h => heq h.symm]
          exact hvalue key value hkey
      · rw [lastSetting_concat] at hkey
        split_ifs at hkey with heq
        rw [hrest key fun h => heq h.symm]
        exact hdefault key hkey
    · intro h
      obtain ⟨s₁, hset⟩ := exists_setAll (s := {}) fun later hmem =>
        h.readable later (List.mem_append_left [setting] hmem)
      obtain ⟨-, hvalue, hdefault⟩ := ih.mp hset
      refine ⟨s₁, hset, set_eq_ok_iff.mpr ⟨h.last _ _ ?_, fun key hne => ?_⟩⟩
      · rw [lastSetting_concat, if_pos rfl]
      · have hlast := lastSetting_concat settings setting key
        rw [if_neg fun heq => hne heq.symm] at hlast
        cases hkey : lastSetting settings key with
        | none => rw [h.default key (hlast.trans hkey), hdefault key hkey]
        | some value => exact says_unique (h.last key value (hlast.trans hkey)) (hvalue key value hkey)

/-! ## The command line -/

/-- What the options of a run have to be. -/
structure Options.Valid (now : TimePoint) (options : Options) : Prop where
  config : options.config.Valid now
  duration : 0 < options.duration

/-- The options are those of the settings; the two counts stand together. -/
structure Settings.Means (s : Settings) (options : Options) : Prop where
  config : s.config = options.config.fields
  duration : s.duration = .finite options.duration
  output : s.output = options.output
  counts : s.countsPerForce.isSome = s.countsPerTorque.isSome

/-- `parse_options` returns the options that the settings mean, if they are valid. -/
theorem finish_eq_ok_iff {now : TimePoint} {options : Options} :
    s.finish now = .ok options ↔ s.Means options ∧ options.Valid now := by
  simp only [Settings.finish, bind_eq_ok_iff, requireFinite_eq_ok_iff, throwIf_eq_ok_iff, validate_fields_iff]
  constructor
  · rintro ⟨duration, hduration, _, hpos, _, hcounts, config, ⟨hconfig, hvalid⟩, heq⟩
    cases heq
    exact ⟨⟨hconfig, hduration, rfl, not_not.mp hcounts⟩, hvalid, not_le.mp hpos⟩
  · rintro ⟨⟨hconfig, hduration, houtput, hcounts⟩, hvalid, hpos⟩
    refine ⟨options.duration, hduration, (), not_le.mpr hpos, (), not_not.mpr hcounts, options.config,
      ⟨hconfig, hvalid⟩, ?_⟩
    rw [houtput]
    rfl

/-- **The command lines of the check tool.**  Options are accepted where the arguments are items whose last
settings, or defaults, describe a valid run; help where items that can be read are followed by `--help`,
whatever comes after it. -/
theorem parseOptions_iff {now : TimePoint} {arguments : List (List UInt8)} {result : Option Options} :
    parseOptions numbers now arguments = .ok result ↔
      ∃ (items : List Item) (s : Settings), Settles numbers (items.filterMap Item.setting) s ∧
        ((∃ options, result = some options ∧ arguments = items.flatMap Item.render ∧ s.Means options ∧
            options.Valid now) ∨
          result = none ∧ ∃ rest, arguments = items.flatMap Item.render ++ helpFlag :: rest) := by
  rw [parseOptions, bind_eq_ok_iff]
  constructor
  · rintro ⟨⟨s, help⟩, hparse, h⟩
    obtain ⟨items, rest, rfl, hset⟩ := parseArguments_iff.mp hparse
    refine ⟨items, s, setAll_eq_ok_iff.mp hset, ?_⟩
    cases help with
    | true =>
      cases h
      exact .inr ⟨rfl, rest, rfl⟩
    | false =>
      obtain ⟨options, hfinish, heq⟩ := bind_eq_ok_iff.mp h
      cases heq
      obtain ⟨hmeans, hvalid⟩ := finish_eq_ok_iff.mp hfinish
      exact .inl ⟨options, rfl, List.append_nil _, hmeans, hvalid⟩
  · rintro ⟨items, s, hsettles, ⟨options, rfl, rfl, hmeans, hvalid⟩ | ⟨rfl, rest, rfl⟩⟩
    · refine ⟨(s, false), parseArguments_iff.mpr ⟨items, [], (List.append_nil _).symm, setAll_eq_ok_iff.mpr hsettles⟩,
        ?_⟩
      exact bind_eq_ok_iff.mpr ⟨options, finish_eq_ok_iff.mpr ⟨hmeans, hvalid⟩, rfl⟩
    · exact ⟨(s, true), parseArguments_iff.mpr ⟨items, rest, rfl, setAll_eq_ok_iff.mpr hsettles⟩, rfl⟩

end NetFT.CheckMain
