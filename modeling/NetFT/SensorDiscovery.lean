/-
# NetFT.SensorDiscovery — asking a sensor for its configuration (`discovery.cpp`).

`discover_sensor` checks its options, builds a request for libcurl and parses the body of the reply.
libcurl is a parameter (`Curl`): whether each of its functions succeeds, and what it delivers for a request.

* `validateOptions_of_validate`: the options of a validated client pass their own checks.
* **`discovery_complete`**: discovery gives a configuration in exactly the case that libcurl delivers, in any
  chunks, a page that describes it.
-/
import NetFT.Client.Session
import NetFT.ConfigChecks
import NetFT.Discovery
import NetFT.SensorPage

namespace NetFT.Discovery

set_option autoImplicit false

open Library (bind_eq_ok_iff throwIf throwIf_eq_ok_iff forM_eq_ok_iff)
open XmlConfig (Forest Describes parseSensorConfiguration document_of_parse parse_bytes_iff)

/-! ## Options -/

/-- Where the sensor is, and how long to wait for it. -/
structure DiscoveryOptions where
  sensorHost : String
  httpPort : Int := 80
  connectTimeout : Seconds := 1 / 2
  totalTimeout : Seconds := 1
  deriving DecidableEq, Repr

def isAsciiBlank (value : String) : Bool := value.toList.all fun character =>
  character = ' ' || character = '\t' || character = '\n' || character = '\r' ||
    character.toNat = 0x0c || character.toNat = 0x0b

/-- `std::numeric_limits<long>::max()`. -/
def maxLong : Int := 9223372036854775807

/-- A long double holds a thousand times a double of seconds. -/
def timeoutMilliseconds (timeout : Seconds) (name : String) : Except String Int :=
  if timeout ≤ 0 then .error (name ++ " must be finite, positive, and representable")
  else if maxLong < ⌈timeout * 1000⌉ then .error (name ++ " must be finite, positive, and representable")
  else .ok ⌈timeout * 1000⌉

/-- `validate_options`. -/
def validateOptions (options : DiscoveryOptions) : Except String Unit := do
  throwIf (isAsciiBlank options.sensorHost = true) "sensor_host must not be blank"
  throwIf (options.httpPort < 1 ∨ 65535 < options.httpPort) "http_port must be in the range 1..65535"
  let _ ← timeoutMilliseconds options.connectTimeout "connect_timeout"
  let _ ← timeoutMilliseconds options.totalTimeout "total_timeout"

/-! ## The request -/

/-- The parts of a URL that libcurl sets. -/
inductive UrlPart where
  | scheme | host | port | path
  deriving DecidableEq, Repr

/-- The options of a transfer. -/
inductive CurlOption where
  | url
  | protocols (scheme : String)
  | followLocation (follow : Int)
  | maxRedirs (redirects : Int)
  | noSignal (quiet : Int)
  | proxy (name : String)
  | connectTimeoutMs (milliseconds : Int)
  | timeoutMs (milliseconds : Int)
  | writeFunction
  | writeData
  deriving DecidableEq, Repr

/-- What libcurl is told before it performs a transfer. -/
structure Request where
  parts : List (UrlPart × String)
  options : List CurlOption
  deriving DecidableEq, Repr

/-- An address with colons stands in brackets. -/
def urlHost (host : String) : String :=
  let characters := host.toList
  if ':' ∈ characters ∧ (characters.length < 2 ∨ characters.head? ≠ some '[' ∨ characters.getLast? ≠ some ']')
  then "[" ++ host ++ "]" else host

/-- libcurl: which of its calls succeed, the chunks it writes for a request, and how the transfer and the
reading of the HTTP status end. -/
structure Curl where
  initialized : Bool := true
  handle : Bool := true
  url : Bool := true
  acceptsPart : UrlPart → String → Bool := fun _ _ => true
  acceptsOption : CurlOption → Bool := fun _ => true
  perform : Request → List WriteCall × Except String (Option ℤ)

def Curl.setUrlPart (curl : Curl) (part : UrlPart × String) : Except String Unit :=
  if curl.acceptsPart part.1 part.2 then .ok () else .error "invalid sensor discovery URL"

def Curl.setOption (curl : Curl) (option : CurlOption) : Except String Unit :=
  if curl.acceptsOption option then .ok () else .error "failed to configure sensor discovery request"

/-- The parts of the URL of the sensor's page. -/
def urlParts (options : DiscoveryOptions) : List (UrlPart × String) :=
  [(.scheme, "http"), (.host, urlHost options.sensorHost), (.port, toString options.httpPort),
    (.path, "/netftapi2.xml")]

def fixedOptions : List CurlOption :=
  [.url, .protocols "http", .followLocation 0, .maxRedirs 0, .noSignal 1, .proxy ""]

/-- `discover_sensor`, from the options to the configuration. -/
def discoverSensor (options : DiscoveryOptions) (curl : Curl) : Except String SensorConfiguration := do
  validateOptions options
  throwIf (curl.initialized = false) "failed to initialize HTTP transport"
  throwIf (curl.handle = false) "failed to create HTTP transport"
  throwIf (curl.url = false) "failed to create sensor discovery URL"
  (urlParts options).forM curl.setUrlPart
  fixedOptions.forM curl.setOption
  let connectTimeoutMs ← timeoutMilliseconds options.connectTimeout "connect_timeout"
  curl.setOption (.connectTimeoutMs connectTimeoutMs)
  let timeoutMs ← timeoutMilliseconds options.totalTimeout "total_timeout"
  curl.setOption (.timeoutMs timeoutMs)
  [CurlOption.writeFunction, .writeData].forM curl.setOption
  let (calls, transfer) := curl.perform {
    parts := urlParts options
    options := fixedOptions ++ [.connectTimeoutMs connectTimeoutMs, .timeoutMs timeoutMs, .writeFunction,
      .writeData] }
  finishDiscovery parseSensorConfiguration (responseAfter calls) transfer

/-! ## What libcurl has to deliver -/

/-- The request for some options. -/
def requestOf (options : DiscoveryOptions) : Request where
  parts := urlParts options
  options := fixedOptions ++ [.connectTimeoutMs ⌈options.connectTimeout * 1000⌉,
    .timeoutMs ⌈options.totalTimeout * 1000⌉, .writeFunction, .writeData]

/-- The library accepts what a request sets. -/
structure Curl.Takes (curl : Curl) (request : Request) : Prop where
  initialized : curl.initialized = true
  handle : curl.handle = true
  url : curl.url = true
  parts : ∀ part ∈ request.parts, curl.acceptsPart part.1 part.2 = true
  options : ∀ option ∈ request.options, curl.acceptsOption option = true

/-- The whole page, in chunks that are stored, with status 200. -/
structure Curl.Delivers (curl : Curl) (request : Request) (page : List UInt8) : Prop where
  takes : curl.Takes request
  chunks : (curl.perform request).1.flatMap WriteCall.chunk = page
  stored : ∀ call ∈ (curl.perform request).1, call.stored = true
  fits : page.length ≤ 65536
  status : (curl.perform request).2 = .ok (some 200)

/-! ## Options -/

/-- A timeout passes exactly if it is positive and its milliseconds fit a `long`. -/
theorem timeoutMilliseconds_eq_ok_iff {timeout : Seconds} {name : String} {milliseconds : Int} :
    timeoutMilliseconds timeout name = .ok milliseconds ↔
      0 < timeout ∧ ⌈timeout * 1000⌉ ≤ maxLong ∧ milliseconds = ⌈timeout * 1000⌉ := by
  unfold timeoutMilliseconds
  split_ifs with hpos hmax
  · exact ⟨fun h => (by cases h), fun h => absurd h.1 (not_lt.mpr hpos)⟩
  · exact ⟨fun h => (by cases h), fun h => absurd h.2.1 (not_le.mpr hmax)⟩
  · rw [Except.ok.injEq, eq_comm]
    exact ⟨fun h => ⟨not_le.mp hpos, not_lt.mp hmax, h⟩, fun h => h.2.2⟩

/-- Options that pass. -/
structure DiscoveryOptions.Valid (options : DiscoveryOptions) : Prop where
  host : isAsciiBlank options.sensorHost = false
  port : 1 ≤ options.httpPort ∧ options.httpPort ≤ 65535
  connectTimeout : 0 < options.connectTimeout ∧ ⌈options.connectTimeout * 1000⌉ ≤ maxLong
  totalTimeout : 0 < options.totalTimeout ∧ ⌈options.totalTimeout * 1000⌉ ≤ maxLong

/-- The options pass exactly if they are valid. -/
theorem validateOptions_iff {options : DiscoveryOptions} {u : Unit} :
    validateOptions options = .ok u ↔ options.Valid := by
  unfold validateOptions
  constructor
  · intro h
    obtain ⟨_, hhost, h⟩ := bind_eq_ok_iff.mp h
    obtain ⟨_, hport, h⟩ := bind_eq_ok_iff.mp h
    obtain ⟨_, hconnect, h⟩ := bind_eq_ok_iff.mp h
    obtain ⟨_, htotal, -⟩ := bind_eq_ok_iff.mp h
    obtain ⟨hconnect, hconnectMax, -⟩ := timeoutMilliseconds_eq_ok_iff.mp hconnect
    obtain ⟨htotal, htotalMax, -⟩ := timeoutMilliseconds_eq_ok_iff.mp htotal
    have hport := throwIf_eq_ok_iff.mp hport
    push Not at hport
    exact ⟨Bool.eq_false_of_not_eq_true (throwIf_eq_ok_iff.mp hhost), hport, ⟨hconnect, hconnectMax⟩,
      ⟨htotal, htotalMax⟩⟩
  · intro h
    apply bind_eq_ok_iff.mpr ⟨(), throwIf_eq_ok_iff.mpr (by simp [h.host]), ?_⟩
    apply bind_eq_ok_iff.mpr ⟨(), throwIf_eq_ok_iff.mpr (by have := h.port; omega), ?_⟩
    apply bind_eq_ok_iff.mpr ⟨_, timeoutMilliseconds_eq_ok_iff.mpr ⟨h.connectTimeout.1, h.connectTimeout.2, rfl⟩, ?_⟩
    exact bind_eq_ok_iff.mpr ⟨_, timeoutMilliseconds_eq_ok_iff.mpr ⟨h.totalTimeout.1, h.totalTimeout.2, rfl⟩, rfl⟩

/-! ## The body -/

/-- Nothing is flagged if everything fits and is stored, and only then. -/
theorem responseAfter_unflagged_iff (calls : List WriteCall) :
    (responseAfter calls).tooLarge = false ∧ (responseAfter calls).writeFailed = false ↔
      (∀ call ∈ calls, call.stored = true) ∧ (calls.flatMap WriteCall.chunk).length ≤ 65536 := by
  induction calls using List.reverseRecOn with
  | nil => simp [responseAfter]
  | append_singleton calls call ih =>
    have hlength := responseAfter_length calls
    have hstep : (responseAfter (calls ++ [call])).tooLarge = false ∧
        (responseAfter (calls ++ [call])).writeFailed = false ↔
        ((responseAfter calls).tooLarge = false ∧ (responseAfter calls).writeFailed = false) ∧
          call.Fits (responseAfter calls) ∧ call.stored = true := by
      rw [responseAfter_concat]
      by_cases hfits : call.Fits (responseAfter calls)
      · rw [appendResponse_of_fits hlength hfits]
        cases call.stored <;> simp [hfits]
      · rw [appendResponse_of_not_fits hlength hfits]
        simp [hfits]
    rw [hstep, List.flatMap_append, List.length_append, List.flatMap_singleton, WriteCall.length_chunk,
      List.forall_mem_append, List.forall_mem_singleton]
    constructor
    · rintro ⟨hflags, hfits, hstored⟩
      obtain ⟨hall, hle⟩ := ih.mp hflags
      rw [WriteCall.Fits, ResponseBuffer.left, responseAfter_complete calls hflags.1 hflags.2] at hfits
      exact ⟨⟨hall, hstored⟩, by omega⟩
    · rintro ⟨⟨hall, hstored⟩, hle⟩
      have hflags := ih.mpr ⟨hall, by omega⟩
      refine ⟨hflags, ?_, hstored⟩
      rw [WriteCall.Fits, ResponseBuffer.left, responseAfter_complete calls hflags.1 hflags.2]
      omega

/-- A transfer is a page exactly if it is complete, answered with 200 and parses. -/
theorem finishDiscovery_eq_ok_iff {calls : List WriteCall} {transfer : Except String (Option ℤ)}
    {configuration : SensorConfiguration} :
    finishDiscovery parseSensorConfiguration (responseAfter calls) transfer = .ok configuration ↔
      ((∀ call ∈ calls, call.stored = true) ∧ (calls.flatMap WriteCall.chunk).length ≤ 65536) ∧
        transfer = .ok (some 200) ∧
        parseSensorConfiguration (calls.flatMap WriteCall.chunk) = .ok configuration := by
  rw [← responseAfter_unflagged_iff]
  constructor
  · intro h
    obtain ⟨hlarge, hfailed, hparse⟩ := finishDiscovery_ok h
    rw [responseAfter_complete calls hlarge hfailed] at hparse
    refine ⟨⟨hlarge, hfailed⟩, ?_, hparse⟩
    simp only [finishDiscovery, hlarge, hfailed, Bool.false_eq_true, if_false] at h
    split at h
    · cases h
    · cases h
    · split_ifs at h with hstatus
      rw [not_not.mp hstatus]
  · rintro ⟨⟨hlarge, hfailed⟩, rfl, hparse⟩
    rw [← responseAfter_complete calls hlarge hfailed] at hparse
    simp only [finishDiscovery, hlarge, hfailed, Bool.false_eq_true, if_false]
    exact hparse

/-! ## Discovery -/

theorem setUrlPart_eq_ok_iff {curl : Curl} {part : UrlPart × String} :
    curl.setUrlPart part = .ok () ↔ curl.acceptsPart part.1 part.2 = true := by
  unfold Curl.setUrlPart
  split_ifs with h <;> simp [h]

theorem setOption_eq_ok_iff {curl : Curl} {option : CurlOption} {u : Unit} :
    curl.setOption option = .ok u ↔ curl.acceptsOption option = true := by
  unfold Curl.setOption
  split_ifs with h <;> simp [h]

/-- What discovery gives for options that pass. -/
theorem discoverSensor_iff {options : DiscoveryOptions} (h : options.Valid) (curl : Curl)
    (configuration : SensorConfiguration) :
    discoverSensor options curl = .ok configuration ↔
      ∃ page, curl.Delivers (requestOf options) page ∧ parseSensorConfiguration page = .ok configuration := by
  have hconnect : timeoutMilliseconds options.connectTimeout "connect_timeout" = .ok _ :=
    timeoutMilliseconds_eq_ok_iff.mpr ⟨h.connectTimeout.1, h.connectTimeout.2, rfl⟩
  have htotal : timeoutMilliseconds options.totalTimeout "total_timeout" = .ok _ :=
    timeoutMilliseconds_eq_ok_iff.mpr ⟨h.totalTimeout.1, h.totalTimeout.2, rfl⟩
  have hvalid : validateOptions options = .ok () := validateOptions_iff.mpr h
  simp only [discoverSensor, hvalid, hconnect, htotal, bind_eq_ok_iff, throwIf_eq_ok_iff, forM_eq_ok_iff,
    setUrlPart_eq_ok_iff, setOption_eq_ok_iff]
  constructor
  · rintro ⟨_, -, _, hinitialized, _, hhandle, _, hurl, _, hparts, _, hfixed, _, hmilliseconds, _, hconnects, _,
      hmilliseconds', _, htimes, _, hwrites, h⟩
    cases hmilliseconds
    cases hmilliseconds'
    have htakes : curl.Takes (requestOf options) := by
      refine ⟨Bool.eq_true_of_not_eq_false hinitialized, Bool.eq_true_of_not_eq_false hhandle,
        Bool.eq_true_of_not_eq_false hurl, hparts, ?_⟩
      rw [requestOf, List.forall_mem_append, List.forall_mem_cons, List.forall_mem_cons]
      exact ⟨hfixed, hconnects, htimes, hwrites⟩
    obtain ⟨⟨hstored, hfits⟩, hstatus, hparse⟩ := finishDiscovery_eq_ok_iff.mp h
    exact ⟨_, ⟨htakes, rfl, hstored, hfits, hstatus⟩, hparse⟩
  · rintro ⟨page, hdelivers, hparse⟩
    obtain ⟨⟨hinitialized, hhandle, hurl, hparts, hoptions⟩, rfl, hstored, hfits, hstatus⟩ := hdelivers
    rw [requestOf, List.forall_mem_append, List.forall_mem_cons, List.forall_mem_cons] at hoptions
    obtain ⟨hfixed, hconnects, htimes, hwrites⟩ := hoptions
    exact ⟨(), trivial, (), by simp [hinitialized], (), by simp [hhandle], (), by simp [hurl], (), hparts, (), hfixed, _,
      rfl, (), hconnects, _, rfl, (), htimes, (), hwrites,
      finishDiscovery_eq_ok_iff.mpr ⟨⟨hstored, hfits⟩, hstatus, hparse⟩⟩

/-! ## Clients -/

/-- Both spellings of a blank. -/
theorem isAsciiBlank_eq (value : String) : isAsciiBlank value = isBlank value := by
  have hcharacter : ∀ character : Char, (character = ' ' || character = '\t' || character = '\n' ||
      character = '\r' || character.toNat = 0x0c || character.toNat = 0x0b) = isSpace character := by
    intro character
    have hnat : ∀ other : Char, character = other ↔ character.toNat = other.toNat := fun other =>
      Char.toNat_inj.symm
    rw [Bool.eq_iff_iff]
    simp only [hnat, isSpace, Bool.or_eq_true, Bool.and_eq_true, decide_eq_true_eq]
    have hvalues : ' '.toNat = 0x20 ∧ '\t'.toNat = 0x09 ∧ '\n'.toNat = 0x0a ∧ '\r'.toNat = 0x0d := by decide
    omega
  unfold isAsciiBlank isBlank
  simp only [hcharacter]

/-- The options that `configuration_for_session` passes on. -/
def discoveryOptions (config : Config) : DiscoveryOptions where
  sensorHost := config.sensorHost
  httpPort := config.httpPort
  connectTimeout := config.configurationConnectTimeout
  totalTimeout := config.configurationTimeout

/-- The options of a validated client are valid. -/
theorem validateOptions_of_validate {config : Config} {now : TimePoint}
    (h : config.validate now = .ok ()) : (discoveryOptions config).Valid := by
  have hvalid := validate_iff.mp h
  have htimeout : ∀ {value : Seconds}, SafeTimeout now value true → 0 < value ∧ ⌈value * 1000⌉ ≤ maxLong :=
    fun hsafe => ⟨hsafe.pos, (hsafe.http rfl).le⟩
  exact ⟨(isAsciiBlank_eq _).trans hvalid.sensorHost, hvalid.httpPort,
    htimeout hvalid.configurationConnectTimeout, htimeout hvalid.configurationTimeout⟩

/-- **Discovery gives a configuration in exactly the case that a page for it is delivered.** -/
theorem discovery_complete {config : Config} {now : TimePoint} (h : config.validate now = .ok ()) (curl : Curl)
    (configuration : SensorConfiguration) :
    (discoverSensor (discoveryOptions config) curl = .ok configuration ↔
      ∃ f : Forest, curl.Delivers (requestOf (discoveryOptions config)) f.bytes ∧ f.Accepted ∧
        Describes f configuration) ∧
    (Client.configurationForSession config (discoverSensor (discoveryOptions config) curl) = .ok configuration →
      configuration.calibration.Valid) := by
  have hdocument : ∀ {found : SensorConfiguration},
      discoverSensor (discoveryOptions config) curl = .ok found ↔
        ∃ f : Forest, curl.Delivers (requestOf (discoveryOptions config)) f.bytes ∧ f.Accepted ∧
          Describes f found := by
    intro found
    rw [discoverSensor_iff (validateOptions_of_validate h)]
    constructor
    · rintro ⟨page, hdelivers, hparse⟩
      obtain ⟨f, rfl, haccepted⟩ := document_of_parse hparse
      exact ⟨f, hdelivers, haccepted, (parse_bytes_iff haccepted _).mp hparse⟩
    · rintro ⟨f, hdelivers, haccepted, hdescribes⟩
      exact ⟨f.bytes, hdelivers, (parse_bytes_iff haccepted _).mpr hdescribes⟩
  refine ⟨hdocument, fun hsession => ?_⟩
  unfold Client.configurationForSession at hsession
  split at hsession
  · rename_i calibration hoverride
    cases hsession
    exact (validate_iff.mp h).calibration calibration hoverride
  · obtain ⟨f, -, -, hdescribes⟩ := hdocument.mp hsession
    exact hdescribes.valid

/-- A sensor that serves a page in one chunk. -/
def tenthCurl : Curl where
  perform _ :=
    let page := (XmlConfig.pageOf (XmlConfig.fieldTexts XmlConfig.tenthConfiguration)).bytes
    ([{ data := fun index => page.getD index 0, size := 1, count := UInt64.ofNat page.length }], .ok (some 200))

theorem discovery_complete_tenth :
    discoverSensor (discoveryOptions {}) tenthCurl = .ok XmlConfig.tenthConfiguration := by
  have hvalid : ({} : Config).validate 0 = .ok () := by decide +kernel
  apply (discovery_complete hvalid tenthCurl XmlConfig.tenthConfiguration).1.mpr
  refine ⟨_, ⟨⟨rfl, rfl, rfl, fun _ _ => rfl, fun _ _ => rfl⟩, ?_, ?_, ?_, rfl⟩,
    (XmlConfig.accepted_pageOf (XmlConfig.plain_fieldTexts XmlConfig.printable_tenth)).1,
    XmlConfig.describes_pageOf XmlConfig.printable_tenth⟩
  · decide +kernel
  · rintro _ (_ | _)
    · rfl
    · contradiction
  · decide +kernel

end NetFT.Discovery
