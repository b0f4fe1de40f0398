import AIWorld.AiServer.Recovery

/-! Requests for advice between the two servers. The game server prints floats with six digits and the AI server
checks what is printed; only the open end of the range of distances can be lost on the way, and with it the whole
request. -/

namespace AIWorld.AiServer

open Lib Lib.Json
open Lib.Python hiding Value
open Lib.Significant (numberValue sixDigitText isWhole wholeValue)
open Inference (RecoveryAdviceOption RecoveryAdviceRequest RecoveryAdviceResponse adviceFields encodeCodepoint
  integerMember numberMember optionFields parseRecoveryAdvice matchesRecoveryAdvice serializeRecoveryAdvice textMember)
open Recovery

variable {D : Type} {runtime : StrictRuntime D}

/-- What the libraries are known for: texts of JSON are loaded as what they spell, and doubles are the nearest
ones. -/
structure Documented (runtime : StrictRuntime D) : Prop where
  loads : LoadsJson runtime.nearest encodeCodepoint runtime.strictBytes
  doubles : Doubles runtime.floats runtime.nearest

/-! ### Requests within the bounds -/

/-- A float between two numbers, which belong to the range. -/
def Within (low high : ℚ) (f : Float32) : Prop := ∃ q, Binary32.value f = some q ∧ low ≤ q ∧ q ≤ high

/-- Scalars in UTF-8, so many of them. -/
def IsUtf8 (least most : ℕ) (t : Bytes) : Prop :=
  ∃ text, (∀ c ∈ text, Utf8.IsScalar c) ∧ Utf8.encodeAll text = t ∧ least ≤ text.length ∧ text.length ≤ most

def IsOneOf {α : Type} (choices : List (String × α)) (t : Bytes) : Prop := ∃ choice ∈ choices, t = ascii choice.1

structure SatisfiesOption (option : RecoveryAdviceOption) : Prop where
  token : 1 ≤ option.token.toNat ∧ option.token.toNat ≤ 8
  strategy : IsOneOf strategies option.strategy
  x : Within (-30) 30 option.x
  y : Within (-30) 30 option.y
  z : Within (-30) 30 option.z
  distance : ∃ q, Binary32.value option.distance = some q ∧ 1 < q ∧ q ≤ 30
  homeGain : Within (-30) 30 option.homeGain
  nearbyPrey : option.nearbyPrey.toNat ≤ 10000
  visits : option.visits.toNat ≤ 10000
  successes : option.successes.toNat ≤ 10000

/-- The bounds of the AI server, on the numbers and strings of a request. -/
structure Satisfies (request : RecoveryAdviceRequest) : Prop where
  requestId : request.requestId ≠ 0
  agent : request.agent ≠ 0
  episode : request.episode ≠ 0
  role : IsUtf8 1 32 request.role
  problem : IsOneOf problems request.problem
  failure : IsUtf8 0 128 request.failure
  hunger : Within 0 1 request.hunger
  homeDistance : Within 0 10000 request.homeDistance
  failures : request.failures.toNat ≤ 10000
  options : 1 ≤ request.options.length ∧ request.options.length ≤ 8
  option : ∀ option ∈ request.options, SatisfiesOption option
  uniqueTokens : (request.options.map RecoveryAdviceOption.token).Nodup

/-! ### What is read back -/

/-- The number that a float is printed as. -/
def printed (f : Float32) : ℚ := Binary32.rounded ((Binary32.value f).getD 0)

structure ReadsOption (option : RecoveryAdviceOption) (parsed : OptionModel runtime) : Prop where
  token : parsed.token.1 = option.token.toNat
  strategy : ∃ name, (name, parsed.strategy) ∈ strategies ∧ option.strategy = ascii name
  dx : parsed.dx.1 = runtime.nearest (printed option.x)
  dy : parsed.dy.1 = runtime.nearest (printed option.y)
  dz : parsed.dz.1 = runtime.nearest (printed option.z)
  distance : parsed.distance.1 = runtime.nearest (printed option.distance)
  homeGain : parsed.homeGain.1 = runtime.nearest (printed option.homeGain)
  nearbyPrey : parsed.nearbyPrey.1 = option.nearbyPrey.toNat
  visits : parsed.visits.1 = option.visits.toNat
  successes : parsed.successes.1 = option.successes.toNat

/-- Every integer and string as it was, and every float as it was printed. -/
structure ReadsBack (request : RecoveryAdviceRequest) (parsed : RecoveryRequest runtime) : Prop where
  requestId : parsed.requestId.1 = request.requestId.toNat
  agent : parsed.agentId.1 = request.agent.toNat
  episode : parsed.episode.1 = request.episode.toNat
  role : Utf8.encodeAll parsed.role.1 = request.role
  problem : ∃ name, (name, parsed.problem) ∈ problems ∧ request.problem = ascii name
  failure : Utf8.encodeAll parsed.failure.1 = request.failure
  hunger : parsed.hunger.1 = runtime.nearest (printed request.hunger)
  homeDistance : parsed.homeDistance.1 = runtime.nearest (printed request.homeDistance)
  stalledMs : parsed.stalledMs.1 = request.stalledMs.toNat
  failures : parsed.failures.1 = request.failures.toNat
  options : List.Forall₂ ReadsOption request.options parsed.options

/-! ### Loading -/

section Loading
variable (runtime)

def textValue (t : Bytes) : Python.Value D := .str ((decodeText t).getD [])

def floatValue (f : Float32) : Python.Value D := numberOf runtime.nearest (Binary32.text f)

def optionValue (option : RecoveryAdviceOption) : Python.Value D := record
  [("token", .int option.token.toNat), ("strategy", textValue option.strategy), ("dx", floatValue runtime option.x),
    ("dy", floatValue runtime option.y), ("dz", floatValue runtime option.z),
    ("distance", floatValue runtime option.distance), ("home_gain", floatValue runtime option.homeGain),
    ("nearby_prey", .int option.nearbyPrey.toNat), ("visits", .int option.visits.toNat),
    ("successes", .int option.successes.toNat)]

/-- What the text of a request is loaded as. -/
def adviceValue (request : RecoveryAdviceRequest) : Python.Value D := record
  [("protocol_version", .int 1), ("request_id", .int request.requestId.toNat), ("agent_id", .int request.agent.toNat),
    ("episode", .int request.episode.toNat), ("role", textValue request.role), ("problem", textValue request.problem),
    ("failure", textValue request.failure), ("hunger", floatValue runtime request.hunger),
    ("home_distance", floatValue runtime request.homeDistance), ("stalled_ms", .int request.stalledMs.toNat),
    ("failures", .int request.failures.toNat), ("options", .list (request.options.map (optionValue runtime)))]

variable {runtime}

theorem loads_integer {key : String} (hkey : IsAscii key) {n : ℕ} (hn : n < 2 ^ 64) :
    Loads runtime.nearest (integerMember key n) (key, .int n) := by
  have hdigits := (isDigits_decimal n).2
  obtain ⟨c, tail, hcons, hc⟩ := (isDigits_decimal n).exists_cons
  have hhead : ∀ d : UInt8, isDigit d = false → (decimal n).head? ≠ some d := by
    intro d hd hhead
    rw [hcons, List.head?_cons, Option.some.injEq] at hhead
    rw [hhead, hd] at hc
    contradiction
  have hwhole : isWhole (decimal n) = true := by
    rw [isWhole, if_neg (hhead _ (by decide))]
    exact List.all_eq_true.mpr hdigits
  have hvalue : wholeValue (decimal n) = n := by
    rw [wholeValue, Significant.signed, if_neg (hhead _ (by decide)), if_neg (hhead _ (by decide)), digitsValue_decimal]
  have hlength := Significant.length_decimal_le (by decide : 1 ≤ 20) (lt_trans hn (by norm_num) : n < 10 ^ 20)
  refine ⟨rfl, hkey, ?_⟩
  change load runtime.nearest (.number (decimal n)) = some (.int n)
  rw [load, if_neg (by rw [maxDigits]; omega), numberOf, if_pos hwhole, hvalue]

theorem loads_text {key : String} (hkey : IsAscii key) {t : Bytes} (ht : (decodeText t).isSome = true) :
    Loads runtime.nearest (textMember key t) (key, textValue t) := by
  obtain ⟨text, htext⟩ := Option.isSome_iff_exists.mp ht
  refine ⟨rfl, hkey, ?_⟩
  change load runtime.nearest (.string t) = some (textValue t)
  rw [load, textValue, htext, Option.map_some, Option.getD_some]

theorem loads_float {key : String} (hkey : IsAscii key) {f : Float32} (hf : (Binary32.value f).isSome = true) :
    Loads runtime.nearest (numberMember key (Binary32.text f)) (key, floatValue runtime f) := by
  obtain ⟨q, hq⟩ := Option.isSome_iff_exists.mp hf
  obtain ⟨negative, magnitude, -, htext, -⟩ := Binary32.exists_text hq
  refine ⟨rfl, hkey, ?_⟩
  change load runtime.nearest (.number (Binary32.text f)) = some (floatValue runtime f)
  rw [load, if_neg, floatValue]
  rintro ⟨hwhole, hlong⟩
  rw [htext] at hwhole hlong
  have hlength := Significant.length_sixDigitText hwhole
  rw [maxDigits] at hlong
  omega

theorem decodeText_of_isUtf8 {least most : ℕ} {t : Bytes} (h : IsUtf8 least most t) : (decodeText t).isSome = true := by
  obtain ⟨text, htext, rfl, -⟩ := h
  rw [decodeText_encodeAll htext, Option.isSome_some]

theorem isAscii_of_isOneOf {α : Type} {choices : List (String × α)} {t : Bytes} (h : IsOneOf choices t)
    (hchoices : ∀ choice ∈ choices, IsAscii choice.1) : ∃ choice ∈ choices, t = ascii choice.1 ∧
      textValue (D := D) t = .str (codePoints choice.1) ∧ (decodeText t).isSome = true := by
  obtain ⟨choice, hchoice, rfl⟩ := h
  have hdecode := decodeText_ascii (hchoices choice hchoice)
  exact ⟨choice, hchoice, rfl, by rw [textValue, hdecode, Option.getD_some], by rw [hdecode, Option.isSome_some]⟩

theorem Within.isSome {low high : ℚ} {f : Float32} (h : Within low high f) : (Binary32.value f).isSome = true := by
  obtain ⟨q, hq, -⟩ := h
  rw [hq, Option.isSome_some]

theorem loads_option {option : RecoveryAdviceOption} (h : SatisfiesOption option) :
    List.Forall₂ (Loads runtime.nearest) (optionFields option) [("token", .int option.token.toNat),
      ("strategy", textValue option.strategy), ("dx", floatValue runtime option.x),
      ("dy", floatValue runtime option.y), ("dz", floatValue runtime option.z),
      ("distance", floatValue runtime option.distance), ("home_gain", floatValue runtime option.homeGain),
      ("nearby_prey", .int option.nearbyPrey.toNat), ("visits", .int option.visits.toNat),
      ("successes", .int option.successes.toNat)] := by
  have hwide (n : UInt32) : n.toNat < 2 ^ 64 := lt_trans n.toNat_lt (by decide)
  obtain ⟨q, hdistance, -⟩ := h.distance
  obtain ⟨-, -, -, -, hstrategy⟩ := isAscii_of_isOneOf (D := D) h.strategy (by decide)
  exact .cons (loads_integer (by decide) (hwide _)) <| .cons (loads_text (by decide) hstrategy) <|
    .cons (loads_float (by decide) h.x.isSome) <| .cons (loads_float (by decide) h.y.isSome) <|
    .cons (loads_float (by decide) h.z.isSome) <|
    .cons (loads_float (by decide) (by rw [hdistance, Option.isSome_some])) <|
    .cons (loads_float (by decide) h.homeGain.isSome) <| .cons (loads_integer (by decide) (hwide _)) <|
    .cons (loads_integer (by decide) (hwide _)) <| .cons (loads_integer (by decide) (hwide _)) .nil

theorem load_advice {request : RecoveryAdviceRequest} (h : Satisfies request) :
    load runtime.nearest (.object ((adviceFields request).map Field.member)) = some (adviceValue runtime request) := by
  have hwide (n : UInt32) : n.toNat < 2 ^ 64 := lt_trans n.toNat_lt (by decide)
  obtain ⟨-, -, -, -, hproblem⟩ := isAscii_of_isOneOf (D := D) h.problem (by decide)
  have hoptions : load runtime.nearest (Inference.arrayMember "options" optionFields request.options).value =
      some (.list (request.options.map (optionValue runtime))) :=
    load_items fun option hoption => load_record (loads_option (h.option option hoption))
  exact load_record <| .cons (loads_integer (by decide) (by decide)) <|
    .cons (loads_integer (by decide) request.requestId.toNat_lt) <|
    .cons (loads_integer (by decide) request.agent.toNat_lt) <|
    .cons (loads_integer (by decide) request.episode.toNat_lt) <|
    .cons (loads_text (by decide) (decodeText_of_isUtf8 h.role)) <| .cons (loads_text (by decide) hproblem) <|
    .cons (loads_text (by decide) (decodeText_of_isUtf8 h.failure)) <|
    .cons (loads_float (by decide) h.hunger.isSome) <| .cons (loads_float (by decide) h.homeDistance.isSome) <|
    .cons (loads_integer (by decide) request.stalledMs.toNat_lt) <| .cons (loads_integer (by decide) (hwide _)) <|
    .cons ⟨rfl, (by decide : IsAscii "options"), hoptions⟩ .nil

theorem isText_of_satisfies {request : RecoveryAdviceRequest} (h : Satisfies request) :
    IsText encodeCodepoint 100 (serializeRecoveryAdvice request) (.object ((adviceFields request).map Field.member)) := by
  have hfinite : Inference.FiniteAdvice request := by
    refine ⟨h.hunger.isSome, h.homeDistance.isSome, fun option hoption => ?_⟩
    have hoption := h.option option hoption
    obtain ⟨q, hdistance, -⟩ := hoption.distance
    simp only [Inference.FiniteOption, List.forall_mem_cons]
    exact ⟨hoption.x.isSome, hoption.y.isSome, hoption.z.isSome, by rw [hdistance, Option.isSome_some],
      hoption.homeGain.isSome, by simp⟩
  have htext : IsText encodeCodepoint (96 + 4) (serializeRecoveryAdvice request) _ := Inference.isText_advice hfinite
  exact htext

/-- The text of a request within the bounds is loaded, with nothing lost but the digits that are not printed. -/
theorem strictBytes_advice (hdocumented : Documented runtime) {request : RecoveryAdviceRequest} (h : Satisfies request) :
    runtime.strictBytes (serializeRecoveryAdvice request) = .ok (adviceValue runtime request) :=
  hdocumented.loads _ _ _ (isText_of_satisfies h) (load_advice h)

end Loading

/-! ### Checking -/

section Checking
variable (hdocumented : Documented runtime)

theorem strictInt_of_le {low high n : ℕ} (h : low ≤ n ∧ n ≤ high) :
    ∃ r : Ranged low high, strictInt low high (.int n : Python.Value D) = some r ∧ r.1 = n :=
  ⟨⟨n, h⟩, dif_pos ⟨h.1, h.2, Int.natCast_nonneg n⟩, rfl⟩

theorem strictText_of_isUtf8 {least most : ℕ} {t : Bytes} (h : IsUtf8 least most t) :
    ∃ r : Text least most, strictText least most (textValue t : Python.Value D) = some r ∧ Utf8.encodeAll r.1 = t := by
  obtain ⟨text, htext, rfl, hlength⟩ := h
  refine ⟨⟨text, htext, hlength⟩, ?_, rfl⟩
  rw [textValue, decodeText_encodeAll htext]
  exact dif_pos ⟨htext, hlength⟩

theorem oneOf_of_isOneOf {α : Type} {choices : List (String × α)} {t : Bytes} (h : IsOneOf choices t)
    (hchoices : ∀ choice ∈ choices, IsAscii choice.1 ∧
      (choices.find? fun other => codePoints other.1 = codePoints choice.1) = some choice) :
    ∃ r, oneOf choices (textValue t : Python.Value D) = some r ∧ ∃ name, (name, r) ∈ choices ∧ t = ascii name := by
  obtain ⟨choice, hchoice, ht, hvalue, -⟩ := isAscii_of_isOneOf (D := D) h fun choice hmem => (hchoices choice hmem).1
  refine ⟨choice.2, ?_, choice.1, hchoice, ht⟩
  rw [hvalue, oneOf, (hchoices choice hchoice).2, Option.map_some]

include hdocumented

/-- A float is checked as the number that it is printed as. -/
theorem strictFloat_printed {f : Float32} {q : ℚ} (hq : Binary32.value f = some q) (hlow : -10000 ≤ q)
    (hhigh : q ≤ 10000) (accepts : D → Bool) :
    strictFloat runtime.floats accepts (floatValue runtime f) =
      finite runtime.floats accepts (runtime.nearest (printed f)) ∧
      runtime.floats.isFinite (runtime.nearest (printed f)) = true := by
  obtain ⟨-, -, -, -, hvalue⟩ := Binary32.exists_text hq
  have hprinted : printed f = Binary32.rounded q := by rw [printed, hq, Option.getD_some]
  have hle : Binary32.rounded q ≤ (10000 : ℕ) := Binary32.rounded_le (by decide) (by exact_mod_cast hhigh)
  have hge : -((10000 : ℕ) : ℚ) ≤ Binary32.rounded q := Binary32.neg_le_rounded (by decide) (by exact_mod_cast hlow)
  push_cast at hle hge
  rw [floatValue, hprinted, ← hvalue] at *
  exact ⟨strictFloat_numberOf hdocumented.doubles (by linarith) (by linarith) accepts,
    hdocumented.doubles.isFinite _ (by linarith) (by linarith)⟩

/-- Ends that belong to the range are not passed by rounding. -/
theorem strictFloat_within {low high : ℚ} {m n : ℕ} (hlow : low = -m) (hhigh : high = n) (hm : m ≤ 10000)
    (hn : n ≤ 10000) {f : Float32} (h : Within low high f) :
    ∃ r : Between runtime low high, strictFloat runtime.floats _ (floatValue runtime f) = some r ∧
      r.1 = runtime.nearest (printed f) := by
  obtain ⟨q, hq, hle, hge⟩ := h
  subst hlow hhigh
  have hm' : (m : ℚ) ≤ 10000 := by exact_mod_cast hm
  have hn' : (n : ℚ) ≤ 10000 := by exact_mod_cast hn
  obtain ⟨hstrict, hfinite⟩ := strictFloat_printed hdocumented hq (by linarith) (by linarith)
    (within runtime (-m) n)
  have hprinted : printed f = Binary32.rounded q := by rw [printed, hq, Option.getD_some]
  have haccepts : within runtime (-m) n (runtime.nearest (printed f)) = true := by
    rw [within, Bool.and_eq_true, hprinted]
    exact ⟨hdocumented.doubles.le_of_le _ _ (Binary32.neg_le_rounded (by omega) hle),
      hdocumented.doubles.le_of_le _ _ (Binary32.rounded_le (by omega) hge)⟩
  exact ⟨⟨_, hfinite, haccepts⟩, hstrict.trans (dif_pos ⟨hfinite, haccepts⟩), rfl⟩

omit hdocumented in
theorem isShort_rounded {q : ℚ} (hlow : 1 ≤ q) (hhigh : q ≤ 30) : IsShort (Binary32.rounded q) := by
  have hpos : 0 < q := by linarith
  have hlog : 0 ≤ Int.log 10 q := (Int.zpow_le_iff_le_log (by decide) hpos).mp (by simpa using hlow)
  have hlog' : Int.log 10 q < 2 := by
    refine (Int.lt_zpow_iff_log_lt (by decide) hpos).mp ?_
    norm_num
    linarith
  have hdigits := Significant.digits_le q
  rw [Binary32.rounded, if_neg (not_lt.mpr hpos.le)]
  exact ⟨_, _, lt_of_le_of_lt hdigits (by norm_num), by omega, by omega, rfl⟩

omit hdocumented in
theorem isShort_one : IsShort 1 := ⟨1, 0, by norm_num, by norm_num, by norm_num, by norm_num⟩

/-- The end that does not belong to the range can be reached by rounding. -/
theorem strictFloat_above {f : Float32} (h : ∃ q, Binary32.value f = some q ∧ 1 < q ∧ q ≤ 30) :
    (1 < printed f → ∃ r : Above runtime 1 30, strictFloat runtime.floats _ (floatValue runtime f) = some r ∧
      r.1 = runtime.nearest (printed f)) ∧
    (¬1 < printed f → strictFloat runtime.floats (above runtime 1 30) (floatValue runtime f) = none) := by
  obtain ⟨q, hq, hgt, hle⟩ := h
  obtain ⟨hstrict, hfinite⟩ := strictFloat_printed hdocumented hq (by linarith) (by linarith) (above runtime 1 30)
  have hprinted : printed f = Binary32.rounded q := by rw [printed, hq, Option.getD_some]
  have hshort : IsShort (printed f) := hprinted ▸ isShort_rounded hgt.le hle
  have hhigh : printed f ≤ (30 : ℕ) := hprinted ▸ Binary32.rounded_le (by decide) (by exact_mod_cast hle)
  have haccepts : above runtime 1 30 (runtime.nearest (printed f)) = true ↔ 1 < printed f := by
    have hend := hdocumented.doubles.le_of_le _ _ hhigh
    rw [above, Bool.and_eq_true, hdocumented.doubles.lt_iff _ _ isShort_one hshort]
    exact ⟨And.left, fun h => ⟨h, by exact_mod_cast hend⟩⟩
  constructor
  · intro h
    exact ⟨⟨_, hfinite, haccepts.mpr h⟩, hstrict.trans (dif_pos ⟨hfinite, haccepts.mpr h⟩), rfl⟩
  · intro h
    exact hstrict.trans (dif_neg fun hboth => h (haccepts.mp hboth.2))

omit hdocumented in
theorem bind_of {α β : Type} {x : Option α} {a : α} {f : α → Option β} (h : x = some a) : (x >>= f) = f a := by
  rw [h]
  rfl

omit hdocumented in
/-- The fields of a dictionary, each under its own name. -/
theorem fields_record (names : List String) (named : List (String × Python.Value D)) (hnames : named.map Prod.fst = names) :
    ∃ members, model names (record named) = some members ∧ ∀ {α : Type} {name : String} {v : Python.Value D}
      (_ : named.lookup name = some v) (check : Python.Value D → Option α), field members name check = check v := by
  refine ⟨_, model_record fun m hm => ?_, fun hlookup check => ?_⟩
  · rw [← hnames]
    exact List.mem_map_of_mem hm
  · rw [field_record, hlookup, Option.bind_some]

theorem modelValidate_option {option : RecoveryAdviceOption} (h : SatisfiesOption option) :
    (1 < printed option.distance → ∃ parsed, OptionModel.modelValidate runtime (optionValue runtime option) = some parsed ∧
      ReadsOption option parsed) ∧
    (¬1 < printed option.distance → OptionModel.modelValidate runtime (optionValue runtime option) = none) := by
  obtain ⟨token, htoken, htoken'⟩ := strictInt_of_le (D := D) h.token
  obtain ⟨strategy, hstrategy, hstrategy'⟩ := oneOf_of_isOneOf (D := D) h.strategy (by decide)
  obtain ⟨dx, hdx, hdx'⟩ := strictFloat_within hdocumented (m := 30) (n := 30) (by norm_num) (by norm_num)
    (by decide) (by decide) h.x
  obtain ⟨dy, hdy, hdy'⟩ := strictFloat_within hdocumented (m := 30) (n := 30) (by norm_num) (by norm_num)
    (by decide) (by decide) h.y
  obtain ⟨dz, hdz, hdz'⟩ := strictFloat_within hdocumented (m := 30) (n := 30) (by norm_num) (by norm_num)
    (by decide) (by decide) h.z
  obtain ⟨gain, hgain, hgain'⟩ := strictFloat_within hdocumented (m := 30) (n := 30) (by norm_num) (by norm_num)
    (by decide) (by decide) h.homeGain
  obtain ⟨prey, hprey, hprey'⟩ := strictInt_of_le (D := D) ⟨Nat.zero_le _, h.nearbyPrey⟩
  obtain ⟨visits, hvisits, hvisits'⟩ := strictInt_of_le (D := D) ⟨Nat.zero_le _, h.visits⟩
  obtain ⟨successes, hsuccesses, hsuccesses'⟩ := strictInt_of_le (D := D) ⟨Nat.zero_le _, h.successes⟩
  obtain ⟨hkept, hlost⟩ := strictFloat_above hdocumented h.distance
  obtain ⟨members, hmodel, hfield⟩ := fields_record (D := D) ["token", "strategy", "dx", "dy", "dz", "distance",
    "home_gain", "nearby_prey", "visits", "successes"] [("token", .int option.token.toNat),
      ("strategy", textValue option.strategy), ("dx", floatValue runtime option.x),
      ("dy", floatValue runtime option.y), ("dz", floatValue runtime option.z),
      ("distance", floatValue runtime option.distance), ("home_gain", floatValue runtime option.homeGain),
      ("nearby_prey", .int option.nearbyPrey.toNat), ("visits", .int option.visits.toNat),
      ("successes", .int option.successes.toNat)] rfl
  replace htoken : field members "token" (strictInt 1 8) = some token := (hfield rfl _).trans htoken
  replace hstrategy : field members "strategy" (oneOf strategies) = some strategy := (hfield rfl _).trans hstrategy
  replace hdx : field members "dx" (strictFloat runtime.floats _) = some dx := (hfield rfl _).trans hdx
  replace hdy : field members "dy" (strictFloat runtime.floats _) = some dy := (hfield rfl _).trans hdy
  replace hdz : field members "dz" (strictFloat runtime.floats _) = some dz := (hfield rfl _).trans hdz
  replace hgain : field members "home_gain" (strictFloat runtime.floats _) = some gain := (hfield rfl _).trans hgain
  replace hprey : field members "nearby_prey" (strictInt 0 10000) = some prey := (hfield rfl _).trans hprey
  replace hvisits : field members "visits" (strictInt 0 10000) = some visits := (hfield rfl _).trans hvisits
  replace hsuccesses : field members "successes" (strictInt 0 10000) = some successes :=
    (hfield rfl _).trans hsuccesses
  rw [OptionModel.modelValidate, optionValue, bind_of hmodel, bind_of htoken, bind_of hstrategy, bind_of hdx,
    bind_of hdy, bind_of hdz]
  constructor
  · intro hdistance
    obtain ⟨distance, hdistance, hdistance'⟩ := hkept hdistance
    replace hdistance : field members "distance" (strictFloat runtime.floats _) = some distance :=
      (hfield rfl _).trans hdistance
    refine ⟨⟨token, strategy, dx, dy, dz, distance, gain, prey, visits, successes⟩, ?_,
      ⟨htoken', hstrategy', hdx', hdy', hdz', hdistance', hgain', hprey', hvisits', hsuccesses'⟩⟩
    rw [bind_of hdistance, bind_of hgain, bind_of hprey, bind_of hvisits, bind_of hsuccesses]
  · intro hdistance
    have hnone : field members "distance" (strictFloat runtime.floats (above runtime 1 30)) = none :=
      (hfield rfl _).trans (hlost hdistance)
    rw [hnone]
    rfl

theorem mapM_options {options : List RecoveryAdviceOption} (h : ∀ option ∈ options, SatisfiesOption option) :
    ((∀ option ∈ options, 1 < printed option.distance) →
      ∃ parsed, (options.map (optionValue runtime)).mapM (OptionModel.modelValidate runtime) = some parsed ∧
        List.Forall₂ ReadsOption options parsed) ∧
    ((options.map (optionValue runtime)).mapM (OptionModel.modelValidate runtime) ≠ none →
      ∀ option ∈ options, 1 < printed option.distance) := by
  induction options with
  | nil => exact ⟨fun _ => ⟨[], rfl, .nil⟩, fun _ _ hoption => by contradiction⟩
  | cons option options ih =>
    obtain ⟨hoption, hrest⟩ := List.forall_mem_cons.mp h
    obtain ⟨hkept, hlost⟩ := modelValidate_option hdocumented hoption
    obtain ⟨hread, hall⟩ := ih hrest
    rw [List.map_cons, List.mapM_cons]
    constructor
    · intro hdistances
      obtain ⟨hdistance, hdistances⟩ := List.forall_mem_cons.mp hdistances
      obtain ⟨parsed, hparsed, hreads⟩ := hkept hdistance
      obtain ⟨rest, hrest, hreads'⟩ := hread hdistances
      exact ⟨parsed :: rest, by rw [hparsed, hrest]; rfl, .cons hreads hreads'⟩
    · intro hsome
      by_cases hdistance : 1 < printed option.distance
      · refine List.forall_mem_cons.mpr ⟨hdistance, hall fun hnone => hsome ?_⟩
        obtain ⟨parsed, hparsed, -⟩ := hkept hdistance
        rw [hparsed, hnone]
        rfl
      · rw [hlost hdistance] at hsome
        exact absurd rfl hsome

omit hdocumented in
theorem nodup_tokens {options : List RecoveryAdviceOption} {parsed : List (OptionModel runtime)}
    (h : List.Forall₂ ReadsOption options parsed) :
    parsed.map (fun option => option.token.1) = options.map fun option => option.token.toNat := by
  induction h with
  | nil => rfl
  | cons hoption _ ih => rw [List.map_cons, List.map_cons, ih, hoption.token]

/-- A request within the bounds is validated and read back exactly if all its distances are printed as more than
one. -/
theorem modelValidate_advice {request : RecoveryAdviceRequest} (h : Satisfies request) :
    ((∀ option ∈ request.options, 1 < printed option.distance) → ∃ parsed,
      RecoveryRequest.modelValidate runtime (adviceValue runtime request) = some parsed ∧ ReadsBack request parsed) ∧
    (∀ parsed, RecoveryRequest.modelValidate runtime (adviceValue runtime request) = some parsed →
      ∀ option ∈ request.options, 1 < printed option.distance) := by
  have hpositive {n : UInt64} (hn : n ≠ 0) : 1 ≤ n.toNat ∧ n.toNat ≤ uint64Max := by
    have hne : n.toNat ≠ 0 := fun hzero => hn (UInt64.toNat_inj.mp hzero)
    have hlt := n.toNat_lt
    exact ⟨by omega, Nat.le_sub_one_of_lt hlt⟩
  obtain ⟨version, hversion, -⟩ := strictInt_of_le (D := D) (⟨le_rfl, le_rfl⟩ : 1 ≤ 1 ∧ 1 ≤ 1)
  obtain ⟨requestId, hrequestId, hrequestId'⟩ := strictInt_of_le (D := D) (hpositive h.requestId)
  obtain ⟨agent, hagent, hagent'⟩ := strictInt_of_le (D := D) (hpositive h.agent)
  obtain ⟨episode, hepisode, hepisode'⟩ := strictInt_of_le (D := D) (hpositive h.episode)
  obtain ⟨role, hrole, hrole'⟩ := strictText_of_isUtf8 (D := D) h.role
  obtain ⟨problem, hproblem, hproblem'⟩ := oneOf_of_isOneOf (D := D) h.problem (by decide)
  obtain ⟨failure, hfailure, hfailure'⟩ := strictText_of_isUtf8 (D := D) h.failure
  obtain ⟨hunger, hhunger, hhunger'⟩ := strictFloat_within hdocumented (m := 0) (n := 1) (by norm_num) (by norm_num)
    (by decide) (by decide) h.hunger
  obtain ⟨home, hhome, hhome'⟩ := strictFloat_within hdocumented (m := 0) (n := 10000) (by norm_num) (by norm_num)
    (by decide) (by decide) h.homeDistance
  obtain ⟨stalled, hstalled, hstalled'⟩ := strictInt_of_le (D := D)
    (⟨Nat.zero_le _, Nat.le_sub_one_of_lt request.stalledMs.toNat_lt⟩ :
      0 ≤ request.stalledMs.toNat ∧ request.stalledMs.toNat ≤ uint64Max)
  obtain ⟨failures, hfailures, hfailures'⟩ := strictInt_of_le (D := D) ⟨Nat.zero_le _, h.failures⟩
  obtain ⟨hkept, hneeded⟩ := mapM_options hdocumented h.option
  obtain ⟨members, hmodel, hfield⟩ := fields_record (D := D) ["protocol_version", "request_id", "agent_id", "episode",
    "role", "problem", "failure", "hunger", "home_distance", "stalled_ms", "failures", "options"]
    [("protocol_version", .int 1), ("request_id", .int request.requestId.toNat), ("agent_id", .int request.agent.toNat),
      ("episode", .int request.episode.toNat), ("role", textValue request.role), ("problem", textValue request.problem),
      ("failure", textValue request.failure), ("hunger", floatValue runtime request.hunger),
      ("home_distance", floatValue runtime request.homeDistance), ("stalled_ms", .int request.stalledMs.toNat),
      ("failures", .int request.failures.toNat), ("options", .list (request.options.map (optionValue runtime)))] rfl
  replace hversion : field members "protocol_version" (strictInt 1 1) = some version := (hfield rfl _).trans hversion
  replace hrequestId : field members "request_id" (strictInt 1 uint64Max) = some requestId :=
    (hfield rfl _).trans hrequestId
  replace hagent : field members "agent_id" (strictInt 1 uint64Max) = some agent := (hfield rfl _).trans hagent
  replace hepisode : field members "episode" (strictInt 1 uint64Max) = some episode := (hfield rfl _).trans hepisode
  replace hrole : field members "role" (strictText 1 32) = some role := (hfield rfl _).trans hrole
  replace hproblem : field members "problem" (oneOf problems) = some problem := (hfield rfl _).trans hproblem
  replace hfailure : field members "failure" (strictText 0 128) = some failure := (hfield rfl _).trans hfailure
  replace hhunger : field members "hunger" (strictFloat runtime.floats _) = some hunger := (hfield rfl _).trans hhunger
  replace hhome : field members "home_distance" (strictFloat runtime.floats _) = some home := (hfield rfl _).trans hhome
  replace hstalled : field members "stalled_ms" (strictInt 0 uint64Max) = some stalled := (hfield rfl _).trans hstalled
  replace hfailures : field members "failures" (strictInt 0 10000) = some failures := (hfield rfl _).trans hfailures
  have hlength : 1 ≤ (request.options.map (optionValue runtime)).length ∧
      (request.options.map (optionValue runtime)).length ≤ 8 := by rw [List.length_map]; exact h.options
  have hoptions : field members "options" (listOf 1 8 (OptionModel.modelValidate runtime)) =
      (request.options.map (optionValue runtime)).mapM (OptionModel.modelValidate runtime) :=
    (hfield (v := .list (request.options.map (optionValue runtime))) rfl _).trans (if_pos hlength)
  rw [RecoveryRequest.modelValidate, adviceValue, bind_of hmodel, bind_of hversion, bind_of hrequestId, bind_of hagent,
    bind_of hepisode, bind_of hrole, bind_of hproblem, bind_of hfailure, bind_of hhunger, bind_of hhome,
    bind_of hstalled, bind_of hfailures, hoptions]
  constructor
  · intro hdistances
    obtain ⟨options, hparsed, hreads⟩ := hkept hdistances
    have hunique : (options.map fun option => option.token.1).Nodup := by
      rw [nodup_tokens hreads]
      have hinjective : Function.Injective UInt32.toNat := fun _ _ => UInt32.toNat_inj.mp
      have hmap := h.uniqueTokens.map hinjective
      rwa [List.map_map] at hmap
    refine ⟨⟨version, requestId, agent, episode, role, problem, failure, hunger, home, stalled, failures, options,
      hunique⟩, ?_, ⟨hrequestId', hagent', hepisode', hrole', hproblem', hfailure', hhunger', hhome', hstalled',
        hfailures', hreads⟩⟩
    rw [bind_of hparsed, dif_pos hunique]
  · intro parsed hparsed
    refine hneeded fun hnone => ?_
    rw [hnone] at hparsed
    exact Option.some_ne_none _ hparsed.symm

end Checking

/-! ### Answers -/

theorem readBounded_flatten {limit : ℤ} {chunks : List Bytes} {body body' : Bytes}
    (h : readBounded limit body chunks = some body') : body' = body ++ chunks.flatten := by
  induction chunks generalizing body with
  | nil =>
    cases h
    simp
  | cons chunk rest ih =>
    rw [readBounded, Option.ite_none_left_eq_some] at h
    rw [ih h.2, List.flatten_cons, List.append_assoc]

theorem receiveRecovery_ok {chunks : List Bytes} {request : RecoveryRequest runtime}
    (h : receiveRecovery runtime chunks = .ok request) : ∃ payload, runtime.strictBytes chunks.flatten = .ok payload ∧
      RecoveryRequest.modelValidate runtime payload = some request := by
  unfold receiveRecovery at h
  split at h
  · contradiction
  rename_i body hbody
  rw [readBounded_flatten hbody, List.nil_append] at h
  split at h
  · contradiction
  · contradiction
  rename_i payload hpayload
  split at h
  · contradiction
  rename_i parsed hparsed
  cases h
  exact ⟨payload, hpayload, hparsed⟩

/-- A choice is one of the offered tokens, or none of them. -/
theorem choose_ok {config : ModelProviderConfig} {request : RecoveryRequest runtime}
    {answer : Option (Except HttpxError ProviderAnswer)} {choice : Ranged 0 8}
    (h : choose runtime config request answer = .ok choice) :
    choice.1 = 0 ∨ choice.1 ∈ request.options.map fun option => option.token.1 := by
  unfold choose at h
  split at h
  · contradiction
  split at h
  · contradiction
  · contradiction
  · contradiction
  split at h
  · contradiction
  · contradiction
  split at h
  · contradiction
  split_ifs at h with hunknown
  cases h
  rw [not_and_or, not_not, not_not] at hunknown
  exact hunknown

theorem recovery_ok {config : ModelProviderConfig} {locked : Bool}
    {backend : RecoveryRequest runtime → Option (Except HttpxError ProviderAnswer)} {chunks : List Bytes}
    {answer : RecoveryAnswer} (h : recovery runtime config locked backend chunks = .ok answer) :
    ∃ parsed choice, receiveRecovery runtime chunks = .ok parsed ∧
      choose runtime config parsed (backend parsed) = .ok choice ∧
      answer = ⟨parsed.requestId, parsed.agentId, parsed.episode, choice⟩ := by
  unfold recovery at h
  cases hparsed : receiveRecovery runtime chunks with
  | error error =>
    rw [hparsed] at h
    contradiction
  | ok parsed =>
    rw [hparsed] at h
    change (if _ then _ else _) = _ at h
    split_ifs at h
    cases hchoice : choose runtime config parsed (backend parsed) with
    | error error =>
      rw [hchoice] at h
      contradiction
    | ok choice =>
      rw [hchoice] at h
      cases h
      exact ⟨parsed, choice, rfl, hchoice, rfl⟩

/-- What is answered with status 200 is read by the game server and belongs to the request. -/
theorem matches_answer {request : RecoveryAdviceRequest} (h : Satisfies request) {parsed : RecoveryRequest runtime}
    (hreads : ReadsBack request parsed) {choice : Ranged 0 8}
    (hchoice : choice.1 = 0 ∨ choice.1 ∈ parsed.options.map fun option => option.token.1) :
    ∃ response, parseRecoveryAdvice
        (RecoveryAnswer.body ⟨parsed.requestId, parsed.agentId, parsed.episode, choice⟩) = some response ∧
      matchesRecoveryAdvice request response = true := by
  have hsmall := choice.2.2
  have htoken : choice.1.toUInt32.toNat = choice.1 := by
    rw [Nat.toUInt32_eq, UInt32.toNat_ofNat_of_lt']
    change choice.1 < 4294967296
    omega
  refine ⟨⟨request.requestId, request.episode, request.agent, choice.1.toUInt32⟩, ?_, ?_⟩
  · have hle : choice.1.toUInt32 ≤ 8 := by
      rw [UInt32.le_iff_toNat_le, htoken]
      exact hsmall
    have hparse := Inference.parseRecoveryAdvice_choice h.requestId h.agent h.episode hle
    rw [htoken] at hparse
    rw [RecoveryAnswer.body, hreads.requestId, hreads.agent, hreads.episode, hparse]
  · rw [matchesRecoveryAdvice, if_neg (by simp [h.requestId])]
    rw [nodup_tokens hreads.options] at hchoice
    split_ifs with hzero
    · rfl
    · have hmem := hchoice.resolve_left fun heq => hzero (by simp [heq])
      obtain ⟨option, hoption, heq⟩ := List.mem_map.mp hmem
      refine List.any_eq_true.mpr ⟨option, hoption, decide_eq_true (UInt32.toNat_inj.mp ?_)⟩
      rw [htoken]
      exact heq

/-! ### Surviving the wire -/

/-- The text is one object without duplicate keys; it is validated and read back; and every answer to it with
status 200, in whatever chunks the text arrives, is read by the game server and belongs to the request. -/
structure Survives (runtime : StrictRuntime D) (request : RecoveryAdviceRequest) : Prop where
  isObject : ∃ members, IsText encodeCodepoint 100 (serializeRecoveryAdvice request) (.object members)
  isRead : ∃ payload parsed, runtime.strictBytes (serializeRecoveryAdvice request) = .ok payload ∧
    RecoveryRequest.modelValidate runtime payload = some parsed ∧ ReadsBack request parsed
  isAnswered : ∀ config locked backend chunks answer, chunks.flatten = serializeRecoveryAdvice request →
    recovery runtime config locked backend chunks = .ok answer →
    ∃ response, parseRecoveryAdvice answer.body = some response ∧ matchesRecoveryAdvice request response = true

/-- A request within the bounds of the AI server survives exactly if the distances of its options are still more
than one when they are printed. -/
theorem recovery_survives_iff {D : Type} (runtime : StrictRuntime D) (hdocumented : Documented runtime)
    (request : RecoveryAdviceRequest) (h : Satisfies request) :
    Survives runtime request ↔ ∀ option ∈ request.options, 1 < printed option.distance := by
  obtain ⟨hkept, hneeded⟩ := modelValidate_advice hdocumented h
  have hpayload := strictBytes_advice hdocumented h
  constructor
  · rintro ⟨-, ⟨payload, parsed, hpayload', hparsed, -⟩, -⟩
    rw [hpayload] at hpayload'
    cases hpayload'
    exact hneeded parsed hparsed
  · intro hdistances
    obtain ⟨parsed, hparsed, hreads⟩ := hkept hdistances
    refine ⟨⟨_, isText_of_satisfies h⟩, ⟨_, parsed, hpayload, hparsed, hreads⟩, ?_⟩
    intro config locked backend chunks answer hchunks hanswer
    obtain ⟨parsed', choice, hreceive, hchoice, rfl⟩ := recovery_ok hanswer
    obtain ⟨payload, hpayload', hparsed'⟩ := receiveRecovery_ok hreceive
    rw [hchunks, hpayload] at hpayload'
    cases hpayload'
    rw [hparsed] at hparsed'
    cases hparsed'
    exact matches_answer h hreads (choose_ok hchoice)

/-! ### Two requests -/

/-- Libraries whose doubles are exact. -/
def exactRuntime : StrictRuntime ℚ where
  floats :=
    { ofInt := fun n => some n
      isFinite := fun _ => true
      zero := 0
      one := 1
      le := fun a b => a ≤ b
      lt := fun a b => a < b }
  loadsBytes _ := .error .jsonDecodeError
  loadsText _ := .error .jsonDecodeError
  repr _ := []
  report _ := ""
  nearest := id
  strictBytes := loadText id encodeCodepoint .jsonDecodeError
  strictText text := loadText id encodeCodepoint .jsonDecodeError (Utf8.encodeAll text)

theorem documented_exactRuntime : Documented exactRuntime where
  loads := loadsJson_loadText id encodeCodepoint LoadsError.jsonDecodeError
  doubles :=
    { isFinite := fun _ _ _ => rfl
      ofInt := fun _ _ _ => rfl
      le_of_le := fun _ _ h => decide_eq_true h
      lt_iff := fun _ _ _ _ => decide_eq_true_iff }

/-- A guard is offered one detour. -/
def sampleAdvice (distance : Float32) : RecoveryAdviceRequest where
  requestId := 9
  episode := 123
  agent := 80447
  role := ascii "GUARD"
  problem := ascii "RETURN_HOME"
  failure := ascii "RETURN_REPEATED_STEP"
  hunger := .ofBits 0x3F000000
  homeDistance := .ofBits 0x41F00000
  failures := 3
  stalledMs := 60000
  options := [⟨2, ascii "DETOUR", .ofBits 0x40800000, .ofBits 0x40400000, .ofBits 0, distance, .ofBits 0xC0000000, 0, 0,
    0⟩]

theorem isUtf8_ascii {least most : ℕ} {s : String} (hs : IsAscii s) (hleast : least ≤ (codePoints s).length)
    (hmost : (codePoints s).length ≤ most) : IsUtf8 least most (ascii s) :=
  ⟨codePoints s, isScalar_codePoints hs, encodeAll_codePoints hs, hleast, hmost⟩

theorem within_of_value {low high q : ℚ} {f : Float32} (h : Binary32.value f = some q) (hq : low ≤ q ∧ q ≤ high) :
    Within low high f := ⟨q, h, hq⟩

theorem satisfies_sampleAdvice {distance : Float32} {q : ℚ} (hq : Binary32.value distance = some q) (hlow : 1 < q)
    (hhigh : q ≤ 30) : Satisfies (sampleAdvice distance) where
  requestId := (by decide : (9 : UInt64) ≠ 0)
  agent := (by decide : (80447 : UInt64) ≠ 0)
  episode := (by decide : (123 : UInt64) ≠ 0)
  role := isUtf8_ascii (by decide) (by decide) (by decide)
  problem := ⟨("RETURN_HOME", .returnHome), by decide, rfl⟩
  failure := isUtf8_ascii (by decide) (by decide) (by decide)
  hunger := within_of_value (by decide +kernel : Binary32.value (.ofBits 0x3F000000) = some (1 / 2)) (by norm_num)
  homeDistance := within_of_value (by decide +kernel : Binary32.value (.ofBits 0x41F00000) = some 30) (by norm_num)
  failures := (by decide : (3 : UInt32).toNat ≤ 10000)
  options := ⟨le_rfl, by change 1 ≤ 8; decide⟩
  option := List.forall_mem_singleton.mpr
    { token := (by decide : 1 ≤ (2 : UInt32).toNat ∧ (2 : UInt32).toNat ≤ 8)
      strategy := ⟨("DETOUR", .detour), by decide, rfl⟩
      x := within_of_value (by decide +kernel : Binary32.value (.ofBits 0x40800000) = some 4) (by norm_num)
      y := within_of_value (by decide +kernel : Binary32.value (.ofBits 0x40400000) = some 3) (by norm_num)
      z := within_of_value (by decide +kernel : Binary32.value (.ofBits 0) = some 0) (by norm_num)
      distance := ⟨q, hq, hlow, hhigh⟩
      homeGain := within_of_value (by decide +kernel : Binary32.value (.ofBits 0xC0000000) = some (-2)) (by norm_num)
      nearbyPrey := (by decide : (0 : UInt32).toNat ≤ 10000)
      visits := (by decide : (0 : UInt32).toNat ≤ 10000)
      successes := (by decide : (0 : UInt32).toNat ≤ 10000) }
  uniqueTokens := List.nodup_singleton _

/-- A distance of five yards survives. -/
theorem recovery_survives_iff_five : Survives exactRuntime (sampleAdvice (.ofBits 0x40A00000)) := by
  refine (recovery_survives_iff exactRuntime documented_exactRuntime _
    (satisfies_sampleAdvice (q := 5) (by decide +kernel) (by norm_num) (by norm_num))).mpr ?_
  refine List.forall_mem_singleton.mpr ?_
  decide +kernel

/-- The least float above one is printed as one. -/
theorem recovery_lost : Satisfies (sampleAdvice (.ofBits 0x3F800001)) ∧
    ¬Survives exactRuntime (sampleAdvice (.ofBits 0x3F800001)) := by
  have hsatisfies : Satisfies (sampleAdvice (.ofBits 0x3F800001)) :=
    satisfies_sampleAdvice (q := 8388609 / 8388608) (by decide +kernel) (by norm_num) (by norm_num)
  refine ⟨hsatisfies, fun hsurvives => ?_⟩
  obtain ⟨payload, parsed, hpayload, hparsed, -⟩ := hsurvives.isRead
  rw [strictBytes_advice documented_exactRuntime hsatisfies] at hpayload
  cases hpayload
  have hdistance := (modelValidate_advice documented_exactRuntime hsatisfies).2 parsed hparsed _ List.mem_cons_self
  revert hdistance
  decide +kernel

end AIWorld.AiServer
