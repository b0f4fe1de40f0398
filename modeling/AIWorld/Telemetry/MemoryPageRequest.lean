import AIWorld.Lib.Significant
import AIWorld.Memory.MemoryPages
import AIWorld.Viewer.MemoryPages

/-! The request for a page of memories on its way from the viewer to the game server: a token, an agent, an offset and
an anchor, with colons between them. -/

namespace AIWorld.Telemetry

open Lib.Json
open Memory (LongTermMemory LongTermMemoryRecord)
open Viewer (MemoryPage isToken memoryPageSize)

def telemetryMemoryPageSize : UInt32 := 25

structure MemoryPageRequest where
  id : Bytes
  agent : UInt64
  offset : UInt32
  anchor : UInt32
  deriving DecidableEq

/-- The number at the front of a text, as long as it is at most `most`, and what follows it. -/
def fromChars (most : ℕ) (t : Bytes) : Option (ℕ × Bytes) :=
  let digits := t.takeWhile isDigit
  if digits = [] then none
  else if digitsValue digits > most then none
  else some (digitsValue digits, t.dropWhile isDigit)

/-- Where a number ends: at the next colon, or with the text. -/
def numberEnd (last : Bool) (value : Bytes) : Option ℕ :=
  if last then some value.length else value.findIdx? (· = ':'.toUInt8)

/-- A number with the rest of the text behind its colon. -/
def readNumber (most : ℕ) (last : Bool) (value : Bytes) : Option (ℕ × Bytes) := do
  let stop ← numberEnd last value
  guard (stop ≠ 0)
  let (number, rest) ← fromChars most (value.take stop)
  guard (rest = [])
  return (number, value.drop (stop + if last then 0 else 1))

def parseMemoryPageRequest (value : Bytes) : Option MemoryPageRequest := do
  guard (38 ≤ value.length ∧ value.length ≤ 96 ∧ value[32]? = some ':'.toUInt8)
  let id := value.take 32
  guard (∀ c ∈ id, ('0'.toUInt8 ≤ c ∧ c ≤ '9'.toUInt8) ∨ ('a'.toUInt8 ≤ c ∧ c ≤ 'f'.toUInt8))
  let (agent, value) ← readNumber (UInt64.size - 1) false (value.drop 33)
  let (offset, value) ← readNumber (UInt32.size - 1) false value
  let (anchor, _) ← readNumber (UInt32.size - 1) true value
  guard (agent ≠ 0)
  return { id, agent := agent.toUInt64, offset := offset.toUInt32, anchor := anchor.toUInt32 }

/-- The page that the telemetry brings for a request, its records with the names of those they are about. -/
def memoryPage {R : Type} (item : LongTermMemoryRecord → R) (memory : LongTermMemory) (request : MemoryPageRequest) :
    MemoryPage R :=
  let page := memory.getPage request.agent request.offset telemetryMemoryPageSize request.anchor
  { requestId := request.id, agentId := request.agent.toNat, offset := request.offset.toNat
    requestedAnchor := request.anchor.toNat, anchor := page.anchor, total := page.total
    records := page.records.map item }

/-! ### Reading a number -/

variable {t value rest : Bytes} {most n : ℕ}

/-- A whole text is a number if and only if it consists of digits and the number fits. -/
theorem fromChars_iff : fromChars most t = some (n, []) ↔ IsDigits t ∧ digitsValue t = n ∧ n ≤ most := by
  constructor
  · intro h
    unfold fromChars at h
    dsimp only at h
    split_ifs at h with hempty hmost
    obtain ⟨hn, hrest⟩ := Prod.mk.inj (Option.some.inj h)
    have hall : t.takeWhile isDigit = t := by
      have hsplit := List.takeWhile_append_dropWhile (p := isDigit) (l := t)
      rwa [hrest, List.append_nil] at hsplit
    rw [hall] at hempty hmost hn
    exact ⟨⟨hempty, List.takeWhile_eq_self_iff.mp hall⟩, hn, by omega⟩
  · rintro ⟨⟨hempty, hdigits⟩, rfl, hmost⟩
    have hall : t.takeWhile isDigit = t := List.takeWhile_eq_self_iff.mpr hdigits
    have hrest : t.dropWhile isDigit = [] := List.dropWhile_eq_nil_iff.mpr hdigits
    unfold fromChars
    dsimp only
    rw [hall, if_neg hempty, if_neg (by omega), hrest]

theorem readNumber_iff {last : Bool} : readNumber most last value = some (n, rest) ↔
    ∃ stop, numberEnd last value = some stop ∧ fromChars most (value.take stop) = some (n, []) ∧
      rest = value.drop (stop + if last then 0 else 1) := by
  have hpos {stop : ℕ} (h : fromChars most (value.take stop) = some (n, [])) : stop ≠ 0 := by
    rintro rfl
    exact (fromChars_iff.mp h).1.1 rfl
  simp only [readNumber, Option.bind_eq_bind, Option.bind_eq_some_iff, Option.guard_eq_some', Option.pure_def,
    Prod.exists]
  constructor
  · rintro ⟨stop, hstop, -, -, number, after, hread, -, rfl, heq⟩
    obtain ⟨rfl, rfl⟩ := Prod.mk.inj (Option.some.inj heq)
    exact ⟨stop, hstop, hread, rfl⟩
  · rintro ⟨stop, hstop, hread, rfl⟩
    exact ⟨stop, hstop, (), hpos hread, n, [], hread, (), rfl, rfl⟩

/-- The last number takes all that is left. -/
theorem readNumber_last : (∃ rest, readNumber most true value = some (n, rest)) ↔
    IsDigits value ∧ digitsValue value = n ∧ n ≤ most := by
  rw [← fromChars_iff]
  simp [readNumber_iff, numberEnd]

theorem ne_colon {c : UInt8} (h : isDigit c = true) : c ≠ ':'.toUInt8 := by
  rintro rfl
  exact absurd h (by decide)

/-- A number before another ends with a colon. -/
theorem readNumber_colon : readNumber most false value = some (n, rest) ↔
    ∃ digits, value = digits ++ ':'.toUInt8 :: rest ∧ IsDigits digits ∧ digitsValue digits = n ∧ n ≤ most := by
  rw [readNumber_iff]
  constructor
  · rintro ⟨stop, hstop, hread, rfl⟩
    obtain ⟨hlt, hcolon, -⟩ := List.findIdx?_eq_some_iff_getElem.mp hstop
    refine ⟨value.take stop, ?_, fromChars_iff.mp hread⟩
    rw [← of_decide_eq_true hcolon]
    exact (List.take_append_drop stop value).symm.trans (by rw [List.drop_eq_getElem_cons hlt]; rfl)
  · rintro ⟨digits, rfl, hdigits, hvalue⟩
    refine ⟨digits.length, ?_, ?_, ?_⟩
    · rw [numberEnd, if_neg Bool.false_ne_true, List.findIdx?_append, List.findIdx?_eq_none_iff.mpr fun c hc =>
        decide_eq_false (ne_colon (hdigits.2 c hc))]
      simp [List.findIdx?_cons]
    · rw [List.take_left]
      exact fromChars_iff.mpr ⟨hdigits, hvalue⟩
    · simp

/-! ### The whole request -/

/-- A request as text, its numbers in any spelling. -/
def Spells (value : Bytes) (request : MemoryPageRequest) : Prop :=
  ∃ agent offset anchor, value = request.id ++ ascii ":" ++ agent ++ ascii ":" ++ offset ++ ascii ":" ++ anchor ∧
    isToken request.id = true ∧ IsDigits agent ∧ IsDigits offset ∧ IsDigits anchor ∧
    digitsValue agent = request.agent.toNat ∧ digitsValue offset = request.offset.toNat ∧
    digitsValue anchor = request.anchor.toNat ∧ request.agent ≠ 0

theorem isToken_iff : isToken t = true ↔ t.length = 32 ∧
    ∀ c ∈ t, ('0'.toUInt8 ≤ c ∧ c ≤ '9'.toUInt8) ∨ ('a'.toUInt8 ≤ c ∧ c ≤ 'f'.toUInt8) := by
  simp [isToken, isDigit]

theorem ascii_colon : ascii ":" = [':'.toUInt8] := rfl

theorem spells_of_parse {request : MemoryPageRequest} (h : parseMemoryPageRequest value = some request) :
    value.length ≤ 96 ∧ Spells value request := by
  simp only [parseMemoryPageRequest, Option.bind_eq_bind, Option.bind_eq_some_iff, Option.guard_eq_some',
    Option.pure_def, Prod.exists] at h
  obtain ⟨-, ⟨hmin, hmax, hcolon⟩, -, hid, agent, afterAgent, hagent, offset, afterOffset, hoffset, anchor, afterAnchor,
    hanchor, -, hpos, heq⟩ := h
  obtain ⟨agentDigits, hagentText, hagentDigits, hagentValue, hagentMost⟩ := readNumber_colon.mp hagent
  obtain ⟨offsetDigits, hoffsetText, hoffsetDigits, hoffsetValue, hoffsetMost⟩ := readNumber_colon.mp hoffset
  obtain ⟨hanchorDigits, hanchorValue, hanchorMost⟩ := readNumber_last.mp ⟨_, hanchor⟩
  have hrequest := Option.some.inj heq
  subst hrequest
  have hagentNat : agent.toUInt64.toNat = agent := UInt64.toNat_ofNat_of_lt' (Nat.lt_of_le_pred (by decide) hagentMost)
  have hoffsetNat : offset.toUInt32.toNat = offset :=
    UInt32.toNat_ofNat_of_lt' (Nat.lt_of_le_pred (by decide) hoffsetMost)
  have hanchorNat : anchor.toUInt32.toNat = anchor :=
    UInt32.toNat_ofNat_of_lt' (Nat.lt_of_le_pred (by decide) hanchorMost)
  obtain ⟨hlt, hget⟩ := List.getElem?_eq_some_iff.mp hcolon
  have hsplit : value = value.take 32 ++ ':'.toUInt8 :: value.drop 33 := by
    rw [← hget, ← List.drop_eq_getElem_cons hlt, List.take_append_drop]
  refine ⟨hmax, agentDigits, offsetDigits, afterOffset, ?_, isToken_iff.mpr ⟨?_, hid⟩, hagentDigits, hoffsetDigits,
    hanchorDigits, hagentValue.trans hagentNat.symm, hoffsetValue.trans hoffsetNat.symm,
    hanchorValue.trans hanchorNat.symm, fun hzero => hpos ?_⟩
  · rw [hagentText, hoffsetText] at hsplit
    simpa [ascii] using hsplit
  · rw [List.length_take]
    omega
  · rw [← hagentNat]
    exact congrArg UInt64.toNat hzero

theorem parse_of_spells {request : MemoryPageRequest} (hmax : value.length ≤ 96) (h : Spells value request) :
    parseMemoryPageRequest value = some request := by
  obtain ⟨agent, offset, anchor, hvalue, htoken, hagent, hoffset, hanchor, hagentValue, hoffsetValue, hanchorValue,
    hpos⟩ := h
  obtain ⟨hlength, hid⟩ := isToken_iff.mp htoken
  have hsplit : value = request.id ++ ':'.toUInt8 :: (agent ++ ':'.toUInt8 :: (offset ++ ':'.toUInt8 :: anchor)) := by
    simp [hvalue, ascii_colon]
  have hmin : 38 ≤ value.length := by
    have hagentPos := List.length_pos_iff.mpr hagent.1
    have hoffsetPos := List.length_pos_iff.mpr hoffset.1
    have hanchorPos := List.length_pos_iff.mpr hanchor.1
    simp only [hsplit, List.length_append, List.length_cons]
    omega
  have htake : value.take 32 = request.id := by rw [hsplit, List.take_left' hlength]
  have hcolon : value[32]? = some ':'.toUInt8 := by
    rw [hsplit, List.getElem?_append_right hlength.le, hlength]
    rfl
  have hdrop : value.drop 33 = agent ++ ':'.toUInt8 :: (offset ++ ':'.toUInt8 :: anchor) := by
    rw [hsplit, List.drop_append, List.drop_eq_nil_of_le (by omega), hlength]
    rfl
  obtain ⟨rest, hlast⟩ := readNumber_last.mpr ⟨hanchor, hanchorValue, Nat.le_pred_of_lt request.anchor.toNat_lt_size⟩
  have hread := readNumber_colon.mpr ⟨agent, hdrop, hagent, hagentValue, Nat.le_pred_of_lt request.agent.toNat_lt_size⟩
  have hread' := readNumber_colon.mpr ⟨offset, rfl (a := offset ++ ':'.toUInt8 :: anchor), hoffset, hoffsetValue,
    Nat.le_pred_of_lt request.offset.toNat_lt_size⟩
  simp only [parseMemoryPageRequest, Option.bind_eq_bind, Option.bind_eq_some_iff, Option.guard_eq_some',
    Option.pure_def, Prod.exists]
  refine ⟨(), ⟨hmin, hmax, hcolon⟩, (), by rwa [htake], request.agent.toNat, _, hread, request.offset.toNat, _, hread',
    request.anchor.toNat, rest, hlast, (), fun hzero => hpos (UInt64.toNat_inj.mp hzero), ?_⟩
  rw [htake]
  simp

/-! ### The page -/

theorem getPage_bounds (memory : LongTermMemory) (agent : UInt64) (offset limit anchor : UInt32) :
    (memory.getPage agent offset limit anchor).anchor ≤ (memory.getPage agent offset limit anchor).total ∧
      (memory.getPage agent offset limit anchor).records.length =
        min limit.toNat ((memory.getPage agent offset limit anchor).anchor - offset.toNat) := by
  unfold LongTermMemory.getPage
  cases memory.records[agent]? with
  | none => simp
  | some records =>
    dsimp only
    have hanchor : (if anchor ≠ 0 then min anchor.toNat records.length else records.length) ≤ records.length := by
      split_ifs
      · exact Nat.min_le_right _ _
      · exact le_rfl
    generalize (if anchor ≠ 0 then min anchor.toNat records.length else records.length) = a at hanchor
    split_ifs with hend
    · exact ⟨hanchor, by simp [Nat.sub_eq_zero_of_le hend]⟩
    · refine ⟨hanchor, ?_⟩
      rw [LongTermMemory.filterMap_range hanchor (by omega), List.length_take, List.length_drop, List.length_reverse,
        List.length_take, Nat.min_eq_left hanchor]
      dsimp only
      omega

theorem page_valid {R : Type} (item : LongTermMemoryRecord → R) (memory : LongTermMemory)
    {request : MemoryPageRequest} (htoken : isToken request.id = true) (hpos : request.agent ≠ 0) :
    (memoryPage item memory request).valid = true := by
  obtain ⟨hanchor, hlength⟩ := getPage_bounds memory request.agent request.offset telemetryMemoryPageSize request.anchor
  have hsize : telemetryMemoryPageSize.toNat = memoryPageSize := rfl
  rw [hsize] at hlength
  have hbounds : (memoryPage item memory request).validPageBounds = true := by
    simp only [MemoryPage.validPageBounds, memoryPage, List.length_map, hlength]
    simp only [gt_iff_lt, ne_eq, Bool.not_eq_true', Bool.or_eq_false_iff, decide_eq_false_iff_not, not_not]
    omega
  have hagent : 0 < request.agent.toNat := Nat.pos_of_ne_zero fun hzero => hpos (UInt64.toNat_inj.mp hzero)
  have hrecords : (memoryPage item memory request).records.length ≤ memoryPageSize := by
    simp only [memoryPage, List.length_map, hlength]
    exact Nat.min_le_left _ _
  simp only [MemoryPage.valid, hbounds, Bool.and_true, Bool.and_eq_true, decide_eq_true_eq]
  exact ⟨⟨⟨⟨htoken, hagent⟩, request.offset.toNat_lt_size⟩, request.anchor.toNat_lt_size⟩, hrecords⟩

theorem header_spells {token : Bytes} (htoken : isToken token = true) {agent : UInt64} (hpos : agent ≠ 0)
    (offset anchor : UInt32) :
    Spells (Viewer.MemoryPages.header token ⟨agent.toNat, offset.toNat, anchor.toNat⟩) ⟨token, agent, offset, anchor⟩ :=
  ⟨_, _, _, rfl, htoken, isDigits_decimal _, isDigits_decimal _, isDigits_decimal _, digitsValue_decimal _,
    digitsValue_decimal _, digitsValue_decimal _, hpos⟩

theorem length_header_le {token : Bytes} (htoken : isToken token = true) (agent : UInt64) (offset anchor : UInt32) :
    (Viewer.MemoryPages.header token ⟨agent.toNat, offset.toNat, anchor.toNat⟩).length ≤ 96 := by
  have hagent : (decimal agent.toNat).length ≤ 20 :=
    Lib.Significant.length_decimal_le (by decide) (agent.toNat_lt_size.trans (by decide))
  have hoffset : (decimal offset.toNat).length ≤ 10 :=
    Lib.Significant.length_decimal_le (by decide) (offset.toNat_lt_size.trans (by decide))
  have hanchor : (decimal anchor.toNat).length ≤ 10 :=
    Lib.Significant.length_decimal_le (by decide) (anchor.toNat_lt_size.trans (by decide))
  simp only [Viewer.MemoryPages.header, ascii_colon, List.length_append, List.length_singleton,
    (isToken_iff.mp htoken).1]
  omega

/-- What the viewer asks for is what the game server reads. It reads nothing but a token and three numbers, and the
page that it finds for them is one that the viewer takes. -/
theorem memoryPageRequest_agrees {R : Type} (item : LongTermMemoryRecord → R) (memory : LongTermMemory) :
    (∀ (token : Bytes) (agent : UInt64) (offset anchor : UInt32), isToken token = true → agent ≠ 0 →
      parseMemoryPageRequest (Viewer.MemoryPages.header token ⟨agent.toNat, offset.toNat, anchor.toNat⟩) =
        some ⟨token, agent, offset, anchor⟩) ∧
    (∀ (value : Bytes) (request : MemoryPageRequest), parseMemoryPageRequest value = some request ↔
      value.length ≤ 96 ∧ Spells value request) ∧
    ∀ (value : Bytes) (request : MemoryPageRequest), parseMemoryPageRequest value = some request →
      (memoryPage item memory request).valid = true := by
  refine ⟨fun token agent offset anchor htoken hpos => ?_, fun value request => ?_, fun value request h => ?_⟩
  · exact parse_of_spells (length_header_le htoken agent offset anchor) (header_spells htoken hpos offset anchor)
  · exact ⟨spells_of_parse, fun h => parse_of_spells h.1 h.2⟩
  · obtain ⟨-, -, -, -, -, htoken, -, -, -, -, -, -, hpos⟩ := spells_of_parse h
    exact page_valid item memory htoken hpos

end AIWorld.Telemetry
