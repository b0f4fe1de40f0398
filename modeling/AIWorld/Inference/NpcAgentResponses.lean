import AIWorld.Inference.CursorObjects

/-! The texts of a response: an object with each of five keys once, in any order, whose decision is one
with each of four. These are what is accepted, with nothing but white space around them. -/

namespace AIWorld.Inference

open Lib Lib.Json JsonCursor

/-! ### Tokens -/

section Tokens
variable {σ V : Type} {readValue : Bytes → Option (V × Bytes)} {Is : Bytes → V → Prop}
  {t w text rest : Bytes} {s' : σ}

def IsText (text s : Bytes) : Prop := ∃ cs, IsLiteral text cs ∧ s = Utf8.encodeAll cs

theorem string_sound {s : Bytes} (h : string t = some (s, rest)) :
    ∃ w text, White w ∧ t = w ++ (text ++ rest) ∧ IsText text s := by
  obtain ⟨w, lit, cs, hw, ht, hlit, hs, -⟩ := string_iff.mp h
  exact ⟨w, lit, hw, ht, cs, hlit, hs⟩

theorem string_complete {s : Bytes} (hw : White w) (h : IsText text s)
    (hlimit : (text ++ rest).length ≤ npcAgentResponseBodyLimit) : string (w ++ (text ++ rest)) = some (s, rest) := by
  obtain ⟨cs, hlit, rfl⟩ := h
  refine string_iff.mpr ⟨w, text, cs, hw, rfl, hlit, rfl, hlit.length_le.trans (le_trans ?_ hlimit)⟩
  rw [List.length_append]
  omega

theorem uint_sound {v : UInt64} (h : uint t = some (v, rest)) :
    ∃ w text, White w ∧ t = w ++ (text ++ rest) ∧ text = decimal v.toNat := by
  obtain ⟨w, hw, ht, -⟩ := uint_iff.mp h
  exact ⟨w, _, hw, ht, rfl⟩

theorem uint_complete {v : UInt64} (hw : White w) (h : text = decimal v.toNat) (hends : Ends isDigit rest) :
    uint (w ++ (text ++ rest)) = some (v, rest) := by
  subst h
  exact uint_iff.mpr ⟨w, hw, rfl, hends⟩

theorem uint32_sound {v : UInt32} (h : uint32 t = some (v, rest)) :
    ∃ w text, White w ∧ t = w ++ (text ++ rest) ∧ text = decimal v.toNat := by
  obtain ⟨w, hw, ht, -⟩ := uint32_iff.mp h
  exact ⟨w, _, hw, ht, rfl⟩

theorem uint32_complete {v : UInt32} (hw : White w) (h : text = decimal v.toNat) (hends : Ends isDigit rest) :
    uint32 (w ++ (text ++ rest)) = some (v, rest) := by
  subst h
  exact uint32_iff.mpr ⟨w, hw, rfl, hends⟩

/-- A token that is read sets a field to its value. -/
theorem field_sound (set : V → σ) (hread : ∀ {t v rest}, readValue t = some (v, rest) →
      ∃ w text, White w ∧ t = w ++ (text ++ rest) ∧ Is text v)
    (h : (readValue t).map (fun (v, t) => (set v, t)) = some (s', rest)) :
    ∃ w text v, White w ∧ t = w ++ (text ++ rest) ∧ Is text v ∧ s' = set v := by
  obtain ⟨⟨v, t'⟩, hvalue, heq⟩ := Option.map_eq_some_iff.mp h
  obtain ⟨rfl, rfl⟩ := Prod.mk.inj heq
  obtain ⟨w, text, hw, ht, his⟩ := hread hvalue
  exact ⟨w, text, v, hw, ht, his, rfl⟩

end Tokens

/-! ### The decision -/

def decisionNames : List Bytes := [ascii "action_token", ascii "speech", ascii "speech_target", ascii "emote"]

/-- What a text says of a field of the decision. -/
def DecisionIs (field text : Bytes) (d : NpcAgentDecision) : Prop :=
  if field = ascii "action_token" then text = decimal d.actionToken.toNat
  else if field = ascii "speech" then IsText text d.speech
  else if field = ascii "speech_target" then text = decimal d.speechTarget.toNat
  else if field = ascii "emote" then IsText text d.emote
  else False

def putDecision (field : Bytes) (r d : NpcAgentDecision) : NpcAgentDecision where
  actionToken := if field = ascii "action_token" then r.actionToken else d.actionToken
  speech := if field = ascii "speech" then r.speech else d.speech
  speechTarget := if field = ascii "speech_target" then r.speechTarget else d.speechTarget
  emote := if field = ascii "emote" then r.emote else d.emote

theorem putDecision_eq (field : Bytes) (r d : NpcAgentDecision) : putDecision field r d =
    if field = ascii "action_token" then { d with actionToken := r.actionToken }
    else if field = ascii "speech" then { d with speech := r.speech }
    else if field = ascii "speech_target" then { d with speechTarget := r.speechTarget }
    else if field = ascii "emote" then { d with emote := r.emote }
    else d := by
  split_ifs with h₁ h₂ h₃ h₄
  · subst h₁
    simp +decide [putDecision]
  · subst h₂
    simp +decide [putDecision]
  · subst h₃
    simp +decide [putDecision]
  · subst h₄
    simp +decide [putDecision]
  · simp [putDecision, *]

theorem ite_twice {α : Type} (p q : Prop) [Decidable p] [Decidable q] (a b : α) :
    (if p then a else if q then a else b) = if q then a else if p then a else b := by
  split_ifs <;> rfl

theorem ite_again {α : Type} (p : Prop) [Decidable p] (a b : α) :
    (if p then a else if p then a else b) = if p then a else b := by
  split_ifs <;> rfl

theorem decision_fields : Fields decisionNames DecisionIs putDecision where
  named {field text d} h := by
    unfold DecisionIs at h
    split_ifs at h with h₁ h₂ h₃ h₄ <;> simp [decisionNames, *]
  is_put := by
    intro field text r s
    unfold DecisionIs
    split_ifs with h₁ h₂ h₃ h₄ <;> simp only [putDecision, *, if_true]
  is_put_ne := by
    intro field field' text r s hne
    unfold DecisionIs
    split_ifs with h₁ h₂ h₃ h₄ <;> simp only [putDecision]
    · rw [if_neg (h₁ ▸ hne.symm)]
    · rw [if_neg (h₂ ▸ hne.symm)]
    · rw [if_neg (h₃ ▸ hne.symm)]
    · rw [if_neg (h₄ ▸ hne.symm)]
  put_put := by
    intro field r s
    simp only [putDecision, ite_again]
  put_comm := by
    intro field field' r s
    simp only [putDecision, NpcAgentDecision.mk.injEq]
    exact ⟨ite_twice .., ite_twice .., ite_twice .., ite_twice ..⟩
  ext := by
    intro r s h
    simp only [decisionNames, List.forall_mem_cons, putDecision] at h
    obtain ⟨htoken, hspeech, htarget, hemote, -⟩ := h
    have h₁ := congrArg NpcAgentDecision.actionToken htoken
    have h₂ := congrArg NpcAgentDecision.speech hspeech
    have h₃ := congrArg NpcAgentDecision.speechTarget htarget
    have h₄ := congrArg NpcAgentDecision.emote hemote
    simp only [if_true] at h₁ h₂ h₃ h₄
    cases r
    cases s
    simp only [NpcAgentDecision.mk.injEq]
    exact ⟨h₁.symm, h₂.symm, h₃.symm, h₄.symm⟩

theorem decision_nodup : decisionNames.Nodup := by decide

theorem decision_short : ∀ key ∈ decisionNames, key.length ≤ 64 := by decide

theorem decision_reads : Reads readDecision DecisionIs putDecision where
  sound := by
    intro field d t d' rest h
    unfold readDecision at h
    unfold DecisionIs
    simp only [putDecision_eq]
    split_ifs at h ⊢ with h₁ h₂ h₃ h₄
    · obtain ⟨w, text, v, hw, ht, his, rfl⟩ := field_sound (fun v => { d with actionToken := v }) uint32_sound h
      exact ⟨w, text, { d with actionToken := v }, hw, ht, his, rfl⟩
    · obtain ⟨w, text, v, hw, ht, his, rfl⟩ := field_sound (fun v => { d with speech := v }) string_sound h
      exact ⟨w, text, { d with speech := v }, hw, ht, his, rfl⟩
    · obtain ⟨w, text, v, hw, ht, his, rfl⟩ := field_sound (fun v => { d with speechTarget := v }) uint32_sound h
      exact ⟨w, text, { d with speechTarget := v }, hw, ht, his, rfl⟩
    · obtain ⟨w, text, v, hw, ht, his, rfl⟩ := field_sound (fun v => { d with emote := v }) string_sound h
      exact ⟨w, text, { d with emote := v }, hw, ht, his, rfl⟩
  complete := by
    intro field d w text r rest hw his hends hlimit
    unfold DecisionIs at his
    unfold readDecision
    rw [putDecision_eq]
    split_ifs at his ⊢ with h₁ h₂ h₃ h₄
    · rw [uint32_complete hw his hends, Option.map_some]
    · rw [string_complete hw his hlimit, Option.map_some]
    · rw [uint32_complete hw his hends, Option.map_some]
    · rw [string_complete hw his hlimit, Option.map_some]

/-! ### The response -/

def responseNames : List Bytes := [ascii "protocol_version", ascii "request_id", ascii "agent_id",
  ascii "snapshot_sequence", ascii "decision"]

def ResponseIs (key text : Bytes) (r : NpcAgentResponse) : Prop :=
  if key = ascii "protocol_version" then text = decimal r.protocolVersion.toNat
  else if key = ascii "request_id" then text = decimal r.requestId.toNat
  else if key = ascii "agent_id" then text = decimal r.agent.toNat
  else if key = ascii "snapshot_sequence" then text = decimal r.snapshotSequence.toNat
  else if key = ascii "decision" then IsRecord decisionNames DecisionIs text r.decision
  else False

def putResponse (key : Bytes) (r c : NpcAgentResponse) : NpcAgentResponse where
  protocolVersion := if key = ascii "protocol_version" then r.protocolVersion else c.protocolVersion
  requestId := if key = ascii "request_id" then r.requestId else c.requestId
  agent := if key = ascii "agent_id" then r.agent else c.agent
  snapshotSequence := if key = ascii "snapshot_sequence" then r.snapshotSequence else c.snapshotSequence
  decision := if key = ascii "decision" then r.decision else c.decision

theorem putResponse_eq (key : Bytes) (r c : NpcAgentResponse) : putResponse key r c =
    if key = ascii "protocol_version" then { c with protocolVersion := r.protocolVersion }
    else if key = ascii "request_id" then { c with requestId := r.requestId }
    else if key = ascii "agent_id" then { c with agent := r.agent }
    else if key = ascii "snapshot_sequence" then { c with snapshotSequence := r.snapshotSequence }
    else if key = ascii "decision" then { c with decision := r.decision }
    else c := by
  split_ifs with h₁ h₂ h₃ h₄ h₅
  · subst h₁
    simp +decide [putResponse]
  · subst h₂
    simp +decide [putResponse]
  · subst h₃
    simp +decide [putResponse]
  · subst h₄
    simp +decide [putResponse]
  · subst h₅
    simp +decide [putResponse]
  · simp [putResponse, *]

theorem response_fields : Fields responseNames ResponseIs putResponse where
  named {key text r} h := by
    unfold ResponseIs at h
    split_ifs at h with h₁ h₂ h₃ h₄ h₅ <;> simp [responseNames, *]
  is_put := by
    intro key text r s
    unfold ResponseIs
    split_ifs with h₁ h₂ h₃ h₄ h₅ <;> simp only [putResponse, *, if_true]
  is_put_ne := by
    intro key key' text r s hne
    unfold ResponseIs
    split_ifs with h₁ h₂ h₃ h₄ h₅ <;> simp only [putResponse]
    · rw [if_neg (h₁ ▸ hne.symm)]
    · rw [if_neg (h₂ ▸ hne.symm)]
    · rw [if_neg (h₃ ▸ hne.symm)]
    · rw [if_neg (h₄ ▸ hne.symm)]
    · rw [if_neg (h₅ ▸ hne.symm)]
  put_put := by
    intro key r s
    simp only [putResponse, ite_again]
  put_comm := by
    intro key key' r s
    simp only [putResponse, NpcAgentResponse.mk.injEq]
    exact ⟨ite_twice .., ite_twice .., ite_twice .., ite_twice .., ite_twice ..⟩
  ext := by
    intro r s h
    simp only [responseNames, List.forall_mem_cons, putResponse] at h
    obtain ⟨hversion, hrequest, hagent, hsequence, hdecision, -⟩ := h
    have h₁ := congrArg NpcAgentResponse.protocolVersion hversion
    have h₂ := congrArg NpcAgentResponse.requestId hrequest
    have h₃ := congrArg NpcAgentResponse.agent hagent
    have h₄ := congrArg NpcAgentResponse.snapshotSequence hsequence
    have h₅ := congrArg NpcAgentResponse.decision hdecision
    simp only [if_true] at h₁ h₂ h₃ h₄ h₅
    cases r
    cases s
    simp only [NpcAgentResponse.mk.injEq]
    exact ⟨h₁.symm, h₂.symm, h₃.symm, h₄.symm, h₅.symm⟩

theorem response_nodup : responseNames.Nodup := by decide

theorem response_short : ∀ key ∈ responseNames, key.length ≤ 64 := by decide

theorem response_reads : Reads readResponse ResponseIs putResponse where
  sound := by
    intro key c t c' rest h
    unfold readResponse at h
    unfold ResponseIs
    simp only [putResponse_eq]
    split_ifs at h ⊢ with h₁ h₂ h₃ h₄ h₅
    · obtain ⟨w, text, v, hw, ht, his, rfl⟩ := field_sound (fun v => { c with protocolVersion := v }) uint32_sound h
      exact ⟨w, text, { c with protocolVersion := v }, hw, ht, his, rfl⟩
    · obtain ⟨w, text, v, hw, ht, his, rfl⟩ := field_sound (fun v => { c with requestId := v }) uint_sound h
      exact ⟨w, text, { c with requestId := v }, hw, ht, his, rfl⟩
    · obtain ⟨w, text, v, hw, ht, his, rfl⟩ := field_sound (fun v => { c with agent := v }) uint_sound h
      exact ⟨w, text, { c with agent := v }, hw, ht, his, rfl⟩
    · obtain ⟨w, text, v, hw, ht, his, rfl⟩ := field_sound (fun v => { c with snapshotSequence := v }) uint_sound h
      exact ⟨w, text, { c with snapshotSequence := v }, hw, ht, his, rfl⟩
    · have hobject : ∀ {t d rest}, object readDecision 4 c.decision t = some (d, rest) →
          ∃ w text, White w ∧ t = w ++ (text ++ rest) ∧ IsRecord decisionNames DecisionIs text d :=
        fun hread => object_sound decisionNames decision_fields decision_reads (by decide) hread
      obtain ⟨w, text, v, hw, ht, his, rfl⟩ := field_sound (fun v => { c with decision := v }) hobject h
      exact ⟨w, text, { c with decision := v }, hw, ht, his, rfl⟩
  complete := by
    intro key c w text r rest hw his hends hlimit
    unfold ResponseIs at his
    unfold readResponse
    rw [putResponse_eq]
    split_ifs at his ⊢ with h₁ h₂ h₃ h₄ h₅
    · rw [uint32_complete hw his hends, Option.map_some]
    · rw [uint_complete hw his hends, Option.map_some]
    · rw [uint_complete hw his hends, Option.map_some]
    · rw [uint_complete hw his hends, Option.map_some]
    · have hobject : object readDecision 4 c.decision (w ++ (text ++ rest)) = some (r.decision, rest) :=
        object_complete decision_fields decision_reads (by decide) decision_nodup decision_short hw his hlimit
      rw [hobject, Option.map_some]

/-- Exactly a response with nothing but white space around it is accepted. -/
theorem parse_iff {json : Bytes} {old r : NpcAgentResponse} :
    parseNpcAgentResponse json old = (true, r) ↔ json.length ≤ npcAgentResponseBodyLimit ∧ validResponse r = true ∧
      ∃ w text w', White w ∧ White w' ∧ json = w ++ (text ++ w') ∧ IsRecord responseNames ResponseIs text r := by
  unfold parseNpcAgentResponse
  constructor
  · intro h
    split_ifs at h with hlong
    · exact absurd (Prod.mk.inj h).1 (by simp)
    cases hobject : object readResponse 5 {} json with
    | none =>
      rw [hobject] at h
      exact absurd (Prod.mk.inj h).1 (by simp)
    | some read =>
      obtain ⟨candidate, t⟩ := read
      simp only [hobject] at h
      split_ifs at h with hbad
      · exact absurd (Prod.mk.inj h).1 (by simp)
      obtain ⟨-, rfl⟩ := Prod.mk.inj h
      rw [not_or, not_not, Bool.not_eq_false] at hbad
      obtain ⟨w, text, hw, rfl, hrecord⟩ :=
        object_sound responseNames response_fields response_reads (by decide) hobject
      obtain ⟨w', hw', ht⟩ := space_spec t
      rw [hbad.1, List.append_nil] at ht
      exact ⟨Nat.not_lt.mp hlong, hbad.2, w, text, t, hw, ht ▸ hw', rfl, hrecord⟩
  · rintro ⟨hlimit, hvalid, w, text, w', hw, hw', rfl, hrecord⟩
    have htextLimit : (text ++ w').length ≤ npcAgentResponseBodyLimit := by
      refine le_trans ?_ hlimit
      simp only [List.length_append]
      omega
    have hobject : object readResponse 5 {} (w ++ (text ++ w')) = some (r, w') :=
      object_complete response_fields response_reads (by decide) response_nodup response_short hw hrecord htextLimit
    have hspace : space w' = [] := List.dropWhile_eq_nil_iff.mpr hw'
    rw [if_neg (Nat.not_lt.mpr hlimit), hobject]
    simp only [hspace, hvalid, ne_eq, not_true_eq_false, Bool.true_eq_false, or_self, if_false]

theorem parse_unchanged {json : Bytes} {old : NpcAgentResponse} (h : (parseNpcAgentResponse json old).1 = false) :
    parseNpcAgentResponse json old = (false, old) := by
  unfold parseNpcAgentResponse at h ⊢
  split_ifs at h ⊢ with hlong
  · rfl
  cases hobject : object readResponse 5 {} json with
  | none => rfl
  | some read =>
    obtain ⟨candidate, t⟩ := read
    simp only [hobject] at h ⊢
    split_ifs at h ⊢ with hbad
    · rfl

/-- An object whose known members are well formed is accepted only with each of the keys once and nothing
but white space after it. -/
theorem parse_known {json w ws body rest : Bytes} {ms : List (Bytes × Bytes)} {old : NpcAgentResponse}
    (hjson : json = w ++ 0x7B :: (ws ++ (body ++ 0x7D :: rest))) (hw : White w) (hws : White ws)
    (hbody : Separated IsNamed body ms) (hvalues : ∀ m ∈ ms, m.1 ∈ responseNames → ∃ r, ResponseIs m.1 m.2 r)
    (h : (parseNpcAgentResponse json old).1 = true) : (ms.map Prod.fst).Perm responseNames ∧ White rest := by
  unfold parseNpcAgentResponse at h
  split_ifs at h with hlong
  have hlimit : (body ++ 0x7D :: rest).length ≤ npcAgentResponseBodyLimit := by
    refine le_trans ?_ (Nat.not_lt.mp hlong)
    rw [hjson]
    simp only [List.length_append, List.length_cons]
    omega
  cases hobject : object readResponse 5 {} json with
  | none =>
    simp [hobject] at h
  | some read =>
    obtain ⟨candidate, t⟩ := read
    simp only [hobject] at h
    split_ifs at h with hbad
    rw [not_or, not_not] at hbad
    rw [hjson] at hobject
    obtain ⟨hperm, rfl⟩ :=
      object_known responseNames response_fields response_reads hw hws hbody hvalues hlimit hobject
    exact ⟨hperm, List.dropWhile_eq_nil_iff.mp hbad.1⟩

/-- What was quoted is read back; strings are read exactly where literals stand and numbers exactly where their
decimal forms do; a response is accepted exactly where each of its keys stands once, in any order, with nothing
after it, and otherwise the caller's response stays as it was. -/
theorem codec_exact :
    (∀ (cs : List ℕ) (rest : Bytes), (∀ c ∈ cs, Utf8.IsScalar c) →
      (Utf8.encodeAll cs).length ≤ npcAgentResponseBodyLimit →
      string (quoted (Utf8.encodeAll cs) ++ rest) = some (Utf8.encodeAll cs, rest)) ∧
    (∀ t s rest : Bytes, string t = some (s, rest) ↔ ∃ w lit cs, White w ∧ t = w ++ (lit ++ rest) ∧
      IsLiteral lit cs ∧ s = Utf8.encodeAll cs ∧ s.length ≤ npcAgentResponseBodyLimit) ∧
    (∀ (t rest : Bytes) (v : UInt64), uint t = some (v, rest) ↔
      ∃ w, White w ∧ t = w ++ (decimal v.toNat ++ rest) ∧ Ends isDigit rest) ∧
    (∀ (json : Bytes) (old r : NpcAgentResponse), parseNpcAgentResponse json old = (true, r) ↔
      json.length ≤ npcAgentResponseBodyLimit ∧ validResponse r = true ∧
      ∃ w text w', White w ∧ White w' ∧ json = w ++ (text ++ w') ∧ IsRecord responseNames ResponseIs text r) ∧
    (∀ (w ws body rest : Bytes) (ms : List (Bytes × Bytes)) (old : NpcAgentResponse), White w → White ws →
      Separated IsNamed body ms → (∀ m ∈ ms, m.1 ∈ responseNames → ∃ r, ResponseIs m.1 m.2 r) →
      ¬((ms.map Prod.fst).Perm responseNames ∧ White rest) →
      parseNpcAgentResponse (w ++ 0x7B :: (ws ++ (body ++ 0x7D :: rest))) old = (false, old)) ∧
    ∀ (json : Bytes) (old : NpcAgentResponse), (parseNpcAgentResponse json old).1 = false →
      (parseNpcAgentResponse json old).2 = old := by
  refine ⟨?_, fun t s rest => string_iff, fun t rest v => uint_iff, fun json old r => parse_iff, ?_, ?_⟩
  · intro cs rest hcs hlimit
    exact string_quoted (fits_iff.mpr ⟨cs, hcs, rfl, hlimit⟩) rest
  · intro w ws body rest ms old hw hws hbody hvalues hbad
    refine parse_unchanged (Bool.eq_false_iff.mpr fun h => hbad ?_)
    exact parse_known rfl hw hws hbody hvalues h
  · intro json old h
    rw [parse_unchanged h]

/-- A letter, a quote and an emoji are read back, and white space before a number is passed over. -/
theorem codec_exact_emoji :
    string (quoted (Utf8.encodeAll [0x68, 0x22, 0x1F600]) ++ [0x2C]) =
      some (Utf8.encodeAll [0x68, 0x22, 0x1F600], [0x2C]) ∧
    uint (0x20 :: ascii "42,") = some (42, [0x2C]) :=
  ⟨codec_exact.1 [0x68, 0x22, 0x1F600] [0x2C] (by simp [Utf8.IsScalar]) (by decide),
    (codec_exact.2.2.1 _ _ 42).mpr ⟨[0x20], by simp [White, isWhite], by decide, ends_cons (by decide) _⟩⟩

end AIWorld.Inference
