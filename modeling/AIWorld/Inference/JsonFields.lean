import AIWorld.Inference.JsonWalk
import AIWorld.Lib.Json.Decimal

/-! Fields are read from the places that the walker kept. What is read is the value that
stands there. -/

namespace AIWorld.Inference

open Lib.Json

variable {json : Bytes} {levels start stop : ℕ} {v : Value} {members : List (Bytes × Value)}
  {ms : List JsonObjectMember} {key : Bytes}

/-! ### Values -/

theorem Stands.exists_text (h : Stands json levels start stop v) : ∃ t c tail, Spells encodeCodepoint levels t v ∧
    t = c :: tail ∧ v.Begins c ∧ substr json start stop = t ∧ start < stop ∧ json[start]? = some c := by
  obtain ⟨t, ht, hdrop, rfl⟩ := h
  obtain ⟨c, tail, rfl, hc⟩ := ht.exists_cons
  refine ⟨_, c, tail, ht, rfl, hc, substr_of_append hdrop, ?_, getElem?_of_drop hdrop⟩
  rw [List.length_cons]
  omega

/-- A value that begins like a number is one. -/
theorem number_of_begins {c : UInt8} (h : v.Begins c) (hc : c = '-'.toUInt8 ∨ isDigit c = true) :
    ∃ t, v = .number t := by
  cases v with
  | number t => exact ⟨t, rfl⟩
  | bool b =>
    subst h
    cases b <;> exact absurd hc (by decide)
  | null | string text | array items | object members =>
    subst h
    exact absurd hc (by decide)

theorem string_of_begins (h : v.Begins quote) : ∃ s, v = .string s := by
  cases v with
  | string s => exact ⟨s, rfl⟩
  | number t => rcases h with h | h <;> contradiction
  | bool b =>
    simp only [Value.Begins] at h
    cases b <;> exact absurd h (by decide)
  | null | array items | object members =>
    simp only [Value.Begins] at h
    exact absurd h (by decide)

theorem object_of_begins (h : v.Begins 0x7B) : ∃ members, v = .object members := by
  cases v with
  | object members => exact ⟨members, rfl⟩
  | number t => rcases h with h | h <;> contradiction
  | bool b =>
    simp only [Value.Begins] at h
    cases b <;> exact absurd h (by decide)
  | null | array items | string s =>
    simp only [Value.Begins] at h
    exact absurd h (by decide)

theorem Spells.number {t text : Bytes} (h : Spells encodeCodepoint levels t (.number text)) :
    t = text ∧ IsNumber text := by
  cases levels with
  | zero => contradiction
  | succ levels => exact h

theorem Spells.string {t s : Bytes} (h : Spells encodeCodepoint levels t (.string s)) :
    IsString encodeCodepoint t s := by
  cases levels with
  | zero => contradiction
  | succ levels => exact h

theorem stoull_eq_some {token : Bytes} {n : UInt64} : stoull token = some n ↔ digitsValue token = n.toNat := by
  change (if digitsValue token < 2 ^ 64 then some (digitsValue token).toUInt64 else none) = some n ↔ _
  constructor
  · intro h
    split_ifs at h with hlt
    cases h
    exact (UInt64.toNat_ofNat_of_lt' hlt).symm
  · intro h
    rw [h, if_pos n.toNat_lt]
    exact congrArg some (UInt64.ofNat_toNat)

theorem parseUInt64Value_iff (h : Stands json levels start stop v) {n : UInt64} :
    parseUInt64Value json start stop = some n ↔ v = .number (decimal n.toNat) := by
  obtain ⟨t, c, tail, ht, hcons, hc, hsubstr, hlt, -⟩ := h.exists_text
  rw [parseUInt64Value, if_neg (not_le.mpr hlt), hsubstr]
  constructor
  · intro hparse
    simp only at hparse
    split_ifs at hparse with hdigits
    rw [List.all_eq_true] at hdigits
    obtain ⟨text, rfl⟩ := number_of_begins hc (.inr (hdigits c (hcons ▸ List.mem_cons_self)))
    obtain ⟨rfl, hnumber⟩ := Spells.number ht
    rw [← stoull_eq_some.mp hparse, decimal_digitsValue (hnumber.isInteger hdigits)]
  · rintro rfl
    obtain ⟨rfl, -⟩ := Spells.number ht
    simp only
    rw [if_pos (List.all_eq_true.mpr (isDigits_decimal _).2), stoull_eq_some, digitsValue_decimal]

theorem parseStringValue_iff (h : Stands json levels start stop v) {s : Bytes} :
    parseStringValue json start stop = some s ↔ v = .string s := by
  obtain ⟨t, c, tail, ht, hcons, hc, hsubstr, -, hfirst⟩ := h.exists_text
  have hstring {s : Bytes} (hv : v = .string s) : parseStringValue json start stop = some s := by
    subst hv
    have hs := Spells.string ht
    obtain ⟨t, ht', hdrop, rfl⟩ := h
    obtain ⟨body, hbody, -⟩ := Spells.string ht'
    have hlength : ¬ (start + t.length - start < 2 ∨ json[start]? ≠ some quote) := by
      rw [hfirst, hbody]
      cases hc
      simp only [List.length_cons, List.length_append, List.length_nil]
      rintro (hshort | hne)
      · omega
      · exact hne rfl
    rw [parseStringValue, if_neg hlength, hsubstr, unescapeJsonString_eq hs]
  refine ⟨fun hparse => ?_, hstring⟩
  have hquote : json[start]? = some quote := by
    rw [parseStringValue] at hparse
    split_ifs at hparse with hnot
    exact not_not.mp (not_or.mp hnot).2
  cases hfirst.symm.trans hquote
  obtain ⟨s', rfl⟩ := string_of_begins hc
  rw [hstring rfl] at hparse
  rw [Option.some.inj hparse]

theorem Stands.parseJsonObject (h : Stands json (levels + 1) start stop (.object members)) : ∃ ms,
    parseJsonObject (parseJsonValue json levels) json start = some (ms, stop) ∧
      List.Forall₂ (MemberStands json levels) ms members ∧ DistinctKeys members := by
  obtain ⟨t, ⟨ht, hdistinct⟩, hdrop, rfl⟩ := h
  obtain ⟨ms, hms, hmatch⟩ := (exact json levels).parseJsonObject_eq ht hdistinct hdrop
  exact ⟨ms, hms, hmatch, hdistinct⟩

theorem Stands.parseJsonArray {items : List Value} (h : Stands json (levels + 1) start stop (.array items)) :
    ∃ spans, parseJsonArray (parseJsonValue json levels) json start = some (spans, stop) ∧
      List.Forall₂ (ItemStands json levels) spans items := by
  obtain ⟨t, ht, hdrop, rfl⟩ := h
  exact (exact json levels).parseJsonArray_eq ht hdrop

/-! ### Members -/

theorem findMember_eq_some {m : JsonObjectMember} (h : findMember ms key = some m) : m ∈ ms ∧ m.key = key := by
  have hkey := List.find?_some h
  exact ⟨List.mem_of_find?_eq_some h, of_decide_eq_true hkey⟩

/-- A key finds the value that the object has for it. -/
theorem exists_findMember (h : List.Forall₂ (MemberStands json levels) ms members) (hdistinct : DistinctKeys members)
    (hmem : (key, v) ∈ members) :
    ∃ m, findMember ms key = some m ∧ Stands json levels m.valueStart m.valueEnd v := by
  induction h with
  | nil => contradiction
  | @cons m y ms members hm hrest ih =>
    rw [DistinctKeys, List.map_cons, List.nodup_cons] at hdistinct
    rw [findMember, List.find?_cons]
    rcases List.mem_cons.mp hmem with rfl | hmem
    · exact ⟨m, by rw [decide_eq_true hm.1], hm.2⟩
    · have hne : m.key ≠ key := fun heq => hdistinct.1 (hm.1 ▸ heq ▸ List.mem_map_of_mem hmem)
      rw [decide_eq_false hne]
      exact ih hdistinct.2 hmem

theorem findMember_stands (h : List.Forall₂ (MemberStands json levels) ms members) {m : JsonObjectMember}
    (hfind : findMember ms key = some m) :
    ∃ v, (key, v) ∈ members ∧ Stands json levels m.valueStart m.valueEnd v := by
  obtain ⟨hmem, rfl⟩ := findMember_eq_some hfind
  clear hfind
  induction h with
  | nil => contradiction
  | @cons m' y ms members hm hrest ih =>
    rcases List.mem_cons.mp hmem with rfl | hmem
    · exact ⟨y.2, by rw [hm.1]; exact List.mem_cons_self, hm.2⟩
    · obtain ⟨v, hv, hstands⟩ := ih hmem
      exact ⟨v, List.mem_cons_of_mem _ hv, hstands⟩

/-- The keys of an object are exactly the required ones. -/
theorem hasExactKeySet_iff (h : List.Forall₂ (MemberStands json levels) ms members)
    {requiredKeys : List Bytes} (hrequired : requiredKeys.Nodup) :
    hasExactKeySet ms requiredKeys = true ↔ (members.map Prod.fst).Perm requiredKeys := by
  have hfound (k : Bytes) : (findMember ms k).isSome = true ↔ k ∈ members.map Prod.fst := by
    rw [← keys_eq h, findMember, List.find?_isSome]
    simp [List.mem_map]
  have hlength : ms.length = (members.map Prod.fst).length := by rw [List.length_map, h.length_eq]
  simp only [hasExactKeySet, Bool.and_eq_true, decide_eq_true_eq, List.all_eq_true, hfound, hlength]
  constructor
  · rintro ⟨hle, hall⟩
    exact ((List.subperm_of_subset hrequired hall).perm_of_length_le hle.le).symm
  · intro hperm
    exact ⟨hperm.length_eq, fun k hk => hperm.symm.subset hk⟩

/-! ### The root -/

/-- The text of an object: its members are kept, with the places of their values. -/
theorem parseJsonRootObjectMembers_eq (h : IsText encodeCodepoint (maxDepth + 1) json (.object members)) :
    ∃ ms, parseJsonRootObjectMembers json = some ms ∧ List.Forall₂ (MemberStands json maxDepth) ms members ∧
      DistinctKeys members := by
  obtain ⟨ws, value, ws', rfl, hws, hws', hvalue⟩ := h
  obtain ⟨c, tail, hcons, hbegins⟩ := hvalue.exists_cons
  obtain ⟨hobject, hdistinct⟩ := hvalue
  have hdrop : (ws ++ (value ++ ws')).drop 0 = ws ++ (value ++ ws') := rfl
  have hroot : skipJsonWhitespace (ws ++ (value ++ ws')) 0 = 0 + ws.length := by
    refine skipJsonWhitespace_eq hdrop hws ?_
    rw [hcons]
    exact ends_cons hbegins.other.1 _
  have hvalue := drop_of_append hdrop
  have hend := drop_of_append hvalue
  obtain ⟨ms, hms, hmatch⟩ := (exact (ws ++ (value ++ ws')) maxDepth).parseJsonObject_eq hobject hdistinct hvalue
  have hafter : skipJsonWhitespace (ws ++ (value ++ ws')) (0 + ws.length + value.length) =
      (ws ++ (value ++ ws')).length := by
    rw [skipJsonWhitespace_eq (hend.trans (List.append_nil ws').symm) hws' (ends_nil _)]
    simp only [List.length_append]
    omega
  have hfirst : (ws ++ (value ++ ws'))[0 + ws.length]? = some 0x7B := by
    rw [hcons] at hvalue ⊢
    cases hbegins
    exact getElem?_of_drop hvalue
  refine ⟨ms, ?_, hmatch, hdistinct⟩
  rw [parseJsonRootObjectMembers, hroot]
  simp only [hfirst, ne_eq, not_true_eq_false, if_false, parseObjectAt, Nat.sub_zero, hms, hafter, if_true]

/-- What the root parser accepts is the text of an object. -/
theorem parseJsonRootObjectMembers_sound (h : parseJsonRootObjectMembers json = some ms) :
    ∃ members, IsText encodeCodepoint (maxDepth + 1) json (.object members) := by
  unfold parseJsonRootObjectMembers at h
  simp only at h
  split_ifs at h with hfirst
  split at h
  · contradiction
  next ms' stop hparse =>
    split_ifs at h with hend
    obtain ⟨members, t, ht, hdrop, hlength⟩ :=
      (exact json maxDepth).parseJsonObject_sound (not_not.mp hfirst) hparse
    obtain ⟨ws, hws, hdrop₀, hroot, -⟩ := skipWhile_spec isWhite json 0
    obtain ⟨ws', hws', hdrop₁, hlast, -⟩ := skipWhile_spec isWhite json stop
    change json.drop _ = ws ++ json.drop (skipJsonWhitespace json _) at hdrop₀
    change json.drop _ = ws' ++ json.drop (skipJsonWhitespace json _) at hdrop₁
    rw [hend, List.drop_length, List.append_nil] at hdrop₁
    refine ⟨members, ws, t, ws', ?_, hws, hws', ht⟩
    rw [hdrop, hdrop₁] at hdrop₀
    exact hdrop₀

/-- The text of any other value is refused. -/
theorem parseJsonRootObjectMembers_other (h : IsText encodeCodepoint (maxDepth + 1) json v)
    (hv : ∀ members, v ≠ .object members) : parseJsonRootObjectMembers json = none := by
  obtain ⟨ws, value, ws', rfl, hws, hws', hvalue⟩ := h
  obtain ⟨c, tail, hcons, hbegins⟩ := hvalue.exists_cons
  have hdrop : (ws ++ (value ++ ws')).drop 0 = ws ++ (value ++ ws') := rfl
  have hroot : skipJsonWhitespace (ws ++ (value ++ ws')) 0 = 0 + ws.length := by
    refine skipJsonWhitespace_eq hdrop hws ?_
    rw [hcons]
    exact ends_cons hbegins.other.1 _
  have hvalue := drop_of_append hdrop
  have hfirst : (ws ++ (value ++ ws'))[0 + ws.length]? = some c := by
    rw [hcons] at hvalue ⊢
    exact getElem?_of_drop hvalue
  rw [parseJsonRootObjectMembers, hroot]
  refine if_pos fun hbrace => ?_
  cases hfirst.symm.trans hbrace
  obtain ⟨members, hobject⟩ := object_of_begins hbegins
  exact hv members hobject

end AIWorld.Inference
