import AIWorld.Inference.JsonLoop

/-! The walker accepts exactly the values of the grammar, and the members that it keeps are
those of the object. -/

namespace AIWorld.Inference

open Lib.Json

variable {json t rest : Bytes} {levels pos start stop : ℕ} {v : Value}

/-- A value stands between two positions. -/
def Stands (json : Bytes) (levels start stop : ℕ) (v : Value) : Prop :=
  ∃ t, Spells encodeCodepoint levels t v ∧ json.drop start = t ++ json.drop stop ∧ stop = start + t.length

/-- A member is kept with its key and the place of its value. -/
def MemberStands (json : Bytes) (levels : ℕ) (m : JsonObjectMember) (y : Bytes × Value) : Prop :=
  m.key = y.1 ∧ Stands json levels m.valueStart m.valueEnd y.2

def DistinctKeys (members : List (Bytes × Value)) : Prop := (members.map Prod.fst).Nodup

def ItemStands (json : Bytes) (levels : ℕ) (span : ℕ × ℕ) (v : Value) : Prop := Stands json levels span.1 span.2 v

theorem keys_eq {ms : List JsonObjectMember} {ys : List (Bytes × Value)}
    (h : List.Forall₂ (MemberStands json levels) ms ys) : ms.map JsonObjectMember.key = ys.map Prod.fst := by
  induction h with
  | nil => rfl
  | cons hm _ ih => rw [List.map_cons, List.map_cons, hm.1, ih]

/-! ### Elements -/

/-- The walker is right for values with some number of levels. -/
structure Exact (json : Bytes) (levels : ℕ) : Prop where
  sound : ∀ pos stop, parseJsonValue json levels pos = some stop → ∃ v, Stands json levels pos stop v
  complete : ∀ pos t rest v, Spells encodeCodepoint levels t v → json.drop pos = t ++ rest →
    Ends isNumberByte rest → parseJsonValue json levels pos = some (pos + t.length)

theorem Exact.items_sound (h : Exact json levels) : ElementSound json (parseItem (parseJsonValue json levels))
    (Spells encodeCodepoint levels) (ItemStands json levels) (fun _ => True) := by
  rintro seen ys i x e - - hx
  obtain ⟨stop, hstop, hx⟩ := Option.bind_eq_some_iff.mp hx
  cases hx
  obtain ⟨v, t, ht, hdrop, hlength⟩ := h.sound i _ hstop
  exact ⟨t, v, ht, ⟨t, ht, hdrop, hlength⟩, trivial, hdrop, hlength⟩

theorem Exact.items_complete (h : Exact json levels) : ElementComplete json (parseItem (parseJsonValue json levels))
    (Spells encodeCodepoint levels) (ItemStands json levels) (fun _ => True) := by
  rintro seen ys v i t rest - - ht hdrop hends
  rw [parseItem, h.complete i t rest v ht hdrop hends]
  exact ⟨_, rfl, t, ht, by rw [drop_of_append hdrop, hdrop], rfl⟩

theorem Exact.members_sound (h : Exact json levels) : ElementSound json
    (parseMember (parseJsonValue json levels) json) (IsMember encodeCodepoint (Spells encodeCodepoint levels))
    (MemberStands json levels) DistinctKeys := by
  intro seen ys i x e hseen hdistinct hx
  simp only [parseMember, Option.bind_eq_bind, Option.bind_eq_some_iff] at hx
  obtain ⟨keyEnd, hkeyEnd, key, hkey, hx⟩ := hx
  obtain ⟨k, s, hk, hdrop, rfl⟩ := skipJsonStringLiteral_sound hkeyEnd
  rw [substr_of_append hdrop, unescapeJsonString_eq hk] at hkey
  cases hkey
  split_ifs at hx with hnew hcolon
  rw [not_not] at hcolon
  obtain ⟨stop, hstop, hx⟩ := Option.bind_eq_some_iff.mp hx
  cases hx
  obtain ⟨v, value, hvalue, hdrop₃, hlength⟩ := h.sound _ _ hstop
  obtain ⟨ws, hws, hdrop₁, hskip₁, -⟩ := skipWhile_spec isWhite json (i + k.length)
  obtain ⟨ws', hws', hdrop₂, hskip₂, -⟩ := skipWhile_spec isWhite json (skipJsonWhitespace json (i + k.length) + 1)
  change json.drop _ = ws ++ json.drop (skipJsonWhitespace json _) at hdrop₁
  change json.drop _ = ws' ++ json.drop (skipJsonWhitespace json _) at hdrop₂
  change skipJsonWhitespace json _ = _ at hskip₁ hskip₂
  refine ⟨_, (key, v), ⟨k, ws, ws', value, rfl, hk, hws, hws', hvalue⟩, ⟨rfl, value, hvalue, hdrop₃, hlength⟩, ?_, ?_, ?_⟩
  · rw [keys_eq hseen] at hnew
    rw [DistinctKeys, List.map_append, List.map_singleton]
    refine List.nodup_append.mpr ⟨hdistinct, by simp, fun a ha b hb heq => hnew ?_⟩
    have hb : b = key := List.mem_singleton.mp hb
    rw [← hb, ← heq]
    exact ha
  · rw [hdrop, hdrop₁, drop_of_getElem? hcolon, hdrop₂, hdrop₃]
    simp only [List.append_assoc, List.cons_append]
  · rw [hlength, hskip₂, hskip₁]
    simp only [List.length_append, List.length_cons]
    omega

theorem Exact.members_complete (h : Exact json levels) : ElementComplete json
    (parseMember (parseJsonValue json levels) json) (IsMember encodeCodepoint (Spells encodeCodepoint levels))
    (MemberStands json levels) DistinctKeys := by
  rintro seen ys ⟨key, v⟩ i t rest hseen hdistinct ⟨k, ws, ws', value, rfl, hk, hws, hws', hvalue⟩ hdrop hends
  simp only [List.append_assoc, List.cons_append] at hdrop
  have hnew : key ∉ seen.map JsonObjectMember.key := by
    rw [DistinctKeys, List.map_append, List.map_singleton] at hdistinct
    rw [keys_eq hseen]
    exact fun hmem => (List.nodup_append.mp hdistinct).2.2 key hmem key List.mem_cons_self rfl
  have hcolonWhite : isWhite ':'.toUInt8 = false := by decide
  have hdrop₁ := drop_of_append hdrop
  have hdrop₂ := drop_of_append hdrop₁
  have hdrop₃ := drop_of_cons hdrop₂
  obtain ⟨c, tail, hc, hbegins⟩ := hvalue.exists_cons
  have hskip' : skipJsonWhitespace json _ = _ := skipJsonWhitespace_cons (hc ▸ hdrop₃) hws' hbegins.other.1
  have hdrop₄ := drop_of_append hdrop₃
  have hstop := h.complete _ value rest v hvalue hdrop₄ hends
  refine ⟨⟨key, i + k.length + ws.length + 1 + ws'.length, _⟩, ?_, rfl, value, hvalue,
    by rw [drop_of_append hdrop₄, hdrop₄], rfl⟩
  simp only [parseMember, skipJsonStringLiteral_eq hk hdrop, substr_of_append hdrop, unescapeJsonString_eq hk,
    Option.bind_eq_bind, Option.bind_some, if_neg hnew, skipJsonWhitespace_cons hdrop₁ hws hcolonWhite,
    getElem?_of_drop hdrop₂, ne_eq, not_true_eq_false, if_false, hskip', hstop, List.length_append, List.length_cons]
  congr 2
  omega

/-! ### Values -/

theorem begins_item (levels : ℕ) : Begins ']'.toUInt8 (Spells encodeCodepoint levels) := by
  intro t v ht
  obtain ⟨c, rest, rfl, hc⟩ := ht.exists_cons
  exact ⟨c, rest, rfl, hc.other⟩

theorem begins_member (levels : ℕ) : Begins 0x7D (IsMember encodeCodepoint (Spells encodeCodepoint levels)) := by
  rintro t y ⟨k, ws, ws', value, rfl, hk, -⟩
  obtain ⟨rest, rfl⟩ := hk.exists_cons
  exact ⟨quote, _, rfl, by decide, by decide⟩

theorem distinctKeys_prefix (ys ys' : List (Bytes × Value)) (h : DistinctKeys (ys ++ ys')) : DistinctKeys ys := by
  rw [DistinctKeys, List.map_append] at h
  exact (List.nodup_append.mp h).1

theorem Exact.parseJsonObject_eq (h : Exact json levels) {members : List (Bytes × Value)}
    (ht : Bracketed (IsMember encodeCodepoint (Spells encodeCodepoint levels)) 0x7B 0x7D t members)
    (hdistinct : DistinctKeys members) (hdrop : json.drop start = t ++ rest) : ∃ ms,
      parseJsonObject (parseJsonValue json levels) json start = some (ms, start + t.length) ∧
      List.Forall₂ (MemberStands json levels) ms members :=
  parseBracketed_eq h.members_complete distinctKeys_prefix (begins_member levels) (by decide) (by decide)
    (by decide) ht hdistinct hdrop

theorem Exact.parseJsonArray_eq (h : Exact json levels) {items : List Value}
    (ht : Bracketed (Spells encodeCodepoint levels) '['.toUInt8 ']'.toUInt8 t items)
    (hdrop : json.drop start = t ++ rest) : ∃ spans,
      parseJsonArray (parseJsonValue json levels) json start = some (spans, start + t.length) ∧
      List.Forall₂ (ItemStands json levels) spans items :=
  parseBracketed_eq h.items_complete (fun _ _ _ => trivial) (begins_item levels) (by decide) (by decide)
    (by decide) ht trivial hdrop

theorem Exact.parseJsonObject_sound (h : Exact json levels) (hstart : json[start]? = some 0x7B)
    {ms : List JsonObjectMember} (hparse : parseJsonObject (parseJsonValue json levels) json start = some (ms, stop)) :
    ∃ members, Stands json (levels + 1) start stop (.object members) := by
  obtain ⟨t, members, ht, hdistinct, hdrop⟩ := parseBracketed_sound h.members_sound List.nodup_nil hstart hparse
  exact ⟨members, t, ⟨ht, hdistinct⟩, hdrop⟩

theorem Exact.parseJsonArray_sound (h : Exact json levels) (hstart : json[start]? = some '['.toUInt8)
    {spans : List (ℕ × ℕ)} (hparse : parseJsonArray (parseJsonValue json levels) json start = some (spans, stop)) :
    ∃ items, Stands json (levels + 1) start stop (.array items) := by
  obtain ⟨t, items, ht, -, hdrop⟩ := parseBracketed_sound h.items_sound trivial hstart hparse
  exact ⟨items, t, ht, hdrop⟩

/-- A word of the grammar at a position. -/
theorem substr_word (json : Bytes) (pos n : ℕ) {word : Bytes} (h : substr json pos (pos + n) = word) : json.drop pos = word ++ json.drop (pos + n) := by
  rw [substr, Nat.add_sub_cancel_left] at h
  rw [← h, ← List.drop_drop, List.take_append_drop]

theorem substr_ne {n : ℕ} (word : Bytes) {tail : Bytes} {c : UInt8} (h : json.drop pos = c :: tail)
    (hne : word.head? ≠ some c) : substr json pos (pos + (n + 1)) ≠ word := by
  rintro rfl
  rw [substr, Nat.add_sub_cancel_left, h] at hne
  exact hne rfl

theorem exact_succ (h : Exact json levels) : Exact json (levels + 1) := by
  refine ⟨fun pos stop hparse => ?_, fun pos t rest v ht hdrop hends => ?_⟩
  · rw [parseJsonValue] at hparse
    split at hparse
    · contradiction
    next c hc =>
      split_ifs at hparse with hobject harray hstring hnumber htrue hfalse hnull
      · obtain ⟨⟨ms, _⟩, hms, rfl⟩ := Option.map_eq_some_iff.mp hparse
        obtain ⟨members, hstands⟩ := h.parseJsonObject_sound (hobject ▸ hc) hms
        exact ⟨_, hstands⟩
      · obtain ⟨⟨spans, _⟩, hspans, rfl⟩ := Option.map_eq_some_iff.mp hparse
        obtain ⟨items, hstands⟩ := h.parseJsonArray_sound (harray ▸ hc) hspans
        exact ⟨_, hstands⟩
      · obtain ⟨t, s, ht, hdrop⟩ := skipJsonStringLiteral_sound hparse
        exact ⟨.string s, t, ht, hdrop⟩
      · simp only at hparse
        split_ifs at hparse with hmoved
        cases hparse
        obtain ⟨t, ht, hdrop⟩ := skipStrictJsonNumber_sound hmoved
        exact ⟨.number t, t, ⟨rfl, ht⟩, hdrop⟩
      · cases hparse
        exact ⟨.bool true, ascii "true", rfl, substr_word json pos 4 htrue, rfl⟩
      · cases hparse
        exact ⟨.bool false, ascii "false", rfl, substr_word json pos 5 hfalse, rfl⟩
      · cases hparse
        exact ⟨.null, ascii "null", rfl, substr_word json pos 4 hnull, rfl⟩
  · have hfirst {c : UInt8} {tail : Bytes} (hc : t = c :: tail) : json[pos]? = some c := by
      rw [hc] at hdrop
      exact getElem?_of_drop hdrop
    cases v with
    | null =>
      cases ht
      rw [parseJsonValue, hfirst rfl]
      have hfalse := substr_ne (n := 4) (ascii "false") hdrop (by decide)
      have hnull : substr json pos (pos + 4) = ascii "null" := substr_of_append hdrop
      simp only [hfalse, hnull, if_true, if_false]
      rfl
    | bool b =>
      cases b with
      | true =>
        cases ht
        rw [parseJsonValue, hfirst rfl]
        have htrue : substr json pos (pos + 4) = ascii "true" := substr_of_append hdrop
        simp only [htrue, if_true]
        rfl
      | false =>
        cases ht
        rw [parseJsonValue, hfirst rfl]
        have htrue := substr_ne (n := 3) (ascii "true") hdrop (by decide)
        have hfalse : substr json pos (pos + 5) = ascii "false" := substr_of_append hdrop
        simp only [htrue, hfalse, if_true, if_false]
        rfl
    | number text =>
      obtain ⟨rfl, hnumber⟩ := ht
      obtain ⟨c, tail, hcons, hc⟩ := hnumber.exists_cons
      have hothers : c ≠ 0x7B ∧ c ≠ '['.toUInt8 ∧ c ≠ quote := by
        refine ⟨?_, ?_, ?_⟩ <;> rintro rfl <;> exact absurd hc (by decide)
      have hmoved : pos + t.length ≠ pos := by
        rw [hcons, List.length_cons]
        omega
      rw [parseJsonValue, hfirst hcons]
      simp only [if_neg hothers.1, if_neg hothers.2.1, if_neg hothers.2.2, if_pos hc,
        skipStrictJsonNumber_eq hnumber hdrop hends, if_neg hmoved]
    | string text =>
      obtain ⟨tail, hquote⟩ := IsString.exists_cons ht
      rw [parseJsonValue, hfirst hquote]
      exact skipJsonStringLiteral_eq ht hdrop
    | array items =>
      obtain ⟨ws, body, -, hbracket, -⟩ := id ht
      obtain ⟨spans, hspans, -⟩ := h.parseJsonArray_eq ht hdrop
      rw [parseJsonValue, hfirst hbracket]
      simp only [hspans]
      rfl
    | object members =>
      obtain ⟨ht, hdistinct⟩ := ht
      obtain ⟨ws, body, -, hbracket, -⟩ := id ht
      obtain ⟨ms, hms, -⟩ := h.parseJsonObject_eq ht hdistinct hdrop
      rw [parseJsonValue, hfirst hbracket]
      simp only [hms]
      rfl

/-- The walker accepts exactly the values of the grammar, whatever their levels. -/
theorem exact (json : Bytes) (levels : ℕ) : Exact json levels := by
  induction levels with
  | zero => exact ⟨fun _ _ h => by contradiction, fun _ _ _ _ h => by contradiction⟩
  | succ levels ih => exact exact_succ ih

end AIWorld.Inference
