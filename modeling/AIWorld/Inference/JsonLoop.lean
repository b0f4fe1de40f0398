import AIWorld.Inference.JsonScan
import Mathlib.Data.List.Forall2

/-! The loop over the elements between two brackets, for whatever walks over one element. It
accepts exactly the elements that the grammar separates by commas. -/

namespace AIWorld.Inference

open Lib.Json

variable {json t rest : Bytes} {i e start : ℕ} {c : UInt8}

theorem skipJsonWhitespace_cons {ws : Bytes} (h : json.drop i = ws ++ c :: rest) (hws : White ws)
    (hc : isWhite c = false) : skipJsonWhitespace json i = i + ws.length :=
  skipJsonWhitespace_eq h hws (ends_cons hc rest)

/-- White space, and then a byte with which no number goes on. -/
theorem White.ends {ws : Bytes} (hws : White ws) (hc : isNumberByte c = false) (rest : Bytes) :
    Ends isNumberByte (ws ++ c :: rest) := by
  refine Ends.append (fun _ d hd => ?_) (ends_cons hc rest)
  have hwhite := hws d (List.mem_of_mem_head? hd)
  simp only [isWhite, Bool.or_eq_true, decide_eq_true_eq] at hwhite
  rcases hwhite with ((rfl | rfl) | rfl) | rfl <;> decide

section Loop
variable {α : Type} {β : Type*} {element : List α → ℕ → Option (α × ℕ)} {close : UInt8}
  {E : Bytes → β → Prop} {Match : α → β → Prop} {Distinct : List β → Prop}

/-- A walk over one element accepts only what the grammar has for an element. -/
def ElementSound (json : Bytes) (element : List α → ℕ → Option (α × ℕ)) (E : Bytes → β → Prop)
    (Match : α → β → Prop) (Distinct : List β → Prop) : Prop :=
  ∀ seen ys i x e, List.Forall₂ Match seen ys → Distinct ys → element seen i = some (x, e) →
    ∃ t y, E t y ∧ Match x y ∧ Distinct (ys ++ [y]) ∧ json.drop i = t ++ json.drop e ∧ e = i + t.length

/-- It accepts all of that. -/
def ElementComplete (json : Bytes) (element : List α → ℕ → Option (α × ℕ)) (E : Bytes → β → Prop)
    (Match : α → β → Prop) (Distinct : List β → Prop) : Prop :=
  ∀ seen ys y i t rest, List.Forall₂ Match seen ys → Distinct (ys ++ [y]) → E t y →
    json.drop i = t ++ rest → Ends isNumberByte rest → ∃ x, element seen i = some (x, i + t.length) ∧ Match x y

theorem parseElements_sound (helement : ElementSound json element E Match Distinct) {seen xs : List α} {ys : List β}
    {fuel : ℕ} (hseen : List.Forall₂ Match seen ys) (hdistinct : Distinct ys)
    (h : parseElements element close json fuel seen i = some (xs, e)) : ∃ body ys', Separated E body ys' ∧
      Distinct (ys ++ ys') ∧ json.drop i = body ++ close :: json.drop e ∧ e = i + (body.length + 1) := by
  induction fuel generalizing seen ys i with
  | zero => contradiction
  | succ fuel ih =>
    rw [parseElements] at h
    split at h
    · contradiction
    next x stop hx =>
      obtain ⟨t, y, ht, hmatch, hdistinct, hdrop, rfl⟩ := helement seen ys i x stop hseen hdistinct hx
      obtain ⟨ws, hws, hdrop₁, hskip, -⟩ := skipWhile_spec isWhite json (i + t.length)
      change skipJsonWhitespace json (i + t.length) = _ at hskip
      simp only [hskip] at h
      split_ifs at h with hcomma hclose
      · obtain ⟨ws', hws', hdrop₂, hskip', -⟩ := skipWhile_spec isWhite json (i + t.length + ws.length + 1)
        change skipJsonWhitespace json _ = _ at hskip'
        rw [hskip'] at h
        have hmatches := List.rel_append hseen (.cons hmatch .nil)
        obtain ⟨body, ys', hbody, hdistinct', hdrop₃, rfl⟩ := ih hmatches hdistinct h
        change json.drop _ = ws' ++ json.drop (skipJsonWhitespace json _) at hdrop₂
        change json.drop _ = ws ++ json.drop (skipJsonWhitespace json _) at hdrop₁
        rw [List.append_assoc] at hdistinct'
        refine ⟨_, y :: ys', .cons ht hws hws' hbody, hdistinct', ?_, ?_⟩
        · rw [hdrop, hdrop₁, hskip, drop_of_getElem? hcomma, hdrop₂, hskip', hdrop₃]
          simp only [List.append_assoc, List.cons_append]
        · simp only [List.length_append, List.length_cons]
          omega
      · cases h
        change json.drop _ = ws ++ json.drop (skipJsonWhitespace json _) at hdrop₁
        refine ⟨_, [y], .last ht hws, hdistinct, ?_, ?_⟩
        · rw [hdrop, hdrop₁, hskip, drop_of_getElem? hclose, List.append_assoc]
        · rw [List.length_append]
          omega

/-- What an element begins with. -/
def Begins (close : UInt8) (E : Bytes → β → Prop) : Prop :=
  ∀ t y, E t y → ∃ c rest, t = c :: rest ∧ isWhite c = false ∧ c ≠ close

theorem Begins.separated (hbegins : Begins close E) {body : Bytes} {ys : List β} (h : Separated E body ys) :
    ∃ c rest, body = c :: rest ∧ isWhite c = false ∧ c ≠ close := by
  cases h with
  | last ht | cons ht =>
    obtain ⟨c, tail, rfl, hc⟩ := hbegins _ _ ht
    exact ⟨c, _, rfl, hc⟩

section Complete
variable (helement : ElementComplete json element E Match Distinct)
  (hpre : ∀ ys ys', Distinct (ys ++ ys') → Distinct ys) (hbegins : Begins close E)
  (hclose : isWhite close = false) (hnumber : isNumberByte close = false) (hcomma : close ≠ ','.toUInt8)
include helement hpre hbegins hclose hnumber hcomma

theorem parseElements_eq {body : Bytes} {ys : List β} (hbody : Separated E body ys) {seen : List α} {ys₀ : List β}
    {fuel : ℕ} (hfuel : ys.length ≤ fuel) (hseen : List.Forall₂ Match seen ys₀) (hdistinct : Distinct (ys₀ ++ ys))
    (h : json.drop i = body ++ close :: rest) : ∃ xs,
      parseElements element close json fuel seen i = some (xs, i + (body.length + 1)) ∧
      List.Forall₂ Match xs (ys₀ ++ ys) := by
  induction hbody generalizing seen ys₀ fuel i with
  | @last t ws y ht hws =>
    obtain ⟨fuel, rfl⟩ := Nat.exists_eq_add_one_of_ne_zero (Nat.one_le_iff_ne_zero.mp hfuel)
    rw [List.append_assoc] at h
    obtain ⟨x, hx, hmatch⟩ := helement seen ys₀ y i t _ hseen hdistinct ht h (White.ends hws hnumber rest)
    have hdrop := drop_of_append h
    have hskip := skipJsonWhitespace_cons hdrop hws hclose
    have hend := drop_of_append hdrop
    refine ⟨seen ++ [x], ?_, List.rel_append hseen (.cons hmatch .nil)⟩
    rw [parseElements, hx]
    simp only [hskip, getElem?_of_drop hend, if_true, List.length_append]
    rw [if_neg fun heq => hcomma (Option.some.inj heq)]
    simp only [Nat.add_assoc]
  | @cons t ws ws' body y ys ht hws hws' hrest ih =>
    obtain ⟨fuel, rfl⟩ := Nat.exists_eq_add_one_of_ne_zero (show fuel ≠ 0 by rw [List.length_cons] at hfuel; omega)
    simp only [List.append_assoc, List.cons_append] at h
    have hcommaWhite : isWhite ','.toUInt8 = false := by decide
    have hcommaNumber : isNumberByte ','.toUInt8 = false := by decide
    have hfirst : Distinct (ys₀ ++ [y]) := hpre _ ys (by rw [List.append_assoc]; exact hdistinct)
    obtain ⟨x, hx, hmatch⟩ := helement seen ys₀ y i t _ hseen hfirst ht h (White.ends hws hcommaNumber _)
    have hdrop := drop_of_append h
    have hskip := skipJsonWhitespace_cons hdrop hws hcommaWhite
    have hafter := drop_of_append hdrop
    have hnext := drop_of_cons hafter
    obtain ⟨c, tail, rfl, hc, -⟩ := hbegins.separated hrest
    have hskip' := skipJsonWhitespace_cons hnext hws' hc
    have hmatches := List.rel_append hseen (.cons hmatch .nil)
    have hdistinct' : Distinct ((ys₀ ++ [y]) ++ ys) := by rwa [List.append_assoc]
    obtain ⟨xs, hxs, hall⟩ := ih (Nat.le_of_succ_le_succ hfuel) hmatches hdistinct' (drop_of_append hnext)
    rw [List.append_assoc] at hall
    refine ⟨xs, ?_, hall⟩
    rw [parseElements, hx]
    simp only [hskip, getElem?_of_drop hafter, if_true, hskip', hxs, List.length_append, List.length_cons]
    congr 2
    omega

/-- Everything between two brackets. -/
theorem parseBracketed_eq {first : UInt8} {ys : List β} (ht : Bracketed E first close t ys) (hdistinct : Distinct ys)
    (h : json.drop start = t ++ rest) : ∃ xs,
      parseBracketed element close json start = some (xs, start + t.length) ∧ List.Forall₂ Match xs ys := by
  obtain ⟨ws, body, hws, rfl, hbody⟩ := ht
  simp only [List.append_assoc, List.cons_append, List.nil_append] at h
  have hstart := drop_of_cons h
  have hlength : start + (first :: (ws ++ (body ++ [close]))).length = start + 1 + ws.length + (body.length + 1) := by
    simp only [List.length_cons, List.length_append, List.length_nil]
    omega
  rw [hlength]
  unfold parseBracketed
  rcases hbody with ⟨rfl, rfl⟩ | hbody
  · rw [skipJsonWhitespace_cons hstart hws hclose]
    simp only [getElem?_of_drop (drop_of_append hstart), if_true]
    exact ⟨[], rfl, .nil⟩
  · obtain ⟨c, tail, hc, hwhite, hne⟩ := hbegins.separated hbody
    have hcons : json.drop (start + 1) = ws ++ c :: (tail ++ close :: rest) := by
      rw [hstart, hc, List.cons_append]
    have hdrop := drop_of_append hstart
    have hfuel : ys.length ≤ json.length := by
      have hle := hbody.length_le fun t y ht => by
        obtain ⟨d, tail, rfl, -⟩ := hbegins t y ht
        exact List.cons_ne_nil d tail
      have := congrArg List.length hdrop
      rw [List.length_drop, List.length_append] at this
      omega
    rw [skipJsonWhitespace_cons hcons hws hwhite]
    simp only
    rw [if_neg fun heq => ?_]
    · have hnil : List.Forall₂ Match [] [] := .nil
      exact parseElements_eq helement hpre hbegins hclose hnumber hcomma hbody hfuel hnil hdistinct hdrop
    · rw [getElem?_of_drop (drop_of_append hcons)] at heq
      exact hne (Option.some.inj heq)

end Complete

theorem parseBracketed_sound (helement : ElementSound json element E Match Distinct) (hempty : Distinct [])
    {first : UInt8} (hfirst : json[start]? = some first) {xs : List α}
    (h : parseBracketed element close json start = some (xs, e)) : ∃ t ys, Bracketed E first close t ys ∧
      Distinct ys ∧ json.drop start = t ++ json.drop e ∧ e = start + t.length := by
  obtain ⟨ws, hws, hdrop, hskip, -⟩ := skipWhile_spec isWhite json (start + 1)
  change skipJsonWhitespace json (start + 1) = _ at hskip
  change json.drop _ = ws ++ json.drop (skipJsonWhitespace json _) at hdrop
  rw [hskip] at hdrop
  unfold parseBracketed at h
  simp only [hskip] at h
  split_ifs at h with hclose
  · cases h
    refine ⟨first :: (ws ++ ([] ++ [close])), [], ⟨ws, [], hws, rfl, .inl ⟨rfl, rfl⟩⟩, hempty, ?_, ?_⟩
    · rw [drop_of_getElem? hfirst, hdrop, drop_of_getElem? hclose]
      simp
    · simp only [List.length_cons, List.length_append, List.length_nil]
      omega
  · obtain ⟨body, ys, hbody, hdistinct, hdrop', rfl⟩ := parseElements_sound helement .nil hempty h
    refine ⟨first :: (ws ++ (body ++ [close])), ys, ⟨ws, body, hws, rfl, .inr hbody⟩, hdistinct, ?_, ?_⟩
    · rw [drop_of_getElem? hfirst, hdrop, hdrop']
      simp
    · simp only [List.length_cons, List.length_append, List.length_nil]
      omega

end Loop

end AIWorld.Inference
