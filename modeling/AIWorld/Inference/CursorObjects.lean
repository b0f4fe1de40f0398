import AIWorld.Inference.CursorStrings
import Mathlib.Data.List.Nodup
import Mathlib.Data.List.Perm.Subperm

/-! The object of the cursor, for whatever reads the value of a member. Each member sets one field of a
record, and an object is read exactly where one stands that has each key once. -/

namespace AIWorld.Inference.JsonCursor

open Lib Lib.Json

/-! ### Fields of a record -/

section Fields
variable {σ : Type} {names : List Bytes} {Is : Bytes → Bytes → σ → Prop} {put : Bytes → σ → σ → σ}
  {key key' text : Bytes} {r s s' : σ} {ms : List (Bytes × Bytes)}

/-- A record whose fields are named: what a text says of one field, and a field that is set to what it
is in another record. -/
structure Fields (names : List Bytes) (Is : Bytes → Bytes → σ → Prop) (put : Bytes → σ → σ → σ) : Prop where
  named : ∀ {key text r}, Is key text r → key ∈ names
  is_put : ∀ {key text r s}, Is key text (put key r s) ↔ Is key text r
  is_put_ne : ∀ {key key' text r s}, key ≠ key' → (Is key text (put key' r s) ↔ Is key text s)
  put_put : ∀ key r s, put key r (put key r s) = put key r s
  put_comm : ∀ key key' r s, put key r (put key' r s) = put key' r (put key r s)
  ext : ∀ {r s}, (∀ key ∈ names, put key r s = s) → s = r

/-- The members set their fields one after the other. -/
inductive Chain (Is : Bytes → Bytes → σ → Prop) (put : Bytes → σ → σ → σ) : σ → List (Bytes × Bytes) → σ → Prop
  | nil (s : σ) : Chain Is put s [] s
  | cons {m : Bytes × Bytes} {ms : List (Bytes × Bytes)} {r s s' : σ} (h : Is m.1 m.2 r)
      (hrest : Chain Is put (put m.1 r s) ms s') : Chain Is put s (m :: ms) s'

theorem Chain.named (hfields : Fields names Is put) (h : Chain Is put s ms s') : ∀ m ∈ ms, m.1 ∈ names := by
  induction h with
  | nil => simp
  | cons h _ ih => exact List.forall_mem_cons.mpr ⟨hfields.named h, ih⟩

theorem Chain.keep (hfields : Fields names Is put) (h : Chain Is put s ms s') (hkey : key ∉ ms.map Prod.fst) :
    Is key text s' ↔ Is key text s := by
  induction h with
  | nil => rfl
  | @cons m ms r s s' _ _ ih =>
    rw [List.map_cons, List.mem_cons, not_or] at hkey
    rw [ih hkey.2, hfields.is_put_ne hkey.1]

/-- Where no key comes twice, all that the members say holds in the end. -/
theorem Chain.is (hfields : Fields names Is put) (h : Chain Is put s ms s') (hnodup : (ms.map Prod.fst).Nodup) :
    ∀ m ∈ ms, Is m.1 m.2 s' := by
  induction h with
  | nil => simp
  | @cons m ms r s s' hm hrest ih =>
    rw [List.map_cons, List.nodup_cons] at hnodup
    refine List.forall_mem_cons.mpr ⟨?_, ih hnodup.2⟩
    rw [hrest.keep hfields hnodup.1, hfields.is_put]
    exact hm

def putAll (put : Bytes → σ → σ → σ) (r : σ) (ms : List (Bytes × Bytes)) (s : σ) : σ :=
  ms.foldl (fun s m => put m.1 r s) s

theorem putAll_put (hfields : Fields names Is put) :
    put key r (putAll put r ms s) = putAll put r ms (put key r s) := by
  induction ms generalizing s with
  | nil => rfl
  | cons m ms ih =>
    rw [putAll, putAll, List.foldl_cons, List.foldl_cons, hfields.put_comm m.1 key]
    exact ih

/-- Once every field is set, nothing is left of the record that there was. -/
theorem putAll_eq (hfields : Fields names Is put) (hall : ∀ key ∈ names, key ∈ ms.map Prod.fst) :
    putAll put r ms s = r := by
  have hset : ∀ key ∈ ms.map Prod.fst, put key r (putAll put r ms s) = putAll put r ms s := by
    clear hall
    induction ms generalizing s with
    | nil => simp
    | cons m ms ih =>
      intro key hkey
      rcases List.mem_cons.mp hkey with rfl | hkey
      · change put m.1 r (putAll put r ms (put m.1 r s)) = putAll put r ms (put m.1 r s)
        rw [putAll_put hfields, hfields.put_put]
      · exact ih key hkey
  exact hfields.ext fun key hkey => hset key (hall key hkey)

end Fields

/-! ### Members -/

section Members
variable {σ : Type} {names : List Bytes} {Is : Bytes → Bytes → σ → Prop} {put : Bytes → σ → σ → σ}
  {read : Bytes → σ → Bytes → Option (σ × Bytes)} {r s s' : σ} {t w body rest rest' : Bytes}
  {ms : List (Bytes × Bytes)} {required fuel : ℕ} {keys : List Bytes}

/-- The value of a member is read exactly where its text stands. -/
structure Reads (read : Bytes → σ → Bytes → Option (σ × Bytes)) (Is : Bytes → Bytes → σ → Prop)
    (put : Bytes → σ → σ → σ) : Prop where
  sound : ∀ {key s t s' rest}, read key s t = some (s', rest) →
    ∃ w text r, White w ∧ t = w ++ (text ++ rest) ∧ Is key text r ∧ s' = put key r s
  complete : ∀ {key s w text r rest}, White w → Is key text r → Ends isDigit rest →
    (text ++ rest).length ≤ npcAgentResponseBodyLimit → read key s (w ++ (text ++ rest)) = some (put key r s, rest)

theorem ends_isDigit_white {c : UInt8} (hw : White w) (hc : isDigit c = false) : Ends isDigit (w ++ c :: rest) := by
  refine Ends.append (fun _ d hd => ?_) (ends_cons hc rest)
  have hwhite := hw d (List.mem_of_mem_head? hd)
  by_contra hdigit
  rw [isWhite_of_isDigit (Bool.not_eq_false _ ▸ hdigit)] at hwhite
  contradiction

theorem nodup_snoc {key : Bytes} (h : keys.Nodup) (hnew : key ∉ keys) : (keys ++ [key]).Nodup := by
  rw [← List.concat_eq_append]
  exact h.concat hnew

theorem members_sound (hreads : Reads read Is put) (hnodup : keys.Nodup)
    (h : members read required fuel keys s t = some (s', rest)) : ∃ w body ms, White w ∧
      t = w ++ (body ++ 0x7D :: rest) ∧ Separated IsNamed body ms ∧ Chain Is put s ms s' ∧
      (keys ++ ms.map Prod.fst).Nodup ∧ (keys ++ ms.map Prod.fst).length = required := by
  induction fuel generalizing keys s t with
  | zero => contradiction
  | succ fuel ih =>
    rw [members] at h
    obtain ⟨⟨key, t₁⟩, hstring, h₁⟩ := Option.bind_eq_some_iff.mp h
    obtain ⟨w, lit, cs, hw, rfl, hlit, hkey, -⟩ := string_iff.mp hstring
    dsimp only at h₁
    rw [Option.ite_none_left_eq_some, not_or] at h₁
    obtain ⟨⟨-, hnew⟩, h₁⟩ := h₁
    obtain ⟨t₂, htake, h₂⟩ := Option.bind_eq_some_iff.mp h₁
    obtain ⟨ws, hws, rfl⟩ := take_sound htake
    rw [Option.ite_none_left_eq_some] at h₂
    obtain ⟨⟨s₁, t₃⟩, hread, h₃⟩ := Option.bind_eq_some_iff.mp h₂.2
    obtain ⟨ws', text, r, hws', rfl, his, rfl⟩ := hreads.sound hread
    have hnamed : IsNamed (lit ++ (ws ++ ':'.toUInt8 :: (ws' ++ text))) (key, text) :=
      ⟨lit, cs, ws, ws', rfl, hlit, hkey, hws, hws'⟩
    have hnodup' := nodup_snoc hnodup hnew
    dsimp only at h₃
    cases hlast : take 0x7D t₃ with
    | some t₄ =>
      simp only [hlast] at h₃
      split_ifs at h₃ with hlength
      obtain ⟨rfl, rfl⟩ := Prod.mk.inj (Option.some.inj h₃)
      obtain ⟨ws'', hws'', rfl⟩ := take_sound hlast
      refine ⟨w, _, [(key, text)], hw, ?_, .last hnamed hws'', .cons his (.nil _), hnodup', hlength⟩
      simp
    | none =>
      simp only [hlast] at h₃
      obtain ⟨t₄, hcomma, h₄⟩ := Option.bind_eq_some_iff.mp h₃
      obtain ⟨ws'', hws'', rfl⟩ := take_sound hcomma
      obtain ⟨w', body, ms, hw', rfl, hseparated, hchain, hall, hlength⟩ := ih hnodup' h₄
      rw [List.append_assoc, List.singleton_append, ← List.map_cons (f := Prod.fst) (a := (key, text))] at hall hlength
      refine ⟨w, _, (key, text) :: ms, hw, ?_, .cons hnamed hws'' hw' hseparated, .cons his hchain, hall, hlength⟩
      simp

/-- One member is read; what follows decides whether there is another. -/
theorem members_eq (hreads : Reads read Is put) {m : Bytes × Bytes} (hnamed : IsNamed t m) (his : Is m.1 m.2 r)
    (hshort : m.1.length ≤ 64) (hnew : m.1 ∉ keys) (hcount : (keys ++ [m.1]).length ≤ required) (hw : White w)
    (hends : Ends isDigit rest) (hlimit : (t ++ rest).length ≤ npcAgentResponseBodyLimit) :
    members read required (fuel + 1) keys s (w ++ (t ++ rest)) =
      (take 0x7D rest).elim
        ((take ','.toUInt8 rest).bind (members read required fuel (keys ++ [m.1]) (put m.1 r s)))
        fun t => if (keys ++ [m.1]).length = required then some (put m.1 r s, t) else none := by
  obtain ⟨lit, cs, ws, ws', rfl, hlit, hkey, hws, hws'⟩ := hnamed
  have htext : w ++ ((lit ++ (ws ++ ':'.toUInt8 :: (ws' ++ m.2))) ++ rest) =
      w ++ (lit ++ (ws ++ ':'.toUInt8 :: (ws' ++ (m.2 ++ rest)))) := by simp
  have hkeyLimit : m.1.length ≤ npcAgentResponseBodyLimit := hshort.trans (by decide)
  have hstring : string (w ++ (lit ++ (ws ++ ':'.toUInt8 :: (ws' ++ (m.2 ++ rest))))) =
      some (m.1, ws ++ ':'.toUInt8 :: (ws' ++ (m.2 ++ rest))) :=
    string_iff.mpr ⟨w, lit, cs, hw, rfl, hlit, hkey, hkeyLimit⟩
  have hvalueLimit : (m.2 ++ rest).length ≤ npcAgentResponseBodyLimit := by
    refine le_trans ?_ hlimit
    simp only [List.length_append, List.length_cons]
    omega
  have hread : read m.1 s (ws' ++ (m.2 ++ rest)) = some (put m.1 r s, rest) :=
    hreads.complete hws' his hends hvalueLimit
  rw [htext, members, hstring, Option.bind_some]
  dsimp only
  rw [if_neg (not_or.mpr ⟨Nat.not_lt.mpr hshort, hnew⟩), take_eq hws (by decide), Option.bind_some,
    if_neg (Nat.not_lt.mpr hcount), hread, Option.bind_some]
  dsimp only
  cases take 0x7D rest <;> rfl

theorem members_complete (hreads : Reads read Is put) (hseparated : Separated IsNamed body ms)
    (his : ∀ m ∈ ms, Is m.1 m.2 r) (hshort : ∀ m ∈ ms, m.1.length ≤ 64)
    (hnodup : (keys ++ ms.map Prod.fst).Nodup) (hlength : (keys ++ ms.map Prod.fst).length = required)
    (hfuel : ms.length ≤ fuel) (hw : White w)
    (hlimit : (body ++ 0x7D :: rest).length ≤ npcAgentResponseBodyLimit) :
    members read required fuel keys s (w ++ (body ++ 0x7D :: rest)) = some (putAll put r ms s, rest) := by
  induction hseparated generalizing fuel keys s w with
  | @last t ws m hnamed hws =>
    obtain ⟨fuel, rfl⟩ : ∃ n, fuel = n + 1 := ⟨fuel - 1, by simp at hfuel; omega⟩
    have hnew : m.1 ∉ keys := fun h => (List.nodup_append.mp hnodup).2.2 _ h _ (by simp) rfl
    rw [List.append_assoc] at hlimit ⊢
    rw [members_eq hreads hnamed (his m (by simp)) (hshort m (by simp)) hnew hlength.le hw
      (ends_isDigit_white hws (by decide)) hlimit, take_eq hws (by decide)]
    exact if_pos hlength
  | @cons t ws ws' body m ms hnamed hws hws' _ ih =>
    obtain ⟨fuel, rfl⟩ : ∃ n, fuel = n + 1 := ⟨fuel - 1, by simp at hfuel; omega⟩
    have hnew : m.1 ∉ keys := fun h => (List.nodup_append.mp hnodup).2.2 _ h _ (by simp) rfl
    have htext : t ++ (ws ++ ','.toUInt8 :: (ws' ++ body)) ++ 0x7D :: rest =
        t ++ (ws ++ ','.toUInt8 :: (ws' ++ (body ++ 0x7D :: rest))) := by simp
    have hcount : (keys ++ [m.1]).length ≤ required := by
      rw [← hlength]
      simp
    have hbodyLimit : (body ++ 0x7D :: rest).length ≤ npcAgentResponseBodyLimit := by
      refine le_trans ?_ hlimit
      rw [htext]
      simp only [List.length_append, List.length_cons]
      omega
    rw [htext] at hlimit ⊢
    rw [List.map_cons, ← List.singleton_append, ← List.append_assoc] at hnodup hlength
    rw [members_eq hreads hnamed (his m (by simp)) (hshort m (by simp)) hnew hcount hw
      (ends_isDigit_white hws (by decide)) hlimit, take_ne hws (by decide) (by decide), take_eq hws (by decide)]
    exact ih (fun m' h => his m' (.tail _ h)) (fun m' h => hshort m' (.tail _ h)) hnodup hlength
      (Nat.le_of_succ_le_succ hfuel) hws' hbodyLimit

theorem take_close (hw : White w) (h : Separated IsNamed body ms) : take 0x7D (w ++ (body ++ 0x7D :: rest)) = none := by
  cases h with
  | last hnamed | cons hnamed =>
    obtain ⟨_, _, _, _, rfl, ⟨_, rfl, _⟩, _⟩ := hnamed
    exact take_ne hw (by decide) (by decide)

/-- No more than the required members are read, and each is new and one of the fields. -/
theorem members_head (hfields : Fields names Is put) (hreads : Reads read Is put) {m : Bytes × Bytes}
    (hnamed : IsNamed t m) (hw : White w) (hlimit : (t ++ rest).length ≤ npcAgentResponseBodyLimit)
    (h : members read required (fuel + 1) keys s (w ++ (t ++ rest)) = some (s', rest')) :
    m.1 ∈ names ∧ m.1.length ≤ 64 ∧ m.1 ∉ keys ∧ (keys ++ [m.1]).length ≤ required := by
  obtain ⟨lit, cs, ws, ws', rfl, hlit, hkey, hws, -⟩ := hnamed
  have htext : w ++ ((lit ++ (ws ++ ':'.toUInt8 :: (ws' ++ m.2))) ++ rest) =
      w ++ (lit ++ (ws ++ ':'.toUInt8 :: (ws' ++ (m.2 ++ rest)))) := by simp
  have hkeyLimit : m.1.length ≤ npcAgentResponseBodyLimit := by
    refine le_trans ?_ hlimit
    rw [hkey]
    refine hlit.length_le.trans ?_
    simp only [List.length_append]
    omega
  have hstring : string (w ++ (lit ++ (ws ++ ':'.toUInt8 :: (ws' ++ (m.2 ++ rest))))) =
      some (m.1, ws ++ ':'.toUInt8 :: (ws' ++ (m.2 ++ rest))) :=
    string_iff.mpr ⟨w, lit, cs, hw, rfl, hlit, hkey, hkeyLimit⟩
  rw [htext, members, hstring, Option.bind_some] at h
  dsimp only at h
  rw [Option.ite_none_left_eq_some, take_eq hws (by decide), Option.bind_some, Option.ite_none_left_eq_some,
    not_or, Nat.not_lt, Nat.not_lt] at h
  obtain ⟨⟨hshort, hnew⟩, hcount, hread⟩ := h
  obtain ⟨⟨_, _⟩, hvalue, -⟩ := Option.bind_eq_some_iff.mp hread
  obtain ⟨_, _, _, -, -, his, -⟩ := hreads.sound hvalue
  exact ⟨hfields.named his, hshort, hnew, hcount⟩

/-- Where members stand whose values are well formed as far as their keys are known, all of them were read. -/
theorem members_known (hfields : Fields names Is put) (hreads : Reads read Is put)
    (hseparated : Separated IsNamed body ms) (hvalues : ∀ m ∈ ms, m.1 ∈ names → ∃ r, Is m.1 m.2 r)
    (hnodup : keys.Nodup) (hw : White w) (hlimit : (body ++ 0x7D :: rest).length ≤ npcAgentResponseBodyLimit)
    (h : members read required fuel keys s (w ++ (body ++ 0x7D :: rest)) = some (s', rest')) :
    (∀ m ∈ ms, m.1 ∈ names) ∧ (keys ++ ms.map Prod.fst).Nodup ∧ (keys ++ ms.map Prod.fst).length = required ∧
      rest' = rest := by
  induction hseparated generalizing fuel keys s w with
  | @last t ws m hnamed hws =>
    cases fuel with
    | zero => contradiction
    | succ fuel =>
      rw [List.append_assoc] at hlimit h
      obtain ⟨hname, hshort, hnew, hcount⟩ := members_head hfields hreads hnamed hw hlimit h
      obtain ⟨r, his⟩ := hvalues m (by simp) hname
      rw [members_eq hreads hnamed his hshort hnew hcount hw (ends_isDigit_white hws (by decide)) hlimit,
        take_eq hws (by decide), Option.elim_some] at h
      split_ifs at h with hlength
      obtain ⟨-, rfl⟩ := Prod.mk.inj (Option.some.inj h)
      exact ⟨by simpa using hname, nodup_snoc hnodup hnew, hlength, rfl⟩
  | @cons t ws ws' body m ms hnamed hws hws' _ ih =>
    cases fuel with
    | zero => contradiction
    | succ fuel =>
      have htext : t ++ (ws ++ ','.toUInt8 :: (ws' ++ body)) ++ 0x7D :: rest =
          t ++ (ws ++ ','.toUInt8 :: (ws' ++ (body ++ 0x7D :: rest))) := by simp
      have hbodyLimit : (body ++ 0x7D :: rest).length ≤ npcAgentResponseBodyLimit := by
        refine le_trans ?_ hlimit
        rw [htext]
        simp only [List.length_append, List.length_cons]
        omega
      rw [htext] at hlimit h
      obtain ⟨hname, hshort, hnew, hcount⟩ := members_head hfields hreads hnamed hw hlimit h
      obtain ⟨r, his⟩ := hvalues m (by simp) hname
      rw [members_eq hreads hnamed his hshort hnew hcount hw (ends_isDigit_white hws (by decide)) hlimit,
        take_ne hws (by decide) (by decide), take_eq hws (by decide), Option.elim_none, Option.bind_some] at h
      obtain ⟨hnames, hall, hlength, hrest⟩ :=
        ih (fun m' h => hvalues m' (.tail _ h)) (nodup_snoc hnodup hnew) hws' hbodyLimit h
      rw [List.append_assoc, List.singleton_append, ← List.map_cons (f := Prod.fst) (a := m)] at hall hlength
      exact ⟨List.forall_mem_cons.mpr ⟨hname, hnames⟩, hall, hlength, hrest⟩

/-- What is read as an object is one that has each of the names once, in any order. -/
theorem object_sound (names : List Bytes) (hfields : Fields names Is put) (hreads : Reads read Is put) (hne : names ≠ [])
    (h : object read names.length s t = some (s', rest)) :
    ∃ w text, White w ∧ t = w ++ (text ++ rest) ∧ IsRecord names Is text s' := by
  have hpos : names.length ≠ 0 := by simpa using hne
  rw [object] at h
  obtain ⟨t', hopen, hobject⟩ := Option.bind_eq_some_iff.mp h
  obtain ⟨w, hw, rfl⟩ := take_sound hopen
  cases hclose : take 0x7D t' with
  | some t'' =>
    simp only [hclose] at hobject
    rw [if_neg hpos] at hobject
    contradiction
  | none =>
    simp only [hclose] at hobject
    obtain ⟨w', body, ms, hw', rfl, hseparated, hchain, hnodup, hlength⟩ :=
      members_sound hreads List.nodup_nil hobject
    rw [List.nil_append] at hnodup hlength
    have hsubset : ms.map Prod.fst ⊆ names := by
      intro key hkey
      obtain ⟨m, hm, rfl⟩ := List.mem_map.mp hkey
      exact hchain.named hfields m hm
    have hperm := (List.subperm_of_subset hnodup hsubset).perm_of_length_le hlength.ge
    exact ⟨w, 0x7B :: (w' ++ (body ++ [0x7D])), hw, by simp, ms, ⟨w', body, hw', rfl, .inr hseparated⟩, hperm,
      hchain.is hfields hnodup⟩

theorem object_complete (hfields : Fields names Is put) (hreads : Reads read Is put) (hne : names ≠ [])
    (hnames : names.Nodup) (hshort : ∀ key ∈ names, key.length ≤ 64) {text : Bytes} (hw : White w)
    (h : IsRecord names Is text s') (hlimit : (text ++ rest).length ≤ npcAgentResponseBodyLimit) :
    object read names.length s (w ++ (text ++ rest)) = some (s', rest) := by
  obtain ⟨ms, ⟨ws, body, hws, rfl, hms⟩, hperm, his⟩ := h
  have hmember : ∀ m ∈ ms, m.1 ∈ names := fun m hm => hperm.subset (List.mem_map_of_mem hm)
  have hcount : ms.length = names.length := by simpa using hperm.length_eq
  rcases hms with ⟨rfl, -⟩ | hseparated
  · exact absurd (List.length_eq_zero_iff.mp hcount.symm) hne
  have htext : w ++ (0x7B :: (ws ++ (body ++ [0x7D])) ++ rest) = w ++ 0x7B :: (ws ++ (body ++ 0x7D :: rest)) := by
    simp
  have hbodyLimit : (body ++ 0x7D :: rest).length ≤ npcAgentResponseBodyLimit := by
    refine le_trans ?_ hlimit
    simp only [List.length_append, List.length_cons, List.length_nil]
    omega
  have hread : members read names.length (names.length + 1) [] s (ws ++ (body ++ 0x7D :: rest)) =
      some (putAll put s' ms s, rest) :=
    members_complete hreads hseparated his (fun m hm => hshort m.1 (hmember m hm)) (hperm.nodup_iff.mpr hnames)
      hperm.length_eq (by omega) hws hbodyLimit
  rw [htext, object, take_eq hw (by decide), Option.bind_some, take_close hws hseparated]
  dsimp only
  rw [hread, putAll_eq hfields fun key hkey => hperm.symm.subset hkey]

/-- Of an object with other keys than the names, or with a key twice, nothing is read. -/
theorem object_known (names : List Bytes) (hfields : Fields names Is put) (hreads : Reads read Is put) {ws : Bytes} (hw : White w)
    (hws : White ws) (hseparated : Separated IsNamed body ms)
    (hvalues : ∀ m ∈ ms, m.1 ∈ names → ∃ r, Is m.1 m.2 r)
    (hlimit : (body ++ 0x7D :: rest).length ≤ npcAgentResponseBodyLimit)
    (h : object read names.length s (w ++ 0x7B :: (ws ++ (body ++ 0x7D :: rest))) = some (s', rest')) :
    (ms.map Prod.fst).Perm names ∧ rest' = rest := by
  rw [object, take_eq hw (by decide), Option.bind_some, take_close hws hseparated] at h
  dsimp only at h
  obtain ⟨hnames, hnodup, hlength, hrest⟩ :=
    members_known hfields hreads hseparated hvalues List.nodup_nil hws hlimit h
  rw [List.nil_append] at hnodup hlength
  have hsubset : ms.map Prod.fst ⊆ names := by
    intro key hkey
    obtain ⟨m, hm, rfl⟩ := List.mem_map.mp hkey
    exact hnames m hm
  exact ⟨(List.subperm_of_subset hnodup hsubset).perm_of_length_le hlength.ge, hrest⟩

end Members

end AIWorld.Inference.JsonCursor
