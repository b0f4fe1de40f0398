import AIWorld.LivingSupply.Conservation
import Mathlib.Algebra.Order.Ring.Nat

/-! Reservations. A pending claim is always honoured, and what is taken from one
life of a source over a whole run is at most what its carcass was registered
with: a commit takes from the carcass, no other call adds to it, and a source's
accepted lives strictly increase. -/

namespace AIWorld.LivingSupply

open Lib Ledger

/-- The portions that a commit took from a carcass: those of the pending claim
that the committed token names. -/
def taken (key : CarcassKey) (e : Event Ledger Op Outcome) : ℕ :=
  match e.input, e.output with
  | .commit actor _ _, .result r =>
    if r.success = true ∧ r.duplicate = false ∧
        ((e.pre.actors[actor.toNat]?).bind Actor.pending).map Claim.key = some key then
      r.portions
    else 0
  | _, _ => 0

/-- The portions that an accepted death notification brought in. -/
def brought (key : CarcassKey) (e : Event Ledger Op Outcome) : ℕ :=
  match e.input, e.output with
  | .registerCarcass source life _ _ portions, .flag true =>
    if (⟨source.toNat, life.toNat⟩ : CarcassKey) = key then portions.toNat else 0
  | _, _ => 0

/-- The life that an accepted death notification names. -/
def acceptedLife (e : Event Ledger Op Outcome) : Option CarcassKey :=
  match e.input, e.output with
  | .registerCarcass source life _ _ _, .flag true => some ⟨source.toNat, life.toNat⟩
  | _, _ => none

/-- The potential left of one life. -/
def Ledger.portionsOf (l : Ledger) (key : CarcassKey) : ℕ :=
  (l.findCarcass key).elim 0 Carcass.remaining

/-! ### One step -/

variable {l l' : Ledger} {op : Op} {o : Outcome} {key : CarcassKey}

theorem taken_eq_zero (h : ¬ Effective op o) : taken key ⟨l, op, o, l'⟩ = 0 := by
  unfold taken
  split
  next hin hout =>
    simp only at hin hout
    subst hin hout
    simp only [Effective, Result.Fresh, not_and] at h
    exact if_neg fun hr => h hr.1 hr.2.1
  next => rfl

theorem taken_eq_zero_of_flow {f : Flow} (h : op.flow? = some f) :
    taken key ⟨l, op, o, l'⟩ = 0 := by
  cases op <;> simp [Op.flow?] at h <;> rfl

theorem portionsOf_mono
    (h : ∀ (s : ℕ) (x' : Carcass), l'.carcasses[s]? = some x' →
      ∃ x, l.carcasses[s]? = some x ∧ x.key = x'.key ∧ x'.remaining ≤ x.remaining)
    (key : CarcassKey) : l'.portionsOf key ≤ l.portionsOf key := by
  unfold portionsOf
  cases hf : l'.findCarcass key with
  | none => exact Nat.zero_le _
  | some x' =>
    obtain ⟨hx', hk'⟩ := findCarcass_eq_some.mp hf
    obtain ⟨x, hx, hk, hle⟩ := h _ x' hx'
    rw [findCarcass_eq_some.mpr ⟨hx, hk.trans hk'⟩]
    exact hle

/-- A carcass that dropping, closing or settling leaves is the old one with no more portions. -/
theorem drop_carcass {q : Claim → Bool} {s : ℕ} {x' : Carcass}
    (h : (l.drop q).carcasses[s]? = some x') :
    ∃ x, l.carcasses[s]? = some x ∧ x.key = x'.key ∧ x'.remaining ≤ x.remaining := by
  rw [getElem?_drop_carcasses, Option.map_eq_some_iff] at h
  obtain ⟨x, hx, rfl⟩ := h
  exact ⟨x, hx, rfl, le_rfl⟩

theorem spoil_carcass {q : Carcass → Bool} {s : ℕ} {x' : Carcass}
    (h : (l.spoil q).carcasses[s]? = some x') :
    ∃ x, l.carcasses[s]? = some x ∧ x.key = x'.key ∧ x'.remaining ≤ x.remaining := by
  rw [getElem?_spoil_carcasses, Option.map_eq_some_iff] at h
  obtain ⟨x, hx, rfl⟩ := h
  refine ⟨x, hx, ?_⟩
  unfold Carcass.spoil
  split
  · exact ⟨rfl, Nat.zero_le _⟩
  · exact ⟨rfl, le_rfl⟩

theorem portionsOf_closed (l : Ledger) (k key : CarcassKey) :
    (l.closed k).portionsOf key ≤ l.portionsOf key :=
  (portionsOf_mono (fun _ _ => spoil_carcass) key).trans
    (portionsOf_mono (fun _ _ => drop_carcass) key)

theorem portionsOf_retired (l : Ledger) (source : ℕ) (key : CarcassKey) :
    (l.retired source).portionsOf key ≤ l.portionsOf key := by
  unfold retired
  split
  · exact portionsOf_closed l _ key
  · exact le_rfl

theorem portionsOf_settled (l : Ledger) (nowMs : ℕ) (key : CarcassKey) :
    (l.settled nowMs).portionsOf key ≤ l.portionsOf key :=
  (portionsOf_mono (fun _ _ => spoil_carcass) key).trans
    (portionsOf_mono (l := l.grow nowMs) (fun _ _ => drop_carcass) key)

theorem portionsOf_rest (l : Ledger) (op : Op) (key : CarcassKey) :
    (l.rest op).portionsOf key ≤ l.portionsOf key := by
  unfold rest
  split
  · exact portionsOf_settled l _ key
  · exact le_rfl

/-- A carcass put at its source is the only life found there. -/
theorem portionsOf_insert {x : Carcass} {s : ℕ} (hs : x.key.source = s) (key : CarcassKey)
    (hcarcasses : l'.carcasses = l.carcasses.insert s x) :
    (x.key = key → l'.portionsOf key = x.remaining) ∧
      (x.key ≠ key → l'.portionsOf key ≤ l.portionsOf key) := by
  constructor
  · rintro rfl
    have hf : l'.findCarcass x.key = some x := by
      rw [findCarcass_eq_some, hcarcasses, hs]
      exact ⟨Std.ExtTreeMap.getElem?_insert_self, rfl⟩
    simp [portionsOf, hf]
  · intro hne
    unfold portionsOf
    cases hf : l'.findCarcass key with
    | none => exact Nat.zero_le _
    | some y =>
      obtain ⟨hy, hk⟩ := findCarcass_eq_some.mp hf
      rw [hcarcasses, OrdMap.getElem?_insert] at hy
      split_ifs at hy with hsk
      · cases hy
        exact absurd hk hne
      · rw [findCarcass_eq_some.mpr ⟨hy, hk⟩]

/-- Settling only drops claims. -/
theorem settled_pending {nowMs id : ℕ} {a : Actor} {c : Claim}
    (ha : (l.settled nowMs).actors[id]? = some a) (hc : a.pending = some c) :
    ∃ b, l.actors[id]? = some b ∧ b.pending = some c := by
  have ha' := getElem?_drop_actors (l.grow nowMs) (fun c => c.expiresAtMs ≤ nowMs) id
  rw [show ((l.grow nowMs).drop fun c => c.expiresAtMs ≤ nowMs).actors = (l.settled nowMs).actors
    from rfl, ha, eq_comm, Option.map_eq_some_iff] at ha'
  obtain ⟨b, hb, rfl⟩ := ha'
  exact ⟨b, hb, (lapse_pending.mp hc).1⟩

/-- A life's potential pays for what is taken from it. -/
theorem Effect.portionsOf_le (h : l.Inv) (he : Effect l op o l') (key : CarcassKey) :
    l'.portionsOf key + taken key ⟨l, op, o, l'⟩ ≤
      l.portionsOf key + brought key ⟨l, op, o, l'⟩ := by
  have hsame (m : Ledger) (hm : l'.carcasses = m.carcasses)
      (hz : taken key ⟨l, op, o, l'⟩ = 0) (hle : m.portionsOf key ≤ l.portionsOf key) :
      l'.portionsOf key + taken key ⟨l, op, o, l'⟩ ≤
        l.portionsOf key + brought key ⟨l, op, o, l'⟩ := by
    have : l'.portionsOf key = m.portionsOf key := by
      simp only [portionsOf, findCarcass, hm]
    omega
  cases he with
  | kept ho => exact hsame _ rfl (taken_eq_zero ho) (portionsOf_rest l op key)
  | depotAdded ho | fieldAdded ho | actorAdded ho =>
    exact hsame l rfl (taken_eq_zero ho) le_rfl
  | layoutChosen => exact hsame l rfl rfl le_rfl
  | @carcassAdded source life nowMs expiresAtMs portions hnew =>
    have hcarcasses : ((l.retired source.toNat).addCarcass ⟨source.toNat, life.toNat⟩
          expiresAtMs.toNat portions.toNat).carcasses =
        (l.retired source.toNat).carcasses.insert source.toNat
          ⟨⟨source.toNat, life.toNat⟩, portions.toNat, 0, expiresAtMs.toNat, true⟩ := rfl
    obtain ⟨hthis, hother⟩ := portionsOf_insert (by rfl) key hcarcasses
    have hret := portionsOf_retired l source.toNat key
    simp only [taken, brought]
    split
    next hk =>
      rw [hthis hk]
      simp only
      omega
    next hk =>
      have := hother hk
      omega
  | claimRepeated => exact hsame _ rfl rfl (portionsOf_settled l _ key)
  | @claimed _ _ _ nowMs _ _ _ a x c ha hnone hx hkey =>
    refine hsame _ rfl rfl (le_trans ?_ (portionsOf_settled l nowMs.toNat key))
    refine portionsOf_mono (OrdMap.forall_insert ⟨x, hx, rfl, le_rfl⟩ fun s y _ hy => ?_) key
    exact ⟨y, hy, rfl, le_rfl⟩
  | @extracted actor serial nowMs a x c ha hc hid hx hkey hact =>
    have hcarcasses : ((l.settled nowMs.toNat).extracted actor.toNat a x c).carcasses =
        (l.settled nowMs.toNat).carcasses.insert c.key.source
          { x with remaining := x.remaining - c.amount, reserved := x.reserved - c.amount } := rfl
    obtain ⟨hthis, hother⟩ := portionsOf_insert (by exact congrArg CarcassKey.source hkey) key hcarcasses
    have hsettled := portionsOf_settled l nowMs.toNat key
    obtain ⟨b, hb, hbc⟩ := settled_pending ha hc
    simp only [taken, brought, hb, Option.bind_some, hbc, Option.map_some, true_and,
      Option.some.injEq, Nat.add_zero]
    split
    next hk =>
      have hrem := hthis (hkey.trans hk)
      have hle : c.amount ≤ x.remaining := by
        obtain ⟨y, hy, -, -, -, hle⟩ := (h.settled nowMs.toNat).pending_carcass ha hc
        rw [hx, Option.some.injEq] at hy
        subst hy
        exact hle.trans ((h.settled nowMs.toNat).carcass _ x hx).reserved_le
      have hf : (l.settled nowMs.toNat).portionsOf key = x.remaining := by
        rw [portionsOf, findCarcass_eq_some.mpr ⟨hk ▸ hx, hkey.trans hk⟩]
        rfl
      rw [hrem]
      simp only
      omega
    next hk =>
      have := hother fun e => hk (hkey.symm.trans e)
      omega
  | cancelled | actorCancelled =>
    exact hsame _ rfl rfl (portionsOf_mono (fun _ _ => drop_carcass) key)
  | closed => exact hsame _ rfl rfl (portionsOf_closed l _ key)
  | harvested hop => exact hsame _ rfl (taken_eq_zero_of_flow hop) (portionsOf_settled l _ key)
  | moved hop => exact hsame l rfl (taken_eq_zero_of_flow hop) le_rfl
  | dropped => exact hsame _ rfl rfl (portionsOf_mono (fun _ _ => drop_carcass) key)

theorem drop_key (q : Claim → Bool) {s : ℕ} {x : Carcass} (hx : l.carcasses[s]? = some x) :
    ∃ x', (l.drop q).carcasses[s]? = some x' ∧ x'.key = x.key := by
  rw [getElem?_drop_carcasses, hx, Option.map_some]
  exact ⟨_, rfl, rfl⟩

theorem spoil_key (q : Carcass → Bool) {s : ℕ} {x : Carcass} (hx : l.carcasses[s]? = some x) :
    ∃ x', (l.spoil q).carcasses[s]? = some x' ∧ x'.key = x.key := by
  rw [getElem?_spoil_carcasses, hx, Option.map_some]
  refine ⟨_, rfl, ?_⟩
  unfold Carcass.spoil
  split <;> rfl

theorem closed_key (k : CarcassKey) {s : ℕ} {x : Carcass} (hx : l.carcasses[s]? = some x) :
    ∃ x', (l.closed k).carcasses[s]? = some x' ∧ x'.key = x.key := by
  obtain ⟨y, hy, hk⟩ := drop_key (fun c => c.key = k) hx
  obtain ⟨z, hz, hk'⟩ := spoil_key (fun c => c.key = k) hy
  exact ⟨z, hz, hk'.trans hk⟩

theorem settled_key (nowMs : ℕ) {s : ℕ} {x : Carcass} (hx : l.carcasses[s]? = some x) :
    ∃ x', (l.settled nowMs).carcasses[s]? = some x' ∧ x'.key = x.key := by
  obtain ⟨y, hy, hk⟩ := drop_key (l := l.grow nowMs) (fun c => c.expiresAtMs ≤ nowMs) hx
  obtain ⟨z, hz, hk'⟩ := spoil_key (fun c => c.expiresAtMs ≤ nowMs) hy
  exact ⟨z, hz, hk'.trans hk⟩

theorem rest_key (op : Op) {s : ℕ} {x : Carcass} (hx : l.carcasses[s]? = some x) :
    ∃ x', (l.rest op).carcasses[s]? = some x' ∧ x'.key = x.key := by
  unfold rest
  split
  · exact settled_key _ hx
  · exact ⟨x, hx, rfl⟩

/-- The life known at a source never goes back. -/
theorem Effect.life_le (he : Effect l op o l') {s : ℕ} {x : Carcass}
    (hx : l.carcasses[s]? = some x) :
    ∃ x', l'.carcasses[s]? = some x' ∧ x.key.life ≤ x'.key.life := by
  have hput (m : Ledger) (t : ℕ) (y z : Carcass) (hm : ∃ x', m.carcasses[s]? = some x' ∧
      x'.key = x.key) (hy : m.carcasses[t]? = some y) (hz : z.key = y.key) :
      ∃ x', (m.carcasses.insert t z)[s]? = some x' ∧ x.key.life ≤ x'.key.life := by
    obtain ⟨x', hx', hk⟩ := hm
    by_cases hts : t = s
    · subst hts
      rw [hx', Option.some.injEq] at hy
      subst hy
      exact ⟨z, Std.ExtTreeMap.getElem?_insert_self, by rw [hz, hk]⟩
    · exact ⟨x', (OrdMap.getElem?_insert_ne _ _ hts).trans hx', by rw [hk]⟩
  cases he with
  | kept =>
    obtain ⟨x', hx', hk⟩ := rest_key op hx
    exact ⟨x', hx', by rw [hk]⟩
  | depotAdded | layoutChosen | fieldAdded | actorAdded | moved => exact ⟨x, hx, le_rfl⟩
  | claimRepeated | harvested =>
    obtain ⟨x', hx', hk⟩ := settled_key _ hx
    exact ⟨x', hx', by rw [hk]⟩
  | @carcassAdded source life _ _ _ hnew =>
    by_cases hs : source.toNat = s
    · subst hs
      exact ⟨_, Std.ExtTreeMap.getElem?_insert_self, (hnew x hx).le⟩
    · have hret : ∃ x', (l.retired source.toNat).carcasses[s]? = some x' ∧ x'.key = x.key := by
        unfold retired
        split
        · exact closed_key _ hx
        · exact ⟨x, hx, rfl⟩
      obtain ⟨x', hx', hk⟩ := hret
      exact ⟨x', (OrdMap.getElem?_insert_ne _ _ hs).trans hx', by rw [hk]⟩
  | claimed _ _ hy => exact hput _ _ _ _ (settled_key _ hx) hy rfl
  | extracted _ _ _ hy => exact hput _ _ _ _ (settled_key _ hx) hy rfl
  | cancelled | actorCancelled | dropped =>
    obtain ⟨x', hx', hk⟩ := drop_key _ hx
    exact ⟨x', hx', by rw [hk]⟩
  | closed =>
    obtain ⟨x', hx', hk⟩ := closed_key _ hx
    exact ⟨x', hx', by rw [hk]⟩

/-- An accepted notification names a life later than the one known before, and
its life is the known one after. -/
theorem Effect.accepted {k : CarcassKey} (he : Effect l op o l')
    (hk : acceptedLife ⟨l, op, o, l'⟩ = some k) :
    (∀ x, l.carcasses[k.source]? = some x → x.key.life < k.life) ∧
      ∃ x', l'.carcasses[k.source]? = some x' ∧ k.life ≤ x'.key.life := by
  unfold acceptedLife at hk
  split at hk
  next source life nowMs expiresAtMs portions hin hout =>
    simp only at hin hout
    subst hin hout
    cases hk
    cases he with
    | carcassAdded hnew => exact ⟨hnew, _, Std.ExtTreeMap.getElem?_insert_self, le_rfl⟩
    | kept ho | depotAdded ho | fieldAdded ho | actorAdded ho => exact absurd rfl ho
  next => contradiction

/-! ### Runs -/

theorem taken_le {tr : List (Event Ledger Op Outcome)} (hrun : machine.Run l tr l') (h : l.Inv)
    (key : CarcassKey) : l'.portionsOf key + (tr.map (taken key)).sum ≤
      l.portionsOf key + (tr.map (brought key)).sum := by
  induction hrun with
  | nil => exact le_rfl
  | cons hstep _ ih =>
    have h1 := (effect_of_step h hstep).portionsOf_le h key
    have h2 := ih (step_inv h hstep)
    simp only [List.map_cons, List.sum_cons]
    omega

/-- Accepted lives of one source strictly increase along a run. -/
theorem lives_increase {tr : List (Event Ledger Op Outcome)} (hrun : machine.Run l tr l')
    (h : l.Inv) : tr.Pairwise fun e e' => ∀ k k', acceptedLife e = some k →
      acceptedLife e' = some k' → k.source = k'.source → k.life < k'.life := by
  refine Machine.Run.pairwise machine_inv
    (Q := fun e s => ∀ k, acceptedLife e = some k →
      ∃ x, s.carcasses[k.source]? = some x ∧ k.life ≤ x.key.life) ?_ ?_ ?_ hrun h
  · exact fun e hpre hstep k hk => ((effect_of_step hpre hstep).accepted hk).2
  · intro e s i o s' hs hq hstep k hk
    obtain ⟨x, hx, hle⟩ := hq k hk
    obtain ⟨x', hx', hle'⟩ := (effect_of_step hs hstep).life_le hx
    exact ⟨x', hx', hle.trans hle'⟩
  · intro e e' hpre hstep hq k k' hk hk' hsource
    obtain ⟨x, hx, hle⟩ := hq k hk
    rw [hsource] at hx
    exact hle.trans_lt (((effect_of_step hpre hstep).accepted hk').1 x hx)

theorem brought_of_accepted {e : Event Ledger Op Outcome}
    (h : acceptedLife e ≠ some key) : brought key e = 0 := by
  unfold acceptedLife brought at *
  split at h
  · exact if_neg fun hk => h (by rw [hk])
  · rfl

/-- One life is brought in at most once. -/
theorem brought_sum {tr : List (Event Ledger Op Outcome)}
    (h : tr.Pairwise fun e e' => ∀ k k', acceptedLife e = some k →
      acceptedLife e' = some k' → k.source = k'.source → k.life < k'.life)
    {e : Event Ledger Op Outcome} (he : e ∈ tr) (hk : acceptedLife e = some key) :
    (tr.map (brought key)).sum = brought key e := by
  obtain ⟨tr₁, tr₂, rfl⟩ := List.append_of_mem he
  rw [List.pairwise_append, List.pairwise_cons] at h
  obtain ⟨-, ⟨hafter, -⟩, hbefore⟩ := h
  have hzero₁ : (tr₁.map (brought key)).sum = 0 := by
    rw [List.sum_eq_zero_iff]
    simp only [List.mem_map, forall_exists_index, and_imp, forall_apply_eq_imp_iff₂]
    exact fun e' he' => brought_of_accepted fun hk' =>
      lt_irrefl _ (hbefore e' he' e (List.mem_cons_self) key key hk' hk rfl)
  have hzero₂ : (tr₂.map (brought key)).sum = 0 := by
    rw [List.sum_eq_zero_iff]
    simp only [List.mem_map, forall_exists_index, and_imp, forall_apply_eq_imp_iff₂]
    exact fun e' he' => brought_of_accepted fun hk' =>
      lt_irrefl _ (hafter e' he' key key hk hk' rfl)
  rw [List.map_append, List.map_cons, List.sum_append, List.sum_cons, hzero₁, hzero₂]
  omega

theorem commit_honoured (h : l.Inv) {token : Token} {nowMs : ℕ} {m : Ledger} {a : Actor} {c : Claim}
    (hm : l.expire nowMs = some m) (ha : m.actors[token.actor]? = some a) (hc : a.pending = some c)
    (hid : c.id = token) :
    ∃ l', l.commit token nowMs = some (⟨true, false, c.amount, "COMMITTED"⟩, l') := by
  rw [expire_eq h, Option.some.injEq] at hm
  subst hm
  obtain ⟨x, -, -, -, hstep⟩ := commit_pending h ha hc hid
  exact ⟨_, hstep⟩

theorem commit_not_invalidated (h : l.Inv) {token : Token} {nowMs : ℕ} {r : Result}
    (hstep : l.commit token nowMs = some (r, l')) : r.reason ≠ "CLAIM_INVALIDATED" := by
  rcases commit_cases h token nowMs with ⟨a, receipt, ha, hlast, hc⟩ | ⟨a, c, x, -, -, -, -, -, -, hc⟩ | hc
  all_goals
    rw [hc, Option.some.injEq, Prod.mk.injEq] at hstep
    obtain ⟨rfl, -⟩ := hstep
  · have := (((h.settled nowMs).actor _ a ha).committed token receipt hlast).2
    simp [replayed, this]
  · simp
  · simp [rejected]

/-- A refused death notification changes nothing. -/
theorem registerCarcass_refused (h : l.Inv) {key : CarcassKey} {nowMs expiresAtMs portions : ℕ}
    (hstep : l.registerCarcass key nowMs expiresAtMs portions = some (false, l')) : l' = l := by
  unfold registerCarcass at hstep
  simp only [closeCarcass_eq h, Option.bind_eq_bind, Option.bind_some, Option.pure_def] at hstep
  split at hstep
  · simp_all
  · split at hstep <;> split at hstep <;> simp_all

/-- Reservation soundness, for every run of an empty ledger. -/
theorem reservation_soundness {tr : List (Event Ledger Op Outcome)}
    (hrun : machine.Run {} tr l) :
    (∀ (s : ℕ) (x : Carcass), l.carcasses[s]? = some x →
      x.reserved = pendingOn l.actors x.key ∧ x.reserved ≤ x.remaining ∧
      (x.active = false → x.reserved = 0 ∧ ∀ (id : ℕ) (a : Actor) (c : Claim),
        l.actors[id]? = some a → a.pending = some c → c.key ≠ x.key)) ∧
    (∀ (token : Token) (nowMs : ℕ) (m : Ledger) (a : Actor) (c : Claim),
      l.expire nowMs = some m → m.actors[token.actor]? = some a → a.pending = some c →
      c.id = token → ∃ l', l.commit token nowMs = some (⟨true, false, c.amount, "COMMITTED"⟩, l')) ∧
    (∀ (token : Token) (nowMs : ℕ) (r : Result) (l' : Ledger), l.commit token nowMs = some (r, l') → r.reason ≠ "CLAIM_INVALIDATED") ∧
    (∀ key, (tr.map (taken key)).sum ≤ (tr.map (brought key)).sum ∧
      ∀ e ∈ tr, acceptedLife e = some key → (tr.map (taken key)).sum ≤ brought key e) ∧
    (tr.Pairwise fun e e' => ∀ k k', acceptedLife e = some k → acceptedLife e' = some k' →
      k.source = k'.source → k.life < k'.life) ∧
    (∀ key nowMs expiresAtMs portions l',
      l.registerCarcass key nowMs expiresAtMs portions = some (false, l') → l' = l) := by
  have h : l.Inv := hrun.invariant machine_inv inv_empty
  have hlives := lives_increase hrun inv_empty
  have htaken (key : CarcassKey) : (tr.map (taken key)).sum ≤ (tr.map (brought key)).sum := by
    have := taken_le hrun inv_empty key
    have hzero : Ledger.portionsOf {} key = 0 := by simp [portionsOf, findCarcass]
    omega
  refine ⟨fun s x hx => ⟨(h.carcass s x hx).reserved, (h.carcass s x hx).reserved_le, fun hact => ?_⟩,
    fun _ _ _ _ _ hm ha hc hid => commit_honoured h hm ha hc hid,
    fun _ _ _ _ hstep => commit_not_invalidated h hstep,
    fun key => ⟨htaken key, fun e he hk => brought_sum hlives he hk ▸ htaken key⟩, hlives,
    fun _ _ _ _ _ hstep => registerCarcass_refused h hstep⟩
  have hzero := (h.inactive hx hact).2
  exact ⟨hzero, fun id a c ha hc => h.not_pending_of_reserved hx hzero ha hc⟩

theorem reservation_soundness_smallWorld : ∃ tr l, machine.Run {} tr l ∧ l.nextClaimSerial = 1 ∧
    ∀ key, (tr.map (taken key)).sum ≤ (tr.map (brought key)).sum := by
  obtain ⟨tr, l, hrun, hserial⟩ := smallWorld_run
  exact ⟨tr, l, hrun, hserial, fun key => ((reservation_soundness hrun).2.2.2.1 key).1⟩

end AIWorld.LivingSupply
