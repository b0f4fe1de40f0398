import AIWorld.LivingSupply.Invariant

/-! Cancelling claims, closing carcasses and regrowing fields, in closed form.
The source walks its maps one entry at a time and adjusts a carcass's reserved
counter claim by claim; inside the invariant each walk is one map over all
entries, with the reserved counters counted again from the claims that stay. -/

namespace AIWorld.LivingSupply

open Std Lib

/-- Drop the pending claim if it is one of `q`. -/
def Actor.lapse (q : Claim → Bool) (a : Actor) : Actor :=
  { a with pending := a.pending.filter fun c => !q c }

def Carcass.spoil (q : Carcass → Bool) (c : Carcass) : Carcass :=
  if c.active && q c then { c with remaining := 0, active := false } else c

/-- The potential that spoils with a carcass. -/
def Carcass.waste (q : Carcass → Bool) (c : Carcass) : ℕ :=
  if c.active && q c then c.remaining else 0

def Field.growth (nowMs : ℕ) (f : Field) : ℕ :=
  if nowMs ≤ f.lastGrowthAtMs then 0
  else min ((nowMs - f.lastGrowthAtMs) / f.regrowMs) (f.capacity - f.remaining)

def Field.regrown (nowMs : ℕ) (f : Field) : Field :=
  { f with
    remaining := f.remaining + f.growth nowMs
    regrownTotal := f.regrownTotal + f.growth nowMs
    lastGrowthAtMs :=
      if nowMs ≤ f.lastGrowthAtMs then f.lastGrowthAtMs
      else if f.remaining + f.growth nowMs = f.capacity then nowMs
      else f.lastGrowthAtMs + f.growth nowMs * f.regrowMs }

namespace Ledger

/-- Drop the pending claims of `q` and give their portions back. -/
def drop (l : Ledger) (q : Claim → Bool) : Ledger :=
  let actors := l.actors.map fun _ a => a.lapse q
  { l with
    actors
    carcasses := l.carcasses.map fun _ c => { c with reserved := pendingOn actors c.key } }

/-- Close the carcasses of `q`, on which no claim is pending. -/
def spoil (l : Ledger) (q : Carcass → Bool) : Ledger :=
  { l with
    carcasses := l.carcasses.map fun _ c => c.spoil q
    counters := { l.counters with
      potentialLost := l.counters.potentialLost + OrdMap.total (fun _ c => c.waste q) l.carcasses } }

def grow (l : Ledger) (nowMs : ℕ) : Ledger :=
  { l with
    fields := l.fields.map fun _ f => f.regrown nowMs
    counters := { l.counters with
      potentialCreated :=
        l.counters.potentialCreated + OrdMap.total (fun _ f => f.growth nowMs) l.fields } }

/-- What `CloseCarcass` leaves. -/
def closed (l : Ledger) (key : CarcassKey) : Ledger :=
  (l.drop fun c => c.key = key).spoil fun c => c.key = key

/-- What `Expire` leaves. -/
def settled (l : Ledger) (nowMs : ℕ) : Ledger :=
  ((l.grow nowMs).drop fun c => c.expiresAtMs ≤ nowMs).spoil fun c => c.expiresAtMs ≤ nowMs

variable {l : Ledger}

/-! ### Dropping claims -/

theorem lapse_pending {a : Actor} {q : Claim → Bool} {c : Claim} :
    (a.lapse q).pending = some c ↔ a.pending = some c ∧ q c = false := by
  simp [Actor.lapse, Option.filter_eq_some_iff]

theorem lapse_lapse (a : Actor) (q q' : Claim → Bool) :
    (a.lapse q).lapse q' = a.lapse fun c => q c || q' c := by
  simp [Actor.lapse, Option.filter_filter]

theorem lapse_eq_self {a : Actor} {q : Claim → Bool} (h : ∀ c, a.pending = some c → q c = false) :
    a.lapse q = a := by
  have hp : a.pending.filter (fun c => !q c) = a.pending := by
    cases hc : a.pending with
    | none => rfl
    | some c => simp [h c hc, Option.filter]
  rw [Actor.lapse, hp]

theorem lapse_congr {a : Actor} {q q' : Claim → Bool} (h : ∀ c, a.pending = some c → q c = q' c) :
    a.lapse q = a.lapse q' := by
  unfold Actor.lapse
  cases hc : a.pending with
  | none => rfl
  | some c => simp [h c hc, Option.filter]

theorem pendingOn_lapse_le (a : Actor) (q : Claim → Bool) (key : CarcassKey) :
    (a.lapse q).pendingOn key ≤ a.pendingOn key := by
  unfold Actor.pendingOn
  cases hc : (a.lapse q).pending with
  | none => simp
  | some c => rw [(lapse_pending.mp hc).1]

theorem drop_congr {q q' : Claim → Bool}
    (h : ∀ (id : ℕ) (a : Actor) (c : Claim), l.actors[id]? = some a → a.pending = some c →
      q c = q' c) : l.drop q = l.drop q' := by
  have : (l.actors.map fun _ a => a.lapse q) = l.actors.map fun _ a => a.lapse q' :=
    OrdMap.map_congr fun id a ha => lapse_congr fun c hc => h id a c ha hc
  simp only [drop, this]

theorem drop_drop (q q' : Claim → Bool) : (l.drop q).drop q' = l.drop fun c => q c || q' c := by
  simp only [drop, OrdMap.map_map, lapse_lapse]

theorem drop_eq_self (h : Inv l) {q : Claim → Bool}
    (hq : ∀ (id : ℕ) (a : Actor) (c : Claim), l.actors[id]? = some a → a.pending = some c →
      q c = false) : l.drop q = l := by
  have ha : (l.actors.map fun _ a => a.lapse q) = l.actors :=
    OrdMap.map_id_of fun id a ha => lapse_eq_self fun c hc => hq id a c ha hc
  have hc : (l.carcasses.map fun _ c => { c with reserved := pendingOn l.actors c.key }) =
      l.carcasses := OrdMap.map_id_of fun s c hc => by rw [← (h.carcass s c hc).reserved]
  simp only [drop, ha, hc]

theorem getElem?_drop_actors (l : Ledger) (q : Claim → Bool) (id : ℕ) :
    (l.drop q).actors[id]? = l.actors[id]?.map (·.lapse q) := ExtTreeMap.getElem?_map

theorem getElem?_drop_carcasses (l : Ledger) (q : Claim → Bool) (s : ℕ) :
    (l.drop q).carcasses[s]? =
      l.carcasses[s]?.map fun c => { c with reserved := pendingOn (l.drop q).actors c.key } :=
  ExtTreeMap.getElem?_map

theorem pendingOn_drop_le (l : Ledger) (q : Claim → Bool) (key : CarcassKey) :
    pendingOn (l.drop q).actors key ≤ pendingOn l.actors key := by
  unfold pendingOn
  rw [drop, OrdMap.total_map]
  exact OrdMap.total_le fun _ a _ => pendingOn_lapse_le a q key

theorem Inv.drop (h : Inv l) (q : Claim → Bool) : Inv (l.drop q) := by
  have hcargo : (l.drop q).cargoFood = l.cargoFood := OrdMap.total_map _ _ _
  have hpot : (l.drop q).carcassPotential = l.carcassPotential := OrdMap.total_map _ _ _
  refine { h with conserved := ?_, potentialConserved := ?_, actor := ?_, carcass := ?_ }
  · have := h.conserved
    unfold Conserved at this ⊢
    rw [hcargo]
    exact this
  · have := h.potentialConserved
    unfold PotentialConserved remainingPotential at this ⊢
    rw [hpot]
    exact this
  · intro id a' ha'
    rw [getElem?_drop_actors, Option.map_eq_some_iff] at ha'
    obtain ⟨a, ha, rfl⟩ := ha'
    have hok := h.actor id a ha
    refine ⟨hok.cargo_le, hok.committed_le, hok.committed, fun c hc => ?_⟩
    have hcl := hok.pending c (lapse_pending.mp hc).1
    obtain ⟨x, hx, hk, hact, hexp⟩ := hcl.carcass
    exact { hcl with
      carcass := ⟨{ x with reserved := pendingOn (l.drop q).actors x.key },
        by rw [getElem?_drop_carcasses, hx, Option.map_some], hk, hact, hexp⟩ }
  · intro s c' hc'
    rw [getElem?_drop_carcasses, Option.map_eq_some_iff] at hc'
    obtain ⟨c, hc, rfl⟩ := hc'
    have hok := h.carcass s c hc
    refine ⟨hok.source, rfl, ?_, hok.inactive⟩
    have := pendingOn_drop_le l q c.key
    have := hok.reserved
    have := hok.reserved_le
    simp only
    omega

/-- One actor's claim released: the counter of its carcass is the claims that stay. -/
theorem dropPending_eq (h : Inv l) {id : ℕ} {a : Actor} {c : Claim} (ha : l.actors[id]? = some a)
    (hc : a.pending = some c) : l.dropPending id a c = some (l.drop fun c' => c'.id = c.id) := by
  obtain ⟨x, hx, hk, -, -, hle⟩ := h.pending_carcass ha hc
  have hactors : (l.drop fun c' => c'.id = c.id).actors =
      l.actors.insert id { a with pending := none } := by
    apply ExtTreeMap.ext_getElem?
    intro k
    rw [getElem?_drop_actors, OrdMap.getElem?_insert]
    split_ifs with hid
    · subst hid
      rw [ha]
      simp [Actor.lapse, hc, Option.filter]
    · cases hb : l.actors[k]? with
      | none => rfl
      | some b =>
        refine congrArg some (lapse_eq_self fun c' hc' => ?_)
        have h1 := ((h.actor k b hb).pending c' hc').actor
        have h2 := ((h.actor id a ha).pending c hc).actor
        simp only [decide_eq_false_iff_not]
        rintro hcc
        exact hid (by rw [← h1, ← h2, hcc])
  have hsum : ∀ key, pendingOn (l.drop fun c' => c'.id = c.id).actors key + a.pendingOn key =
      pendingOn l.actors key := by
    intro key
    rw [hactors]
    exact OrdMap.total_insert ha (fun _ (a : Actor) => a.pendingOn key) _
  have hcarcasses : (l.drop fun c' => c'.id = c.id).carcasses =
      l.carcasses.insert c.key.source { x with reserved := x.reserved - c.amount } := by
    apply ExtTreeMap.ext_getElem?
    intro s
    rw [getElem?_drop_carcasses, OrdMap.getElem?_insert]
    split_ifs with hs
    · subst hs
      have hx' := hsum x.key
      rw [← (h.carcass _ x hx).reserved] at hx'
      have hpa : a.pendingOn x.key = c.amount := by simp [Actor.pendingOn, hc, hk]
      rw [hx, Option.map_some]
      congr 2
      omega
    · cases hy : l.carcasses[s]? with
      | none => rfl
      | some y =>
        have hy' := hsum y.key
        rw [← (h.carcass s y hy).reserved] at hy'
        have hpa : a.pendingOn y.key = 0 := by
          have : c.key ≠ y.key := fun hcy => hs (by rw [hcy, (h.carcass s y hy).source])
          simp [Actor.pendingOn, hc, this]
        rw [Option.map_some, show pendingOn _ y.key = y.reserved by omega]
  have hf : l.findCarcass c.key = some x := findCarcass_eq_some.mpr ⟨hx, hk⟩
  simp only [dropPending, release, hf, usub_of_le hle, Option.bind_eq_bind, Option.bind_some,
    Option.pure_def, ← hactors, ← hcarcasses]
  rfl

theorem dropPendingIf_eq (h : Inv l) (p : Claim → Bool) (id : ℕ) :
    dropPendingIf p l id = some (l.drop fun c => decide (c.id.actor = id) && p c) := by
  have howner : ∀ (k : ℕ) (b : Actor) (c : Claim), l.actors[k]? = some b → b.pending = some c →
      c.id.actor = k := fun k b c hb hc => ((h.actor k b hb).pending c hc).actor
  have hself : (∀ a, l.actors[id]? = some a → ∀ c, a.pending = some c → p c = false) →
      l = l.drop fun c => decide (c.id.actor = id) && p c := by
    intro hp
    refine (drop_eq_self h fun k b c hb hc => ?_).symm
    rw [howner k b c hb hc]
    by_cases hk : k = id
    · simp [hp b (hk ▸ hb) c hc]
    · simp [hk]
  unfold dropPendingIf
  split
  next hnone => rw [← hself (by simp [hnone])]
  next a ha =>
    split
    next hnone => rw [← hself (by simp [ha, hnone])]
    next c hc =>
      cases hpc : p c with
      | false => rw [if_neg Bool.false_ne_true, ← hself (by simp [ha, hc, hpc])]
      | true =>
        rw [if_pos rfl, dropPending_eq h ha hc]
        refine congrArg some (drop_congr fun k b c' hb hc' => ?_)
        by_cases hk : k = id
        · rw [hk, ha, Option.some.injEq] at hb
          subst hb
          rw [hc, Option.some.injEq] at hc'
          subst hc'
          simp [howner id a c ha hc, hpc]
        · have hne : c'.id ≠ c.id := fun e =>
            hk (by rw [← howner k b c' hb hc', e, howner id a c ha hc])
          simp [howner k b c' hb hc', hk, hne]

/-- The walk over the actors in `CloseCarcass` and `Expire`. -/
theorem dropLoop_eq (h : Inv l) (p : Claim → Bool) :
    l.actors.keys.foldlM (dropPendingIf p) l = some (l.drop p) := by
  have hloop := OrdMap.loop (f := dropPendingIf p)
    (P := fun seen t => t = l.drop fun c => decide (c.id.actor ∈ seen) && p c) l.actors.keys
    (OrdMap.nodup_keys _) (s := l) (drop_eq_self h (by simp)).symm ?_
  · obtain ⟨l', hl', rfl⟩ := hloop
    rw [hl']
    refine congrArg some (drop_congr fun id a c ha hc => ?_)
    have hk : c.id.actor ∈ l.actors.keys := by
      rw [((h.actor id a ha).pending c hc).actor]
      exact (OrdMap.mem_keys_iff _ _).mpr ⟨a, ha⟩
    simp [hk]
  · rintro seen k _ - - rfl
    refine ⟨_, dropPendingIf_eq (h.drop _) p k, ?_⟩
    rw [drop_drop]
    refine drop_congr fun id b c _ _ => ?_
    by_cases hck : c.id.actor = k <;> simp [hck, Bool.or_comm]

/-- `Cancel`, whether or not the token is pending. -/
theorem cancel_eq (h : Inv l) (token : Token) :
    ∃ b, l.cancel token = some (b, l.drop fun c => c.id = token) := by
  have hwalk : ∃ b, l.cancel token =
      (dropPendingIf (fun c => c.id = token) l token.actor).map (Prod.mk b) := by
    unfold cancel dropPendingIf
    split
    · exact ⟨false, rfl⟩
    · split
      · exact ⟨false, rfl⟩
      · split
        next hid => exact ⟨true, by simp only [hid, decide_true, if_true, bind_pure_comp, Option.map_eq_map]⟩
        next hid => exact ⟨false, by simp [hid]⟩
  obtain ⟨b, hb⟩ := hwalk
  refine ⟨b, hb.trans ?_⟩
  rw [dropPendingIf_eq h, Option.map_some, drop_congr fun id a c ha hc => ?_]
  by_cases hid : c.id = token <;> simp [hid]

theorem cancelActor_eq (h : Inv l) (actor : ℕ) :
    ∃ b, l.cancelActor actor = some (b, l.drop fun c => c.id.actor = actor) := by
  have hwalk : ∃ b, l.cancelActor actor =
      (dropPendingIf (fun _ => true) l actor).map (Prod.mk b) := by
    unfold cancelActor dropPendingIf
    split
    · exact ⟨false, rfl⟩
    next a ha =>
      split
      · exact ⟨false, rfl⟩
      next c hc =>
        refine ⟨true, ?_⟩
        unfold cancel
        rw [((h.actor actor a ha).pending c hc).actor]
        simp only [ha, hc, if_true, bind_pure_comp, Option.map_eq_map]
  obtain ⟨b, hb⟩ := hwalk
  refine ⟨b, hb.trans ?_⟩
  simp only [dropPendingIf_eq h, Option.map_some, Bool.and_true]

/-! ### Closing carcasses -/

theorem spoil_eq_self_of {c : Carcass} {q : Carcass → Bool} (h : c.active = true → q c = false) :
    c.spoil q = c := by
  unfold Carcass.spoil
  cases hc : c.active with
  | false => rfl
  | true => simp [h hc]

theorem waste_eq_zero_of {c : Carcass} {q : Carcass → Bool} (h : c.active = true → q c = false) :
    c.waste q = 0 := by
  unfold Carcass.waste
  cases hc : c.active with
  | false => rfl
  | true => simp [h hc]

theorem spoil_twice (c : Carcass) (q q' : Carcass → Bool) :
    (c.spoil q).spoil q' = c.spoil fun c => q c || q' c := by
  unfold Carcass.spoil
  cases hc : c.active <;> cases hq : q c <;> simp [hc, hq]

theorem waste_twice (c : Carcass) (q q' : Carcass → Bool) :
    c.waste q + (c.spoil q).waste q' = c.waste fun c => q c || q' c := by
  unfold Carcass.waste Carcass.spoil
  cases hc : c.active <;> cases hq : q c <;> simp [hc, hq]

theorem spoil_spoil (q q' : Carcass → Bool) :
    (l.spoil q).spoil q' = l.spoil fun c => q c || q' c := by
  simp only [spoil, OrdMap.map_map, spoil_twice, OrdMap.total_map, Nat.add_assoc,
    ← OrdMap.total_add, waste_twice]

theorem spoil_congr {q q' : Carcass → Bool}
    (h : ∀ (s : ℕ) (c : Carcass), l.carcasses[s]? = some c → c.active = true → q c = q' c) :
    l.spoil q = l.spoil q' := by
  have hm : (l.carcasses.map fun _ c => c.spoil q) = l.carcasses.map fun _ c => c.spoil q' :=
    OrdMap.map_congr fun s c hc => by
      unfold Carcass.spoil
      cases hact : c.active with
      | false => rfl
      | true => rw [h s c hc hact]
  have ht : OrdMap.total (fun _ (c : Carcass) => c.waste q) l.carcasses =
      OrdMap.total (fun _ (c : Carcass) => c.waste q') l.carcasses :=
    OrdMap.total_congr fun s c hc => by
      unfold Carcass.waste
      cases hact : c.active with
      | false => rfl
      | true => rw [h s c hc hact]
  simp only [spoil, hm, ht]

theorem spoil_eq_self {q : Carcass → Bool}
    (h : ∀ (s : ℕ) (c : Carcass), l.carcasses[s]? = some c → c.active = true → q c = false) :
    l.spoil q = l := by
  have hm : (l.carcasses.map fun _ c => c.spoil q) = l.carcasses :=
    OrdMap.map_id_of fun s c hc => spoil_eq_self_of (h s c hc)
  have ht : OrdMap.total (fun _ (c : Carcass) => c.waste q) l.carcasses = 0 :=
    OrdMap.total_zero fun s c hc => waste_eq_zero_of (h s c hc)
  simp only [spoil, hm, ht, Nat.add_zero]

theorem getElem?_spoil_carcasses (l : Ledger) (q : Carcass → Bool) (s : ℕ) :
    (l.spoil q).carcasses[s]? = l.carcasses[s]?.map (·.spoil q) := ExtTreeMap.getElem?_map

/-- Closing one living carcass. -/
theorem spoil_one {q : Carcass → Bool} {s : ℕ} {x : Carcass} (hx : l.carcasses[s]? = some x)
    (hact : x.active = true) (hqx : q x = true)
    (hq : ∀ (s' : ℕ) (c : Carcass), l.carcasses[s']? = some c → s' ≠ s → q c = false) :
    l.spoil q = { l with
      carcasses := l.carcasses.insert s { x with remaining := 0, active := false }
      counters := { l.counters with
        potentialLost := l.counters.potentialLost + x.remaining } } := by
  have hm : (l.carcasses.map fun _ c => c.spoil q) =
      l.carcasses.insert s { x with remaining := 0, active := false } := by
    apply ExtTreeMap.ext_getElem?
    intro s'
    rw [ExtTreeMap.getElem?_map, OrdMap.getElem?_insert]
    split_ifs with hs
    · subst hs
      simp [hx, Carcass.spoil, hact, hqx]
    · cases hc : l.carcasses[s']? with
      | none => rfl
      | some c =>
        exact congrArg some (spoil_eq_self_of fun _ => hq s' c hc fun h => hs h.symm)
  have ht : OrdMap.total (fun _ (c : Carcass) => c.waste q) l.carcasses = x.remaining := by
    rw [OrdMap.total_single hx]
    · simp [Carcass.waste, hact, hqx]
    · exact fun s' c hs hc => waste_eq_zero_of fun _ => hq s' c hc hs
  simp only [spoil, hm, ht]

theorem Inv.reserved_eq_zero (h : Inv l) {s : ℕ} {x : Carcass} (hx : l.carcasses[s]? = some x)
    (hp : ∀ (id : ℕ) (a : Actor) (c : Claim), l.actors[id]? = some a → a.pending = some c →
      c.key ≠ x.key) : x.reserved = 0 := by
  rw [(h.carcass s x hx).reserved]
  refine OrdMap.total_zero fun id a ha => ?_
  unfold Actor.pendingOn
  cases hc : a.pending with
  | none => rfl
  | some c => simp [hp id a c ha hc]

theorem Inv.spoil (h : Inv l) {q : Carcass → Bool}
    (hq : ∀ (s : ℕ) (c : Carcass), l.carcasses[s]? = some c → c.active = true → q c = true →
      c.reserved = 0) : Inv (l.spoil q) := by
  have hpot : (l.spoil q).carcassPotential +
      OrdMap.total (fun _ (c : Carcass) => c.waste q) l.carcasses = l.carcassPotential := by
    unfold carcassPotential
    rw [Ledger.spoil, OrdMap.total_map, ← OrdMap.total_add]
    refine OrdMap.total_congr fun s c _ => ?_
    unfold Carcass.spoil Carcass.waste
    cases hc : c.active && q c <;> simp
  refine { h with potentialConserved := ?_, actor := ?_, carcass := ?_ }
  · have := h.potentialConserved
    unfold PotentialConserved remainingPotential at this ⊢
    change l.counters.potentialCreated = _ + l.fieldPotential + l.counters.harvestedTotal +
      (l.counters.potentialLost + _)
    omega
  · intro id a ha
    have hok := h.actor id a ha
    refine ⟨hok.cargo_le, hok.committed_le, hok.committed, fun c hc => ?_⟩
    obtain ⟨x, hx, hk, hact, hexp, hle⟩ := h.pending_carcass ha hc
    have hpos := (hok.pending c hc).amount_pos
    have hqx : q x = false := by
      cases hqx : q x with
      | false => rfl
      | true => exact absurd (hq _ x hx hact hqx) (by omega)
    refine { hok.pending c hc with carcass := ⟨x, ?_, hk, hact, hexp⟩ }
    rw [getElem?_spoil_carcasses, hx, Option.map_some, spoil_eq_self_of fun _ => hqx]
  · intro s c' hc'
    rw [getElem?_spoil_carcasses, Option.map_eq_some_iff] at hc'
    obtain ⟨c, hc, rfl⟩ := hc'
    have hok := h.carcass s c hc
    cases hcq : c.active && q c with
    | false =>
      have hs : c.spoil q = c := by simp [Carcass.spoil, hcq]
      rw [hs]
      exact { hok with }
    | true =>
      have hs : c.spoil q = { c with remaining := 0, active := false } := by
        simp [Carcass.spoil, hcq]
      rw [Bool.and_eq_true] at hcq
      rw [hs]
      exact ⟨hok.source, hok.reserved, (hq s c hc hcq.1 hcq.2).le, fun _ => rfl⟩

theorem Inv.closed (h : Inv l) (key : CarcassKey) : Inv (l.closed key) := by
  refine (h.drop _).spoil fun s x hx _ hk => ?_
  refine (h.drop _).reserved_eq_zero hx fun id a c ha hc => ?_
  rw [getElem?_drop_actors, Option.map_eq_some_iff] at ha
  obtain ⟨b, _, rfl⟩ := ha
  simp only [decide_eq_true_eq] at hk
  rw [hk]
  simpa using (lapse_pending.mp hc).2

theorem closeCarcass_eq (h : Inv l) (key : CarcassKey) :
    l.closeCarcass key = some (l.closed key) := by
  -- a claim on `key` or a living carcass of `key` is found under its source
  have hself : (∀ x, l.findCarcass key = some x → x.active = false) → l.closed key = l := by
    intro hf
    have hd : (l.drop fun c => c.key = key) = l := by
      refine drop_eq_self h fun id a c ha hc => ?_
      obtain ⟨x, hx, hk, hact, -⟩ := h.pending_carcass ha hc
      rw [decide_eq_false_iff_not]
      rintro rfl
      exact absurd (hf x (findCarcass_eq_some.mpr ⟨hx, hk⟩)) (by simp [hact])
    rw [Ledger.closed, hd]
    refine spoil_eq_self fun s c hc hact => ?_
    rw [decide_eq_false_iff_not]
    rintro rfl
    rw [← (h.carcass s c hc).source] at hc
    exact absurd (hf c (findCarcass_eq_some.mpr ⟨hc, rfl⟩)) (by simp [hact])
  unfold closeCarcass
  split
  next hf => rw [hself (by simp [hf])]
  next x hf =>
    split_ifs with hact
    · rw [hself fun y hy => by rw [hf, Option.some.injEq] at hy; exact hy ▸ hact]
    · rw [Bool.not_eq_false] at hact
      obtain ⟨hx, hk⟩ := findCarcass_eq_some.mp hf
      set l' := l.drop fun c => c.key = key with hl'
      set y : Carcass := { x with reserved := pendingOn l'.actors x.key } with hy
      have hx' : l'.carcasses[key.source]? = some y := by
        rw [hl', getElem?_drop_carcasses, hx, Option.map_some]
      have hf' : l'.findCarcass key = some y := findCarcass_eq_some.mpr ⟨hx', hk⟩
      have hone : l.closed key = _ := spoil_one hx' hact (by simp [hy, hk]) fun s c hc hs => by
        rw [decide_eq_false_iff_not]
        rintro rfl
        exact hs ((h.drop _).carcass s c hc).source.symm
      simp only [dropLoop_eq h, Option.bind_eq_bind, Option.bind_some, ← hl', hf', Option.pure_def,
        hone]

/-! ### Regrowing fields -/

@[simp] theorem regrown_remaining (f : Field) (nowMs : ℕ) :
    (f.regrown nowMs).remaining = f.remaining + f.growth nowMs := rfl

@[simp] theorem regrown_regrownTotal (f : Field) (nowMs : ℕ) :
    (f.regrown nowMs).regrownTotal = f.regrownTotal + f.growth nowMs := rfl

@[simp] theorem regrown_capacity (f : Field) (nowMs : ℕ) :
    (f.regrown nowMs).capacity = f.capacity := rfl

@[simp] theorem regrown_regrowMs (f : Field) (nowMs : ℕ) :
    (f.regrown nowMs).regrowMs = f.regrowMs := rfl

theorem growth_le (f : Field) (nowMs : ℕ) : f.growth nowMs ≤ f.capacity - f.remaining := by
  unfold Field.growth
  split_ifs
  · exact Nat.zero_le _
  · exact min_le_right _ _

theorem regrown_eq_self {f : Field} {nowMs : ℕ} (h : nowMs ≤ f.lastGrowthAtMs) :
    f.growth nowMs = 0 ∧ f.regrown nowMs = f := by
  have hg : f.growth nowMs = 0 := if_pos h
  exact ⟨hg, by simp [Field.regrown, hg, h]⟩

theorem regrow_eq {id : ℕ} {f : Field} (hf : l.fields[id]? = some f)
    (hle : f.remaining ≤ f.capacity) (nowMs : ℕ) :
    regrow nowMs l id = some { l with
      fields := l.fields.insert id (f.regrown nowMs)
      counters := { l.counters with
        potentialCreated := l.counters.potentialCreated + f.growth nowMs } } := by
  have hself : f.growth nowMs = 0 → f.regrown nowMs = f → some l = some { l with
      fields := l.fields.insert id (f.regrown nowMs)
      counters := { l.counters with
        potentialCreated := l.counters.potentialCreated + f.growth nowMs } } := by
    intro hg hr
    rw [hg, hr, OrdMap.insert_self hf]
    rfl
  unfold regrow
  simp only [hf]
  split_ifs with hback hfull
  · obtain ⟨hg, hr⟩ := regrown_eq_self hback
    exact hself hg hr
  · have hg : f.growth nowMs = 0 := by
      have := growth_le f nowMs
      omega
    have hr : f.regrown nowMs = { f with lastGrowthAtMs := nowMs } := by
      simp [Field.regrown, hg, hback, hfull]
    rw [hg, hr]
    rfl
  · rw [usub_of_le (by omega), usub_of_le hle]
    simp only [Option.bind_eq_bind, Option.bind_some, Option.pure_def]
    have hg : f.growth nowMs =
        min ((nowMs - f.lastGrowthAtMs) / f.regrowMs) (f.capacity - f.remaining) := if_neg hback
    rw [← hg]
    split_ifs with hzero hcap
    · exact hself hzero (by simp [Field.regrown, hzero, hfull])
    · simp [Field.regrown, hback, hcap]
    · simp [Field.regrown, hback, hcap]

/-- The walk over the fields in `Expire`. -/
theorem growLoop_eq (h : Inv l) (nowMs : ℕ) :
    l.fields.keys.foldlM (regrow nowMs) l = some (l.grow nowMs) := by
  have hloop := OrdMap.loop (f := regrow nowMs)
    (P := fun seen t => t = { l with
      fields := l.fields.map fun id f => if id ∈ seen then f.regrown nowMs else f
      counters := { l.counters with
        potentialCreated := l.counters.potentialCreated +
          OrdMap.total (fun id f => if id ∈ seen then f.growth nowMs else 0) l.fields } })
    l.fields.keys (OrdMap.nodup_keys _) (s := l) ?_ ?_
  · obtain ⟨l', hl', rfl⟩ := hloop
    have hk : ∀ id f, l.fields[id]? = some f → id ∈ l.fields.keys :=
      fun id f hf => (OrdMap.mem_keys_iff _ _).mpr ⟨f, hf⟩
    rw [hl', grow, OrdMap.map_congr fun id f hf => if_pos (hk id f hf),
      OrdMap.total_congr fun id f hf => if_pos (hk id f hf)]
  · have hm : (l.fields.map fun id f => if id ∈ ([] : List ℕ) then f.regrown nowMs else f) =
        l.fields := OrdMap.map_id_of fun id f _ => by simp
    have ht : OrdMap.total (fun id (f : Field) => if id ∈ ([] : List ℕ) then f.growth nowMs else 0)
        l.fields = 0 := OrdMap.total_zero fun id f _ => by simp
    rw [hm, ht]
    rfl
  · rintro seen k _ hk hseen rfl
    obtain ⟨f, hf⟩ := (OrdMap.mem_keys_iff _ _).mp hk
    refine ⟨_, regrow_eq (f := f) ?_ (h.field k f hf).remaining_le nowMs, ?_⟩
    · simp [hf, hseen]
    · rw [OrdMap.map_visited_insert hf fun _ f => f.regrown nowMs,
        OrdMap.total_visited hf (fun _ f => f.growth nowMs) hseen, Nat.add_assoc]

theorem Inv.grow (h : Inv l) (nowMs : ℕ) : Inv (l.grow nowMs) := by
  have hpot : (l.grow nowMs).fieldPotential =
      l.fieldPotential + OrdMap.total (fun _ f => f.growth nowMs) l.fields := by
    unfold fieldPotential
    rw [Ledger.grow, OrdMap.total_map, ← OrdMap.total_add]
    rfl
  refine { h with potentialConserved := ?_, field := ?_ }
  · have := h.potentialConserved
    unfold PotentialConserved remainingPotential at this ⊢
    rw [hpot]
    change l.counters.potentialCreated + _ =
      l.carcassPotential + _ + l.counters.harvestedTotal + l.counters.potentialLost
    omega
  · intro id f' hf'
    rw [Ledger.grow, ExtTreeMap.getElem?_map, Option.map_eq_some_iff] at hf'
    obtain ⟨f, hf, rfl⟩ := hf'
    have hok := h.field id f hf
    refine ⟨hok.depotId, hok.crops, ?_, hok.regrowMs_pos⟩
    have := growth_le f nowMs
    have := hok.remaining_le
    rw [regrown_remaining, regrown_capacity]
    omega

/-! ### Expiring -/

/-- No claim outlives its carcass. -/
theorem Inv.not_pending_of_late (h : Inv l) {nowMs : ℕ}
    (hexp : ∀ (id : ℕ) (a : Actor) (c : Claim), l.actors[id]? = some a → a.pending = some c →
      nowMs < c.expiresAtMs)
    {s : ℕ} {x : Carcass} (hx : l.carcasses[s]? = some x) (hlate : x.expiresAtMs ≤ nowMs)
    (id : ℕ) (a : Actor) (c : Claim) (ha : l.actors[id]? = some a) (hc : a.pending = some c) :
    c.key ≠ x.key := by
  intro hk
  obtain ⟨y, hy, -, -, hle, -⟩ := h.pending_carcass ha hc
  rw [hk, (h.carcass s x hx).source, hx, Option.some.injEq] at hy
  subst hy
  have := hexp id a c ha hc
  omega

/-- The walk over the carcasses in `Expire`. -/
theorem closeLoop_eq (h : Inv l) {nowMs : ℕ}
    (hexp : ∀ (id : ℕ) (a : Actor) (c : Claim), l.actors[id]? = some a → a.pending = some c →
      nowMs < c.expiresAtMs) :
    l.carcasses.keys.foldlM (closeIfExpired nowMs) l =
      some (l.spoil fun c => c.expiresAtMs ≤ nowMs) := by
  have hinv : ∀ seen : List ℕ,
      Inv (l.spoil fun c => decide (c.key.source ∈ seen) && decide (c.expiresAtMs ≤ nowMs)) := by
    intro seen
    refine h.spoil fun s x hx _ hq => h.reserved_eq_zero hx (h.not_pending_of_late hexp hx ?_)
    simp only [Bool.and_eq_true, decide_eq_true_eq] at hq
    exact hq.2
  have hloop := OrdMap.loop (f := closeIfExpired nowMs)
    (P := fun seen t => t = l.spoil fun c =>
      decide (c.key.source ∈ seen) && decide (c.expiresAtMs ≤ nowMs))
    l.carcasses.keys (OrdMap.nodup_keys _) (s := l)
    (spoil_eq_self fun s c _ _ => by simp).symm ?_
  · obtain ⟨l', hl', rfl⟩ := hloop
    rw [hl']
    refine congrArg some (spoil_congr fun s c hc _ => ?_)
    have hk : c.key.source ∈ l.carcasses.keys := by
      rw [(h.carcass s c hc).source]
      exact (OrdMap.mem_keys_iff _ _).mpr ⟨c, hc⟩
    simp [hk]
  · rintro seen k _ hk hseen rfl
    obtain ⟨x, hx⟩ := (OrdMap.mem_keys_iff _ _).mp hk
    have hsrc := (h.carcass k x hx).source
    set t := l.spoil fun c => decide (c.key.source ∈ seen) && decide (c.expiresAtMs ≤ nowMs) with ht
    have htx : t.carcasses[k]? = some x := by
      rw [ht, getElem?_spoil_carcasses, hx, Option.map_some,
        spoil_eq_self_of fun _ => by simp [hsrc, hseen]]
    unfold closeIfExpired
    simp only [htx]
    by_cases hlive : x.active = true ∧ x.expiresAtMs ≤ nowMs
    · refine ⟨t.closed x.key, by rw [if_pos hlive, closeCarcass_eq (hinv seen)], ?_⟩
      have hd : (t.drop fun c => c.key = x.key) = t := by
        refine drop_eq_self (hinv seen) fun id a c ha hc => ?_
        rw [decide_eq_false_iff_not]
        exact h.not_pending_of_late hexp hx hlive.2 id a c ha hc
      rw [closed, hd, ht, spoil_spoil]
      refine spoil_congr fun s c hc _ => ?_
      by_cases hck : c.key.source = k
      · rw [(h.carcass s c hc).source] at hck
        rw [hck, hx, Option.some.injEq] at hc
        subst hc
        simp [hsrc, hlive.2]
      · have : c.key ≠ x.key := fun e => hck (by rw [e, hsrc])
        simp [hck, this]
    · refine ⟨t, if_neg hlive, ?_⟩
      rw [ht]
      refine spoil_congr fun s c hc hact => ?_
      by_cases hck : c.key.source = k
      · rw [(h.carcass s c hc).source] at hck
        rw [hck, hx, Option.some.injEq] at hc
        subst hc
        have : ¬ x.expiresAtMs ≤ nowMs := fun e => hlive ⟨hact, e⟩
        simp [this]
      · simp [hck]

/-- The claims that stay after the walk over the actors are not due. -/
theorem not_due (l : Ledger) (nowMs : ℕ) (id : ℕ) (a : Actor) (c : Claim)
    (ha : (l.drop fun c => c.expiresAtMs ≤ nowMs).actors[id]? = some a)
    (hc : a.pending = some c) : nowMs < c.expiresAtMs := by
  rw [getElem?_drop_actors, Option.map_eq_some_iff] at ha
  obtain ⟨b, -, rfl⟩ := ha
  simpa using (lapse_pending.mp hc).2

theorem expire_eq (h : Inv l) (nowMs : ℕ) : l.expire nowMs = some (l.settled nowMs) := by
  unfold expire
  simp only [growLoop_eq h, dropLoop_eq (h.grow nowMs), Option.bind_eq_bind, Option.bind_some]
  exact closeLoop_eq ((h.grow nowMs).drop _) (not_due _ nowMs)

theorem Inv.settled (h : Inv l) (nowMs : ℕ) : Inv (l.settled nowMs) := by
  have hd := (h.grow nowMs).drop fun c => c.expiresAtMs ≤ nowMs
  exact hd.spoil fun s x hx _ hlate => hd.reserved_eq_zero hx
    (hd.not_pending_of_late (not_due _ nowMs) hx (of_decide_eq_true hlate))

end Ledger

end AIWorld.LivingSupply
