import AIWorld.LivingSupply.Calls

/-! Conservation of food. Every effect keeps the invariant, one lemma for each
change, so that every sequence of calls is defined and keeps the books. -/

namespace AIWorld.LivingSupply

open Std Lib

theorem pendingOn_insert {actors : ExtTreeMap ℕ Actor} {id : ℕ} {a : Actor}
    (ha : actors[id]? = some a) (a' : Actor) (key : CarcassKey) :
    pendingOn (actors.insert id a') key + a.pendingOn key =
      pendingOn actors key + a'.pendingOn key :=
  OrdMap.total_insert ha (fun _ (a : Actor) => a.pendingOn key) a'

theorem pendingOn_insert_same {actors : ExtTreeMap ℕ Actor} {id : ℕ} {a a' : Actor}
    (ha : actors[id]? = some a) (hp : a'.pending = a.pending) (key : CarcassKey) :
    pendingOn (actors.insert id a') key = pendingOn actors key := by
  have h := pendingOn_insert ha a' key
  have : a'.pendingOn key = a.pendingOn key := by simp only [Actor.pendingOn, hp]
  omega

namespace Ledger

variable {l : Ledger}

/-! ### Layout and registration -/

theorem Inv.addDepot (h : Inv l) {id initial capacity : ℕ} (target low : ℕ)
    (hnew : l.depots[id]? = none) (hle : initial ≤ capacity) :
    Inv (l.addDepot id initial capacity target low) := by
  have hsum (f : ℕ → Depot → ℕ) := OrdMap.total_insert_new hnew f
    { id, stock := initial, capacity, target, low }
  refine { h with
    conserved := ?_
    deliveredTotal := h.deliveredTotal.trans (hsum fun _ d => d.delivered).symm
    stolenTotal := h.stolenTotal.trans (hsum fun _ d => d.stolen).symm
    loadedTotal := h.loadedTotal.trans (hsum fun _ d => d.exported).symm
    depotConsumed := h.depotConsumed.trans (hsum fun _ d => d.consumed).symm
    depot := OrdMap.forall_insert ⟨⟨initial, ?_, rfl⟩, hle⟩ fun k d hk hd => ?_ }
  · have h1 := h.conserved
    have h2 : (l.addDepot id initial capacity target low).depotFood = l.depotFood + initial :=
      hsum fun _ d => d.stock
    unfold Conserved at h1 ⊢
    rw [h2]
    simp only [Ledger.addDepot, cargoFood] at h1 ⊢
    omega
  · exact ExtTreeMap.getElem?_insert_self
  · obtain ⟨n, hn, hb⟩ := (h.depot k d hd).balance
    exact ⟨⟨n, (OrdMap.getElem?_insert_ne _ _ hk).trans hn, hb⟩, (h.depot k d hd).stock_le⟩

theorem Inv.addField (h : Inv l) {id initial capacity regrowMs : ℕ} (nowMs : ℕ)
    (hnew : l.fields[id]? = none) (hle : initial ≤ capacity) (hpos : 0 < regrowMs) :
    Inv (l.addField id nowMs initial capacity regrowMs) := by
  refine { h with
    potentialConserved := ?_
    field := OrdMap.forall_insert ⟨rfl, ⟨initial, ?_⟩, hle, hpos⟩ fun k f hk hf => ?_ }
  · have h1 := h.potentialConserved
    have h2 : (l.addField id nowMs initial capacity regrowMs).fieldPotential =
        l.fieldPotential + initial :=
      OrdMap.total_insert_new hnew (fun _ (f : Field) => f.remaining) _
    unfold PotentialConserved remainingPotential at h1 ⊢
    rw [h2]
    simp only [Ledger.addField, carcassPotential] at h1 ⊢
    omega
  · exact ExtTreeMap.getElem?_insert_self
  · obtain ⟨n, hn⟩ := (h.field k f hf).crops
    exact { h.field k f hf with crops := ⟨n, (OrdMap.getElem?_insert_ne _ _ hk).trans hn⟩ }

theorem Inv.addActor (h : Inv l) {id : ℕ} (r : Role) (hnew : l.actors[id]? = none) :
    Inv { l with actors := l.actors.insert id r.actor } := by
  have hcargo : r.actor.cargo = 0 := by cases r <;> rfl
  have hpending : r.actor.pending = none := by cases r <;> rfl
  have hcommitted : r.actor.lastCommitted = none := by cases r <;> rfl
  refine { h with
    conserved := ?_
    actor := OrdMap.forall_insert ⟨by omega, by simp [hcommitted], by simp [hcommitted],
        by simp [hpending]⟩
      fun k a _ ha => h.actor k a ha
    carcass := fun s c hc => { h.carcass s c hc with reserved := ?_ } }
  · have h1 := h.conserved
    have h2 := OrdMap.total_insert_new hnew (fun _ (a : Actor) => a.cargo) r.actor
    simp only [Conserved, depotFood, cargoFood] at h1 h2 ⊢
    omega
  · have h1 := (h.carcass s c hc).reserved
    have h2 := OrdMap.total_insert_new hnew (fun _ (a : Actor) => a.pendingOn c.key) r.actor
    have hzero : r.actor.pendingOn c.key = 0 := by simp [Actor.pendingOn, hpending]
    simp only [pendingOn] at h1 h2 ⊢
    omega

/-! ### Carcasses and claims -/

theorem Inv.retired (h : Inv l) (source : ℕ) : Inv (l.retired source) := by
  unfold Ledger.retired
  split
  · exact h.closed _
  · exact h

/-- What retiring leaves at its source is closed and free of claims. -/
theorem retired_inactive {source : ℕ} {x : Carcass}
    (hx : (l.retired source).carcasses[source]? = some x) : x.active = false := by
  unfold Ledger.retired at hx
  split at hx
  next c hc =>
    rw [closed, getElem?_spoil_carcasses, getElem?_drop_carcasses, hc, Option.map_some,
      Option.map_some, Option.some.injEq] at hx
    subst hx
    unfold Carcass.spoil
    cases c.active <;> simp
  next hnone => rw [hnone] at hx; contradiction

/-- The potential of the carcass at a source. -/
def potentialAt (l : Ledger) (source : ℕ) : ℕ := (l.carcasses[source]?).elim 0 Carcass.remaining

theorem carcassPotential_insert (l : Ledger) (source : ℕ) (x : Carcass) :
    { l with carcasses := l.carcasses.insert source x }.carcassPotential + l.potentialAt source =
      l.carcassPotential + x.remaining := by
  unfold carcassPotential potentialAt
  cases hx : l.carcasses[source]? with
  | none => exact OrdMap.total_insert_new hx (fun _ (c : Carcass) => c.remaining) x
  | some y => exact OrdMap.total_insert hx (fun _ (c : Carcass) => c.remaining) x

theorem Inv.addCarcass (h : Inv l) {key : CarcassKey} (expiresAtMs portions : ℕ)
    (hold : ∀ x, l.carcasses[key.source]? = some x → x.active = false) :
    Inv (l.addCarcass key expiresAtMs portions) := by
  have hfree : ∀ (id : ℕ) (a : Actor) (c : Claim), l.actors[id]? = some a → a.pending = some c →
      c.key.source ≠ key.source := by
    intro id a c ha hc hs
    obtain ⟨x, hx, -, hact, -⟩ := h.pending_carcass ha hc
    rw [hs] at hx
    rw [hold x hx] at hact
    contradiction
  have hzero : l.potentialAt key.source = 0 := by
    unfold potentialAt
    cases hx : l.carcasses[key.source]? with
    | none => rfl
    | some x => exact (h.inactive hx (hold x hx)).1
  refine { h with
    potentialConserved := ?_
    actor := fun id a ha => { h.actor id a ha with
      pending := fun c hc => { (h.actor id a ha).pending c hc with carcass := ?_ } }
    carcass := OrdMap.forall_insert ⟨rfl, ?_, Nat.zero_le _, by simp⟩
      fun s c _ hc => h.carcass s c hc }
  · have h1 := h.potentialConserved
    have h2 := carcassPotential_insert l key.source ⟨key, portions, 0, expiresAtMs, true⟩
    simp only [PotentialConserved, remainingPotential, carcassPotential, fieldPotential,
      Ledger.addCarcass] at h1 h2 ⊢
    omega
  · obtain ⟨x, hx, hrest⟩ := ((h.actor id a ha).pending c hc).carcass
    exact ⟨x, (OrdMap.getElem?_insert_ne _ _ (hfree id a c ha hc).symm).trans hx, hrest⟩
  · refine (OrdMap.total_zero fun id a ha => ?_).symm
    unfold Actor.pendingOn
    cases hc : a.pending with
    | none => rfl
    | some c =>
      have : c.key ≠ key := fun e => hfree id a c ha hc (by rw [e])
      simp [this]

theorem Inv.claimed (h : Inv l) {id : ℕ} {a : Actor} {x : Carcass} {c : Claim}
    (ha : l.actors[id]? = some a) (hnone : a.pending = none)
    (hx : l.carcasses[c.key.source]? = some x) (hkey : x.key = c.key) (hact : x.active = true)
    (hid : c.id = ⟨id, l.nextClaimSerial + 1⟩) (hpos : 0 < c.amount)
    (hamount : x.reserved + c.amount ≤ x.remaining)
    (hroom : c.kind = .harvest → a.cargo + c.amount ≤ a.capacity)
    (hkind : a.predator = decide (c.kind = .predatorMeal))
    (hplain : a.consumer = false ∧ a.carrier = false ∧ a.raidSourceDepotId = 0 ∧ a.fieldId = 0)
    (hexp : c.expiresAtMs ≤ x.expiresAtMs) : Inv (l.claimed id a x c) := by
  have hclaim : ∀ (k : ℕ) (b : Actor) (c' : Claim), l.actors[k]? = some b → b.pending = some c' →
      ClaimOk (l.claimed id a x c).carcasses (l.claimed id a x c).nextClaimSerial k b c' := by
    intro k b c' hb hc'
    have hok := (h.actor k b hb).pending c' hc'
    refine { hok with serial_le := Nat.le_succ_of_le hok.serial_le, carcass := ?_ }
    obtain ⟨y, hy, hrest⟩ := hok.carcass
    by_cases hs : c.key.source = c'.key.source
    · rw [← hs, hx, Option.some.injEq] at hy
      subst hy
      exact ⟨{ x with reserved := x.reserved + c.amount }, by simp [Ledger.claimed, hs], hrest⟩
    · exact ⟨y, (OrdMap.getElem?_insert_ne _ _ hs).trans hy, hrest⟩
  have hpend (key : CarcassKey) := pendingOn_insert ha { a with pending := some c } key
  have hnil (key : CarcassKey) : a.pendingOn key = 0 := by simp [Actor.pendingOn, hnone]
  refine { h with
    conserved := ?_
    potentialConserved := ?_
    actor := OrdMap.forall_insert
      ⟨(h.actor id a ha).cargo_le, ?_, (h.actor id a ha).committed, ?_⟩ fun k b _ hb =>
        ⟨(h.actor k b hb).cargo_le,
          fun t r ht => Nat.le_succ_of_le ((h.actor k b hb).committed_le t r ht),
          (h.actor k b hb).committed, fun c' hc' => hclaim k b c' hb hc'⟩
    carcass := OrdMap.forall_insert ⟨?_, ?_, hamount, by simp [hact]⟩ fun s y hs hy =>
      { h.carcass s y hy with reserved := ?_ } }
  · have h1 := h.conserved
    have h2 := OrdMap.total_insert ha (fun _ (a : Actor) => a.cargo) { a with pending := some c }
    simp only [Conserved, depotFood, cargoFood, Ledger.claimed] at h1 h2 ⊢
    omega
  · have h1 := h.potentialConserved
    have h2 := OrdMap.total_insert hx (fun _ (c : Carcass) => c.remaining)
      { x with reserved := x.reserved + c.amount }
    simp only [PotentialConserved, remainingPotential, carcassPotential, fieldPotential,
      Ledger.claimed] at h1 h2 ⊢
    omega
  · exact fun t r ht => Nat.le_succ_of_le ((h.actor id a ha).committed_le t r ht)
  · rintro c' hc'
    cases hc'
    refine ⟨by rw [hid], by rw [hid]; exact Nat.succ_pos _, by rw [hid]; exact le_rfl, ?_,
      
      ⟨{ x with reserved := x.reserved + c.amount }, by simp [Ledger.claimed], hkey, hact, hexp⟩, hpos, hroom, hkind, hplain⟩
    intro t r ht
    rw [hid]
    exact Nat.lt_succ_of_le ((h.actor id a ha).committed_le t r ht)
  · exact (h.carcass _ x hx).source
  · have h1 := (h.carcass _ x hx).reserved
    have h2 := hpend x.key
    have h3 := hnil x.key
    have h4 : Actor.pendingOn { a with pending := some c } x.key = c.amount := by
      simp [Actor.pendingOn, hkey]
    simp only [Ledger.claimed]
    omega
  · have h1 := (h.carcass s y hy).reserved
    have h2 := hpend y.key
    have h3 := hnil y.key
    have h4 : Actor.pendingOn { a with pending := some c } y.key = 0 := by
      have : c.key ≠ y.key := fun e => hs (by rw [e, (h.carcass s y hy).source])
      simp [Actor.pendingOn, this]
    simp only [Ledger.claimed]
    omega

theorem extract_cargo (a : Actor) (c : Claim) :
    (a.extract c).cargo + c.eaten = a.cargo + c.amount := by
  unfold Actor.extract Claim.eaten
  split <;> rfl

theorem Inv.extracted (h : Inv l) {id : ℕ} {a : Actor} {x : Carcass} {c : Claim}
    (ha : l.actors[id]? = some a) (hc : a.pending = some c)
    (hx : l.carcasses[c.key.source]? = some x) (hkey : x.key = c.key) (hact : x.active = true) :
    Inv (l.extracted id a x c) := by
  have hok := (h.actor id a ha).pending c hc
  obtain ⟨y, hy, -, -, -, hle⟩ := h.pending_carcass ha hc
  rw [hx, Option.some.injEq] at hy
  subst hy
  have hrem := (h.carcass _ x hx).reserved_le
  have hclaim : ∀ (k : ℕ) (b : Actor) (c' : Claim), l.actors[k]? = some b → b.pending = some c' →
      ClaimOk (l.extracted id a x c).carcasses l.nextClaimSerial k b c' := by
    intro k b c' hb hc'
    have hok := (h.actor k b hb).pending c' hc'
    refine { hok with carcass := ?_ }
    obtain ⟨y, hy, hrest⟩ := hok.carcass
    by_cases hs : c.key.source = c'.key.source
    · rw [← hs, hx, Option.some.injEq] at hy
      subst hy
      exact ⟨{ x with remaining := x.remaining - c.amount, reserved := x.reserved - c.amount },
        by simp [Ledger.extracted, hs], hrest⟩
    · exact ⟨y, (OrdMap.getElem?_insert_ne _ _ hs).trans hy, hrest⟩
  have hpend (key : CarcassKey) := pendingOn_insert ha (a.extract c) key
  have hnil (key : CarcassKey) : (a.extract c).pendingOn key = 0 := rfl
  have hcargo := extract_cargo a c
  refine { h with
    conserved := ?_
    potentialConserved := ?_
    consumedTotal := ?_
    actor := OrdMap.forall_insert ⟨?_, ?_, by simp [Actor.extract], by simp [Actor.extract]⟩
      fun k b _ hb =>
      { h.actor k b hb with pending := fun c' hc' => hclaim k b c' hb hc' }
    carcass := OrdMap.forall_insert ⟨(h.carcass _ x hx).source, ?_, ?_, by simp [hact]⟩
      fun s y hs hy => { h.carcass s y hy with reserved := ?_ } }
  · have h1 := h.conserved
    have h2 := OrdMap.total_insert ha (fun _ (a : Actor) => a.cargo) (a.extract c)
    simp only [Conserved, depotFood, cargoFood, Ledger.extracted] at h1 h2 ⊢
    omega
  · have h1 := h.potentialConserved
    have h2 := OrdMap.total_insert hx (fun _ (c : Carcass) => c.remaining)
      { x with remaining := x.remaining - c.amount, reserved := x.reserved - c.amount }
    simp only [PotentialConserved, remainingPotential, carcassPotential, fieldPotential,
      Ledger.extracted] at h1 h2 ⊢
    omega
  · have h1 := h.consumedTotal
    simp only [Ledger.extracted]
    omega
  · have h1 := (h.actor id a ha).cargo_le
    have h2 := hok.room
    unfold Actor.extract
    cases hk : c.kind with
    | harvest => simpa [hk] using h2 hk
    | predatorMeal => simpa using h1
  · rintro t r ht
    cases ht
    exact hok.serial_le
  · have h1 := (h.carcass _ x hx).reserved
    have h2 := hpend x.key
    have h3 := hnil x.key
    have h4 : a.pendingOn x.key = c.amount := by simp [Actor.pendingOn, hc, hkey]
    simp only [Ledger.extracted]
    omega
  · exact Nat.sub_le_sub_right hrem _
  · have h1 := (h.carcass s y hy).reserved
    have h2 := hpend y.key
    have h3 := hnil y.key
    have h4 : a.pendingOn y.key = 0 := by
      have : c.key ≠ y.key := fun e => hs (by rw [e, (h.carcass s y hy).source])
      simp [Actor.pendingOn, hc, this]
    simp only [Ledger.extracted]
    omega

/-! ### Flows -/

theorem ActorOk.flowed {carcasses : ExtTreeMap ℕ Carcass} {issued id : ℕ} {a : Actor}
    (h : ActorOk carcasses issued id a) {f : Flow} {n : ℕ}
    (hcap : (a.after f.kind n).cargo ≤ a.capacity)
    (hclaim : a.pending ≠ none → (a.after f.kind n).cargo ≤ a.cargo) :
    ActorOk carcasses issued id (a.flowed f n) := by
  refine ⟨by simpa [Actor.flowed_cargo] using hcap, by simpa using h.committed_le,
    by simpa using h.committed, fun c hc => ?_⟩
  rw [Actor.flowed_pending] at hc
  have hok := h.pending c hc
  have hle := hclaim (by simp [hc])
  have hrole : (a.flowed f n).asNew = a.asNew := a.flowed_asNew f n
  have hkind : (a.flowed f n).predator = a.predator := (congrArg Actor.predator hrole :)
  have hcons : (a.flowed f n).consumer = a.consumer := (congrArg Actor.consumer hrole :)
  have hcar : (a.flowed f n).carrier = a.carrier := (congrArg Actor.carrier hrole :)
  have hraid : (a.flowed f n).raidSourceDepotId = a.raidSourceDepotId :=
    (congrArg Actor.raidSourceDepotId hrole :)
  have hfield : (a.flowed f n).fieldId = a.fieldId := (congrArg Actor.fieldId hrole :)
  refine { hok with
    uncommitted := by simpa using hok.uncommitted
    room := fun hk => ?_
    kind := hkind.trans hok.kind
    plain := by rw [hcons, hcar, hraid, hfield]; exact hok.plain }
  have := hok.room hk
  rw [Actor.flowed_cargo, Actor.flowed_capacity]
  omega

/-- Only deliveries and meals are open to an actor with a pending claim. -/
theorem Inv.pending_permits (h : Inv l) {id : ℕ} {a : Actor} (ha : l.actors[id]? = some a)
    (hp : a.pending ≠ none) {place : ℕ} {kind : EventKind} (hpermits : l.Permits a place kind) :
    kind = .delivery ∨ kind = .meal := by
  obtain ⟨c, hc⟩ := Option.ne_none_iff_exists'.mp hp
  obtain ⟨-, hcar, hraid, hfield⟩ := ((h.actor id a ha).pending c hc).plain
  cases kind with
  | delivery => exact .inl rfl
  | meal => exact .inr rfl
  | theft => exact absurd hraid hpermits.2.2.2.1
  | loading => exact absurd hpermits.1 (by simp [hcar])
  | fieldHarvest => exact absurd hfield hpermits.1

theorem Inv.harvested (h : Inv l) {f : Flow} {a : Actor} {field : Field} {n : ℕ}
    (hkind : f.kind = .fieldHarvest) (ha : l.actors[f.actor]? = some a)
    (hfield : l.fields[f.place]? = some field) (hpermits : l.Permits a f.place f.kind)
    (hle : n ≤ field.remaining) (hroom : a.cargo + n ≤ a.capacity) :
    Inv (l.harvested f a field n) := by
  have hcargo : (a.after f.kind n).cargo = a.cargo + n := by simp [Actor.after, hkind]
  have hcounters : (l.harvested f a field n).counters =
      { l.counters with harvestedTotal := l.counters.harvestedTotal + n } := by
    simp [Ledger.harvested, record, Counters.after, hkind]
  refine ⟨?_, ?_, ?_, ?_, ?_, ?_, ?_, h.depot, ?_, ?_, ?_⟩
  · have h1 := h.conserved
    have h2 := OrdMap.total_insert ha (fun _ (a : Actor) => a.cargo) (a.flowed f n)
    simp only [Conserved, hcounters] at h1 ⊢
    simp only [depotFood, cargoFood, Ledger.harvested, record, Actor.flowed_cargo] at h1 h2 ⊢
    omega
  · have h1 := h.potentialConserved
    have h2 := OrdMap.total_insert hfield (fun _ (f : Field) => f.remaining) { field with
      remaining := field.remaining - n, harvestedTotal := field.harvestedTotal + n }
    simp only [PotentialConserved, hcounters] at h1 ⊢
    simp only [remainingPotential, carcassPotential, fieldPotential, Ledger.harvested,
      record] at h1 h2 ⊢
    omega
  · rw [hcounters]; exact h.deliveredTotal
  · rw [hcounters]; exact h.stolenTotal
  · rw [hcounters]; exact h.loadedTotal
  · rw [hcounters]; exact h.depotConsumed
  · rw [hcounters]; exact h.consumedTotal
  · have hok := h.field _ field hfield
    exact OrdMap.forall_insert { hok with remaining_le := (Nat.sub_le _ _).trans hok.remaining_le }
      fun k g _ hg => h.field k g hg
  · refine OrdMap.forall_insert ((h.actor _ a ha).flowed (by omega) fun hp => ?_)
      fun k b _ hb => h.actor k b hb
    rcases h.pending_permits ha hp hpermits with hk | hk <;> simp [hkind] at hk
  · exact fun s x hx => { h.carcass s x hx with
      reserved := ((h.carcass s x hx).reserved).trans
        (pendingOn_insert_same ha (a.flowed_pending f n) _).symm }

/-- A flow at a depot writes the same portions to the depot and to the ledger's counters. -/
theorem after_counters (c : Counters) (d : Depot) {kind : EventKind} (n : ℕ)
    (hkind : kind ≠ .fieldHarvest) :
    (c.after kind n).deliveredTotal + d.delivered = c.deliveredTotal + (d.after kind n).delivered ∧
    (c.after kind n).stolenTotal + d.stolen = c.stolenTotal + (d.after kind n).stolen ∧
    (c.after kind n).loadedTotal + d.exported = c.loadedTotal + (d.after kind n).exported ∧
    (c.after kind n).depotConsumed + d.consumed = c.depotConsumed + (d.after kind n).consumed ∧
    (c.after kind n).consumedTotal + c.depotConsumed =
      c.consumedTotal + (c.after kind n).depotConsumed ∧
    (c.after kind n).predatorConsumed = c.predatorConsumed := by
  cases kind with
  | fieldHarvest => contradiction
  | _ => simp only [Counters.after, Depot.after, true_and, and_true]; omega

/-- What a depot gains or loses its counters say. -/
theorem after_balance {d : Depot} {kind : EventKind} {n : ℕ} (htake : kind ≠ .delivery → n ≤ d.stock) :
    (d.after kind n).stock + (d.after kind n).consumed + (d.after kind n).stolen +
        (d.after kind n).exported + d.delivered =
      d.stock + d.consumed + d.stolen + d.exported + (d.after kind n).delivered := by
  cases kind <;> simp only [Depot.after, ne_eq, reduceCtorEq, not_false_eq_true, true_implies]
    at htake ⊢ <;> omega

theorem Inv.moved (h : Inv l) {f : Flow} {a : Actor} {d : Depot} {n : ℕ}
    (hkind : f.kind ≠ .fieldHarvest) (ha : l.actors[f.actor]? = some a)
    (hd : l.depots[f.place]? = some d) (hpermits : l.Permits a f.place f.kind)
    (hput : f.kind = .delivery → n ≤ a.cargo ∧ d.stock + n ≤ d.capacity)
    (htake : f.kind ≠ .delivery → n ≤ d.stock)
    (hroom : f.kind = .theft ∨ f.kind = .loading → a.cargo + n ≤ a.capacity) :
    Inv (l.moved f a d n) := by
  have hsum (g : Depot → ℕ) := OrdMap.total_insert hd (fun _ d => g d) (d.after f.kind n)
  have hcargo := OrdMap.total_insert ha (fun _ (a : Actor) => a.cargo) (a.flowed f n)
  have hact := h.actor _ a ha
  have hdep := h.depot _ d hd
  obtain ⟨hdel, hsto, hexp, hcon, hall, hpred⟩ := after_counters l.counters d n hkind
  refine ⟨?_, ?_, ?_, ?_, ?_, ?_, ?_, ?_, h.field, ?_, ?_⟩
  · have h1 := h.conserved
    have h2 := hsum Depot.stock
    simp only [Conserved, depotFood, cargoFood, Ledger.moved, record, Actor.flowed_cargo]
      at h1 hcargo ⊢
    -- the portions leave one of stock and cargo for the other, or are eaten
    cases hk : f.kind with
    | fieldHarvest => exact absurd hk hkind
    | delivery =>
      have := hput hk
      simp only [hk, Depot.after, Actor.after, Counters.after] at h2 hcargo ⊢
      omega
    | meal | theft | loading =>
      have := htake (by simp [hk])
      simp only [hk, Depot.after, Actor.after, Counters.after] at h2 hcargo ⊢
      omega
  · have h1 := h.potentialConserved
    have h2 : (l.moved f a d n).counters.potentialCreated = l.counters.potentialCreated ∧
        (l.moved f a d n).counters.harvestedTotal = l.counters.harvestedTotal ∧
        (l.moved f a d n).counters.potentialLost = l.counters.potentialLost := by
      cases hk : f.kind with
      | fieldHarvest => exact absurd hk hkind
      | _ => simp [Ledger.moved, record, Counters.after, hk]
    unfold PotentialConserved at h1 ⊢
    rw [h2.1, h2.2.1, h2.2.2]
    exact h1
  · have h1 := h.deliveredTotal
    have h2 := hsum Depot.delivered
    simp only [Ledger.moved, record]
    omega
  · have h1 := h.stolenTotal
    have h2 := hsum Depot.stolen
    simp only [Ledger.moved, record]
    omega
  · have h1 := h.loadedTotal
    have h2 := hsum Depot.exported
    simp only [Ledger.moved, record]
    omega
  · have h1 := h.depotConsumed
    have h2 := hsum Depot.consumed
    simp only [Ledger.moved, record]
    omega
  · have h1 := h.consumedTotal
    simp only [Ledger.moved, record]
    omega
  · refine OrdMap.forall_insert ⟨?_, ?_⟩ fun k e _ he => h.depot k e he
    · obtain ⟨initial, hinitial, hb⟩ := hdep.balance
      have := after_balance htake
      exact ⟨initial, hinitial, by omega⟩
    · have hcap : (d.after f.kind n).capacity = d.capacity := by cases f.kind <;> rfl
      have h1 := hdep.stock_le
      rw [hcap]
      cases hk : f.kind with
      | delivery => exact (hput hk).2
      | meal | theft | loading | fieldHarvest =>
        simp only [Depot.after]
        omega
  · refine OrdMap.forall_insert (hact.flowed ?_ fun hp => ?_) fun k b _ hb => h.actor k b hb
    · have h1 := hact.cargo_le
      cases hk : f.kind with
      | fieldHarvest => exact absurd hk hkind
      | delivery => exact (Nat.sub_le _ _).trans h1
      | meal => exact h1
      | theft => exact hroom (.inl hk)
      | loading => exact hroom (.inr hk)
    · rcases h.pending_permits ha hp hpermits with hk | hk <;> rw [hk] <;> simp [Actor.after]
  · exact fun s x hx => { h.carcass s x hx with
      reserved := ((h.carcass s x hx).reserved).trans
        (pendingOn_insert_same ha (a.flowed_pending f n) _).symm }

theorem Inv.dropped (h : Inv l) {id : ℕ} {a : Actor} (ha : l.actors[id]? = some a)
    (hnone : a.pending = none) : Inv (l.dropped id a) := by
  have hpend (key : CarcassKey) : pendingOn (l.actors.insert id
      { a with cargo := 0, lastCommitted := none, lastEvent := none }) key =
      pendingOn l.actors key := pendingOn_insert_same ha (by rfl) key
  refine { h with
    conserved := ?_
    actor := OrdMap.forall_insert ⟨Nat.zero_le _, by simp, by simp, by simp [hnone]⟩
      fun k b _ hb => h.actor k b hb
    carcass := fun s x hx => { h.carcass s x hx with
      reserved := (h.carcass s x hx).reserved.trans (hpend _).symm } }
  have h1 := h.conserved
  have h2 := OrdMap.total_insert ha (fun _ (a : Actor) => a.cargo)
    { a with cargo := 0, lastCommitted := none, lastEvent := none }
  simp only [Conserved, depotFood, cargoFood, Ledger.dropped] at h1 h2 ⊢
  omega

end Ledger

open Ledger

variable {l l' : Ledger} {op : Op} {o : Outcome}

/-! ### Runs -/

theorem Ledger.Inv.rest (h : Inv l) (op : Op) : Inv (l.rest op) := by
  unfold Ledger.rest
  split
  · exact h.settled _
  · exact h

theorem Effect.inv (h : Inv l) (he : Effect l op o l') : Inv l' := by
  cases he with
  | kept => exact h.rest op
  | depotAdded _ hnew hle => exact h.addDepot _ _ hnew hle
  | layoutChosen => exact { h with }
  | fieldAdded _ _ hnew hle hpos => exact h.addField _ hnew hle hpos
  | actorAdded _ _ hnew => exact h.addActor _ hnew
  | carcassAdded => exact (h.retired _).addCarcass _ _ fun x hx => retired_inactive hx
  | claimRepeated => exact h.settled _
  | claimed ha hnone hx hkey hact _ hid hpos hamount hroom hkind hplain hexp =>
    exact (h.settled _).claimed ha hnone hx hkey hact hid hpos hamount hroom hkind hplain hexp
  | extracted ha hc _ hx hkey hact => exact (h.settled _).extracted ha hc hx hkey hact
  | cancelled | actorCancelled => exact h.drop _
  | closed => exact h.closed _
  | harvested _ hkind ha hfield _ hpermits _ hle hroom =>
    exact (h.settled _).harvested hkind ha hfield hpermits hle hroom
  | moved _ hkind ha hd _ hpermits _ hput htake hroom =>
    exact h.moved hkind ha hd hpermits hput htake hroom
  | dropped ha hnone => exact (h.drop _).dropped ha hnone

theorem step_inv (h : Inv l) (hstep : step l op = some (o, l')) : Inv l' := by
  obtain ⟨p, m, hm, he⟩ := step_effect h op
  rw [hm, Option.some.injEq, Prod.mk.injEq] at hstep
  exact hstep.2 ▸ he.inv h

theorem effect_of_step (h : Inv l) (hstep : step l op = some (o, l')) : Effect l op o l' := by
  obtain ⟨p, m, hm, he⟩ := step_effect h op
  rw [hm, Option.some.injEq, Prod.mk.injEq] at hstep
  obtain ⟨rfl, rfl⟩ := hstep
  exact he

theorem machine_inv (l : Ledger) (op : Op) (o : Outcome) (l' : Ledger) (h : Inv l)
    (hstep : machine.step l op = some (o, l')) : Inv l' := step_inv h hstep

theorem Reachable.inv (h : Reachable l) : Inv l := Machine.Reachable.invariant machine_inv h inv_empty

/-- The equations and bounds that the ledger promises its callers. -/
structure Ledger.Sound (l : Ledger) : Prop where
  conserved : l.counters.initialFood + l.counters.harvestedTotal =
    l.depotFood + l.cargoFood + l.counters.consumedTotal + l.counters.lostTotal
  potentialConserved : l.counters.potentialCreated =
    l.carcassPotential + l.fieldPotential + l.counters.harvestedTotal + l.counters.potentialLost
  stock : ∀ (id : ℕ) (d : Depot), l.depots[id]? = some d →
    ∃ initial, l.initialDepotStock[id]? = some initial ∧
      (d.stock : ℤ) = (initial : ℤ) + d.delivered - d.consumed - d.stolen - d.exported
  stock_le : ∀ (id : ℕ) (d : Depot), l.depots[id]? = some d → d.stock ≤ d.capacity
  cargo_le : ∀ (id : ℕ) (a : Actor), l.actors[id]? = some a → a.cargo ≤ a.capacity
  deliveredTotal : l.counters.deliveredTotal = OrdMap.total (fun _ d => d.delivered) l.depots
  stolenTotal : l.counters.stolenTotal = OrdMap.total (fun _ d => d.stolen) l.depots
  loadedTotal : l.counters.loadedTotal = OrdMap.total (fun _ d => d.exported) l.depots
  depotConsumed : l.counters.depotConsumed = OrdMap.total (fun _ d => d.consumed) l.depots
  consumedTotal : l.counters.consumedTotal = l.counters.depotConsumed + l.counters.predatorConsumed

theorem Ledger.Inv.sound (h : Inv l) : l.Sound where
  conserved := h.conserved
  potentialConserved := h.potentialConserved
  stock id d hd := by
    obtain ⟨initial, hinitial, hb⟩ := (h.depot id d hd).balance
    exact ⟨initial, hinitial, by omega⟩
  stock_le id d hd := (h.depot id d hd).stock_le
  cargo_le id a ha := (h.actor id a ha).cargo_le
  deliveredTotal := h.deliveredTotal
  stolenTotal := h.stolenTotal
  loadedTotal := h.loadedTotal
  depotConsumed := h.depotConsumed
  consumedTotal := h.consumedTotal

/-- Conservation: every sequence of calls runs on an empty ledger without an
unsigned subtraction wrapping, and the books balance before and after each call. -/
theorem ledger_conservation (ops : List Op) :
    ∃ tr l, machine.Run {} tr l ∧ tr.map Event.input = ops ∧ l.Sound ∧
      ∀ e ∈ tr, e.pre.Sound ∧ e.post.Sound := by
  have hstep : ∀ (l : Ledger) op, l.Inv → ∃ o l', machine.step l op = some (o, l') ∧ l'.Inv := by
    intro l op h
    obtain ⟨o, l', hl', he⟩ := step_effect h op
    exact ⟨o, l', hl', he.inv h⟩
  obtain ⟨tr, l, hrun, hops, hl⟩ := Machine.exists_run hstep ops inv_empty
  refine ⟨tr, l, hrun, hops, hl.sound, fun e he => ?_⟩
  obtain ⟨hpre, -, hpost⟩ := hrun.forall_mem machine_inv inv_empty e he
  exact ⟨hpre.sound, hpost.sound⟩

end AIWorld.LivingSupply
