import AIWorld.LivingSupply.ExactlyOnce
import AIWorld.Raid.RaidMachine

/-! What calls on the food ledger do to a raider's cargo. Only a theft of its own adds to it, only a delivery or a
loss of its own takes from it. -/

namespace AIWorld.Raid

open Std Lib
open LivingSupply LivingSupply.Ledger

variable {l l' : Ledger} {op : Op} {o : Outcome} {k : ℕ} {r : Result}

def cargoOf (l : Ledger) (k : ℕ) : ℕ := l.actors[k]?.elim 0 (·.cargo)

/-- A call that moves food in an actor's name. -/
def Moves (k : ℕ) : Op → Prop
  | .commit actor .. | .harvestField actor .. | .steal actor .. | .load actor .. | .deliver actor ..
  | .eatDepot actor .. | .dropCargo actor => actor.toNat = k
  | _ => False

theorem moves_of_flow {f : Flow} (h : op.flow? = some f) : Moves f.actor op := by
  cases op <;> simp only [Op.flow?, Option.some.injEq, reduceCtorEq] at h <;> subst h <;> rfl

/-! ### Calls of others -/

theorem cargo_of_map {m : Ledger} {q : Claim → Bool} (h : m.actors[k]? = l.actors[k]?.map (·.lapse q)) :
    cargoOf m k = cargoOf l k := by
  unfold cargoOf
  rw [h]
  cases l.actors[k]? <;> rfl

theorem cargo_of_insert {m : Ledger} {i : ℕ} {a : Actor} (h : m.actors = l.actors.insert i a)
    (hi : i = k → a.cargo = cargoOf l k) : cargoOf m k = cargoOf l k := by
  unfold cargoOf
  rw [h]
  by_cases hik : i = k
  · subst hik
    rw [ExtTreeMap.getElem?_insert_self]
    exact hi rfl
  · rw [OrdMap.getElem?_insert_ne _ _ hik]

theorem cargo_of_some {a : Actor} (h : l.actors[k]? = some a) : cargoOf l k = a.cargo := by
  rw [cargoOf, h]
  rfl

theorem cargo_settled (l : Ledger) (nowMs : ℕ) : cargoOf (l.settled nowMs) k = cargoOf l k :=
  cargo_of_map (getElem?_settled_actors l nowMs k)

theorem cargo_drop (l : Ledger) (q : Claim → Bool) : cargoOf (l.drop q) k = cargoOf l k :=
  cargo_of_map (getElem?_drop_actors l q k)

/-- A call in another's name leaves an actor its cargo. -/
theorem cargo_of_effect (he : Effect l op o l') (hk : ¬ Moves k op) : cargoOf l' k = cargoOf l k := by
  cases he with
  | kept =>
    obtain ⟨q, hq⟩ := getElem?_rest_actors l op k
    exact cargo_of_map hq
  | depotAdded | layoutChosen | fieldAdded => rfl
  | @actorAdded _ i r _ _ hnew =>
    refine cargo_of_insert rfl ?_
    rintro rfl
    rw [cargoOf, hnew]
    cases r <;> rfl
  | @carcassAdded source =>
    obtain ⟨q, hq⟩ := getElem?_retired_actors l source.toNat k
    exact cargo_of_map hq
  | claimRepeated => exact cargo_settled l _
  | claimed ha =>
    refine (cargo_of_insert rfl ?_).trans (cargo_settled l _)
    rintro rfl
    exact (cargo_of_some ha).symm
  | extracted => exact (cargo_of_insert rfl fun hi => absurd hi hk).trans (cargo_settled l _)
  | cancelled | actorCancelled => exact cargo_drop l _
  | closed => exact cargo_of_map (getElem?_closed_actors l _ k)
  | harvested hop =>
    refine (cargo_of_insert rfl fun hi => absurd (moves_of_flow hop) ?_).trans (cargo_settled l _)
    rwa [hi]
  | moved hop =>
    refine cargo_of_insert rfl fun hi => absurd (moves_of_flow hop) ?_
    rwa [hi]
  | dropped => exact (cargo_of_insert rfl fun hi => absurd hi hk).trans (cargo_drop l _)

/-! ### Calls of the raider -/

/-- What a flow with its receipt does to the ledger, seen from the cargo of the one it is for. -/
structure FlowSpec (l l' : Ledger) (k : ℕ) (r : Result) (delta : ℕ → ℕ → ℕ → Prop) : Prop where
  inv : l'.Inv
  others : ∀ i, i ≠ k → cargoOf l' i = cargoOf l i
  fresh : (r.success && !r.duplicate) = true → 0 < r.portions ∧ delta (cargoOf l k) r.portions (cargoOf l' k)
  stale : (r.success && !r.duplicate) = false → cargoOf l' k = cargoOf l k

theorem fresh_iff : (r.success && !r.duplicate) = true ↔ r.Fresh := by
  simp [Result.Fresh]

/-- A flow at a depot. -/
theorem flow_spec (op : Op) (h : l.Inv) {f : Flow} {delta : ℕ → ℕ → ℕ → Prop} (hflow : op.flow? = some f)
    (hfield : f.kind ≠ .fieldHarvest) (hpolls : op.polls? = none) (hk : ∀ i, Moves i op ↔ f.actor = i)
    (hstep : step l op = some (.result r, l'))
    (hdelta : ∀ (a : Actor) (n : ℕ), (f.kind = .delivery → n ≤ a.cargo) →
      delta a.cargo n (a.after f.kind n).cargo) : FlowSpec l l' f.actor r delta := by
  have he := effect_of_step h hstep
  refine ⟨step_inv h hstep, fun i hi => cargo_of_effect he fun hm => hi ((hk i).mp hm).symm, ?_, ?_⟩
  · intro hr
    cases he with
    | kept ho =>
      refine absurd ?_ ho
      cases op <;> exact fresh_iff.mp hr
    | extracted => simp [Op.flow?] at hflow
    | harvested hop hkind =>
      rw [hop, Option.some.injEq] at hflow
      exact absurd (hflow ▸ hkind) hfield
    | @moved _ f' a d n hop _ ha _ _ _ hpos hput =>
      rw [hop, Option.some.injEq] at hflow
      subst hflow
      refine ⟨hpos, ?_⟩
      have hself : (l.moved f' a d n).actors[f'.actor]? = some (a.flowed f' n) :=
        ExtTreeMap.getElem?_insert_self
      rw [cargo_of_some hself, a.flowed_cargo, cargo_of_some ha]
      exact hdelta a n fun hd => (hput hd).1
  · intro hr
    have hsame := unchanged_of_not_fresh h hstep (by rw [← fresh_iff, hr]; exact Bool.false_ne_true)
    rw [polledFor_eq h op, Ledger.rest, hpolls, Option.some.injEq] at hsame
    rw [← hsame]

variable {spawn serial : UInt64} {depot amount : UInt32}

theorem step_of_result {x : Option (Result × Ledger)} (hx : step l op = x.map (Prod.map .result id))
    (h : x = some (r, l')) : step l op = some (.result r, l') := by
  rw [hx, h]
  rfl

theorem steal_spec (h : l.Inv)
    (hstep : l.steal spawn.toNat serial.toNat depot.toNat amount.toNat true = some (r, l')) :
    FlowSpec l l' spawn.toNat r fun cargo n cargo' => cargo' = cargo + n :=
  flow_spec (Op.steal spawn serial depot amount true) h rfl (by simp) rfl (fun _ => Iff.rfl)
    (step_of_result rfl hstep) fun _ _ _ => rfl

theorem deliver_spec (h : l.Inv)
    (hstep : l.deliver spawn.toNat serial.toNat depot.toNat amount.toNat true = some (r, l')) :
    FlowSpec l l' spawn.toNat r fun cargo n cargo' => n ≤ cargo ∧ cargo' ≤ cargo :=
  flow_spec (Op.deliver spawn serial depot amount true) h rfl (by simp) rfl (fun _ => Iff.rfl)
    (step_of_result rfl hstep) fun _ _ hle => ⟨hle rfl, Nat.sub_le _ _⟩

theorem eatDepot_spec (h : l.Inv)
    (hstep : l.eatDepot spawn.toNat serial.toNat depot.toNat amount.toNat true = some (r, l')) :
    FlowSpec l l' spawn.toNat r fun cargo _ cargo' => cargo' = cargo :=
  flow_spec (Op.eatDepot spawn serial depot amount true) h rfl (by simp) rfl (fun _ => Iff.rfl)
    (step_of_result rfl hstep) fun _ _ _ => rfl

theorem dropCargo_spec (h : l.Inv) {lost : ℕ} (hstep : l.dropCargo spawn.toNat = some (lost, l')) :
    l'.Inv ∧ (∀ i, i ≠ spawn.toNat → cargoOf l' i = cargoOf l i) ∧ cargoOf l' spawn.toNat = 0 := by
  have hop : step l (.dropCargo spawn) = some (.portions lost, l') := by
    rw [step, hstep]
    rfl
  have he := effect_of_step h hop
  refine ⟨step_inv h hop, fun i hi => cargo_of_effect he fun hm => hi hm.symm, ?_⟩
  cases ha : l.actors[spawn.toNat]? with
  | none =>
    rw [Ledger.dropCargo, ha, Option.some.injEq, Prod.mk.injEq] at hstep
    rw [← hstep.2, cargoOf, ha]
    rfl
  | some a =>
    obtain ⟨b, _, _, hdrop⟩ := dropCargo_registered h ha
    rw [hdrop, Option.some.injEq, Prod.mk.injEq] at hstep
    rw [← hstep.2, cargoOf, dropped, ExtTreeMap.getElem?_insert_self]
    rfl

theorem expire_spec (h : l.Inv) {nowMs : ℕ} (hstep : l.expire nowMs = some l') :
    l'.Inv ∧ ∀ i, cargoOf l' i = cargoOf l i := by
  rw [expire_eq h, Option.some.injEq] at hstep
  subst hstep
  exact ⟨h.settled nowMs, fun _ => cargo_settled l nowMs⟩

/-- Others' calls do not touch a raider's cargo. -/
theorem supply_spec (h : l.Inv) (hop : byRaider op = false) (hstep : step l op = some (o, l')) :
    l'.Inv ∧ ∀ spawn ∈ raiderSpawns, cargoOf l' spawn.toNat = cargoOf l spawn.toNat := by
  refine ⟨step_inv h hstep, fun spawn hs => cargo_of_effect (effect_of_step h hstep) fun hm => ?_⟩
  cases op <;> simp only [Moves] at hm
  all_goals
    rw [byRaider, UInt64.toNat_inj.mp hm, List.contains_iff_mem.mpr hs] at hop
    exact Bool.noConfusion hop

end AIWorld.Raid
