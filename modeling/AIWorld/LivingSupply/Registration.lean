import AIWorld.LivingSupply.Evolution

/-! Registration and what it fixes. The flags of every actor's record are those of
one role that the ledger has room for, no later call changes them, and a second
registration is answered by comparing roles. -/

namespace AIWorld.LivingSupply

open Std Lib Ledger

/-- The flags are those of one role. -/
def Actor.Regular (a : Actor) : Prop := a.asNew = a.role.actor

section Regular
variable {a : Actor} (h : a.Regular)
include h

theorem Actor.Regular.hunter_iff {depotId capacity : ℕ} :
    a.role = .hunter depotId capacity ↔ a.depotId = depotId ∧ a.capacity = capacity ∧
      a.predator = false ∧ a.consumer = false ∧ a.raidSourceDepotId = 0 ∧ a.fieldId = 0 ∧
      a.carrier = false := by
  constructor
  · intro hr
    rw [Actor.Regular, hr] at h
    simp only [asNew, Role.actor, Actor.mk.injEq] at h
    simp_all
  · rintro ⟨rfl, rfl, hp, hc, hraid, hf, hcar⟩
    simp [Actor.role, hp, hc, hraid, hf, hcar]

theorem Actor.Regular.predator_iff {depotId capacity : ℕ} :
    a.role = .predator depotId capacity ↔ a.depotId = depotId ∧ a.capacity = capacity ∧
      a.predator = true ∧ a.consumer = false ∧ a.raidSourceDepotId = 0 ∧ a.fieldId = 0 ∧
      a.carrier = false := by
  constructor
  · intro hr
    rw [Actor.Regular, hr] at h
    simp only [asNew, Role.actor, Actor.mk.injEq] at h
    simp_all
  · rintro ⟨rfl, rfl, hp, -⟩
    simp [Actor.role, hp]

theorem Actor.Regular.consumer_iff {depotId capacity : ℕ} :
    a.role = .consumer depotId capacity ↔ a.depotId = depotId ∧ a.capacity = capacity ∧
      a.predator = false ∧ a.consumer = true ∧ a.raidSourceDepotId = 0 ∧ a.fieldId = 0 ∧
      a.carrier = false := by
  constructor
  · intro hr
    rw [Actor.Regular, hr] at h
    simp only [asNew, Role.actor, Actor.mk.injEq] at h
    simp_all
  · rintro ⟨rfl, rfl, hp, hc, -⟩
    simp [Actor.role, hp, hc]

theorem Actor.Regular.farmer_iff {depotId fieldId capacity : ℕ} (hne : fieldId ≠ 0) :
    a.role = .farmer depotId fieldId capacity ↔ a.depotId = depotId ∧ a.capacity = capacity ∧
      a.fieldId = fieldId ∧ a.raidSourceDepotId = 0 ∧ a.predator = false ∧ a.consumer = false ∧
      a.carrier = false := by
  constructor
  · intro hr
    rw [Actor.Regular, hr] at h
    simp only [asNew, Role.actor, Actor.mk.injEq] at h
    simp_all
  · rintro ⟨rfl, rfl, rfl, hraid, hp, hc, hcar⟩
    simp [Actor.role, hp, hc, hraid, hne, hcar]

theorem Actor.Regular.raider_iff {depotId source capacity : ℕ} {all : Bool} (hne : source ≠ 0) :
    a.role = .raider depotId source capacity all ↔ a.depotId = depotId ∧ a.capacity = capacity ∧
      a.raidSourceDepotId = source ∧ a.predator = false ∧ a.consumer = false ∧ a.fieldId = 0 ∧
      a.allVillageRaidSources = all ∧ a.carrier = false := by
  constructor
  · intro hr
    rw [Actor.Regular, hr] at h
    simp only [asNew, Role.actor, Actor.mk.injEq] at h
    simp_all
  · rintro ⟨rfl, rfl, rfl, hp, hc, -, rfl, hcar⟩
    simp [Actor.role, hp, hc, hne, hcar]

theorem Actor.Regular.carrier_iff {depotId capacity : ℕ} :
    a.role = .carrier depotId capacity ↔ a.carrier = true ∧ a.depotId = depotId ∧
      a.capacity = capacity ∧ a.predator = false ∧ a.consumer = false ∧
      a.raidSourceDepotId = 0 ∧ a.fieldId = 0 := by
  constructor
  · intro hr
    rw [Actor.Regular, hr] at h
    simp only [asNew, Role.actor, Actor.mk.injEq] at h
    simp_all
  · rintro ⟨hcar, rfl, rfl, hp, hc, -⟩
    simp [Actor.role, hp, hc, hcar]

end Regular

variable {l l' : Ledger} {op : Op} {o : Outcome} {id : ℕ} {a : Actor} {r : Role} {f : Flow}

theorem regular_actor (hr : l.Enrols r) (hzero : l.fields[0]? = none) : r.actor.role = r := by
  cases hr with
  | @farmer fieldId _ _ hfield =>
    have hne : fieldId ≠ 0 := by
      rintro rfl
      rw [getField, hzero] at hfield
      contradiction
    simp [Role.actor, Actor.role, hne]
  | _ => simp [Role.actor, Actor.role]

/-! ### What the ledger has room for -/

/-- Depots and fields are there to stay, and so is the layout once there are actors. -/
structure Grows (l l' : Ledger) : Prop where
  depot : ∀ id, (l.getDepot id).isSome → (l'.getDepot id).isSome
  field : ∀ (id : ℕ) (f : Field), l.getField id = some f →
    ∃ f', l'.getField id = some f' ∧ f'.depotId = f.depotId
  layout : l.actors.isEmpty = false → l'.residentsV11 = l.residentsV11

theorem Grows.refl (l : Ledger) : Grows l l := ⟨fun _ h => h, fun _ f h => ⟨f, h, rfl⟩, fun _ => rfl⟩

theorem Grows.congr {m : Ledger} (hg : Grows l m) (hd : l'.depots = m.depots)
    (hf : l'.fields = m.fields) (hv : l'.residentsV11 = m.residentsV11) : Grows l l' where
  depot id h := by rw [getDepot, hd]; exact hg.depot id h
  field id f h := by rw [getField, hf]; exact hg.field id f h
  layout h := hv.trans (hg.layout h)

theorem grows_settled (l : Ledger) (nowMs : ℕ) : Grows l (l.settled nowMs) where
  depot _ h := h
  field id f h := by
    refine ⟨f.regrown nowMs, ?_, by unfold Field.regrown; split_ifs <;> rfl⟩
    have : (l.settled nowMs).fields[id]? = (l.fields[id]?).map (Field.regrown nowMs) :=
      ExtTreeMap.getElem?_map
    rw [getField, this, show l.fields[id]? = some f from h, Option.map_some]
  layout _ := rfl

theorem Effect.grows (he : Effect l op o l') : Grows l l' := by
  have hdepots {id : ℕ} {d : Depot} (k : ℕ) (h : (l.getDepot k).isSome) :
      (l.depots.insert id d)[k]?.isSome := by
    rw [OrdMap.getElem?_insert]
    split_ifs
    · rfl
    · exact h
  cases he with
  | kept =>
    unfold rest
    split
    · exact grows_settled l _
    · exact Grows.refl l
  | depotAdded => exact ⟨hdepots, fun _ f h => ⟨f, h, rfl⟩, fun _ => rfl⟩
  | layoutChosen hactors => exact ⟨fun _ h => h, fun _ f h => ⟨f, h, rfl⟩, by simp [hactors]⟩
  | @fieldAdded _ k _ _ _ _ _ _ hnew =>
    refine ⟨fun _ h => h, fun id f h => ⟨f, ?_, rfl⟩, fun _ => rfl⟩
    have hne : k ≠ id := by
      rintro rfl
      rw [getField, hnew] at h
      contradiction
    exact (OrdMap.getElem?_insert_ne _ _ hne).trans h
  | actorAdded | cancelled | actorCancelled | closed | dropped => exact (Grows.refl l).congr rfl rfl rfl
  | carcassAdded =>
    unfold addCarcass retired
    split <;> exact (Grows.refl l).congr rfl rfl rfl
  | @claimRepeated _ _ _ nowMs => exact grows_settled l nowMs.toNat
  | @claimed _ _ _ nowMs | @extracted _ _ nowMs =>
    exact (grows_settled l nowMs.toNat).congr rfl rfl rfl
  | @harvested _ f _ field nowMs n _ _ _ hfield =>
    have hg := grows_settled l nowMs
    refine ⟨hg.depot, fun id g h => ?_, hg.layout⟩
    obtain ⟨g', hg', hdep⟩ := hg.field id g h
    by_cases hk : f.place = id
    · subst hk
      rw [getField, hfield, Option.some.injEq] at hg'
      subst hg'
      exact ⟨_, ExtTreeMap.getElem?_insert_self, hdep⟩
    · exact ⟨g', (OrdMap.getElem?_insert_ne _ _ hk).trans hg', hdep⟩
  | moved => exact ⟨hdepots, fun _ f h => ⟨f, h, rfl⟩, fun _ => rfl⟩

theorem Grows.villageMissing (hg : Grows l l') (hv : l'.residentsV11 = l.residentsV11)
    (h : l.villageMissing = false) : l'.villageMissing = false := by
  unfold Ledger.villageMissing at h ⊢
  rw [hv]
  split at h <;>
    simp only [Bool.or_eq_false_iff, Option.isNone_eq_false_iff] at h ⊢ <;>
    simp only [if_pos, *, Bool.false_eq_true, if_false, Bool.or_eq_false_iff,
      Option.isNone_eq_false_iff] <;>
    exact ⟨⟨hg.depot _ h.1.1, hg.depot _ h.1.2⟩, hg.depot _ h.2⟩

theorem Ledger.Enrols.grows (hr : l.Enrols r) (hg : Grows l l')
    (hv : l'.residentsV11 = l.residentsV11) : l'.Enrols r := by
  cases hr with
  | hunter hdepot hpos hle => exact .hunter (hg.depot _ hdepot) hpos hle
  | predator => exact .predator
  | consumer hdepot => exact .consumer (hg.depot _ hdepot)
  | farmer hfield hdepot hpos hle =>
    obtain ⟨field', hfield', hsame⟩ := hg.field _ _ hfield
    rw [← hsame] at hdepot ⊢
    exact .farmer hfield' (hg.depot _ hdepot) hpos hle
  | raider hown hfirst hall =>
    have hhome : l.raiderHome = l'.raiderHome := by simp only [raiderHome, hv]
    rw [hhome] at hown ⊢
    refine .raider (hg.depot _ hown) (hg.depot _ hfirst) fun h => hall ⟨h.1, ?_⟩
    by_contra hm
    have := hg.villageMissing hv (Bool.eq_false_of_not_eq_true hm)
    rw [h.2] at this
    contradiction
  | carrier hown hfirst hall =>
    have hhome : l.carrierHome = l'.carrierHome := by simp only [carrierHome, hv]
    rw [hhome] at hown ⊢
    exact .carrier (hg.depot _ hown) (hg.depot _ hfirst) (hg.villageMissing hv hall)

/-! ### The cast -/

/-- Every actor's record is that of a role that the ledger has room for, and its
receipt is one that the role permits. -/
structure Cast (l : Ledger) : Prop where
  field_zero : l.fields[0]? = none
  actor_zero : l.actors[0]? = none
  regular : ∀ (id : ℕ) (a : Actor), l.actors[id]? = some a → a.Regular
  enrols : ∀ (id : ℕ) (a : Actor), l.actors[id]? = some a → l.Enrols a.role
  receipt : ∀ (id : ℕ) (a : Actor) (e : FlowEvent), l.actors[id]? = some a →
    a.lastEvent = some e → l.Permits a e.depotId e.kind

theorem cast_empty : Cast {} := by constructor <;> simp

theorem isEmpty_actors_eq_false (ha : l.actors[id]? = some a) : l.actors.isEmpty = false := by
  by_contra h
  rw [ExtTreeMap.isEmpty_iff.mp (Bool.eq_true_of_not_eq_false h)] at ha
  simp at ha

/-- What a record permits depends on the layout and on what registration fixed. -/
theorem Ledger.Permits.congr {a' : Actor} {place : ℕ} {kind : EventKind}
    (h : l.Permits a place kind) (ha : a'.asNew = a.asNew)
    (hv : l'.residentsV11 = l.residentsV11) : l'.Permits a' place kind := by
  simp only [Actor.asNew, Actor.mk.injEq] at ha
  cases kind <;>
    simpa only [Permits, raidVillage, outsideRoutes, carrierHome, hv, ha] using h

theorem Effect.field_zero (he : Effect l op o l') (h : l.fields[0]? = none) :
    l'.fields[0]? = none := by
  have hsettled (nowMs : ℕ) : (l.settled nowMs).fields[0]? = none := by
    have : (l.settled nowMs).fields[0]? = (l.fields[0]?).map (Field.regrown nowMs) :=
      ExtTreeMap.getElem?_map
    rw [this, h, Option.map_none]
  cases he with
  | kept =>
    unfold rest
    split
    · exact hsettled _
    · exact h
  | fieldAdded _ hid => exact (OrdMap.getElem?_insert_ne _ _ hid).trans h
  | harvested _ _ _ hfield =>
    refine (OrdMap.getElem?_insert_ne _ _ ?_).trans (hsettled _)
    intro hplace
    rw [hplace, hsettled] at hfield
    contradiction
  | claimRepeated | claimed | extracted => exact hsettled _
  | carcassAdded =>
    unfold addCarcass retired
    split <;> exact h
  | _ => exact h

theorem Effect.cast (he : Effect l op o l') (h : Cast l) : Cast l' := by
  have hregular (id : ℕ) (a' : Actor) (ha' : l'.actors[id]? = some a') :
      a'.Regular ∧ l'.Enrols a'.role ∧
        ∀ e, a'.lastEvent = some e → l'.Permits a' e.depotId e.kind := by
    cases ha : l.actors[id]? with
    | none =>
      rcases he.newcomer ha with hnone | ⟨r, -, -, hr, -, rfl⟩
      · rw [hnone] at ha'
        contradiction
      · rw [ExtTreeMap.getElem?_insert_self, Option.some.injEq] at ha'
        subst ha'
        have hrole := regular_actor hr h.field_zero
        refine ⟨by rw [Actor.Regular, hrole, Role.asNew_actor], ?_, fun e hlast => ?_⟩
        · rw [hrole]
          exact hr.grows he.grows rfl
        · cases r <;> contradiction
    | some a =>
      obtain ⟨b, hb, hev⟩ := he.evolves ha
      rw [ha', Option.some.injEq] at hb
      subst hb
      have hv := he.grows.layout (isEmpty_actors_eq_false ha)
      have hrole : a'.role = a.role := by rw [← a'.role_asNew, hev.asNew, a.role_asNew]
      refine ⟨?_, ?_, fun e hlast => ?_⟩
      · rw [Actor.Regular, hev.asNew, hrole]
        exact h.regular id a ha
      · rw [hrole]
        exact (h.enrols id a ha).grows he.grows hv
      · rcases hev.lastEvent e hlast with hold | ⟨-, hnew⟩
        · exact (h.receipt id a e ha hold).congr hev.asNew hv
        · exact hnew.congr hev.asNew hv
  refine ⟨he.field_zero h.field_zero, ?_, fun id a ha => (hregular id a ha).1,
    fun id a ha => (hregular id a ha).2.1, fun id a e ha => (hregular id a ha).2.2 e⟩
  rcases he.newcomer h.actor_zero with hnone | ⟨r, hne, -⟩
  · exact hnone
  · contradiction

theorem cast_run {tr : List (Event Ledger Op Outcome)} (hrun : machine.Run l tr l') (h : l.Inv)
    (hc : Cast l) : l'.Inv ∧ Cast l' :=
  hrun.invariant (P := fun s => s.Inv ∧ Cast s) (fun _ _ _ _ hs hstep =>
    ⟨step_inv hs.1 hstep, (effect_of_step hs.1 hstep).cast hs.2⟩) ⟨h, hc⟩

/-! ### Registering again -/

section Enrols

theorem enrols_hunter {depotId capacity : ℕ} : l.Enrols (.hunter depotId capacity) ↔
    (l.getDepot depotId).isSome ∧ 0 < capacity ∧ capacity ≤ hunterCargoCapacity :=
  ⟨fun | .hunter hdepot hpos hle => ⟨hdepot, hpos, hle⟩, fun ⟨hdepot, hpos, hle⟩ =>
    .hunter hdepot hpos hle⟩

theorem enrols_predator {depotId capacity : ℕ} : l.Enrols (.predator depotId capacity) ↔
    depotId = 0 ∧ capacity = 0 :=
  ⟨fun | .predator => ⟨rfl, rfl⟩, by rintro ⟨rfl, rfl⟩; exact .predator⟩

theorem enrols_consumer {depotId capacity : ℕ} : l.Enrols (.consumer depotId capacity) ↔
    (l.getDepot depotId).isSome ∧ capacity = 0 :=
  ⟨fun | .consumer hdepot => ⟨hdepot, rfl⟩, fun ⟨hdepot, hc⟩ => hc ▸ .consumer hdepot⟩

theorem enrols_farmer {depotId fieldId capacity : ℕ} :
    l.Enrols (.farmer depotId fieldId capacity) ↔ ∃ field, l.getField fieldId = some field ∧
      field.depotId = depotId ∧ (l.getDepot depotId).isSome ∧ 0 < capacity ∧
      capacity ≤ farmerCargoCapacity := by
  constructor
  · rintro (_ | _ | _ | ⟨hfield, hdepot, hpos, hle⟩)
    exact ⟨_, hfield, rfl, hdepot, hpos, hle⟩
  · rintro ⟨field, hfield, rfl, hdepot, hpos, hle⟩
    exact .farmer hfield hdepot hpos hle

theorem enrols_raider {depotId source capacity : ℕ} {all : Bool} :
    l.Enrols (.raider depotId source capacity all) ↔ depotId = l.raiderHome ∧ source = 1 ∧
      capacity = raiderCargoCapacity ∧ (l.getDepot depotId).isSome ∧ (l.getDepot 1).isSome ∧
      ¬ (all = true ∧ l.villageMissing = true) := by
  constructor
  · rintro (_ | _ | _ | _ | ⟨hown, hfirst, hall⟩)
    exact ⟨rfl, rfl, rfl, hown, hfirst, hall⟩
  · rintro ⟨rfl, rfl, rfl, hown, hfirst, hall⟩
    exact .raider hown hfirst hall

theorem enrols_carrier {depotId capacity : ℕ} : l.Enrols (.carrier depotId capacity) ↔
    depotId = l.carrierHome ∧ capacity = carrierCargoCapacity ∧ (l.getDepot depotId).isSome ∧
      (l.getDepot 1).isSome ∧ l.villageMissing = false := by
  constructor
  · rintro (_ | _ | _ | _ | _ | ⟨hown, hfirst, hall⟩)
    exact ⟨rfl, rfl, hown, hfirst, hall⟩
  · rintro ⟨rfl, rfl, hown, hfirst, hall⟩
    exact .carrier hown hfirst hall

end Enrols

/-- The call that registers an actor anew answers whether it asks for its role. -/
def Answers (l : Ledger) (op : Op) (id : ℕ) (r : Role) : Prop :=
  ∃ b, step l op = some (.flag b, l) ∧ (b = true ↔ op.Asks id r)

theorem registerActor_answers (h : Cast l) {actor : UInt64} (ha : l.actors[actor.toNat]? = some a)
    (depotId cargoCapacity : UInt32) (predator consumer : Bool) :
    Answers l (.registerActor actor depotId cargoCapacity predator consumer) actor.toNat a.role := by
  have hne : actor.toNat ≠ 0 := fun hz => by rw [hz, h.actor_zero] at ha; contradiction
  have hreg := h.regular _ a ha
  have hroom := h.enrols _ a ha
  cases predator <;> cases consumer <;>
    simp only [Answers, step, registerActor, ha, hne, Op.Asks, true_and, false_or, Bool.false_eq_true,
      false_and, and_false, and_self, if_true, if_false, true_or, or_true]
  · split
    next hbad =>
      refine ⟨false, rfl, by simp, fun hr => ?_⟩
      rw [hr, enrols_hunter, Option.isSome_iff_ne_none] at hroom
      rcases hbad with hnone | hcap
      · exact absurd hnone hroom.1
      · omega
    next => exact ⟨_, rfl, by rw [decide_eq_true_iff, hreg.hunter_iff]⟩
  · split
    next hbad =>
      refine ⟨false, rfl, by simp, fun hr => ?_⟩
      rw [hr, enrols_consumer, Option.isSome_iff_ne_none] at hroom
      rcases hbad with hnone | hcap
      · exact absurd hnone hroom.1
      · exact absurd hroom.2 hcap
    next => exact ⟨_, rfl, by rw [decide_eq_true_iff, hreg.consumer_iff]⟩
  · split
    next hbad =>
      refine ⟨false, rfl, by simp, fun hr => ?_⟩
      rw [hr, enrols_predator] at hroom
      omega
    next => exact ⟨_, rfl, by rw [decide_eq_true_iff, hreg.predator_iff]⟩
  · exact ⟨false, rfl, by simp⟩

theorem registerFarmer_answers (h : Cast l) {actor : UInt64} (ha : l.actors[actor.toNat]? = some a)
    (depotId fieldId cargoCapacity : UInt32) :
    Answers l (.registerFarmer actor depotId fieldId cargoCapacity) actor.toNat a.role := by
  have hne : actor.toNat ≠ 0 := fun hz => by rw [hz, h.actor_zero] at ha; contradiction
  have hroom := h.enrols _ a ha
  simp only [Answers, step, registerFarmer, ha, hne, Op.Asks, true_and, false_or]
  split
  next hfield =>
    refine ⟨false, rfl, by simp, fun hr => ?_⟩
    rw [hr, enrols_farmer] at hroom
    simp [hfield] at hroom
  next field hfield =>
    have hfne : fieldId.toNat ≠ 0 := by
      intro hz
      rw [getField, hz, h.field_zero] at hfield
      contradiction
    split
    next hbad =>
      refine ⟨false, rfl, by simp, fun hr => ?_⟩
      rw [hr, enrols_farmer] at hroom
      obtain ⟨field', hfield', hsame, hdepot, hpos, hle⟩ := hroom
      rw [hfield, Option.some.injEq] at hfield'
      subst hfield'
      rw [Option.isSome_iff_ne_none] at hdepot
      rcases hbad with hother | hnone | hcap
      · exact absurd hsame hother
      · exact absurd hnone hdepot
      · omega
    next => exact ⟨_, rfl, by rw [decide_eq_true_iff, (h.regular _ a ha).farmer_iff hfne]⟩

theorem registerRaider_answers (h : Cast l) {actor : UInt64} (ha : l.actors[actor.toNat]? = some a)
    (ownDepotId sourceDepotId cargoCapacity : UInt32) (all : Bool) :
    Answers l (.registerRaider actor ownDepotId sourceDepotId cargoCapacity all) actor.toNat
      a.role := by
  have hne : actor.toNat ≠ 0 := fun hz => by rw [hz, h.actor_zero] at ha; contradiction
  have hroom := h.enrols _ a ha
  simp only [Answers, step, registerRaider, ha, hne, Op.Asks, true_and, false_or]
  split
  next hbad =>
    refine ⟨false, rfl, by simp, fun hr => ?_⟩
    rw [hr, enrols_raider, Option.isSome_iff_ne_none, Option.isSome_iff_ne_none] at hroom
    obtain ⟨hown, hsource, hcap, hdown, hdsource, -⟩ := hroom
    rw [← hsource] at hdsource
    tauto
  next hgood =>
    simp only [not_or, not_not] at hgood
    split
    next hall =>
      refine ⟨false, rfl, by simp, fun hr => ?_⟩
      rw [hr, enrols_raider] at hroom
      exact absurd hall hroom.2.2.2.2.2
    next =>
      have hsource : sourceDepotId.toNat ≠ 0 := by omega
      exact ⟨_, rfl, by rw [decide_eq_true_iff, (h.regular _ a ha).raider_iff hsource]⟩

theorem registerCarrier_answers (h : Cast l) {actor : UInt64} (ha : l.actors[actor.toNat]? = some a)
    (ownDepotId cargoCapacity : UInt32) :
    Answers l (.registerCarrier actor ownDepotId cargoCapacity) actor.toNat a.role := by
  have hne : actor.toNat ≠ 0 := fun hz => by rw [hz, h.actor_zero] at ha; contradiction
  have hroom := h.enrols _ a ha
  simp only [Answers, step, registerCarrier, ha, hne, Op.Asks, true_and, false_or]
  split
  next hbad =>
    refine ⟨false, rfl, by simp, fun hr => ?_⟩
    rw [hr, enrols_carrier, Option.isSome_iff_ne_none, Option.isSome_iff_ne_none] at hroom
    obtain ⟨hown, hcap, hdown, hfirst, hall⟩ := hroom
    simp only [hown, hcap, hfirst, hall, ne_eq, not_true_eq_false, Bool.false_eq_true, false_or,
      or_false] at hbad
    exact absurd (hown ▸ hbad) hdown
  next => exact ⟨_, rfl, by rw [decide_eq_true_iff, (h.regular _ a ha).carrier_iff]⟩

/-- A registered actor's registration calls change nothing and succeed exactly
when they ask for its role. -/
theorem registration_answers (h : Cast l) (ha : l.actors[id]? = some a)
    (hop : op.registrant? = some id) : Answers l op id a.role := by
  cases op <;> simp only [Op.registrant?, reduceCtorEq, Option.some.injEq] at hop
  all_goals subst hop
  case registerActor => exact registerActor_answers h ha _ _ _ _
  case registerFarmer => exact registerFarmer_answers h ha _ _ _
  case registerRaider => exact registerRaider_answers h ha _ _ _ _
  case registerCarrier => exact registerCarrier_answers h ha _ _

end AIWorld.LivingSupply
