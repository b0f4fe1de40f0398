import AIWorld.LivingSupply.Conservation
import Mathlib.Algebra.Order.Ring.Nat

/-! How crops grow. The growth anchor of a field moves in three ways, and each of them pays for what grew with
as much time; a field that is full moves its anchor up to the time of the call and so loses the time that it
was full. Over a run the crops that grew are paid for by the time since the field was configured. -/

namespace AIWorld.LivingSupply

open Lib Ledger

variable {l l' : Ledger} {op : Op} {o : Outcome} {id n m t : ℕ} {f f' f'' : Field}

/-! ### One field -/

/-- What a field went through while some portions were taken from it: what grew took its time. -/
structure Field.Accrues (f f' : Field) (n : ℕ) : Prop where
  capacity : f'.capacity = f.capacity
  regrowMs : f'.regrowMs = f.regrowMs
  harvested : f'.harvestedTotal = f.harvestedTotal + n
  balance : f'.remaining + n + f.regrownTotal = f.remaining + f'.regrownTotal
  anchor_le : f.lastGrowthAtMs ≤ f'.lastGrowthAtMs
  rate : f'.regrownTotal * f.regrowMs + f.lastGrowthAtMs ≤ f.regrownTotal * f.regrowMs + f'.lastGrowthAtMs

theorem Field.Accrues.refl (f : Field) : f.Accrues f 0 := ⟨rfl, rfl, rfl, rfl, le_rfl, le_rfl⟩

theorem Field.Accrues.trans (h : f.Accrues f' n) (h' : f'.Accrues f'' m) : f.Accrues f'' (n + m) where
  capacity := h'.capacity.trans h.capacity
  regrowMs := h'.regrowMs.trans h.regrowMs
  harvested := by rw [h'.harvested, h.harvested, Nat.add_assoc]
  balance := by
    have hfirst := h.balance
    have hsecond := h'.balance
    omega
  anchor_le := h.anchor_le.trans h'.anchor_le
  rate := by
    have hfirst := h.rate
    have hsecond := h'.rate
    rw [h.regrowMs] at hsecond
    omega

/-- What grows at a call has taken its time since the anchor. -/
theorem growth_mul_le (f : Field) (t : ℕ) : f.growth t * f.regrowMs ≤ t - f.lastGrowthAtMs := by
  unfold Field.growth
  split_ifs with hback
  · rw [Nat.zero_mul]
    exact Nat.zero_le _
  · calc min ((t - f.lastGrowthAtMs) / f.regrowMs) (f.capacity - f.remaining) * f.regrowMs
        ≤ (t - f.lastGrowthAtMs) / f.regrowMs * f.regrowMs := Nat.mul_le_mul_right _ (min_le_left _ _)
      _ ≤ t - f.lastGrowthAtMs := Nat.div_mul_le_self _ _

/-- The anchor passes what grew, and never the time of the call. -/
theorem anchor_regrown (f : Field) (t : ℕ) :
    f.lastGrowthAtMs + f.growth t * f.regrowMs ≤ (f.regrown t).lastGrowthAtMs ∧
      (f.regrown t).lastGrowthAtMs ≤ max f.lastGrowthAtMs t := by
  have hpaid := growth_mul_le f t
  simp only [Field.regrown]
  split_ifs with hback hfull
  · rw [(regrown_eq_self hback).1]
    omega
  · omega
  · omega

theorem accrues_regrown (f : Field) (t : ℕ) : f.Accrues (f.regrown t) 0 where
  capacity := rfl
  regrowMs := rfl
  harvested := rfl
  balance := by
    rw [regrown_remaining, regrown_regrownTotal]
    omega
  anchor_le := (Nat.le_add_right _ _).trans (anchor_regrown f t).1
  rate := by
    have hanchor := (anchor_regrown f t).1
    rw [regrown_regrownTotal, Nat.add_mul]
    omega

/-- A full field does not grow, and its anchor comes up to the time of the call. -/
theorem regrown_full (hfull : f.remaining = f.capacity) (t : ℕ) :
    (f.regrown t).regrownTotal = f.regrownTotal ∧ t ≤ (f.regrown t).lastGrowthAtMs := by
  have hnone : f.growth t = 0 := by
    have hroom := growth_le f t
    omega
  refine ⟨by rw [regrown_regrownTotal, hnone, Nat.add_zero], ?_⟩
  simp only [Field.regrown, hnone, Nat.add_zero, hfull, if_true]
  split_ifs with hback
  · exact hback
  · exact le_rfl

def Field.harvest (f : Field) (n : ℕ) : Field :=
  { f with
    remaining := f.remaining - n
    harvestedTotal := f.harvestedTotal + n }

theorem accrues_harvest (h : n ≤ f.remaining) : f.Accrues (f.harvest n) n where
  capacity := rfl
  regrowMs := rfl
  harvested := rfl
  balance := by
    change f.remaining - n + n + f.regrownTotal = f.remaining + f.regrownTotal
    omega
  anchor_le := le_rfl
  rate := le_rfl

/-! ### One call -/

/-- A field after what a call does to all fields. -/
def Field.polled (f : Field) (op : Op) : Field :=
  match op.polls? with
  | some t => f.regrown t
  | none => f

/-- The portions of a field that a call took. -/
def cropsTaken (id : ℕ) (e : Event Ledger Op Outcome) : ℕ :=
  match e.input.flow?, e.output with
  | some f, .result r =>
    if f.kind = .fieldHarvest ∧ f.place = id ∧ r.success = true ∧ r.duplicate = false then r.portions else 0
  | _, _ => 0

theorem cropsTaken_eq_zero (ho : ¬ Effective op o) : cropsTaken id ⟨l, op, o, l'⟩ = 0 := by
  unfold cropsTaken
  split
  next flow r hflow hout =>
    refine if_neg fun hfresh => ho ?_
    simp only at hflow hout
    subst hout
    cases op <;> simp only [Op.flow?, reduceCtorEq] at hflow <;> exact hfresh.2.2
  next => rfl

theorem getElem?_settled_fields (l : Ledger) (t id : ℕ) :
    (l.settled t).fields[id]? = l.fields[id]?.map (·.regrown t) :=
  Std.ExtTreeMap.getElem?_map

theorem getElem?_rest_fields (l : Ledger) (op : Op) (id : ℕ) :
    (l.rest op).fields[id]? = l.fields[id]?.map (·.polled op) := by
  cases hpolls : op.polls? with
  | none => simp [rest, Field.polled, hpolls]
  | some t => simpa [rest, Field.polled, hpolls] using getElem?_settled_fields l t id

theorem fields_retired (l : Ledger) (source : ℕ) : (l.retired source).fields = l.fields := by
  unfold retired
  split <;> rfl

/-- Every call leaves a field as its poll does, less what it took. -/
theorem Effect.field (he : Effect l op o l') (hf : l.fields[id]? = some f) :
    cropsTaken id ⟨l, op, o, l'⟩ ≤ (f.polled op).remaining ∧
      l'.fields[id]? = some ((f.polled op).harvest (cropsTaken id ⟨l, op, o, l'⟩)) := by
  have hsame (hzero : cropsTaken id ⟨l, op, o, l'⟩ = 0) (hfields : l'.fields[id]? = some (f.polled op)) :
      cropsTaken id ⟨l, op, o, l'⟩ ≤ (f.polled op).remaining ∧
        l'.fields[id]? = some ((f.polled op).harvest (cropsTaken id ⟨l, op, o, l'⟩)) := by
    rw [hzero]
    exact ⟨Nat.zero_le _, hfields⟩
  have hsettled (nowMs : ℕ) : (l.settled nowMs).fields[id]? = some (f.regrown nowMs) := by
    rw [getElem?_settled_fields, hf, Option.map_some]
  cases he with
  | kept ho =>
    refine hsame (cropsTaken_eq_zero ho) ?_
    rw [getElem?_rest_fields, hf, Option.map_some]
  | depotAdded ho _ _ hpolls =>
    refine hsame (cropsTaken_eq_zero ho) ?_
    rw [Field.polled, hpolls]
    exact hf
  | layoutChosen => exact hsame rfl hf
  | @fieldAdded _ k _ _ _ _ ho _ hnew _ _ hfield =>
    have hne : k ≠ id := fun heq => by
      rw [heq, hf] at hnew
      contradiction
    have hpolls : op.polls? = none := by
      cases op <;> first | rfl | simp [Op.field?] at hfield
    refine hsame (cropsTaken_eq_zero ho) ?_
    rw [Field.polled, hpolls]
    exact (OrdMap.getElem?_insert_ne _ _ hne).trans hf
  | actorAdded ho _ _ hasks =>
    have hpolls : op.polls? = none := by
      cases op <;> first | rfl | simp [Op.Asks] at hasks
    refine hsame (cropsTaken_eq_zero ho) ?_
    rw [Field.polled, hpolls]
    exact hf
  | carcassAdded =>
    refine hsame rfl ?_
    change (l.retired _).fields[id]? = some f
    rw [fields_retired, hf]
  | claimRepeated | claimed | extracted => exact hsame rfl (hsettled _)
  | cancelled | actorCancelled | closed | dropped => exact hsame rfl hf
  | @harvested _ flow a field nowMs n hop hkind ha hfield _ _ _ hle _ hpolls =>
    have hpolled : f.polled op = f.regrown nowMs := by rw [Field.polled, hpolls]
    by_cases hplace : flow.place = id
    · subst hplace
      rw [hsettled, Option.some.injEq] at hfield
      subst hfield
      have htaken : cropsTaken flow.place ⟨l, op, .result (flowReceipt n),
          (l.settled nowMs).harvested flow a (f.regrown nowMs) n⟩ = n := by
        simp [cropsTaken, hop, hkind, flowReceipt]
      rw [htaken, hpolled]
      exact ⟨hle, Std.ExtTreeMap.getElem?_insert_self⟩
    · refine hsame (by simp [cropsTaken, hop, hplace]) ?_
      rw [hpolled]
      exact (OrdMap.getElem?_insert_ne _ _ hplace).trans (hsettled nowMs)
  | moved hop hkind =>
    have hpolls : op.polls? = none := by
      cases op <;> first | rfl | cases hop
      exact absurd rfl hkind
    refine hsame (by simp [cropsTaken, hop, hkind]) ?_
    rw [Field.polled, hpolls]
    exact hf

/-- A field appears only as it is configured. -/
theorem Effect.field_configured (he : Effect l op o l') (hnone : l.fields[id]? = none)
    (hf : l'.fields[id]? = some f) : op.field? = some f ∧ o = .flag true := by
  have hsame (h : l'.fields[id]? = none) : op.field? = some f ∧ o = .flag true := by
    rw [h] at hf
    contradiction
  have hsettled (nowMs : ℕ) : (l.settled nowMs).fields[id]? = none := by
    rw [getElem?_settled_fields, hnone, Option.map_none]
  cases he with
  | kept =>
    refine hsame ?_
    rw [getElem?_rest_fields, hnone, Option.map_none]
  | @fieldAdded _ k nowMs initial capacity regrowMs _ _ _ _ _ hfield =>
    by_cases heq : k = id
    · subst heq
      have hsome : (l.addField k nowMs initial capacity regrowMs).fields[k]? =
          some { id := k, depotId := k, remaining := initial, capacity, regrowMs, lastGrowthAtMs := nowMs } :=
        Std.ExtTreeMap.getElem?_insert_self
      rw [hsome] at hf
      exact ⟨hfield.trans hf, rfl⟩
    · exact hsame ((OrdMap.getElem?_insert_ne _ _ heq).trans hnone)
  | carcassAdded =>
    refine hsame ?_
    change (l.retired _).fields[id]? = none
    rw [fields_retired, hnone]
  | claimRepeated | claimed | extracted => exact hsame (hsettled _)
  | harvested _ _ _ hfield =>
    refine hsame ((OrdMap.getElem?_insert_ne _ _ fun heq => ?_).trans (hsettled _))
    rw [heq, hsettled] at hfield
    contradiction
  | _ => exact hsame hnone

theorem Op.field?_fresh (h : op.field? = some f) : f.regrownTotal = 0 ∧ f.harvestedTotal = 0 := by
  cases op <;> simp only [Op.field?, Option.some.injEq, reduceCtorEq] at h
  subst h
  exact ⟨rfl, rfl⟩

theorem accrues_polled (f : Field) (op : Op) : f.Accrues (f.polled op) 0 := by
  unfold Field.polled
  split
  · exact accrues_regrown f _
  · exact .refl f

theorem Effect.accrues (he : Effect l op o l') (hf : l.fields[id]? = some f) :
    ∃ f', l'.fields[id]? = some f' ∧ f.Accrues f' (cropsTaken id ⟨l, op, o, l'⟩) := by
  obtain ⟨hle, hf'⟩ := he.field hf
  have hpath := (accrues_polled f op).trans (accrues_harvest hle)
  rw [Nat.zero_add] at hpath
  exact ⟨_, hf', hpath⟩

/-! ### Runs -/

/-- No call observed a time later than this. -/
def Observed (tr : List (Event Ledger Op Outcome)) (T : ℕ) : Prop :=
  ∀ e ∈ tr, ∀ t, e.input.polls? = some t → t ≤ T

theorem Run.accrues {tr : List (Event Ledger Op Outcome)} (hrun : machine.Run l tr l') (h : l.Inv)
    (hf : l.fields[id]? = some f) : ∃ f', l'.fields[id]? = some f' ∧
      f.Accrues f' (tr.map (cropsTaken id)).sum ∧
      ∀ T, f.lastGrowthAtMs ≤ T → Observed tr T → f'.lastGrowthAtMs ≤ T := by
  induction hrun generalizing f with
  | nil => exact ⟨f, hf, .refl f, fun T hT _ => hT⟩
  | @cons l m l' op o tr hstep _ ih =>
    have he := effect_of_step h hstep
    obtain ⟨hle, hm⟩ := he.field hf
    obtain ⟨f', hf', hrest, hbound⟩ := ih (step_inv h hstep) hm
    have hfirst := (accrues_polled f op).trans (accrues_harvest hle)
    rw [Nat.zero_add] at hfirst
    refine ⟨f', hf', hfirst.trans hrest, fun T hT hobserved => ?_⟩
    obtain ⟨hnow, hlater⟩ := List.forall_mem_cons.mp hobserved
    refine hbound T ?_ hlater
    change (f.polled op).lastGrowthAtMs ≤ T
    unfold Field.polled
    split
    next t hpolls => exact (anchor_regrown f t).2.trans (max_le hT (hnow t hpolls))
    next => exact hT

/-- A field was configured by one call of the run. -/
theorem Run.configured {tr : List (Event Ledger Op Outcome)} (hrun : machine.Run l tr l') (h : l.Inv)
    (hnone : l.fields[id]? = none) (hf : l'.fields[id]? = some f) : ∃ tr₁ e tr₂ f₀, tr = tr₁ ++ e :: tr₂ ∧
      e.input.field? = some f₀ ∧ e.output = .flag true ∧ e.pre.fields[id]? = none ∧
      e.post.fields[id]? = some f₀ := by
  induction hrun with
  | nil =>
    rw [hnone] at hf
    contradiction
  | @cons l m l' op o tr hstep _ ih =>
    have he := effect_of_step h hstep
    cases hm : m.fields[id]? with
    | some f₀ =>
      obtain ⟨hfield, ho⟩ := he.field_configured hnone hm
      exact ⟨[], ⟨l, op, o, m⟩, tr, f₀, rfl, hfield, ho, hnone, hm⟩
    | none =>
      obtain ⟨tr₁, e, tr₂, f₀, rfl, hrest⟩ := ih (step_inv h hstep) hm hf
      exact ⟨_ :: tr₁, e, tr₂, f₀, rfl, hrest⟩

/-- A field some calls after it was configured: its books, and what the time since then paid for. -/
structure Grown (id : ℕ) (configured field : Field) (tr : List (Event Ledger Op Outcome)) : Prop where
  balance : field.remaining + field.harvestedTotal = configured.remaining + field.regrownTotal
  remaining_le : field.remaining ≤ field.capacity
  harvestedTotal : field.harvestedTotal = (tr.map (cropsTaken id)).sum
  anchor_le : configured.lastGrowthAtMs ≤ field.lastGrowthAtMs
  anchor_observed : ∀ T, configured.lastGrowthAtMs ≤ T → Observed tr T → field.lastGrowthAtMs ≤ T
  regrown_le : field.regrownTotal * field.regrowMs ≤ field.lastGrowthAtMs - configured.lastGrowthAtMs
  harvested_le : ∀ T, configured.lastGrowthAtMs ≤ T → Observed tr T →
    field.harvestedTotal ≤ configured.remaining + (T - configured.lastGrowthAtMs) / field.regrowMs

theorem Field.Accrues.grown {tr : List (Event Ledger Op Outcome)} {configured field : Field}
    (h : configured.Accrues field (tr.map (cropsTaken id)).sum) (hnone : configured.regrownTotal = 0)
    (hfresh : configured.harvestedTotal = 0) (hle : field.remaining ≤ field.capacity) (hpos : 0 < field.regrowMs)
    (hbound : ∀ T, configured.lastGrowthAtMs ≤ T → Observed tr T → field.lastGrowthAtMs ≤ T) :
    Grown id configured field tr := by
  have hharvested := h.harvested
  have hbalance := h.balance
  have hrate := h.rate
  rw [hnone, Nat.zero_mul, ← h.regrowMs, Nat.zero_add] at hrate
  have hregrown : field.regrownTotal * field.regrowMs ≤ field.lastGrowthAtMs - configured.lastGrowthAtMs := by omega
  refine ⟨by omega, hle, by omega, h.anchor_le, hbound, hregrown, fun T hT hobserved => ?_⟩
  have hlast := hbound T hT hobserved
  have hgrown : field.regrownTotal ≤ (T - configured.lastGrowthAtMs) / field.regrowMs :=
    (Nat.le_div_iff_mul_le hpos).mpr (hregrown.trans (Nat.sub_le_sub_right hlast _))
  omega

/-- What a call leaves of a field at the end of the run: its anchor stays or goes up, and the time up to a call
at which the field was full pays for nothing that grows later. -/
structure Kept (id : ℕ) (field : Field) (e : Event Ledger Op Outcome) (f f' : Field) : Prop where
  pre : e.pre.fields[id]? = some f
  post : e.post.fields[id]? = some f'
  anchor_le : f.lastGrowthAtMs ≤ f'.lastGrowthAtMs
  full : f.remaining = f.capacity → ∀ t, e.input.polls? = some t →
    field.regrownTotal * field.regrowMs + t ≤ f.regrownTotal * field.regrowMs + field.lastGrowthAtMs

theorem Run.kept {tr : List (Event Ledger Op Outcome)} (hrun : machine.Run l tr l') (h : l.Inv)
    (hf : l.fields[id]? = some f) (hf' : l'.fields[id]? = some f') :
    ∀ e ∈ tr, ∃ g g', Kept id f' e g g' := by
  intro e he
  obtain ⟨tr₁, tr₂, rfl, hpre, hstep, hpost⟩ := hrun.at_mem he
  obtain ⟨g, hg, hbefore, -⟩ := Run.accrues hpre h hf
  have hinv : e.pre.Inv := hpre.invariant machine_inv h
  obtain ⟨hle, hg'⟩ := (effect_of_step hinv hstep).field hg
  obtain ⟨f'', hf'', hafter, -⟩ := Run.accrues hpost (step_inv hinv hstep) hg'
  cases hf'.symm.trans hf''
  refine ⟨g, _, hg, hg', (accrues_polled g e.input).anchor_le, fun hfull t hpolls => ?_⟩
  have hrate := hafter.rate
  have hpolled : g.polled e.input = g.regrown t := by rw [Field.polled, hpolls]
  obtain ⟨hnone, hanchor⟩ := regrown_full hfull t
  rw [hafter.regrowMs]
  rw [hpolled] at hrate ⊢
  change f'.regrownTotal * (g.regrown t).regrowMs + (g.regrown t).lastGrowthAtMs ≤
    (g.regrown t).regrownTotal * (g.regrown t).regrowMs + f'.lastGrowthAtMs at hrate
  change f'.regrownTotal * (g.regrown t).regrowMs + t ≤ g.regrownTotal * (g.regrown t).regrowMs + f'.lastGrowthAtMs
  rw [hnone] at hrate
  omega

/-- A farmer harvests what there is and later what grew in two minutes, with a poll whose clock is behind. -/
def farm : List Op :=
  [.configureDepot 4 0 30 12 4, .configureField 4 1000 1 24 30000, .registerFarmer 7 4 4 2,
    .harvestField 7 1 4 2 1000 true, .expire 500, .deliver 7 2 4 1 true, .expire 121000,
    .harvestField 7 3 4 2 130000 true]

end AIWorld.LivingSupply
