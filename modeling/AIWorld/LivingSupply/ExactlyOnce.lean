import AIWorld.LivingSupply.Evolution

/-! Exactly-once flows. A claim token is committed at most once and an event
serial of an actor completes at most one flow over a whole run; a repeat of the
latest flow gets its receipt again, anything older is refused, and no repeat
moves food. -/

namespace AIWorld.LivingSupply

open Lib Ledger

def FreshCommit (t : Token) (e : Event Ledger Op Outcome) : Prop :=
  (∃ actor serial nowMs, e.input = .commit actor serial nowMs ∧ t = ⟨actor.toNat, serial.toNat⟩) ∧
    ∃ r, e.output = .result r ∧ r.Fresh

def FreshFlow (f : Flow) (r : Result) (e : Event Ledger Op Outcome) : Prop :=
  e.input.flow? = some f ∧ e.output = .result r ∧ r.Fresh

/-- The ledger after a call that only polls it. -/
def Ledger.polledFor (l : Ledger) (op : Op) : Option Ledger := op.polls?.elim (some l) l.expire

variable {l l' : Ledger} {op : Op} {o : Outcome} {id : ℕ} {a : Actor} {f : Flow} {r : Result}

theorem polledFor_eq (h : l.Inv) (op : Op) : l.polledFor op = some (l.rest op) := by
  unfold polledFor rest
  cases op.polls? with
  | none => rfl
  | some nowMs => exact expire_eq h nowMs

/-! ### Replays -/

theorem replayEvent_exact
    (ha : a.lastEvent = some ⟨f.serial, f.kind, f.place, f.requested, r⟩)
    (hs : a.lastEventSerial = f.serial) :
    replayEvent a f.serial f.kind f.place f.requested = some (replayed r) := by
  simp [replayEvent, ha, hs]

theorem replayEvent_stale (hs : f.serial ≤ a.lastEventSerial)
    (hne : ∀ e, a.lastEvent = some e → ¬ (e.serial = f.serial ∧ e.kind = f.kind ∧
      e.depotId = f.place ∧ e.requested = f.requested)) :
    replayEvent a f.serial f.kind f.place f.requested =
      some (rejected "STALE_OR_CHANGED_EVENT") := by
  unfold replayEvent
  rw [if_neg (Nat.not_lt.mpr hs)]
  split
  next e he => exact if_neg (hne e he)
  next => rfl

theorem flow_replay (h : l.Inv) (hop : op.flow? = some f) (ha : l.actors[f.actor]? = some a)
    (hr : replayEvent a f.serial f.kind f.place f.requested = some r) :
    step l op = some (.result r, l.rest op) := by
  cases op <;> simp only [Op.flow?, reduceCtorEq, Option.some.injEq] at hop
  all_goals
    subst hop
    simp only at ha hr
  case harvestField actor serial fieldId requested nowMs completed =>
    have hs : (l.settled nowMs.toNat).actors[actor.toNat]? =
        some (a.lapse fun c => c.expiresAtMs ≤ nowMs.toNat) := by
      rw [getElem?_settled_actors, ha]
      rfl
    have hr' : replayEvent (a.lapse fun c => c.expiresAtMs ≤ nowMs.toNat) serial.toNat
        .fieldHarvest fieldId.toNat requested.toNat = some r := hr
    simp only [step, harvestField, expire_eq h, Option.bind_eq_bind, Option.bind_some, hs, hr']
    rfl
  case steal => simp only [step, steal, ha, hr]; rfl
  case load => simp only [step, load, ha, hr]; rfl
  case deliver => simp only [step, deliver, ha, hr]; rfl
  case eatDepot => simp only [step, eatDepot, ha, hr]; rfl

theorem stale_flow (h : l.Inv) (hop : op.flow? = some f) (ha : l.actors[f.actor]? = some a)
    (hs : f.serial ≤ a.lastEventSerial)
    (hne : ∀ e, a.lastEvent = some e → ¬ (e.serial = f.serial ∧ e.kind = f.kind ∧
      e.depotId = f.place ∧ e.requested = f.requested)) :
    ∃ m, l.polledFor op = some m ∧
      step l op = some (.result (rejected "STALE_OR_CHANGED_EVENT"), m) :=
  ⟨_, polledFor_eq h op, flow_replay h hop ha (replayEvent_stale hs hne)⟩

/-- A receipt that is not fresh comes with no change. -/
theorem unchanged_of_not_fresh (h : l.Inv) (hstep : step l op = some (.result r, l'))
    (hr : ¬ r.Fresh) : l.polledFor op = some l' := by
  cases effect_of_step h hstep with
  | kept => exact polledFor_eq h op
  | extracted | harvested | moved => exact absurd ⟨rfl, rfl⟩ hr

/-! ### Fresh flows -/

/-- A fresh flow raises the actor's last serial to its own and leaves its receipt. -/
theorem Effect.freshFlow (he : Effect l op o l') (hf : FreshFlow f r ⟨l, op, o, l'⟩) :
    (∃ a, l.actors[f.actor]? = some a ∧ a.lastEventSerial < f.serial) ∧
      ∃ a', l'.actors[f.actor]? = some a' ∧ a'.lastEventSerial = f.serial ∧
        a'.lastEvent = some ⟨f.serial, f.kind, f.place, f.requested, r⟩ := by
  obtain ⟨hop, hout, hfresh⟩ := hf
  simp only at hop hout
  subst hout
  cases he with
  | kept ho =>
    refine absurd ?_ ho
    cases op <;> exact hfresh
  | extracted => simp [Op.flow?] at hop
  | @harvested _ f' a _ nowMs n hop' _ ha _ hserial =>
    rw [hop', Option.some.injEq] at hop
    subst hop
    rw [getElem?_settled_actors, Option.map_eq_some_iff] at ha
    obtain ⟨b, hb, rfl⟩ := ha
    exact ⟨⟨b, hb, hserial⟩, _, Std.ExtTreeMap.getElem?_insert_self, rfl, rfl⟩
  | @moved _ f' a _ n hop' _ ha _ hserial =>
    rw [hop', Option.some.injEq] at hop
    subst hop
    exact ⟨⟨a, ha, hserial⟩, _, Std.ExtTreeMap.getElem?_insert_self, rfl, rfl⟩

theorem freshFlow_once {tr : List (Event Ledger Op Outcome)} (hrun : machine.Run l tr l')
    (h : l.Inv) : tr.Pairwise fun e e' => ∀ f r f' r', FreshFlow f r e → FreshFlow f' r' e' →
      f.actor = f'.actor → f.serial ≠ f'.serial := by
  refine Machine.Run.pairwise machine_inv (Q := fun e s => ∀ f r, FreshFlow f r e →
    ∃ a, s.actors[f.actor]? = some a ∧ f.serial ≤ a.lastEventSerial) ?_ ?_ ?_ hrun h
  · intro e hpre hstep f r hf
    obtain ⟨-, a, ha, hs, -⟩ := (effect_of_step hpre hstep).freshFlow hf
    exact ⟨a, ha, hs.ge⟩
  · intro e s i p s' hs hq hstep f r hf
    obtain ⟨a, ha, hle⟩ := hq f r hf
    obtain ⟨a', ha', hev⟩ := (effect_of_step hs hstep).evolves ha
    exact ⟨a', ha', hle.trans hev.serial_le⟩
  · intro e e' hpre hstep hq f r f' r' hf hf' hactor
    obtain ⟨a, ha, hle⟩ := hq f r hf
    obtain ⟨⟨b, hb, hlt⟩, -⟩ := (effect_of_step hpre hstep).freshFlow hf'
    rw [← hactor, ha, Option.some.injEq] at hb
    subst hb
    omega

/-! ### Fresh commits -/

/-- A token that is no longer pending and never will be. -/
def Spent (t : Token) (s : Ledger) : Prop :=
  t.serial ≤ s.nextClaimSerial ∧
    ∀ a c, s.actors[t.actor]? = some a → a.pending = some c → c.id ≠ t

theorem Effect.spent {t : Token} (he : Effect l op o l') (ht : Spent t l) : Spent t l' := by
  refine ⟨ht.1.trans he.issued_le, fun a' c ha' hc hid => ?_⟩
  cases ha : l.actors[t.actor]? with
  | none =>
    rcases he.newcomer ha with hnone | ⟨r, -, -, -, -, rfl⟩
    · rw [hnone] at ha'
      contradiction
    · rw [Std.ExtTreeMap.getElem?_insert_self, Option.some.injEq] at ha'
      subst ha'
      cases r <;> contradiction
  | some a =>
    obtain ⟨b, hb, hev⟩ := he.evolves ha
    rw [ha', Option.some.injEq] at hb
    subst hb
    rcases hev.pending c hc with hp | hp
    · exact ht.2 a c ha hp hid
    · have := ht.1
      rw [hid] at hp
      omega

theorem Effect.freshCommit (h : l.Inv) {t : Token} (he : Effect l op o l')
    (hf : FreshCommit t ⟨l, op, o, l'⟩) :
    (∃ a c, l.actors[t.actor]? = some a ∧ a.pending = some c ∧ c.id = t) ∧ Spent t l' := by
  obtain ⟨⟨actor, serial, nowMs, hop, rfl⟩, r, hout, hfresh⟩ := hf
  simp only at hop hout
  subst hop hout
  cases he with
  | kept ho => exact absurd hfresh ho
  | harvested hop | moved hop => simp [Op.flow?] at hop
  | @extracted _ _ _ a x c ha hc hid =>
    rw [getElem?_settled_actors, Option.map_eq_some_iff] at ha
    obtain ⟨b, hb, rfl⟩ := ha
    have hbc := (lapse_pending.mp hc).1
    refine ⟨⟨b, c, hb, hbc, hid⟩, ?_, ?_⟩
    · exact hid ▸ ((h.actor _ b hb).pending c hbc).serial_le
    · intro a' c' ha' hc'
      rw [Ledger.extracted] at ha'
      simp only at ha'
      rw [Std.ExtTreeMap.getElem?_insert_self, Option.some.injEq] at ha'
      subst ha'
      contradiction

theorem freshCommit_once {tr : List (Event Ledger Op Outcome)} (hrun : machine.Run l tr l')
    (h : l.Inv) (t : Token) :
    tr.Pairwise fun e e' => ¬ (FreshCommit t e ∧ FreshCommit t e') := by
  refine Machine.Run.pairwise machine_inv (Q := fun e s => FreshCommit t e → Spent t s)
    ?_ ?_ ?_ hrun h
  · exact fun e hpre hstep hf => ((effect_of_step hpre hstep).freshCommit hpre hf).2
  · exact fun e s i p s' hs hq hstep hf => (effect_of_step hs hstep).spent (hq hf)
  · rintro e e' hpre hstep hq ⟨hf, hf'⟩
    obtain ⟨⟨a, c, ha, hc, hid⟩, -⟩ := (effect_of_step hpre hstep).freshCommit hpre hf'
    exact (hq hf).2 a c ha hc hid

/-! ### The latest flow -/

/-- An actor whose last completed flow is `f` with receipt `r`. -/
def Latest (f : Flow) (r : Result) (s : Ledger) : Prop :=
  ∃ a, s.actors[f.actor]? = some a ∧ a.lastEventSerial = f.serial ∧
    a.lastEvent = some ⟨f.serial, f.kind, f.place, f.requested, r⟩

theorem latest_of_quiet {tr : List (Event Ledger Op Outcome)} (hrun : machine.Run l tr l')
    (h : l.Inv) (hf : Latest f r l) (hq : ∀ e ∈ tr, Quiet e.input e.output f.actor) :
    Latest f r l' := by
  induction hrun with
  | nil => exact hf
  | cons hstep _ ih =>
    have he := effect_of_step h hstep
    obtain ⟨a, ha, hs, hlast⟩ := hf
    obtain ⟨a', ha', hev⟩ := he.evolves ha
    obtain ⟨hkeep, hkeep'⟩ := hev.keeps (hq _ List.mem_cons_self)
    exact ih (step_inv h hstep) ⟨a', ha', hkeep'.trans hs, hkeep.trans hlast⟩
      fun e he => hq e (List.mem_cons_of_mem _ he)

theorem latest_replay (h : l.Inv) (hf : Latest f r l) (hop : op.flow? = some f) :
    ∃ m, l.polledFor op = some m ∧ step l op = some (.result (replayed r), m) := by
  obtain ⟨a, ha, hs, hlast⟩ := hf
  exact ⟨_, polledFor_eq h op, flow_replay h hop ha (replayEvent_exact hlast hs)⟩

/-! ### After cargo was dropped -/

/-- Serial `n` of an actor is used up and no receipt for it is left. -/
def EventBarred (id n : ℕ) (s : Ledger) : Prop :=
  ∃ a, s.actors[id]? = some a ∧ n ≤ a.lastEventSerial ∧ ∀ e, a.lastEvent = some e → n < e.serial

theorem Effect.eventBarred {n : ℕ} (he : Effect l op o l') (hb : EventBarred id n l) :
    EventBarred id n l' := by
  obtain ⟨a, ha, hle, hlast⟩ := hb
  obtain ⟨a', ha', hev⟩ := he.evolves ha
  refine ⟨a', ha', hle.trans hev.serial_le, fun e hlast' => ?_⟩
  exact (hev.lastEvent e hlast').elim (hlast e) fun hlt => hle.trans_lt hlt.1

/-- Every serial an actor has used is barred once its cargo is dropped. -/
theorem eventBarred_of_drop {actor : UInt64} {n : ℕ} (h : l.Inv)
    (hstep : step l (.dropCargo actor) = some (o, l'))
    (ha : ∃ a, l.actors[actor.toNat]? = some a ∧ n ≤ a.lastEventSerial) :
    EventBarred actor.toNat n l' := by
  obtain ⟨a, ha, hle⟩ := ha
  obtain ⟨b, hb, -, hdrop⟩ := dropCargo_registered h ha
  simp only [step, hdrop, Option.map_some, Option.some.injEq, Prod.map_apply, Prod.mk.injEq] at hstep
  obtain ⟨-, rfl⟩ := hstep
  rw [getElem?_drop_actors, ha, Option.map_some, Option.some.injEq] at hb
  subst hb
  exact ⟨_, Std.ExtTreeMap.getElem?_insert_self, hle, by simp⟩

theorem barred_flow (h : l.Inv) (hop : op.flow? = some f) (hb : EventBarred f.actor f.serial l) :
    ∃ m, l.polledFor op = some m ∧
      step l op = some (.result (rejected "STALE_OR_CHANGED_EVENT"), m) := by
  obtain ⟨a, ha, hle, hlast⟩ := hb
  exact stale_flow h hop ha hle fun e he hsame => by
    have := hlast e he
    omega

/-- Claim serials up to `n` are used up for an actor and no receipt for them is left. -/
def TokenBarred (id n : ℕ) (s : Ledger) : Prop :=
  n ≤ s.nextClaimSerial ∧ ∀ a, s.actors[id]? = some a →
    (∀ c, a.pending = some c → n < c.id.serial) ∧
    ∀ t r, a.lastCommitted = some (t, r) → n < t.serial

theorem Effect.tokenBarred {n : ℕ} (he : Effect l op o l') (hb : TokenBarred id n l) :
    TokenBarred id n l' := by
  refine ⟨hb.1.trans he.issued_le, fun a' ha' => ?_⟩
  cases ha : l.actors[id]? with
  | none =>
    rcases he.newcomer ha with hnone | ⟨r, -, -, -, -, rfl⟩
    · rw [hnone] at ha'
      contradiction
    · rw [Std.ExtTreeMap.getElem?_insert_self, Option.some.injEq] at ha'
      subst ha'
      cases r <;> exact ⟨nofun, nofun⟩
  | some a =>
    obtain ⟨b, hb', hev⟩ := he.evolves ha
    rw [ha', Option.some.injEq] at hb'
    subst hb'
    obtain ⟨hpend, hlast⟩ := hb.2 a ha
    refine ⟨fun c hc => (hev.pending c hc).elim (hpend c) hb.1.trans_lt, fun t r ht => ?_⟩
    rcases hev.lastCommitted t r ht with h | ⟨c, hc, rfl⟩
    · exact hlast t r h
    · exact hpend c hc

theorem tokenBarred_of_drop {actor : UInt64} (h : l.Inv)
    (hstep : step l (.dropCargo actor) = some (o, l')) :
    TokenBarred actor.toNat l.nextClaimSerial l' := by
  cases ha : l.actors[actor.toNat]? with
  | none =>
    simp only [step, dropCargo, ha, Option.map_some, Option.some.injEq, Prod.map_apply,
      Prod.mk.injEq] at hstep
    obtain ⟨-, rfl⟩ := hstep
    exact ⟨le_rfl, by simp [ha]⟩
  | some a =>
    obtain ⟨b, hb, hnone, hdrop⟩ := dropCargo_registered h ha
    simp only [step, hdrop, Option.map_some, Option.some.injEq, Prod.map_apply,
      Prod.mk.injEq] at hstep
    obtain ⟨-, rfl⟩ := hstep
    refine ⟨le_rfl, fun a' ha' => ?_⟩
    simp only [id_eq, dropped] at ha'
    rw [Std.ExtTreeMap.getElem?_insert_self, Option.some.injEq] at ha'
    subst ha'
    exact ⟨by simp [hnone], by simp⟩

theorem barred_commit (h : l.Inv) {t : Token} {n : ℕ} (hb : TokenBarred t.actor n l)
    (ht : t.serial ≤ n) (nowMs : ℕ) :
    ∃ m, l.expire nowMs = some m ∧ l.commit t nowMs = some (rejected "UNKNOWN_CLAIM", m) := by
  refine ⟨_, expire_eq h nowMs, commit_unknown h (.inr fun a ha => ?_)⟩
  rw [getElem?_settled_actors, Option.map_eq_some_iff] at ha
  obtain ⟨b, hb', rfl⟩ := ha
  obtain ⟨hpend, hlast⟩ := hb.2 b hb'
  refine ⟨fun receipt hr => ?_, fun c hc hid => ?_⟩
  · have := hlast t receipt hr
    omega
  · have := hpend c (lapse_pending.mp hc).1
    rw [hid] at this
    omega

/-- A token that a call hands out has been issued. -/
theorem Effect.issued (h : l.Inv) {t : Token} (he : Effect l op (.token (some t)) l') :
    t.serial ≤ l'.nextClaimSerial := by
  cases he with
  | kept ho =>
    refine absurd ?_ ho
    cases op <;> rfl
  | claimRepeated ha hc => exact (((h.settled _).actor _ _ ha).pending _ hc).serial_le
  | claimed _ _ _ _ _ _ hid =>
    rw [hid]
    exact le_rfl

/-- A state property kept by every effect holds at the end of a run. -/
theorem run_keeps {P : Ledger → Prop}
    (hP : ∀ l op o l', l.Inv → Effect l op o l' → P l → P l')
    {tr : List (Event Ledger Op Outcome)} (hrun : machine.Run l tr l') (h : l.Inv) (hp : P l) :
    P l' :=
  (hrun.invariant (P := fun s => s.Inv ∧ P s)
    (fun _ _ _ _ hs hstep => ⟨step_inv hs.1 hstep, hP _ _ _ _ hs.1 (effect_of_step hs.1 hstep) hs.2⟩)
    ⟨h, hp⟩).2

/-- The serial of a flow that a run completed is used in its last state. -/
theorem used_before {tr : List (Event Ledger Op Outcome)} (hrun : machine.Run {} tr l)
    {e : Event Ledger Op Outcome} (he : e ∈ tr) (hf : FreshFlow f r e) :
    ∃ a, l.actors[f.actor]? = some a ∧ f.serial ≤ a.lastEventSerial := by
  obtain ⟨_, _, -, hpre, hstep, hpost⟩ := hrun.at_mem he
  have hi := hpre.invariant machine_inv inv_empty
  obtain ⟨-, a, ha, hs, -⟩ := (effect_of_step hi hstep).freshFlow hf
  refine run_keeps (P := fun s => ∃ a, s.actors[f.actor]? = some a ∧ f.serial ≤ a.lastEventSerial)
    ?_ hpost (step_inv hi hstep) ⟨a, ha, hs.ge⟩
  rintro l op o l' - he ⟨a, ha, hle⟩
  obtain ⟨a', ha', hev⟩ := he.evolves ha
  exact ⟨a', ha', hle.trans hev.serial_le⟩

/-- The serial of a token that a run handed out is issued in its last state. -/
theorem issued_before {tr : List (Event Ledger Op Outcome)} (hrun : machine.Run {} tr l)
    {e : Event Ledger Op Outcome} (he : e ∈ tr) {t : Token} (ht : e.output = .token (some t)) :
    t.serial ≤ l.nextClaimSerial := by
  obtain ⟨_, _, -, hpre, hstep, hpost⟩ := hrun.at_mem he
  have hi := hpre.invariant machine_inv inv_empty
  have he := effect_of_step hi hstep
  rw [ht] at he
  exact run_keeps (P := fun s => t.serial ≤ s.nextClaimSerial)
    (fun _ _ _ _ _ he hle => hle.trans he.issued_le) hpost (step_inv hi hstep) (he.issued hi)

/-- Exactly-once flows, for every run of an empty ledger. -/
theorem exactly_once_flows {tr : List (Event Ledger Op Outcome)} (hrun : machine.Run {} tr l) :
    (∀ t, tr.Pairwise fun e e' => ¬ (FreshCommit t e ∧ FreshCommit t e')) ∧
    (tr.Pairwise fun e e' => ∀ f r f' r', FreshFlow f r e → FreshFlow f' r' e' →
      f.actor = f'.actor → f.serial ≠ f'.serial) ∧
    (∀ tr₁ e tr₂ f r op, tr = tr₁ ++ e :: tr₂ → FreshFlow f r e →
      (∀ e' ∈ tr₂, Quiet e'.input e'.output f.actor) → op.flow? = some f →
      ∃ m, l.polledFor op = some m ∧ step l op = some (.result (replayed r), m)) ∧
    (∀ op f a, op.flow? = some f → l.actors[f.actor]? = some a → f.serial ≤ a.lastEventSerial →
      (∀ e, a.lastEvent = some e → ¬ (e.serial = f.serial ∧ e.kind = f.kind ∧
        e.depotId = f.place ∧ e.requested = f.requested)) →
      ∃ m, l.polledFor op = some m ∧
        step l op = some (.result (rejected "STALE_OR_CHANGED_EVENT"), m)) ∧
    (∀ tr₁ e tr₂ actor, tr = tr₁ ++ e :: tr₂ → e.input = .dropCargo actor →
      (∀ e₀ ∈ tr₁, ∀ f₀ r₀ op f, FreshFlow f₀ r₀ e₀ → f₀.actor = actor.toNat →
        op.flow? = some f → f.actor = f₀.actor → f.serial = f₀.serial →
        ∃ m, l.polledFor op = some m ∧
          step l op = some (.result (rejected "STALE_OR_CHANGED_EVENT"), m)) ∧
      ∀ e₀ ∈ tr₁, ∀ t nowMs, e₀.output = .token (some t) → t.actor = actor.toNat →
        ∃ m, l.expire nowMs = some m ∧ l.commit t nowMs = some (rejected "UNKNOWN_CLAIM", m)) ∧
    (∀ op r l', step l op = some (.result r, l') → ¬ r.Fresh → l.polledFor op = some l') := by
  have h : l.Inv := hrun.invariant machine_inv inv_empty
  refine ⟨freshCommit_once hrun inv_empty, freshFlow_once hrun inv_empty, ?_, ?_, ?_, ?_⟩
  · rintro tr₁ e tr₂ f r op rfl hf hq hop
    obtain ⟨hpre, hstep, hpost⟩ := hrun.split_cons
    have hi := hpre.invariant machine_inv inv_empty
    have he := effect_of_step hi hstep
    exact latest_replay h (latest_of_quiet hpost (he.inv hi) (he.freshFlow hf).2 hq) hop
  · exact fun op f a hop ha hs hne => stale_flow h hop ha hs hne
  · rintro tr₁ e tr₂ actor rfl hdrop
    obtain ⟨hpre, hstep, hpost⟩ := hrun.split_cons
    have hi := hpre.invariant machine_inv inv_empty
    have hstep' : step e.pre (.dropCargo actor) = some (e.output, e.post) := hdrop ▸ hstep
    refine ⟨fun e₀ he₀ f₀ r₀ op f hf hactor hop hsame hserial => ?_, fun e₀ he₀ t nowMs ht hactor => ?_⟩
    · have hbarred := eventBarred_of_drop hi hstep' (hactor ▸ used_before hpre he₀ hf)
      refine barred_flow h hop ?_
      rw [hsame, hactor, hserial]
      exact run_keeps (P := EventBarred _ _) (fun _ _ _ _ _ he => he.eventBarred) hpost (step_inv hi hstep) hbarred
    · have hbarred := tokenBarred_of_drop hi hstep'
      refine barred_commit h ?_ (issued_before hpre he₀ ht) nowMs
      rw [hactor]
      exact run_keeps (P := TokenBarred _ _) (fun _ _ _ _ _ he => he.tokenBarred) hpost (step_inv hi hstep) hbarred
  · exact fun op r l' hstep hr => unchanged_of_not_fresh h hstep hr

theorem exactly_once_flows_smallWorld : ∃ tr l, machine.Run {} tr l ∧ l.nextClaimSerial = 1 ∧
    ∀ t, tr.Pairwise fun e e' => ¬ (FreshCommit t e ∧ FreshCommit t e') := by
  obtain ⟨tr, l, hrun, hserial⟩ := smallWorld_run
  exact ⟨tr, l, hrun, hserial, (exactly_once_flows hrun).1⟩

end AIWorld.LivingSupply
