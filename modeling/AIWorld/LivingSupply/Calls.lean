import AIWorld.LivingSupply.Effect

/-! Every call has its effect. One lemma for each operation reads the source's
checks off its definition; `step_effect` collects them. -/

namespace AIWorld.LivingSupply

open Std Lib Ledger

variable {l : Ledger}

theorem not_effective_flag_false (op : Op) : ¬ Effective op (.flag false) := by
  cases op <;> simp [Effective]

theorem not_effective_rejected (op : Op) (reason : String) :
    ¬ Effective op (.result (rejected reason)) := by
  cases op <;> simp [Effective, rejected, Result.Fresh]

theorem not_effective_replayed (op : Op) (receipt : Result) :
    ¬ Effective op (.result (replayed receipt)) := by
  cases op <;> simp [Effective, replayed, Result.Fresh]

theorem not_effective_no_token (op : Op) : ¬ Effective op (.token none) := by
  cases op <;> simp [Effective]

/-! ### Registration -/

theorem configureDepot_effect (h : Inv l) (depotId initial capacity target low : UInt32) :
    ∃ o l', step l (.configureDepot depotId initial capacity target low) = some (o, l') ∧
      Effect l (.configureDepot depotId initial capacity target low) o l' := by
  simp only [step, configureDepot]
  split
  next => exact ⟨_, _, rfl, .kept (by simp [Effective])⟩
  next hbad =>
    split
    next d hd =>
      split
      next =>
        obtain ⟨n, hn, -⟩ := (h.depot _ d hd).balance
        exact ⟨_, _, by simp only [hn]; rfl, .kept (by simp [Effective])⟩
      next => exact ⟨_, _, rfl, .kept (by simp [Effective])⟩
    next hd =>
      split
      next => exact ⟨_, _, rfl, .kept (by simp [Effective])⟩
      next => exact ⟨_, _, rfl, .depotAdded (by simp [Effective]) hd (by omega) rfl⟩

theorem configureResidentsV11_effect (l : Ledger) :
    ∃ o l', step l .configureResidentsV11 = some (o, l') ∧
      Effect l .configureResidentsV11 o l' := by
  simp only [step, configureResidentsV11]
  split
  next => exact ⟨_, _, rfl, .kept (by simp [Effective])⟩
  next hbad =>
    simp only [not_or, not_not] at hbad
    split
    next => exact ⟨_, _, rfl, .kept (by simp [Effective])⟩
    next => exact ⟨_, _, rfl, .layoutChosen hbad.1 hbad.2.1⟩

theorem configureField_effect (h : Inv l) (fieldId : UInt32) (nowMs : UInt64)
    (initial capacity : UInt32) (regrowMs : UInt64) :
    ∃ o l', step l (.configureField fieldId nowMs initial capacity regrowMs) = some (o, l') ∧
      Effect l (.configureField fieldId nowMs initial capacity regrowMs) o l' := by
  simp only [step, configureField]
  split
  next => exact ⟨_, _, rfl, .kept (by simp [Effective])⟩
  next hbad =>
    split
    next f hf =>
      split
      next =>
        obtain ⟨n, hn⟩ := (h.field _ f hf).crops
        exact ⟨_, _, by simp only [hn]; rfl, .kept (by simp [Effective])⟩
      next => exact ⟨_, _, rfl, .kept (by simp [Effective])⟩
    next hf =>
      split
      next => exact ⟨_, _, rfl, .kept (by simp [Effective])⟩
      next =>
        simp only [fieldRegrowMs, not_or] at hbad
        refine ⟨_, _, rfl, .fieldAdded (by simp [Effective]) ?_ hf (by omega) (by omega) rfl⟩
        rintro hzero
        exact hbad.1 (by simp [outsideFields, hzero])

/-- The common end of the four registrations. -/
theorem register_effect {op : Op} {actor : ℕ} {r : Role} (ho : ∀ b, ¬ Effective op (.flag b))
    (hrest : l.rest op = l) (hactor : actor ≠ 0) (hasks : op.Asks actor r) (hr : l.Enrols r) (same : Actor → Bool) :
    ∃ o l', some (Prod.map Outcome.flag id (match l.actors[actor]? with
        | some current => (same current, l)
        | none => if 128 ≤ l.actors.size then (false, l)
          else (true, { l with actors := l.actors.insert actor r.actor }))) = some (o, l') ∧
      Effect l op o l' := by
  have hkept (b : Bool) : Effect l op (.flag b) l := by
    have := Effect.kept (l := l) (ho b)
    rwa [hrest] at this
  split
  next => exact ⟨_, _, rfl, hkept _⟩
  next hnew =>
    split
    next => exact ⟨_, _, rfl, hkept _⟩
    next => exact ⟨_, _, rfl, .actorAdded (ho _) hactor hnew hasks hr⟩

theorem isSome_of_ne {depotId : ℕ} (h : ¬ l.getDepot depotId = none) :
    (l.getDepot depotId).isSome :=
  Option.isSome_iff_ne_none.mpr h

theorem registerActor_effect (l : Ledger) (actor : UInt64) (depotId cargoCapacity : UInt32)
    (predator consumer : Bool) :
    ∃ o l', step l (.registerActor actor depotId cargoCapacity predator consumer) =
        some (o, l') ∧
      Effect l (.registerActor actor depotId cargoCapacity predator consumer) o l' := by
  have ho : ∀ b, ¬ Effective (.registerActor actor depotId cargoCapacity predator consumer)
      (.flag b) := by simp [Effective]
  cases predator <;> cases consumer <;>
    simp only [step, registerActor, Bool.false_eq_true, false_and, and_false, and_self, if_true,
      if_false, true_or, or_true, false_or]
  · split
    next => exact ⟨_, _, rfl, .kept (ho _)⟩
    next hbad =>
      simp only [not_or] at hbad
      exact register_effect (r := .hunter _ _) ho rfl hbad.1 ⟨rfl, rfl⟩
        (.hunter (isSome_of_ne hbad.2.1) (by omega) (by omega)) fun _ => decide _
  · split
    next => exact ⟨_, _, rfl, .kept (ho _)⟩
    next hbad =>
      simp only [not_or, not_not] at hbad
      refine register_effect (r := .consumer _ _) ho rfl hbad.1 ⟨rfl, rfl⟩ ?_ fun _ => decide _
      rw [hbad.2.2]
      exact .consumer (isSome_of_ne hbad.2.1)
  · split
    next => exact ⟨_, _, rfl, .kept (ho _)⟩
    next hbad =>
      simp only [not_or, not_not] at hbad
      refine register_effect (r := .predator _ _) ho rfl hbad.1 ⟨rfl, rfl⟩ ?_ fun _ => decide _
      rw [hbad.2.1, hbad.2.2]
      exact .predator
  · exact ⟨_, _, rfl, .kept (ho _)⟩

theorem registerFarmer_effect (l : Ledger) (actor : UInt64) (depotId fieldId cargoCapacity : UInt32) :
    ∃ o l', step l (.registerFarmer actor depotId fieldId cargoCapacity) = some (o, l') ∧
      Effect l (.registerFarmer actor depotId fieldId cargoCapacity) o l' := by
  have ho : ∀ b, ¬ Effective (.registerFarmer actor depotId fieldId cargoCapacity) (.flag b) := by
    simp [Effective]
  simp only [step, registerFarmer]
  split
  next => exact ⟨_, _, rfl, .kept (ho _)⟩
  next field hfield =>
    split
    next => exact ⟨_, _, rfl, .kept (ho _)⟩
    next hbad =>
      simp only [not_or, not_not] at hbad
      refine register_effect (r := .farmer _ _ _) ho rfl hbad.1 ⟨rfl, rfl⟩ ?_ fun _ => decide _
      have hdepot := isSome_of_ne hbad.2.2.1
      rw [← hbad.2.1] at hdepot ⊢
      exact .farmer hfield hdepot (by omega) (by omega)

theorem registerRaider_effect (l : Ledger) (actor : UInt64)
    (ownDepotId sourceDepotId cargoCapacity : UInt32) (allVillageSources : Bool) :
    ∃ o l', step l (.registerRaider actor ownDepotId sourceDepotId cargoCapacity
        allVillageSources) = some (o, l') ∧
      Effect l (.registerRaider actor ownDepotId sourceDepotId cargoCapacity
        allVillageSources) o l' := by
  have ho : ∀ b, ¬ Effective (.registerRaider actor ownDepotId sourceDepotId cargoCapacity
      allVillageSources) (.flag b) := by simp [Effective]
  simp only [step, registerRaider]
  split
  next => exact ⟨_, _, rfl, .kept (ho _)⟩
  next hbad =>
    split
    next => exact ⟨_, _, rfl, .kept (ho _)⟩
    next hall =>
      simp only [not_or, not_not] at hbad
      obtain ⟨hactor, hown, hsource, hcap, hdown, hdsource⟩ := hbad
      refine register_effect (r := .raider _ _ _ _) ho rfl hactor ⟨rfl, rfl⟩ ?_ fun _ => decide _
      have hdown := isSome_of_ne hdown
      have hdsource := isSome_of_ne hdsource
      rw [hown] at hdown ⊢
      rw [hsource] at hdsource ⊢
      rw [hcap]
      exact .raider hdown hdsource hall

theorem registerCarrier_effect (l : Ledger) (actor : UInt64) (ownDepotId cargoCapacity : UInt32) :
    ∃ o l', step l (.registerCarrier actor ownDepotId cargoCapacity) = some (o, l') ∧
      Effect l (.registerCarrier actor ownDepotId cargoCapacity) o l' := by
  have ho : ∀ b, ¬ Effective (.registerCarrier actor ownDepotId cargoCapacity) (.flag b) := by
    simp [Effective]
  simp only [step, registerCarrier]
  split
  next => exact ⟨_, _, rfl, .kept (ho _)⟩
  next hbad =>
    simp only [not_or, not_not, Bool.not_eq_true] at hbad
    obtain ⟨hactor, hown, hcap, hdown, hfirst, hall⟩ := hbad
    refine register_effect (r := .carrier _ _) ho rfl hactor ⟨rfl, rfl⟩ ?_ fun _ => decide _
    have hdown := isSome_of_ne hdown
    rw [hown] at hdown ⊢
    rw [hcap]
    exact .carrier hdown (isSome_of_ne hfirst) hall

/-! ### Carcasses and claims -/

theorem registerCarcass_effect (h : Inv l) (source life nowMs expiresAtMs : UInt64)
    (portions : UInt32) :
    ∃ o l', step l (.registerCarcass source life nowMs expiresAtMs portions) = some (o, l') ∧
      Effect l (.registerCarcass source life nowMs expiresAtMs portions) o l' := by
  have hkept : Effect l (.registerCarcass source life nowMs expiresAtMs portions) (.flag false) l :=
    .kept (by simp [Effective])
  simp only [step, registerCarcass]
  split
  next => exact ⟨_, _, rfl, hkept⟩
  next hbad =>
    split
    next c hc =>
      split
      next => exact ⟨_, _, rfl, hkept⟩
      next hlife =>
        refine ⟨_, _, by rw [closeCarcass_eq h]; rfl, ?_⟩
        have hret : l.retired source.toNat = l.closed c.key := by simp [retired, hc]
        have hadded := @Effect.carcassAdded l source life nowMs expiresAtMs portions (by
          intro c' hc'
          rw [hc, Option.some.injEq] at hc'
          exact hc' ▸ Nat.lt_of_not_le hlife)
        rw [hret] at hadded
        exact hadded
    next hnone =>
      split
      next => exact ⟨_, _, rfl, hkept⟩
      next =>
        refine ⟨_, _, rfl, ?_⟩
        have hret : l.retired source.toNat = l := by simp [retired, hnone]
        have hadded := @Effect.carcassAdded l source life nowMs expiresAtMs portions (by simp [hnone])
        rw [hret] at hadded
        exact hadded

theorem cancel_effect (h : Inv l) (actor serial : UInt64) :
    ∃ o l', step l (.cancel actor serial) = some (o, l') ∧ Effect l (.cancel actor serial) o l' := by
  obtain ⟨b, hb⟩ := cancel_eq h ⟨actor.toNat, serial.toNat⟩
  exact ⟨_, _, by simp only [step, hb]; rfl, .cancelled actor serial b⟩

theorem cancelActor_effect (h : Inv l) (actor : UInt64) :
    ∃ o l', step l (.cancelActor actor) = some (o, l') ∧ Effect l (.cancelActor actor) o l' := by
  obtain ⟨b, hb⟩ := cancelActor_eq h actor.toNat
  exact ⟨_, _, by simp only [step, hb]; rfl, .actorCancelled actor b⟩

theorem closeCarcass_effect (h : Inv l) (source life : UInt64) :
    ∃ o l', step l (.closeCarcass source life) = some (o, l') ∧
      Effect l (.closeCarcass source life) o l' :=
  ⟨_, _, by simp only [step, closeCarcass_eq h]; rfl, .closed source life⟩

theorem expire_effect (h : Inv l) (nowMs : UInt64) :
    ∃ o l', step l (.expire nowMs) = some (o, l') ∧ Effect l (.expire nowMs) o l' :=
  ⟨_, _, by simp only [step, expire_eq h]; rfl, .kept (by simp [Effective])⟩

theorem claimAmount_of_le {a : Actor} {x : Carcass} (hle : x.reserved ≤ x.remaining)
    (hcargo : a.cargo ≤ a.capacity) (requested : ℕ) :
    ∃ n, claimAmount a x requested = some n ∧ x.reserved + n ≤ x.remaining ∧
      (a.predator = false → a.cargo + n ≤ a.capacity) := by
  unfold claimAmount
  rw [usub_of_le hle, usub_of_le hcargo]
  simp only [Option.bind_eq_bind, Option.bind_some, Option.pure_def]
  split
  next hp => exact ⟨_, rfl, by omega, by simp [hp]⟩
  next => exact ⟨_, rfl, by omega, fun _ => by omega⟩

theorem overfull_of_room {a : Actor} {c : Claim}
    (h : c.kind = .harvest → a.cargo + c.amount ≤ a.capacity) : overfull a c = some false := by
  unfold overfull
  split
  next hk =>
    have := h hk
    rw [usub_of_le (by omega)]
    simp only [Option.bind_eq_bind, Option.bind_some, Option.pure_def, Option.some.injEq,
      decide_eq_false_iff_not]
    omega
  next => rfl

theorem reserve_effect (h : Inv l) (actor source life : UInt64) (kind : ClaimKind)
    (requested : UInt32) (nowMs claimTtlMs : UInt64) :
    ∃ o l', step l (.reserve actor source life kind requested nowMs claimTtlMs) = some (o, l') ∧
      Effect l (.reserve actor source life kind requested nowMs claimTtlMs) o l' := by
  have hkept : Effect l (.reserve actor source life kind requested nowMs claimTtlMs) (.token none)
      (l.settled nowMs.toNat) := .kept (by simp [Effective])
  have hs := h.settled nowMs.toNat
  simp only [step, reserve, expire_eq h, Option.bind_eq_bind, Option.bind_some, Option.pure_def]
  split
  next a x ha hf =>
    obtain ⟨hx, hkey⟩ := findCarcass_eq_some.mp hf
    split
    next => exact ⟨_, _, rfl, hkept⟩
    next hopen =>
      split
      next => exact ⟨_, _, rfl, hkept⟩
      next hallowed =>
        split
        next c hc =>
          split
          next hsame => exact ⟨_, _, rfl, .claimRepeated ha hc hsame.2.1⟩
          next => exact ⟨_, _, rfl, hkept⟩
        next hnone =>
          have hle := (hs.carcass _ x hx).reserved_le
          have hcargo := (hs.actor _ a ha).cargo_le
          simp only [not_or, not_not, ne_eq, Bool.not_eq_true, Bool.not_eq_false] at hopen hallowed
          obtain ⟨n, hn, hfree, hroom⟩ := claimAmount_of_le hle hcargo requested.toNat
          rw [hn, Option.bind_some]
          split
          next => exact ⟨_, _, rfl, hkept⟩
          next hsome =>
            have hnow : nowMs.toNat ≤ uint64Max := Nat.le_sub_one_of_lt nowMs.toNat_lt
            rw [usub_of_le hnow, Option.bind_some]
            have hkind := hallowed.2.2.2.2.1
            refine ⟨_, _, rfl, .claimed (c := ⟨_, ⟨source.toNat, life.toNat⟩, kind, _, n, _⟩)
              ha hnone hx hkey hopen.1 rfl rfl (Nat.pos_of_ne_zero fun e => hsome (.inl e)) hfree ?_ hkind
              ⟨hallowed.1, hallowed.2.1, hallowed.2.2.1, hallowed.2.2.2.1⟩ (min_le_right _ _)⟩
            rintro rfl
            exact hroom hkind
  next => exact ⟨_, _, rfl, hkept⟩

/-- A token that is still pending when its commit has polled the ledger is honoured. -/
theorem commit_pending (h : Inv l) {token : Token} {nowMs : ℕ} {a : Actor} {c : Claim}
    (ha : (l.settled nowMs).actors[token.actor]? = some a) (hc : a.pending = some c)
    (hid : c.id = token) :
    ∃ x, (l.settled nowMs).carcasses[c.key.source]? = some x ∧ x.key = c.key ∧ x.active = true ∧
      l.commit token nowMs = some (⟨true, false, c.amount, "COMMITTED"⟩,
        (l.settled nowMs).extracted token.actor a x c) := by
  have hs := h.settled nowMs
  have hok := (hs.actor _ a ha).pending c hc
  obtain ⟨x, hx, hkey, hact, -, hle⟩ := hs.pending_carcass ha hc
  have hdue := not_due (l.grow nowMs) nowMs _ a c ha hc
  have hrem := (hs.carcass _ x hx).reserved_le
  have hf : (l.settled nowMs).findCarcass c.key = some x := findCarcass_eq_some.mpr ⟨hx, hkey⟩
  have hserial : token.serial ≠ 0 := by
    have := hok.serial_pos
    rw [hid] at this
    omega
  have hlast : a.lastCommitted.filter (·.1 = token) = none := by
    cases hl : a.lastCommitted with
    | none => rfl
    | some p =>
      have hlt := hok.uncommitted p.1 p.2 hl
      have : p.1 ≠ token := fun e => absurd hlt (by rw [hid, e]; exact lt_irrefl _)
      simp [Option.filter, this]
  have hpend : a.pending.filter (·.id = token) = some c := by simp [hc, Option.filter, hid]
  refine ⟨x, hx, hkey, hact, ?_⟩
  simp only [commit, expire_eq h, Option.bind_eq_bind, Option.bind_some, ha, if_neg hserial, hlast,
    hpend, hf]
  rw [if_neg (by simp only [hact, Bool.true_eq_false, false_or]; omega), overfull_of_room hok.room,
    Option.bind_some, if_neg Bool.false_ne_true, usub_of_le (by omega), usub_of_le hle]
  simp only [Option.bind_some, decide_eq_true_eq, ← hid]
  rfl

/-- A commit of the actor's last token repeats its receipt. -/
theorem commit_replayed (h : Inv l) {token : Token} {nowMs : ℕ} {a : Actor} {receipt : Result}
    (hserial : token.serial ≠ 0) (ha : (l.settled nowMs).actors[token.actor]? = some a)
    (hlast : a.lastCommitted = some (token, receipt)) :
    l.commit token nowMs = some (replayed receipt, l.settled nowMs) := by
  have hl : a.lastCommitted.filter (·.1 = token) = some (token, receipt) := by
    simp [hlast, Option.filter]
  simp only [commit, expire_eq h, Option.bind_eq_bind, Option.bind_some, ha, if_neg hserial, hl]
  rfl

theorem commit_unknown (h : Inv l) {token : Token} {nowMs : ℕ}
    (hunknown : token.serial = 0 ∨ ∀ a, (l.settled nowMs).actors[token.actor]? = some a →
      (∀ receipt, a.lastCommitted ≠ some (token, receipt)) ∧
      ∀ c, a.pending = some c → c.id ≠ token) :
    l.commit token nowMs = some (rejected "UNKNOWN_CLAIM", l.settled nowMs) := by
  simp only [commit, expire_eq h, Option.bind_eq_bind, Option.bind_some, Option.pure_def]
  split
  next => rfl
  next a ha =>
    split
    next => rfl
    next hserial =>
      obtain ⟨hlast, hpend⟩ := hunknown.resolve_left hserial a ha
      have hl : a.lastCommitted.filter (·.1 = token) = none := by
        cases hl : a.lastCommitted with
        | none => rfl
        | some p =>
          have : p.1 ≠ token := fun e => hlast p.2 (by rw [hl, ← e])
          simp [Option.filter, this]
      have hp : a.pending.filter (·.id = token) = none := by
        cases hc : a.pending with
        | none => rfl
        | some c => simp [Option.filter, hpend c hc]
      simp only [hl, hp]

/-- The three ends of a commit. -/
theorem commit_cases (h : Inv l) (token : Token) (nowMs : ℕ) :
    (∃ a receipt, (l.settled nowMs).actors[token.actor]? = some a ∧
      a.lastCommitted = some (token, receipt) ∧
      l.commit token nowMs = some (replayed receipt, l.settled nowMs)) ∨
    (∃ a c x, (l.settled nowMs).actors[token.actor]? = some a ∧ a.pending = some c ∧
      c.id = token ∧ (l.settled nowMs).carcasses[c.key.source]? = some x ∧ x.key = c.key ∧
      x.active = true ∧ l.commit token nowMs = some (⟨true, false, c.amount, "COMMITTED"⟩,
        (l.settled nowMs).extracted token.actor a x c)) ∨
    l.commit token nowMs = some (rejected "UNKNOWN_CLAIM", l.settled nowMs) := by
  by_cases hserial : token.serial = 0
  · exact .inr (.inr (commit_unknown h (.inl hserial)))
  cases ha : (l.settled nowMs).actors[token.actor]? with
  | none => exact .inr (.inr (commit_unknown h (.inr (by simp [ha]))))
  | some a =>
    by_cases hlast : ∃ receipt, a.lastCommitted = some (token, receipt)
    · obtain ⟨receipt, hlast⟩ := hlast
      exact .inl ⟨a, receipt, rfl, hlast, commit_replayed h hserial ha hlast⟩
    by_cases hpend : ∃ c, a.pending = some c ∧ c.id = token
    · obtain ⟨c, hc, hid⟩ := hpend
      obtain ⟨x, hx, hkey, hact, hstep⟩ := commit_pending h ha hc hid
      exact .inr (.inl ⟨a, c, x, rfl, hc, hid, hx, hkey, hact, hstep⟩)
    · refine .inr (.inr (commit_unknown h (.inr fun b hb => ?_)))
      rw [ha, Option.some.injEq] at hb
      subst hb
      exact ⟨fun r hr => hlast ⟨r, hr⟩, fun c hc hid => hpend ⟨c, hc, hid⟩⟩

theorem commit_effect (h : Inv l) (actor serial nowMs : UInt64) :
    ∃ o l', step l (.commit actor serial nowMs) = some (o, l') ∧
      Effect l (.commit actor serial nowMs) o l' := by
  simp only [step]
  rcases commit_cases h ⟨actor.toNat, serial.toNat⟩ nowMs.toNat with
    ⟨a, receipt, -, -, hstep⟩ | ⟨a, c, x, ha, hc, hid, hx, hkey, hact, hstep⟩ | hstep
  · exact ⟨_, _, by rw [hstep]; rfl, .kept (not_effective_replayed _ _)⟩
  · exact ⟨_, _, by rw [hstep]; rfl, .extracted ha hc hid hx hkey hact⟩
  · exact ⟨_, _, by rw [hstep]; rfl, .kept (not_effective_rejected _ _)⟩

/-! ### Flows -/

theorem lt_of_replayEvent {a : Actor} {serial depotId requested : ℕ} {kind : EventKind}
    (h : replayEvent a serial kind depotId requested = none) : a.lastEventSerial < serial := by
  unfold replayEvent at h
  split at h
  · assumption
  · split at h
    · split at h <;> contradiction
    · contradiction

theorem not_effective_replayEvent {a : Actor} {serial depotId requested : ℕ} {kind : EventKind}
    {r : Result} (op : Op) (h : replayEvent a serial kind depotId requested = some r) :
    ¬ Effective op (.result r) := by
  unfold replayEvent at h
  split at h
  · contradiction
  · split at h
    · split at h
      · cases h
        exact not_effective_replayed op _
      · cases h
        exact not_effective_rejected op _
    · cases h
      exact not_effective_rejected op _

theorem harvestField_effect (h : Inv l) (actor eventSerial : UInt64) (fieldId requested : UInt32)
    (nowMs : UInt64) (physicallyCompleted : Bool) :
    ∃ o l', step l (.harvestField actor eventSerial fieldId requested nowMs
        physicallyCompleted) = some (o, l') ∧
      Effect l (.harvestField actor eventSerial fieldId requested nowMs physicallyCompleted) o l' := by
  have hs := h.settled nowMs.toNat
  simp only [step, harvestField, expire_eq h, Option.bind_eq_bind, Option.bind_some,
    Option.pure_def]
  split
  next => exact ⟨_, _, rfl, .kept (not_effective_rejected _ _)⟩
  next a ha =>
    split
    next hr => exact ⟨_, _, rfl, .kept (not_effective_replayEvent _ hr)⟩
    next => exact ⟨_, _, rfl, .kept (not_effective_rejected _ _)⟩
    next field hr hfield =>
      split
      next => exact ⟨_, _, rfl, .kept (not_effective_rejected _ _)⟩
      next hbad =>
        simp only [not_or, not_not, ne_eq, Bool.not_eq_true] at hbad
        obtain ⟨-, -, -, -, hfid, hplace, -, hp, hc, hcar, hraid⟩ := hbad
        have hcargo := (hs.actor _ a ha).cargo_le
        rw [usub_of_le hcargo, Option.bind_some]
        split
        next => exact ⟨_, _, rfl, .kept (not_effective_rejected _ _)⟩
        next hpos =>
          rw [usub_of_le (by omega), Option.bind_some]
          exact ⟨_, _, rfl, .harvested (f := ⟨.fieldHarvest, _, _, _, _⟩) rfl rfl ha hfield
            (lt_of_replayEvent hr) ⟨hfid, hplace, hp, hc, hcar, hraid⟩ (by omega) (by omega)
            (by omega) rfl⟩

theorem steal_effect (h : Inv l) (actor eventSerial : UInt64) (sourceDepotId requested : UInt32)
    (physicallyCompleted : Bool) :
    ∃ o l', step l (.steal actor eventSerial sourceDepotId requested physicallyCompleted) =
        some (o, l') ∧
      Effect l (.steal actor eventSerial sourceDepotId requested physicallyCompleted) o l' := by
  simp only [step, steal]
  split
  next => exact ⟨_, _, rfl, .kept (not_effective_rejected _ _)⟩
  next a ha =>
    split
    next hr => exact ⟨_, _, rfl, .kept (not_effective_replayEvent _ hr)⟩
    next => exact ⟨_, _, rfl, .kept (not_effective_rejected _ _)⟩
    next d hr hd =>
      split
      next => exact ⟨_, _, rfl, .kept (not_effective_rejected _ _)⟩
      next hbad =>
        simp only [not_or, not_and_or, not_not, ne_eq, Bool.not_eq_true, Bool.not_eq_false] at hbad
        obtain ⟨-, -, -, -, hp, hc, hcar, hraid, hplace⟩ := hbad
        rw [usub_of_le (h.actor _ a ha).cargo_le]
        simp only [Option.bind_eq_bind, Option.bind_some, Option.pure_def]
        split
        next => exact ⟨_, _, rfl, .kept (not_effective_rejected _ _)⟩
        next hpos =>
          split
          next => exact ⟨_, _, rfl, .kept (not_effective_rejected _ _)⟩
          next hstock =>
            have hcargo := (h.actor _ a ha).cargo_le
            rw [usub_of_le (by omega), Option.bind_some]
            exact ⟨_, _, rfl, .moved (f := ⟨.theft, _, _, _, _⟩) rfl (by simp) ha hd
              (lt_of_replayEvent hr) ⟨hp, hc, hcar, hraid, hplace⟩ (by omega) (by simp)
              (fun _ => by omega) (fun _ => by omega) (by simp)⟩

theorem aboveLow_le (d : Depot) :
    ∃ n, aboveLow d = some n ∧ n ≤ d.stock ∧ (0 < n → d.low + n ≤ d.stock) := by
  unfold aboveLow
  split
  next hlow => exact ⟨_, usub_of_le hlow.le, by omega, fun _ => by omega⟩
  next => exact ⟨0, rfl, by omega, by omega⟩

theorem load_effect (h : Inv l) (actor eventSerial : UInt64) (sourceDepotId requested : UInt32)
    (physicallyCompleted : Bool) :
    ∃ o l', step l (.load actor eventSerial sourceDepotId requested physicallyCompleted) =
        some (o, l') ∧
      Effect l (.load actor eventSerial sourceDepotId requested physicallyCompleted) o l' := by
  simp only [step, load]
  split
  next => exact ⟨_, _, rfl, .kept (not_effective_rejected _ _)⟩
  next a ha =>
    split
    next hr => exact ⟨_, _, rfl, .kept (not_effective_replayEvent _ hr)⟩
    next => exact ⟨_, _, rfl, .kept (not_effective_rejected _ _)⟩
    next d hr hd =>
      split
      next => exact ⟨_, _, rfl, .kept (not_effective_rejected _ _)⟩
      next hbad =>
        simp only [not_or, not_not, ne_eq, Bool.not_eq_true, Bool.not_eq_false] at hbad
        obtain ⟨-, -, -, -, hcar, hhome, hp, hc, hraid, hfield, hroute⟩ := hbad
        split
        next => exact ⟨_, _, rfl, .kept (not_effective_rejected _ _)⟩
        next hfull =>
          obtain ⟨n, hn, hstock, hlow⟩ := aboveLow_le d
          rw [hn, usub_of_le (h.actor _ a ha).cargo_le]
          simp only [Option.bind_eq_bind, Option.bind_some, Option.pure_def]
          split
          next => exact ⟨_, _, rfl, .kept (not_effective_rejected _ _)⟩
          next hpos =>
            rw [usub_of_le (by omega), Option.bind_some]
            exact ⟨_, _, rfl, .moved (f := ⟨.loading, _, _, _, _⟩) rfl (by simp) ha hd
              (lt_of_replayEvent hr) ⟨hcar, hhome, hp, hc, hraid, hfield, hroute⟩ (by omega)
              (by simp) (fun _ => by omega) (fun _ => by omega)
              (fun _ => by have := hlow (by omega); omega)⟩

theorem deliver_effect (h : Inv l) (actor eventSerial : UInt64) (depotId requested : UInt32)
    (physicallyCompleted : Bool) :
    ∃ o l', step l (.deliver actor eventSerial depotId requested physicallyCompleted) =
        some (o, l') ∧
      Effect l (.deliver actor eventSerial depotId requested physicallyCompleted) o l' := by
  simp only [step, deliver]
  split
  next => exact ⟨_, _, rfl, .kept (not_effective_rejected _ _)⟩
  next a ha =>
    split
    next hr => exact ⟨_, _, rfl, .kept (not_effective_replayEvent _ hr)⟩
    next => exact ⟨_, _, rfl, .kept (not_effective_rejected _ _)⟩
    next d hr hd =>
      split
      next => exact ⟨_, _, rfl, .kept (not_effective_rejected _ _)⟩
      next hbad =>
        simp only [not_or, not_and_or, not_not, ne_eq, Bool.not_eq_true, Bool.not_eq_false] at hbad
        obtain ⟨-, -, -, hp, hc, hplace⟩ := hbad
        have hcap := (h.depot _ d hd).stock_le
        rw [usub_of_le hcap]
        simp only [Option.bind_eq_bind, Option.bind_some, Option.pure_def]
        split
        next => exact ⟨_, _, rfl, .kept (not_effective_rejected _ _)⟩
        next hpos =>
          rw [usub_of_le (by omega), Option.bind_some]
          exact ⟨_, _, rfl, .moved (f := ⟨.delivery, _, _, _, _⟩) rfl (by simp) ha hd
            (lt_of_replayEvent hr) ⟨hp, hc, hplace⟩ (by omega) (fun _ => ⟨by omega, by omega⟩)
            (by simp) (by simp) (by simp)⟩

theorem eatDepot_effect (l : Ledger) (actor eventSerial : UInt64) (depotId portions : UInt32)
    (physicallyCompleted : Bool) :
    ∃ o l', step l (.eatDepot actor eventSerial depotId portions physicallyCompleted) =
        some (o, l') ∧
      Effect l (.eatDepot actor eventSerial depotId portions physicallyCompleted) o l' := by
  simp only [step, eatDepot]
  split
  next => exact ⟨_, _, rfl, .kept (not_effective_rejected _ _)⟩
  next a ha =>
    split
    next hr => exact ⟨_, _, rfl, .kept (not_effective_replayEvent _ hr)⟩
    next => exact ⟨_, _, rfl, .kept (not_effective_rejected _ _)⟩
    next d hr hd =>
      split
      next => exact ⟨_, _, rfl, .kept (not_effective_rejected _ _)⟩
      next hbad =>
        simp only [not_or, not_and_or, not_not, ne_eq, Bool.not_eq_true, Bool.not_eq_false] at hbad
        obtain ⟨-, -, hpos, hp, hplace⟩ := hbad
        split
        next => exact ⟨_, _, rfl, .kept (not_effective_rejected _ _)⟩
        next hstock =>
          rw [usub_of_le (by omega)]
          simp only [Option.bind_eq_bind, Option.bind_some, Option.pure_def]
          exact ⟨_, _, rfl, .moved (f := ⟨.meal, _, _, _, _⟩) rfl (by simp) ha hd
            (lt_of_replayEvent hr) ⟨hp, hplace⟩ (by omega) (by simp) (fun _ => by omega) (by simp)
            (by simp)⟩

/-- `DropCargo` of a registered actor, once its claim is cancelled. -/
theorem dropCargo_registered (h : Inv l) {id : ℕ} {a : Actor} (ha : l.actors[id]? = some a) :
    ∃ b, (l.drop fun c => c.id.actor = id).actors[id]? = some b ∧ b.pending = none ∧
      l.dropCargo id = some (b.cargo, (l.drop fun c => c.id.actor = id).dropped id b) := by
  obtain ⟨flag, hflag⟩ := cancelActor_eq h id
  have hfree : (a.lapse fun c => c.id.actor = id).pending = none := by
    cases hc : (a.lapse fun c => c.id.actor = id).pending with
    | none => rfl
    | some c =>
      obtain ⟨hc, hne⟩ := lapse_pending.mp hc
      exact absurd ((h.actor _ a ha).pending c hc).actor (of_decide_eq_false hne)
  have hdrop := getElem?_drop_actors l (fun c => c.id.actor = id) id
  rw [ha, Option.map_some] at hdrop
  refine ⟨_, hdrop, hfree, ?_⟩
  simp only [dropCargo, ha, hflag, Option.bind_eq_bind, Option.bind_some, hdrop]
  rfl

theorem dropCargo_effect (h : Inv l) (actor : UInt64) :
    ∃ o l', step l (.dropCargo actor) = some (o, l') ∧ Effect l (.dropCargo actor) o l' := by
  cases ha : l.actors[actor.toNat]? with
  | none =>
    exact ⟨.portions 0, l, by simp only [step, dropCargo, ha]; rfl, .kept (by simp [Effective])⟩
  | some a =>
    obtain ⟨b, hb, hfree, hdrop⟩ := dropCargo_registered h ha
    exact ⟨.portions b.cargo, _, by simp only [step, hdrop]; rfl, .dropped hb hfree⟩

/-- Inside the invariant a call is defined and has one of the effects. -/
theorem step_effect (h : Inv l) (op : Op) : ∃ o l', step l op = some (o, l') ∧ Effect l op o l' := by
  cases op with
  | configureDepot => exact configureDepot_effect h _ _ _ _ _
  | configureResidentsV11 => exact configureResidentsV11_effect l
  | configureField => exact configureField_effect h _ _ _ _ _
  | registerActor => exact registerActor_effect l _ _ _ _ _
  | registerFarmer => exact registerFarmer_effect l _ _ _ _
  | registerRaider => exact registerRaider_effect l _ _ _ _ _
  | registerCarrier => exact registerCarrier_effect l _ _ _
  | registerCarcass => exact registerCarcass_effect h _ _ _ _ _
  | reserve => exact reserve_effect h _ _ _ _ _ _ _
  | commit => exact commit_effect h _ _ _
  | cancel => exact cancel_effect h _ _
  | cancelActor => exact cancelActor_effect h _
  | closeCarcass => exact closeCarcass_effect h _ _
  | expire => exact expire_effect h _
  | harvestField => exact harvestField_effect h _ _ _ _ _ _
  | steal => exact steal_effect h _ _ _ _ _
  | load => exact load_effect h _ _ _ _ _
  | deliver => exact deliver_effect h _ _ _ _ _
  | eatDepot => exact eatDepot_effect l _ _ _ _ _
  | dropCargo => exact dropCargo_effect h _

end AIWorld.LivingSupply
