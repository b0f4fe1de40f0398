import AIWorld.LivingSupply.ExactlyOnce
import AIWorld.LivingSupply.Registration

/-! Role isolation. Every completed flow and every claim is one that the actor's
role is for, so no mixture of registrations opens a second channel for food. -/

namespace AIWorld.LivingSupply

open Std Lib Ledger

/-- What a role may complete at a depot or field in the ledger's layout. -/
def Role.Completes (l : Ledger) (place : ℕ) : EventKind → Role → Prop
  | .fieldHarvest, .farmer _ fieldId _ => fieldId = place
  | .theft, .raider depotId sourceDepotId _ all =>
    depotId ≠ place ∧ (sourceDepotId = place ∨ all = true ∧ l.raidVillage place = true)
  | .loading, .carrier .. => l.outsideRoutes place = false
  | .delivery, .hunter depotId _ | .delivery, .farmer depotId _ _
  | .delivery, .raider depotId .. => depotId = place
  | .meal, .hunter depotId _ | .meal, .farmer depotId _ _ | .meal, .raider depotId ..
  | .meal, .consumer depotId _ => depotId = place
  | .delivery, .carrier depotId _ | .meal, .carrier depotId _ =>
    depotId = place ∨ l.residentsV11 = true ∧ (place = 4 ∨ place = 5)
  | _, _ => False

/-- The claims that a role makes on a carcass. -/
def Role.Claims : ClaimKind → Role → Prop
  | .harvest, .hunter .. | .predatorMeal, .predator .. => True
  | _, _ => False

/-- The roles that never carry food. -/
def Role.NeverCarries : Role → Prop
  | .predator .. | .consumer .. => True
  | _ => False

variable {l l' : Ledger} {op : Op} {o : Outcome} {a : Actor} {f : Flow} {r : Result}

theorem raidVillage_ne_home {place : ℕ} (h : l.raidVillage place = true) :
    l.raiderHome ≠ place := by
  unfold raidVillage at h
  unfold raiderHome
  split at h <;> simp_all <;> omega

theorem Actor.Regular.completes (h : a.Regular) (hr : l.Enrols a.role) {place : ℕ}
    {kind : EventKind} (hp : l.Permits a place kind) : a.role.Completes l place kind := by
  rw [Actor.Regular] at h
  generalize a.role = r at h hr
  cases r <;> simp only [asNew, Role.actor, Actor.mk.injEq] at h
  case raider depotId source capacity all =>
    obtain ⟨hhome, hsource, -⟩ := enrols_raider.mp hr
    have hne : l.raiderHome ≠ source := by
      unfold raiderHome
      split <;> omega
    cases kind with
    | theft =>
      simp only [Permits, h, true_and, ne_eq] at hp
      rw [Role.Completes, hhome]
      rcases hp.2 with rfl | ⟨hall, hvillage⟩
      · exact ⟨hne, .inl rfl⟩
      · exact ⟨raidVillage_ne_home hvillage, .inr ⟨hall, hvillage⟩⟩
    | _ => simp_all [Permits, Role.Completes]
  all_goals cases kind <;> simp_all [Permits, Role.Completes]

theorem Actor.Regular.claims (h : a.Regular) {c : Claim}
    (hkind : a.predator = decide (c.kind = .predatorMeal))
    (hplain : a.consumer = false ∧ a.carrier = false ∧ a.raidSourceDepotId = 0 ∧ a.fieldId = 0) :
    a.role.Claims c.kind := by
  cases hk : c.kind with
  | harvest =>
    have hr : a.role = .hunter a.depotId a.capacity :=
      h.hunter_iff.mpr ⟨rfl, rfl, by simp [hkind, hk], hplain.1, hplain.2.2.1, hplain.2.2.2, hplain.2.1⟩
    rw [hr]
    trivial
  | predatorMeal =>
    have hr : a.role = .predator a.depotId a.capacity :=
      h.predator_iff.mpr ⟨rfl, rfl, by simp [hkind, hk], hplain.1, hplain.2.2.1, hplain.2.2.2, hplain.2.1⟩
    rw [hr]
    trivial

/-! ### Successful flows -/

/-- An answer that is not marked as a duplicate. -/
def Original (x : Option (Result × Ledger)) : Prop := ∀ p, x = some p → p.1.duplicate = false

theorem original_rejected (reason : String) (l : Ledger) : Original (some (rejected reason, l)) := by
  rintro _ ⟨⟩
  rfl

theorem original_flowReceipt (n : ℕ) (l : Ledger) : Original (some (flowReceipt n, l)) := by
  rintro _ ⟨⟩
  rfl

theorem original_bind {α : Type} {x : Option α} {g : α → Option (Result × Ledger)}
    (h : ∀ v, Original (g v)) : Original (x.bind g) := by
  intro p hp
  obtain ⟨v, -, hv⟩ := Option.bind_eq_some_iff.mp hp
  exact h v p hv

theorem original_of_step {x : Option (Result × Ledger)} (h : Original x)
    (hstep : x.map (Prod.map Outcome.result id) = some (.result r, l')) : r.duplicate = false := by
  obtain ⟨⟨q, m⟩, hp, heq⟩ := Option.map_eq_some_iff.mp hstep
  cases heq
  exact h _ hp

/-- A flow whose serial the actor's record does not answer is no duplicate. -/
theorem flow_original (h : l.Inv) (hop : op.flow? = some f)
    (hre : ∀ a, (l.rest op).actors[f.actor]? = some a →
      replayEvent a f.serial f.kind f.place f.requested = none)
    (hstep : step l op = some (.result r, l')) : r.duplicate = false := by
  cases op <;> simp only [Op.flow?, reduceCtorEq, Option.some.injEq] at hop
  all_goals
    subst hop
    refine original_of_step ?_ hstep
    simp only [harvestField, steal, load, deliver, eatDepot, expire_eq h, Option.bind_eq_bind,
      Option.bind_some, Option.pure_def]
    split
    next => exact original_rejected _ _
    next owner ha =>
      rw [hre owner ha]
      repeat' first
        | contradiction
        | exact original_rejected _ _
        | exact original_flowReceipt _ _
        | refine original_bind fun _ => ?_
        | split

theorem replayEvent_answered {serial place requested : ℕ} {kind : EventKind} {answer : Result}
    (h : replayEvent a serial kind place requested = some answer) (hr : answer.success = true) :
    ∃ e, a.lastEvent = some e ∧ e.kind = kind ∧ e.depotId = place := by
  unfold replayEvent at h
  split at h
  · contradiction
  split at h
  next e he =>
    split_ifs at h with hsame
    · exact ⟨e, he, hsame.2.1, hsame.2.2.1⟩
    · cases h
      contradiction
  next =>
    cases h
    contradiction

/-- A successful answer to a flow is fresh or read from the actor's record. -/
theorem fresh_or_remembered (h : l.Inv) (hop : op.flow? = some f)
    (hstep : step l op = some (.result r, l')) (hr : r.success = true) :
    r.Fresh ∨ ∃ a e, l.actors[f.actor]? = some a ∧ a.lastEvent = some e ∧ e.kind = f.kind ∧
      e.depotId = f.place := by
  by_cases hre : ∃ a answer, l.actors[f.actor]? = some a ∧
      replayEvent a f.serial f.kind f.place f.requested = some answer
  · obtain ⟨a, answer, ha, hre⟩ := hre
    rw [flow_replay h hop ha hre, Option.some.injEq, Prod.mk.injEq, Outcome.result.injEq] at hstep
    obtain ⟨rfl, -⟩ := hstep
    obtain ⟨e, he⟩ := replayEvent_answered hre hr
    exact .inr ⟨a, e, ha, he⟩
  · refine .inl ⟨hr, flow_original h hop (fun a ha => ?_) hstep⟩
    obtain ⟨q, hq⟩ := getElem?_rest_actors l op f.actor
    rw [hq, Option.map_eq_some_iff] at ha
    obtain ⟨b, hb, rfl⟩ := ha
    by_contra hne
    obtain ⟨answer, hanswer⟩ := Option.ne_none_iff_exists'.mp hne
    exact hre ⟨b, answer, hb, hanswer⟩

/-- The actor of a fresh flow may complete it, and a load leaves the source its low-water mark. -/
theorem Effect.fresh_permits (he : Effect l op (.result r) l') (hop : op.flow? = some f)
    (hr : r.Fresh) : (∃ a, l.actors[f.actor]? = some a ∧ l.Permits a f.place f.kind) ∧
      (f.kind = .loading → ∃ d, l'.depots[f.place]? = some d ∧ d.low ≤ d.stock) := by
  cases he with
  | kept ho =>
    refine absurd ?_ ho
    cases op <;> exact hr
  | extracted => simp [Op.flow?] at hop
  | harvested hop' hkind ha _ _ hpermits =>
    rw [hop', Option.some.injEq] at hop
    subst hop
    rw [getElem?_settled_actors, Option.map_eq_some_iff] at ha
    obtain ⟨b, hb, rfl⟩ := ha
    exact ⟨⟨b, hb, hpermits.congr rfl rfl⟩, by simp [hkind]⟩
  | @moved _ _ _ d n hop' _ ha _ _ hpermits _ _ _ _ hlow =>
    rw [hop', Option.some.injEq] at hop
    subst hop
    refine ⟨⟨_, ha, hpermits⟩, fun hk => ⟨_, ExtTreeMap.getElem?_insert_self, ?_⟩⟩
    have := hlow hk
    simp only [hk, Depot.after]
    omega

theorem flow_completes (h : l.Inv) (hc : Cast l) (hop : op.flow? = some f)
    (hstep : step l op = some (.result r, l')) (hr : r.success = true) :
    ∃ a, l.actors[f.actor]? = some a ∧ a.role.Completes l f.place f.kind := by
  have hpermits : ∃ a, l.actors[f.actor]? = some a ∧ l.Permits a f.place f.kind := by
    rcases fresh_or_remembered h hop hstep hr with hfresh | ⟨a, e, ha, he, hkind, hplace⟩
    · exact ((effect_of_step h hstep).fresh_permits hop hfresh).1
    · exact ⟨a, ha, hkind ▸ hplace ▸ hc.receipt _ a e ha he⟩
  obtain ⟨a, ha, hp⟩ := hpermits
  exact ⟨a, ha, (hc.regular _ a ha).completes (hc.enrols _ a ha) hp⟩

/-! ### Claims -/

theorem claims_of_pending (h : l.Inv) (hc : Cast l) {k : ℕ} {c : Claim}
    (ha : l.actors[k]? = some a) (hp : a.pending = some c) : a.role.Claims c.kind :=
  have hok := (h.actor _ a ha).pending c hp
  (hc.regular _ a ha).claims hok.kind hok.plain

/-- A token answers a claim of its kind that is now pending. -/
theorem Effect.claim_of_token {actor source life nowMs claimTtlMs : UInt64} {kind : ClaimKind}
    {requested : UInt32} {t : Token}
    (he : Effect l (.reserve actor source life kind requested nowMs claimTtlMs) (.token (some t)) l') :
    ∃ a c, l'.actors[actor.toNat]? = some a ∧ a.pending = some c ∧ c.kind = kind ∧ c.id = t := by
  generalize ho : Outcome.token (some t) = o at he
  cases he with
  | kept hne =>
    subst ho
    exact absurd rfl hne
  | claimRepeated ha hp hsame =>
    cases ho
    exact ⟨_, _, ha, hp, hsame, rfl⟩
  | claimed _ _ _ _ _ hsame =>
    cases ho
    exact ⟨_, _, ExtTreeMap.getElem?_insert_self, rfl, hsame, rfl⟩
  | _ => contradiction

theorem reserve_claims (h : l.Inv) (hc : Cast l) {actor source life nowMs claimTtlMs : UInt64}
    {kind : ClaimKind} {requested : UInt32} {t : Token}
    (hstep : step l (.reserve actor source life kind requested nowMs claimTtlMs) =
      some (.token (some t), l')) :
    ∃ a, l.actors[actor.toNat]? = some a ∧ a.role.Claims kind := by
  have he := effect_of_step h hstep
  obtain ⟨a', c, ha', hp, rfl, -⟩ := he.claim_of_token
  have hclaims := claims_of_pending (he.inv h) (he.cast hc) ha' hp
  cases ha : l.actors[actor.toNat]? with
  | none =>
    rcases he.newcomer ha with hnone | ⟨r, -, hasks, -⟩
    · rw [hnone] at ha'
      contradiction
    · exact hasks.elim
  | some a =>
    obtain ⟨b, hb, hev⟩ := he.evolves ha
    rw [ha', Option.some.injEq] at hb
    subst hb
    refine ⟨a, rfl, ?_⟩
    rwa [← a.role_asNew, ← hev.asNew, Actor.role_asNew]

/-! ### Roles over a run -/

theorem cargo_eq_zero (h : l.Inv) (hc : Cast l) {k : ℕ} (ha : l.actors[k]? = some a)
    (hr : a.role.NeverCarries) : a.cargo = 0 := by
  have hcap : a.capacity = 0 := by
    have hroom := hc.enrols k a ha
    have hreg : a.asNew = a.role.actor := hc.regular k a ha
    generalize a.role = r at hr hroom hreg
    cases hroom <;> simp only [Role.NeverCarries] at hr
    all_goals exact congrArg Actor.capacity hreg
  have := (h.actor k a ha).cargo_le
  omega

theorem run_asNew (h : l.Inv) {k : ℕ} (ha : l.actors[k]? = some a)
    {tr : List (Event Ledger Op Outcome)} (hrun : machine.Run l tr l') :
    l'.residentsV11 = l.residentsV11 ∧ ∃ a', l'.actors[k]? = some a' ∧ a'.asNew = a.asNew := by
  refine run_keeps (P := fun s => s.residentsV11 = l.residentsV11 ∧
    ∃ a', s.actors[k]? = some a' ∧ a'.asNew = a.asNew) ?_ hrun h ⟨rfl, a, ha, rfl⟩
  rintro m op o m' - he ⟨hv, b, hb, hnew⟩
  obtain ⟨b', hb', hev⟩ := he.evolves hb
  exact ⟨(he.grows.layout (isEmpty_actors_eq_false hb)).trans hv, b', hb', hev.asNew.trans hnew⟩

/-- Role isolation, for every ledger that calls lead to from an empty one. -/
theorem role_isolation {tr : List (Event Ledger Op Outcome)} (hrun : machine.Run {} tr l) :
    (∀ (k : ℕ) (a : Actor), l.actors[k]? = some a →
      (∀ tr' l', machine.Run l tr' l' → l'.residentsV11 = l.residentsV11 ∧
        ∃ a', l'.actors[k]? = some a' ∧ a'.role = a.role ∧ a'.capacity = a.capacity ∧
          a'.depotId = a.depotId) ∧
      (∀ op, op.registrant? = some k →
        ∃ b, step l op = some (.flag b, l) ∧ (b = true ↔ op.Asks k a.role)) ∧
      (a.role.NeverCarries → a.cargo = 0) ∧
      ∀ c, a.pending = some c → a.role.Claims c.kind) ∧
    (∀ op o l' (k : ℕ) (a : Actor), step l op = some (o, l') → l.actors[k]? = none →
      l'.actors[k]? = some a → o = .flag true ∧ op.Asks k a.role) ∧
    (∀ op f r l', op.flow? = some f → step l op = some (.result r, l') → r.success = true →
      (∃ a, l.actors[f.actor]? = some a ∧ a.role.Completes l f.place f.kind) ∧
      (r.duplicate = false → f.kind = .loading →
        ∃ d, l'.depots[f.place]? = some d ∧ d.low ≤ d.stock)) ∧
    (∀ actor source life kind requested nowMs claimTtlMs t l',
      step l (.reserve actor source life kind requested nowMs claimTtlMs) =
        some (.token (some t), l') →
      ∃ a, l.actors[actor.toNat]? = some a ∧ a.role.Claims kind) := by
  obtain ⟨h, hc⟩ := cast_run hrun inv_empty cast_empty
  refine ⟨fun k a ha => ⟨fun tr' l' hrun' => ?_, fun op hop => registration_answers hc ha hop,
    cargo_eq_zero h hc ha, fun c hp => claims_of_pending h hc ha hp⟩, ?_, ?_, ?_⟩
  · obtain ⟨hv, a', ha', hnew⟩ := run_asNew h ha hrun'
    have hrole : a'.asNew.role = a.asNew.role := congrArg Actor.role hnew
    have hcapacity : a'.asNew.capacity = a.asNew.capacity := congrArg Actor.capacity hnew
    have hhome : a'.asNew.depotId = a.asNew.depotId := congrArg Actor.depotId hnew
    exact ⟨hv, a', ha', hrole, hcapacity, hhome⟩
  · intro op o l' k a hstep hnone ha
    rcases (effect_of_step h hstep).newcomer hnone with hnone' | ⟨r, -, hasks, hr, rfl, rfl⟩
    · rw [hnone'] at ha
      contradiction
    · rw [ExtTreeMap.getElem?_insert_self, Option.some.injEq] at ha
      subst ha
      rw [regular_actor hr hc.field_zero]
      exact ⟨rfl, hasks⟩
  · intro op f r l' hop hstep hr
    exact ⟨flow_completes h hc hop hstep hr, fun hdup =>
      ((effect_of_step h hstep).fresh_permits hop ⟨hr, hdup⟩).2⟩
  · exact fun _ _ _ _ _ _ _ _ _ hstep => reserve_claims h hc hstep

theorem role_isolation_smallWorld : ∃ l : Ledger, l.nextClaimSerial = 1 ∧
    ∀ (k : ℕ) (a : Actor), l.actors[k]? = some a → ∀ c, a.pending = some c →
      a.role.Claims c.kind := by
  obtain ⟨tr, l, hrun, hserial⟩ := smallWorld_run
  exact ⟨l, hserial, fun k a ha => ((role_isolation hrun).1 k a ha).2.2.2⟩

end AIWorld.LivingSupply
