import AIWorld.LivingSupply.Conservation

/-! How one call changes an actor. Claims that an actor holds or has committed
are old ones or the newest one of the ledger, its event serials only go up, and
what registration fixed of it stays. -/

namespace AIWorld.LivingSupply

open Std Lib Ledger

/-- A call that neither completes a flow of an actor nor drops its cargo. -/
def Quiet (op : Op) (o : Outcome) (id : ℕ) : Prop :=
  (∀ f r, op.flow? = some f → o = .result r → r.Fresh → f.actor ≠ id) ∧
    ∀ actor, op = .dropCargo actor → actor.toNat ≠ id

/-- An actor before and after a call; `issued` is the last claim serial before it
and `allowed` holds of the flows that the ledger then permits the actor. -/
structure Evolves (issued : ℕ) (quiet : Prop) (allowed : FlowEvent → Prop) (a a' : Actor) :
    Prop where
  asNew : a'.asNew = a.asNew
  pending : ∀ c, a'.pending = some c → a.pending = some c ∨ issued < c.id.serial
  lastCommitted : ∀ t r, a'.lastCommitted = some (t, r) →
    a.lastCommitted = some (t, r) ∨ ∃ c, a.pending = some c ∧ c.id = t
  serial_le : a.lastEventSerial ≤ a'.lastEventSerial
  lastEvent : ∀ e, a'.lastEvent = some e → a.lastEvent = some e ∨
    a.lastEventSerial < e.serial ∧ allowed e
  keeps : quiet → a'.lastEvent = a.lastEvent ∧ a'.lastEventSerial = a.lastEventSerial

variable {l l' : Ledger} {op : Op} {o : Outcome} {id issued : ℕ} {quiet : Prop}
  {allowed : FlowEvent → Prop} {a a' : Actor}

theorem Evolves.refl (issued : ℕ) (quiet : Prop) (allowed : FlowEvent → Prop) (a : Actor) :
    Evolves issued quiet allowed a a :=
  ⟨rfl, fun _ h => .inl h, fun _ _ h => .inl h, le_rfl, fun _ h => .inl h, fun _ => ⟨rfl, rfl⟩⟩

theorem Evolves.of_lapse {q : Claim → Bool} (h : Evolves issued quiet allowed (a.lapse q) a') :
    Evolves issued quiet allowed a a' where
  asNew := h.asNew
  pending c hc := (h.pending c hc).imp_left fun hp => (lapse_pending.mp hp).1
  lastCommitted t r ht := (h.lastCommitted t r ht).imp_right fun ⟨c, hc, hid⟩ =>
    ⟨c, (lapse_pending.mp hc).1, hid⟩
  serial_le := h.serial_le
  lastEvent := h.lastEvent
  keeps := h.keeps

/-- One actor of the map replaced, after claims were dropped. -/
theorem insert_evolves {A : ExtTreeMap ℕ Actor} {q : Claim → Bool} {k : ℕ} {b b' : Actor}
    (hid : A[id]? = some (a.lapse q)) (hk : A[k]? = some b)
    (h : k = id → Evolves issued quiet allowed b b') :
    ∃ a', (A.insert k b')[id]? = some a' ∧ Evolves issued quiet allowed a a' := by
  by_cases hki : k = id
  · subst hki
    rw [hid, Option.some.injEq] at hk
    subst hk
    exact ⟨b', ExtTreeMap.getElem?_insert_self, (h rfl).of_lapse⟩
  · exact ⟨_, (OrdMap.getElem?_insert_ne _ _ hki).trans hid, (Evolves.refl _ _ _ _).of_lapse⟩

theorem getElem?_closed_actors (l : Ledger) (key : CarcassKey) (id : ℕ) :
    (l.closed key).actors[id]? = l.actors[id]?.map (·.lapse fun c => c.key = key) :=
  getElem?_drop_actors l _ id

theorem getElem?_settled_actors (l : Ledger) (nowMs id : ℕ) :
    (l.settled nowMs).actors[id]? = l.actors[id]?.map (·.lapse fun c => c.expiresAtMs ≤ nowMs) :=
  getElem?_drop_actors (l.grow nowMs) _ id

theorem lapse_false (a : Actor) : (a.lapse fun _ => false) = a := lapse_eq_self fun _ _ => rfl

theorem getElem?_rest_actors (l : Ledger) (op : Op) (id : ℕ) :
    ∃ q, (l.rest op).actors[id]? = l.actors[id]?.map (·.lapse q) := by
  unfold rest
  split
  · exact ⟨_, getElem?_settled_actors l _ id⟩
  · exact ⟨fun _ => false, by simp [lapse_false]⟩

theorem getElem?_retired_actors (l : Ledger) (source id : ℕ) :
    ∃ q, (l.retired source).actors[id]? = l.actors[id]?.map (·.lapse q) := by
  unfold retired
  split
  · exact ⟨_, getElem?_closed_actors l _ id⟩
  · exact ⟨fun _ => false, by simp [lapse_false]⟩

theorem flowed_evolves (issued : ℕ) {f : Flow} {n : ℕ} (hserial : a.lastEventSerial < f.serial)
    (hloud : ¬ quiet) (hallowed : ∀ r, allowed ⟨f.serial, f.kind, f.place, f.requested, r⟩) :
    Evolves issued quiet allowed a (a.flowed f n) where
  asNew := a.flowed_asNew f n
  pending c hc := .inl (by simpa using hc)
  lastCommitted t r ht := .inl (by simpa using ht)
  serial_le := hserial.le
  lastEvent e he := by
    cases he
    exact .inr ⟨hserial, hallowed _⟩
  keeps hq := absurd hq hloud

theorem Effect.issued_le (he : Effect l op o l') : l.nextClaimSerial ≤ l'.nextClaimSerial := by
  cases he with
  | claimed => exact Nat.le_succ _
  | kept => unfold rest; split <;> exact le_rfl
  | carcassAdded => unfold addCarcass retired; split <;> exact le_rfl
  | _ => exact le_rfl

theorem Effect.evolves (he : Effect l op o l') (ha : l.actors[id]? = some a) :
    ∃ a', l'.actors[id]? = some a' ∧ Evolves l.nextClaimSerial (Quiet op o id)
      (fun e => l.Permits a e.depotId e.kind) a a' := by
  have hlapse {m : Ledger} {q : Claim → Bool}
      (hm : m.actors[id]? = l.actors[id]?.map (·.lapse q)) :
      ∃ a', m.actors[id]? = some a' ∧ Evolves l.nextClaimSerial (Quiet op o id)
        (fun e => l.Permits a e.depotId e.kind) a a' := by
    rw [hm, ha]
    exact ⟨_, rfl, (Evolves.refl _ _ _ _).of_lapse⟩
  have hsettled (nowMs : ℕ) :
      (l.settled nowMs).actors[id]? = some (a.lapse fun c => c.expiresAtMs ≤ nowMs) := by
    rw [getElem?_settled_actors, ha]
    rfl
  cases he with
  | kept =>
    obtain ⟨q, hq⟩ := getElem?_rest_actors l op id
    exact hlapse hq
  | depotAdded | layoutChosen | fieldAdded => exact ⟨a, ha, Evolves.refl _ _ _ _⟩
  | @actorAdded _ k r _ _ hnew =>
    have hne : k ≠ id := by
      rintro rfl
      rw [hnew] at ha
      contradiction
    exact ⟨a, (OrdMap.getElem?_insert_ne _ _ hne).trans ha, Evolves.refl _ _ _ _⟩
  | @carcassAdded source =>
    obtain ⟨q, hq⟩ := getElem?_retired_actors l source.toNat id
    exact hlapse (m := addCarcass _ _ _ _) hq
  | claimRepeated => exact hlapse (getElem?_settled_actors l _ id)
  | claimed hb hnone _ _ _ _ hid =>
    refine insert_evolves (hsettled _) hb fun _ =>
      ⟨rfl, fun c hc => .inr ?_, fun _ _ h => .inl h, le_rfl, fun _ h => .inl h, fun _ => ⟨rfl, rfl⟩⟩
    cases hc
    rw [hid]
    exact Nat.lt_succ_self _
  | extracted hb hc =>
    refine insert_evolves (hsettled _) hb fun _ =>
      ⟨rfl, by simp [Actor.extract], ?_, le_rfl, fun _ h => .inl h, fun _ => ⟨rfl, rfl⟩⟩
    intro t r ht
    cases ht
    exact .inr ⟨_, hc, rfl⟩
  | cancelled | actorCancelled => exact hlapse (getElem?_drop_actors l _ id)
  | closed => exact hlapse (getElem?_closed_actors l _ id)
  | harvested hop _ hb _ hserial hpermits =>
    refine insert_evolves (hsettled _) hb fun hk => flowed_evolves _ hserial
      (fun hq => hq.1 _ _ hop rfl ⟨rfl, rfl⟩ hk) fun _ => ?_
    rw [hk, hsettled, Option.some.injEq] at hb
    subst hb
    exact hpermits
  | moved hop _ hb _ hserial hpermits =>
    refine insert_evolves (q := fun _ => false) (by rw [ha, lapse_false]) hb fun hk =>
      flowed_evolves _ hserial (fun hq => hq.1 _ _ hop rfl ⟨rfl, rfl⟩ hk) fun _ => ?_
    rw [hk, ha, Option.some.injEq] at hb
    subst hb
    exact hpermits
  | @dropped actor b hb =>
    refine insert_evolves (q := fun c => c.id.actor = actor.toNat)
      (by rw [getElem?_drop_actors, ha]; rfl) hb fun hk => ?_
    exact ⟨rfl, fun _ hc => .inl hc, by simp, le_rfl, by simp, fun hq => absurd hk (hq.2 _ rfl)⟩

/-- An actor that a call brings in is as registration leaves it. -/
theorem Effect.newcomer (he : Effect l op o l') (hnone : l.actors[id]? = none) :
    l'.actors[id]? = none ∨ ∃ r, id ≠ 0 ∧ op.Asks id r ∧ l.Enrols r ∧ o = .flag true ∧
      l' = { l with actors := l.actors.insert id r.actor } := by
  have hlapse {m : Ledger} {q : Claim → Bool}
      (hm : m.actors[id]? = l.actors[id]?.map (·.lapse q)) : m.actors[id]? = none := by
    rw [hm, hnone]
    rfl
  have hput {A : ExtTreeMap ℕ Actor} {k : ℕ} {b b' : Actor} (hid : A[id]? = none)
      (hk : A[k]? = some b) : (A.insert k b')[id]? = none := by
    have hne : k ≠ id := by
      rintro rfl
      rw [hid] at hk
      contradiction
    rw [OrdMap.getElem?_insert_ne _ _ hne, hid]
  cases he with
  | kept =>
    obtain ⟨q, hq⟩ := getElem?_rest_actors l op id
    exact .inl (hlapse hq)
  | depotAdded | layoutChosen | fieldAdded => exact .inl hnone
  | @actorAdded _ k r _ hid hnew hasks hr =>
    by_cases hk : k = id
    · subst hk
      exact .inr ⟨r, hid, hasks, hr, rfl, rfl⟩
    · exact .inl ((OrdMap.getElem?_insert_ne _ _ hk).trans hnone)
  | @carcassAdded source =>
    obtain ⟨q, hq⟩ := getElem?_retired_actors l source.toNat id
    exact .inl (hlapse (m := addCarcass _ _ _ _) hq)
  | claimRepeated => exact .inl (hlapse (getElem?_settled_actors l _ id))
  | claimed hb => exact .inl (hput (hlapse (getElem?_settled_actors l _ id)) hb)
  | extracted hb => exact .inl (hput (hlapse (getElem?_settled_actors l _ id)) hb)
  | cancelled | actorCancelled => exact .inl (hlapse (getElem?_drop_actors l _ id))
  | closed => exact .inl (hlapse (getElem?_closed_actors l _ id))
  | harvested _ _ hb => exact .inl (hput (hlapse (getElem?_settled_actors l _ id)) hb)
  | moved _ _ hb => exact .inl (hput hnone hb)
  | dropped hb => exact .inl (hput (hlapse (getElem?_drop_actors l _ id)) hb)

end AIWorld.LivingSupply
