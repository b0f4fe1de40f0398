import AIWorld.Agent.SurfaceNumbers
import Mathlib.Logic.Relation

/-! The heap of waiting nodes in order. Queueing a node, or a node that has become cheaper, lets it rise; taking the
first away lets the last sink from the top. -/

namespace AIWorld.Agent.LivingSurfaceDetour

open Lib Lib.HeapOrder

variable {F : Type} {ops : FloatOps F} {s t m : Search F} {i : ℕ} {R : ℕ → ℕ → Prop}

/-! ### The comparison -/

/-- A node with amounts for its cost and for what remains. -/
structure Counted (ops : FloatOps F) (node : Node F) : Prop where
  cost : Amount ops node.cost
  remaining : Amount ops node.remaining

/-- What a node is compared by first. -/
def Node.total (ops : FloatOps F) (fineTurnsEnabled : Bool) (node : Node F) : F :=
  if fineTurnsEnabled then ops.add node.cost (ops.mul (ops.lit 3) node.remaining)
  else ops.add node.cost node.remaining

theorem Counted.total {node : Node F} (hops : SinglePrecision ops) (h : Counted ops node) (fineTurnsEnabled : Bool) :
    Amount ops (node.total ops fineTurnsEnabled) := by
  unfold Node.total
  split
  · exact hops.amount_add h.cost (hops.amount_triple h.remaining)
  · exact hops.amount_add h.cost h.remaining

/-- A search of counted nodes. -/
def AllCounted (ops : FloatOps F) (s : Search F) : Prop := ∀ i, Counted ops (s.node ops i)

theorem counted_absent (hops : SinglePrecision ops) : Counted ops (.absent ops) := ⟨hops.amount_zero, hops.amount_zero⟩

theorem before_iff (hops : SinglePrecision ops) (h : AllCounted ops s) {a b : ℕ} : before ops s a b = true ↔
    ops.lt ((s.node ops a).total ops s.fineTurnsEnabled) ((s.node ops b).total ops s.fineTurnsEnabled) = true ∨
      ¬ops.lt ((s.node ops b).total ops s.fineTurnsEnabled) ((s.node ops a).total ops s.fineTurnsEnabled) = true ∧
      (ops.lt (s.node ops a).remaining (s.node ops b).remaining = true ∨
        ¬ops.lt (s.node ops b).remaining (s.node ops a).remaining = true ∧ a < b) := by
  have htotal := hops.eq_iff ((h a).total hops s.fineTurnsEnabled).number ((h b).total hops s.fineTurnsEnabled).number
  have hremaining := hops.eq_iff (h a).remaining.number (h b).remaining.number
  have hbefore : before ops s a b =
      if !ops.eq ((s.node ops a).total ops s.fineTurnsEnabled) ((s.node ops b).total ops s.fineTurnsEnabled) then
        ops.lt ((s.node ops a).total ops s.fineTurnsEnabled) ((s.node ops b).total ops s.fineTurnsEnabled)
      else if !ops.eq (s.node ops a).remaining (s.node ops b).remaining then
        ops.lt (s.node ops a).remaining (s.node ops b).remaining
      else a < b := rfl
  rw [hbefore]
  generalize (s.node ops a).total ops s.fineTurnsEnabled = x at *
  generalize (s.node ops b).total ops s.fineTurnsEnabled = y at *
  generalize (s.node ops a).remaining = z at *
  generalize (s.node ops b).remaining = w at *
  cases hxy : ops.eq x y <;> cases hzw : ops.eq z w <;> cases hlt : ops.lt x y <;> cases hgt : ops.lt y x <;>
    cases hlt' : ops.lt z w <;> cases hgt' : ops.lt w z <;> simp_all

/-- Nodes with amounts can be preferred to one another. -/
theorem preference_before (hops : SinglePrecision ops) (h : AllCounted ops s) :
    Preference fun a b => before ops s a b = true := by
  have hnumbers : Preference fun a b : ℕ => a < b := ⟨fun hab hba => absurd hab hba.asymm, fun hba hcb hca => by omega⟩
  have htotal := hops.preference fun a => ((h a).total hops s.fineTurnsEnabled).number
  have hremaining := hops.preference fun a => (h a).remaining.number
  have hlex := htotal.lex (hremaining.lex hnumbers)
  constructor
  · intro a b hab hba
    exact hlex.asymm ((before_iff hops h).mp hab) ((before_iff hops h).mp hba)
  · intro a b c hba hcb hca
    exact hlex.trans (mt (before_iff hops h).mpr hba) (mt (before_iff hops h).mpr hcb) ((before_iff hops h).mp hca)

theorem node_forget_congr (ops : FloatOps F) (h : t.nodes.map Node.forget = s.nodes.map Node.forget) (i : ℕ) :
    (t.node ops i).forget = (s.node ops i).forget := by
  have hi := congrArg (fun nodes => nodes[i]?) h
  simp only [List.getElem?_map] at hi
  rw [Search.node, Search.node, List.getD_eq_getElem?_getD, List.getD_eq_getElem?_getD]
  cases hs : s.nodes[i]? <;> cases ht : t.nodes[i]? <;> simp_all

theorem total_of_forget (ops : FloatOps F) {n n' : Node F} (h : n.forget = n'.forget) (fineTurnsEnabled : Bool) :
    n.cost = n'.cost ∧ n.remaining = n'.remaining ∧ n.total ops fineTurnsEnabled = n'.total ops fineTurnsEnabled := by
  have hcost : n.forget.cost = n'.forget.cost := congrArg Node.cost h
  have hremaining : n.forget.remaining = n'.forget.remaining := congrArg Node.remaining h
  change n.cost = n'.cost at hcost
  change n.remaining = n'.remaining at hremaining
  exact ⟨hcost, hremaining, by rw [Node.total, Node.total, hcost, hremaining]⟩

/-- The comparison is about the costs of nodes, and what remains, alone. -/
theorem before_congr {a b : ℕ} (hfine : t.fineTurnsEnabled = s.fineTurnsEnabled)
    (ha : (t.node ops a).forget = (s.node ops a).forget) (hb : (t.node ops b).forget = (s.node ops b).forget) :
    before ops t a b = before ops s a b := by
  obtain ⟨hcost, hremaining, -⟩ := total_of_forget ops ha true
  obtain ⟨hcost', hremaining', -⟩ := total_of_forget ops hb true
  simp only [before, hfine, hcost, hremaining, hcost', hremaining']

/-- The nodes of a search are compared by a relation. -/
def Compares (ops : FloatOps F) (s : Search F) (R : ℕ → ℕ → Prop) : Prop := ∀ a b, R a b ↔ before ops s a b = true

theorem Compares.congr (h : Compares ops s R) (hnodes : t.nodes.map Node.forget = s.nodes.map Node.forget)
    (hfine : t.fineTurnsEnabled = s.fineTurnsEnabled) : Compares ops t R := by
  intro a b
  rw [h a b, before_congr hfine (node_forget_congr ops hnodes a) (node_forget_congr ops hnodes b)]

/-! ### Moves -/

theorem openAt_swapOpen {a b : ℕ} (ha : a < s.openNodes.length) (hb : b < s.openNodes.length) :
    openAt (swapOpen s a b) = swap (openAt s) a b := by
  funext q
  change ((s.openNodes.set a (openAt s b)).set b (openAt s a)).getD q 0 = _
  rw [List.getD_eq_getElem?_getD, List.getElem?_set, List.getElem?_set, List.length_set, swap]
  by_cases hqb : b = q
  · subst hqb
    by_cases hba : b = a
    · subst hba
      simp [hb]
    · simp [hb, hba]
  · by_cases hqa : a = q
    · subst hqa
      simp [ha, hqb]
    · simp [hqa, hqb, Ne.symm hqa, Ne.symm hqb, openAt]

theorem length_swapOpen (s : Search F) (a b : ℕ) : (swapOpen s a b).openNodes.length = s.openNodes.length := by
  change ((s.openNodes.set a (openAt s b)).set b (openAt s a)).length = _
  rw [List.length_set, List.length_set]

theorem Compares.swapOpen (h : Compares ops s R) (a b : ℕ) : Compares ops (swapOpen s a b) R := by
  refine h.congr ?_ rfl
  unfold LivingSurfaceDetour.swapOpen
  dsimp only
  rw [forget_setPlace, forget_setPlace]

/-- A node that rises ends where it is not before its parent. -/
theorem promote_ordered (hR : Preference R) (fuel : ℕ) {position : ℕ} (hcompares : Compares ops s R)
    (h : Rising R (openAt s) s.openNodes.length position) (hposition : position < s.openNodes.length)
    (hfuel : position ≤ fuel) :
    Ordered R (openAt (promote ops fuel s position)) (promote ops fuel s position).openNodes.length := by
  induction fuel generalizing s position with
  | zero => exact h.stop (.inl (Nat.le_zero.mp hfuel))
  | succ fuel ih =>
    unfold promote
    split
    next hless =>
      have hparent : parent position < position := parent_lt hless.1
      have hlt := hparent.trans hposition
      have hstep := h.step hR hposition hless.1 ((hcompares _ _).mpr hless.2)
      have hswap := openAt_swapOpen hposition hlt
      refine ih (hcompares.swapOpen _ _) ?_ ?_ ?_
      · rw [length_swapOpen]
        rw [← hswap] at hstep
        exact hstep
      · rw [length_swapOpen]
        exact hlt
      · exact Nat.le_of_lt_succ (hparent.trans_le hfuel)
    next hstop =>
      refine h.stop ?_
      by_cases hzero : position = 0
      · exact .inl hzero
      · exact .inr fun hless => hstop ⟨hzero, (hcompares _ _).mp hless⟩

/-- A node that sinks ends where no node under it is before it. -/
theorem sink_ordered (hR : Preference R) (fuel : ℕ) {position : ℕ} (hcompares : Compares ops s R)
    (h : Sinking R (openAt s) s.openNodes.length position) (hfuel : s.openNodes.length ≤ position + fuel) :
    Ordered R (openAt (sink ops fuel s position)) (sink ops fuel s position).openNodes.length := by
  induction fuel generalizing s position with
  | zero =>
    refine h.stop fun q hq hq0 hqp => ?_
    have hless := parent_lt hq0
    omega
  | succ fuel ih =>
    unfold sink
    dsimp only
    split
    next hchild =>
      generalize hnext : (if (decide (position * 2 + 1 + 1 < s.openNodes.length) &&
        before ops s (openAt s (position * 2 + 1 + 1)) (openAt s (position * 2 + 1))) = true then position * 2 + 1 + 1
        else position * 2 + 1) = next
      -- The one of both children that is not after the other.
      have hchosen : next < s.openNodes.length ∧ next ≠ 0 ∧ parent next = position ∧
          ∀ q < s.openNodes.length, q ≠ 0 → parent q = position → ¬R (openAt s q) (openAt s next) := by
        subst hnext
        split
        next hboth =>
          rw [Bool.and_eq_true, decide_eq_true_eq] at hboth
          refine ⟨hboth.1, by omega, (parent_eq_iff (by omega)).mpr (.inr rfl), fun q hq hq0 hqp => ?_⟩
          have hless := (hcompares _ _).mpr hboth.2
          rcases (parent_eq_iff hq0).mp hqp with rfl | rfl
          · exact hR.asymm hless
          · exact fun hself => hR.asymm hself hself
        next hboth =>
          rw [Bool.and_eq_true, decide_eq_true_eq] at hboth
          refine ⟨hchild, by omega, (parent_eq_iff (by omega)).mpr (.inl rfl), fun q hq hq0 hqp => ?_⟩
          rcases (parent_eq_iff hq0).mp hqp with rfl | rfl
          · exact fun hself => hR.asymm hself hself
          · exact fun hless => hboth ⟨hq, (hcompares _ _).mp hless⟩
      obtain ⟨hlt, hnext0, hparent, hleast⟩ := hchosen
      split
      next hstop =>
        rw [Bool.not_eq_true', ← Bool.not_eq_true] at hstop
        refine h.stop fun q hq hq0 hqp => ?_
        exact hR.trans (mt (hcompares _ _).mp hstop) (hleast q hq hq0 hqp)
      next hless =>
        rw [Bool.not_eq_true', Bool.not_eq_false] at hless
        have hup : position < next := hparent ▸ parent_lt hnext0
        have hstep := h.step hR hlt hnext0 hparent hleast ((hcompares _ _).mpr hless)
        rw [← openAt_swapOpen (hup.trans hlt) hlt, ← length_swapOpen s position next] at hstep
        refine ih (hcompares.swapOpen _ _) hstep ?_
        rw [length_swapOpen]
        omega
    next hlast =>
      refine h.stop fun q hq hq0 hqp => ?_
      have hchild := (parent_eq_iff hq0).mp hqp
      omega

/-! ### Waiting and leaving -/

/-- The waiting nodes are in order. -/
def InOrder (ops : FloatOps F) (s : Search F) : Prop :=
  Ordered (fun a b => before ops s a b = true) (openAt s) s.openNodes.length

theorem InOrder.of_compares (hcompares : Compares ops s R) (h : Ordered R (openAt s) s.openNodes.length) :
    InOrder ops s :=
  fun q hq hq0 hless => h q hq hq0 ((hcompares _ _).mpr hless)

theorem InOrder.congr (h : InOrder ops s) (hnodes : t.nodes = s.nodes) (hopen : t.openNodes = s.openNodes)
    (hfine : t.fineTurnsEnabled = s.fineTurnsEnabled) : InOrder ops t := by
  have hcompares : Compares ops t fun a b => before ops s a b = true :=
    Compares.congr (fun _ _ => Iff.rfl) (congrArg _ hnodes) hfine
  refine .of_compares hcompares ?_
  unfold InOrder openAt at *
  rwa [hopen]

theorem AllCounted.congr (h : AllCounted ops s) (hnodes : t.nodes.map Node.forget = s.nodes.map Node.forget) :
    AllCounted ops t := by
  intro i
  obtain ⟨hcost, hremaining, -⟩ := total_of_forget ops (node_forget_congr ops hnodes i) true
  exact ⟨hcost ▸ (h i).cost, hremaining ▸ (h i).remaining⟩

theorem queue_fineTurns (ops : FloatOps F) (s : Search F) (i : ℕ) :
    (queue ops s i).fineTurnsEnabled = s.fineTurnsEnabled := by
  obtain ⟨nodes, openNodes, h⟩ := queue_eq ops s i
  rw [h]

/-- A node that joins the others rises from the end. -/
theorem queue_inOrder (hops : SinglePrecision ops) (hcounted : AllCounted ops s)
    (hplace : (s.node ops i).heapPosition = none) (hnodes : (queue ops s i).nodes.map Node.forget = s.nodes.map Node.forget)
    (h : InOrder ops s) : InOrder ops (queue ops s i) := by
  have hcompares : Compares ops (append s i) fun a b => before ops s a b = true :=
    Compares.congr (fun _ _ => Iff.rfl) (forget_setPlace s i _) rfl
  have hlength : (append s i).openNodes.length = s.openNodes.length + 1 := by
    change (s.openNodes ++ [i]).length = _
    rw [List.length_append, List.length_singleton]
  have hrising : Rising (fun a b => before ops s a b = true) (openAt (append s i)) (append s i).openNodes.length
      s.openNodes.length := by
    rw [hlength]
    refine h.rising_last fun q hq => ?_
    change (s.openNodes ++ [i]).getD q 0 = s.openNodes.getD q 0
    rw [List.getD_eq_getElem?_getD, List.getD_eq_getElem?_getD, List.getElem?_append_left hq]
  have hordered := promote_ordered (preference_before hops hcounted) s.openNodes.length hcompares hrising
    (by rw [hlength]; omega) le_rfl
  have hqueue : queue ops s i = promote ops s.openNodes.length (append s i) s.openNodes.length := by
    unfold queue
    rw [hplace]
  rw [← hqueue] at hordered
  exact .of_compares (Compares.congr (fun _ _ => Iff.rfl) hnodes (queue_fineTurns ops s i)) hordered

theorem openAt_of_getElem? {p : ℕ} (h : s.openNodes[p]? = some i) : openAt s p = i := by
  rw [openAt, List.getD_eq_getElem?_getD, h]
  rfl

theorem Heaped.openAt_injective (h : Heaped s) {p q : ℕ} (hp : p < s.openNodes.length) (hq : q < s.openNodes.length)
    (heq : openAt s p = openAt s q) : p = q :=
  h.injective (getElem?_openAt hp) (heq ▸ getElem?_openAt hq)

/-- A comparison after one node has become cheaper. -/
structure Improves (R R' : ℕ → ℕ → Prop) (i : ℕ) : Prop where
  others : ∀ a b, a ≠ i → b ≠ i → (R' a b ↔ R a b)
  under : ∀ a, a ≠ i → R' a i → R a i

/-- Where a node has become cheaper, it may have to rise, and the others are in order. -/
theorem rising_of_improves {R' : ℕ → ℕ → Prop} (hR : Preference R) (himproves : Improves R R' i) (hheaped : Heaped s)
    (h : Ordered R (openAt s) s.openNodes.length) {p : ℕ} (hp : s.openNodes[p]? = some i) :
    Rising R' (openAt s) s.openNodes.length p := by
  obtain ⟨hlt, -⟩ := List.getElem?_eq_some_iff.mp hp
  have hat := openAt_of_getElem? hp
  have hother : ∀ q < s.openNodes.length, q ≠ p → openAt s q ≠ i := by
    intro q hq hqp heq
    exact hqp (hheaped.openAt_injective hq hlt (heq.trans hat.symm))
  refine ⟨fun q hq hq0 hqp hless => ?_, fun q hq hq0 hqp hp0 hless => ?_⟩
  · have hparent := parent_lt hq0
    by_cases hunder : parent q = p
    · rw [hunder, hat] at hless
      have hold := himproves.under _ (hother q hq hqp) hless
      rw [← hat, ← hunder] at hold
      exact h q hq hq0 hold
    · have hold := (himproves.others _ _ (hother q hq hqp) (hother _ (hparent.trans hq) hunder)).mp hless
      exact h q hq hq0 hold
  · have hparent := parent_lt hp0
    have hqne : q ≠ p := by
      rintro rfl
      exact (parent_lt hq0).ne hqp
    have hold := (himproves.others _ _ (hother q hq hqne) (hother _ (hparent.trans hlt) hparent.ne)).mp hless
    have hfirst := h p hlt hp0
    have hsecond := h q hq hq0
    rw [hqp] at hsecond
    exact hR.trans hfirst hsecond hold

/-- A waiting node that has become cheaper rises from its place. -/
theorem queue_improved {R' : ℕ → ℕ → Prop} (hR : Preference R) (hR' : Preference R') (himproves : Improves R R' i)
    (hcompares : Compares ops s R') (hheaped : Heaped s) (h : Ordered R (openAt s) s.openNodes.length) {p : ℕ}
    (hplace : s.place i = some p) : InOrder ops (queue ops s i) := by
  have hp := (hheaped i p).mpr hplace
  obtain ⟨hlt, -⟩ := List.getElem?_eq_some_iff.mp hp
  have hnodes := (queue_waiting ops hheaped hplace).nodes
  have hordered := promote_ordered hR' p hcompares (rising_of_improves hR himproves hheaped h hp) hlt le_rfl
  have hnode : (s.node ops i).heapPosition = some p := by
    have hi := place_lt hplace
    rw [Search.node, List.getD_eq_getElem?_getD]
    rw [Search.place, List.getElem?_eq_getElem hi] at hplace
    rw [List.getElem?_eq_getElem hi]
    exact hplace
  have hqueue : queue ops s i = promote ops p s p := by
    unfold queue
    rw [hnode]
  rw [← hqueue] at hordered
  exact .of_compares (hcompares.congr hnodes (queue_fineTurns ops s i)) hordered

/-- What pops is a least one, and the others stay in order. -/
theorem pop_inOrder (hops : SinglePrecision ops) (hcounted : AllCounted ops s) (hheaped : Heaped s)
    (h : InOrder ops s) (hne : s.openNodes ≠ []) : InOrder ops (pop ops s).2 ∧
      ∀ j ∈ s.openNodes, before ops s j (pop ops s).1 = false := by
  obtain ⟨first, rest, hopen⟩ := List.exists_cons_of_ne_nil hne
  obtain ⟨hfirst, hleft⟩ := pop_left ops hheaped hopen
  have hat : openAt s 0 = first := by simp [openAt, hopen]
  have hR := preference_before hops hcounted
  constructor
  · generalize hm : (s.setNode first fun node => { node with heapPosition := none }) = m
    have hmopen : m.openNodes = s.openNodes := by rw [← hm]; rfl
    have hmnodes : m.nodes.map Node.forget = s.nodes.map Node.forget := by rw [← hm]; exact forget_setPlace _ _ _
    have hmfine : m.fineTurnsEnabled = s.fineTurnsEnabled := by rw [← hm]; rfl
    have hfine : (pop ops s).2.fineTurnsEnabled = s.fineTurnsEnabled := by
      obtain ⟨nodes, openNodes, hpop⟩ := pop_eq ops s
      rw [hpop]
    refine .of_compares (Compares.congr (fun _ _ => Iff.rfl) hleft.nodes hfine) ?_
    unfold pop
    dsimp only
    rw [hat, hm]
    split
    next hone =>
      intro q hq
      change q < m.openNodes.dropLast.length at hq
      rw [List.length_dropLast, hone] at hq
      contradiction
    next hmany =>
      have hlast : ∀ q < m.openNodes.length - 1, q ≠ 0 → openAt (replaceFirst m) q = openAt s q := by
        intro q hq hq0
        change ((m.openNodes.set 0 _).dropLast).getD q 0 = s.openNodes.getD q 0
        rw [List.getD_eq_getElem?_getD, List.getD_eq_getElem?_getD, List.getElem?_dropLast, List.length_set,
          if_pos hq, List.getElem?_set_ne (Ne.symm hq0), hmopen]
      have hlength : (replaceFirst m).openNodes.length = m.openNodes.length - 1 := by
        change ((m.openNodes.set 0 _).dropLast).length = _
        rw [List.length_dropLast, List.length_set]
      have hcompares : Compares ops (replaceFirst m) fun a b => before ops s a b = true :=
        Compares.congr (Compares.congr (fun _ _ => Iff.rfl) hmnodes hmfine) (forget_setPlace _ _ _) rfl
      refine sink_ordered hR _ hcompares ?_ (by omega)
      rw [hlength]
      exact h.sinking_first (by rw [hmopen]; omega) hlast
  · intro j hj
    obtain ⟨q, hq⟩ := List.mem_iff_getElem?.mp hj
    obtain ⟨hlt, -⟩ := List.getElem?_eq_some_iff.mp hq
    have hleast := h.not_before_first hR hlt
    rw [openAt_of_getElem? hq, hat] at hleast
    rw [hfirst]
    exact Bool.eq_false_iff.mpr hleast

end AIWorld.Agent.LivingSurfaceDetour
