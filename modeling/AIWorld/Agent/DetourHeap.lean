import AIWorld.Agent.DetourParts

/-! The heap of waiting nodes. Every node knows its place, and moving nodes about changes nothing else of
them. The order of the heap plays no part here. -/

namespace AIWorld.Agent.LivingSurfaceDetour

open Lib

variable {F : Type} {ops : FloatOps F} {s t : Search F}

/-- A node without its place. -/
def Node.forget (node : Node F) : Node F := { node with heapPosition := none }

/-- The place that a node knows. -/
def Search.place (s : Search F) (i : ℕ) : Option ℕ := s.nodes[i]?.bind Node.heapPosition

/-- Nodes and places belong to each other. -/
def Heaped (s : Search F) : Prop := ∀ i p, s.openNodes[p]? = some i ↔ s.place i = some p

theorem Heaped.injective (h : Heaped s) {p q i : ℕ} (hp : s.openNodes[p]? = some i) (hq : s.openNodes[q]? = some i) :
    p = q :=
  Option.some.inj (((h i p).mp hp).symm.trans ((h i q).mp hq))

theorem Heaped.mem_iff (h : Heaped s) {i : ℕ} : i ∈ s.openNodes ↔ ∃ p, s.place i = some p := by
  rw [List.mem_iff_getElem?]
  exact exists_congr fun p => h i p

theorem getElem?_setNode (s : Search F) (j : ℕ) (f : Node F → Node F) (i : ℕ) :
    (s.setNode j f).nodes[i]? = if j = i then s.nodes[i]?.map f else s.nodes[i]? := by
  rw [Search.setNode, List.getElem?_modify]
  split_ifs <;> cases s.nodes[i]? <;> rfl

theorem place_setPlace (s : Search F) (j : ℕ) (q : Option ℕ) (i : ℕ) :
    (s.setNode j fun node => { node with heapPosition := q }).place i =
      if j = i ∧ i < s.nodes.length then q else s.place i := by
  rw [Search.place, Search.place, getElem?_setNode]
  by_cases hlt : i < s.nodes.length
  · rw [List.getElem?_eq_getElem hlt]
    by_cases hj : j = i <;> simp [hj, hlt]
  · rw [List.getElem?_eq_none (by omega)]
    simp [hlt]

theorem forget_setPlace (s : Search F) (j : ℕ) (q : Option ℕ) :
    (s.setNode j fun node => { node with heapPosition := q }).nodes.map Node.forget = s.nodes.map Node.forget := by
  refine List.ext_getElem? fun i => ?_
  rw [List.getElem?_map, List.getElem?_map, getElem?_setNode]
  split_ifs
  · rw [Option.map_map]
    rfl
  · rfl

/-- The nodes are moved about in the heap. -/
structure Reheaped (s t : Search F) : Prop where
  nodes : t.nodes.map Node.forget = s.nodes.map Node.forget
  heaped : Heaped t
  perm : t.openNodes.Perm s.openNodes

theorem Reheaped.refl (h : Heaped s) : Reheaped s s := ⟨rfl, h, List.Perm.refl _⟩

theorem Reheaped.trans {m : Search F} (h : Reheaped s m) (h' : Reheaped m t) : Reheaped s t :=
  ⟨h'.nodes.trans h.nodes, h'.heaped, h'.perm.trans h.perm⟩

/-! ### Moves -/

/-- Swapping two entries on either side of a bijection. -/
theorem swap_iff {get place : ℕ → Option ℕ} (h : ∀ i p, get p = some i ↔ place i = some p) {a b x y : ℕ}
    (ha : get a = some x) (hb : get b = some y) (i p : ℕ) :
    (if p = b then some x else if p = a then some y else get p) = some i ↔
      (if i = x then some b else if i = y then some a else place i) = some p := by
  grind

theorem place_lt {i p : ℕ} (h : s.place i = some p) : i < s.nodes.length := by
  by_contra hge
  simp [Search.place, List.getElem?_eq_none (Nat.not_lt.mp hge)] at h

theorem getElem?_openAt {p : ℕ} (h : p < s.openNodes.length) : s.openNodes[p]? = some (openAt s p) := by
  simp [openAt, h]

theorem swapOpen_reheaped (h : Heaped s) {a b : ℕ} (ha : a < s.openNodes.length) (hb : b < s.openNodes.length) :
    Reheaped s (swapOpen s a b) := by
  have hfirst := getElem?_openAt ha
  have hsecond := getElem?_openAt hb
  have hfirstlt := place_lt ((h _ _).mp hfirst)
  have hsecondlt := place_lt ((h _ _).mp hsecond)
  refine ⟨?_, fun i p => ?_, ?_⟩
  · unfold swapOpen
    dsimp only
    rw [forget_setPlace, forget_setPlace]
  · have hget : (swapOpen s a b).openNodes[p]? =
        if p = b then some (openAt s a) else if p = a then some (openAt s b) else s.openNodes[p]? := by
      change ((s.openNodes.set a (openAt s b)).set b (openAt s a))[p]? = _
      rw [List.getElem?_set, List.getElem?_set, List.length_set]
      by_cases hpb : b = p
      · simp [← hpb, hb]
      · by_cases hpa : a = p
        · subst hpa
          simp [hpb, Ne.symm hpb, ha]
        · simp [hpb, hpa, Ne.symm hpb, Ne.symm hpa]
    have hplace : (swapOpen s a b).place i =
        if i = openAt s a then some b else if i = openAt s b then some a else s.place i := by
      unfold swapOpen
      dsimp only
      rw [place_setPlace, place_setPlace]
      have hlength : ∀ j q, (Search.setNode { s with openNodes := (s.openNodes.set a (openAt s b)).set b (openAt s a) } j
          fun node => { node with heapPosition := q }).nodes.length = s.nodes.length := by
        intro j q
        simp [Search.setNode]
      rw [hlength]
      by_cases hia : openAt s a = i
      · subst hia
        simp [hfirstlt]
      · by_cases hib : openAt s b = i
        · subst hib
          simp [hia, Ne.symm hia, hsecondlt]
        · simp only [hia, hib, Ne.symm hia, Ne.symm hib, false_and, if_false]
          rfl
    rw [hget, hplace]
    exact swap_iff h hfirst hsecond i p
  · change ((s.openNodes.set a (openAt s b)).set b (openAt s a)).Perm s.openNodes
    have hperm := List.set_set_perm ha hb
    have ha' : s.openNodes[a] = openAt s a := by simp [openAt, ha]
    have hb' : s.openNodes[b] = openAt s b := by simp [openAt, hb]
    rwa [ha', hb'] at hperm

theorem promote_reheaped (ops : FloatOps F) (fuel : ℕ) {position : ℕ} (h : Heaped s)
    (hposition : position < s.openNodes.length) : Reheaped s (promote ops fuel s position) := by
  induction fuel generalizing s position with
  | zero => exact .refl h
  | succ fuel ih =>
    unfold promote
    split
    · have hparent : (position - 1) / 2 < s.openNodes.length := by omega
      have hswap := swapOpen_reheaped h hposition hparent
      exact hswap.trans (ih hswap.heaped (hswap.perm.length_eq ▸ hparent))
    · exact .refl h

theorem sink_reheaped (ops : FloatOps F) (fuel position : ℕ) (h : Heaped s) : Reheaped s (sink ops fuel s position) := by
  induction fuel generalizing s position with
  | zero => exact .refl h
  | succ fuel ih =>
    unfold sink
    dsimp only
    split
    next hchild =>
      generalize hnext : (if (decide (position * 2 + 1 + 1 < s.openNodes.length) &&
        before ops s (openAt s (position * 2 + 1 + 1)) (openAt s (position * 2 + 1))) = true then position * 2 + 1 + 1
        else position * 2 + 1) = next
      have hlt : next < s.openNodes.length := by
        subst hnext
        split
        next hboth =>
          rw [Bool.and_eq_true, decide_eq_true_eq] at hboth
          exact hboth.1
        next => exact hchild
      split
      · exact .refl h
      · have hswap := swapOpen_reheaped h (a := position) (by omega) hlt
        exact hswap.trans (ih next hswap.heaped)
    next => exact .refl h

/-! ### Waiting and leaving -/

/-- A node that waits is moved; another one joins. -/
theorem queue_waiting (ops : FloatOps F) {i p : ℕ} (h : Heaped s) (hplace : s.place i = some p) :
    Reheaped s (queue ops s i) := by
  have hlt := place_lt hplace
  have hnode : (s.node ops i).heapPosition = some p := by
    rw [Search.node, List.getD_eq_getElem?_getD]
    rw [Search.place, List.getElem?_eq_getElem hlt] at hplace
    rw [List.getElem?_eq_getElem hlt]
    exact hplace
  unfold queue
  rw [hnode]
  obtain ⟨hp, -⟩ := List.getElem?_eq_some_iff.mp ((h i p).mpr hplace)
  exact promote_reheaped ops p h hp

/-- The nodes keep all but their places, and one more waits. -/
structure Enqueued (s t : Search F) (i : ℕ) : Prop where
  nodes : t.nodes.map Node.forget = s.nodes.map Node.forget
  heaped : Heaped t
  perm : t.openNodes.Perm (s.openNodes ++ [i])

theorem queue_enqueued (ops : FloatOps F) {i : ℕ} (h : Heaped s) (hlt : i < s.nodes.length) (hplace : s.place i = none) :
    Enqueued s (queue ops s i) i := by
  have hnode : (s.node ops i).heapPosition = none := by
    rw [Search.node, List.getD_eq_getElem?_getD, List.getElem?_eq_getElem hlt]
    rwa [Search.place, List.getElem?_eq_getElem hlt] at hplace
  unfold queue
  rw [hnode]
  dsimp only
  have hforget : (append s i).nodes.map Node.forget = s.nodes.map Node.forget := forget_setPlace s i _
  have hheaped : Heaped (append s i) := by
    intro j p
    have hplaces : (append s i).place j =
        if i = j ∧ j < s.nodes.length then some s.openNodes.length else s.place j := place_setPlace s i _ j
    have hold := h j p
    change (s.openNodes ++ [i])[p]? = some j ↔ _
    rw [hplaces]
    by_cases hij : i = j
    · subst hij
      rw [hplace] at hold
      simp only [hlt, and_self, if_true, Option.some.injEq]
      by_cases hp : p < s.openNodes.length
      · rw [List.getElem?_append_left hp, hold]
        simp only [reduceCtorEq, false_iff]
        omega
      · rw [List.getElem?_append_right (by omega), List.getElem?_singleton]
        split_ifs <;> simp <;> omega
    · rw [if_neg (fun hboth => hij hboth.1), ← hold]
      by_cases hp : p < s.openNodes.length
      · rw [List.getElem?_append_left hp]
      · rw [List.getElem?_append_right (by omega), List.getElem?_singleton, List.getElem?_eq_none (by omega)]
        split_ifs <;> simp [hij]
  have hlast : s.openNodes.length < (append s i).openNodes.length := by simp [append]
  obtain ⟨hnodes, hheaped', hperm⟩ := promote_reheaped ops s.openNodes.length hheaped hlast
  exact ⟨hnodes.trans hforget, hheaped', hperm⟩

/-- The first of the heap leaves it. -/
structure Left (s t : Search F) (i : ℕ) : Prop where
  nodes : t.nodes.map Node.forget = s.nodes.map Node.forget
  heaped : Heaped t
  perm : s.openNodes.Perm (i :: t.openNodes)

theorem replaceFirst_left {first : ℕ} {rest : List ℕ} (hne : rest ≠ []) (hopen : s.openNodes = first :: rest)
    (hplaces : ∀ i p, (p ≠ 0 ∧ s.openNodes[p]? = some i) ↔ s.place i = some p) :
    (replaceFirst s).nodes.map Node.forget = s.nodes.map Node.forget ∧ Heaped (replaceFirst s) ∧
      rest.Perm (replaceFirst s).openNodes := by
  obtain ⟨front, last, rfl⟩ := List.eq_nil_or_concat rest |>.resolve_left hne
  have hlength : s.openNodes.length = front.length + 2 := by simp [hopen]
  have hlast : openAt s (s.openNodes.length - 1) = last := by
    simp [openAt, hopen]
  have hkept : (s.openNodes.set 0 last).dropLast = last :: front := by
    rw [hopen, List.concat_eq_append, List.set_cons_zero, ← List.cons_append, List.dropLast_concat]
  have hstate : replaceFirst s = Search.setNode { s with openNodes := last :: front } last
      fun node => { node with heapPosition := some 0 } := by
    unfold replaceFirst
    rw [hlast, hkept]
    rfl
  have hlastplace : s.place last = some (front.length + 1) := by
    refine (hplaces _ _).mp ⟨by omega, ?_⟩
    simp [hopen]
  have hlt := place_lt hlastplace
  rw [hstate]
  refine ⟨forget_setPlace _ _ _, fun i p => ?_, ?_⟩
  · rw [place_setPlace]
    change (last :: front)[p]? = some i ↔ (if last = i ∧ i < s.nodes.length then some 0 else s.place i) = some p
    by_cases hi : last = i
    · subst hi
      rw [if_pos ⟨rfl, hlt⟩]
      obtain - | p := p
      · simp
      · have hnone : front[p]? ≠ some last := by
          intro hfront
          obtain ⟨hp, -⟩ := List.getElem?_eq_some_iff.mp hfront
          have hplace := (hplaces last (p + 1)).mp ⟨by omega, by simpa [hopen, List.getElem?_append_left hp] using hfront⟩
          rw [hlastplace, Option.some.injEq] at hplace
          omega
        simpa using hnone
    · rw [if_neg (fun hboth => hi hboth.1), ← hplaces]
      obtain - | p := p
      · simp [hi]
      · rw [hopen]
        rw [and_iff_right (Nat.succ_ne_zero p), List.getElem?_cons_succ, List.getElem?_cons_succ, List.concat_eq_append,
          List.getElem?_append]
        split_ifs with hp
        · rfl
        · rw [List.getElem?_eq_none (by omega), List.getElem?_singleton]
          split_ifs <;> simp [hi]
  · rw [List.concat_eq_append]
    exact List.perm_append_comm

/-- What pops is the first of the heap. -/
theorem pop_left (ops : FloatOps F) {first : ℕ} {rest : List ℕ} (h : Heaped s) (hopen : s.openNodes = first :: rest) :
    (pop ops s).1 = first ∧ Left s (pop ops s).2 first := by
  have hfirst : openAt s 0 = first := by simp [openAt, hopen]
  have hplace : s.place first = some 0 := (h _ _).mp (by simp [hopen])
  have hlt := place_lt hplace
  generalize hm : (s.setNode first fun node => { node with heapPosition := none }) = m
  have hmopen : m.openNodes = first :: rest := by rw [← hm]; exact hopen
  have hforget : m.nodes.map Node.forget = s.nodes.map Node.forget := by rw [← hm]; exact forget_setPlace _ _ _
  have hplaces : ∀ i p, (p ≠ 0 ∧ m.openNodes[p]? = some i) ↔ m.place i = some p := by
    intro i p
    have hmplace : m.place i = if first = i ∧ i < s.nodes.length then none else s.place i := by
      rw [← hm]
      exact place_setPlace _ _ _ _
    rw [hmplace, hmopen, ← hopen, h i p]
    by_cases hi : first = i
    · subst hi
      rw [if_pos ⟨rfl, hlt⟩, hplace]
      simp only [Option.some.injEq, reduceCtorEq, iff_false, not_and]
      omega
    · rw [if_neg (fun hboth => hi hboth.1)]
      refine ⟨fun hboth => hboth.2, fun hp => ⟨?_, hp⟩⟩
      rintro rfl
      have hzero := (h i 0).mpr hp
      rw [hopen, List.getElem?_cons_zero, Option.some.injEq] at hzero
      exact hi hzero
  unfold pop
  dsimp only
  rw [hfirst, hm]
  obtain rfl | hne := eq_or_ne rest []
  · rw [if_pos (by simp [hmopen])]
    refine ⟨rfl, hforget, fun i p => ?_, ?_⟩
    · have hold := hplaces i p
      change m.openNodes.dropLast[p]? = some i ↔ m.place i = some p
      rw [← hold, hmopen]
      obtain - | p := p <;> simp
    · change s.openNodes.Perm (first :: m.openNodes.dropLast)
      rw [hopen, hmopen]
      exact List.Perm.refl _
  · rw [if_neg (by simpa [hmopen] using hne)]
    obtain ⟨hnodes, hheaped, hperm⟩ := replaceFirst_left hne hmopen hplaces
    have hsink := sink_reheaped ops (replaceFirst m).openNodes.length 0 hheaped
    refine ⟨rfl, hsink.nodes.trans (hnodes.trans hforget), hsink.heaped, ?_⟩
    rw [hopen]
    exact (hperm.trans hsink.perm.symm).cons first

end AIWorld.Agent.LivingSurfaceDetour
