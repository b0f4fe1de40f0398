import AIWorld.Lib.Machine
import AIWorld.Lib.OrdMap
import Mathlib.Data.List.Nodup
import Mathlib.Data.List.Perm.Subperm
import Mathlib.Order.Basic

/-! Paged scans of a collection that changes meanwhile. The collection has sorted
keys; a page holds the first keys above a cursor and up to a limit, and the
cursor moves to the last key of the page. Between two pages the collection may
lose any keys and gain keys above the limit. Over a whole scan the pages are
increasing, hold every key that stayed, and run out after as many pages as there
were keys. -/

namespace Lib.CursorScan

variable {α : Type*} [LinearOrder α]

/-- The first keys above the cursor and up to the limit. -/
def page (ks : List α) (after limit : α) (n : ℕ) : List α :=
  (ks.filter fun k => after < k ∧ k ≤ limit).take n

variable {ks : List α} {after limit k : α} {n : ℕ}

theorem dropWhile_le_eq (h : ks.Pairwise (· < ·)) (after : α) :
    ks.dropWhile (· ≤ after) = ks.filter (after < ·) := by
  induction ks with
  | nil => rfl
  | cons x ks ih =>
    obtain ⟨hx, hks⟩ := List.pairwise_cons.mp h
    by_cases hle : x ≤ after
    · rw [List.dropWhile_cons_of_pos (by simpa using hle), ih hks,
        List.filter_cons_of_neg (by simpa using hle)]
    · have hall : ∀ k ∈ x :: ks, after < k := by
        intro k hk
        rcases List.mem_cons.mp hk with rfl | hk
        · exact not_le.mp hle
        · exact (not_le.mp hle).trans (hx k hk)
      rw [List.dropWhile_cons_of_neg (by simpa using hle)]
      exact (List.filter_eq_self.mpr (by simpa using hall)).symm

theorem takeWhile_le_eq (h : ks.Pairwise (· < ·)) (limit : α) :
    ks.takeWhile (· ≤ limit) = ks.filter (· ≤ limit) := by
  induction ks with
  | nil => rfl
  | cons x ks ih =>
    obtain ⟨hx, hks⟩ := List.pairwise_cons.mp h
    by_cases hle : x ≤ limit
    · rw [List.takeWhile_cons_of_pos (by simpa using hle), ih hks,
        List.filter_cons_of_pos (by simpa using hle)]
    · have hnone : ∀ k ∈ x :: ks, ¬ k ≤ limit := by
        intro k hk
        rcases List.mem_cons.mp hk with rfl | hk
        · exact hle
        · exact not_le.mpr ((not_le.mp hle).trans (hx k hk))
      rw [List.takeWhile_cons_of_neg (by simpa using hle)]
      exact (List.filter_eq_nil_iff.mpr (by simpa using hnone)).symm

/-- A page found by skipping to the cursor and stopping at the limit. -/
theorem walk_eq_page (h : ks.Pairwise (· < ·)) (after limit : α) (n : ℕ) :
    ((ks.dropWhile (· ≤ after)).takeWhile (· ≤ limit)).take n = page ks after limit n := by
  rw [dropWhile_le_eq h, takeWhile_le_eq (h.filter _), List.filter_filter, page]
  congr 1
  refine List.filter_congr fun k _ => ?_
  simp [and_comm]

theorem page_nil (h : n = 0 ∨ limit ≤ after) : page ks after limit n = [] := by
  rcases h with rfl | hle
  · exact List.take_zero
  · rw [page, List.filter_eq_nil_iff.mpr, List.take_nil]
    simp only [decide_eq_true_eq, not_and, not_le]
    exact fun k _ hk => hle.trans_lt hk

theorem mem_of_mem_page (h : k ∈ page ks after limit n) : k ∈ ks ∧ after < k ∧ k ≤ limit := by
  have hk := List.mem_filter.mp (List.mem_of_mem_take h)
  exact ⟨hk.1, by simpa using hk.2⟩

theorem page_sorted (h : ks.Pairwise (· < ·)) : (page ks after limit n).Pairwise (· < ·) :=
  (h.filter _).sublist (List.take_sublist _ _)

/-- A key that a page leaves for later is above all of the page. -/
theorem lt_of_not_mem_page (h : ks.Pairwise (· < ·)) (hk : k ∈ ks) (hafter : after < k)
    (hlimit : k ≤ limit) (hnot : k ∉ page ks after limit n) :
    ∀ x ∈ page ks after limit n, x < k := by
  have hmem : k ∈ ks.filter fun k => after < k ∧ k ≤ limit :=
    List.mem_filter.mpr ⟨hk, by simpa using ⟨hafter, hlimit⟩⟩
  have hsorted := h.filter fun k => after < k ∧ k ≤ limit
  rw [← List.take_append_drop n (ks.filter _)] at hmem hsorted
  have hdrop := (List.mem_append.mp hmem).resolve_left hnot
  exact fun x hx => (List.pairwise_append.mp hsorted).2.2 x hx k hdrop

theorem not_mem_of_page_nil (hn : 0 < n) (hnil : page ks after limit n = []) (hk : k ∈ ks)
    (hafter : after < k) : ¬ k ≤ limit := by
  intro hlimit
  have hmem : k ∈ ks.filter fun k => after < k ∧ k ≤ limit :=
    List.mem_filter.mpr ⟨hk, by simpa using ⟨hafter, hlimit⟩⟩
  rcases List.take_eq_nil_iff.mp hnil with h0 | hnone
  · omega
  · rw [hnone] at hmem
    contradiction

theorem le_cursor {p : List α} {c : α} (h : ∀ x ∈ p, c < x) : c ≤ p.getLast?.getD c := by
  cases hlast : p.getLast? with
  | none => exact le_rfl
  | some x => exact le_of_lt (h x (List.mem_of_getLast? hlast))

/-! ### Scans -/

section Scan
variable {σ ι ο ν : Type*}

/-- The system next to a cursor: its own inputs, and requests for a page. -/
def scan (M : Machine σ ι ο) (pageOf : σ → α → ν → List α) :
    Machine (σ × α) (ι ⊕ ν) (ο ⊕ List α) where
  step
    | (s, c), .inl i => (M.step s i).map fun p => (.inl p.1, (p.2, c))
    | (s, c), .inr n =>
      let p := pageOf s c n
      some (.inr p, (s, p.getLast?.getD c))

/-- The pages of a run. -/
def pages (tr : List (Event (σ × α) (ι ⊕ ν) (ο ⊕ List α))) : List (List α) :=
  tr.filterMap fun e => e.output.getRight?

/-- A collection with sorted keys that is read by pages up to a limit, and whose
allowed changes bring no key up to that limit. -/
structure Pages (M : Machine σ ι ο) (pageOf : σ → α → ν → List α) (keys : σ → List α)
    (size : ν → ℕ) (limit : α) (Inv : σ → Prop) (Allowed : ι → Prop) : Prop where
  sorted : ∀ s, Inv s → (keys s).Pairwise (· < ·)
  page_eq : ∀ s c n, Inv s → pageOf s c n = page (keys s) c limit (size n)
  inv : ∀ s i o s', Inv s → M.step s i = some (o, s') → Inv s'
  no_new : ∀ s i o s', Inv s → Allowed i → M.step s i = some (o, s') →
    ∀ k ∈ keys s', k ≤ limit → k ∈ keys s

/-- The inputs of a scan: allowed changes, and pages of at least one key. -/
def Input.Fair (size : ν → ℕ) (Allowed : ι → Prop) : ι ⊕ ν → Prop
  | .inl i => Allowed i
  | .inr n => 0 < size n

variable {M : Machine σ ι ο} {pageOf : σ → α → ν → List α} {keys : σ → List α} {size : ν → ℕ}
  {Inv : σ → Prop} {Allowed : ι → Prop} {x x' : σ × α} {i : ι ⊕ ν} {o : ο ⊕ List α}
  {tr : List (Event (σ × α) (ι ⊕ ν) (ο ⊕ List α))}

omit [LinearOrder α] in
theorem scan_step (h : (scan M pageOf).step x i = some (o, x')) :
    (∃ j r, i = .inl j ∧ o = .inl r ∧ M.step x.1 j = some (r, x'.1) ∧ x'.2 = x.2) ∨
      ∃ n, i = .inr n ∧ o = .inr (pageOf x.1 x.2 n) ∧ x'.1 = x.1 ∧
        x'.2 = (pageOf x.1 x.2 n).getLast?.getD x.2 := by
  cases i with
  | inl j =>
    obtain ⟨p, hstep, hp⟩ := Option.map_eq_some_iff.mp h
    cases hp
    exact .inl ⟨j, p.1, rfl, rfl, hstep, rfl⟩
  | inr n =>
    cases h
    exact .inr ⟨n, rfl, rfl, rfl, rfl⟩

theorem Pages.scan_inv (h : Pages M pageOf keys size limit Inv Allowed) (hs : Inv x.1)
    (hstep : (scan M pageOf).step x i = some (o, x')) : Inv x'.1 := by
  rcases scan_step hstep with ⟨j, r, -, -, hj, -⟩ | ⟨n, -, -, hx, -⟩
  · exact h.inv _ _ _ _ hs hj
  · rw [hx]
    exact hs

/-- The keys of a scan increase, are above the cursor and up to the limit, and were
there from the start. -/
theorem Pages.run_sorted (h : Pages M pageOf keys size limit Inv Allowed)
    (hrun : (scan M pageOf).Run x tr x') (hs : Inv x.1)
    (hfair : ∀ e ∈ tr, Input.Fair size Allowed e.input) :
    (pages tr).flatten.Pairwise (· < ·) ∧
      ∀ k ∈ (pages tr).flatten, k ∈ keys x.1 ∧ x.2 < k ∧ k ≤ limit := by
  induction hrun with
  | nil => simp [pages]
  | @cons x m x' i o tr hstep hrun ih =>
    obtain ⟨hi, hfair⟩ := List.forall_mem_cons.mp hfair
    obtain ⟨hsorted, hmem⟩ := ih (h.scan_inv hs hstep) hfair
    rcases scan_step hstep with ⟨j, r, rfl, rfl, hj, hc⟩ | ⟨n, rfl, rfl, hx, hc⟩
    · refine ⟨hsorted, fun k hk => ?_⟩
      obtain ⟨hkeys, hafter, hlimit⟩ := hmem k hk
      exact ⟨h.no_new _ _ _ _ hs hi hj k hkeys hlimit, hc ▸ hafter, hlimit⟩
    · have hp := h.page_eq x.1 x.2 n hs
      have hpsorted : (pageOf x.1 x.2 n).Pairwise (· < ·) := hp ▸ page_sorted (h.sorted _ hs)
      have hflat : (pages (⟨x, .inr n, .inr (pageOf x.1 x.2 n), m⟩ :: tr)).flatten =
          pageOf x.1 x.2 n ++ (pages tr).flatten := rfl
      rw [hflat, List.pairwise_append]
      rw [hx] at hmem
      have hlast : ∀ k ∈ pageOf x.1 x.2 n, k ≤ m.2 := fun k hk => hc ▸ OrdMap.le_getLast hpsorted hk _
      refine ⟨⟨hpsorted, hsorted, fun k hk k' hk' => ?_⟩, fun k hk => ?_⟩
      · exact (hlast k hk).trans_lt (hmem k' hk').2.1
      · rcases List.mem_append.mp hk with hk | hk
        · exact mem_of_mem_page (hp ▸ hk)
        · obtain ⟨hkeys, hafter, hlimit⟩ := hmem k hk
          have hcursor : x.2 ≤ m.2 :=
            hc ▸ le_cursor fun y hy => (mem_of_mem_page (hp ▸ hy)).2.1
          exact ⟨hkeys, hcursor.trans_lt hafter, hlimit⟩

/-- A scan that came to an empty page has seen every key that stayed. -/
theorem Pages.run_covers (h : Pages M pageOf keys size limit Inv Allowed)
    (hrun : (scan M pageOf).Run x tr x') (hs : Inv x.1)
    (hfair : ∀ e ∈ tr, Input.Fair size Allowed e.input) (hend : [] ∈ pages tr)
    (hk : k ∈ keys x.1) (hstay : ∀ e ∈ tr, k ∈ keys e.post.1) (hafter : x.2 < k)
    (hlimit : k ≤ limit) : k ∈ (pages tr).flatten := by
  induction hrun with
  | nil => contradiction
  | @cons x m x' i o tr hstep hrun ih =>
    obtain ⟨hi, hfair⟩ := List.forall_mem_cons.mp hfair
    obtain ⟨hkm, hstay⟩ := List.forall_mem_cons.mp hstay
    have ih := fun hend => ih (h.scan_inv hs hstep) hfair hend hkm hstay
    rcases scan_step hstep with ⟨j, r, rfl, rfl, hj, hc⟩ | ⟨n, rfl, rfl, hx, hc⟩
    · exact ih hend (hc ▸ hafter)
    · have hp := h.page_eq x.1 x.2 n hs
      by_cases hin : k ∈ pageOf x.1 x.2 n
      · exact List.mem_append_left _ hin
      · -- the page is not the last, and its keys are below the key
        have hne : pageOf x.1 x.2 n ≠ [] := fun hnil =>
          not_mem_of_page_nil hi (hp.symm.trans hnil) hk hafter hlimit
        have hbelow := lt_of_not_mem_page (h.sorted _ hs) hk hafter hlimit (hp ▸ hin)
        have hnext : m.2 < k := by
          rw [hc, List.getLast?_eq_some_getLast hne, Option.getD_some]
          exact hbelow _ (hp ▸ List.getLast_mem hne)
        have hrest : [] ∈ pages tr := by
          rcases List.mem_cons.mp hend with hnil | hrest
          · exact absurd hnil.symm hne
          · exact hrest
        exact List.mem_append_right _ (ih hrest hnext)

theorem length_le_flatten {β : Type*} {ls : List (List β)} (h : [] ∉ ls) :
    ls.length ≤ ls.flatten.length := by
  induction ls with
  | nil => exact Nat.le_refl _
  | cons l ls ih =>
    obtain ⟨hl, hls⟩ := not_or.mp (mt List.mem_cons.mpr h)
    have hpos : 0 < l.length := List.length_pos_iff.mpr (Ne.symm hl)
    rw [List.flatten_cons, List.length_append, List.length_cons]
    have := ih hls
    omega

/-- The pages run out after at most one page for each key. -/
theorem Pages.run_ends (h : Pages M pageOf keys size limit Inv Allowed)
    (hrun : (scan M pageOf).Run x tr x') (hs : Inv x.1)
    (hfair : ∀ e ∈ tr, Input.Fair size Allowed e.input)
    (hlong : (keys x.1).length < (pages tr).length) :
    [] ∈ (pages tr).take ((keys x.1).length + 1) := by
  by_contra hno
  obtain ⟨hsorted, hmem⟩ := h.run_sorted hrun hs hfair
  have hsub : ((pages tr).take ((keys x.1).length + 1)).flatten.Sublist (pages tr).flatten := by
    conv_rhs => rw [← List.take_append_drop ((keys x.1).length + 1) (pages tr), List.flatten_append]
    exact List.sublist_append_left _ _
  have hnodup := (hsorted.imp ne_of_lt).sublist hsub
  have hle : ((pages tr).take ((keys x.1).length + 1)).flatten.length ≤ (keys x.1).length :=
    (List.Nodup.subperm hnodup fun k hk => (hmem k (hsub.subset hk)).1).length_le
  have hmany := length_le_flatten hno
  rw [List.length_take] at hmany
  omega

/-- A whole scan: the keys increase up to the limit, every key that stayed comes
exactly once by the first empty page, and that page comes in time. -/
structure Sweep (keys : σ → List α) (s : σ) (limit : α)
    (tr : List (Event (σ × α) (ι ⊕ ν) (ο ⊕ List α))) : Prop where
  increasing : (pages tr).flatten.Pairwise (· < ·)
  below : ∀ k ∈ (pages tr).flatten, k ≤ limit
  covers : [] ∈ pages tr → ∀ k ∈ keys s, (∀ e ∈ tr, k ∈ keys e.post.1) →
    (pages tr).flatten.count k = 1
  ends : (keys s).length < (pages tr).length → [] ∈ (pages tr).take ((keys s).length + 1)

theorem Pages.sweep (h : Pages M pageOf keys size limit Inv Allowed)
    (hrun : (scan M pageOf).Run x tr x') (hs : Inv x.1)
    (hfair : ∀ e ∈ tr, Input.Fair size Allowed e.input)
    (hlow : ∀ k ∈ keys x.1, x.2 < k) (hhigh : ∀ k ∈ keys x.1, k ≤ limit) :
    Sweep keys x.1 limit tr where
  increasing := (h.run_sorted hrun hs hfair).1
  below k hk := ((h.run_sorted hrun hs hfair).2 k hk).2.2
  covers hend k hk hstay :=
    List.count_eq_one_of_mem ((h.run_sorted hrun hs hfair).1.imp ne_of_lt)
      (h.run_covers hrun hs hfair hend hk hstay (hlow k hk) (hhigh k hk))
  ends := h.run_ends hrun hs hfair

end Scan

end Lib.CursorScan
