import AIWorld.Memory.LongTermMemory
import Mathlib.Algebra.GroupWithZero.Nat
import Mathlib.Data.List.Forall2

/-! Reading a long-term memory page by page while the agent goes on remembering. The anchor pins
the end of the list: what is remembered later is appended behind it, and a refreshed record keeps
its place. -/

namespace AIWorld.Memory.LongTermMemory

open Std (ExtTreeMap)
open Lib

variable {memory : LongTermMemory} {agent : UInt64} {offset limit anchor : UInt32}
  {records records' records'' : List LongTermMemoryRecord}

/-! ### Refreshed records -/

/-- The later state of a record: it was refreshed any number of times. -/
def Refreshed (old new : LongTermMemoryRecord) : Prop :=
  new = { old with
    lastObservedAtMs := new.lastObservedAtMs
    observationCount := new.observationCount
    importance := new.importance
    location := new.location
    actor := new.actor
    target := new.target }

theorem Refreshed.refl (record : LongTermMemoryRecord) : Refreshed record record := rfl

theorem Refreshed.trans {a b c : LongTermMemoryRecord} (hab : Refreshed a b) (hbc : Refreshed b c) :
    Refreshed a c := by
  unfold Refreshed at hab hbc ⊢
  rw [hbc, hab]

theorem refreshed_refresh (observation : Observation) (importance : Float32)
    (record : LongTermMemoryRecord) : Refreshed record (refresh observation importance record) :=
  rfl

/-- Every record is still in its place, and others may have followed. -/
def Grown (records records' : List LongTermMemoryRecord) : Prop :=
  ∀ (i : ℕ) (record : LongTermMemoryRecord), records[i]? = some record →
    ∃ record', records'[i]? = some record' ∧ Refreshed record record'

theorem Grown.refl (records : List LongTermMemoryRecord) : Grown records records :=
  fun _ record h => ⟨record, h, .refl record⟩

theorem Grown.trans (h : Grown records records') (h' : Grown records' records'') :
    Grown records records'' := by
  intro i record hi
  obtain ⟨record', hi', hrefreshed⟩ := h i record hi
  obtain ⟨record'', hi'', hrefreshed'⟩ := h' i record' hi'
  exact ⟨record'', hi'', hrefreshed.trans hrefreshed'⟩

theorem Grown.length_le (h : Grown records records') : records.length ≤ records'.length := by
  by_contra! hlt
  obtain ⟨record', hget, -⟩ := h records'.length _ (List.getElem?_eq_getElem hlt)
  rw [List.getElem?_eq_none le_rfl] at hget
  contradiction

theorem grown_append (records : List LongTermMemoryRecord) (record : LongTermMemoryRecord) :
    Grown records (records ++ [record]) := by
  intro i old hi
  obtain ⟨hlt, -⟩ := List.getElem?_eq_some_iff.mp hi
  exact ⟨old, by rwa [List.getElem?_append_left hlt], .refl old⟩

theorem grown_modify (observation : Observation) (importance : Float32) (k : ℕ) :
    Grown records (records.modify k (refresh observation importance)) := by
  intro i old hi
  rw [List.getElem?_modify, hi]
  by_cases hk : k = i
  · exact ⟨_, by simp [hk], refreshed_refresh observation importance old⟩
  · exact ⟨old, by simp [hk], .refl old⟩

/-! ### Remembering -/

/-- Remembering, for whichever agent, keeps every record in its place. -/
theorem grown_remember (memory : LongTermMemory) (agent : UInt64) (observation : Observation)
    (importance : Float32) :
    Grown (memory.getForAgent agent) ((memory.remember observation importance).1.getForAgent agent) := by
  unfold remember
  split_ifs
  · exact .refl _
  dsimp only
  by_cases hagent : agent = observation.observer
  · subst hagent
    cases findEquivalent (memory.getForAgent observation.observer) observation with
    | none => simpa [getForAgent] using grown_append _ _
    | some k => simpa [getForAgent] using grown_modify observation importance k
  · have hne : observation.observer ≠ agent := fun h => hagent h.symm
    cases findEquivalent (memory.getForAgent observation.observer) observation with
    | none =>
      simp only [getForAgent, OrdMap.getElem?_insert_ne _ _ hne]
      exact .refl _
    | some k =>
      simp only [getForAgent, OrdMap.getElem?_insert_ne _ _ hne]
      exact .refl _

def rememberAll (memory : LongTermMemory) (remembered : List (Observation × Float32)) :
    LongTermMemory :=
  remembered.foldl (fun memory (observation, importance) =>
    (memory.remember observation importance).1) memory

theorem grown_rememberAll (memory : LongTermMemory) (agent : UInt64)
    (remembered : List (Observation × Float32)) :
    Grown (memory.getForAgent agent) ((memory.rememberAll remembered).getForAgent agent) := by
  induction remembered generalizing memory with
  | nil => exact .refl _
  | cons first remembered ih =>
    exact (grown_remember memory agent first.1 first.2).trans (ih _)

/-! ### One page -/

/-- The records from the `offset`-th newest on, counted back from the anchor. -/
theorem filterMap_range {α : Type*} {l : List α} {a off n : ℕ} (ha : a ≤ l.length)
    (hn : off + n ≤ a) :
    (List.range n).filterMap (fun i => l[a - off - i - 1]?) =
      ((l.take a).reverse.drop off).take n := by
  induction n with
  | zero => simp
  | succ n ih =>
    have hlength : off + n < (l.take a).length := by
      rw [List.length_take]
      omega
    have hindex : (l.take a).length - 1 - (off + n) = a - off - n - 1 := by
      rw [List.length_take]
      omega
    rw [List.range_succ, List.filterMap_append, ih (by omega), List.take_add_one, List.getElem?_drop,
      List.getElem?_reverse hlength, hindex, List.getElem?_take_of_lt (by omega)]
    cases hget : l[a - off - n - 1]? <;> simp [hget]

theorem Grown.forall₂_take (h : Grown records records') {a : ℕ} (ha : a ≤ records.length) :
    List.Forall₂ Refreshed (records.take a) (records'.take a) := by
  have hle := h.length_le
  refine List.forall₂_iff_get.mpr ⟨by rw [List.length_take, List.length_take]; omega, ?_⟩
  intro i hi hi'
  rw [List.length_take] at hi
  have hlt : i < records.length := by omega
  obtain ⟨record', hget, hrefreshed⟩ := h i records[i] (List.getElem?_eq_getElem hlt)
  have hget' := (List.getElem?_eq_some_iff.mp hget).2
  simpa [hget'] using hrefreshed

/-- A page of a memory that has grown since: what is due from the offset on, as it is by now. -/
theorem getPage_spec (limit : UInt32) (hgrown : Grown records (memory.getForAgent agent))
    (hpos : anchor ≠ 0) (hanchor : anchor.toNat ≤ records.length) (hoffset : offset.toNat ≤ anchor.toNat) :
    (memory.getPage agent offset limit anchor).records.length =
        min limit.toNat (anchor.toNat - offset.toNat) ∧
      List.Forall₂ Refreshed (((records.take anchor.toNat).reverse.drop offset.toNat).take
          (min limit.toNat (anchor.toNat - offset.toNat)))
        (memory.getPage agent offset limit anchor).records := by
  have hle := hgrown.length_le
  have hsome : memory.records[agent]? = some (memory.getForAgent agent) := by
    unfold getForAgent at hle ⊢
    cases hget : memory.records[agent]? with
    | none =>
      rw [hget, Option.getD_none, List.length_nil] at hle
      have hzero : anchor.toNat = 0 := by omega
      exact absurd (UInt32.toNat_inj.mp hzero) hpos
    | some records' => rfl
  have hsegment : (memory.getPage agent offset limit anchor).records =
      (((memory.getForAgent agent).take anchor.toNat).reverse.drop offset.toNat).take
        (min limit.toNat (anchor.toNat - offset.toNat)) := by
    unfold getPage
    rw [hsome]
    dsimp only
    rw [if_pos hpos, Nat.min_eq_left (by omega)]
    split_ifs with hend
    · rw [show anchor.toNat - offset.toNat = 0 by omega, Nat.min_zero, List.take_zero]
    · exact filterMap_range (by omega) (by omega)
  rw [hsegment]
  constructor
  · rw [List.length_take, List.length_drop, List.length_reverse, List.length_take]
    omega
  · exact List.forall₂_take _ (List.forall₂_drop _ (List.forall₂_reverse_iff.mpr
      (hgrown.forall₂_take hanchor)))

/-! ### All pages -/

/-- What is remembered before a page is asked for, and how much the page may hold. -/
structure Step where
  remembered : List (Observation × Float32)
  limit : UInt32

/-- The pages from an offset on, each at the sum of the lengths of the pages before it. -/
def read (memory : LongTermMemory) (agent : UInt64) (anchor : UInt32) (offset : ℕ) :
    List Step → List Page
  | [] => []
  | step :: steps =>
    let memory := memory.rememberAll step.remembered
    let page := memory.getPage agent (UInt32.ofNat offset) step.limit anchor
    page :: read memory agent anchor (offset + page.records.length) steps

def content (pages : List Page) : List LongTermMemoryRecord := pages.flatMap Page.records

def limits (steps : List Step) : ℕ := (steps.map fun step => step.limit.toNat).sum

theorem read_spec (steps : List Step) {off : ℕ} (hgrown : Grown records (memory.getForAgent agent))
    (hpos : anchor ≠ 0) (hanchor : anchor.toNat ≤ records.length) (hoff : off ≤ anchor.toNat) :
    (content (read memory agent anchor off steps)).length =
        min (limits steps) (anchor.toNat - off) ∧
      List.Forall₂ Refreshed (((records.take anchor.toNat).reverse.drop off).take
          (min (limits steps) (anchor.toNat - off)))
        (content (read memory agent anchor off steps)) := by
  induction steps generalizing memory off with
  | nil => simp [read, content, limits]
  | cons step steps ih =>
    have hoffset : (UInt32.ofNat off).toNat = off := by
      have hlt := anchor.toNat_lt_size
      exact UInt32.toNat_ofNat_of_lt (by omega)
    have hgrown' := hgrown.trans (grown_rememberAll memory agent step.remembered)
    obtain ⟨hlength, hpage⟩ := getPage_spec step.limit hgrown' hpos hanchor
      (hoffset.trans_le hoff)
    rw [hoffset] at hlength hpage
    have hoff' : off + min step.limit.toNat (anchor.toNat - off) ≤ anchor.toNat := by omega
    obtain ⟨hlength', hrest⟩ := ih hgrown' hoff'
    have hread : content (read memory agent anchor off (step :: steps)) =
        ((memory.rememberAll step.remembered).getPage agent (UInt32.ofNat off) step.limit
          anchor).records ++ content (read (memory.rememberAll step.remembered) agent anchor
            (off + min step.limit.toNat (anchor.toNat - off)) steps) := by
      rw [read, content, List.flatMap_cons, hlength]
      rfl
    have hlimits : limits (step :: steps) = step.limit.toNat + limits steps := by simp [limits]
    have hsplit : min (limits (step :: steps)) (anchor.toNat - off) =
        min step.limit.toNat (anchor.toNat - off) + min (limits steps)
          (anchor.toNat - (off + min step.limit.toNat (anchor.toNat - off))) := by omega
    rw [hread, hsplit, List.take_add, List.drop_drop]
    refine ⟨?_, List.rel_append hpage hrest⟩
    rw [List.length_append, hlength, hlength']

theorem take_read {steps : List Step} {off k : ℕ} :
    (read memory agent anchor off steps).take k = read memory agent anchor off (steps.take k) := by
  induction steps generalizing memory off k with
  | nil => simp [read]
  | cons step steps ih =>
    cases k with
    | zero => rfl
    | succ k =>
      rw [List.take_succ_cons, read, read, List.take_succ_cons, ih]

theorem length_read (memory : LongTermMemory) (agent : UInt64) (anchor : UInt32) (off : ℕ)
    (steps : List Step) :
    (read memory agent anchor off steps).length = steps.length := by
  induction steps generalizing memory off with
  | nil => rfl
  | cons step steps ih => rw [read, List.length_cons, ih, List.length_cons]

theorem length_le_limits {steps : List Step} (h : ∀ step ∈ steps, step.limit ≠ 0) :
    steps.length ≤ limits steps := by
  induction steps with
  | nil => exact le_rfl
  | cons step steps ih =>
    have hrest := ih fun s hs => h s (List.mem_cons_of_mem _ hs)
    have hpos := UInt32.toNat_inj.not.mpr (h step List.mem_cons_self)
    rw [UInt32.toNat_zero] at hpos
    simp only [limits, List.map_cons, List.sum_cons, List.length_cons] at hrest ⊢
    omega

/-- A page is empty if and only if the pages before it hold everything. -/
theorem read_empty_iff {steps : List Step} {k : ℕ} {page : Page}
    (hgrown : Grown records (memory.getForAgent agent)) (hpos : anchor ≠ 0)
    (hanchor : anchor.toNat ≤ records.length) (hlimits : ∀ step ∈ steps, step.limit ≠ 0)
    (hpage : (read memory agent anchor 0 steps)[k]? = some page) :
    page.records = [] ↔ (content ((read memory agent anchor 0 steps).take k)).length = anchor.toNat := by
  have hk : k < steps.length := by
    rw [← length_read memory agent anchor 0 steps]
    exact (List.getElem?_eq_some_iff.mp hpage).1
  have hnext : content ((read memory agent anchor 0 steps).take (k + 1)) =
      content ((read memory agent anchor 0 steps).take k) ++ page.records := by
    rw [List.take_add_one, hpage]
    simp [content]
  have hlimit : limits (steps.take (k + 1)) = limits (steps.take k) + steps[k].limit.toNat := by
    unfold limits
    rw [List.take_add_one, List.getElem?_eq_getElem hk, List.map_append, List.sum_append]
    simp
  have hlimitPos := UInt32.toNat_inj.not.mpr (hlimits steps[k] (List.getElem_mem hk))
  rw [UInt32.toNat_zero] at hlimitPos
  have hlength := congrArg List.length hnext
  rw [List.length_append, take_read, take_read, (read_spec _ hgrown hpos hanchor (Nat.zero_le _)).1,
    (read_spec _ hgrown hpos hanchor (Nat.zero_le _)).1, hlimit] at hlength
  rw [← List.length_eq_zero_iff, take_read, (read_spec _ hgrown hpos hanchor (Nat.zero_le _)).1]
  omega

/-- The first page, which hands out the anchor, is what the anchor would have given. -/
theorem getPage_requested {requested : UInt32} (hpos : anchor ≠ 0)
    (hanchor : anchor.toNat = (memory.getPage agent 0 limit requested).anchor) :
    memory.getPage agent 0 limit requested = memory.getPage agent 0 limit anchor ∧
      anchor.toNat ≤ (memory.getForAgent agent).length := by
  unfold getPage at hanchor ⊢
  unfold getForAgent
  cases hget : memory.records[agent]? with
  | none =>
    rw [hget] at hanchor
    exact absurd (UInt32.toNat_inj.mp hanchor) hpos
  | some records =>
    rw [hget] at hanchor
    dsimp only at hanchor ⊢
    rw [Option.getD_some, if_pos hpos]
    have hsame : anchor.toNat = if requested ≠ 0 then min requested.toNat records.length
        else records.length := by
      rw [hanchor]
      split_ifs <;> rfl
    have hle : anchor.toNat ≤ records.length := by
      rw [hsame]
      split_ifs
      · exact Nat.min_le_right _ _
      · exact le_rfl
    rw [← hsame, Nat.min_eq_left hle]
    exact ⟨rfl, hle⟩

/-- An agent that saw a player, was read, and saw another before it was read on. -/
def seen (guid : UInt64) : Observation :=
  { observer := 1, type := .playerSeen, target := { guid := ⟨guid⟩ } }

def twoPlayers : LongTermMemory :=
  ({} : LongTermMemory).rememberAll [(seen 5, 0), (seen 6, 0)]

end AIWorld.Memory.LongTermMemory
