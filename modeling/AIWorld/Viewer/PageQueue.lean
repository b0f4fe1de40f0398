import AIWorld.Viewer.MemoryPages

/-! The queue of pages over whole runs. It is bounded, a request is answered once and by its own page, and the
requests take turns, so that none waits for more than as many calls as there are places. -/

namespace AIWorld.Viewer

open Lib
open Lib.Json (Bytes decimal digitsValue_decimal)

variable {R : Type} {s s' : MemoryPages R} {key k : Key} {token : Bytes}

/-! ### One call -/

namespace MemoryPages

theorem refreshed_pending (refresh : Bool) : (s.refreshed key refresh).pending = s.pending := by
  unfold refreshed
  split_ifs <;> rfl

theorem refreshed_cached {refresh : Bool} {c : CachedPage R} (h : (s.refreshed key refresh).cached.get? k = some c) :
    s.cached.get? k = some c := by
  unfold refreshed at h
  split_ifs at h
  · exact (OrderedDict.get?_erase_some.mp h).2
  · exact h

theorem length_refreshed_le (refresh : Bool) : (s.refreshed key refresh).cached.length ≤ s.cached.length := by
  unfold refreshed
  split_ifs
  · exact OrderedDict.length_filter_le _
  · exact Nat.le_refl _

/-- A reader is shown a page, waits for one, is turned away, or makes a request. -/
theorem read_cases (s : MemoryPages R) (key : Key) (refresh : Bool) (now : ℚ) (token : Bytes) :
    (∃ c ageMs, s.cached.get? key = some c ∧ s.read key refresh now token = (c.page.shown c.captured ageMs, false,
      { s.refreshed key refresh with cached := (s.refreshed key refresh).cached.moveToEnd key })) ∨
    (∃ result, (result = .pending memoryPageSize ∨ result = .tooManyRequests) ∧
      s.read key refresh now token = (result, false, s.refreshed key refresh)) ∨
    (s.refreshed key refresh).cached.get? key = none ∧ key ∉ s.pending.keys ∧ s.pending.length < maxPending ∧
      s.read key refresh now token = (.pending memoryPageSize, true,
        { s.refreshed key refresh with pending := s.pending.insert key ⟨token, now⟩ }) := by
  unfold read
  dsimp only
  cases hcached : (s.refreshed key refresh).cached.get? key with
  | some c => exact .inl ⟨c, _, refreshed_cached hcached, rfl⟩
  | none =>
    rw [refreshed_pending]
    dsimp only
    split_ifs with hpending hfull
    · exact .inr (.inl ⟨_, .inl rfl, rfl⟩)
    · exact .inr (.inl ⟨_, .inr rfl, rfl⟩)
    · refine .inr (.inr ⟨rfl, ?_, Nat.not_le.mp hfull, rfl⟩)
      rwa [OrderedDict.contains_iff] at hpending

theorem answers_iff {page : MemoryPage R} :
    s.answers page = true ↔ ∃ request, s.pending.get? page.key = some request ∧ request.token = page.requestId := by
  unfold answers
  cases s.pending.get? page.key <;> simp

/-- A page changes nothing, or takes the place of its request. -/
theorem accept_cases (s : MemoryPages R) (page : Option (MemoryPage R)) (now : ℚ) (captured : ℕ) :
    (s.accept page now captured = s ∧ ∀ p, page = some p → s.answers p = false) ∨
    ∃ p, page = some p ∧ s.answers p = true ∧ s.accept page now captured =
      { pending := s.pending.erase p.key
        cached := .shrink ((s.cached.insert p.key ⟨p, now, captured⟩).moveToEnd p.key).length
          ((s.cached.insert p.key ⟨p, now, captured⟩).moveToEnd p.key) maxCached } := by
  unfold accept
  cases page with
  | none => exact .inl ⟨rfl, nofun⟩
  | some page =>
    dsimp only
    cases hanswers : s.answers page with
    | false =>
      refine .inl ⟨rfl, ?_⟩
      rintro p hp
      rw [← Option.some.inj hp, hanswers]
    | true => exact .inr ⟨page, rfl, hanswers, rfl⟩

theorem nextHeader_cases (s : MemoryPages R) : (s.pending.first? = none ∧ s.nextHeader = (none, s)) ∨
    ∃ key request, s.pending.first? = some (key, request) ∧ s.nextHeader =
      (some (header request.token key), { s with pending := s.pending.moveToEnd key }) := by
  unfold nextHeader
  cases hfirst : s.pending.first? with
  | none => exact .inl ⟨rfl, rfl⟩
  | some e => exact .inr ⟨e.1, e.2, rfl, rfl⟩

/-! ### Bounds -/

/-- What the queue and the cache keep to. -/
structure Bounded (s : MemoryPages R) : Prop where
  pending : s.pending.length ≤ maxPending
  cached : s.cached.length ≤ maxCached
  apart : ∀ k ∈ s.pending.keys, k ∉ s.cached.keys

theorem Bounded.empty : Bounded ({} : MemoryPages R) := ⟨Nat.zero_le _, Nat.zero_le _, by simp [OrderedDict.keys, OrderedDict.empty]⟩

theorem Bounded.refreshed (h : Bounded s) (key : Key) (refresh : Bool) : Bounded (s.refreshed key refresh) where
  pending := by rw [refreshed_pending]; exact h.pending
  cached := (length_refreshed_le refresh).trans h.cached
  apart k hk hcached := by
    rw [refreshed_pending] at hk
    obtain ⟨c, hc⟩ := OrderedDict.mem_keys_iff_get?.mp hcached
    exact h.apart k hk (OrderedDict.mem_keys_iff_get?.mpr ⟨c, refreshed_cached hc⟩)

theorem Bounded.read (h : Bounded s) (key : Key) (refresh : Bool) (now : ℚ) (token : Bytes) :
    Bounded (s.read key refresh now token).2.2 := by
  have hrefreshed := h.refreshed key refresh
  obtain ⟨c, ageMs, -, hread⟩ | ⟨result, -, hread⟩ | ⟨hnone, hnew, hroom, hread⟩ := read_cases s key refresh now token
  · rw [hread]
    refine ⟨hrefreshed.pending, ?_, fun k hk => ?_⟩
    · rw [OrderedDict.length_moveToEnd]
      exact hrefreshed.cached
    · rw [OrderedDict.mem_keys_moveToEnd]
      exact hrefreshed.apart k hk
  · rw [hread]
    exact hrefreshed
  · rw [hread]
    refine ⟨?_, hrefreshed.cached, fun k hk => ?_⟩
    · rw [OrderedDict.length_insert hnew]
      exact hroom
    · obtain rfl | hk := OrderedDict.mem_keys_insert.mp hk
      · exact OrderedDict.get?_eq_none.mp hnone
      · exact hrefreshed.apart k (by rwa [refreshed_pending])

theorem Bounded.accept (h : Bounded s) (page : Option (MemoryPage R)) (now : ℚ) (captured : ℕ) :
    Bounded (s.accept page now captured) := by
  obtain ⟨hsame, -⟩ | ⟨p, -, -, haccept⟩ := accept_cases s page now captured
  · rwa [hsame]
  · rw [haccept]
    refine ⟨(OrderedDict.length_filter_le _).trans h.pending, OrderedDict.length_shrink_le (Nat.le_add_right _ _),
      fun k hk hcached => ?_⟩
    obtain ⟨hne, hk⟩ := OrderedDict.mem_keys_erase.mp hk
    have hinserted := OrderedDict.mem_keys_moveToEnd.mp (OrderedDict.mem_keys_shrink hcached)
    exact h.apart k hk ((OrderedDict.mem_keys_insert.mp hinserted).resolve_left hne)

theorem Bounded.prune (h : Bounded s) (now : ℚ) (agentIds : Finset ℕ) : Bounded (s.prune now agentIds) where
  pending := (OrderedDict.length_filter_le _).trans h.pending
  cached := (OrderedDict.length_filter_le _).trans h.cached
  apart k hk hcached := h.apart k (OrderedDict.mem_keys_filter hk) (OrderedDict.mem_keys_filter hcached)

theorem Bounded.nextHeader (h : Bounded s) : Bounded s.nextHeader.2 := by
  obtain ⟨-, hnext⟩ | ⟨key, request, -, hnext⟩ := nextHeader_cases s
  · rwa [hnext]
  · rw [hnext]
    refine ⟨?_, h.cached, fun k hk => ?_⟩
    · rw [OrderedDict.length_moveToEnd]
      exact h.pending
    · exact h.apart k (OrderedDict.mem_keys_moveToEnd.mp hk)

end MemoryPages

open MemoryPages

variable {uuid4 : ℕ → Bytes} {d d' : Desk R} {op : PageOp R} {o : PageAnswer R}
  {tr : List (Event (Desk R) (PageOp R) (PageAnswer R))}

theorem step_eq (h : (desk R uuid4).step d op = some (o, d')) : d.step uuid4 op = (o, d') := Option.some.inj h

theorem bounded_step (hd : Bounded d.pages) (h : (desk R uuid4).step d op = some (o, d')) : Bounded d'.pages := by
  have hpost : d' = (d.step uuid4 op).2 := by rw [step_eq h]
  rw [hpost]
  cases op with
  | read key refresh now => exact hd.read key refresh now _
  | accept page now captured => exact hd.accept page now captured
  | prune now agentIds => exact hd.prune now agentIds
  | nextHeader => exact hd.nextHeader

/-! ### Requests and pages -/

/-- A reader makes a request. -/
def Asks (uuid4 : ℕ → Bytes) (k : Key) (token : Bytes) (e : Event (Desk R) (PageOp R) (PageAnswer R)) : Prop :=
  (∃ refresh now, e.input = .read k refresh now) ∧ token = uuid4 e.pre.drawn ∧ e.post.drawn = e.pre.drawn + 1

/-- A page comes for a request that is pending, with its token. -/
def Accepts (page : MemoryPage R) (now : ℚ) (captured : ℕ) (e : Event (Desk R) (PageOp R) (PageAnswer R)) : Prop :=
  e.input = .accept (some page) now captured ∧
    ∃ request, e.pre.pages.pending.get? page.key = some request ∧ request.token = page.requestId

theorem drawn_le (h : (desk R uuid4).step d op = some (o, d')) : d.drawn ≤ d'.drawn := by
  have hpost : d' = (d.step uuid4 op).2 := by rw [step_eq h]
  rw [hpost]
  cases op with
  | read key refresh now =>
    change d.drawn ≤ if (d.pages.read key refresh now (uuid4 d.drawn)).2.1 then d.drawn + 1 else d.drawn
    split_ifs
    · exact Nat.le_succ _
    · exact Nat.le_refl _
  | accept | prune | nextHeader => exact Nat.le_refl _

/-- What is pending after a step was so before, or is asked for by it. -/
theorem pending_of_step {r : Request} (h : (desk R uuid4).step d op = some (o, d'))
    (hr : d'.pages.pending.get? k = some r) :
    d.pages.pending.get? k = some r ∨ Asks uuid4 k r.token ⟨d, op, o, d'⟩ := by
  have hpost : d' = (d.step uuid4 op).2 := by rw [step_eq h]
  cases op with
  | read key refresh now =>
    have hpages : d'.pages = (d.pages.read key refresh now (uuid4 d.drawn)).2.2 := by rw [hpost]; rfl
    have hdrawn : d'.drawn = if (d.pages.read key refresh now (uuid4 d.drawn)).2.1 then d.drawn + 1 else d.drawn := by
      rw [hpost]; rfl
    rw [hpages] at hr
    obtain ⟨c, ageMs, -, hread⟩ | ⟨result, -, hread⟩ | ⟨-, -, -, hread⟩ :=
      read_cases d.pages key refresh now (uuid4 d.drawn)
    · rw [hread, refreshed_pending] at hr
      exact .inl hr
    · rw [hread, refreshed_pending] at hr
      exact .inl hr
    · rw [hread] at hr hdrawn
      obtain ⟨rfl, rfl⟩ | ⟨-, hr⟩ := OrderedDict.get?_insert_some.mp hr
      · exact .inr ⟨⟨refresh, now, rfl⟩, rfl, hdrawn⟩
      · exact .inl hr
  | accept page now captured =>
    have hpages : d'.pages = d.pages.accept page now captured := by rw [hpost]; rfl
    rw [hpages] at hr
    obtain ⟨hsame, -⟩ | ⟨p, -, -, haccept⟩ := accept_cases d.pages page now captured
    · rw [hsame] at hr
      exact .inl hr
    · rw [haccept] at hr
      exact .inl (OrderedDict.get?_erase_some.mp hr).2
  | prune now agentIds =>
    have hpages : d'.pages = d.pages.prune now agentIds := by rw [hpost]; rfl
    rw [hpages] at hr
    exact .inl (OrderedDict.get?_filter_some hr)
  | nextHeader =>
    have hpages : d'.pages = d.pages.nextHeader.2 := by rw [hpost]; rfl
    rw [hpages] at hr
    obtain ⟨-, hnext⟩ | ⟨key, request, -, hnext⟩ := nextHeader_cases d.pages
    · rw [hnext] at hr
      exact .inl hr
    · rw [hnext, OrderedDict.get?_moveToEnd] at hr
      exact .inl hr

/-- What is kept after a step was so before, or is the page that came with it. -/
theorem cached_of_step {c : CachedPage R} (h : (desk R uuid4).step d op = some (o, d'))
    (hc : d'.pages.cached.get? k = some c) :
    d.pages.cached.get? k = some c ∨ c.page.key = k ∧ Accepts c.page c.received c.captured ⟨d, op, o, d'⟩ := by
  have hpost : d' = (d.step uuid4 op).2 := by rw [step_eq h]
  cases op with
  | read key refresh now =>
    have hpages : d'.pages = (d.pages.read key refresh now (uuid4 d.drawn)).2.2 := by rw [hpost]; rfl
    rw [hpages] at hc
    obtain ⟨c, ageMs, -, hread⟩ | ⟨result, -, hread⟩ | ⟨-, -, -, hread⟩ :=
      read_cases d.pages key refresh now (uuid4 d.drawn)
    · rw [hread, OrderedDict.get?_moveToEnd] at hc
      exact .inl (refreshed_cached hc)
    · rw [hread] at hc
      exact .inl (refreshed_cached hc)
    · rw [hread] at hc
      exact .inl (refreshed_cached hc)
  | accept page now captured =>
    have hpages : d'.pages = d.pages.accept page now captured := by rw [hpost]; rfl
    rw [hpages] at hc
    obtain ⟨hsame, -⟩ | ⟨p, rfl, hanswers, haccept⟩ := accept_cases d.pages page now captured
    · rw [hsame] at hc
      exact .inl hc
    · rw [haccept] at hc
      have hinserted := OrderedDict.get?_shrink_some hc
      rw [OrderedDict.get?_moveToEnd] at hinserted
      obtain ⟨rfl, rfl⟩ | ⟨-, hc⟩ := OrderedDict.get?_insert_some.mp hinserted
      · exact .inr ⟨rfl, rfl, answers_iff.mp hanswers⟩
      · exact .inl hc
  | prune now agentIds =>
    have hpages : d'.pages = d.pages.prune now agentIds := by rw [hpost]; rfl
    rw [hpages] at hc
    exact .inl (OrderedDict.get?_filter_some hc)
  | nextHeader =>
    have hpages : d'.pages = d.pages.nextHeader.2 := by rw [hpost]; rfl
    rw [hpages] at hc
    obtain ⟨-, hnext⟩ | ⟨key, request, -, hnext⟩ := nextHeader_cases d.pages
    · rw [hnext] at hc
      exact .inl hc
    · rw [hnext] at hc
      exact .inl hc

/-! ### Where a page comes from -/

/-- In the run a request was made. -/
def Asked (uuid4 : ℕ → Bytes) (tr : List (Event (Desk R) (PageOp R) (PageAnswer R))) (k : Key) (token : Bytes) : Prop :=
  ∃ e ∈ tr, Asks uuid4 k token e

/-- In the run a page was accepted, after its request had been made. -/
def Fetched (uuid4 : ℕ → Bytes) (tr : List (Event (Desk R) (PageOp R) (PageAnswer R))) (k : Key) (c : CachedPage R) :
    Prop :=
  c.page.key = k ∧ ∃ front e rest, tr = front ++ e :: rest ∧ Asked uuid4 front k c.page.requestId ∧
    Accepts c.page c.received c.captured e

theorem Asked.append (h : Asked uuid4 tr k token) (rest : List (Event (Desk R) (PageOp R) (PageAnswer R))) :
    Asked uuid4 (tr ++ rest) k token := by
  obtain ⟨e, he, hasks⟩ := h
  exact ⟨e, List.mem_append_left _ he, hasks⟩

theorem Fetched.append {c : CachedPage R} (h : Fetched uuid4 tr k c)
    (last : List (Event (Desk R) (PageOp R) (PageAnswer R))) : Fetched uuid4 (tr ++ last) k c := by
  obtain ⟨hkey, front, e, rest, rfl, hasked, haccepts⟩ := h
  exact ⟨hkey, front, e, rest ++ last, by simp, hasked, haccepts⟩

/-- Everything that is pending was asked for, and everything that is kept was fetched. -/
theorem accounted (h : (desk R uuid4).Run {} tr d) :
    (∀ k r, d.pages.pending.get? k = some r → Asked uuid4 tr k r.token) ∧
      ∀ k c, d.pages.cached.get? k = some c → Fetched uuid4 tr k c := by
  refine h.history (P := fun tr d => (∀ k r, d.pages.pending.get? k = some r → Asked uuid4 tr k r.token) ∧
    ∀ k c, d.pages.cached.get? k = some c → Fetched uuid4 tr k c) ?_ ⟨fun _ _ h => (nomatch h), fun _ _ h => (nomatch h)⟩
  rintro tr d op o d' ⟨hpending, hcached⟩ hstep
  constructor
  · intro k r hr
    obtain hr | hasks := pending_of_step hstep hr
    · exact (hpending k r hr).append _
    · exact ⟨_, List.mem_append_right _ List.mem_cons_self, hasks⟩
  · intro k c hc
    obtain hc | ⟨rfl, haccepts⟩ := cached_of_step hstep hc
    · exact (hcached k c hc).append _
    · obtain ⟨request, hrequest, htoken⟩ := haccepts.2
      exact ⟨rfl, tr, _, [], rfl, htoken ▸ hpending _ request hrequest, haccepts⟩

/-! ### Once -/

/-- A token that has been drawn and waits for no page. -/
def Spent (uuid4 : ℕ → Bytes) (token : Bytes) (d : Desk R) : Prop :=
  (∃ n < d.drawn, token = uuid4 n) ∧ ∀ k r, d.pages.pending.get? k = some r → r.token ≠ token

/-- Tokens are drawn, and no two requests that are pending share one. -/
structure Labelled (uuid4 : ℕ → Bytes) (d : Desk R) : Prop where
  drawn : ∀ k r, d.pages.pending.get? k = some r → ∃ n < d.drawn, r.token = uuid4 n
  distinct : ∀ k k' r r', d.pages.pending.get? k = some r → d.pages.pending.get? k' = some r' →
    r.token = r'.token → k = k'

/-- The token of an accepted page is spent. -/
theorem spent_of_accepts {page : MemoryPage R} {now : ℚ} {captured : ℕ} (hd : Labelled uuid4 d)
    (h : (desk R uuid4).step d op = some (o, d')) (haccepts : Accepts page now captured ⟨d, op, o, d'⟩) :
    Spent uuid4 page.requestId d' := by
  obtain ⟨hinput, request, hrequest, htoken⟩ := haccepts
  obtain rfl : op = .accept (some page) now captured := hinput
  have hpost : d' = (d.step uuid4 (.accept (some page) now captured)).2 := by rw [step_eq h]
  have hpages : d'.pages = d.pages.accept (some page) now captured := by rw [hpost]; rfl
  obtain ⟨n, hn, hdrawn⟩ := hd.drawn _ _ hrequest
  refine ⟨⟨n, hn.trans_le (drawn_le h), htoken ▸ hdrawn⟩, fun k r hr heq => ?_⟩
  obtain ⟨-, hnone⟩ | ⟨p, hp, -, haccept⟩ := accept_cases d.pages (some page) now captured
  · exact absurd (hnone page rfl) (by simpa using answers_iff.mpr ⟨request, hrequest, htoken⟩)
  · obtain rfl : page = p := Option.some.inj hp
    rw [hpages, haccept] at hr
    obtain ⟨hne, hr⟩ := OrderedDict.get?_erase_some.mp hr
    exact hne (hd.distinct k _ r request hr hrequest (heq.trans htoken.symm))

/-- A token that is drawn has not been drawn before. -/
def Fresh (uuid4 : ℕ → Bytes) (e : Event (Desk R) (PageOp R) (PageAnswer R)) : Prop :=
  e.post.drawn = e.pre.drawn + 1 → ∀ n < e.pre.drawn, uuid4 n ≠ uuid4 e.pre.drawn

section Tokens
variable (hfresh : Fresh uuid4 ⟨d, op, o, d'⟩)
include hfresh

theorem labelled_step (hd : Labelled uuid4 d) (h : (desk R uuid4).step d op = some (o, d')) : Labelled uuid4 d' := by
  have hle := drawn_le h
  refine ⟨fun k r hr => ?_, fun k k' r r' hr hr' htoken => ?_⟩
  · obtain hr | ⟨-, htoken, hdrawn⟩ := pending_of_step h hr
    · obtain ⟨n, hn, htoken⟩ := hd.drawn k r hr
      exact ⟨n, hn.trans_le hle, htoken⟩
    · exact ⟨d.drawn, by rw [hdrawn]; exact Nat.lt_succ_self _, htoken⟩
  · obtain hr | ⟨⟨_, _, hinput⟩, hnew, hdrawn⟩ := pending_of_step h hr <;>
      obtain hr' | ⟨⟨_, _, hinput'⟩, hnew', hdrawn'⟩ := pending_of_step h hr'
    · exact hd.distinct k k' r r' hr hr' htoken
    · obtain ⟨n, hn, hold⟩ := hd.drawn k r hr
      rw [htoken, hnew'] at hold
      exact absurd hold.symm (hfresh hdrawn' n hn)
    · obtain ⟨n, hn, hold⟩ := hd.drawn k' r' hr'
      rw [← htoken, hnew] at hold
      exact absurd hold.symm (hfresh hdrawn n hn)
    · exact (PageOp.read.inj (hinput.symm.trans hinput')).1

theorem spent_step (hd : Spent uuid4 token d) (h : (desk R uuid4).step d op = some (o, d')) : Spent uuid4 token d' := by
  obtain ⟨⟨n, hn, rfl⟩, hnot⟩ := hd
  refine ⟨⟨n, hn.trans_le (drawn_le h), rfl⟩, fun k r hr => ?_⟩
  obtain hr | ⟨-, htoken, hdrawn⟩ := pending_of_step h hr
  · exact hnot k r hr
  · rw [htoken]
    exact fun heq => hfresh hdrawn n hn heq.symm

end Tokens

/-! ### Turns -/

/-- Whether a call tells the game server of a request. -/
def isNextHeader : PageOp R → Bool
  | .nextHeader => true
  | _ => false

/-- A call tells the game server of the request for a key. -/
def Issues (k : Key) (e : Event (Desk R) (PageOp R) (PageAnswer R)) : Prop :=
  e.input = .nextHeader ∧ ∃ request, e.pre.pages.pending.get? k = some request ∧
    e.output = .header (some (header request.token k))

/-- As long as a key is pending, only those before it move, and a call for a header moves it on or tells of it. -/
theorem place_step (h : (desk R uuid4).step d op = some (o, d')) (hk : k ∈ d.pages.pending.keys)
    (hk' : k ∈ d'.pages.pending.keys) (hnot : ¬Issues k ⟨d, op, o, d'⟩) :
    d'.pages.pending.place k + (if isNextHeader op then 1 else 0) ≤ d.pages.pending.place k := by
  have hpost : (o, d') = d.step uuid4 op := (step_eq h).symm
  have hstate : d' = (d.step uuid4 op).2 := by rw [← hpost]
  cases op with
  | read key refresh now =>
    have hpages : d'.pages = (d.pages.read key refresh now (uuid4 d.drawn)).2.2 := by rw [hstate]; rfl
    change _ + 0 ≤ _
    rw [hpages, Nat.add_zero]
    obtain ⟨c, ageMs, -, hread⟩ | ⟨result, -, hread⟩ | ⟨-, hnew, -, hread⟩ :=
      read_cases d.pages key refresh now (uuid4 d.drawn)
    · rw [hread, refreshed_pending]
    · rw [hread, refreshed_pending]
    · rw [hread, OrderedDict.place_insert hnew hk]
  | accept page now captured =>
    have hpages : d'.pages = d.pages.accept page now captured := by rw [hstate]; rfl
    change _ + 0 ≤ _
    rw [hpages] at hk' ⊢
    rw [Nat.add_zero]
    obtain ⟨hsame, -⟩ | ⟨p, -, -, haccept⟩ := accept_cases d.pages page now captured
    · rw [hsame]
    · rw [haccept] at hk' ⊢
      exact OrderedDict.place_filter_le hk'
  | prune now agentIds =>
    have hpages : d'.pages = d.pages.prune now agentIds := by rw [hstate]; rfl
    change _ + 0 ≤ _
    rw [hpages] at hk' ⊢
    rw [Nat.add_zero]
    exact OrderedDict.place_filter_le hk'
  | nextHeader =>
    have hpages : d'.pages = d.pages.nextHeader.2 := by rw [hstate]; rfl
    have houtput : o = .header d.pages.nextHeader.1 := (Prod.mk.inj hpost).1
    change _ + 1 ≤ _
    rw [hpages]
    obtain ⟨hempty, -⟩ | ⟨key, request, hfirst, hnext⟩ := nextHeader_cases d.pages
    · obtain ⟨r, hr⟩ := OrderedDict.mem_keys.mp hk
      rw [List.head?_eq_none_iff.mp hempty] at hr
      contradiction
    · rw [hnext] at houtput ⊢
      have hne : k ≠ key := by
        rintro rfl
        refine hnot ⟨rfl, request, ?_, houtput⟩
        exact OrderedDict.get?_eq_some.mpr (List.mem_of_mem_head? hfirst)
      exact (OrderedDict.place_moveToEnd hfirst hk hne).le

theorem pending_of_nextHeader (h : (desk R uuid4).step d .nextHeader = some (o, d')) (hk : k ∈ d.pages.pending.keys) :
    k ∈ d'.pages.pending.keys := by
  have hstate : d' = (d.step uuid4 .nextHeader).2 := by rw [step_eq h]
  have hpages : d'.pages = d.pages.nextHeader.2 := by rw [hstate]; rfl
  rw [hpages]
  obtain ⟨-, hnext⟩ | ⟨key, request, -, hnext⟩ := nextHeader_cases d.pages
  · rwa [hnext]
  · rw [hnext]
    exact OrderedDict.mem_keys_moveToEnd.mpr hk

/-- A key that is pending all the time and not told of had as many others before it as there were calls. -/
theorem calls_le_place (h : (desk R uuid4).Run d tr d') (hpending : ∀ e ∈ tr, k ∈ e.pre.pages.pending.keys)
    (hnot : ∀ e ∈ tr, ¬Issues k e) : tr.countP (fun e => isNextHeader e.input) ≤ d.pages.pending.place k := by
  induction h with
  | nil => exact Nat.zero_le _
  | @cons d m d' op o tr hstep hrun ih =>
    obtain ⟨hfirst, hrest⟩ := List.forall_mem_cons.mp hpending
    obtain ⟨hnotFirst, hnotRest⟩ := List.forall_mem_cons.mp hnot
    have hcount := ih hrest hnotRest
    rw [List.countP_cons]
    by_cases hm : k ∈ m.pages.pending.keys
    · have hplace := place_step hstep hfirst hm hnotFirst
      dsimp only at hplace ⊢
      omega
    · cases hrun with
      | nil =>
        cases op with
        | nextHeader => exact absurd (pending_of_nextHeader hstep hfirst) hm
        | read | accept | prune => exact Nat.zero_le _
      | cons => exact absurd (hrest _ List.mem_cons_self) hm

/-! ### The result -/

/-- What readers and the game server can rely on. -/
structure Orderly (uuid4 : ℕ → Bytes) (tr : List (Event (Desk R) (PageOp R) (PageAnswer R))) (d : Desk R) : Prop where
  bounded : Bounded d.pages
  /-- A page is only kept when its request is pending. -/
  requested : ∀ e ∈ tr, ∀ k c, e.post.pages.cached.get? k = some c →
    e.pre.pages.cached.get? k = some c ∨ c.page.key = k ∧ Accepts c.page c.received c.captured e
  once : tr.Pairwise fun e e' => ∀ page now captured page' now' captured',
    Accepts page now captured e → Accepts page' now' captured' e' → page.requestId ≠ page'.requestId
  /-- What is served is what was asked for, and came after it had been. -/
  served : ∀ front e rest, tr = front ++ e :: rest → ∀ k refresh now agentId offset requestedAnchor anchor total records
    captured ageMs size, e.input = .read k refresh now →
    e.output = .result (.ready agentId offset requestedAnchor anchor total records captured ageMs size) →
    k = ⟨agentId, offset, requestedAnchor⟩ ∧ ∃ c, Fetched uuid4 front k c ∧
      c.page.anchor = anchor ∧ c.page.total = total ∧ c.page.records = records ∧ c.captured = captured
  fair : ∀ front segment rest, tr = front ++ segment ++ rest → ∀ k, (∀ e ∈ segment, k ∈ e.pre.pages.pending.keys) →
    maxPending ≤ segment.countP (fun e => isNextHeader e.input) → ∃ e ∈ segment, Issues k e

theorem bounded_run (h : (desk R uuid4).Run {} tr d) : Bounded d.pages :=
  h.invariant (P := fun d => Bounded d.pages) (fun _ _ _ _ hd hstep => bounded_step hd hstep) .empty

theorem labelled_run (hfresh : ∀ e ∈ tr, Fresh uuid4 e) (h : (desk R uuid4).Run {} tr d) : Labelled uuid4 d :=
  h.invariant_of_forall (fun _ _ _ _ hd he hstep => labelled_step he hd hstep) hfresh
    ⟨fun _ _ h => (nomatch h), fun _ _ _ _ h => (nomatch h)⟩

theorem accepted_once (hfresh : ∀ e ∈ tr, Fresh uuid4 e) (h : (desk R uuid4).Run {} tr d) :
    tr.Pairwise fun e e' => ∀ page now captured page' now' captured',
      Accepts page now captured e → Accepts page' now' captured' e' → page.requestId ≠ page'.requestId := by
  refine h.pairwise_of_forall (C := fun e => Labelled uuid4 e.pre ∧ Fresh uuid4 e)
    (Q := fun e d => ∀ page now captured, Accepts page now captured e → Spent uuid4 page.requestId d) ?_ ?_ ?_ ?_
  · intro e he hstep page now captured haccepts
    exact spent_of_accepts he.1 hstep haccepts
  · intro e d op o d' hQ he hstep page now captured haccepts
    exact spent_step he.2 (hQ page now captured haccepts) hstep
  · rintro e e' - - hQ page now captured page' now' captured' haccepts ⟨-, request, hrequest, htoken⟩ heq
    exact (hQ page now captured haccepts).2 _ request hrequest (htoken.trans heq.symm)
  · intro e he
    obtain ⟨front, rest, rfl, hfront, -, -⟩ := h.at_mem he
    exact ⟨labelled_run (fun e' he' => hfresh e' (List.mem_append_left _ he')) hfront, hfresh e he⟩

theorem served_fetched {front : List (Event (Desk R) (PageOp R) (PageAnswer R))} (h : (desk R uuid4).Run {} front d)
    {refresh : Bool} {now : ℚ} {agentId offset requestedAnchor anchor total captured size : ℕ} {records : List R}
    {ageMs : ℤ} (hstep : (desk R uuid4).step d (.read k refresh now) =
      some (.result (.ready agentId offset requestedAnchor anchor total records captured ageMs size), d')) :
    k = ⟨agentId, offset, requestedAnchor⟩ ∧ ∃ c, Fetched uuid4 front k c ∧
      c.page.anchor = anchor ∧ c.page.total = total ∧ c.page.records = records ∧ c.captured = captured := by
  have houtput : (d.pages.read k refresh now (uuid4 d.drawn)).1 =
      .ready agentId offset requestedAnchor anchor total records captured ageMs size :=
    PageAnswer.result.inj (congrArg Prod.fst (step_eq hstep))
  obtain ⟨c, age, hc, hread⟩ | ⟨result, hresult, hread⟩ | ⟨-, -, -, hread⟩ :=
    read_cases d.pages k refresh now (uuid4 d.drawn)
  · rw [hread] at houtput
    obtain ⟨rfl, rfl, rfl, hanchor, htotal, hrecords, hcaptured, -, -⟩ := ReadResult.ready.inj houtput
    have hfetched := (accounted h).2 k c hc
    exact ⟨hfetched.1.symm, c, hfetched, hanchor, htotal, hrecords, hcaptured⟩
  · rw [hread] at houtput
    obtain rfl | rfl := hresult <;> cases houtput
  · rw [hread] at houtput
    cases houtput

/-- The queue of pages is bounded, every request is answered at most once and by its own page, and all take turns. -/
theorem pages_orderly (hfresh : ∀ e ∈ tr, Fresh uuid4 e) (h : (desk R uuid4).Run {} tr d) : Orderly uuid4 tr d where
  bounded := bounded_run h
  requested e he k c hc := by
    obtain ⟨_, _, -, -, hstep, -⟩ := h.at_mem he
    exact cached_of_step hstep hc
  once := accepted_once hfresh h
  served front e rest htr k refresh now agentId offset requestedAnchor anchor total records captured ageMs size hinput
      houtput := by
    subst htr
    obtain ⟨hfront, hstep, -⟩ := h.split_cons
    rw [Machine.IsStep, hinput, houtput] at hstep
    exact served_fetched hfront hstep
  fair front segment rest htr k hpending hcalls := by
    subst htr
    obtain ⟨m, hm, -⟩ := h.split
    obtain ⟨n, hn, hsegment⟩ := hm.split
    by_contra hnone
    push Not at hnone
    have hcount := calls_le_place hsegment hpending hnone
    obtain - | ⟨e, segment⟩ := segment
    · exact absurd hcalls (by simp [maxPending])
    cases hsegment with
    | cons =>
      have hplace := OrderedDict.place_lt (hpending _ List.mem_cons_self)
      have hbound := (bounded_run hn).pending
      dsimp only at hplace
      omega

/-- Tokens for a run of a few requests. -/
def sampleUuid (n : ℕ) : Bytes := List.replicate 31 '0'.toUInt8 ++ decimal n

theorem sampleUuid_fresh (e : Event (Desk R) (PageOp R) (PageAnswer R)) : Fresh sampleUuid e := by
  intro _ n hn h
  have hdecimal := List.append_cancel_left h
  rw [← digitsValue_decimal n, hdecimal, digitsValue_decimal] at hn
  exact lt_irrefl _ hn

def samplePage : MemoryPage ℕ := ⟨sampleUuid 0, 7, 0, 0, 2, 2, [5, 6]⟩

/-- A page is asked for, told of, received and shown. -/
def sampleOps : List (PageOp ℕ) :=
  [.read ⟨7, 0, 0⟩ false 1, .nextHeader, .accept (some samplePage) 2 2000, .read ⟨7, 0, 0⟩ false 3]

theorem pages_orderly_sample : ∃ tr d, (desk ℕ sampleUuid).Run {} tr d ∧ tr.map Event.input = sampleOps ∧
    Orderly sampleUuid tr d := by
  obtain ⟨tr, d, hrun, hinputs, -⟩ := Machine.exists_run (M := desk ℕ sampleUuid) (P := fun _ => True)
    (fun _ _ _ => ⟨_, _, rfl, trivial⟩) sampleOps trivial
  exact ⟨tr, d, hrun, hinputs, pages_orderly (fun e _ => sampleUuid_fresh e) hrun⟩

end AIWorld.Viewer
