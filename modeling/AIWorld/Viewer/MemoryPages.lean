import AIWorld.Lib.Json.Decimal
import AIWorld.Lib.Machine
import AIWorld.Lib.OrderedDict
import Mathlib.Data.Rat.Floor

/-! Pages of memories that the readers of the viewer ask for. A page that is not there is put on a list, the list is
told to the game server one entry at a time, and the page that comes back is kept for a while. Times in seconds are
exact rationals. The tokens of requests are drawn one after another. -/

namespace AIWorld.Viewer

open Lib
open Lib.Json (Bytes ascii decimal isDigit)

def maxPending : ℕ := 32

def maxCached : ℕ := 64

def requestTtl : ℚ := 60

def cacheTtl : ℚ := 30

def memoryPageSize : ℕ := 25

/-- What is asked for. -/
structure Key where
  agentId : ℕ
  offset : ℕ
  anchor : ℕ
  deriving DecidableEq

structure MemoryPage (R : Type) where
  requestId : Bytes
  agentId : ℕ
  offset : ℕ
  requestedAnchor : ℕ
  anchor : ℕ
  total : ℕ
  records : List R

def MemoryPage.key {R : Type} (page : MemoryPage R) : Key := ⟨page.agentId, page.offset, page.requestedAnchor⟩

/-- Thirty-two hexadecimal digits, as `uuid4().hex` writes them. -/
def isToken (t : Bytes) : Bool :=
  t.length = 32 && t.all fun c => isDigit c || ('a'.toUInt8 ≤ c && c ≤ 'f'.toUInt8)

/-- A page ends where the anchor or the page size ends it. -/
def MemoryPage.validPageBounds {R : Type} (page : MemoryPage R) : Bool :=
  !(page.anchor > page.total ||
    (page.records.length : ℤ) ≠ min (memoryPageSize : ℤ) (max 0 ((page.anchor : ℤ) - page.offset)))

/-- The checks on a page that comes from the game server, its records aside. -/
def MemoryPage.valid {R : Type} (page : MemoryPage R) : Bool :=
  isToken page.requestId && page.agentId > 0 && page.offset < UInt32.size && page.requestedAnchor < UInt32.size &&
    page.records.length ≤ memoryPageSize && page.validPageBounds

/-- A token with the time at which it was drawn. -/
structure Request where
  token : Bytes
  created : ℚ

structure CachedPage (R : Type) where
  page : MemoryPage R
  received : ℚ
  captured : ℕ

structure MemoryPages (R : Type) where
  pending : OrderedDict Key Request := .empty
  cached : OrderedDict Key (CachedPage R) := .empty

/-- The answer to a reader. A page is shown without the token of its request. -/
inductive ReadResult (R : Type)
  | ready (agentId offset requestedAnchor anchor total : ℕ) (records : List R) (capturedAtMs : ℕ) (ageMs : ℤ)
    (pageSize : ℕ)
  | pending (pageSize : ℕ)
  | tooManyRequests

/-- A number without its fraction. -/
def truncate (q : ℚ) : ℤ := if 0 ≤ q then ⌊q⌋ else ⌈q⌉

def MemoryPage.shown {R : Type} (page : MemoryPage R) (captured : ℕ) (ageMs : ℤ) : ReadResult R :=
  .ready page.agentId page.offset page.requestedAnchor page.anchor page.total page.records captured ageMs memoryPageSize

namespace MemoryPages

variable {R : Type}

def prune (s : MemoryPages R) (now : ℚ) (agentIds : Finset ℕ) : MemoryPages R where
  pending := s.pending.filter fun e => !(e.1.agentId ∉ agentIds || now - e.2.created ≥ requestTtl)
  cached := s.cached.filter fun e => !(e.1.agentId ∉ agentIds || now - e.2.received ≥ cacheTtl)

/-- The pages without the one that a reader wants anew. -/
def refreshed (s : MemoryPages R) (key : Key) (refresh : Bool) : MemoryPages R :=
  if refresh then { s with cached := s.cached.erase key } else s

/-- The answer, and whether the token was used. -/
def read (s : MemoryPages R) (key : Key) (refresh : Bool) (now : ℚ) (token : Bytes) :
    ReadResult R × Bool × MemoryPages R :=
  let s := s.refreshed key refresh
  match s.cached.get? key with
  | some c =>
    (c.page.shown c.captured (max 0 (truncate ((now - c.received) * 1000))), false,
      { s with cached := s.cached.moveToEnd key })
  | none =>
    if s.pending.contains key then (.pending memoryPageSize, false, s)
    else if s.pending.length ≥ maxPending then (.tooManyRequests, false, s)
    else (.pending memoryPageSize, true, { s with pending := s.pending.insert key ⟨token, now⟩ })

/-- A page answers the request with its token, as long as it is pending. -/
def answers (s : MemoryPages R) (page : MemoryPage R) : Bool :=
  (s.pending.get? page.key).any fun request => request.token = page.requestId

def accept (s : MemoryPages R) (page : Option (MemoryPage R)) (now : ℚ) (captured : ℕ) : MemoryPages R :=
  match page with
  | none => s
  | some page =>
    if !s.answers page then s
    else
      let cached := (s.cached.insert page.key ⟨page, now, captured⟩).moveToEnd page.key
      { pending := s.pending.erase page.key, cached := .shrink cached.length cached maxCached }

def header (token : Bytes) (key : Key) : Bytes :=
  token ++ ascii ":" ++ decimal key.agentId ++ ascii ":" ++ decimal key.offset ++ ascii ":" ++ decimal key.anchor

/-- The requests take turns: one that is told comes last. -/
def nextHeader (s : MemoryPages R) : Option Bytes × MemoryPages R :=
  match s.pending.first? with
  | none => (none, s)
  | some (key, request) => (some (header request.token key), { s with pending := s.pending.moveToEnd key })

end MemoryPages

/-! ### Runs -/

inductive PageOp (R : Type)
  | read (key : Key) (refresh : Bool) (now : ℚ)
  | accept (page : Option (MemoryPage R)) (now : ℚ) (captured : ℕ)
  | prune (now : ℚ) (agentIds : Finset ℕ)
  | nextHeader

inductive PageAnswer (R : Type)
  | done
  | result (r : ReadResult R)
  | header (text : Option Bytes)

/-- The pages, and how many tokens have been drawn. -/
structure Desk (R : Type) where
  pages : MemoryPages R := {}
  drawn : ℕ := 0

variable {R : Type}

def Desk.step (uuid4 : ℕ → Bytes) (s : Desk R) : PageOp R → PageAnswer R × Desk R
  | .read key refresh now =>
    match s.pages.read key refresh now (uuid4 s.drawn) with
    | (result, used, pages) => (.result result, { pages, drawn := if used then s.drawn + 1 else s.drawn })
  | .accept page now captured => (.done, { s with pages := s.pages.accept page now captured })
  | .prune now agentIds => (.done, { s with pages := s.pages.prune now agentIds })
  | .nextHeader => (.header s.pages.nextHeader.1, { s with pages := s.pages.nextHeader.2 })

def desk (R : Type) (uuid4 : ℕ → Bytes) : Machine (Desk R) (PageOp R) (PageAnswer R) where
  step s op := some (s.step uuid4 op)

end AIWorld.Viewer
