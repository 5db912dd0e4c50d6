import Mathlib.Data.List.AList
import Mathlib.Data.List.MinMax
import UniBus.Core.Types

/-!
# Response cache of a session

Least-recently-used cache with a time to live. The clock is an argument of
every operation that reads it.
-/
namespace UniBus.Transport

/-- Source node and opaque identifier. -/
abbrev CacheKey := UInt16 × UInt64

structure CacheEntry where
  response : List UInt8
  insertedAt : Instant
  order : ℕ
  deriving DecidableEq, Repr

structure ReadResponseCache where
  entries : AList (fun _ : CacheKey => CacheEntry)
  capacity : ℕ
  ttl : ℕ
  nextOrder : ℕ

namespace ReadResponseCache

def new (capacity ttl : ℕ) : ReadResponseCache := ⟨∅, capacity, ttl, 0⟩

def defaultCache : ReadResponseCache := new 1024 (fromMillis 5000)

variable (c : ReadResponseCache)

/-- Looks a response up, dropping it when expired and refreshing it when not. -/
def get (now : Instant) (key : CacheKey) : ReadResponseCache × Option (List UInt8) :=
  match c.entries.lookup key with
  | none => (c, none)
  | some entry =>
    if now - entry.insertedAt > c.ttl then ({ c with entries := c.entries.erase key }, none)
    else
      ({ c with
          entries := c.entries.insert key { entry with order := c.nextOrder }
          nextOrder := c.nextOrder + 1 },
        some entry.response)

def removeExpired (now : Instant) : ReadResponseCache :=
  { c with
    entries :=
      ⟨c.entries.entries.filter fun e => now - e.2.insertedAt ≤ c.ttl,
        c.entries.nodupKeys.sublist List.filter_sublist⟩ }

def findLruKey : Option CacheKey :=
  (c.entries.entries.argmin fun e => e.2.order).map fun e => e.1

/-- Evicts the least recently used entry of a full cache. -/
def evictIfFull : ReadResponseCache :=
  if c.entries.entries.length ≥ c.capacity then
    match c.findLruKey with
    | some key => { c with entries := c.entries.erase key }
    | none => c
  else c

def insert (now : Instant) (key : CacheKey) (response : List UInt8) : ReadResponseCache :=
  let c := (c.removeExpired now).evictIfFull
  { c with
    entries := c.entries.insert key ⟨response, now, c.nextOrder⟩
    nextOrder := c.nextOrder + 1 }

end ReadResponseCache
end UniBus.Transport
