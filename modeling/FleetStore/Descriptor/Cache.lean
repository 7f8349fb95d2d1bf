import FleetStore.Descriptor.Grammar

/-! # The statement cache

A cache keeps compiled statements by the name of their category, its keys and
the text of the descriptor, so that no statement is compiled twice. Entries
are numbered in the order in which they were added and never removed; the
number tells whether two answers are one and the same entry.
-/

namespace FleetStore.Descriptor

/-- What a compiled statement is kept by. -/
structure CacheKey where
  category : String
  keys : List Key
  descriptor : String
deriving DecidableEq, Repr

def CacheKey.of (c : Category) (descriptor : String) : CacheKey :=
  ⟨c.name, c.keys, descriptor⟩

structure CacheEntry where
  number : Nat
  key : CacheKey
  compiled : Compiled

/-- Compiled statements, the first one added first. -/
structure Cache where
  entries : List CacheEntry

namespace Cache

def empty : Cache := ⟨[]⟩

def size (cache : Cache) : Nat :=
  cache.entries.length

def isEmpty (cache : Cache) : Bool :=
  cache.size == 0

def find? (cache : Cache) (key : CacheKey) : Option CacheEntry :=
  cache.entries.find? fun e => e.key = key

/-- The compiled form of a descriptor, which is compiled when it is first asked
for. A descriptor that does not compile leaves the cache as it was. -/
def getOrCompile (cache : Cache) (c : Category) (descriptor : String) :
    Except Error (CacheEntry × Cache) :=
  match cache.find? (.of c descriptor) with
  | some entry => .ok (entry, cache)
  | none =>
      (compile c descriptor).map fun compiled =>
        let entry : CacheEntry := ⟨cache.size, .of c descriptor, compiled⟩
        (entry, ⟨cache.entries ++ [entry]⟩)

end Cache

end FleetStore.Descriptor
