import FleetStore.Store.Interface

/-! # Running descriptors and reading samples

A descriptor is prepared, bound and run in one go. On top of that stand the
common questions about samples, which are the records of categories that have
the keys `agentId`, perhaps `vmId`, and `timeStamp`. Whatever fails later, a
descriptor that was prepared stays in the cache; so every answer comes with the
store after it.
-/

namespace FleetStore

namespace Store

variable {σ : Type} [Store σ]

/-- Prepares a descriptor, binds values to it and goes on with the statement. -/
def withBound {β : Type} (s : σ) (c : Category) (descriptor : String)
    (values : List (Nat × Value)) (go : σ → Prepared → Except StoreError β × σ) :
    Except StoreError β × σ :=
  match prepare s c descriptor with
  | .error e => (.error (.descriptor e), s)
  | .ok (statement, s) =>
      match statement.setParameters values with
      | .error e => (.error (.patch e), s)
      | .ok statement => go s statement

def executeDescriptor (s : σ) (c : Category) (descriptor : String)
    (values : List (Nat × Value)) : Except StoreError Status × σ :=
  withBound s c descriptor values fun s statement =>
    match execute s statement with
    | .error e => (.error (.execution e), s)
    | .ok s => (.ok .success, s)

variable {α : Type}

def queryDescriptor (s : σ) (c : Category) (descriptor : String)
    (values : List (Nat × Value)) : Except StoreError (Cursor α) × σ :=
  withBound s c descriptor values fun s statement =>
    ((executeQuery s statement).mapError .execution, s)

variable [Entity α]

/-- Runs a descriptor as a query and collects its rows. -/
def queryList (s : σ) (c : Category) (descriptor : String)
    (values : List (Nat × Value)) : Except StoreError (List α) × σ :=
  let (found, s) := queryDescriptor s c descriptor values
  (found.bind Cursor.collect, s)

/-- Runs a descriptor as a query and takes its first row. -/
def queryHead (s : σ) (c : Category) (descriptor : String)
    (values : List (Nat × Value)) : Except StoreError (Option α) × σ :=
  let (found, s) := queryDescriptor s c descriptor values
  (found.bind Cursor.head, s)

end Store

namespace Samples

/-! ## Descriptors -/

def hostLatestText (category : String) : String :=
  s!"QUERY {category} WHERE 'agentId' = ?s AND 'timeStamp' > ?l SORT 'timeStamp' DSC"

def vmLatestText (category : String) : String :=
  s!"QUERY {category} WHERE 'agentId' = ?s AND 'vmId' = ?s AND 'timeStamp' > ?l "
    ++ "SORT 'timeStamp' DSC"

def hostIntervalText (category : String) : String :=
  s!"QUERY {category} WHERE 'agentId' = ?s AND 'timeStamp' >= ?l AND 'timeStamp' < ?l "
    ++ "SORT 'timeStamp' DSC"

def hostNewestText (category : String) : String :=
  s!"QUERY {category} WHERE 'agentId' = ?s SORT 'timeStamp' DSC LIMIT 1"

def hostOldestText (category : String) : String :=
  s!"QUERY {category} WHERE 'agentId' = ?s SORT 'timeStamp' ASC LIMIT 1"

/-! ## Questions -/

variable {σ α : Type} [Store σ] [Entity α]

/-- The samples of a host that are newer than a time, the newest first. -/
def hostLatest (s : σ) (c : Category) (agent : String) (since : Int64) :
    Except StoreError (List α) × σ :=
  Store.queryList s c (hostLatestText c.name) [(0, .string agent), (1, .long since)]

/-- The samples of a virtual machine that are newer than a time, the newest first. -/
def vmLatest (s : σ) (c : Category) (agent vm : String) (since : Int64) :
    Except StoreError (List α) × σ :=
  Store.queryList s c (vmLatestText c.name)
    [(0, .string agent), (1, .string vm), (2, .long since)]

/-- The samples of a host from a start on and before a stop, the newest first. -/
def hostInterval (s : σ) (c : Category) (agent : String) (start stop : Int64) :
    Except StoreError (List α) × σ :=
  Store.queryList s c (hostIntervalText c.name)
    [(0, .string agent), (1, .long start), (2, .long stop)]

def hostNewest (s : σ) (c : Category) (agent : String) : Except StoreError (Option α) × σ :=
  Store.queryHead s c (hostNewestText c.name) [(0, .string agent)]

def hostOldest (s : σ) (c : Category) (agent : String) : Except StoreError (Option α) × σ :=
  Store.queryHead s c (hostOldestText c.name) [(0, .string agent)]

end Samples

end FleetStore
