import FleetStore.Duration.Writer
import FleetStore.Json.Basic

/-! # Settings of queued stores

A queued store has a name, from which its workers are named, and two limits on
the time for which it waits for its workers when it is shut down.
-/

namespace FleetStore

structure Settings where
  name : String
  /-- The store behind the queue is reached through a proxy, so that statements may
  be patched but never run directly. -/
  proxied : Bool
  writeTimeout : Duration
  fileTimeout : Duration
deriving DecidableEq, Repr

namespace Settings

def standard : Settings :=
  ⟨"ferrostat", false, .ofSeconds 3, .ofSeconds 3⟩

def writerName (s : Settings) : String := s.name ++ "-writes"

def filerName (s : Settings) : String := s.name ++ "-files"

/-- The document of settings, in the order in which a configuration lists them. -/
def toJson (s : Settings) : Json :=
  .obj [
    ("name", .str s.name), ("backing_storage_in_proxy", .bool s.proxied),
    ("queue_drain_timeout", .str s.writeTimeout.text),
    ("file_drain_timeout", .str s.fileTimeout.text)]

end Settings

end FleetStore
