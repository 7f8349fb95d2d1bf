import FleetStore.Store.Memory

/-! # What every store offers

Statements are prepared, bound and run; bound statements that come from
patching are run as they are. Only preparing changes a store without writing to
it, because it fills the cache of statements.
-/

namespace FleetStore

/-- A store of records and files. -/
class Store (σ : Type) where
  register : σ → Category → Except StoreError σ
  prepare : σ → Category → String → Except Descriptor.Error (Prepared × σ)
  execute : σ → Prepared → Except ExecutionError σ
  executeQuery : {α : Type} → σ → Prepared → Except ExecutionError (Cursor α)
  applyWrite : σ → BoundWrite → Except ExecutionError σ
  runQuery : {α : Type} → σ → BoundQuery → Except ExecutionError (Cursor α)
  saveFile : σ → String → FileSource → Except StoreError σ
  loadFile : σ → String → Option (List UInt8)
  purge : σ → String → Except StoreError σ
  connection : σ → Connection
  listen : σ → String → σ

instance : Store MemoryStore where
  register := MemoryStore.register
  prepare := MemoryStore.prepare
  execute := MemoryStore.execute
  executeQuery := MemoryStore.executeQuery
  applyWrite := MemoryStore.applyWrite
  runQuery := MemoryStore.runQuery
  saveFile := MemoryStore.saveFile
  loadFile := MemoryStore.loadFile
  purge s agent := .ok (s.purge agent)
  connection s := s.connection
  listen s tag := { s with connection := s.connection.addListener tag }

end FleetStore
