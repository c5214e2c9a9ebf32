import PerfReport.Storage.Store

/-!
# Stores that fail

A store some of whose operations fail on purpose and then do nothing.
-/

namespace PerfReport

structure Faulty (σ : Type) where
  store : σ
  failing : List StoreCall := []

namespace Faulty

variable {σ : Type} [RunStore σ]

/-- The answer of a call unless it is made to fail. -/
def guarded {α : Type} (s : Faulty σ) (call : StoreCall) (r : Except StoreError α) :
    Except StoreError α :=
  if call ∈ s.failing then .error (.injected call) else r

instance : RunStore (Faulty σ) where
  get s id := s.guarded .get (RunStore.get s.store id)
  put s id bytes := s.guarded .put do
    return { s with store := ← RunStore.put s.store id bytes }
  delete s id := s.guarded .delete do
    return { s with store := ← RunStore.delete s.store id }
  index s := s.guarded .index (RunStore.index s.store)
  nextId s := s.guarded .nextId do
    let (id, store) ← RunStore.nextId s.store
    return (id, { s with store := store })
  close s := { s with store := RunStore.close s.store }
  reopen s := { s with store := RunStore.reopen s.store }

end Faulty

end PerfReport
