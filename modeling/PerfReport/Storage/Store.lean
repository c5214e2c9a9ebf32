import PerfReport.Error

/-!
# Run stores

Encoded snapshots by run id, and a counter that hands out ids. Ids grow and
are never handed out twice, whatever is deleted.
-/

namespace PerfReport

class RunStore (σ : Type) where
  get : σ → UInt64 → Except StoreError Text
  put : σ → UInt64 → Text → Except StoreError σ
  delete : σ → UInt64 → Except StoreError σ
  /-- The stored ids in ascending order. -/
  index : σ → Except StoreError (List UInt64)
  nextId : σ → Except StoreError (UInt64 × σ)
  /-- The store after it was closed. -/
  close : σ → σ
  /-- The store after it was closed and opened again. -/
  reopen : σ → σ

/-- Calls `f` on the ids in order until it answers with an error; gives the
ids it was called on. `f` also learns which ids it has `seen`, latest first. -/
def visitFrom {ε : Type} (f : List UInt64 → UInt64 → Option ε) :
    (seen : List UInt64) → List UInt64 → List UInt64 × Option ε
  | seen, [] => (seen.reverse, none)
  | seen, id :: ids =>
    match f seen id with
    | some e => ((id :: seen).reverse, some e)
    | none => visitFrom f (id :: seen) ids

/-- Visits the ids with an `f` that looks at nothing else. -/
def visit {ε : Type} (f : UInt64 → Option ε) (ids : List UInt64) : List UInt64 × Option ε :=
  visitFrom (fun _ => f) [] ids

end PerfReport
