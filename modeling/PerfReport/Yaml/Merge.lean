import PerfReport.Yaml.Field

/-!
# Records and merges

A record is filled from the pairs of a mapping, each by its name and in their
order. A pair whose key is the merge mark stands for the pairs of a mapping or
of several: they come after all others and fill in only the names that have no
value yet, the earlier mapping before the later.
-/

namespace PerfReport.Yaml.Node

/-! ## Keys -/

/-- What two keys have in common if they are the same key. -/
def keyOf : Node → Nat × Text
  | .scalar t _ => (0, t)
  | .mapping _ => (1, [])
  | .sequence _ => (2, [])

/-- Every key occurs only once. -/
def hasDistinctKeys (pairs : List (Node × Node)) : Bool := (pairs.map fun p => p.1.keyOf).Nodup

def isMerge : Node → Bool
  | .scalar t .plain => t == mergeMark
  | .scalar t (.tagged tag) => t == mergeMark && tag == mergeTag
  | _ => false

/-- The name that a key gives; a null gives none, and only scalars fit. -/
def name? (key : Node) : Decoding (Option Text) :=
  match key with
  | .scalar t style =>
    match resolve? t style with
    | none => .fail .unreadable
    | some (.null, _) => pure none
    | some (_, t) => pure (some t)
  | _ => .misfits none

/-- A mapping, or a list of mappings. -/
def isMergeable : Node → Bool
  | .mapping _ => true
  | .sequence items => items.all fun
    | .mapping _ => true
    | _ => false
  | .scalar _ _ => false

/-- A collection that would be a key as it stands. -/
def isWholeCollection : Node → Bool
  | .scalar _ _ => false
  | .mapping pairs => hasDistinctKeys pairs
  | .sequence _ => true

mutual

/-- The node holds something that cannot be read whatever it is read for. -/
def isUnreadable : Node → Bool
  | .scalar t style => (resolve? t style).isNone
  | .mapping pairs => hasDistinctKeys pairs && hasUnreadablePair pairs
  | .sequence items => hasUnreadableItem items

def hasUnreadableItem : List Node → Bool
  | [] => false
  | n :: items => isUnreadable n || hasUnreadableItem items

def hasUnreadablePair : List (Node × Node) → Bool
  | [] => false
  | (key, value) :: pairs =>
    isUnreadable key || key.isWholeCollection || isUnreadable value
      || (key.isMerge && !value.isMergeable) || hasUnreadablePair pairs

end

/-- The text that a key is, if it is one, to be compared with the names of
merged pairs. A collection cannot be compared with them. -/
def comparedText? (key : Node) : Decoding (Option Text) :=
  match key with
  | .scalar t style =>
    match resolve? t style with
    | none => .fail .unreadable
    | some (.text, t) => pure (some t)
    | some _ => pure none
  | _ =>
    if !key.isWholeCollection then .misfits none
    else if key.isUnreadable then .fail .unreadable
    else .fail .mergeKey

/-- The texts among the keys of a mapping. -/
def comparedTexts : List (Node × Node) → Decoding (List Text)
  | [] => pure []
  | (key, _) :: pairs => do
    let t ← key.comparedText?
    return t.toList ++ (← comparedTexts pairs)

/-! ## Records -/

/-- A record under way. While pairs are merged into it, `present` are the names
that have a value. -/
structure Filling (ρ : Type) where
  record : ρ
  present : Option (List Text) := none

/-- How a record takes a named value. -/
abbrev Setter (ρ : Type) : Type := ρ → Text → Node → Decoding ρ

variable {ρ : Type}

/-- Fills in one pair, unless it merges others or its name has a value. -/
def fillPair (set : Setter ρ) (f : Filling ρ) (pair : Node × Node) : Decoding (Filling ρ) := do
  if pair.1.isMerge then return f
  match ← pair.1.name? with
  | none => return f
  | some name =>
    match f.present with
    | none => return { f with record := ← set f.record name pair.2 }
    | some names =>
      if names.contains name then return f
      else return ⟨← set f.record name pair.2, some (name :: names)⟩

/-- The names that have a value once merging begins. -/
def namesPresent (f : Filling ρ) (pairs : List (Node × Node)) : Decoding (List Text) :=
  match f.present with
  | some names => pure names
  | none => comparedTexts pairs

/-- Goes back to the state before a merge, with what it filled in. -/
def Filling.afterMerge (f : Filling ρ) (before : Filling ρ) : Filling ρ :=
  { f with present := if before.present.isSome then f.present else none }

mutual

/-- Fills a record from pairs: first those with names, then those that a merge
stands for. -/
def fillPairs (set : Setter ρ) (f : Filling ρ) (pairs : List (Node × Node)) :
    Decoding (Filling ρ) := do
  if !hasDistinctKeys pairs then .misfits f
  else
    let f ← pairs.foldlM (fillPair set) f
    fillMerge set f pairs pairs
termination_by (sizeOf pairs, 1)

/-- Fills in what the merge among `rest` stands for, in a mapping of all
`pairs`. -/
def fillMerge (set : Setter ρ) (f : Filling ρ) (pairs : List (Node × Node)) :
    (rest : List (Node × Node)) → Decoding (Filling ρ)
  | [] => pure f
  | (key, value) :: rest => do
    if !key.isMerge then fillMerge set f pairs rest
    else
      let names ← namesPresent f pairs
      let merging : Filling ρ := { f with present := some names }
      match value with
      | .mapping inner => return (← fillPairs set merging inner).afterMerge f
      | .sequence items => return (← fillItems set merging items).afterMerge f
      | .scalar _ _ => .fail .unreadable
termination_by rest => (sizeOf rest, 0)

/-- Fills in the pairs of several mappings. -/
def fillItems (set : Setter ρ) (f : Filling ρ) : List Node → Decoding (Filling ρ)
  | [] => pure f
  | .mapping inner :: items => do fillItems set (← fillPairs set f inner) items
  | _ :: _ => .fail .unreadable
termination_by items => (sizeOf items, 0)

end

/-- Fills a record from a mapping; a null leaves it as it is. -/
def fill (set : Setter ρ) (r : ρ) : Node → Decoding ρ
  | .mapping pairs => do return (← fillPairs set { record := r } pairs).record
  | n => fromScalar r (fun _ _ => none) n

end PerfReport.Yaml.Node
