/-
**Maps with text keys.**

The rows of a map are sorted by key, so two maps with the same contents are equal and are written in
one way only.

* `insert` replaces the value under a key, `insertNew` leaves it alone;
* `place_sorted`: placing a row keeps the order.
-/

namespace PolicyLedger

/-- Values under text keys, in the order of the keys. -/
structure KeyMap (α : Type) where
  rows : List (String × α)
  sorted : rows.Pairwise fun a b => a.1 < b.1

namespace KeyMap

variable {α : Type}

/-- The map without keys. -/
def empty : KeyMap α := ⟨[], .nil⟩

/-- The value under a key. -/
def get? (map : KeyMap α) (key : String) : Option α := map.rows.lookup key

/-- Holds of the keys with a value. -/
def contains (map : KeyMap α) (key : String) : Bool := (map.get? key).isSome

/-- The keys in order. -/
def keys (map : KeyMap α) : List String := map.rows.map Prod.fst

/-- Rows with a value under a key, at the key's place. -/
def place (key : String) (value : α) : List (String × α) → List (String × α)
  | [] => [(key, value)]
  | (k, v) :: rest =>
    if key < k then (key, value) :: (k, v) :: rest
    else if key = k then (key, value) :: rest
    else (k, v) :: place key value rest

/-- A placed row has its key or was there before. -/
theorem mem_place {key : String} {value : α} {rows : List (String × α)} {row : String × α}
    (placed : row ∈ place key value rows) : row.1 = key ∨ row ∈ rows := by
  induction rows with
  | nil => simp [place] at placed; simp [placed]
  | cons head rest ih =>
    obtain ⟨k, v⟩ := head
    unfold place at placed
    split at placed
    · simp only [List.mem_cons] at placed ⊢
      rcases placed with rfl | h | h
      · exact .inl rfl
      · exact .inr (.inl h)
      · exact .inr (.inr h)
    · split at placed
      · simp only [List.mem_cons] at placed ⊢
        rcases placed with rfl | h
        · exact .inl rfl
        · exact .inr (.inr h)
      · simp only [List.mem_cons] at placed ⊢
        rcases placed with h | h
        · exact .inr (.inl h)
        · exact (ih h).imp id .inr

/-- Placing keeps the order. -/
theorem place_sorted (key : String) (value : α) {rows : List (String × α)}
    (sorted : rows.Pairwise fun a b => a.1 < b.1) :
    (place key value rows).Pairwise fun a b => a.1 < b.1 := by
  induction rows with
  | nil => simp [place]
  | cons head rest ih =>
    obtain ⟨k, v⟩ := head
    rw [List.pairwise_cons] at sorted
    unfold place
    split
    next before =>
      refine List.pairwise_cons.2 ⟨fun row inside => ?_, List.pairwise_cons.2 sorted⟩
      rcases List.mem_cons.1 inside with rfl | inside
      · exact before
      · exact String.lt_trans before (sorted.1 row inside)
    next notBefore =>
      split
      next same => exact List.pairwise_cons.2 ⟨same ▸ sorted.1, sorted.2⟩
      next other =>
        refine List.pairwise_cons.2 ⟨fun row inside => ?_, ih sorted.2⟩
        rcases mem_place inside with same | inside
        · rw [same]
          exact Decidable.byContradiction fun after =>
            other (String.le_antisymm after notBefore)
        · exact sorted.1 row inside

/-- A map with a value under a key. -/
def insert (map : KeyMap α) (key : String) (value : α) : KeyMap α :=
  ⟨place key value map.rows, place_sorted key value map.sorted⟩

/-- A map with a value under a key, unless the key has one already. -/
def insertNew (map : KeyMap α) (key : String) (value : α) : KeyMap α :=
  if map.contains key then map else map.insert key value

/-- The map of some rows, of which the last one counts for each key. -/
def ofRows (rows : List (String × α)) : KeyMap α :=
  rows.foldl (fun map row => map.insert row.1 row.2) empty

end KeyMap

end PolicyLedger
