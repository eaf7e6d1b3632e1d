/-
**Rows of maps.**

Rows that are placed under new keys are all there afterwards (`mem_foldl_place_iff`). Rows that are
sorted already are placed at the end, one after the other (`foldl_place_eq_append`), so a map is
made of its own rows (`ofRows_rows`), and setting a key to the value that it has changes nothing
(`insert_eq_self`). The order of rows with distinct keys does not matter (`ofRows_eq_of_perm`), so
new keys may be set in any order (`insert_comm`). What is looked up is a row (`get?_eq_some_iff`),
and a key that is set only if it is free takes nothing away (`get?_insertNew`).
-/

import Mathlib.Data.List.Nodup
import Mathlib.Logic.Basic
import PolicyLedger.KeyMap

namespace PolicyLedger.KeyMap

variable {α : Type}

/-- A row with a new key is placed among the others. -/
theorem mem_place_iff {key : String} {value : α} {rows : List (String × α)}
    (fresh : key ∉ rows.map Prod.fst) {row : String × α} :
    row ∈ place key value rows ↔ row = (key, value) ∨ row ∈ rows := by
  induction rows with
  | nil => simp [place]
  | cons head rest ih =>
    obtain ⟨k, v⟩ := head
    simp only [List.map_cons, List.mem_cons, not_or] at fresh
    rw [place]
    by_cases before : key < k
    · rw [if_pos before, List.mem_cons]
    · rw [if_neg before, if_neg fresh.1, List.mem_cons, ih fresh.2, List.mem_cons]
      exact or_left_comm

/-- Rows with distinct keys are all kept. -/
theorem mem_foldl_place_iff {rows done : List (String × α)}
    (distinct : (rows.map Prod.fst).Nodup)
    (apart : ∀ row ∈ rows, row.1 ∉ done.map Prod.fst) {row : String × α} :
    row ∈ rows.foldl (fun done row => place row.1 row.2 done) done ↔ row ∈ done ∨ row ∈ rows := by
  induction rows generalizing done with
  | nil => simp
  | cons head rest ih =>
    obtain ⟨key, value⟩ := head
    rw [List.map_cons, List.nodup_cons] at distinct
    rw [List.forall_mem_cons] at apart
    have placed := @mem_place_iff α key value done apart.1
    rw [List.foldl_cons, ih distinct.2, placed, List.mem_cons]
    · exact or_assoc.trans or_left_comm
    · intro row inside known
      obtain ⟨old, there, same⟩ := List.mem_map.mp known
      obtain rfl | there := placed.mp there
      · exact distinct.1 (List.mem_map.mpr ⟨row, inside, same.symm⟩)
      · exact apart.2 row inside (List.mem_map.mpr ⟨old, there, same⟩)

/-! ### Sorted rows -/

/-- Sorted rows have distinct keys. -/
theorem nodup_keys {rows : List (String × α)} (sorted : rows.Pairwise fun a b => a.1 < b.1) :
    (rows.map Prod.fst).Nodup := by
  refine List.pairwise_map.mpr (sorted.imp ?_)
  intro a b less same
  exact String.lt_irrefl b.1 (same ▸ less)

/-- A row behind all others is placed at the end. -/
theorem place_eq_append {key : String} {value : α} {rows : List (String × α)}
    (last : ∀ row ∈ rows, row.1 < key) : place key value rows = rows ++ [(key, value)] := by
  induction rows with
  | nil => rfl
  | cons head rest ih =>
    obtain ⟨k, v⟩ := head
    rw [List.forall_mem_cons] at last
    have before : ¬ key < k := fun less => String.lt_irrefl key (String.lt_trans less last.1)
    have other : key ≠ k := fun same => String.lt_irrefl k (same ▸ last.1)
    rw [place, if_neg before, if_neg other, ih last.2, List.cons_append]

/-- Sorted rows are placed at the end, one after the other. -/
theorem foldl_place_eq_append {rows done : List (String × α)}
    (sorted : (done ++ rows).Pairwise fun a b => a.1 < b.1) :
    rows.foldl (fun done row => place row.1 row.2 done) done = done ++ rows := by
  induction rows generalizing done with
  | nil => rw [List.foldl_nil, List.append_nil]
  | cons head rest ih =>
    have last : ∀ row ∈ done, row.1 < head.1 := fun row inside =>
      (List.pairwise_append.mp sorted).2.2 row inside head List.mem_cons_self
    rw [List.append_cons] at sorted
    rw [List.foldl_cons, place_eq_append last, ih sorted, ← List.append_cons]

theorem rows_foldl_insert (rows : List (String × α)) (map : KeyMap α) :
    (rows.foldl (fun map row => map.insert row.1 row.2) map).rows =
      rows.foldl (fun done row => place row.1 row.2 done) map.rows := by
  induction rows generalizing map with
  | nil => rfl
  | cons head rest ih => exact ih _

/-- Maps with the same rows are the same. -/
theorem ext_rows {map other : KeyMap α} (same : map.rows = other.rows) : map = other := by
  cases map
  cases other
  cases same
  rfl

/-- A map is made of its own rows. -/
theorem ofRows_rows (map : KeyMap α) : ofRows map.rows = map := by
  refine ext_rows ?_
  rw [ofRows, rows_foldl_insert]
  exact foldl_place_eq_append map.sorted

/-- A further row is set last. -/
theorem ofRows_append (rows : List (String × α)) (row : String × α) :
    ofRows (rows ++ [row]) = (ofRows rows).insert row.1 row.2 := by
  rw [ofRows, List.foldl_append]
  rfl

theorem place_eq_self {key : String} {value : α} {rows : List (String × α)}
    (sorted : rows.Pairwise fun a b => a.1 < b.1) (there : (key, value) ∈ rows) :
    place key value rows = rows := by
  induction rows with
  | nil => cases there
  | cons head rest ih =>
    obtain ⟨k, v⟩ := head
    rw [List.pairwise_cons] at sorted
    rw [place]
    obtain same | there := List.mem_cons.mp there
    · obtain ⟨rfl, rfl⟩ := Prod.mk.inj same
      rw [if_neg (String.lt_irrefl key), if_pos rfl]
    · have less : k < key := sorted.1 _ there
      have before : ¬ key < k := fun more => String.lt_irrefl key (String.lt_trans more less)
      have other : key ≠ k := fun same => String.lt_irrefl k (same ▸ less)
      rw [if_neg before, if_neg other, ih sorted.2 there]

/-- Setting a key to the value that it has changes nothing. -/
theorem insert_eq_self {map : KeyMap α} {key : String} {value : α}
    (there : (key, value) ∈ map.rows) : map.insert key value = map :=
  ext_rows (place_eq_self map.sorted there)

/-- A key has the value that it was set to. -/
theorem get?_insert (map : KeyMap α) (key : String) (value : α) :
    (map.insert key value).get? key = some value := by
  show (place key value map.rows).lookup key = some value
  induction map.rows with
  | nil => rw [place, List.lookup_cons_self]
  | cons head rest ih =>
    obtain ⟨k, v⟩ := head
    rw [place]
    split
    · exact List.lookup_cons_self
    · split
      · exact List.lookup_cons_self
      next other => rw [List.lookup_cons, beq_eq_false_iff_ne.mpr other, ih]

/-- The other keys keep what they have. -/
theorem get?_insert_of_ne {map : KeyMap α} {key other : String} {value : α}
    (apart : other ≠ key) : (map.insert key value).get? other = map.get? other := by
  show (place key value map.rows).lookup other = map.rows.lookup other
  have skip : ∀ rows, ((key, value) :: rows).lookup other = rows.lookup other := fun rows => by
    rw [List.lookup_cons, beq_eq_false_iff_ne.mpr apart]
  induction map.rows with
  | nil => exact skip []
  | cons head rest ih =>
    obtain ⟨k, v⟩ := head
    rw [place]
    split
    · exact skip _
    · split
      next same =>
        rw [skip, List.lookup_cons, ← same, beq_eq_false_iff_ne.mpr apart]
      next => rw [List.lookup_cons, List.lookup_cons, ih]

/-- A key that is set where it has no value has it then, and nothing else changes. -/
theorem get?_insertNew (map : KeyMap α) (key : String) (value : α) (other : String) :
    (map.insertNew key value).get? other =
      (map.get? other).or (if other = key then some value else none) := by
  rw [insertNew, contains]
  by_cases same : other = key
  · rw [if_pos same, same]
    cases found : map.get? key with
    | some old => simp [found]
    | none => simp [get?_insert]
  · rw [if_neg same, Option.or_none]
    split
    · rfl
    · exact get?_insert_of_ne same

/-- The rows of a map are its keys with their values. -/
theorem get?_eq_some_iff {map : KeyMap α} {key : String} {value : α} :
    map.get? key = some value ↔ (key, value) ∈ map.rows := by
  constructor
  · intro found
    obtain ⟨before, after, rows, _⟩ := List.lookup_eq_some_iff.mp found
    exact rows ▸ List.mem_append_right before List.mem_cons_self
  · intro inside
    have set := map.get?_insert key value
    rwa [insert_eq_self inside] at set

/-! ### Rows in another order -/

/-- Rows with distinct keys are the rows of their map, in some order. -/
theorem perm_ofRows {rows : List (String × α)} (distinct : (rows.map Prod.fst).Nodup) :
    (ofRows rows).rows.Perm rows := by
  have kept : ∀ row, row ∈ (ofRows rows).rows ↔ row ∈ rows := by
    intro row
    rw [ofRows, rows_foldl_insert, mem_foldl_place_iff distinct fun _ _ => List.not_mem_nil]
    exact or_iff_right List.not_mem_nil
  have sorted : (ofRows rows).rows.Nodup := .of_map Prod.fst (nodup_keys (ofRows rows).sorted)
  exact (List.perm_ext_iff_of_nodup sorted (.of_map Prod.fst distinct)).mpr kept

/-- The order of rows with distinct keys does not matter to their map. -/
theorem ofRows_eq_of_perm {rows others : List (String × α)}
    (distinct : (rows.map Prod.fst).Nodup) (permuted : rows.Perm others) :
    ofRows rows = ofRows others := by
  have distinctOthers : (others.map Prod.fst).Nodup :=
    (permuted.map Prod.fst).nodup_iff.mp distinct
  have same : (ofRows rows).rows.Perm (ofRows others).rows :=
    ((perm_ofRows distinct).trans permuted).trans (perm_ofRows distinctOthers).symm
  refine ext_rows (same.eq_of_pairwise ?_ (ofRows rows).sorted (ofRows others).sorted)
  intro a b _ _ less more
  exact absurd (String.lt_trans less more) (String.lt_irrefl a.1)

/-! ### Keys -/

theorem contains_eq_false_iff {map : KeyMap α} {key : String} :
    map.contains key = false ↔ key ∉ map.rows.map Prod.fst := by
  rw [contains, get?, Option.isSome_eq_false_iff, Option.isNone_iff_eq_none,
    List.lookup_eq_none_iff, List.mem_map, not_exists]
  refine forall_congr' fun row => ?_
  rw [not_and, bne_iff_ne, ne_comm]

theorem mem_keys_place {key other : String} {value : α} {rows : List (String × α)} :
    other ∈ (place key value rows).map Prod.fst ↔ other = key ∨ other ∈ rows.map Prod.fst := by
  induction rows with
  | nil => simp [place]
  | cons head rest ih =>
    obtain ⟨k, v⟩ := head
    rw [place]
    split
    · rw [List.map_cons, List.mem_cons]
    · split
      next same => simp [same]
      next => rw [List.map_cons, List.mem_cons, ih, List.map_cons, List.mem_cons, or_left_comm]

theorem contains_insert_eq_false_iff {map : KeyMap α} {key other : String} {value : α} :
    (map.insert key value).contains other = false ↔
      other ≠ key ∧ map.contains other = false := by
  rw [contains_eq_false_iff, contains_eq_false_iff, ← not_or]
  exact not_congr mem_keys_place

/-- A key is placed behind all others just if they are before it. -/
theorem keys_insert_eq_append_iff {map : KeyMap α} {key : String} {value : α} :
    (map.insert key value).rows.map Prod.fst = map.rows.map Prod.fst ++ [key] ↔
      ∀ row ∈ map.rows, row.1 < key := by
  constructor
  · intro same row inside
    have sorted := List.pairwise_map.mpr (map.insert key value).sorted
    rw [same] at sorted
    exact (List.pairwise_append.mp sorted).2.2 row.1 (List.mem_map_of_mem inside) key
      (List.mem_singleton_self key)
  · intro last
    have placed : (map.insert key value).rows = map.rows ++ [(key, value)] := place_eq_append last
    rw [placed, List.map_append]
    rfl

/-- Rows with new keys may be placed in either order. -/
theorem insert_comm {map : KeyMap α} {first second : String} (x y : α) (apart : first ≠ second)
    (freshFirst : map.contains first = false) (freshSecond : map.contains second = false) :
    (map.insert first x).insert second y = (map.insert second y).insert first x := by
  have built : ∀ a b : String × α, (map.insert a.1 a.2).insert b.1 b.2 =
      ofRows (map.rows ++ [a, b]) := fun a b => by
    rw [List.append_cons, ofRows_append, ofRows_append, ofRows_rows]
  rw [built (first, x) (second, y), built (second, y) (first, x)]
  refine ofRows_eq_of_perm ?_ ((List.Perm.swap _ _ _).append_left _)
  rw [contains_eq_false_iff] at freshFirst freshSecond
  rw [List.map_append]
  refine List.nodup_append.mpr ⟨nodup_keys map.sorted, by simpa using apart, ?_⟩
  rintro key inside other new rfl
  simp only [List.map_cons, List.map_nil, List.mem_cons, List.not_mem_nil, or_false] at new
  obtain rfl | rfl := new
  · exact freshFirst inside
  · exact freshSecond inside

end PolicyLedger.KeyMap
