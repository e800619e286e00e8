import Mathlib.Data.List.Basic
import Tabula.OrderedMap

/-!
# Ordered maps by keys and values

An ordered map is given by its keys in order and the value of each, and its bindings can be listed
in any other order of the keys. Altering the values alone keeps the keys, and goes along with
inserting and erasing.
-/

namespace Tabula.OrderedMap

variable {Key Val Other : Type}

/-- The map with every value altered. -/
def mapValues (change : Val → Other) (map : OrderedMap Key Val) : OrderedMap Key Other where
  entries := map.entries.map fun binding => (binding.1, change binding.2)
  nodup := by
    rw [List.map_map]
    exact map.nodup

@[simp]
theorem keys_mapValues (change : Val → Other) (map : OrderedMap Key Val) :
    (map.mapValues change).keys = map.keys := by
  simp only [keys, mapValues, List.map_map]
  rfl

theorem ne_empty_of_mem_keys {map : OrderedMap Key Val} {key : Key} (key_mem : key ∈ map.keys) :
    map ≠ ∅ := by
  rintro rfl
  cases key_mem

variable [DecidableEq Key]

theorem forall_mem_keys_erase {map : OrderedMap Key Val} {holds : Key → Prop}
    (all : ∀ key ∈ map.keys, holds key) (erased : Key) :
    ∀ key ∈ (map.erase erased).keys, holds key :=
  fun key key_mem => all key (mem_keys_erase.mp key_mem).1

theorem lookup_map (change : Key → Val → Other) (key : Key) (bindings : List (Key × Val)) :
    lookup key (bindings.map fun binding => (binding.1, change binding.1 binding.2)) =
      (lookup key bindings).map (change key) := by
  induction bindings with
  | nil => rfl
  | cons binding rest ih =>
      rw [List.map_cons, lookup, lookup, ih]
      split
      · rename_i same
        rw [same]
        rfl
      · rfl

/-! ## Bindings in another order -/

/-- The bindings of some keys, in the order of these keys. -/
def bindings (map : OrderedMap Key Val) (keys : List Key) : List (Key × Val) :=
  keys.filterMap fun key => (map.get? key).map (Prod.mk key)

theorem bindings_cons {map : OrderedMap Key Val} {key : Key} {keys : List Key} {value : Val}
    (bound : map.get? key = some value) :
    map.bindings (key :: keys) = (key, value) :: map.bindings keys := by
  rw [bindings, List.filterMap_cons, bound, Option.map_some]
  rfl

theorem bindings_keys (map : OrderedMap Key Val) : map.bindings map.keys = map.entries := by
  have bound : ∀ binding ∈ map.entries,
      ((fun key => (map.get? key).map (Prod.mk key)) ∘ Prod.fst) binding = some binding := by
    intro binding binding_mem
    rw [Function.comp_apply, get?_eq_some_iff.mpr binding_mem, Option.map_some]
  rw [bindings, keys, List.filterMap_map, List.filterMap_congr bound, List.filterMap_some]

theorem bindings_perm {map : OrderedMap Key Val} {keys : List Key}
    (sameKeys : keys.Perm map.keys) : (map.bindings keys).Perm map.entries := by
  rw [← bindings_keys]
  exact sameKeys.filterMap _

theorem map_fst_bindings {map : OrderedMap Key Val} {keys : List Key}
    (bound : ∀ key ∈ keys, key ∈ map.keys) : (map.bindings keys).map Prod.fst = keys := by
  induction keys with
  | nil => rfl
  | cons key rest ih =>
      rw [List.forall_mem_cons] at bound
      rcases mem_keys_iff.mp bound.1 with ⟨value, found⟩
      rw [bindings_cons found, List.map_cons, ih bound.2]

theorem map_get?_eq_map_bindings {map : OrderedMap Key Val} {keys : List Key}
    (bound : ∀ key ∈ keys, key ∈ map.keys) :
    keys.map map.get? = (map.bindings keys).map fun binding => some binding.2 := by
  induction keys with
  | nil => rfl
  | cons key rest ih =>
      rw [List.forall_mem_cons] at bound
      rcases mem_keys_iff.mp bound.1 with ⟨value, found⟩
      rw [bindings_cons found, List.map_cons, List.map_cons, found, ih bound.2]

theorem map_get?_keys (map : OrderedMap Key Val) :
    map.keys.map map.get? = map.entries.map fun binding => some binding.2 := by
  rw [map_get?_eq_map_bindings fun _ key_mem => key_mem, bindings_keys]

theorem ext_of_get? {left right : OrderedMap Key Val} (sameKeys : left.keys = right.keys)
    (sameValues : ∀ key ∈ left.keys, left.get? key = right.get? key) : left = right := by
  refine OrderedMap.ext ?_
  rw [← bindings_keys left, ← bindings_keys right, ← sameKeys]
  apply List.filterMap_congr
  intro key key_mem
  rw [sameValues key key_mem]

/-! ## Keys and values under changes -/

@[simp]
theorem get?_mapValues (change : Val → Other) (map : OrderedMap Key Val) (key : Key) :
    (map.mapValues change).get? key = (map.get? key).map change :=
  lookup_map (fun _ => change) key map.entries

theorem contains_mapValues (change : Val → Other) (map : OrderedMap Key Val) (key : Key) :
    (map.mapValues change).contains key = map.contains key := by
  rw [contains, contains, get?_mapValues, Option.isSome_map]

theorem mapValues_insert (change : Val → Other) (map : OrderedMap Key Val) (key : Key)
    (value : Val) :
    (map.insert key value).mapValues change = (map.mapValues change).insert key (change value) := by
  refine OrderedMap.ext ?_
  simp only [mapValues, insert]
  induction map.entries with
  | nil => rfl
  | cons binding rest ih =>
      rw [List.map_cons, upsert, upsert]
      split
      · rfl
      · rw [List.map_cons, ih]

theorem mapValues_erase (change : Val → Other) (map : OrderedMap Key Val) (key : Key) :
    (map.erase key).mapValues change = (map.mapValues change).erase key := by
  refine OrderedMap.ext ?_
  simp only [mapValues, erase, List.filter_map]
  rfl

theorem filter_insert_of_not {keep : Key → Val → Bool} {map : OrderedMap Key Val} {key : Key}
    (value : Val) (dropped : ∀ value, keep key value = false) :
    (map.insert key value).filter keep = map.filter keep := by
  refine OrderedMap.ext ?_
  simp only [filter, insert]
  induction map.entries with
  | nil => simp [upsert, dropped]
  | cons binding rest ih =>
      rw [upsert]
      split
      · rename_i same
        subst same
        simp [dropped]
      · rw [List.filter_cons, List.filter_cons, ih]

theorem filter_erase_of_not {keep : Key → Val → Bool} {map : OrderedMap Key Val} {key : Key}
    (dropped : ∀ value, keep key value = false) :
    (map.erase key).filter keep = map.filter keep := by
  refine OrderedMap.ext ?_
  simp only [filter, erase, List.filter_filter]
  apply List.filter_congr
  rintro ⟨other, value⟩ _
  by_cases same : other = key
  · simp [same, dropped]
  · simp [same]

theorem keys_insert_of_not_mem {map : OrderedMap Key Val} {key : Key} {value : Val}
    (unbound : key ∉ map.keys) : (map.insert key value).keys = map.keys ++ [key] := by
  rw [keys, entries_insert_of_not_mem unbound, List.map_append]
  rfl

theorem entries_erase (map : OrderedMap Key Val) (key : Key) :
    (map.erase key).entries = map.entries.filter fun binding => binding.1 ≠ key :=
  rfl

theorem filter_entries_of_not_mem {map : OrderedMap Key Val} {key : Key}
    (unbound : key ∉ map.keys) :
    (map.entries.filter fun binding => binding.1 ≠ key) = map.entries :=
  congrArg OrderedMap.entries (erase_of_not_mem unbound)

/-- Binding a new key and erasing it again changes nothing. -/
theorem erase_insert_of_not_mem {map : OrderedMap Key Val} {key : Key} (value : Val)
    (unbound : key ∉ map.keys) : (map.insert key value).erase key = map := by
  refine OrderedMap.ext ?_
  rw [entries_erase, entries_insert_of_not_mem unbound, List.filter_append,
    filter_entries_of_not_mem unbound, List.filter_cons_of_neg (by simp), List.filter_nil,
    List.append_nil]

/-- Binding the pairs of a list puts the new keys among them behind the others. -/
theorem keys_foldl_insert (map : OrderedMap Key Val) {bindings : List (Key × Val)}
    (distinct : (bindings.map Prod.fst).Nodup) :
    (bindings.foldl (fun map binding => map.insert binding.1 binding.2) map).keys =
      map.keys ++ (bindings.map Prod.fst).filter (· ∉ map.keys) := by
  induction bindings generalizing map with
  | nil => simp
  | cons binding rest ih =>
      rw [List.map_cons, List.nodup_cons] at distinct
      rw [List.foldl_cons, ih _ distinct.2, List.map_cons, List.filter_cons]
      by_cases bound : binding.1 ∈ map.keys
      · rw [keys_insert_of_mem bound, if_neg (by simpa using bound)]
      · have others : (rest.map Prod.fst).filter (· ∉ map.keys ++ [binding.1]) =
            (rest.map Prod.fst).filter (· ∉ map.keys) := by
          apply List.filter_congr
          intro key key_mem
          have differs : key ≠ binding.1 := fun same => distinct.1 (same ▸ key_mem)
          simp [differs]
        rw [keys_insert_of_not_mem bound, others, if_pos (by simpa using bound),
          List.append_assoc, List.singleton_append]

/-- Binding a key again changes no value but its own. -/
theorem insert_eq_self {map : OrderedMap Key Val} {key : Key} {value : Val}
    (bound : map.get? key = some value) : map.insert key value = map := by
  refine ext_of_get? (keys_insert_of_mem (mem_keys_iff.mpr ⟨value, bound⟩)) ?_
  intro other _
  rw [get?_insert]
  split
  · rename_i same
    rw [← same, bound]
  · rfl

end Tabula.OrderedMap
