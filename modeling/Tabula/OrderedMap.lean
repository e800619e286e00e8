/-!
# Ordered maps

A finite map that remembers the order in which its keys were first bound. Records, schemas,
catalogs, where clauses and set clauses are all of this kind: binding a new key puts it last,
binding a known key again keeps its place and replaces its value, and erasing a key closes the
gap. The list of bindings is the view through which everything else is stated; two maps are equal
exactly when they list the same bindings in the same order.
-/

namespace Tabula

variable {Key Val : Type}

/-- A list of bindings in which no key is bound twice. -/
@[ext]
structure OrderedMap (Key Val : Type) where
  /-- The bindings, oldest key first. -/
  entries : List (Key × Val)
  nodup : (entries.map Prod.fst).Nodup

namespace OrderedMap

instance [DecidableEq Key] [DecidableEq Val] : DecidableEq (OrderedMap Key Val) :=
  fun left right => decidable_of_iff (left.entries = right.entries) OrderedMap.ext_iff.symm

/-- The keys, oldest first. -/
def keys (map : OrderedMap Key Val) : List Key :=
  map.entries.map Prod.fst

def size (map : OrderedMap Key Val) : Nat :=
  map.entries.length

def isEmpty (map : OrderedMap Key Val) : Bool :=
  map.entries.isEmpty

def empty : OrderedMap Key Val :=
  ⟨[], List.nodup_nil⟩

instance : EmptyCollection (OrderedMap Key Val) := ⟨empty⟩

instance : Inhabited (OrderedMap Key Val) := ⟨empty⟩

def single (key : Key) (value : Val) : OrderedMap Key Val :=
  ⟨[(key, value)], by simp⟩

variable [DecidableEq Key]

/-- The first value that a list of bindings gives to a key. -/
def lookup (key : Key) : List (Key × Val) → Option Val
  | [] => none
  | (other, value) :: rest => if other = key then some value else lookup key rest

/-- Replace the value of a key where it stands, or bind it after everything else. -/
def upsert (key : Key) (value : Val) : List (Key × Val) → List (Key × Val)
  | [] => [(key, value)]
  | (other, old) :: rest =>
      if other = key then (key, value) :: rest else (other, old) :: upsert key value rest

theorem map_fst_upsert_of_mem {key : Key} {value : Val} {bindings : List (Key × Val)}
    (bound : key ∈ bindings.map Prod.fst) :
    (upsert key value bindings).map Prod.fst = bindings.map Prod.fst := by
  induction bindings with
  | nil => simp at bound
  | cons binding rest ih =>
      obtain ⟨other, old⟩ := binding
      by_cases same : other = key
      · simp [upsert, same]
      · have later : key ∈ rest.map Prod.fst := by
          rcases List.mem_cons.mp bound with first | later
          · exact absurd first.symm same
          · exact later
        rw [upsert, if_neg same, List.map_cons, List.map_cons, ih later]

theorem upsert_of_not_mem {key : Key} {value : Val} {bindings : List (Key × Val)}
    (unbound : key ∉ bindings.map Prod.fst) :
    upsert key value bindings = bindings ++ [(key, value)] := by
  induction bindings with
  | nil => rfl
  | cons binding rest ih =>
      obtain ⟨other, old⟩ := binding
      rw [List.map_cons, List.mem_cons, not_or] at unbound
      rw [upsert, if_neg (fun same => unbound.1 same.symm), ih unbound.2, List.cons_append]

theorem nodup_upsert (key : Key) (value : Val) {bindings : List (Key × Val)}
    (distinct : (bindings.map Prod.fst).Nodup) :
    ((upsert key value bindings).map Prod.fst).Nodup := by
  by_cases bound : key ∈ bindings.map Prod.fst
  · rw [map_fst_upsert_of_mem bound]
    exact distinct
  · rw [upsert_of_not_mem bound, List.map_append]
    refine List.nodup_append.mpr ⟨distinct, by simp, ?_⟩
    intro left left_mem right right_mem equal
    simp only [List.map_cons, List.map_nil, List.mem_singleton] at right_mem
    subst equal right_mem
    exact bound left_mem

def get? (map : OrderedMap Key Val) (key : Key) : Option Val :=
  lookup key map.entries

def contains (map : OrderedMap Key Val) (key : Key) : Bool :=
  (map.get? key).isSome

/-- Bind a key: a new key goes last, a known one keeps its place. -/
def insert (map : OrderedMap Key Val) (key : Key) (value : Val) : OrderedMap Key Val :=
  ⟨upsert key value map.entries, nodup_upsert key value map.nodup⟩

/-- Forget a key; the others keep their order. -/
def erase (map : OrderedMap Key Val) (key : Key) : OrderedMap Key Val :=
  ⟨map.entries.filter fun binding => binding.1 ≠ key,
    List.Nodup.sublist (List.Sublist.map Prod.fst List.filter_sublist) map.nodup⟩

/-- Forget every binding that fails a test; the others keep their order. -/
def filter (keep : Key → Val → Bool) (map : OrderedMap Key Val) : OrderedMap Key Val :=
  ⟨map.entries.filter fun binding => keep binding.1 binding.2,
    List.Nodup.sublist (List.Sublist.map Prod.fst List.filter_sublist) map.nodup⟩

/-- Bind the pairs of a list one after the other: a repeated key has its first place and its last
value. -/
def ofList (bindings : List (Key × Val)) : OrderedMap Key Val :=
  bindings.foldl (fun map binding => map.insert binding.1 binding.2) ∅

omit [DecidableEq Key] in
@[simp]
theorem entries_empty : (∅ : OrderedMap Key Val).entries = [] := rfl

omit [DecidableEq Key] in
@[simp]
theorem keys_empty : (∅ : OrderedMap Key Val).keys = [] := rfl

omit [DecidableEq Key] in
theorem keys_nodup (map : OrderedMap Key Val) : map.keys.Nodup := map.nodup

theorem lookup_eq_none_iff {key : Key} {bindings : List (Key × Val)} :
    lookup key bindings = none ↔ key ∉ bindings.map Prod.fst := by
  induction bindings with
  | nil => simp [lookup]
  | cons binding rest ih =>
      obtain ⟨other, value⟩ := binding
      by_cases same : other = key
      · simp [lookup, same]
      · simp only [lookup, if_neg same, ih, List.map_cons, List.mem_cons, not_or]
        exact ⟨fun absent => ⟨fun equal => same equal.symm, absent⟩, And.right⟩

theorem mem_of_lookup {key : Key} {value : Val} {bindings : List (Key × Val)}
    (found : lookup key bindings = some value) : (key, value) ∈ bindings := by
  induction bindings with
  | nil => simp [lookup] at found
  | cons binding rest ih =>
      obtain ⟨other, old⟩ := binding
      by_cases same : other = key
      · simp only [lookup, if_pos same, Option.some.injEq] at found
        simp [same, found]
      · simp only [lookup, if_neg same] at found
        exact List.mem_cons_of_mem _ (ih found)

theorem lookup_of_mem {key : Key} {value : Val} {bindings : List (Key × Val)}
    (distinct : (bindings.map Prod.fst).Nodup) (bound : (key, value) ∈ bindings) :
    lookup key bindings = some value := by
  induction bindings with
  | nil => simp at bound
  | cons binding rest ih =>
      obtain ⟨other, old⟩ := binding
      rw [List.map_cons, List.nodup_cons] at distinct
      rcases List.mem_cons.mp bound with first | later
      · cases first
        simp [lookup]
      · have differs : other ≠ key := by
          intro same
          subst same
          exact distinct.1 (List.mem_map.mpr ⟨_, later, rfl⟩)
        simp only [lookup, if_neg differs]
        exact ih distinct.2 later

theorem get?_eq_some_iff {map : OrderedMap Key Val} {key : Key} {value : Val} :
    map.get? key = some value ↔ (key, value) ∈ map.entries :=
  ⟨mem_of_lookup, lookup_of_mem map.nodup⟩

theorem get?_eq_none_iff {map : OrderedMap Key Val} {key : Key} :
    map.get? key = none ↔ key ∉ map.keys :=
  lookup_eq_none_iff

theorem contains_iff {map : OrderedMap Key Val} {key : Key} :
    map.contains key = true ↔ key ∈ map.keys := by
  rw [contains, Option.isSome_iff_ne_none, ne_eq, get?_eq_none_iff, Classical.not_not]

theorem mem_keys_iff {map : OrderedMap Key Val} {key : Key} :
    key ∈ map.keys ↔ ∃ value, map.get? key = some value := by
  rw [← contains_iff, contains, Option.isSome_iff_exists]

@[simp]
theorem get?_empty (key : Key) : (∅ : OrderedMap Key Val).get? key = none := rfl

theorem lookup_upsert (key other : Key) (value : Val) (bindings : List (Key × Val)) :
    lookup other (upsert key value bindings) =
      if key = other then some value else lookup other bindings := by
  induction bindings with
  | nil => simp [lookup, upsert]
  | cons binding rest ih =>
      obtain ⟨first, old⟩ := binding
      by_cases same : first = key
      · subst same
        by_cases wanted : first = other <;> simp [lookup, upsert, wanted]
      · by_cases wanted : first = other
        · subst wanted
          simp [lookup, upsert, same, Ne.symm same]
        · simp [lookup, upsert, same, wanted, ih]

@[simp]
theorem get?_insert (map : OrderedMap Key Val) (key other : Key) (value : Val) :
    (map.insert key value).get? other = if key = other then some value else map.get? other :=
  lookup_upsert key other value map.entries

theorem entries_insert_of_not_mem {map : OrderedMap Key Val} {key : Key} {value : Val}
    (unbound : key ∉ map.keys) :
    (map.insert key value).entries = map.entries ++ [(key, value)] :=
  upsert_of_not_mem unbound

theorem keys_insert_of_mem {map : OrderedMap Key Val} {key : Key} {value : Val}
    (bound : key ∈ map.keys) : (map.insert key value).keys = map.keys :=
  map_fst_upsert_of_mem bound

theorem mem_keys_insert {map : OrderedMap Key Val} {key other : Key} {value : Val} :
    other ∈ (map.insert key value).keys ↔ other = key ∨ other ∈ map.keys := by
  rw [← contains_iff, ← contains_iff, contains, contains, get?_insert]
  by_cases same : key = other
  · simp [same]
  · simp [same, Ne.symm same]

@[simp]
theorem keys_erase (map : OrderedMap Key Val) (key : Key) :
    (map.erase key).keys = map.keys.filter (· ≠ key) := by
  simp only [keys, erase, List.filter_map]
  rfl

theorem mem_keys_erase {map : OrderedMap Key Val} {key other : Key} :
    other ∈ (map.erase key).keys ↔ other ∈ map.keys ∧ other ≠ key := by
  rw [keys_erase, List.mem_filter, decide_eq_true_eq]

theorem erase_of_not_mem {map : OrderedMap Key Val} {key : Key} (unbound : key ∉ map.keys) :
    map.erase key = map := by
  refine OrderedMap.ext ?_
  rw [erase, List.filter_eq_self]
  intro binding binding_mem
  rw [decide_eq_true_eq]
  rintro rfl
  exact unbound (List.mem_map_of_mem binding_mem)

@[simp]
theorem get?_erase (map : OrderedMap Key Val) (key other : Key) :
    (map.erase key).get? other = if key = other then none else map.get? other := by
  by_cases same : key = other
  · subst same
    rw [if_pos rfl, get?_eq_none_iff]
    simp
  · rw [if_neg same]
    cases found : map.get? other with
    | none =>
        rw [get?_eq_none_iff] at found ⊢
        simp [found]
    | some value =>
        rw [get?_eq_some_iff] at found ⊢
        simp [erase, found, Ne.symm same]

@[simp]
theorem get?_filter (keep : Key → Val → Bool) (map : OrderedMap Key Val) (key : Key) :
    (map.filter keep).get? key = (map.get? key).filter (keep key) := by
  cases found : (map.filter keep).get? key with
  | some value =>
      rw [get?_eq_some_iff, filter, List.mem_filter] at found
      rw [get?_eq_some_iff.mpr found.1, Option.filter_some, if_pos found.2]
  | none =>
      symm
      rw [Option.filter_eq_none_iff]
      intro value bound kept
      have member : (key, value) ∈ (map.filter keep).entries :=
        List.mem_filter.mpr ⟨get?_eq_some_iff.mp bound, kept⟩
      rw [get?_eq_some_iff.mpr member] at found
      cases found

/-- Binding the pairs of a list gives each of its keys the list's value and leaves the others. -/
theorem get?_foldl_insert (map : OrderedMap Key Val) {bindings : List (Key × Val)}
    (distinct : (bindings.map Prod.fst).Nodup) (key : Key) :
    (bindings.foldl (fun map binding => map.insert binding.1 binding.2) map).get? key =
      (lookup key bindings).or (map.get? key) := by
  induction bindings generalizing map with
  | nil => simp [lookup]
  | cons binding rest ih =>
      obtain ⟨other, value⟩ := binding
      rw [List.map_cons, List.nodup_cons] at distinct
      rw [List.foldl_cons, ih _ distinct.2, get?_insert]
      by_cases same : other = key
      · subst same
        have absent : lookup other rest = none := lookup_eq_none_iff.mpr distinct.1
        simp [lookup, absent]
      · simp [lookup, same]

theorem keys_foldl_insert_of_mem (map : OrderedMap Key Val) {bindings : List (Key × Val)}
    (bound : ∀ binding ∈ bindings, binding.1 ∈ map.keys) :
    (bindings.foldl (fun map binding => map.insert binding.1 binding.2) map).keys = map.keys := by
  induction bindings generalizing map with
  | nil => rfl
  | cons binding rest ih =>
      have kept : (map.insert binding.1 binding.2).keys = map.keys :=
        keys_insert_of_mem (bound binding List.mem_cons_self)
      rw [List.foldl_cons, ih _ fun other other_mem => ?_, kept]
      rw [kept]
      exact bound other (List.mem_cons_of_mem _ other_mem)

theorem entries_foldl_insert_of_nodup (map : OrderedMap Key Val) {bindings : List (Key × Val)}
    (distinct : (map.keys ++ bindings.map Prod.fst).Nodup) :
    (bindings.foldl (fun map binding => map.insert binding.1 binding.2) map).entries =
      map.entries ++ bindings := by
  induction bindings generalizing map with
  | nil => simp
  | cons binding rest ih =>
      obtain ⟨key, value⟩ := binding
      rw [List.map_cons, List.append_cons] at distinct
      have unbound : key ∉ map.keys := by
        intro bound
        have before := (List.nodup_append.mp distinct).1
        exact (List.nodup_append.mp before).2.2 key bound key (by simp) rfl
      have extended : (map.insert key value).entries = map.entries ++ [(key, value)] :=
        entries_insert_of_not_mem unbound
      rw [List.foldl_cons, ih, extended, List.append_assoc, List.singleton_append]
      rw [keys, extended, List.map_append]
      exact distinct

theorem entries_ofList {bindings : List (Key × Val)} (distinct : (bindings.map Prod.fst).Nodup) :
    (ofList bindings).entries = bindings := by
  have unbound : ((∅ : OrderedMap Key Val).keys ++ bindings.map Prod.fst).Nodup := by
    simpa using distinct
  exact entries_foldl_insert_of_nodup ∅ unbound

@[simp]
theorem ofList_entries (map : OrderedMap Key Val) : ofList map.entries = map :=
  OrderedMap.ext (entries_ofList map.nodup)

end OrderedMap

end Tabula
