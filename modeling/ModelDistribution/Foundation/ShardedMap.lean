/-
Module: ModelDistribution.Foundation.ShardedMap
Layer: Foundation
Purpose: Concurrent maps split into shards. A map is its duplicate-free list of entries; a layout
  says which shard a key belongs to and in which order one shard yields its entries, so iteration
  visits the shards one after another and every map entry exactly once.
Imports: Mathlib.Data.List.Perm.Basic, Mathlib.Data.List.Nodup
Trusted boundary: human-reviewed spec
Main exports: Layout, ShardedMap, HashedSet, ShardedMap.get?, ShardedMap.insert, ShardedMap.retain,
  ShardedMap.mapValues, ShardedMap.keys, ShardedMap.contains, Layout.shard, Layout.iter, mem_iter,
  mem_keys, get?_insert, get?_retain, ShardedMap.ofEntries, Layout.reorder
-/
import Mathlib.Data.List.Perm.Basic
import Mathlib.Data.List.Nodup

namespace ModelDistribution.Foundation

/-- How a map spreads its keys over shards, and how one shard orders its entries. -/
structure Layout (K V : Type) where
  shardCount : Nat
  shardOf : K → Nat
  shardOf_lt : ∀ key, shardOf key < shardCount
  /-- The order in which the hash table of one shard yields its entries. -/
  order : List (K × V) → List (K × V)
  order_perm : ∀ entries, (order entries).Perm entries

/-- A finite map as a list of entries with pairwise different keys. -/
structure ShardedMap (K V : Type) where
  entries : List (K × V)
  nodup : (entries.map Prod.fst).Nodup

/-- A set is a map without values. -/
abbrev HashedSet (K : Type) := ShardedMap K Unit

variable {K V : Type}

namespace ShardedMap

/-- The empty map. -/
def empty : ShardedMap K V := ⟨[], List.nodup_nil⟩

/-- Keep the entries that satisfy the predicate. -/
def retain (keep : K → V → Bool) (map : ShardedMap K V) : ShardedMap K V where
  entries := map.entries.filter fun entry => keep entry.1 entry.2
  nodup := map.nodup.sublist (List.filter_sublist.map Prod.fst)

/-- Change every value in place. -/
def mapValues (change : K → V → V) (map : ShardedMap K V) : ShardedMap K V where
  entries := map.entries.map fun entry => (entry.1, change entry.1 entry.2)
  nodup := by
    rw [List.map_map]
    exact map.nodup

variable [DecidableEq K]

/-- Look a key up. -/
def get? (map : ShardedMap K V) (key : K) : Option V :=
  (map.entries.find? fun entry => entry.1 = key).map Prod.snd

/-- Replace the value of a present key, or add the key. -/
def insert (map : ShardedMap K V) (key : K) (value : V) : ShardedMap K V :=
  if present : key ∈ map.entries.map Prod.fst then
    { entries := map.entries.map fun entry => if entry.1 = key then (key, value) else entry
      nodup := by
        have keys : (map.entries.map fun entry =>
            if entry.1 = key then (key, value) else entry).map Prod.fst =
            map.entries.map Prod.fst := by
          rw [List.map_map]
          refine List.map_congr_left fun entry _ => ?_
          by_cases same : entry.1 = key <;> simp [same]
        rw [keys]
        exact map.nodup }
  else
    { entries := map.entries ++ [(key, value)]
      nodup := by
        rw [List.map_append, List.nodup_append]
        refine ⟨map.nodup, by simp, ?_⟩
        rintro k hk _ hmem rfl
        simp at hmem
        exact present (hmem ▸ hk) }

omit [DecidableEq K] in
/-- The keys in the order of the entries. -/
def keys (map : ShardedMap K V) : List K := map.entries.map Prod.fst

/-- Whether a key is present. -/
def contains (map : ShardedMap K V) (key : K) : Bool := (map.get? key).isSome

/-! ### Lookup and membership -/

omit [DecidableEq K] in
theorem value_unique {map : ShardedMap K V} {key : K} {v w : V} (hv : (key, v) ∈ map.entries)
    (hw : (key, w) ∈ map.entries) : v = w := by
  have same := List.inj_on_of_nodup_map map.nodup hv hw rfl
  exact (Prod.mk.injEq _ _ _ _ ▸ same).2

theorem get?_eq_some_iff {map : ShardedMap K V} {key : K} {value : V} :
    map.get? key = some value ↔ (key, value) ∈ map.entries := by
  constructor
  · intro h
    obtain ⟨⟨k, v⟩, found, rfl⟩ := Option.map_eq_some_iff.mp h
    have sameKey : k = key := by simpa using List.find?_some found
    subst sameKey
    exact List.mem_of_find?_eq_some found
  · intro h
    cases found : map.entries.find? fun entry => entry.1 = key with
    | none => exact absurd (List.find?_eq_none.mp found _ h) (by simp)
    | some entry =>
        obtain ⟨k, v⟩ := entry
        have sameKey : k = key := by simpa using List.find?_some found
        subst sameKey
        have sameValue := value_unique (List.mem_of_find?_eq_some found) h
        simp [get?, found, sameValue]

theorem mem_keys {map : ShardedMap K V} {key : K} :
    key ∈ map.keys ↔ ∃ value, map.get? key = some value := by
  simp only [keys, List.mem_map, get?_eq_some_iff]
  constructor
  · rintro ⟨⟨k, value⟩, mem, rfl⟩
    exact ⟨value, mem⟩
  · rintro ⟨value, mem⟩
    exact ⟨(key, value), mem, rfl⟩

/-- The members of a set. -/
theorem mem_keys_set {set : HashedSet K} {key : K} : key ∈ set.keys ↔ set.get? key = some () := by
  rw [mem_keys]
  exact ⟨fun ⟨_, found⟩ => found, fun found => ⟨(), found⟩⟩

theorem contains_iff {map : ShardedMap K V} {key : K} :
    map.contains key = true ↔ key ∈ map.keys := by
  rw [contains, Option.isSome_iff_exists, mem_keys]

/-- A key is counted once if its value passes the check, and never if it is absent. -/
theorem countP_key (map : ShardedMap K V) (key : K) (p : V → Bool) :
    map.entries.countP (fun entry => decide (entry.1 = key) && p entry.2) =
      ((map.get? key).any p).toNat := by
  obtain ⟨entries, unique⟩ := map
  simp only [get?]
  induction entries with
  | nil => rfl
  | cons entry entries ih =>
      rw [List.map_cons, List.nodup_cons] at unique
      rw [List.countP_cons]
      by_cases same : entry.1 = key
      · have none : entries.countP (fun entry => decide (entry.1 = key) && p entry.2) = 0 := by
          refine List.countP_eq_zero.mpr fun other mem => ?_
          have different : other.1 ≠ key := fun e =>
            unique.1 (same.trans e.symm ▸ List.mem_map_of_mem mem)
          simp [different]
        cases passes : p entry.2 <;> simp [none, same, passes]
      · simpa [same] using ih unique.2

@[simp] theorem get?_empty (key : K) : (empty : ShardedMap K V).get? key = none := rfl

omit [DecidableEq K] in
@[simp] theorem entries_empty : (empty : ShardedMap K V).entries = [] := rfl

theorem mem_insert {map : ShardedMap K V} {key k : K} {value v : V} :
    (k, v) ∈ (map.insert key value).entries ↔
      (k = key ∧ v = value) ∨ (k ≠ key ∧ (k, v) ∈ map.entries) := by
  unfold insert
  by_cases present : key ∈ map.entries.map Prod.fst
  · obtain ⟨⟨key', old⟩, stored, sameKey⟩ := List.mem_map.mp present
    rw [dif_pos present, List.mem_map]
    constructor
    · rintro ⟨⟨k', v'⟩, mem, eq⟩
      by_cases same : k' = key
      · rw [if_pos same] at eq
        cases eq
        exact .inl ⟨rfl, rfl⟩
      · rw [if_neg same] at eq
        cases eq
        exact .inr ⟨same, mem⟩
    · rintro (⟨rfl, rfl⟩ | ⟨different, mem⟩)
      · exact ⟨_, stored, if_pos sameKey⟩
      · exact ⟨_, mem, if_neg different⟩
  · rw [dif_neg present, List.mem_append, List.mem_singleton, Prod.mk.injEq]
    constructor
    · rintro (mem | new)
      · exact .inr ⟨fun same => present (List.mem_map.mpr ⟨_, mem, same⟩), mem⟩
      · exact .inl new
    · rintro (new | ⟨_, mem⟩)
      · exact .inr new
      · exact .inl mem

theorem get?_insert (map : ShardedMap K V) (key k : K) (value : V) :
    (map.insert key value).get? k = if k = key then some value else map.get? k := by
  by_cases same : k = key
  · rw [if_pos same]
    exact get?_eq_some_iff.mpr (mem_insert.mpr (.inl ⟨same, rfl⟩))
  · rw [if_neg same]
    refine Option.ext fun v => ?_
    rw [get?_eq_some_iff, get?_eq_some_iff, mem_insert]
    simp [same]

omit [DecidableEq K] in
theorem mem_retain {map : ShardedMap K V} {keep : K → V → Bool} {k : K} {v : V} :
    (k, v) ∈ (map.retain keep).entries ↔ (k, v) ∈ map.entries ∧ keep k v = true := by
  simp [retain]

theorem get?_retain (map : ShardedMap K V) (keep : K → V → Bool) (k : K) :
    (map.retain keep).get? k = (map.get? k).filter (keep k) := by
  refine Option.ext fun v => ?_
  rw [get?_eq_some_iff, mem_retain, Option.filter_eq_some_iff, get?_eq_some_iff]

omit [DecidableEq K] in
theorem mem_mapValues {map : ShardedMap K V} {change : K → V → V} {k : K} {w : V} :
    (k, w) ∈ (map.mapValues change).entries ↔ ∃ v, (k, v) ∈ map.entries ∧ change k v = w := by
  simp only [mapValues, List.mem_map, Prod.mk.injEq]
  constructor
  · rintro ⟨⟨k', v⟩, mem, rfl, rfl⟩
    exact ⟨v, mem, rfl⟩
  · rintro ⟨v, mem, rfl⟩
    exact ⟨(k, v), mem, rfl, rfl⟩

theorem get?_mapValues (map : ShardedMap K V) (change : K → V → V) (k : K) :
    (map.mapValues change).get? k = (map.get? k).map (change k) := by
  refine Option.ext fun w => ?_
  rw [get?_eq_some_iff, mem_mapValues, Option.map_eq_some_iff]
  simp only [get?_eq_some_iff]

omit [DecidableEq K] in
theorem eq_of_entries {map other : ShardedMap K V} (same : map.entries = other.entries) :
    map = other := by
  cases map
  cases other
  cases same
  rfl

/-- The map that adding the entries one after another makes. -/
def ofEntries (entries : List (K × V)) : ShardedMap K V :=
  entries.foldl (fun map entry => map.insert entry.1 entry.2) empty

theorem entries_insert_of_fresh {map : ShardedMap K V} {key : K} (fresh : key ∉ map.keys)
    (value : V) : (map.insert key value).entries = map.entries ++ [(key, value)] := by
  have absent : key ∉ map.entries.map Prod.fst := fresh
  rw [insert, dif_neg absent]

/-- Entries with different keys are added in their order. -/
theorem entries_foldl_insert {entries : List (K × V)} {map : ShardedMap K V}
    (distinct : ((map.entries ++ entries).map Prod.fst).Nodup) :
    (entries.foldl (fun map entry => map.insert entry.1 entry.2) map).entries =
      map.entries ++ entries := by
  induction entries generalizing map with
  | nil => simp
  | cons entry entries ih =>
      have fresh : entry.1 ∉ map.keys := by
        intro mem
        rw [List.map_append, List.nodup_append] at distinct
        exact distinct.2.2 _ mem _ (by simp) rfl
      have added := entries_insert_of_fresh fresh entry.2
      rw [List.foldl_cons, ih, added, List.append_assoc, List.singleton_append]
      rw [added, List.append_assoc]
      exact distinct

theorem entries_ofEntries {entries : List (K × V)} (distinct : (entries.map Prod.fst).Nodup) :
    (ofEntries entries).entries = entries :=
  @entries_foldl_insert K V _ entries empty distinct

end ShardedMap

namespace Layout

/-- The entries of one shard in iteration order. -/
def shard (layout : Layout K V) (map : ShardedMap K V) (s : Nat) : List (K × V) :=
  layout.order (map.entries.filter fun entry => layout.shardOf entry.1 = s)

/-- Iteration visits shard after shard. -/
def iter (layout : Layout K V) (map : ShardedMap K V) : List (K × V) :=
  (List.range layout.shardCount).flatMap (layout.shard map)

theorem mem_shard {layout : Layout K V} {map : ShardedMap K V} {s : Nat} {entry : K × V} :
    entry ∈ layout.shard map s ↔ entry ∈ map.entries ∧ layout.shardOf entry.1 = s := by
  rw [shard, (layout.order_perm _).mem_iff]
  simp

theorem mem_iter {layout : Layout K V} {map : ShardedMap K V} {entry : K × V} :
    entry ∈ layout.iter map ↔ entry ∈ map.entries := by
  simp only [iter, List.mem_flatMap, List.mem_range, mem_shard]
  constructor
  · rintro ⟨_, _, mem, _⟩
    exact mem
  · intro mem
    exact ⟨_, layout.shardOf_lt entry.1, mem, rfl⟩

private theorem flatMap_filter_perm (f : K × V → Nat) (entries : List (K × V)) :
    ∀ n, ((List.range n).flatMap fun s => entries.filter fun entry => f entry = s).Perm
      (entries.filter fun entry => f entry < n)
  | 0 => by simp
  | n + 1 => by
      rw [List.range_succ, List.flatMap_append]
      have below : (entries.filter fun entry => f entry < n) =
          (entries.filter fun entry => f entry < n + 1).filter fun entry => f entry < n := by
        rw [List.filter_filter]
        exact List.filter_congr fun entry _ => by grind
      have last : (entries.filter fun entry => f entry = n) =
          (entries.filter fun entry => f entry < n + 1).filter fun entry => !(f entry < n : Bool) := by
        rw [List.filter_filter]
        exact List.filter_congr fun entry _ => by grind
      have single : ([n].flatMap fun s => entries.filter fun entry => f entry = s) =
          entries.filter fun entry => f entry = n := by simp
      rw [single, last]
      refine ((flatMap_filter_perm f entries n).append_right _).trans ?_
      rw [below]
      exact List.filter_append_perm _ _

/-- Iteration yields every entry exactly once. -/
theorem iter_perm (layout : Layout K V) (map : ShardedMap K V) :
    (layout.iter map).Perm map.entries := by
  have ordered : (layout.iter map).Perm ((List.range layout.shardCount).flatMap fun s =>
      map.entries.filter fun entry => layout.shardOf entry.1 = s) :=
    List.Perm.flatMap_left _ fun s _ => layout.order_perm _
  refine (ordered.trans (flatMap_filter_perm (fun entry => layout.shardOf entry.1) _ _)).trans ?_
  rw [List.filter_eq_self.mpr fun entry _ => by simpa using layout.shardOf_lt entry.1]

/-- The map with its entries in iteration order. -/
def reorder (layout : Layout K V) (map : ShardedMap K V) : ShardedMap K V where
  entries := layout.iter map
  nodup := ((layout.iter_perm map).map Prod.fst).nodup_iff.mpr map.nodup

theorem get?_reorder [DecidableEq K] (layout : Layout K V) (map : ShardedMap K V) (key : K) :
    (layout.reorder map).get? key = map.get? key := by
  refine Option.ext fun value => ?_
  rw [ShardedMap.get?_eq_some_iff, ShardedMap.get?_eq_some_iff]
  exact mem_iter

theorem ofEntries_iter [DecidableEq K] (layout : Layout K V) (map : ShardedMap K V) :
    ShardedMap.ofEntries (layout.iter map) = layout.reorder map :=
  ShardedMap.eq_of_entries (ShardedMap.entries_ofEntries (layout.reorder map).nodup)

theorem keys_reorder (layout : Layout K V) (map : ShardedMap K V) :
    (layout.reorder map).keys.Perm map.keys :=
  (layout.iter_perm map).map Prod.fst

end Layout

end ModelDistribution.Foundation
