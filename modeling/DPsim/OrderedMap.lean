import Mathlib.Data.List.Sort
import Mathlib.Order.Defs.LinearOrder

/-! A `std::map`: its entries, in the order of their keys. -/

structure OrderedMap (K V : Type) [LinearOrder K] where
  entries : List (K × V)
  sorted : entries.Pairwise fun a b => a.1 < b.1

namespace OrderedMap

variable {K V : Type} [LinearOrder K]

def empty : OrderedMap K V := ⟨[], .nil⟩

def keys (m : OrderedMap K V) : List K := m.entries.map Prod.fst

@[simp] theorem length_keys (m : OrderedMap K V) : m.keys.length = m.entries.length := List.length_map _

/-- The entries after an assignment: the key is overwritten or inserted at its place. -/
def assign (k : K) (v : V) : List (K × V) → List (K × V)
  | [] => [(k, v)]
  | (l, u) :: rest =>
    if k < l then (k, v) :: (l, u) :: rest
    else if k = l then (k, v) :: rest
    else (l, u) :: assign k v rest

theorem mem_assign {k : K} {v : V} {entries : List (K × V)} (member : p ∈ assign k v entries) :
    p = (k,v) ∨ p ∈ entries := by
  induction entries with
  | nil => exact .inl (List.mem_singleton.mp member)
  | cons q rest ih =>
    simp only [assign] at member
    split at member
    · exact List.mem_cons.mp member
    · split at member
      · exact (List.mem_cons.mp member).imp_right fun later => List.mem_cons_of_mem _ later
      · rcases List.mem_cons.mp member with rfl | later
        · exact .inr List.mem_cons_self
        · exact (ih later).imp_right fun old => List.mem_cons_of_mem _ old

theorem assign_sorted (k : K) (v : V) {entries : List (K × V)}
    (sorted : entries.Pairwise fun a b => a.1 < b.1) :
    (assign k v entries).Pairwise fun a b => a.1 < b.1 := by
  induction entries with
  | nil => exact List.pairwise_singleton _ _
  | cons q rest ih =>
    obtain ⟨first,later⟩ := List.pairwise_cons.mp sorted
    simp only [assign]
    split
    · rename_i before
      refine List.pairwise_cons.mpr ⟨fun p member => ?_,sorted⟩
      rcases List.mem_cons.mp member with rfl | old
      · exact before
      · exact before.trans (first p old)
    · rename_i notBefore
      split
      · rename_i same
        exact List.pairwise_cons.mpr ⟨fun p member => same ▸ first p member,later⟩
      · rename_i other
        refine List.pairwise_cons.mpr ⟨fun p member => ?_,ih later⟩
        rcases mem_assign member with rfl | old
        · exact lt_of_le_of_ne (not_lt.mp notBefore) (Ne.symm other)
        · exact first p old

theorem mem_assign_keys (k l : K) (v : V) (entries : List (K × V)) :
    l ∈ (assign k v entries).map Prod.fst ↔ l = k ∨ l ∈ entries.map Prod.fst := by
  induction entries with
  | nil => simp [assign]
  | cons q rest ih =>
    simp only [assign]
    split
    · simp
    · split
      · rename_i same
        simp [same]
      · simp only [List.map_cons,List.mem_cons,ih]
        tauto

/-- `m[k] = v`. -/
def insert (m : OrderedMap K V) (k : K) (v : V) : OrderedMap K V :=
  ⟨assign k v m.entries, assign_sorted k v m.sorted⟩

/-- Assignments one after another. -/
def insertAll (m : OrderedMap K V) (pairs : List (K × V)) : OrderedMap K V :=
  pairs.foldl (fun m p => m.insert p.1 p.2) m

theorem insertAll_append (m : OrderedMap K V) (xs ys : List (K × V)) :
    m.insertAll (xs ++ ys) = (m.insertAll xs).insertAll ys := List.foldl_append

theorem mem_keys_insertAll (m : OrderedMap K V) (pairs : List (K × V)) (k : K) :
    k ∈ (m.insertAll pairs).keys ↔ k ∈ m.keys ∨ k ∈ pairs.map Prod.fst := by
  induction pairs generalizing m with
  | nil => simp [insertAll]
  | cons p pairs ih =>
    have first : k ∈ (m.insert p.1 p.2).keys ↔ k = p.1 ∨ k ∈ m.keys := mem_assign_keys ..
    rw [show m.insertAll (p :: pairs) = (m.insert p.1 p.2).insertAll pairs from rfl,ih,first,List.map_cons,
      List.mem_cons]
    tauto

/-- Every entry was assigned at some time. -/
theorem mem_insertAll {m : OrderedMap K V} {pairs : List (K × V)} (member : p ∈ (m.insertAll pairs).entries) :
    p ∈ m.entries ∨ p ∈ pairs := by
  induction pairs generalizing m with
  | nil => exact .inl member
  | cons q pairs ih =>
    rcases ih member with earlier | later
    · exact (mem_assign earlier).elim (fun same => .inr (same ▸ List.mem_cons_self)) .inl
    · exact .inr (List.mem_cons_of_mem _ later)

theorem mem_keys_pairs (pairs : List (K × V)) (k : K) :
    k ∈ (empty.insertAll pairs : OrderedMap K V).keys ↔ k ∈ pairs.map Prod.fst := by
  rw [mem_keys_insertAll]
  exact or_iff_right List.not_mem_nil

theorem mem_pairs {pairs : List (K × V)} (member : p ∈ (empty.insertAll pairs : OrderedMap K V).entries) :
    p ∈ pairs := (mem_insertAll member).resolve_left List.not_mem_nil

theorem keys_sorted (m : OrderedMap K V) : m.keys.Pairwise (· < ·) :=
  List.pairwise_map.mpr m.sorted

theorem keys_nodup (m : OrderedMap K V) : m.keys.Nodup := m.keys_sorted.imp fun less => less.ne

/-- The order of the keys depends on nothing else. -/
theorem keys_ext {m n : OrderedMap K V} (same : ∀ k, k ∈ m.keys ↔ k ∈ n.keys) : m.keys = n.keys := by
  have perm : m.keys.Perm n.keys := (List.perm_ext_iff_of_nodup m.keys_nodup n.keys_nodup).mpr same
  exact perm.eq_of_pairwise (fun a b _ _ less more => absurd less more.asymm) m.keys_sorted n.keys_sorted

end OrderedMap
