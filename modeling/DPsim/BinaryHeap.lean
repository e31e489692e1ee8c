import Mathlib.Data.List.Basic
import Mathlib.Data.Multiset.Basic

/-! The array heap algorithms of a C++ standard library: `push_heap` sifts the new last
element up, `pop_heap` sinks the root's hole to a leaf, fills it with the last element and
sifts that up. `comp a b` says that `a` has the lower priority; the front has the highest.
Moving the hole is written as a swap, which leaves the same array. -/
namespace BinaryHeap

/-- The comparator of a priority queue is a strict weak order. -/
class StrictWeak (comp : α → α → Bool) : Prop where
  asymm : comp a b = true → comp b a = false
  trans : comp a b = false → comp b c = false → comp a c = false

variable {α : Type u} (comp : α → α → Bool)

def parent (i : Nat) : Nat := (i - 1) / 2

def swap (l : List α) (i j : Nat) : List α :=
  match l[i]?, l[j]? with
  | some x, some y => (l.set i y).set j x
  | _, _ => l

/-- `__push_heap`: the element moves up while its parent has the lower priority. -/
def siftUp : Nat → List α → Nat → List α
  | 0, l, _ => l
  | fuel + 1, l, i =>
    match l[parent i]?, l[i]? with
    | some p, some x =>
      if 0 < i ∧ comp p x then siftUp fuel (swap l i (parent i)) (parent i) else l
    | _, _ => l

/-- The child that moves up into the hole: the right one, unless it is missing or has the
lower priority. -/
def child (l : List α) (i : Nat) : Option Nat :=
  match l[2 * i + 1]?, l[2 * i + 2]? with
  | some left, some right => some (if comp right left then 2 * i + 1 else 2 * i + 2)
  | some _, none => some (2 * i + 1)
  | none, _ => none

/-- The loop of `__adjust_heap`: the hole sinks to a leaf. -/
def sink : Nat → List α → Nat → List α × Nat
  | 0, l, i => (l, i)
  | fuel + 1, l, i =>
    match child comp l i with
    | some c => sink fuel (swap l i c) c
    | none => (l, i)

def adjust (l : List α) : List α :=
  let (sunk, hole) := sink comp l.length l 0
  siftUp comp hole sunk hole

def push (l : List α) (x : α) : List α := siftUp comp l.length (l ++ [x]) l.length

def pop : List α → List α
  | [] => []
  | _ :: rest =>
    match rest.getLast? with
    | none => []
    | some last => adjust comp (last :: rest.dropLast)

/-- No element has a lower-priority parent. -/
def IsHeap (l : List α) : Prop :=
  ∀ i x p, 0 < i → l[i]? = some x → l[parent i]? = some p → comp p x = false

theorem parent_lt (h : 0 < i) : parent i < i := by simp [parent]; omega

theorem parent_eq (h : 0 < i) : parent i = j ↔ i = 2 * j + 1 ∨ i = 2 * j + 2 := by
  simp [parent]; omega

theorem getElem?_swap (l : List α) (i j k : Nat) (hi : i < l.length) (hj : j < l.length) :
    (swap l i j)[k]? = if k = j then l[i]? else if k = i then l[j]? else l[k]? := by
  simp only [swap,List.getElem?_eq_getElem hi,List.getElem?_eq_getElem hj,List.getElem?_set,
    List.length_set]
  by_cases target : k = j
  · subst k; simp [hj]
  · by_cases source : k = i
    · subst k; simp [target,Ne.symm target,hi]
    · simp [target,source,Ne.symm target,Ne.symm source]

theorem swap_perm (l : List α) (i j : Nat) : (swap l i j).Perm l := by
  unfold swap
  split
  · rename_i x y hx hy
    obtain ⟨hi,rfl⟩ := List.getElem?_eq_some_iff.mp hx
    obtain ⟨hj,rfl⟩ := List.getElem?_eq_some_iff.mp hy
    exact List.set_set_perm hi hj
  · exact .refl _

@[simp] theorem length_swap (l : List α) (i j : Nat) : (swap l i j).length = l.length :=
  (swap_perm l i j).length_eq

theorem siftUp_perm (fuel : Nat) (l : List α) (i : Nat) : (siftUp comp fuel l i).Perm l := by
  induction fuel generalizing l i with
  | zero => exact .refl _
  | succ fuel ih =>
    simp only [siftUp]
    split
    · split
      · exact (ih _ _).trans (swap_perm _ _ _)
      · exact .refl _
    · exact .refl _

theorem sink_perm (fuel : Nat) (l : List α) (i : Nat) : (sink comp fuel l i).1.Perm l := by
  induction fuel generalizing l i with
  | zero => exact .refl _
  | succ fuel ih =>
    simp only [sink]
    split
    · exact (ih _ _).trans (swap_perm _ _ _)
    · exact .refl _

theorem adjust_perm (l : List α) : (adjust comp l).Perm l :=
  (siftUp_perm comp _ _ _).trans (sink_perm comp _ _ _)

theorem push_perm (l : List α) (x : α) : (push comp l x).Perm (x :: l) :=
  (siftUp_perm comp _ _ _).trans (List.perm_append_singleton x l)

/-- `pop` removes the front element and no other. -/
theorem pop_perm (front : α) (rest : List α) : (pop comp (front :: rest)).Perm rest := by
  simp only [pop]
  split
  · rename_i empty
    rw [List.getLast?_eq_none_iff.mp empty]
  · rename_i last found
    refine (adjust_perm comp _).trans ((List.perm_append_singleton last _).symm.trans ?_)
    rw [List.dropLast_append_getLast? last found]

section Order
variable {comp}

/-- The only pair out of order may be the one above `i`, and `i`'s parent could replace it. -/
structure UpReady (comp : α → α → Bool) (l : List α) (i : Nat) : Prop where
  others : ∀ j x p, 0 < j → j ≠ i → l[j]? = some x → l[parent j]? = some p → comp p x = false
  above : ∀ j x p, 0 < i → 0 < j → parent j = i → l[j]? = some x → l[parent i]? = some p →
    comp p x = false

/-- The pairs out of order may be those above and below `i`, and `i`'s parent could replace it. -/
structure SinkReady (comp : α → α → Bool) (l : List α) (i : Nat) : Prop where
  others : ∀ j x p, 0 < j → j ≠ i → parent j ≠ i → l[j]? = some x → l[parent j]? = some p →
    comp p x = false
  above : ∀ j x p, 0 < i → 0 < j → parent j = i → l[j]? = some x → l[parent i]? = some p →
    comp p x = false

theorem UpReady.heap (ready : UpReady comp l i)
    (settled : ∀ x p, 0 < i → l[i]? = some x → l[parent i]? = some p → comp p x = false) :
    IsHeap comp l := by
  intro j x p hj hx hp
  by_cases same : j = i
  · subst j; exact settled x p hj hx hp
  · exact ready.others j x p hj same hx hp

theorem child_none (missing : child comp l i = none) : l.length ≤ 2 * i + 1 := by
  unfold child at missing
  split at missing
  · contradiction
  · contradiction
  · rename_i hl; exact List.getElem?_eq_none_iff.mp hl

theorem SinkReady.up (ready : SinkReady comp l i) (leaf : l.length ≤ 2 * i + 1) :
    UpReady comp l i := by
  have childless : ∀ j x, 0 < j → parent j = i → l[j]? = some x → False := by
    intro j x hj hp hx
    obtain ⟨hlt,_⟩ := List.getElem?_eq_some_iff.mp hx
    rcases (parent_eq hj).mp hp with rfl | rfl <;> omega
  exact ⟨fun j x p hj distinct hx hp => ready.others j x p hj distinct
      (fun up => childless j x hj up hx) hx hp,
    fun j x p _ hj up hx _ => (childless j x hj up hx).elim⟩

variable [order : StrictWeak comp]

theorem comp_irrefl (x : α) : comp x x = false := by
  cases h : comp x x with
  | false => rfl
  | true => exact h.symm.trans (order.asymm h)

theorem UpReady.swap (ready : UpReady comp l i) (positive : 0 < i) (hx : l[i]? = some x)
    (hp : l[parent i]? = some p) (higher : comp p x = true) :
    UpReady comp (swap l i (parent i)) (parent i) := by
  have lt := parent_lt positive
  obtain ⟨hi,_⟩ := List.getElem?_eq_some_iff.mp hx
  obtain ⟨hq,_⟩ := List.getElem?_eq_some_iff.mp hp
  have lookup := fun k => getElem?_swap l i (parent i) k hi hq
  have below : comp x p = false := order.asymm higher
  constructor
  · intro j y q hj distinct hy hq
    rw [lookup] at hy hq
    rw [if_neg distinct] at hy
    by_cases same : j = i
    · subst j
      simp only [if_pos,hp,hx,Option.some.injEq] at hy hq
      subst hy hq; exact below
    rw [if_neg same] at hy
    by_cases child : parent j = i
    · rw [child,if_neg (by omega),if_pos rfl,hp] at hq
      cases hq
      exact ready.above j y p positive hj child hy hp
    by_cases sibling : parent j = parent i
    · rw [if_pos sibling,hx] at hq
      cases hq
      exact order.trans below (ready.others j y p hj same hy (by rw [sibling]; exact hp))
    · rw [if_neg sibling,if_neg child] at hq
      exact ready.others j y q hj same hy hq
  · intro j y g hi' hj child hy hg
    have ltg := parent_lt hi'
    rw [lookup,if_neg (by omega),if_neg (by omega)] at hg
    have top : comp g p = false := ready.others (parent i) p g hi' (by omega) hp hg
    rw [lookup,if_neg (by have := parent_lt hj; omega)] at hy
    by_cases same : j = i
    · rw [if_pos same,hp] at hy
      cases hy
      exact top
    · rw [if_neg same] at hy
      exact order.trans top (ready.others j y p hj same hy (by rw [child]; exact hp))

theorem siftUp_heap (fuel : Nat) (l : List α) (i : Nat) (enough : i ≤ fuel)
    (ready : UpReady comp l i) : IsHeap comp (siftUp comp fuel l i) := by
  induction fuel generalizing l i with
  | zero => exact ready.heap (by omega)
  | succ fuel ih =>
    simp only [siftUp]
    split
    · rename_i p x hp hx
      split
      · rename_i higher
        exact ih _ _ (by have := parent_lt higher.1; omega)
          (ready.swap higher.1 hx hp higher.2)
      · rename_i settled
        refine ready.heap fun y q positive hy hq => ?_
        obtain rfl := Option.some.inj (hx.symm.trans hy)
        obtain rfl := Option.some.inj (hp.symm.trans hq)
        simpa [positive] using settled
    · rename_i missing
      exact ready.heap fun x p _ hx hp => absurd hx (missing p x hp)

theorem child_spec (chosen : child comp l i = some c) :
    parent c = i ∧ 0 < c ∧ i < c ∧ c < l.length ∧
      ∀ j x y, 0 < j → parent j = i → l[j]? = some y → l[c]? = some x → comp x y = false := by
  unfold child at chosen
  split at chosen
  · rename_i left right hl hr
    obtain ⟨rl,_⟩ := List.getElem?_eq_some_iff.mp hr
    split at chosen
    · rename_i lower
      cases chosen
      refine ⟨by simp [parent],by omega,by omega,by omega,fun j x y hj hp hy hx => ?_⟩
      obtain rfl := Option.some.inj (hl.symm.trans hx)
      rcases (parent_eq hj).mp hp with rfl | rfl
      · obtain rfl := Option.some.inj (hl.symm.trans hy); exact comp_irrefl _
      · obtain rfl := Option.some.inj (hr.symm.trans hy); exact order.asymm lower
    · rename_i lower
      cases chosen
      refine ⟨by simp [parent]; omega,by omega,by omega,rl,fun j x y hj hp hy hx => ?_⟩
      obtain rfl := Option.some.inj (hr.symm.trans hx)
      rcases (parent_eq hj).mp hp with rfl | rfl
      · obtain rfl := Option.some.inj (hl.symm.trans hy); simpa using lower
      · obtain rfl := Option.some.inj (hr.symm.trans hy); exact comp_irrefl _
  · rename_i left hl hr
    obtain ⟨ll,_⟩ := List.getElem?_eq_some_iff.mp hl
    cases chosen
    refine ⟨by simp [parent],by omega,by omega,ll,fun j x y hj hp hy hx => ?_⟩
    rcases (parent_eq hj).mp hp with rfl | rfl
    · obtain rfl := Option.some.inj (hx.symm.trans hy); exact comp_irrefl _
    · simp [hr] at hy
  · contradiction

theorem SinkReady.swap (ready : SinkReady comp l i) (chosen : child comp l i = some c) :
    SinkReady comp (swap l i c) c := by
  obtain ⟨up,positive,lt,hc,best⟩ := child_spec chosen
  have hx : l[c]? = some l[c] := List.getElem?_eq_getElem hc
  have lookup := fun k => getElem?_swap l i c k (by omega) hc
  constructor
  · intro j y p hj distinct apart hy hp
    rw [lookup,if_neg distinct] at hy
    rw [lookup,if_neg apart] at hp
    by_cases same : j = i
    · subst j
      rw [if_pos rfl,hx] at hy
      rw [if_neg (by have := parent_lt hj; omega)] at hp
      cases hy
      exact ready.above c l[c] p hj positive up hx hp
    rw [if_neg same] at hy
    by_cases sibling : parent j = i
    · rw [if_pos sibling,hx] at hp
      cases hp
      exact best j l[c] y hj sibling hy hx
    · rw [if_neg sibling] at hp
      exact ready.others j y p hj same sibling hy hp
  · intro j y p _ hj below hy hp
    have := parent_lt hj
    rw [lookup,if_neg (by omega),if_neg (by omega)] at hy
    rw [up,lookup,if_neg (by omega),if_pos rfl,hx] at hp
    cases hp
    exact ready.others j y l[c] hj (by omega) (by omega) hy (by rw [below]; exact hx)

theorem sink_ready (fuel : Nat) (l : List α) (i : Nat) (enough : l.length ≤ i + fuel)
    (ready : SinkReady comp l i) : UpReady comp (sink comp fuel l i).1 (sink comp fuel l i).2 := by
  induction fuel generalizing l i with
  | zero => exact ready.up (by omega)
  | succ fuel ih =>
    simp only [sink]
    split
    · rename_i c chosen
      have lt := (child_spec chosen).2.2.1
      exact ih _ _ (by rw [length_swap]; omega) (ready.swap chosen)
    · rename_i missing
      exact ready.up (child_none missing)

theorem adjust_heap (ready : SinkReady comp l 0) : IsHeap comp (adjust comp l) :=
  siftUp_heap _ _ _ le_rfl (sink_ready l.length l 0 (by omega) ready)

theorem push_heap (heap : IsHeap comp l) (x : α) : IsHeap comp (push comp l x) := by
  refine siftUp_heap _ _ _ le_rfl ⟨?_,?_⟩
  · intro j y p hj distinct hy hp
    have bound : j < l.length := by
      obtain ⟨h,_⟩ := List.getElem?_eq_some_iff.mp hy
      simp at h; omega
    have := parent_lt hj
    rw [List.getElem?_append_left bound] at hy
    rw [List.getElem?_append_left (by omega)] at hp
    exact heap j y p hj hy hp
  · intro j y p _ hj up hy _
    obtain ⟨h,_⟩ := List.getElem?_eq_some_iff.mp hy
    have := parent_lt hj
    simp at h; omega

theorem pop_heap (heap : IsHeap comp l) : IsHeap comp (pop comp l) := by
  unfold pop
  split
  · exact heap
  · rename_i front rest
    split
    · intro i x p _ hx; simp at hx
    · rename_i last found
      refine adjust_heap ⟨fun j x p hj _ inner hx hp => ?_,fun _ _ _ h => absurd h (by omega)⟩
      have kept : ∀ k y, 0 < k → (last :: rest.dropLast)[k]? = some y →
          (front :: rest)[k]? = some y := by
        intro k y hk hy
        obtain ⟨k,rfl⟩ := Nat.exists_eq_add_of_le' hk
        simp only [List.getElem?_cons_succ,List.getElem?_dropLast] at hy ⊢
        split at hy
        · exact hy
        · contradiction
      exact heap j x p hj (kept j x hj hx) (kept _ p (by omega) hp)

/-- No element has a higher priority than the front. -/
theorem front_best (heap : IsHeap comp l) (front : l[0]? = some t) (member : x ∈ l) :
    comp t x = false := by
  obtain ⟨i,bound,rfl⟩ := List.getElem_of_mem member
  induction i using Nat.strong_induction_on with
  | _ i ih =>
    rcases Nat.eq_zero_or_pos i with rfl | positive
    · obtain ⟨_,rfl⟩ := List.getElem?_eq_some_iff.mp front
      exact comp_irrefl _
    · have lt := parent_lt positive
      exact order.trans (ih (parent i) lt (by omega) (List.getElem_mem _))
        (heap i _ _ positive (List.getElem?_eq_getElem bound) (List.getElem?_eq_getElem (by omega)))

end Order

theorem siftUp_front (fuel : Nat) (l : List α) (i : Nat) (positive : 0 < i)
    (front : l[0]? = some t) (here : l[i]? = some x) (stays : comp t x = false) :
    (siftUp comp fuel l i)[0]? = some t := by
  induction fuel generalizing l i with
  | zero => exact front
  | succ fuel ih =>
    simp only [siftUp]
    split
    · rename_i p y hp hy
      obtain rfl := Option.some.inj (here.symm.trans hy)
      obtain ⟨hi,_⟩ := List.getElem?_eq_some_iff.mp hy
      obtain ⟨hq,_⟩ := List.getElem?_eq_some_iff.mp hp
      split
      · rename_i higher
        have inner : 0 < parent i := by
          rcases Nat.eq_zero_or_pos (parent i) with root | inner
          · rw [root,front] at hp
            cases hp
            simp [stays] at higher
          · exact inner
        refine ih _ _ inner ?_ ?_
        · rw [getElem?_swap l i (parent i) 0 hi hq,if_neg (by omega),if_neg (by omega),front]
        · rw [getElem?_swap l i (parent i) _ hi hq,if_pos rfl,hy]
      · exact front
    · exact front

/-- A new element that does not have the higher priority leaves the front in place. -/
theorem push_front (front : l[0]? = some t) (stays : comp t x = false) :
    (push comp l x)[0]? = some t := by
  obtain ⟨bound,_⟩ := List.getElem?_eq_some_iff.mp front
  refine siftUp_front comp _ _ _ bound ?_ ?_ stays
  · rw [List.getElem?_append_left bound,front]
  · simp

end BinaryHeap

/-- A `std::priority_queue`: its container always is a heap. -/
structure PriorityQueue (comp : α → α → Bool) [BinaryHeap.StrictWeak comp] where
  items : List α
  heap : BinaryHeap.IsHeap comp items

namespace PriorityQueue
open BinaryHeap

variable {comp : α → α → Bool} [StrictWeak comp]

def empty : PriorityQueue comp := ⟨[], fun _ _ _ _ h => by simp at h⟩

def push (q : PriorityQueue comp) (x : α) : PriorityQueue comp :=
  ⟨BinaryHeap.push comp q.items x, push_heap q.heap x⟩

def top (q : PriorityQueue comp) : Option α := q.items[0]?

def pop (q : PriorityQueue comp) : PriorityQueue comp :=
  ⟨BinaryHeap.pop comp q.items, pop_heap q.heap⟩

/-- What is queued, without the order of the container. -/
def contents (q : PriorityQueue comp) : Multiset α := q.items

@[simp] theorem contents_push (q : PriorityQueue comp) (x : α) :
    (q.push x).contents = x ::ₘ q.contents :=
  Multiset.coe_eq_coe.mpr (push_perm comp q.items x)

theorem top_none {q : PriorityQueue comp} : q.top = none ↔ q.contents = 0 := by
  simp [top,contents]

theorem items_of_top {q : PriorityQueue comp} (front : q.top = some t) :
    ∃ rest, q.items = t :: rest := by
  cases items : q.items with
  | nil => simp [top,items] at front
  | cons x rest => exact ⟨rest,by simpa [top,items] using front⟩

theorem top_mem {q : PriorityQueue comp} (front : q.top = some t) : t ∈ q.contents := by
  obtain ⟨rest,items⟩ := items_of_top front
  simp [contents,items]

/-- `pop` removes exactly what `top` returns. -/
theorem contents_pop {q : PriorityQueue comp} (front : q.top = some t) :
    t ::ₘ q.pop.contents = q.contents := by
  obtain ⟨rest,items⟩ := items_of_top front
  simp only [contents,pop,items,Multiset.cons_coe]
  exact Multiset.coe_eq_coe.mpr ((pop_perm comp t rest).cons t)

theorem card_pop {q : PriorityQueue comp} (front : q.top = some t) :
    q.pop.contents.card + 1 = q.contents.card := by
  rw [← contents_pop front,Multiset.card_cons]

theorem top_best {q : PriorityQueue comp} (front : q.top = some t) (member : x ∈ q.contents) :
    comp t x = false := front_best q.heap front member

/-- A push that does not have the higher priority leaves `top` as it was. -/
theorem top_push {q : PriorityQueue comp} (front : q.top = some t) (stays : comp t x = false) :
    (q.push x).top = some t := push_front comp front stays

end PriorityQueue
