import Mathlib.Data.Nat.ModEq
import Mathlib.Data.Fintype.EquivFin
import Mathlib.Data.Fintype.Prod
import Mathlib.Logic.Function.Iterate
import Mathlib.Data.List.Basic

/-! Moving the entries of a list along the cycles of a map of its positions, one exchange with the
leader of the cycle at a time. Two neighbouring blocks change places in this way without a second
list. -/
namespace CycleLeader

variable {α : Type u} {next : Nat → Nat}

/-- Follow `next`, exchanging what stands at each position reached with what stands at the leader. -/
def walk (next : Nat → Nat) (leader : Nat) : Nat → Nat → List α → List α
  | 0, _, l => l
  | steps + 1, pos, l => walk next leader steps (next pos) (l.swap (next pos) leader)

/-- The positions of a cycle, the leader first. -/
structure Cycle (next : Nat → Nat) (leader steps : Nat) : Prop where
  nonempty : 0 < steps
  closed : next^[steps] leader = leader
  distinct : ∀ m < steps, ∀ n < steps, next^[m] leader = next^[n] leader → m = n

@[simp] theorem length_walk (leader steps pos : Nat) (l : List α) :
    (walk next leader steps pos l).length = l.length := by
  induction steps generalizing pos l with
  | zero => rfl
  | succ steps ih => simp [walk,ih]

theorem walk_succ (leader steps pos : Nat) (l : List α) :
    walk next leader (steps+1) pos l =
      (walk next leader steps pos l).swap (next^[steps+1] pos) leader := by
  induction steps generalizing pos l with
  | zero => rfl
  | succ steps ih =>
    rw [walk,ih]
    rfl

theorem getElem?_swap_left {l : List α} (hj : j < l.length) (hi : i < l.length) :
    (l.swap i j)[i]? = l[j]? := by
  have bound : i < (l.swap i j).length := by simpa using hi
  rw [List.getElem?_eq_getElem bound,List.getElem?_eq_getElem hj,List.getElem_swap_left_of_lt hj]

theorem getElem?_swap_right {l : List α} (hi : i < l.length) (hj : j < l.length) :
    (l.swap i j)[j]? = l[i]? := by
  rw [List.swap_comm,getElem?_swap_left hi hj]

theorem getElem?_swap_other {l : List α} (hi : k ≠ i) (hj : k ≠ j) : (l.swap i j)[k]? = l[k]? := by
  by_cases bound : k < l.length
  · have inside : k < (l.swap i j).length := by simpa using bound
    rw [List.getElem?_eq_getElem inside,List.getElem?_eq_getElem bound,
      List.getElem_swap_of_ne hi hj]
  · rw [List.getElem?_eq_none (by simpa using bound),List.getElem?_eq_none (by simpa using bound)]

theorem walk_other (leader steps : Nat) (l : List α) (apart : ∀ m ≤ steps, next^[m] leader ≠ k) :
    (walk next leader steps leader l)[k]? = l[k]? := by
  induction steps with
  | zero => rfl
  | succ steps ih =>
    have atLeader : leader ≠ k := apart 0 (Nat.zero_le _)
    rw [walk_succ,getElem?_swap_other (apart _ (Nat.le_refl _)).symm atLeader.symm]
    exact ih fun m bound => apart m (Nat.le_succ_of_le bound)

/-- Before the walk is back at the leader, each position visited holds the entry of the one before
it, and the leader that of the last. -/
theorem walk_open (cycle : Cycle next leader steps) (l : List α)
    (inside : ∀ m < steps, next^[m] leader < l.length) (open_ : n < steps) :
    (walk next leader n leader l)[leader]? = l[next^[n] leader]? ∧
    ∀ m < n, (walk next leader n leader l)[next^[m+1] leader]? = l[next^[m] leader]? := by
  induction n with
  | zero => exact ⟨rfl,fun m bound => absurd bound (Nat.not_lt_zero m)⟩
  | succ n ih =>
    obtain ⟨front,moved⟩ := ih (Nat.lt_of_succ_lt open_)
    have here := inside (n+1) open_
    have first := inside 0 cycle.nonempty
    have fresh (m : Nat) (bound : m < n+1) : next^[n+1] leader ≠ next^[m] leader := by
      intro same
      have := cycle.distinct _ open_ _ (bound.trans open_) same
      omega
    rw [walk_succ]
    constructor
    · rw [getElem?_swap_right (by simpa using here) (by simpa using first)]
      apply walk_other
      intro m bound
      exact (fresh m (by omega)).symm
    · intro m bound
      rcases Nat.lt_succ_iff_lt_or_eq.mp bound with earlier | rfl
      · rw [getElem?_swap_other (fresh (m+1) (by omega)).symm]
        · exact moved m earlier
        · intro same
          have := cycle.distinct (m+1) (by omega) 0 cycle.nonempty same
          omega
      · rw [getElem?_swap_left (by simpa using first) (by simpa using here)]
        exact front

/-- A whole walk moves each entry of the cycle to the next position. -/
theorem walk_moved (cycle : Cycle next leader steps) (l : List α)
    (inside : ∀ m < steps, next^[m] leader < l.length) (bound : m < steps) :
    (walk next leader steps leader l)[next (next^[m] leader)]? = l[next^[m] leader]? := by
  obtain ⟨last,rfl⟩ : ∃ last, steps = last+1 := Nat.exists_eq_succ_of_ne_zero cycle.nonempty.ne'
  -- the last exchange is one of the leader with itself
  rw [walk_succ,cycle.closed,List.swap_self,← Function.iterate_succ_apply' next m leader]
  obtain ⟨front,moved⟩ := walk_open cycle l inside (Nat.lt_succ_self last)
  rcases Nat.lt_succ_iff_lt_or_eq.mp bound with earlier | rfl
  · exact moved m earlier
  · rw [Nat.succ_eq_add_one,cycle.closed]
    exact front

theorem walk_outside (cycle : Cycle next leader steps) (l : List α)
    (apart : ∀ m < steps, next^[m] leader ≠ k) :
    (walk next leader steps leader l)[k]? = l[k]? := by
  apply walk_other
  intro m bound
  rcases Nat.lt_or_eq_of_le bound with earlier | rfl
  · exact apart m earlier
  · rw [cycle.closed]
    exact apart 0 cycle.nonempty

section Leaders
variable {steps : Nat} {leaders : List Nat}

def walks (next : Nat → Nat) (steps : Nat) (leaders : List Nat) (l : List α) : List α :=
  leaders.foldl (fun l leader => walk next leader steps leader l) l

structure Leaders (next : Nat → Nat) (steps : Nat) (leaders : List Nat) : Prop where
  cycles : ∀ leader ∈ leaders, Cycle next leader steps
  apart : leaders.Pairwise fun a b => ∀ m < steps, ∀ n < steps, next^[m] a ≠ next^[n] b

theorem Leaders.tail (valid : Leaders next steps (leader :: leaders)) : Leaders next steps leaders :=
  ⟨fun a member => valid.cycles a (List.mem_cons_of_mem leader member),
    (List.pairwise_cons.mp valid.apart).2⟩

theorem walks_outside (valid : Leaders next steps leaders) (l : List α)
    (apart : ∀ leader ∈ leaders, ∀ m < steps, next^[m] leader ≠ k) :
    (walks next steps leaders l)[k]? = l[k]? := by
  induction leaders generalizing l with
  | nil => rfl
  | cons leader leaders ih =>
    have later := ih valid.tail (walk next leader steps leader l)
      fun a member => apart a (List.mem_cons_of_mem leader member)
    exact later.trans (walk_outside (valid.cycles leader List.mem_cons_self) l (apart leader List.mem_cons_self))

theorem walks_moved (valid : Leaders next steps leaders) (l : List α)
    (inside : ∀ leader ∈ leaders, ∀ m < steps, next^[m] leader < l.length)
    (member : leader ∈ leaders) (bound : m < steps) :
    (walks next steps leaders l)[next (next^[m] leader)]? = l[next^[m] leader]? := by
  induction leaders generalizing l with
  | nil => contradiction
  | cons first leaders ih =>
    have cycle := valid.cycles first List.mem_cons_self
    obtain ⟨away,_⟩ := List.pairwise_cons.mp valid.apart
    rcases List.mem_cons.mp member with rfl | later
    · -- the later walks leave the cycle of the first leader alone
      have kept := walks_outside valid.tail (walk next leader steps leader l)
        (k := next (next^[m] leader)) (by
          intro a later n earlier same
          rw [← Function.iterate_succ_apply' next m leader] at same
          rcases Nat.lt_or_eq_of_le bound with open_ | closing
          · exact away a later _ open_ n earlier same.symm
          · rw [closing,cycle.closed] at same
            exact away a later 0 cycle.nonempty n earlier same.symm)
      exact kept.trans (walk_moved cycle l (inside leader List.mem_cons_self) bound)
    · have moved := ih valid.tail (walk next first steps first l)
        (fun a member n earlier => by
          simpa using inside a (List.mem_cons_of_mem first member) n earlier) later
      exact moved.trans (walk_outside cycle l
        fun n earlier => away leader later n earlier m bound)

end Leaders

section Blocks
variable {start front back : Nat}

/-- Where the entries of two neighbouring blocks go that change places. -/
def exchanged (start front back pos : Nat) : Nat :=
  if start + front ≤ pos then pos - front else pos + back

theorem exchanged_eq (bound : x < front + back) :
    exchanged start front back (start + x) = start + (x + back) % (front + back) := by
  unfold exchanged
  split
  · have wrapped : (x + back) % (front + back) = x - front := by
      rw [show x + back = (x - front) + (front + back) by omega,Nat.add_mod_right,
        Nat.mod_eq_of_lt (by omega)]
    omega
  · rw [Nat.mod_eq_of_lt (by omega)]
    omega

theorem iterate_exchanged (bound : x < front + back) (m : Nat) :
    (exchanged start front back)^[m] (start + x) = start + (x + m * back) % (front + back) := by
  induction m with
  | zero => simp [Nat.mod_eq_of_lt bound]
  | succ m ih =>
    rw [Function.iterate_succ_apply',ih,exchanged_eq (Nat.mod_lt _ (by omega)),Nat.mod_add_mod,
      Nat.add_assoc,Nat.succ_mul]

/-- The positions of the two blocks by cycle and by place in the cycle; the leaders are the first
ones of the second block. -/
def position (front back : Nat)
    (p : Fin (Nat.gcd front back) × Fin ((front + back) / Nat.gcd front back)) : Nat :=
  (front + p.1 + p.2 * back) % (front + back)

theorem position_injective (hfront : 0 < front) : Function.Injective (position front back) := by
  rintro ⟨i,m⟩ ⟨j,n⟩ same
  have divides : Nat.gcd front back ∣ front + back :=
    Nat.dvd_add (Nat.gcd_dvd_left ..) (Nat.gcd_dvd_right ..)
  have congruent : front + i + m * back ≡ front + j + n * back [MOD front + back] := same
  -- modulo the number of cycles only the leader is left
  have leader (i : Fin (Nat.gcd front back)) (m : Nat) :
      front + i + m * back ≡ i [MOD Nat.gcd front back] := by
    have zero : front + m * back ≡ 0 [MOD Nat.gcd front back] := by
      apply (Nat.modEq_zero_iff_dvd).mpr
      exact Nat.dvd_add (Nat.gcd_dvd_left ..) (Dvd.dvd.mul_left (Nat.gcd_dvd_right ..) m)
    rw [show front + i.val + m * back = front + m * back + i.val by omega]
    simpa using zero.add_right i.val
  have sameLeader : (i : Nat) ≡ j [MOD Nat.gcd front back] :=
    ((leader i m).symm.trans (congruent.of_dvd divides)).trans (leader j n)
  obtain rfl : i = j := Fin.ext (sameLeader.eq_of_lt_of_lt i.isLt j.isLt)
  have places : (m : Nat) ≡ n [MOD (front + back) / Nat.gcd front back] := by
    have := (Nat.ModEq.add_left_cancel' _ congruent).cancel_right_div_gcd (by omega)
    rwa [Nat.gcd_add_self_left] at this
  obtain rfl : m = n := Fin.ext (places.eq_of_lt_of_lt m.isLt n.isLt)
  rfl

theorem position_surjective (hfront : 0 < front) (bound : x < front + back) :
    ∃ p, position front back p = x := by
  have size : Nat.gcd front back * ((front + back) / Nat.gcd front back) = front + back :=
    Nat.mul_div_cancel' (Nat.dvd_add (Nat.gcd_dvd_left ..) (Nat.gcd_dvd_right ..))
  let f (p : Fin (Nat.gcd front back) × Fin ((front + back) / Nat.gcd front back)) :
      Fin (front + back) := ⟨position front back p,Nat.mod_lt _ (by omega)⟩
  have injective : Function.Injective f :=
    fun p q same => position_injective hfront (congrArg Fin.val same)
  have bijective : Function.Bijective f :=
    (Fintype.bijective_iff_injective_and_card f).mpr ⟨injective,by simp [size]⟩
  obtain ⟨p,found⟩ := bijective.2 ⟨x,bound⟩
  exact ⟨p,congrArg Fin.val found⟩

theorem gcd_mul_cycle (front back : Nat) :
    Nat.gcd front back * ((front + back) / Nat.gcd front back) = front + back :=
  Nat.mul_div_cancel' (Nat.dvd_add (Nat.gcd_dvd_left ..) (Nat.gcd_dvd_right ..))

def leadersOf (start front back : Nat) : List Nat :=
  (List.range (Nat.gcd front back)).map (start + front + ·)

theorem iterate_leader (hback : 0 < back) (hi : i < Nat.gcd front back) (m : Nat) :
    (exchanged start front back)^[m] (start + front + i) =
      start + (front + i + m * back) % (front + back) := by
  have := Nat.gcd_le_right front hback
  rw [Nat.add_assoc,iterate_exchanged (by omega)]

theorem leaders_valid (hfront : 0 < front) (hback : 0 < back) :
    Leaders (exchanged start front back) ((front + back) / Nat.gcd front back)
      (leadersOf start front back) where
  cycles := by
    intro leader member
    obtain ⟨i,hi,rfl⟩ := List.mem_map.mp member
    have hi := List.mem_range.mp hi
    refine ⟨?_,?_,?_⟩
    · apply Nat.pos_of_ne_zero
      intro zero
      have := gcd_mul_cycle front back
      rw [zero] at this
      omega
    · -- a whole cycle moves by a multiple of both lengths
      obtain ⟨factor,split⟩ := Nat.gcd_dvd_right front back
      have whole : (front + back) / Nat.gcd front back * back = (front + back) * factor := by
        calc (front + back) / Nat.gcd front back * back
            = (front + back) / Nat.gcd front back * (Nat.gcd front back * factor) := by rw [← split]
          _ = Nat.gcd front back * ((front + back) / Nat.gcd front back) * factor := by
            rw [← Nat.mul_assoc,Nat.mul_comm (_ / _)]
          _ = (front + back) * factor := by rw [gcd_mul_cycle]
      have := Nat.gcd_le_right front hback
      rw [iterate_leader hback hi,whole,Nat.add_mul_mod_self_left,Nat.mod_eq_of_lt (by omega),
        Nat.add_assoc]
    · intro m hm n hn same
      rw [iterate_leader hback hi,iterate_leader hback hi] at same
      have := @position_injective front back hfront (⟨i,hi⟩,⟨m,hm⟩) (⟨i,hi⟩,⟨n,hn⟩)
        (Nat.add_left_cancel same)
      simpa using this
  apart := by
    refine List.pairwise_map.mpr (List.pairwise_lt_range.imp_of_mem ?_)
    intro i j hi hj lt m hm n hn same
    have hi := List.mem_range.mp hi
    have hj := List.mem_range.mp hj
    rw [iterate_leader hback hi,iterate_leader hback hj] at same
    have := @position_injective front back hfront (⟨i,hi⟩,⟨m,hm⟩) (⟨j,hj⟩,⟨n,hn⟩)
      (Nat.add_left_cancel same)
    simp only [Prod.mk.injEq,Fin.mk.injEq] at this
    omega

/-- The walks from all leaders stand on each position of the blocks once. -/
theorem visited_once (hfront : 0 < front) (hback : 0 < back) (bound : x < front + back) :
    ∃! p : Nat × Nat, p.1 < Nat.gcd front back ∧ p.2 < (front + back) / Nat.gcd front back ∧
      (exchanged start front back)^[p.2] (start + front + p.1) = start + x := by
  obtain ⟨⟨i,m⟩,found⟩ := position_surjective hfront bound
  refine ⟨(i,m),⟨i.isLt,m.isLt,?_⟩,?_⟩
  · rw [iterate_leader hback i.isLt]
    exact congrArg (start + ·) found
  · rintro ⟨j,n⟩ ⟨hj,hn,same⟩
    rw [iterate_leader hback hj,← found] at same
    have := @position_injective front back hfront (⟨j,hj⟩,⟨n,hn⟩) (i,m) (Nat.add_left_cancel same)
    simpa [Prod.ext_iff,Fin.ext_iff] using this

theorem iterate_leader_bound (hback : 0 < back) (hi : i < Nat.gcd front back) (m : Nat) :
    (exchanged start front back)^[m] (start + front + i) < start + (front + back) := by
  rw [iterate_leader hback hi]
  exact Nat.add_lt_add_left (Nat.mod_lt _ (Nat.add_pos_right front hback)) start

theorem walks_blocks_moved (hfront : 0 < front) (hback : 0 < back) (l : List α)
    (fits : start + (front + back) ≤ l.length) (bound : x < front + back) :
    (walks (exchanged start front back) ((front + back) / Nat.gcd front back)
      (leadersOf start front back) l)[exchanged start front back (start + x)]? = l[start + x]? := by
  obtain ⟨⟨i,m⟩,found⟩ := position_surjective hfront bound
  have here : (exchanged start front back)^[m] (start + front + i) = start + x := by
    rw [iterate_leader hback i.isLt]
    exact congrArg (start + ·) found
  rw [← here]
  apply walks_moved (leaders_valid hfront hback) l _ (List.mem_map_of_mem (List.mem_range.mpr i.isLt)) m.isLt
  intro leader member n _
  obtain ⟨j,hj,rfl⟩ := List.mem_map.mp member
  exact Nat.lt_of_lt_of_le (iterate_leader_bound hback (List.mem_range.mp hj) n) fits

theorem walks_blocks_outside (hfront : 0 < front) (hback : 0 < back) (l : List α)
    (outside : k < start ∨ start + (front + back) ≤ k) :
    (walks (exchanged start front back) ((front + back) / Nat.gcd front back)
      (leadersOf start front back) l)[k]? = l[k]? := by
  apply walks_outside (leaders_valid hfront hback)
  intro leader member n _ same
  obtain ⟨j,hj,rfl⟩ := List.mem_map.mp member
  have := Nat.mod_lt (front + j + n * back) (show 0 < front + back by omega)
  rw [iterate_leader hback (List.mem_range.mp hj)] at same
  omega

/-- Two neighbouring blocks change places, and the order within each stays. -/
theorem walks_blocks (before first second after : List α) (hfirst : first ≠ []) (hsecond : second ≠ []) :
    walks (exchanged before.length first.length second.length)
        ((first.length + second.length) / Nat.gcd first.length second.length)
        (leadersOf before.length first.length second.length)
        (before ++ (first ++ (second ++ after))) =
      before ++ (second ++ (first ++ after)) := by
  have hfront := List.length_pos_iff.mpr hfirst
  have hback := List.length_pos_iff.mpr hsecond
  have fits : before.length + (first.length + second.length) ≤
      (before ++ (first ++ (second ++ after))).length := by simp
  apply List.ext_getElem?
  intro k
  have moved (x : Nat) (bound : x < first.length + second.length) :=
    walks_blocks_moved hfront hback _ fits bound
  by_cases outside : k < before.length ∨ before.length + (first.length + second.length) ≤ k
  · rw [walks_blocks_outside hfront hback _ outside]
    grind
  · obtain ⟨y,rfl⟩ : ∃ y, k = before.length + y := ⟨k - before.length,by omega⟩
    by_cases early : y < second.length
    · have := moved (first.length + y) (by omega)
      rw [show exchanged before.length first.length second.length (before.length + (first.length + y)) =
        before.length + y by unfold exchanged; split <;> omega] at this
      rw [this]
      grind
    · have := moved (y - second.length) (by omega)
      rw [show exchanged before.length first.length second.length
        (before.length + (y - second.length)) = before.length + y by
          unfold exchanged; split <;> omega] at this
      rw [this]
      grind

end Blocks
end CycleLeader
