import DPsim.LocalSystem

/-! The indices that `createVirtualNodes` and `assignSimNodes` give out for two orders of one list of
components: the network nodes have the same ones, the virtual nodes have changed places. -/
namespace DPsim

/-- The number of the virtual node that a component holds at a position; the last entry with its
address counts. -/
def slot (count : Nat → Nat) : List Nat → Nat → Nat → Option Nat
  | [], _, _ => none
  | c :: cs, a, p =>
    match slot count cs a p with
    | some k => some (count c + k)
    | none => if a = c ∧ p < count c then some p else none

section Slots
open Renumbering
variable {count : Nat → Nat}

theorem slot_lt {cs : List Nat} (held : slot count cs a p = some k) : k < (cs.map count).sum := by
  induction cs generalizing k with
  | nil => contradiction
  | cons c cs ih =>
    rw [List.map_cons,List.sum_cons]
    rw [slot] at held
    split at held
    · rename_i l later
      have := ih later
      cases held
      omega
    · split at held
      · rename_i own
        cases held
        omega
      · contradiction

variable (count) in
theorem slot_listed {cs : List Nat} (listed : a ∈ cs) (small : p < count a) :
    ∃ k, slot count cs a p = some k := by
  induction cs with
  | nil => contradiction
  | cons c cs ih =>
    rw [slot]
    cases later : slot count cs a p with
    | some k => exact ⟨_,rfl⟩
    | none =>
      rcases List.mem_cons.mp listed with rfl | rest
      · exact ⟨p,if_pos ⟨rfl,small⟩⟩
      · obtain ⟨k,held⟩ := ih rest
        rw [later] at held
        contradiction

theorem slot_perm {cs cs' : List Nat} (perm : cs.Perm cs') : ∃ τ : Equiv.Perm Nat,
    Keeps (cs.map count).sum τ ∧ ∀ a p, slot count cs' a p = (slot count cs a p).map τ := by
  induction perm with
  | nil => exact ⟨1,keeps_one _,fun _ _ => rfl⟩
  | cons c perm ih =>
    obtain ⟨τ,keeps,moved⟩ := ih
    refine ⟨beside (count c) 1 τ (keeps_one _),beside_keeps _ keeps,fun a p => ?_⟩
    rw [slot,slot,moved]
    cases slot count _ a p with
    | some k => exact congrArg some (beside_add (keeps_one _) k).symm
    | none =>
      simp only [Option.map_none]
      split
      · rename_i own
        have fixed : beside (count c) 1 τ (keeps_one _) p = p := beside_below own.2
        exact congrArg some fixed.symm
      · rfl
  | swap x y cs =>
    by_cases same : x = y
    · subst same
      exact ⟨1,keeps_one _,fun a p => by simp⟩
    refine ⟨exchange (count y) (count x),exchange_keeps _ _ _,fun a p => ?_⟩
    simp only [slot]
    cases slot count cs a p with
    | some k =>
      apply congrArg some
      show _ = exchange (count y) (count x) (count y + (count x + k))
      rw [exchange_rest]
      omega
    | none =>
      by_cases first : a = x ∧ p < count x
      · have other : ¬ (a = y ∧ p < count y) := fun second => same (first.1.symm.trans second.1)
        simp only [if_pos first,if_neg other]
        exact congrArg some (exchange_second first.2).symm
      · by_cases second : a = y ∧ p < count y
        · simp only [if_neg first,if_pos second]
          exact congrArg some (exchange_first second.2).symm
        · simp only [if_neg first,if_neg second]
          rfl
  | trans perm _ ih ih' =>
    obtain ⟨τ,keeps,moved⟩ := ih
    obtain ⟨σ,keeps',moved'⟩ := ih'
    rw [← (perm.map count).sum_eq] at keeps'
    refine ⟨σ * τ,keeps.mul keeps',fun a p => ?_⟩
    rw [moved',moved,Option.map_map]
    rfl

end Slots

namespace MnaSolver
variable {V : VarType} {Real W : Type}

theorem simNodes_length (h : Heap W) (node : Node) : (simNodes h node).length = stride node := by
  unfold simNodes stride
  split <;> rfl

theorem indices_at {g : Node → List Nat} (lengths : ∀ node, (g node).length = stride node) {nodes : List Node}
    (start : Nat) (all : nodes.flatMap g = List.range' start (nodes.map stride).sum) (k : Nat)
    (at_ : nodes[k]? = some node) :
    g node = List.range' (start + ((nodes.take k).map stride).sum) (stride node) := by
  induction nodes generalizing start k with
  | nil => contradiction
  | cons n nodes ih =>
    rw [List.flatMap_cons,List.map_cons,List.sum_cons,← List.range'_append_1] at all
    obtain ⟨first,rest⟩ := List.append_inj all (by rw [lengths,List.length_range'])
    cases k with
    | zero =>
      obtain rfl : n = node := Option.some.inj at_
      simpa using first
    | succ k =>
      have := ih (start + stride n) rest k at_
      rw [this,List.take_succ_cons,List.map_cons,List.sum_cons,Nat.add_assoc]

theorem component_objects {lib : Library Real W} (positions : List Nat) {v v' : VirtualNodes W}
    (ran : positions.foldlM (createVirtualNode lib component) v = .ok v') : v'.heap.objects = v.heap.objects := by
  induction positions generalizing v with
  | nil =>
    cases ran
    rfl
  | cons position positions ih =>
    obtain ⟨first,created,rest⟩ := bind_ok.mp ((List.foldlM_cons ..).symm.trans ran)
    exact (ih rest).trans (createVirtualNode_pushes created).2

theorem assignSimNode_objects (threshold : UInt32) (nodes : List Node) (a : SimNodes W) :
    (nodes.foldl (assignSimNode threshold) a).heap.objects = a.heap.objects := by
  induction nodes generalizing a with
  | nil => rfl
  | cons node nodes ih =>
    rw [List.foldl_cons,ih]
    unfold assignSimNode
    split <;> rfl

end MnaSolver

namespace LocalSystem
open MnaSolver
variable {V : VarType} {S U Real : Type} [Field Real] {b : LocalSystem V S U Real} {cs : List Nat}

variable (b) in
def virtualNodes (a : Nat) : Nat := (b.site a).virtualNodes

theorem virtualCount_interface (comp : LocalMNA V S Real) (site : Site) :
    virtualCount V (comp.interface site : MNAInterface Real (Objects S U)) = comp.virtualNodes := by
  unfold virtualCount MNAInterface.cast LocalMNA.virtualNodes LocalMNA.interface
  rcases comp.power with _ | ⟨varType,pComp⟩
  · rfl
  · by_cases fits : varType = V <;> simp [fits]

theorem virtualNodes_of_mna (own : b.mnaAt a = some comp) :
    comp.address = a ∧ virtualCount V comp = b.virtualNodes a := by
  obtain ⟨local_,is,rfl⟩ := Option.map_eq_some_iff.mp own
  refine ⟨rfl,?_⟩
  rw [virtualCount_interface,virtualNodes,site,is]
  rfl

theorem virtualNodes_of_none (own : b.mnaAt a = none) : b.virtualNodes a = 0 := by
  rw [virtualNodes,site,Option.map_eq_none_iff.mp own]
  rfl

variable (b cs) in
theorem createVirtualNodes_slots (v : VirtualNodes (Objects S U))
    (counter : v.virtualNode + 1 = UInt32.ofNat v.nodes.length)
    (fits : v.nodes.length + (cs.map b.virtualNodes).sum < 2 ^ 32) :
    ∃ v', (cs.filterMap b.mnaAt).foldlM (fun v comp =>
        (List.range (virtualCount V comp)).foldlM (createVirtualNode b.library comp.address) v) v = .ok v' ∧
      Extended b.library (cs.map b.virtualNodes).sum v v' ∧ v'.heap.objects = v.heap.objects ∧
      ∀ a p, v'.heap.virtualNode a p = match slot b.virtualNodes cs a p with
        | some k => some (.made (v.heap.made + k))
        | none => v.heap.virtualNode a p := by
  induction cs generalizing v with
  | nil => exact ⟨v,rfl,⟨counter,by simp [madeNodes],rfl⟩,rfl,fun _ _ => rfl⟩
  | cons c cs ih =>
    rw [List.map_cons,List.sum_cons] at fits ⊢
    cases own : b.mnaAt c with
    | none =>
      have nothing := virtualNodes_of_none own
      obtain ⟨v',ran,extended,objects,slots⟩ := ih v counter (by omega)
      rw [nothing,Nat.zero_add,List.filterMap_cons_none own]
      refine ⟨v',ran,extended,objects,fun a p => ?_⟩
      rw [slots,slot,nothing]
      cases slot b.virtualNodes cs a p <;> simp
    | some comp =>
      obtain ⟨address,number⟩ := virtualNodes_of_mna own
      obtain ⟨v₁,ran,extended,slots⟩ := component_ok b.library comp.address (virtualCount V comp) v counter
        (by omega)
      have length : v₁.nodes.length = v.nodes.length + virtualCount V comp := by
        simp [extended.nodes]
      obtain ⟨v₂,rest,extended',objects,slots'⟩ := ih v₁ extended.counter (by omega)
      rw [List.filterMap_cons_some own,← number]
      refine ⟨v₂,?_,extended.append extended',objects.trans (component_objects _ ran),fun a p => ?_⟩
      · rw [List.foldlM_cons]
        exact bind_ok.mpr ⟨v₁,ran,rest⟩
      · rw [slots',slot,slots,extended.made,address,number]
        cases slot b.virtualNodes cs a p with
        | some k => simp [Nat.add_assoc]
        | none => by_cases here : a = c ∧ p < b.virtualNodes c <;> simp [here]

theorem virtualSum_mnas (cs : List Nat) :
    virtualSum V (cs.filterMap b.mnaAt) = (cs.map b.virtualNodes).sum := by
  induction cs with
  | nil => rfl
  | cons c cs ih =>
    rw [List.map_cons,List.sum_cons,← ih]
    cases own : b.mnaAt c with
    | none => rw [virtualNodes_of_none own,List.filterMap_cons_none own,Nat.zero_add]
    | some comp =>
      rw [List.filterMap_cons_some own,← (virtualNodes_of_mna own).2]
      simp [virtualSum]

variable (b) in
def networkRows : Nat := (b.network.map stride).sum

variable (b) in
def virtualStride : Nat := if b.defaultPhase = .ABC then 3 else 1

omit [Field Real] in
theorem virtualStride_pos : 0 < b.virtualStride := by
  unfold virtualStride
  split <;> omega

omit [Field Real] in
theorem le_rowsFor : n ≤ rowsFor V n := by
  cases V with
  | real => exact Nat.le_refl n
  | complex => exact Nat.le_add_right n n

structure Numbering (b : LocalSystem V S U Real) (cs : List Nat) (h g : Heap (Objects S U)) : Prop where
  objects : g.objects = h.objects
  slots : ∀ a p, g.virtualNode a p = match slot b.virtualNodes cs a p with
    | some k => some (.made (h.made + k))
    | none => h.virtualNode a p
  network : ∀ (k : Nat) (node : Node), b.network[k]? = some node → (simNodes g node).map UInt32.toNat =
    List.range' ((b.network.take k).map stride).sum (stride node)
  made : ∀ k < (cs.map b.virtualNodes).sum, (simNodes g ⟨.made (h.made + k),b.defaultPhase⟩).map UInt32.toNat =
    List.range' (b.networkRows + b.virtualStride * k) b.virtualStride

/-- What is required of the nodes and the heap that the solver starts from. -/
structure WellFormed (b : LocalSystem V S U Real) (cs : List Nat) (h : Heap (Objects S U)) : Prop where
  distinct : (b.mNodes.map (·.node.ref)).Nodup
  allocated : Allocated (b.topology cs) h
  connected : ∀ a ∈ cs, ∀ node ∈ (b.component a).nodes, node ∈ b.network
  fits : rowsFor V (b.networkRows + b.virtualStride * (cs.map b.virtualNodes).sum) < 2 ^ 32

theorem network_nodup {h : Heap (Objects S U)} (wellFormed : b.WellFormed cs h) :
    (b.network.map Node.ref).Nodup := by
  have kept : (b.network.map Node.ref).Sublist (b.mNodes.map (·.node.ref)) := by
    rw [network,List.map_map]
    exact List.Sublist.map _ List.filter_sublist
  exact kept.nodup wellFormed.distinct

theorem network_allocated {h : Heap (Objects S U)} (wellFormed : b.WellFormed cs h) :
    ∀ node ∈ b.network, ∀ k, node.ref = .made k → k < h.made := by
  intro node member k same
  obtain ⟨n,here,rfl⟩ := List.mem_map.mp member
  exact wellFormed.allocated.nodes n (List.mem_of_mem_filter here) k same

theorem numbered {h : Heap (Objects S U)} (wellFormed : b.WellFormed cs h) {s : MnaSolver V Real (Objects S U)}
    (nodes : s.mNodes = b.network) (power : s.mPowerComponents = cs.filterMap b.mnaAt) :
    ∃ t g, s.createVirtualNodes b.library h = .ok (t,g) ∧
      Numbering b cs h (t.assignSimNodes g).2 ∧
      (t.assignSimNodes g).1.mNodes.take (t.assignSimNodes g).1.mNumNetNodes.toNat = b.network ∧
      ∃ nodes netNodes virtualNodes, t = { s with
        mNodes := nodes
        mNumNetNodes := netNodes
        mNumNodes := UInt32.ofNat (b.network.length + (cs.map b.virtualNodes).sum)
        mNumVirtualNodes := virtualNodes } := by
  have fits := le_rowsFor.trans_lt wellFormed.fits
  generalize count : (cs.map b.virtualNodes).sum = M at fits
  have made (k : Nat) (below : k < M) : (madeNodes b.library h.made M)[k]? =
      some ⟨.made (h.made + k),b.defaultPhase⟩ := by
    simp [madeNodes,below,library]
  have strides (k : Nat) : ((madeNodes b.library h.made k).map stride).sum = b.virtualStride * k := by
    by_cases phase : b.defaultPhase = .ABC <;>
      simp [madeNodes,Function.comp_def,stride,virtualStride,library,phase,Nat.mul_comm]
  have shorter := length_le_strides b.network
  have shorter' := length_le_strides (madeNodes b.library h.made M)
  rw [strides,madeNodes_length] at shorter'
  change _ ≤ b.networkRows at shorter
  obtain ⟨v,ran,extended,objects,slots⟩ := createVirtualNodes_slots b cs
    ⟨UInt32.ofNat b.network.length - 1,b.network,h⟩ (by simp) (by rw [count]; dsimp only; omega)
  rw [count] at extended
  have listed : v.nodes = b.network ++ madeNodes b.library h.made M := extended.nodes
  have length : v.nodes.length = b.network.length + M := by
    rw [listed,List.length_append,madeNodes_length]
  have created : s.createVirtualNodes b.library h = .ok ({ s with
      mNodes := v.nodes
      mNumNetNodes := UInt32.ofNat b.network.length
      mNumNodes := UInt32.ofNat (b.network.length + M)
      mNumVirtualNodes := UInt32.ofNat (b.network.length + M) - UInt32.ofNat b.network.length },v.heap) := by
    unfold createVirtualNodes
    rw [nodes,power,← length]
    exact bind_ok.mpr ⟨v,ran,rfl⟩
  have distinct : (v.nodes.map Node.ref).Nodup :=
    listed ▸ nodes_nodup (network_nodup wellFormed) (network_allocated wellFormed)
  have total : (v.nodes.map stride).sum = b.networkRows + b.virtualStride * M := by
    rw [listed,List.map_append,List.sum_append,strides,networkRows]
  obtain ⟨c,folded⟩ : ∃ c, v.nodes.foldl (assignSimNode (UInt32.ofNat b.network.length))
      ⟨0,0,s.mNumNetSimNodes,v.heap⟩ = c := ⟨_,rfl⟩
  have all : Numbered v.nodes ⟨0,0,s.mNumNetSimNodes,v.heap⟩ c :=
    folded ▸ assign_numbered _ v.nodes _ distinct (by rw [total]; simpa using fits)
  have kept : c.heap.objects = v.heap.objects := folded ▸ assignSimNode_objects ..
  refine ⟨_,_,created,?_,?_,_,_,_,rfl⟩
  · show Numbering b cs h (v.nodes.foldl (assignSimNode (UInt32.ofNat b.network.length))
      ⟨0,0,s.mNumNetSimNodes,v.heap⟩).heap
    rw [folded]
    have at_ (k : Nat) (node : Node) (here : v.nodes[k]? = some node) :=
      indices_at (g := fun node => (simNodes c.heap node).map UInt32.toNat)
        (fun node => by rw [List.length_map,simNodes_length]) 0
        (by rw [← List.map_flatMap]; exact all.indices) k here
    refine ⟨kept.trans objects,?_,?_,?_⟩
    · exact fun a p => (congrFun (congrFun all.virtualNode a) p).trans (slots a p)
    · intro k node here
      have bound := (List.getElem?_eq_some_iff.mp here).1
      have first := at_ k node (by rw [listed,List.getElem?_append_left bound,here])
      rw [listed,List.take_append_of_le_length (by omega),Nat.zero_add] at first
      exact first
    · intro k below
      rw [count] at below
      have second := at_ (b.network.length + k) _ (by
        rw [listed,List.getElem?_append_right (by omega),Nat.add_sub_cancel_left]
        exact made k below)
      have before : (madeNodes b.library h.made M).take k = madeNodes b.library h.made k := by
        simp [madeNodes,← List.map_take,List.take_range,Nat.min_eq_left (Nat.le_of_lt below)]
      rw [listed,List.take_length_add_append,before,List.map_append,List.sum_append,strides,
        Nat.zero_add] at second
      exact second
  · have take : (UInt32.ofNat b.network.length).toNat = b.network.length :=
      UInt32.toNat_ofNat_of_lt' (show b.network.length < 2 ^ 32 by omega)
    show v.nodes.take (UInt32.ofNat b.network.length).toNat = b.network
    rw [take,listed,List.take_left']
    rfl

section Renaming
open Renumbering
variable {cs' : List Nat} {τ : Equiv.Perm Nat} {h g g' : Heap (Objects S U)}

variable (b) in
/-- The network nodes keep their indices, and the virtual nodes change places by `τ`. -/
def renumbering (M : Nat) (τ : Equiv.Perm Nat) (keeps : Keeps M τ) : Renaming V where
  count := b.networkRows + b.virtualStride * M
  node := beside b.networkRows 1 (blocks b.virtualStride τ virtualStride_pos) (keeps_one _)
  keeps := beside_keeps _ (blocks_keeps _ keeps)

omit [Field Real] in
theorem renumbering_network {keeps : Keeps M τ} (below : i < b.networkRows) :
    (b.renumbering M τ keeps).node i = i := if_pos below

omit [Field Real] in
theorem renumbering_virtual {keeps : Keeps M τ} (k : Nat) (inside : q < b.virtualStride) :
    (b.renumbering M τ keeps).node (b.networkRows + b.virtualStride * k + q) =
      b.networkRows + b.virtualStride * τ k + q := by
  rw [Nat.add_assoc,Nat.add_assoc,← blocks_add virtualStride_pos k inside]
  exact beside_add (keeps_one _) _

theorem strides_take_le {nodes : List Node} (k : Nat) (at_ : nodes[k]? = some node) :
    ((nodes.take k).map stride).sum + stride node ≤ (nodes.map stride).sum := by
  have split : (nodes.take (k + 1)).map stride ++ (nodes.drop (k + 1)).map stride = nodes.map stride := by
    rw [← List.map_append,List.take_append_drop]
  rw [← split,List.sum_append,List.take_add_one,at_]
  simp

theorem Numbering.renamed (wellFormed : b.WellFormed cs h) (first : Numbering b cs h g)
    (second : Numbering b cs' h g') (keeps : Keeps (cs.map b.virtualNodes).sum τ) (perm : cs.Perm cs')
    (moved : ∀ a p, slot b.virtualNodes cs' a p = (slot b.virtualNodes cs a p).map τ) :
    g.Renamed (b.renumbering _ τ keeps) (cs.map b.site) b.network g' := by
  have network (node : Node) (member : node ∈ b.network) : (simNodes g' node).map UInt32.toNat =
      ((simNodes g node).map UInt32.toNat).map (b.renumbering _ τ keeps).node := by
    obtain ⟨k,here⟩ := List.mem_iff_getElem?.mp member
    have inside := strides_take_le k here
    have fixed : (List.range' ((b.network.take k).map stride).sum (stride node)).map
        (b.renumbering _ τ keeps).node =
          (List.range' ((b.network.take k).map stride).sum (stride node)).map id := by
      refine List.map_congr_left fun i among => ?_
      have last := (List.mem_range'_1.mp among).2
      exact renumbering_network (last.trans_le inside)
    rw [first.network k node here,second.network k node here,fixed,List.map_id]
  have virtual (k : Nat) (below : k < (cs.map b.virtualNodes).sum) :
      List.range' (b.networkRows + b.virtualStride * τ k) b.virtualStride =
        (List.range' (b.networkRows + b.virtualStride * k) b.virtualStride).map
          (b.renumbering _ τ keeps).node := by
    rw [List.range'_eq_map_range,List.range'_eq_map_range,List.map_map]
    refine List.map_congr_left fun q inside => ?_
    exact (renumbering_virtual k (List.mem_range.mp inside)).symm
  refine ⟨second.objects.trans first.objects.symm,fun site known => ?_,network⟩
  obtain ⟨a,listed,rfl⟩ := List.mem_map.mp known
  simp only [Site.indices,List.map_append,List.map_map]
  congr 1
  · exact List.map_congr_left fun node member => network node (wellFormed.connected a listed node member)
  · refine List.map_congr_left fun p inside => ?_
    obtain ⟨k,held⟩ := slot_listed b.virtualNodes listed (List.mem_range.mp inside)
    have below := slot_lt held
    have slot : g.virtualNode a p = some (.made (h.made + k)) := by
      rw [first.slots,held]
    have slot' : g'.virtualNode a p = some (.made (h.made + τ k)) := by
      rw [second.slots,moved,held]
      rfl
    have below' : τ k < (cs'.map b.virtualNodes).sum := by
      rw [← (perm.map b.virtualNodes).sum_eq]
      exact (keeps k).mpr below
    simp only [site,Function.comp_apply,slot,slot',first.made k below,second.made _ below',virtual k below]

end Renaming
end LocalSystem
end DPsim
