import DPsim.MNASolver
import Mathlib.Algebra.Field.Rat
import Mathlib.Data.List.Nodup

/-! The simulation indices of network and virtual nodes. One pass over the components appends
the virtual nodes, one pass over all nodes numbers them; both carry a running counter. -/
namespace DPsim.MnaSolver

variable {V : VarType} {Real W : Type}

def stride (node : Node) : Nat := if node.phaseType = .ABC then 3 else 1

def simNodes (h : Heap W) (node : Node) : List UInt32 :=
  if node.phaseType = .ABC then
    [h.simNode node.ref 0, h.simNode node.ref 1, h.simNode node.ref 2]
  else [h.simNode node.ref 0]

theorem simNodes_congr {h h' : Heap W} {node : Node} (same : h'.simNode node.ref = h.simNode node.ref) :
    simNodes h' node = simNodes h node := by
  simp [simNodes,same]

theorem toNat_add_small {a : UInt32} {n : Nat} (fits : a.toNat + n < 2 ^ 32) :
    (a + UInt32.ofNat n).toNat = a.toNat + n := by
  have small : n < 2 ^ 32 := by omega
  rw [UInt32.toNat_add,UInt32.toNat_ofNat_of_lt' small,Nat.mod_eq_of_lt fits]

/-- Between two states of the loop of `assignSimNodes` these nodes have been numbered. -/
structure Numbered (nodes : List Node) (a b : SimNodes W) : Prop where
  idx : b.idx = a.idx + UInt32.ofNat nodes.length
  total : b.simNodeIdx.toNat = a.simNodeIdx.toNat + (nodes.map stride).sum
  indices : (nodes.flatMap (simNodes b.heap)).map UInt32.toNat =
    List.range' a.simNodeIdx.toNat (nodes.map stride).sum
  frame : ∀ ref ∉ nodes.map Node.ref, b.heap.simNode ref = a.heap.simNode ref
  virtualNode : b.heap.virtualNode = a.heap.virtualNode

theorem assignSimNode_numbered (threshold : UInt32) (a : SimNodes W) (node : Node)
    (fits : a.simNodeIdx.toNat + stride node < 2 ^ 32) :
    Numbered [node] a (assignSimNode threshold a node) := by
  by_cases three : node.phaseType = .ABC
  · simp only [stride,three,if_true] at fits
    have first : (a.simNodeIdx + 1).toNat = a.simNodeIdx.toNat + 1 :=
      toNat_add_small (n := 1) (by omega)
    have second : (a.simNodeIdx + 1 + 1).toNat = a.simNodeIdx.toNat + 2 :=
      (toNat_add_small (a := a.simNodeIdx + 1) (n := 1) (by omega)).trans (by omega)
    have third : (a.simNodeIdx + 1 + 2).toNat = a.simNodeIdx.toNat + 3 :=
      (toNat_add_small (a := a.simNodeIdx + 1) (n := 2) (by omega)).trans (by omega)
    constructor
    · simp [assignSimNode]
    · simp [assignSimNode,three,stride,third]
    · simp [assignSimNode,three,stride,simNodes,Heap.setSimNode,first,second,List.range']
    · intro ref other
      simp at other
      simp [assignSimNode,three,Heap.setSimNode,other]
    · simp [assignSimNode,three,Heap.setSimNode]
  · simp only [stride,three,if_false] at fits
    have next : (a.simNodeIdx + 1).toNat = a.simNodeIdx.toNat + 1 :=
      toNat_add_small (n := 1) (by omega)
    constructor
    · simp [assignSimNode]
    · simp [assignSimNode,three,stride,next]
    · simp [assignSimNode,three,stride,simNodes,Heap.setSimNode]
    · intro ref other
      simp at other
      simp [assignSimNode,three,Heap.setSimNode,other]
    · simp [assignSimNode,three,Heap.setSimNode]

theorem Numbered.kept {xs ys : List Node} {b c : SimNodes W} (second : Numbered ys b c)
    (distinct : ((xs ++ ys).map Node.ref).Nodup) :
    xs.flatMap (simNodes c.heap) = xs.flatMap (simNodes b.heap) := by
  apply List.flatMap_congr
  intro node member
  apply simNodes_congr
  apply second.frame
  rw [List.map_append] at distinct
  exact fun later => List.disjoint_of_nodup_append distinct (List.mem_map_of_mem member) later

theorem Numbered.append {xs ys : List Node} {a b c : SimNodes W} (first : Numbered xs a b)
    (second : Numbered ys b c) (distinct : ((xs ++ ys).map Node.ref).Nodup) :
    Numbered (xs ++ ys) a c := by
  constructor
  · rw [second.idx,first.idx,List.length_append,UInt32.ofNat_add,UInt32.add_assoc]
  · rw [second.total,first.total,List.map_append,List.sum_append,Nat.add_assoc]
  · rw [List.flatMap_append,List.map_append,second.kept distinct,first.indices,second.indices,first.total,
      List.map_append,List.sum_append,← List.range'_append_1]
  · intro ref other
    simp only [List.map_append,List.mem_append,not_or] at other
    rw [second.frame ref other.2,first.frame ref other.1]
  · exact second.virtualNode.trans first.virtualNode

theorem assign_numbered (threshold : UInt32) (nodes : List Node) (a : SimNodes W)
    (distinct : (nodes.map Node.ref).Nodup)
    (fits : a.simNodeIdx.toNat + (nodes.map stride).sum < 2 ^ 32) :
    Numbered nodes a (nodes.foldl (assignSimNode threshold) a) := by
  induction nodes generalizing a with
  | nil => exact ⟨by simp,by simp,by simp,fun _ _ => rfl,rfl⟩
  | cons node nodes ih =>
    simp only [List.map_cons,List.sum_cons] at fits
    have first := assignSimNode_numbered threshold a node (by omega)
    have total := first.total
    simp only [List.map_cons,List.map_nil,List.sum_cons,List.sum_nil] at total
    have rest := ih (assignSimNode threshold a node) (List.nodup_cons.mp distinct).2 (by omega)
    exact first.append rest distinct

section Boundary
variable (threshold : UInt32)

/-- While the loop has not come to the last network node the count of network indices stays. -/
theorem assign_before (nodes : List Node) (a : SimNodes W)
    (before : ∀ k < nodes.length, a.idx + UInt32.ofNat k ≠ threshold - 1) :
    (nodes.foldl (assignSimNode threshold) a).mNumNetSimNodes = a.mNumNetSimNodes := by
  induction nodes generalizing a with
  | nil => rfl
  | cons node nodes ih =>
    have here : a.idx ≠ threshold - 1 := by simpa using before 0 (by simp)
    have kept : (assignSimNode threshold a node).mNumNetSimNodes = a.mNumNetSimNodes := by
      simp [assignSimNode,here]
    have next : (assignSimNode threshold a node).idx = a.idx + 1 := rfl
    refine (ih _ fun k bound => ?_).trans kept
    have later := before (k + 1) (by simpa using bound)
    rwa [next,UInt32.add_assoc,UInt32.add_comm 1,← UInt32.ofNat_one,← UInt32.ofNat_add]

theorem assign_idx (nodes : List Node) (a : SimNodes W) :
    (nodes.foldl (assignSimNode threshold) a).idx = a.idx + UInt32.ofNat nodes.length := by
  induction nodes generalizing a with
  | nil => simp
  | cons node nodes ih =>
    have next : (assignSimNode threshold a node).idx = a.idx + 1 := rfl
    rw [List.foldl_cons,ih,next,List.length_cons,UInt32.ofNat_add,UInt32.add_assoc,
      UInt32.add_comm (UInt32.ofNat nodes.length)]
    rfl

end Boundary

theorem ofNat_ne {m n : Nat} (small : m < 2 ^ 32) (small' : n < 2 ^ 32) (other : m ≠ n) :
    UInt32.ofNat m ≠ UInt32.ofNat n := by
  intro same
  have values := congrArg UInt32.toNat same
  rw [UInt32.toNat_ofNat_of_lt' small,UInt32.toNat_ofNat_of_lt' small'] at values
  exact other values

/-- The count of network indices is the counter after the last network node, and zero when
there is none: then `mNumNetNodes - 1` wraps to a position no node has. -/
theorem assign_network (net made : List Node) (h : Heap W) (fits : net.length + made.length < 2 ^ 32) :
    ((net ++ made).foldl (assignSimNode (UInt32.ofNat net.length)) ⟨0,0,0,h⟩).mNumNetSimNodes =
      (net.foldl (assignSimNode (UInt32.ofNat net.length)) ⟨0,0,0,h⟩).simNodeIdx := by
  rcases List.eq_nil_or_concat net with rfl | ⟨init,last,rfl⟩
  · have wraps : UInt32.ofNat ([] : List Node).length - 1 = UInt32.ofNat 4294967295 := rfl
    refine assign_before _ made ⟨0,0,0,h⟩ fun k bound => ?_
    rw [wraps,UInt32.zero_add]
    exact ofNat_ne (by simp at fits; omega) (by omega) (by simp at fits; omega)
  · simp only [List.concat_eq_append,List.length_append,List.length_cons,List.length_nil] at fits ⊢
    have before : UInt32.ofNat (init.length + (0 + 1)) - 1 = UInt32.ofNat init.length := by
      rw [UInt32.ofNat_add]
      simp
    rw [List.foldl_append,List.foldl_append]
    generalize UInt32.ofNat (init.length + (0 + 1)) = threshold at before ⊢
    have idx : (init.foldl (assignSimNode threshold) ⟨0,0,0,h⟩).idx = UInt32.ofNat init.length := by
      rw [assign_idx,UInt32.zero_add]
    rw [assign_before _ made]
    · simp [assignSimNode,idx,before]
    · intro k bound
      have next : (([last].foldl (assignSimNode threshold) (init.foldl (assignSimNode threshold)
          ⟨0,0,0,h⟩)).idx) + UInt32.ofNat k = UInt32.ofNat (init.length + 1 + k) := by
        rw [assign_idx,idx,UInt32.ofNat_add,UInt32.ofNat_add]
        rfl
      rw [next,before]
      exact ofNat_ne (by omega) (by omega) (by omega)

theorem length_le_strides (nodes : List Node) : nodes.length ≤ (nodes.map stride).sum := by
  induction nodes with
  | nil => simp
  | cons node nodes ih =>
    have : 1 ≤ stride node := by unfold stride; split <;> omega
    simp only [List.length_cons,List.map_cons,List.sum_cons]
    omega

/-- The states of the loop of `assignSimNodes` after the network nodes and after all nodes. -/
structure Phases (net made : List Node) (h : Heap W) (b c : SimNodes W) : Prop where
  network : Numbered net ⟨0,0,0,h⟩ b
  made : Numbered made b c
  boundary : c.mNumNetSimNodes = b.simNodeIdx

theorem assign_phases (net made : List Node) (h : Heap W) (distinct : ((net ++ made).map Node.ref).Nodup)
    (fits : (net.map stride).sum + (made.map stride).sum < 2 ^ 32) :
    ∃ b c, (net ++ made).foldl (assignSimNode (UInt32.ofNat net.length)) ⟨0,0,0,h⟩ = c ∧
      Phases net made h b c := by
  have shorter := length_le_strides net
  have shorter' := length_le_strides made
  rw [List.map_append] at distinct
  have first := assign_numbered (UInt32.ofNat net.length) net ⟨0,0,0,h⟩ distinct.of_append_left
    (by simp; omega)
  have total := first.total
  simp only [UInt32.toNat_zero,Nat.zero_add] at total
  have second := assign_numbered (UInt32.ofNat net.length) made _ distinct.of_append_right
    (by rw [total]; exact fits)
  refine ⟨_,_,rfl,first,?_,assign_network net made h (by omega)⟩
  rw [List.foldl_append]
  exact second

section Phases
variable {net made : List Node} {h : Heap W} {b c : SimNodes W} (phases : Phases net made h b c)
include phases

theorem Phases.start : b.simNodeIdx.toNat = (net.map stride).sum := by
  simpa using phases.network.total

theorem Phases.stop : c.simNodeIdx.toNat = (net.map stride).sum + (made.map stride).sum := by
  rw [phases.made.total,phases.start]

theorem Phases.gap : (c.simNodeIdx - b.simNodeIdx).toNat = (made.map stride).sum := by
  rw [UInt32.toNat_sub_of_le _ _ (UInt32.le_iff_toNat_le.mpr (by rw [phases.start,phases.stop]; omega)),
    phases.start,phases.stop]
  omega

end Phases

section Virtual
variable (lib : Library Real W)

def madeNodes (start count : Nat) : List Node :=
  (List.range count).map fun i => ⟨.made (start + i), lib.defaultPhase⟩

@[simp] theorem madeNodes_length (start count : Nat) : (madeNodes lib start count).length = count := by
  simp [madeNodes]

/-- Between two states of the loops of `createVirtualNodes` this many nodes have been appended. -/
structure Extended (count : Nat) (v v' : VirtualNodes W) : Prop where
  counter : v'.virtualNode + 1 = UInt32.ofNat v'.nodes.length
  nodes : v'.nodes = v.nodes ++ madeNodes lib v.heap.made count
  made : v'.heap.made = v.heap.made + count

variable {lib}

theorem madeNodes_append (start m n : Nat) :
    madeNodes lib start m ++ madeNodes lib (start + m) n = madeNodes lib start (m + n) := by
  simp [madeNodes,List.range_add,Nat.add_assoc]

theorem Extended.append {u v w : VirtualNodes W} (first : Extended lib m u v)
    (second : Extended lib n v w) : Extended lib (m + n) u w := by
  refine ⟨second.counter,?_,?_⟩
  · rw [second.nodes,first.nodes,first.made,List.append_assoc,madeNodes_append]
  · rw [second.made,first.made,Nat.add_assoc]

/-- The node that has just been pushed is the one read back by its index. -/
theorem createVirtualNode_ok (lib : Library Real W) (component position : Nat) (v : VirtualNodes W)
    (counter : v.virtualNode + 1 = UInt32.ofNat v.nodes.length) (fits : v.nodes.length + 1 < 2 ^ 32) :
    ∃ v', createVirtualNode lib component v position = .ok v' ∧ Extended lib 1 v v' ∧
      ∀ c p, v'.heap.virtualNode c p =
        if c = component ∧ p = position then some (.made v.heap.made) else v.heap.virtualNode c p := by
  have last : (UInt32.ofNat v.nodes.length).toNat = v.nodes.length :=
    UInt32.toNat_ofNat_of_lt' (show v.nodes.length < 2 ^ 32 by omega)
  let node : Node := ⟨.made v.heap.made,lib.defaultPhase⟩
  let heap := ({ v.heap with made := v.heap.made + 1 }.setSimNode node.ref 0
    (UInt32.ofNat v.nodes.length)).setVirtualNodeAt component node.ref position
  have created : createVirtualNode lib component v position =
      .ok ⟨UInt32.ofNat v.nodes.length,v.nodes ++ [node],heap⟩ := by
    simp only [createVirtualNode,counter,last,List.getElem?_concat_length]
    rfl
  refine ⟨_,created,⟨?_,?_,rfl⟩,fun _ _ => rfl⟩
  · simp [UInt32.ofNat_add]
  · simp [madeNodes,node]

/-- Whatever the index read back is, one node is pushed and the components' own state is kept. -/
theorem createVirtualNode_pushes {component position : Nat} {v v' : VirtualNodes W}
    (created : createVirtualNode lib component v position = .ok v') :
    v'.nodes = v.nodes ++ [⟨.made v.heap.made,lib.defaultPhase⟩] ∧ v'.heap.objects = v.heap.objects := by
  simp only [createVirtualNode] at created
  split at created
  · contradiction
  · cases created
    exact ⟨rfl,rfl⟩

theorem component_ok (lib : Library Real W) (component count : Nat) (v : VirtualNodes W)
    (counter : v.virtualNode + 1 = UInt32.ofNat v.nodes.length)
    (fits : v.nodes.length + count < 2 ^ 32) :
    ∃ v', (List.range count).foldlM (createVirtualNode lib component) v = .ok v' ∧
      Extended lib count v v' ∧ ∀ c p, v'.heap.virtualNode c p =
        if c = component ∧ p < count then some (.made (v.heap.made + p)) else v.heap.virtualNode c p := by
  induction count with
  | zero => exact ⟨v,rfl,⟨counter,by simp [madeNodes],rfl⟩,by simp⟩
  | succ count ih =>
    obtain ⟨v₁,ran,extended,slots⟩ := ih (by omega)
    have length : v₁.nodes.length = v.nodes.length + count := by
      simp [extended.nodes]
    obtain ⟨v₂,created,extended',slots'⟩ := createVirtualNode_ok lib component count v₁
      extended.counter (by omega)
    refine ⟨v₂,?_,extended.append extended',fun c p => ?_⟩
    · rw [List.range_succ,List.foldlM_append]
      refine bind_ok.mpr ⟨v₁,ran,?_⟩
      simp only [List.foldlM_cons,created,List.foldlM_nil]
      rfl
    · rw [slots',slots,extended.made]
      by_cases here : c = component ∧ p = count
      · simp [here]
      · by_cases before : c = component ∧ p < count
        · simp [before,show p < count + 1 by omega,show p ≠ count by omega]
        · rw [if_neg here,if_neg before,if_neg (by omega)]

def virtualSum (V : VarType) (comps : List (MNAInterface Real W)) : Nat :=
  (comps.map (virtualCount V)).sum

/-- What the component loop leaves in the components: the slots of the last entry with an
address, slots that are from such an entry, and nothing else. -/
structure Attached (V : VarType) (comps : List (MNAInterface Real W)) (start : Nat) (h h' : Heap W) :
    Prop where
  last : ∀ (i : Nat) (comp : MNAInterface Real W), comps[i]? = some comp →
    (∀ (k : Nat) (other : MNAInterface Real W), i < k → comps[k]? = some other →
      other.address ≠ comp.address) →
    ∀ j < virtualCount V comp,
      h'.virtualNode comp.address j = some (.made (start + virtualSum V (comps.take i) + j))
  origin : ∀ (c p : Nat) (ref : NodeRef), h'.virtualNode c p = some ref → h.virtualNode c p = some ref ∨
    ∃ (i : Nat) (comp : MNAInterface Real W), comps[i]? = some comp ∧ comp.address = c ∧
      p < virtualCount V comp ∧ ref = .made (start + virtualSum V (comps.take i) + p)
  frame : ∀ c, (∀ comp ∈ comps, comp.address ≠ c) → ∀ p, h'.virtualNode c p = h.virtualNode c p

theorem virtualSum_take_succ {comps : List (MNAInterface Real W)} (at_ : comps[i]? = some comp) :
    virtualSum V (comps.take (i + 1)) = virtualSum V (comps.take i) + virtualCount V comp := by
  simp [virtualSum,List.take_add_one,at_]

theorem virtualSum_take_le (comps : List (MNAInterface Real W)) (i k : Nat) :
    virtualSum V (comps.take i) ≤ virtualSum V (comps.take (i + k)) := by
  simp [virtualSum,List.take_add]

theorem position_unique {comps : List (MNAInterface Real W)} (at_ : comps[i]? = some comp)
    (at_' : comps[i']? = some comp') (bound : j < virtualCount V comp) (bound' : j' < virtualCount V comp')
    (same : virtualSum V (comps.take i) + j = virtualSum V (comps.take i') + j') : i = i' ∧ j = j' := by
  have next := virtualSum_take_succ (V := V) at_
  have next' := virtualSum_take_succ (V := V) at_'
  rcases Nat.lt_trichotomy i i' with before | rfl | after
  · obtain ⟨k,rfl⟩ := Nat.exists_eq_add_of_lt before
    have := virtualSum_take_le (V := V) comps (i + 1) k
    rw [show i + 1 + k = i + k + 1 by omega] at this
    omega
  · exact ⟨rfl,by omega⟩
  · obtain ⟨k,rfl⟩ := Nat.exists_eq_add_of_lt after
    have := virtualSum_take_le (V := V) comps (i' + 1) k
    rw [show i' + 1 + k = i' + k + 1 by omega] at this
    omega

theorem position_lt {comps : List (MNAInterface Real W)} (at_ : comps[i]? = some comp)
    (bound : j < virtualCount V comp) : virtualSum V (comps.take i) + j < virtualSum V comps := by
  have next := virtualSum_take_succ (V := V) at_
  have within := virtualSum_take_le (V := V) comps (i + 1) comps.length
  rw [List.take_of_length_le (i := i + 1 + comps.length) (by omega)] at within
  omega

/-- No other slot holds a virtual node of the last entry with an address. -/
theorem Attached.only {comps : List (MNAInterface Real W)} {h h' : Heap W}
    (attached : Attached V comps start h h')
    (slots : ∀ c p k, h.virtualNode c p = some (.made k) → k < start) (at_ : comps[i]? = some comp)
    (bound : j < virtualCount V comp)
    (held : h'.virtualNode c p = some (.made (start + virtualSum V (comps.take i) + j))) :
    c = comp.address ∧ p = j := by
  rcases attached.origin c p _ held with old | ⟨i',other,at_',address,bound',same⟩
  · have := slots c p _ old
    omega
  · obtain ⟨rfl,rfl⟩ := position_unique at_ at_' bound bound' (by simpa [Nat.add_assoc] using same)
    obtain rfl : comp = other := Option.some.inj (at_.symm.trans at_')
    exact ⟨address.symm,rfl⟩

theorem components_ok (lib : Library Real W) (comps : List (MNAInterface Real W)) (v : VirtualNodes W)
    (counter : v.virtualNode + 1 = UInt32.ofNat v.nodes.length)
    (fits : v.nodes.length + virtualSum V comps < 2 ^ 32) :
    ∃ v', comps.foldlM (fun v comp =>
        (List.range (virtualCount V comp)).foldlM (createVirtualNode lib comp.address) v) v = .ok v' ∧
      Extended lib (virtualSum V comps) v v' ∧ Attached V comps v.heap.made v.heap v'.heap := by
  induction comps generalizing v with
  | nil =>
    exact ⟨v,rfl,⟨counter,by simp [madeNodes,virtualSum],by simp [virtualSum]⟩,
      ⟨by simp,fun c p ref held => .inl held,fun _ _ _ => rfl⟩⟩
  | cons comp comps ih =>
    have sum : virtualSum V (comp :: comps) = virtualCount V comp + virtualSum V comps := by
      simp [virtualSum]
    obtain ⟨v₁,ran,extended,slots⟩ := component_ok lib comp.address (virtualCount V comp) v
      counter (by omega)
    have length : v₁.nodes.length = v.nodes.length + virtualCount V comp := by
      simp [extended.nodes]
    obtain ⟨v₂,rest,extended',attached⟩ := ih v₁ extended.counter (by omega)
    refine ⟨v₂,?_,sum ▸ extended.append extended',?_,?_,?_⟩
    · rw [List.foldlM_cons]
      exact bind_ok.mpr ⟨v₁,ran,rest⟩
    · intro i other at_ unlisted j bound
      cases i with
      | zero =>
        obtain rfl : comp = other := Option.some.inj at_
        rw [attached.frame comp.address (fun later member => ?_),slots]
        · simp [bound,virtualSum]
        · obtain ⟨k,here⟩ := List.mem_iff_getElem?.mp member
          exact unlisted (k + 1) later (by omega) here
      | succ i =>
        rw [attached.last i other at_ (fun k later after here =>
          unlisted (k + 1) later (by omega) here) j bound,extended.made]
        simp [virtualSum,Nat.add_assoc]
    · intro c p ref held
      rcases attached.origin c p ref held with old | ⟨i,other,at_,address,bound,rfl⟩
      · rw [slots] at old
        split at old
        · rename_i own
          exact .inr ⟨0,comp,rfl,own.1.symm,own.2,by simpa [virtualSum] using old.symm⟩
        · exact .inl old
      · refine .inr ⟨i + 1,other,at_,address,bound,?_⟩
        simp [virtualSum,extended.made,Nat.add_assoc]
    · intro c other p
      rw [attached.frame c (fun later member => other later (List.mem_cons_of_mem _ member)),slots,
        if_neg fun own => other comp List.mem_cons_self own.1.symm]

end Virtual

def networkNodes (system : SystemTopology Real W) : List Node :=
  (system.mNodes.filter (fun n => !n.isGround)).map (·.node)

theorem casts_ok (V : VarType) (ns : List TopologicalNode) (nodes : List Node) :
    ns.mapM (·.dereference V) = .ok nodes ↔
      (∀ n ∈ ns, n.varType = V) ∧ nodes = ns.map (·.node) := by
  induction ns generalizing nodes with
  | nil => simp [pure,Except.pure,eq_comm]
  | cons n ns ih =>
    rw [List.mapM_cons,bind_ok]
    constructor
    · rintro ⟨node,first,rest⟩
      obtain ⟨others,later,result⟩ := bind_ok.mp rest
      cases result
      obtain ⟨typed,rfl⟩ := (ih others).mp later
      by_cases fit : n.varType = V
      · simp only [TopologicalNode.dereference,TopologicalNode.cast,fit,if_true,Except.ok.injEq] at first
        exact ⟨by simpa [fit] using typed,by simp [first]⟩
      · simp [TopologicalNode.dereference,TopologicalNode.cast,fit] at first
    · rintro ⟨typed,rfl⟩
      simp only [List.mem_cons,forall_eq_or_imp] at typed
      refine ⟨n.node,by simp [TopologicalNode.dereference,TopologicalNode.cast,typed.1],?_⟩
      exact bind_ok.mpr ⟨_,(ih _).mpr ⟨typed.2,rfl⟩,rfl⟩

/-- The solver after `identifyTopologyObjects`, which succeeds if every non-ground node has
the solver's variable type. -/
theorem identify_ok {s t : MnaSolver V Real W} : s.identifyTopologyObjects = .ok t ↔
    (∀ n ∈ s.mSystem.mNodes.filter (fun n => !n.isGround), n.varType = V) ∧ t = { s with
      mNodes := s.mNodes ++ networkNodes s.mSystem
      mSwitches := s.mSwitches ++ s.mSystem.mComponents.filterMap (·.mnaSwitch)
      mPowerComponents := s.mPowerComponents ++ s.mSystem.mComponents.filterMap (·.mna)
      mSignalComponents := s.mSignalComponents ++ s.mSystem.mComponents.filterMap (·.signal) } := by
  unfold identifyTopologyObjects
  rw [bind_ok]
  constructor
  · rintro ⟨nodes,cast,result⟩
    cases result
    obtain ⟨typed,rfl⟩ := (casts_ok V _ nodes).mp cast
    exact ⟨typed,rfl⟩
  · rintro ⟨typed,rfl⟩
    exact ⟨_,(casts_ok V _ _).mpr ⟨typed,rfl⟩,rfl⟩

/-- The nodes and the heap hold no pointer to a node that is yet to be made. -/
structure Allocated (system : SystemTopology Real W) (h : Heap W) : Prop where
  nodes : ∀ n ∈ system.mNodes, ∀ k, n.node.ref = .made k → k < h.made
  slots : ∀ c p k, h.virtualNode c p = some (.made k) → k < h.made

structure Indexed (system : SystemTopology Real W) (s : MnaSolver V Real W) (h : Heap W) : Prop where
  /-- The network nodes come first. -/
  network : s.mNodes.take s.mNumNetNodes.toNat = networkNodes system
  /-- All indices, in order. -/
  indices : (s.mNodes.flatMap (simNodes h)).map UInt32.toNat = List.range s.mNumSimNodes.toNat
  networkIndices : ((s.mNodes.take s.mNumNetNodes.toNat).flatMap (simNodes h)).map UInt32.toNat =
    List.range s.mNumNetSimNodes.toNat
  virtualIndices : ((s.mNodes.drop s.mNumNetNodes.toNat).flatMap (simNodes h)).map UInt32.toNat =
    List.range' s.mNumNetSimNodes.toNat s.mNumVirtualSimNodes.toNat
  simSum : s.mNumNetSimNodes.toNat + s.mNumVirtualSimNodes.toNat = s.mNumSimNodes.toNat
  nodeSum : s.mNumNetNodes.toNat + s.mNumVirtualNodes.toNat = s.mNumNodes.toNat
  nodeCount : s.mNumNodes.toNat = s.mNodes.length
  /-- The virtual nodes of the last entry with an address, held by no other component. -/
  virtualNodes : ∀ (i : Nat) (comp : MNAInterface Real W), s.mPowerComponents[i]? = some comp →
    (∀ (k : Nat) (other : MNAInterface Real W), i < k → s.mPowerComponents[k]? = some other →
      other.address ≠ comp.address) →
    ∀ j < virtualCount V comp, ∃ node,
      s.mNodes[s.mNumNetNodes.toNat + virtualSum V (s.mPowerComponents.take i) + j]? = some node ∧
      h.virtualNode comp.address j = some node.ref ∧
      ∀ c p, h.virtualNode c p = some node.ref → c = comp.address ∧ p = j

def rowCount (lib : Library Real W) (V : VarType) (system : SystemTopology Real W) : Nat :=
  ((networkNodes system).map stride).sum +
    virtualSum V (system.mComponents.filterMap (·.mna)) * (if lib.defaultPhase = .ABC then 3 else 1)

theorem rows_sum (lib : Library Real W) (start : Nat) (system : SystemTopology Real W) :
    ((networkNodes system ++ madeNodes lib start
      (virtualSum V (system.mComponents.filterMap (·.mna)))).map stride).sum = rowCount lib V system := by
  have made (count : Nat) : ((madeNodes lib start count).map stride).sum =
      count * (if lib.defaultPhase = .ABC then 3 else 1) := by
    by_cases phase : lib.defaultPhase = .ABC <;> simp [madeNodes,Function.comp_def,stride,phase]
  rw [List.map_append,List.sum_append,made,rowCount]

theorem createVirtualNodes_ok (lib : Library Real W) {s : MnaSolver V Real W} {h : Heap W}
    (fits : s.mNodes.length + virtualSum V s.mPowerComponents < 2 ^ 32) :
    ∃ h', s.createVirtualNodes lib h = .ok ({ s with
        mNodes := s.mNodes ++ madeNodes lib h.made (virtualSum V s.mPowerComponents)
        mNumNetNodes := UInt32.ofNat s.mNodes.length
        mNumNodes := UInt32.ofNat (s.mNodes.length + virtualSum V s.mPowerComponents)
        mNumVirtualNodes := UInt32.ofNat (s.mNodes.length + virtualSum V s.mPowerComponents) -
          UInt32.ofNat s.mNodes.length }, h') ∧
      Attached V s.mPowerComponents h.made h h' := by
  obtain ⟨v,ran,extended,attached⟩ := components_ok lib s.mPowerComponents
    ⟨UInt32.ofNat s.mNodes.length - 1,s.mNodes,h⟩ (by simp) fits
  refine ⟨v.heap,?_,attached⟩
  refine bind_ok.mpr ⟨v,ran,?_⟩
  simp only [extended.nodes,List.length_append,madeNodes_length]
  rfl

theorem made_nodup (lib : Library Real W) (start count : Nat) :
    ((madeNodes lib start count).map Node.ref).Nodup := by
  simp only [madeNodes,List.map_map]
  refine List.Nodup.map (fun a b same => ?_) List.nodup_range
  simp at same
  exact same

theorem nodes_nodup {lib : Library Real W} {nodes : List Node} (distinct : (nodes.map Node.ref).Nodup)
    (allocated : ∀ node ∈ nodes, ∀ k, node.ref = .made k → k < start) :
    ((nodes ++ madeNodes lib start count).map Node.ref).Nodup := by
  rw [List.map_append]
  apply List.Nodup.append distinct (made_nodup lib start count)
  intro ref old new
  obtain ⟨node,member,rfl⟩ := List.mem_map.mp old
  obtain ⟨k,_,same⟩ : ∃ k < count, .made (start + k) = node.ref := by
    simpa [madeNodes] using new
  have := allocated node member _ same.symm
  omega

theorem indexed_of (lib : Library Real W) {s : MnaSolver V Real W} {h : Heap W}
    (system : SystemTopology Real W) (network : s.mNodes = networkNodes system) (zero : s.mNumNetSimNodes = 0)
    (distinct : (s.mNodes.map Node.ref).Nodup)
    (allocated : ∀ node ∈ s.mNodes, ∀ k, node.ref = .made k → k < h.made)
    (slots : ∀ c p k, h.virtualNode c p = some (.made k) → k < h.made)
    (fits : ((s.mNodes ++ madeNodes lib h.made (virtualSum V s.mPowerComponents)).map stride).sum < 2 ^ 32) :
    ∃ s' h', s.createVirtualNodes lib h = .ok (s', h') ∧
      Indexed system (s'.assignSimNodes h').1 (s'.assignSimNodes h').2 := by
  have lengths := length_le_strides (s.mNodes ++ madeNodes lib h.made (virtualSum V s.mPowerComponents))
  simp only [List.length_append,madeNodes_length] at lengths
  obtain ⟨h',created,attached⟩ := createVirtualNodes_ok lib (s := s) (h := h) (by omega)
  refine ⟨_,h',created,?_⟩
  generalize made : madeNodes lib h.made (virtualSum V s.mPowerComponents) = madeOnes at *
  have count : madeOnes.length = virtualSum V s.mPowerComponents := by simp [← made]
  have all : ((s.mNodes ++ madeOnes).map Node.ref).Nodup := made ▸ nodes_nodup distinct allocated
  rw [List.map_append,List.sum_append] at fits lengths
  have take : (UInt32.ofNat s.mNodes.length).toNat = s.mNodes.length :=
    UInt32.toNat_ofNat_of_lt' (show s.mNodes.length < 2 ^ 32 by omega)
  have whole : (UInt32.ofNat (s.mNodes.length + virtualSum V s.mPowerComponents)).toNat =
      s.mNodes.length + virtualSum V s.mPowerComponents :=
    UInt32.toNat_ofNat_of_lt' (show _ < 2 ^ 32 by omega)
  obtain ⟨b,c,fold,phases⟩ := assign_phases s.mNodes madeOnes h' all fits
  have both := phases.network.append phases.made all
  simp only [assignSimNodes,zero,fold,phases.boundary]
  constructor
  · exact (congrArg (List.take · _) take).trans (List.take_left' rfl) |>.trans network
  · simpa [List.range_eq_range',phases.stop] using both.indices
  · simp only [take,List.take_left',phases.start,List.range_eq_range']
    rw [phases.made.kept all]
    simpa using phases.network.indices
  · simp only [take,List.drop_left',phases.gap]
    exact phases.made.indices
  · simp only [phases.gap,phases.start,phases.stop]
  · have order : UInt32.ofNat s.mNodes.length ≤
        UInt32.ofNat (s.mNodes.length + virtualSum V s.mPowerComponents) :=
      UInt32.le_iff_toNat_le.mpr (by omega)
    simp only [UInt32.toNat_sub_of_le _ _ order,take,whole]
    omega
  · simp only [whole,List.length_append,count]
  · intro i comp at_ unlisted j bound
    have found : (s.mNodes ++ madeOnes)[s.mNodes.length + virtualSum V (s.mPowerComponents.take i) + j]? =
        some ⟨.made (h.made + virtualSum V (s.mPowerComponents.take i) + j),lib.defaultPhase⟩ := by
      rw [Nat.add_assoc,List.getElem?_append_right (by omega),Nat.add_sub_cancel_left,← made]
      simp [madeNodes,position_lt at_ bound,Nat.add_assoc]
    have slots' : c.heap.virtualNode = h'.virtualNode := both.virtualNode
    rw [slots']
    refine ⟨_,by simpa only [take] using found,attached.last i comp at_ unlisted j bound,?_⟩
    exact fun c' p held => attached.only slots at_ bound held

/-- If the topology can be identified at all then after `createVirtualNodes` and `assignSimNodes`
the indices of network and virtual nodes are consecutive, and every component holds its own
virtual nodes. -/
theorem indices_assigned [Field Real] (lib : Library Real W) (timeStep : Real) (domain : Domain)
    (steadyStateInit : Bool) (system : SystemTopology Real W) (h : Heap W)
    (distinct : (system.mNodes.map (·.node.ref)).Nodup) (allocated : Allocated system h)
    (fits : rowCount lib V system < 2 ^ 32) :
    ((∃ s, (make timeStep domain steadyStateInit system : MnaSolver V Real W).identifyTopologyObjects =
        .ok s) ↔ ∀ n ∈ system.mNodes, n.isGround = false → n.varType = V) ∧
    ∀ s, (make timeStep domain steadyStateInit system : MnaSolver V Real W).identifyTopologyObjects =
        .ok s →
      ∃ s' h', s.createVirtualNodes lib h = .ok (s', h') ∧
        Indexed system (s'.assignSimNodes h').1 (s'.assignSimNodes h').2 := by
  constructor
  · constructor
    · rintro ⟨s,found⟩
      simpa [make] using (identify_ok.mp found).1
    · intro typed
      exact ⟨_,identify_ok.mpr ⟨by simpa [make] using typed,rfl⟩⟩
  intro s found
  obtain ⟨_,rfl⟩ := identify_ok.mp found
  have kept : ((networkNodes system).map Node.ref).Sublist (system.mNodes.map (·.node.ref)) := by
    rw [networkNodes,List.map_map]
    exact List.Sublist.map _ List.filter_sublist
  have old : ∀ node ∈ networkNodes system, ∀ k, node.ref = .made k → k < h.made := by
    intro node member k same
    obtain ⟨n,here,rfl⟩ := List.mem_map.mp member
    exact allocated.nodes n (List.mem_of_mem_filter here) k same
  exact indexed_of lib system rfl rfl (kept.nodup distinct) old allocated.slots
    ((rows_sum lib h.made system).trans_lt fits)

def virtualSource (address : Nat) (count : UInt32) : MNAInterface ℚ Unit where
  address := address
  power := some (.complex, ⟨true, count, fun _ h => h⟩)
  mnaInitialize _ _ h := h
  mnaApplySystemMatrixStamp _ m := m
  mnaApplyRightSideVectorStamp r := r
  mnaStep _ e := e
  mnaPostStep _ e := e

def threeNodes (sources : List (MNAInterface ℚ Unit)) : SystemTopology ℚ Unit where
  mNodes := [⟨⟨.system 0,.ABC⟩,false,.complex⟩,⟨⟨.system 1,.Single⟩,true,.complex⟩,
    ⟨⟨.system 2,.Single⟩,false,.complex⟩]
  mComponents := sources.map fun source => ⟨none,some source,none,fun _ h => h⟩
  mSystemFrequency := 50
  mSystemOmega := 314

def noNodes : Heap Unit := ⟨fun _ _ => 0,fun _ _ => none,0,()⟩

def singlePhase : Library ℚ Unit := ⟨fun _ _ _ _ => 0,.Single,fun _ _ h => h⟩

theorem threeNodes_allocated (sources : List (MNAInterface ℚ Unit)) :
    Allocated (threeNodes sources) noNodes := by
  constructor <;> simp [threeNodes,noNodes]

theorem threeNodes_indexed :
    ((∃ s, (make 1 .DP false (threeNodes [virtualSource 0 2,virtualSource 1 1]) :
        MnaSolver .complex ℚ Unit).identifyTopologyObjects = .ok s) ↔
      ∀ n ∈ (threeNodes [virtualSource 0 2,virtualSource 1 1]).mNodes, n.isGround = false →
        n.varType = .complex) ∧
    ∀ s, (make 1 .DP false (threeNodes [virtualSource 0 2,virtualSource 1 1]) :
        MnaSolver .complex ℚ Unit).identifyTopologyObjects = .ok s →
      ∃ s' h', s.createVirtualNodes singlePhase noNodes = .ok (s', h') ∧
        Indexed (threeNodes [virtualSource 0 2,virtualSource 1 1]) (s'.assignSimNodes h').1
          (s'.assignSimNodes h').2 :=
  indices_assigned singlePhase 1 .DP false _ noNodes (by decide) (threeNodes_allocated _) (by decide)

/-- A component that is listed twice holds the nodes of its second entry only. -/
theorem component_listed_twice :
    ((threeNodes [virtualSource 0 1,virtualSource 0 1]).mNodes.map (·.node.ref)).Nodup ∧
    Allocated (threeNodes [virtualSource 0 1,virtualSource 0 1]) noNodes ∧
    rowCount singlePhase .complex (threeNodes [virtualSource 0 1,virtualSource 0 1]) < 2 ^ 32 ∧
    ∃ s s' h', (make 1 .DP false (threeNodes [virtualSource 0 1,virtualSource 0 1]) :
        MnaSolver .complex ℚ Unit).identifyTopologyObjects = .ok s ∧
      s.createVirtualNodes singlePhase noNodes = .ok (s', h') ∧
      ¬ ∀ (i : Nat) (comp : MNAInterface ℚ Unit), s'.mPowerComponents[i]? = some comp →
        ∀ j < virtualCount .complex comp, ∃ node,
          s'.mNodes[s'.mNumNetNodes.toNat + virtualSum .complex (s'.mPowerComponents.take i) + j]? =
            some node ∧ (s'.assignSimNodes h').2.virtualNode comp.address j = some node.ref := by
  refine ⟨by decide,threeNodes_allocated _,by decide,_,_,_,rfl,rfl,fun claim => ?_⟩
  obtain ⟨node,found,held⟩ := claim 0 (virtualSource 0 1) rfl 0 (by decide)
  cases found
  exact absurd held (by decide)

end DPsim.MnaSolver
