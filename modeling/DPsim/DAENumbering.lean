import DPsim.DAEState
import DPsim.MNAIndices

/-! The indices that the constructor of `DAESolver` gives to the nodes, beside those of an
`MnaSolver` and the entries that `initialize` and `residualFunction` use for them. -/
namespace DPsim.DAESolver
open MnaSolver

variable {V : VarType} {Real W : Type}

/-- The two numbering loops after the same nodes: one counter is the next index, the other the
last one. -/
structure InStep (b : Numbering W) (a : SimNodes W) : Prop where
  next : a.simNodeIdx = b.simNodeIdx + 1
  heap : a.heap = b.heap

theorem InStep.node {b : Numbering W} {a : SimNodes W} (same : InStep b a) (threshold : UInt32) (node : Node) :
    InStep (numberNode b node) (assignSimNode threshold a node) := by
  by_cases three : node.phaseType = .ABC
  · constructor
    · simp only [assignSimNode,numberNode,three,if_true,same.next,UInt32.add_assoc]
      rfl
    · simp [assignSimNode,numberNode,three,same.next,same.heap]
  · constructor
    · simp [assignSimNode,numberNode,three,same.next]
    · simp [assignSimNode,numberNode,three,same.next,same.heap]

theorem InStep.nodes {b : Numbering W} {a : SimNodes W} (same : InStep b a) (threshold : UInt32)
    (nodes : List Node) : InStep (nodes.foldl numberNode b) (nodes.foldl (assignSimNode threshold) a) := by
  induction nodes generalizing a b with
  | nil => exact same
  | cons node nodes ih => exact ih (same.node threshold node)

theorem assignSimNode_other {threshold : UInt32} {a : SimNodes W} {node : Node} {ref : NodeRef}
    (other : ref ≠ node.ref) : (assignSimNode threshold a node).heap.simNode ref = a.heap.simNode ref := by
  funext phase
  by_cases three : node.phaseType = .ABC <;> simp [assignSimNode,three,Heap.setSimNode,other]

theorem assignSimNodes_other {threshold : UInt32} {nodes : List Node} {ref : NodeRef}
    (others : ref ∉ nodes.map Node.ref) (a : SimNodes W) :
    (nodes.foldl (assignSimNode threshold) a).heap.simNode ref = a.heap.simNode ref := by
  induction nodes generalizing a with
  | nil => rfl
  | cons node nodes ih =>
    rw [List.map_cons,List.mem_cons,not_or] at others
    exact (ih others.2 _).trans (assignSimNode_other others.1)

theorem numberNodes_other {nodes : List Node} {ref : NodeRef} (others : ref ∉ nodes.map Node.ref)
    (b : Numbering W) : (nodes.foldl numberNode b).heap.simNode ref = b.heap.simNode ref := by
  have same : InStep b ⟨0,b.simNodeIdx + 1,0,b.heap⟩ := ⟨rfl,rfl⟩
  rw [← (same.nodes 0 nodes).heap]
  exact assignSimNodes_other others _

/-- The constructor gives the network nodes the indices that an `MnaSolver` gives them. -/
theorem numbering_agrees (m : MnaSolver V Real W) {nodes made : List Node} (listed : m.mNodes = nodes ++ made)
    (fresh : ∀ v ∈ made, v.ref ∉ nodes.map Node.ref) (h : Heap W) {node : Node} (member : node ∈ nodes) :
    simNodes (m.assignSimNodes h).2 node = simNodes (nodes.foldl numberNode ⟨-1,h⟩).heap node := by
  have start : InStep ⟨-1,h⟩ ⟨0,0,m.mNumNetSimNodes,h⟩ := ⟨(by decide : (0 : UInt32) = -1 + 1),rfl⟩
  have same := (start.nodes m.mNumNetNodes nodes).heap
  apply simNodes_congr
  have others : node.ref ∉ made.map Node.ref := by
    intro later
    obtain ⟨v,there,ref⟩ := List.mem_map.mp later
    exact fresh v there (ref ▸ List.mem_map_of_mem member)
  rw [← same,MnaSolver.assignSimNodes,listed,List.foldl_append]
  exact assignSimNodes_other others _

/-- The indices of a node that is numbered once, from the counter before it. -/
theorem numbered_at {before after : List Node} {node : Node} (b : Numbering W)
    (once : ((before ++ node :: after).map Node.ref).Nodup) (phase : Nat)
    (has : phase = 0 ∨ node.phaseType = .ABC ∧ phase ≤ 2) :
    ((before ++ node :: after).foldl numberNode b).heap.simNode node.ref phase =
      (before.foldl numberNode b).simNodeIdx + 1 + UInt32.ofNat phase := by
  have others : node.ref ∉ after.map Node.ref := by
    rw [List.map_append,List.map_cons,List.nodup_append] at once
    exact (List.nodup_cons.mp once.2.1).1
  rw [List.foldl_append,List.foldl_cons,numberNodes_other others]
  generalize before.foldl numberNode b = c
  rcases has with rfl | ⟨three,bound⟩
  · by_cases three : node.phaseType = .ABC <;> simp [numberNode,three,Heap.setSimNode]
  · obtain rfl | rfl | rfl : phase = 0 ∨ phase = 1 ∨ phase = 2 := by omega
    · simp [numberNode,three,Heap.setSimNode]
    · simp [numberNode,three,Heap.setSimNode]
    · simp only [numberNode,three,if_true,Heap.setSimNode,and_self,UInt32.add_assoc]
      rfl

theorem entries_positions (values : List Real) :
    (entries values).map Prod.fst = (List.range values.length).map Int32.ofNat := by
  rw [List.range_eq_range',← List.zipIdx_map_snd 0 values,entries,List.map_map,List.map_map]
  rfl

theorem stateNodes_positions [Add Real] [Zero Real] (lib : NodeVoltages Real W) (s : DAESolver Real W)
    (h : Heap W) : (s.assignNodes lib h).sval.map Prod.fst = (List.range s.nodes.length).map Int32.ofNat := by
  have empty : Setup.Holds [] (⟨0,[],s.mResidualFunctions⟩ : Setup Real W) := ⟨rfl,rfl⟩
  have holds := empty.foldl (fun node => 0 + lib.initialVoltage node h) s.nodes
  rw [assignNodes,holds.sval,entries_positions,List.nil_append,List.length_map]

section Loops
variable [Add Real] [Sub Real] [Zero Real] (lib : NodeVoltages Real W)

theorem residual_positions (tempstate : Int32 → Real) (h : Heap W) (nodes : List Node) {r : Residual Real}
    {k : Nat} (offset : r.mOffsets.1 = Int32.ofNat k) :
    (nodes.foldl (Residual.assign lib tempstate h) r).resid.map Prod.fst =
      r.resid.map Prod.fst ++ (List.range' k nodes.length).map Int32.ofNat := by
  induction nodes generalizing r k with
  | nil => simp
  | cons node nodes ih =>
    have next : (Residual.assign lib tempstate h r node).mOffsets.1 = Int32.ofNat (k + 1) := by
      rw [Residual.assign,offset,Int32.ofNat_add]
      rfl
    rw [List.foldl_cons,ih next,List.length_cons,List.range'_succ]
    simp [Residual.assign,offset]

theorem residualNodes_positions (s : DAESolver Real W) (tempstate : Int32 → Real) (h : Heap W) :
    (s.residualNodes lib tempstate h).resid.map Prod.fst = (List.range s.nodes.length).map Int32.ofNat := by
  rw [residualNodes,residual_positions lib tempstate h s.nodes (k := 0) rfl,List.range_eq_range']
  rfl

/-- The node at each place of the list has that place as its index. -/
structure Placed (nodes : List Node) (h : Heap W) (positions : List Int32) : Prop where
  bounded : ∀ node ∈ nodes, ∀ index ∈ simNodes h node, index.toNat < positions.length
  placed : ∀ (i : Nat) (node : Node) (index : Int32), nodes[i]? = some node → positions[i]? = some index →
    index.toInt = (h.simNode node.ref 0).toNat

structure Consistent (s : DAESolver Real W) (h h' : Heap W) : Prop where
  agrees : ∀ (V : VarType) (m : MnaSolver V Real W) (made : List Node), m.mNodes = s.nodes ++ made →
    (∀ v ∈ made, v.ref ∉ s.nodes.map Node.ref) →
      ∀ node ∈ s.nodes, simNodes h' node = simNodes (m.assignSimNodes h).2 node
  state : ∀ g, Placed s.nodes h' ((s.assignNodes lib g).sval.map Prod.fst)
  residual : ∀ tempstate g, Placed s.nodes h' ((s.residualNodes lib tempstate g).resid.map Prod.fst)

end Loops

/-- Every node takes one index, and the entries of the vectors can be counted. -/
structure OneEach (nodes : List Node) : Prop where
  single : ∀ node ∈ nodes, node.phaseType ≠ .ABC
  once : (nodes.map Node.ref).Nodup
  short : nodes.length ≤ 2 ^ 31

theorem OneEach.indices {nodes : List Node} (each : OneEach nodes) (h : Heap W) {node : Node} (member : node ∈ nodes) :
    simNodes h node = [h.simNode node.ref 0] := by
  rw [MnaSolver.simNodes,if_neg (each.single node member)]

theorem OneEach.index {nodes : List Node} (each : OneEach nodes) (h : Heap W) {i : Nat} {node : Node}
    (there : nodes[i]? = some node) :
    ((nodes.foldl numberNode ⟨-1,h⟩).heap.simNode node.ref 0).toNat = i := by
  have start : InStep ⟨-1,h⟩ ⟨0,0,0,h⟩ := ⟨(by decide : (0 : UInt32) = -1 + 1),rfl⟩
  have strides : (nodes.map stride).sum = nodes.length := by
    have ones : nodes.map stride = nodes.map fun _ => 1 :=
      List.map_congr_left fun node member => if_neg (each.single node member)
    rw [ones]
    simp
  have short := each.short
  have indices := (assign_numbered 0 nodes ⟨0,0,0,h⟩ each.once (by rw [strides]; simp; omega)).indices
  rw [(start.nodes 0 nodes).heap,strides,List.flatMap_congr fun node member => each.indices _ member,
    ← List.map_eq_flatMap,List.map_map] at indices
  have here := congrArg (·[i]?) indices
  have inside := (List.getElem?_eq_some_iff.mp there).1
  dsimp only at here
  rw [List.getElem?_map,there,List.getElem?_range' inside] at here
  simpa using here

theorem OneEach.placed {nodes : List Node} (each : OneEach nodes) (h : Heap W) :
    Placed nodes (nodes.foldl numberNode ⟨-1,h⟩).heap ((List.range nodes.length).map Int32.ofNat) := by
  have short := each.short
  constructor
  · intro node member index listed
    rw [each.indices _ member,List.mem_singleton] at listed
    obtain ⟨i,inside,rfl⟩ := List.mem_iff_getElem.mp member
    rw [listed,each.index h (List.getElem?_eq_getElem inside)]
    simpa using inside
  · intro i node index there position
    have inside := (List.getElem?_eq_some_iff.mp there).1
    obtain rfl : Int32.ofNat i = index := by simpa [inside] using position
    rw [each.index h there,Int32.toInt_ofNat_of_lt (by omega)]

theorem Placed.index {nodes : List Node} {h : Heap W}
    (placed : Placed nodes h ((List.range nodes.length).map Int32.ofNat)) {i : Nat} {node : Node}
    (there : nodes[i]? = some node) : (Int32.ofNat i).toInt = (h.simNode node.ref 0).toNat := by
  have inside := (List.getElem?_eq_some_iff.mp there).1
  exact placed.placed i node (Int32.ofNat i) there (by simp [inside])

/-- From a place on that is not representable, the entry is not one of the vector. -/
theorem Placed.short {nodes : List Node} {h : Heap W}
    (placed : Placed nodes h ((List.range nodes.length).map Int32.ofNat)) : nodes.length ≤ 2 ^ 31 := by
  by_contra long
  have negative := placed.index (List.getElem?_eq_getElem (not_le.mp long))
  have value : (Int32.ofNat (2 ^ 31)).toInt = -2 ^ 31 := by decide
  omega

theorem Placed.once {nodes : List Node} {h : Heap W}
    (placed : Placed nodes h ((List.range nodes.length).map Int32.ofNat)) : (nodes.map Node.ref).Nodup := by
  have short := placed.short
  rw [List.nodup_iff_getElem?_ne_getElem?]
  intro i j less inside same
  rw [List.length_map] at inside
  rw [List.getElem?_map,List.getElem?_map,List.getElem?_eq_getElem inside,
    List.getElem?_eq_getElem (less.trans inside)] at same
  have first := placed.index (List.getElem?_eq_getElem (less.trans inside))
  have second := placed.index (List.getElem?_eq_getElem inside)
  rw [Option.some.inj same,← second,Int32.toInt_ofNat_of_lt (by omega),
    Int32.toInt_ofNat_of_lt (by omega)] at first
  omega

/-- The second index of a three-phase node belongs to another node or to none. -/
theorem Placed.single {nodes : List Node} {h : Heap W}
    (placed : Placed nodes (nodes.foldl numberNode ⟨-1,h⟩).heap
      ((List.range nodes.length).map Int32.ofNat)) {node : Node} (member : node ∈ nodes) :
    node.phaseType ≠ .ABC := by
  intro three
  have short := placed.short
  have once := placed.once
  obtain ⟨before,after,rfl⟩ := List.append_of_mem member
  have here := placed.index (show (before ++ node :: after)[before.length]? = some node by simp)
  have first := numbered_at ⟨-1,h⟩ once 0 (.inl rfl)
  have second := numbered_at ⟨-1,h⟩ once 1 (.inr ⟨three,by omega⟩)
  have bound : before.length < 2 ^ 31 := by
    rw [List.length_append,List.length_cons] at short
    omega
  rw [Int32.toInt_ofNat_of_lt bound,first] at here
  have count {n : Nat} (less : n < 2 ^ 32) : (UInt32.ofNat n).toNat = n := UInt32.toNat_ofNat_of_lt' less
  have index : (before.foldl numberNode ⟨-1,h⟩).simNodeIdx + 1 = UInt32.ofNat before.length := by
    rw [← UInt32.toNat_inj,count (by omega),Int.ofNat.inj here]
    simp
  rw [index,← UInt32.ofNat_add] at second
  have next := placed.bounded node member (UInt32.ofNat (before.length + 1)) (by
    rw [simNodes,if_pos three,second]
    simp)
  rw [count (by omega)] at next
  cases after with
  | nil => simp at next
  | cons other after =>
    have there := placed.index
      (show (before ++ node :: other :: after)[before.length + 1]? = some other by simp)
    have again : before ++ node :: other :: after = (before ++ [node]) ++ other :: after := by simp
    rw [again] at once there
    have last : ((before ++ [node]).foldl numberNode ⟨-1,h⟩).simNodeIdx + 1 + UInt32.ofNat 0 =
        UInt32.ofNat (before.length + 3) := by
      rw [List.foldl_append,UInt32.ofNat_add,← index]
      simp only [List.foldl_cons,List.foldl_nil,numberNode,three,if_true,UInt32.add_assoc]
      rfl
    rw [List.length_append,List.length_cons,List.length_cons] at short
    rw [numbered_at ⟨-1,h⟩ once 0 (.inl rfl),last,count (by omega),Int32.toInt_ofNat_of_lt (by omega)] at there
    omega

/-- The indices of the constructor are those of an `MnaSolver`, and they are the entries that the
other loops use exactly if every node takes one. -/
theorem numbering_consistent_iff [Add Real] [Sub Real] [Zero Real] (lib : NodeVoltages Real W)
    (s : DAESolver Real W) (h : Heap W) (numbered : numberNodes s.mNodes h = .ok h') :
    Consistent lib s h h' ↔ OneEach s.nodes := by
  have result : h' = (s.nodes.foldl numberNode ⟨-1,h⟩).heap := by
    rw [numberNodes_eq] at numbered
    split at numbered
    · contradiction
    · exact (Except.ok.inj numbered).symm
  subst result
  constructor
  · intro consistent
    have placed := consistent.state h
    rw [stateNodes_positions] at placed
    exact ⟨fun node member => placed.single member,placed.once,placed.short⟩
  · intro each
    refine ⟨fun V m made listed fresh node member => ?_,fun g => ?_,fun tempstate g => ?_⟩
    · exact (numbering_agrees m listed fresh h member).symm
    · rw [stateNodes_positions]
      exact each.placed h
    · rw [residualNodes_positions]
      exact each.placed h

def starGrid : Topology Int Unit :=
  ⟨[⟨⟨.system 3,.Single⟩,false,.real⟩,⟨⟨.system 0,.Single⟩,true,.real⟩,⟨⟨.system 1,.A⟩,false,.real⟩,
    ⟨⟨.system 2,.Single⟩,false,.real⟩],[resistor .real,resistor .real],50,314⟩

theorem numbering_consistent_iff_star : ∃ s h', collect starGrid 1 = .ok s ∧
    numberNodes s.mNodes noHeap = .ok h' ∧ h'.simNode (.system 2) 0 = 2 ∧
    Consistent unitVoltages s noHeap h' := by
  refine ⟨_,_,rfl,rfl,rfl,(numbering_consistent_iff unitVoltages (collected starGrid 1) noHeap rfl).mpr ?_⟩
  exact ⟨by decide,by decide,by decide⟩

def mixedGrid : Topology Int Unit :=
  ⟨[⟨⟨.system 0,.ABC⟩,false,.real⟩,⟨⟨.system 1,.Single⟩,false,.real⟩],[resistor .real],50,314⟩

/-- The second node has the index 3, where both vectors use the entry 1 for it. -/
theorem mixed_grid_inconsistent : ∃ s h', collect mixedGrid 1 = .ok s ∧
    numberNodes s.mNodes noHeap = .ok h' ∧ h'.simNode (.system 1) 0 = 3 ∧
    (s.assignNodes unitVoltages noHeap).sval = [(0,1),(1,1)] ∧ ¬ Consistent unitVoltages s noHeap h' := by
  refine ⟨_,_,rfl,rfl,rfl,rfl,fun consistent => ?_⟩
  have index := (consistent.state noHeap).placed 1 ⟨.system 1,.Single⟩ 1 rfl rfl
  exact absurd index (by decide)

end DPsim.DAESolver
