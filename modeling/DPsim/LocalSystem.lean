import DPsim.LocalComponents
import DPsim.Together

/-! A topology of local components, listed in some order, and what the loops of the solver do for
two orders of one list. -/
namespace DPsim
open Renumbering

/-- The components by address, the nodes, and the rest of the library. -/
structure LocalSystem (V : VarType) (S U Real : Type) where
  component : Nat → LocalComponent V S Real
  mNodes : List TopologicalNode
  mSystemFrequency : Real
  mSystemOmega : Real
  solution : Matrix Real → Matrix Real → Nat → Nat → Real
  defaultPhase : PhaseType
  updateVoltage : VoltageUpdate V U Real

namespace LocalSystem

variable {V : VarType} {S U Real : Type} [Field Real]

section Parts
variable (b : LocalSystem V S U Real)

def site (a : Nat) : Site where
  address := a
  nodes := (b.component a).nodes
  virtualNodes := ((b.component a).mna.map LocalMNA.virtualNodes).getD 0
  phaseType := b.defaultPhase

def mnaAt (a : Nat) : Option (MNAInterface Real (Objects S U)) :=
  (b.component a).mna.map (·.interface (b.site a))

def switchAt (a : Nat) : Option (MNASwitchInterface Real (Objects S U)) :=
  (b.component a).mnaSwitch.map (·.interface (b.site a))

def componentAt (a : Nat) : Component Real (Objects S U) where
  mnaSwitch := b.switchAt a
  mna := b.mnaAt a
  signal := none
  setBehaviour behaviour := (b.site a).onState ((b.component a).setBehaviour behaviour)

def topology (cs : List Nat) : SystemTopology Real (Objects S U) where
  mNodes := b.mNodes
  mComponents := cs.map b.componentAt
  mSystemFrequency := b.mSystemFrequency
  mSystemOmega := b.mSystemOmega

def network : List Node := (b.mNodes.filter (fun n => !n.isGround)).map (·.node)

def library : Library Real (Objects S U) where
  solution := b.solution
  defaultPhase := b.defaultPhase
  mnaUpdateVoltage node left h := { h with objects := { h.objects with
    voltage := Function.update h.objects.voltage node.ref (b.updateVoltage.update
      ((MnaSolver.simNodes h node).map UInt32.toNat) left.rows (fun i => left.entry i 0)
      (h.objects.voltage node.ref)) } }

theorem mnas (cs : List Nat) : (b.topology cs).mComponents.filterMap (·.mna) = cs.filterMap b.mnaAt := by
  rw [topology,List.filterMap_map]
  rfl

theorem switches (cs : List Nat) :
    (b.topology cs).mComponents.filterMap (·.mnaSwitch) = cs.filterMap b.switchAt := by
  rw [topology,List.filterMap_map]
  rfl

theorem signals (cs : List Nat) : (b.topology cs).mComponents.filterMap (·.signal) = [] := by
  rw [topology,List.filterMap_map]
  exact List.filterMap_eq_nil_iff.mpr fun _ _ => rfl

variable {b}

theorem mnaAt_some (own : b.mnaAt a = some x) : ∃ comp : LocalMNA V S Real, comp.interface (b.site a) = x := by
  obtain ⟨comp,_,same⟩ := Option.map_eq_some_iff.mp own
  exact ⟨comp,same⟩

theorem switchAt_some (own : b.switchAt a = some x) :
    ∃ sw : LocalSwitch V S Real, sw.interface (b.site a) = x := by
  obtain ⟨sw,_,same⟩ := Option.map_eq_some_iff.mp own
  exact ⟨sw,same⟩

variable (b) in
theorem keepSizes (cs : List Nat) : MnaSolver.KeepSizes (b.topology cs) := by
  have mna {x : MNAInterface Real (Objects S U)} (member : x ∈ (b.topology cs).mComponents.filterMap (·.mna)) :
      ∃ a, ∃ comp : LocalMNA V S Real, comp.interface (b.site a) = x := by
    rw [mnas] at member
    obtain ⟨a,_,own⟩ := List.mem_filterMap.mp member
    exact ⟨a,mnaAt_some own⟩
  have switch {x : MNASwitchInterface Real (Objects S U)}
      (member : x ∈ (b.topology cs).mComponents.filterMap (·.mnaSwitch)) :
      ∃ a, ∃ sw : LocalSwitch V S Real, sw.interface (b.site a) = x := by
    rw [switches] at member
    obtain ⟨a,_,own⟩ := List.mem_filterMap.mp member
    exact ⟨a,switchAt_some own⟩
  constructor
  · intro _ _ x member
    obtain ⟨a,comp,rfl⟩ := mna member
    exact fun h m size => size
  · intro _ _ x member
    obtain ⟨a,comp,rfl⟩ := mna member
    exact fun r size => size
  · intro _ x member
    obtain ⟨a,comp,rfl⟩ := mna member
    exact fun time e sized => ⟨sized.system,sized.right,sized.left⟩
  · intro _ x member
    obtain ⟨a,comp,rfl⟩ := mna member
    exact fun time e sized => ⟨sized.system,sized.right,sized.left⟩
  · intro _ _ x member
    obtain ⟨a,sw,rfl⟩ := switch member
    exact fun h m size => size
  · intro _ _ x member
    obtain ⟨a,sw,rfl⟩ := switch member
    exact fun closed h m size => size
  · intro _ x member
    obtain ⟨a,sw,rfl⟩ := switch member
    exact fun time e sized => ⟨sized.system,sized.right,sized.left⟩

end Parts

section Loops
variable {α : Type} {b : LocalSystem V S U Real} {cs cs' : List Nat} {ρ : Renaming V}
  {part : Nat → Option α}

theorem calls_renamed (time : Real) {f : Equations Real (Objects S U) → α → Equations Real (Objects S U)}
    (calls : ∀ a x, part a = some x → ∃ method : Method V S Real, ∀ e, f e x = method.call (b.site a) time e)
    (perm : cs.Perm cs') {e e' : Equations Real (Objects S U)}
    (same : e.Renamed ρ (cs.map b.site) b.network e') :
    ((cs.filterMap part).foldl f e).Renamed ρ (cs.map b.site) b.network ((cs'.filterMap part).foldl f e') := by
  refine foldl_parts_related (fun a c x y other own own' e => ?_) (fun a listed x own e e' same => ?_) perm same
  · obtain ⟨first,call⟩ := calls a x own
    obtain ⟨second,call'⟩ := calls c y own'
    simp only [call,call']
    exact Method.call_comm (Ne.symm other) second first time e
  · obtain ⟨method,call⟩ := calls a x own
    rw [call,call]
    exact method.call_renamed (List.mem_map_of_mem listed) time same

omit [Field Real] in
theorem states_renamed {f : Heap (Objects S U) → α → Heap (Objects S U)}
    (changes : ∀ a x, part a = some x → ∃ g : S → S, ∀ h, f h x = (b.site a).onState g h)
    (perm : cs.Perm cs') {h h' : Heap (Objects S U)} (same : h.Renamed ρ (cs.map b.site) b.network h') :
    ((cs.filterMap part).foldl f h).Renamed ρ (cs.map b.site) b.network ((cs'.filterMap part).foldl f h') := by
  refine foldl_parts_related (fun a c x y other own own' h => ?_) (fun a _ x own h h' same => ?_) perm same
  · obtain ⟨first,change⟩ := changes a x own
    obtain ⟨second,change'⟩ := changes c y own'
    have apart : (b.site c).address ≠ (b.site a).address := Ne.symm other
    simp only [change,change']
    exact Site.onState_comm apart second first h
  · obtain ⟨g,change⟩ := changes a x own
    rw [change,change]
    exact same.onState (b.site a) g

theorem stamp_accumulate (method : Method V S Real) (site : Site) (h : Heap (Objects S U)) (m : Matrix Real) :
    method.stamp site h m = m.accumulate (method.respond ⟨h.objects.state site.address,site.indices h,m.rows,0,
      fun i => (Matrix.Zero m.rows 1 : Matrix Real).entry i 0⟩).system := rfl

theorem stamps_renamed {f g : Matrix Real → α → Matrix Real} {h h' : Heap (Objects S U)}
    (same : h.Renamed ρ (cs.map b.site) b.network h')
    (stamps : ∀ a x, part a = some x → ∃ method : Method V S Real,
      (∀ m, f m x = method.stamp (b.site a) h m) ∧ ∀ m, g m x = method.stamp (b.site a) h' m)
    (perm : cs.Perm cs') {m m' : Matrix Real} (size : m.hasSize ρ.rows ρ.rows)
    (start : m.Renumbered ρ.row ρ.row m') :
    ((cs.filterMap part).foldl f m).hasSize ρ.rows ρ.rows ∧
      ((cs.filterMap part).foldl f m).Renumbered ρ.row ρ.row ((cs'.filterMap part).foldl g m') := by
  refine foldl_parts_related (R := fun m m' : Matrix Real =>
      m.hasSize ρ.rows ρ.rows ∧ m.Renumbered ρ.row ρ.row m')
    (fun a c x y _ own own' m => ?_) (fun a listed x own m m' both => ?_) perm ⟨size,start⟩
  · obtain ⟨first,_,stamp⟩ := stamps a x own
    obtain ⟨second,_,stamp'⟩ := stamps c y own'
    simp only [stamp,stamp',stamp_accumulate]
    exact accumulate_comm ..
  · obtain ⟨method,stamp,stamp'⟩ := stamps a x own
    obtain ⟨size,start⟩ := both
    rw [stamp,stamp',Method.stamp,Method.stamp,start.rows]
    have vector : (Matrix.Zero m.rows 1 : Matrix Real).hasSize ρ.rows 1 := ⟨size.1,rfl⟩
    have related : (⟨m,.Zero m.rows 1,.Zero m.rows 1,h⟩ : Equations Real (Objects S U)).Renamed ρ
        (cs.map b.site) b.network ⟨m',.Zero m.rows 1,.Zero m.rows 1,h'⟩ :=
      ⟨⟨size,vector,vector⟩,start,.zero ..,.zero ..,same⟩
    have called := method.call_renamed (List.mem_map_of_mem listed) 0 related
    exact ⟨called.sized.system,called.system⟩

end Loops

structure Built (b : LocalSystem V S U Real) (cs : List Nat) (s : MnaSolver V Real (Objects S U)) : Prop where
  system : s.mSystem = b.topology cs
  power : s.mPowerComponents = cs.filterMap b.mnaAt
  switches : s.mSwitches = cs.filterMap b.switchAt
  signals : s.mSignalComponents = []
  network : s.mNodes.take s.mNumNetNodes.toNat = b.network

structure Twins (b : LocalSystem V S U Real) (cs cs' : List Nat) (s s' : MnaSolver V Real (Objects S U)) :
    Prop where
  first : b.Built cs s
  second : b.Built cs' s'
  timeStep : s'.mTimeStep = s.mTimeStep
  domain : s'.mDomain = s.mDomain
  steady : s'.mSteadyStateInit = s.mSteadyStateInit
  numNodes : s'.mNumNodes = s.mNumNodes

structure Fields (Real : Type) where
  system : Matrix Real
  lu : PartialPivLU Real
  right : Matrix Real
  left : Matrix Real
  matrices : AList (fun _ : SwitchStatus => Matrix Real)
  factorizations : AList (fun _ : SwitchStatus => PartialPivLU Real)
  status : SwitchStatus

def withFields (s : MnaSolver V Real (Objects S U)) (f : Fields Real) : MnaSolver V Real (Objects S U) :=
  { s with
    mTmpSystemMatrix := f.system
    mTmpLuFactorization := f.lu
    mRightSideVector := f.right
    mLeftSideVector := f.left
    mSwitchedMatrices := f.matrices
    mLuFactorizations := f.factorizations
    mCurrentSwitchStatus := f.status }

theorem Twins.withFields {b : LocalSystem V S U Real} {cs cs' : List Nat} {s s' : MnaSolver V Real (Objects S U)}
    (twins : b.Twins cs cs' s s') (f f' : Fields Real) :
    b.Twins cs cs' (withFields s f) (withFields s' f') :=
  ⟨⟨twins.first.system,twins.first.power,twins.first.switches,twins.first.signals,twins.first.network⟩,
    ⟨twins.second.system,twins.second.power,twins.second.switches,twins.second.signals,twins.second.network⟩,
    twins.timeStep,twins.domain,twins.steady,twins.numNodes⟩

section Solvers
variable {b : LocalSystem V S U Real} {cs cs' : List Nat} {ρ : Renaming V}
  {s s' : MnaSolver V Real (Objects S U)} {h h' : Heap (Objects S U)} {e e' : Equations Real (Objects S U)}

theorem Twins.stepSignals (twins : b.Twins cs cs' s s') (time : Real)
    (same : h.Renamed ρ (cs.map b.site) b.network h') :
    (s.stepSignals time h).Renamed ρ (cs.map b.site) b.network (s'.stepSignals time h') := by
  rw [MnaSolver.stepSignals,MnaSolver.stepSignals,twins.first.signals,twins.second.signals]
  exact same

theorem Twins.stepPower (perm : cs.Perm cs') (twins : b.Twins cs cs' s s') (time : Real)
    (same : e.Renamed ρ (cs.map b.site) b.network e') :
    (s.stepPower time e).Renamed ρ (cs.map b.site) b.network (s'.stepPower time e') := by
  rw [MnaSolver.stepPower,MnaSolver.stepPower,twins.first.power,twins.second.power]
  refine calls_renamed time (fun a x own => ?_) perm same
  obtain ⟨comp,rfl⟩ := mnaAt_some own
  exact ⟨comp.mnaStep,fun _ => rfl⟩

theorem Twins.stepSwitches (perm : cs.Perm cs') (twins : b.Twins cs cs' s s') (time : Real)
    (same : e.Renamed ρ (cs.map b.site) b.network e') :
    (s.stepSwitches time e).Renamed ρ (cs.map b.site) b.network (s'.stepSwitches time e') := by
  rw [MnaSolver.stepSwitches,MnaSolver.stepSwitches,twins.first.switches,twins.second.switches]
  refine calls_renamed time (fun a x own => ?_) perm same
  obtain ⟨sw,rfl⟩ := switchAt_some own
  exact ⟨sw.mnaStep,fun _ => rfl⟩

theorem Twins.postSteps (perm : cs.Perm cs') (twins : b.Twins cs cs' s s') (time : Real)
    (same : e.Renamed ρ (cs.map b.site) b.network e') :
    (s.postSteps time e).Renamed ρ (cs.map b.site) b.network (s'.postSteps time e') := by
  rw [MnaSolver.postSteps,MnaSolver.postSteps,twins.first.power,twins.second.power]
  refine calls_renamed time (fun a x own => ?_) perm same
  obtain ⟨comp,rfl⟩ := mnaAt_some own
  exact ⟨comp.mnaPostStep.withoutSystem,fun e => (Method.call_withoutSystem ..).symm⟩

/-- The network nodes are the same, and so are the voltages they take. -/
theorem Twins.updateVoltages (twins : b.Twins cs cs' s s')
    (same : e.Renamed ρ (cs.map b.site) b.network e') :
    (s.updateVoltages b.library e).Renamed ρ (cs.map b.site) b.network (s'.updateVoltages b.library e') := by
  refine ⟨⟨same.sized.system,same.sized.right,same.sized.left⟩,same.system,same.right,same.left,?_⟩
  simp only [MnaSolver.updateVoltages,twins.first.network,twins.second.network]
  refine List.foldl_rel same.heap fun node member h h' heaps => ?_
  refine ⟨?_,heaps.indices,heaps.network⟩
  have voltage := b.updateVoltage.uniform ρ ((MnaSolver.simNodes h node).map UInt32.toNat)
    (fun i => e.left.entry i 0) (fun i => e'.left.entry i 0) (h.objects.voltage node.ref)
    fun i => same.left.entries i 0
  simp only [library,heaps.network node member,heaps.objects,same.left.rows,same.sized.left.1,voltage]

theorem Twins.setBehaviours (perm : cs.Perm cs') (twins : b.Twins cs cs' s s') (behaviour : Behaviour)
    (same : h.Renamed ρ (cs.map b.site) b.network h') :
    (s.setBehaviours behaviour h).Renamed ρ (cs.map b.site) b.network (s'.setBehaviours behaviour h') := by
  rw [MnaSolver.setBehaviours,MnaSolver.setBehaviours,twins.first.system,twins.second.system]
  have listed (cs : List Nat) : (b.topology cs).mComponents = cs.filterMap fun a => some (b.componentAt a) :=
    (congrFun List.filterMap_eq_map cs).symm
  rw [listed,listed]
  refine states_renamed (fun a x own => ?_) perm same
  obtain rfl := Option.some.inj own
  exact ⟨_,fun _ => rfl⟩

theorem Twins.initializeComponents (perm : cs.Perm cs') (twins : b.Twins cs cs' s s')
    (same : h.Renamed ρ (cs.map b.site) b.network h') :
    (s.initializeComponents h).Renamed ρ (cs.map b.site) b.network (s'.initializeComponents h') := by
  unfold MnaSolver.initializeComponents
  simp only [twins.first.power,twins.second.power,twins.first.switches,twins.second.switches,
    twins.first.signals,twins.second.signals,twins.first.system,twins.second.system,twins.timeStep]
  refine states_renamed (fun a x own => ?_) perm (states_renamed (fun a x own => ?_) perm
    (states_renamed (fun a x own => ?_) perm same))
  · obtain ⟨sw,rfl⟩ := switchAt_some own
    exact ⟨_,fun _ => rfl⟩
  · obtain ⟨comp,rfl⟩ := mnaAt_some own
    exact ⟨_,fun _ => rfl⟩
  · obtain ⟨comp,rfl⟩ := mnaAt_some own
    rcases power : comp.power with _ | ⟨varType,pComp⟩
    · exact ⟨id,fun h => by simp [MNAInterface.cast,LocalMNA.interface,power]⟩
    · by_cases fits : varType = V
      · exact ⟨pComp.initializeFromPowerflow b.mSystemFrequency,fun h => by
          simp [MNAInterface.cast,LocalMNA.interface,power,fits,topology]⟩
      · exact ⟨id,fun h => by simp [MNAInterface.cast,LocalMNA.interface,power,fits]⟩

theorem Twins.stampPower (perm : cs.Perm cs') (twins : b.Twins cs cs' s s')
    (same : h.Renamed ρ (cs.map b.site) b.network h') {m m' : Matrix Real} (size : m.hasSize ρ.rows ρ.rows)
    (start : m.Renumbered ρ.row ρ.row m') : (s.stampPower h m).hasSize ρ.rows ρ.rows ∧
      (s.stampPower h m).Renumbered ρ.row ρ.row (s'.stampPower h' m') := by
  rw [MnaSolver.stampPower,MnaSolver.stampPower,twins.first.power,twins.second.power]
  refine stamps_renamed same (fun a x own => ?_) perm size start
  obtain ⟨comp,rfl⟩ := mnaAt_some own
  exact ⟨comp.mnaApplySystemMatrixStamp,fun _ => rfl,fun _ => rfl⟩

theorem Twins.stampSystem (perm : cs.Perm cs') (twins : b.Twins cs cs' s s')
    (same : h.Renamed ρ (cs.map b.site) b.network h') {m m' : Matrix Real} (size : m.hasSize ρ.rows ρ.rows)
    (start : m.Renumbered ρ.row ρ.row m') : (s.stampSystem h m).hasSize ρ.rows ρ.rows ∧
      (s.stampSystem h m).Renumbered ρ.row ρ.row (s'.stampSystem h' m') := by
  obtain ⟨size,start⟩ := twins.stampPower perm same size start
  rw [MnaSolver.stampSystem,MnaSolver.stampSystem,twins.first.switches,twins.second.switches]
  refine stamps_renamed same (fun a x own => ?_) perm size start
  obtain ⟨sw,rfl⟩ := switchAt_some own
  exact ⟨sw.mnaApplySystemMatrixStamp,fun _ => rfl,fun _ => rfl⟩

/-- The right vector of `initialize` is stamped while the components change their states. -/
theorem Twins.stampRightSide (perm : cs.Perm cs') (twins : b.Twins cs cs' s s')
    (same : h.Renamed ρ (cs.map b.site) b.network h') (size : s.mRightSideVector.hasSize ρ.rows 1)
    (right : s.mRightSideVector.Renumbered ρ.row 1 s'.mRightSideVector) :
    ∃ vector vector' g g', s.stampRightSide h = ({ s with mRightSideVector := vector },g) ∧
      s'.stampRightSide h' = ({ s' with mRightSideVector := vector' },g') ∧
      vector.hasSize ρ.rows 1 ∧ vector.Renumbered ρ.row 1 vector' ∧
      g.Renamed ρ (cs.map b.site) b.network g' := by
  refine ⟨_,_,_,_,rfl,rfl,?_⟩
  rw [twins.first.power,twins.second.power]
  refine foldl_parts_related (R := fun r r' : Matrix Real × Heap (Objects S U) => r.1.hasSize ρ.rows 1 ∧
    r.1.Renumbered ρ.row 1 r'.1 ∧ r.2.Renamed ρ (cs.map b.site) b.network r'.2)
    (fun a c x y other own own' r => ?_) (fun a listed x own r r' both => ?_) perm ⟨size,right,same⟩
  · obtain ⟨first,rfl⟩ := mnaAt_some own
    obtain ⟨second,rfl⟩ := mnaAt_some own'
    have apart : (b.site c).address ≠ (b.site a).address := Ne.symm other
    have comm := Method.call_comm apart second.mnaApplyRightSideVectorStamp
      first.mnaApplyRightSideVectorStamp 0 ⟨.Zero r.1.rows r.1.rows,r.1,.Zero r.1.rows 1,r.2⟩
    have vectors := congrArg Equations.right comm
    have heaps := congrArg Equations.heap comm
    exact Prod.ext vectors heaps
  · obtain ⟨comp,rfl⟩ := mnaAt_some own
    obtain ⟨size,right,heaps⟩ := both
    have related : (⟨.Zero r.1.rows r.1.rows,r.1,.Zero r.1.rows 1,r.2⟩ : Equations Real (Objects S U)).Renamed ρ
        (cs.map b.site) b.network ⟨.Zero r'.1.rows r'.1.rows,r'.1,.Zero r'.1.rows 1,r'.2⟩ := by
      refine ⟨⟨⟨size.1,size.1⟩,size,⟨size.1,rfl⟩⟩,?_,right,?_,heaps⟩
      · rw [right.rows]
        exact .zero ..
      · rw [right.rows]
        exact .zero ..
    have called := comp.mnaApplyRightSideVectorStamp.call_renamed (List.mem_map_of_mem listed) 0 related
    exact ⟨called.sized.right,called.right,called.heap⟩

end Solvers

section Keys

/-- The number whose binary digits are the positions, the first one being the last digit. -/
def keyNumber (bits : List Bool) : Nat := bits.foldr Nat.bit 0

/-- The status has these positions in its bits, and zeros above. -/
def Shows (bits : List Bool) (status : SwitchStatus) : Prop := ∀ j, status.getLsbD j = bits[j]?.getD false

theorem keyNumber_testBit (bits : List Bool) (j : Nat) : (keyNumber bits).testBit j = bits[j]?.getD false := by
  induction bits generalizing j with
  | nil => simp [keyNumber]
  | cons bit bits ih =>
    cases j with
    | zero => exact Nat.testBit_bit_zero ..
    | succ j =>
      rw [keyNumber,List.foldr_cons,Nat.testBit_succ,Nat.bit_div_two]
      exact ih j

theorem Shows.toNat {bits : List Bool} (shows_ : Shows bits status) : status.toNat = keyNumber bits := by
  refine Nat.eq_of_testBit_eq fun j => ?_
  rw [keyNumber_testBit]
  exact shows_ j

theorem keyNumber_lt (bits : List Bool) : keyNumber bits < 2 ^ bits.length := by
  refine Nat.lt_pow_two_of_testBit _ fun j beyond => ?_
  rw [keyNumber_testBit,List.getElem?_eq_none beyond]
  rfl

variable (b : LocalSystem V S U Real)

def positions (cs : List Nat) (closed : Nat → Bool) : List Bool :=
  cs.filterMap fun a => (b.component a).mnaSwitch.map fun _ => closed a

def closed (objects : Objects S U) (a : Nat) : Bool :=
  match (b.component a).mnaSwitch with
  | some sw => sw.mnaIsClosed (objects.state a)
  | none => false

/-- Whether a status is among the keys does not depend on which of the two orders its bits are in. -/
def KeysAgree (cs cs' : List Nat) (status : SwitchStatus) : Prop :=
  ∀ closed, Shows (b.positions cs closed) status →
    (keyNumber (b.positions cs closed) < (b.positions cs closed).length * 2 ↔
      keyNumber (b.positions cs' closed) < (b.positions cs' closed).length * 2)

variable {b} {cs cs' : List Nat}

theorem positions_length (closed : Nat → Bool) :
    (b.positions cs closed).length = (cs.filterMap b.switchAt).length := by
  have (cs : List Nat) : (b.positions cs closed).map (fun _ => ()) =
      (cs.filterMap b.switchAt).map (fun _ => ()) := by
    simp [positions,switchAt,List.map_filterMap,Function.comp_def]
  simpa using congrArg List.length (this cs)

theorem keysAgree_of_two (perm : cs.Perm cs') (few : (cs.filterMap b.switchAt).length ≤ 2)
    (status : SwitchStatus) : b.KeysAgree cs cs' status := by
  intro closed _
  have below := keyNumber_lt (b.positions cs closed)
  have below' := keyNumber_lt (b.positions cs' closed)
  have lengths : (b.positions cs' closed).length = (b.positions cs closed).length :=
    (perm.filterMap _).length_eq.symm
  rw [lengths] at below' ⊢
  rw [← positions_length closed] at few
  generalize (b.positions cs closed).length = n at *
  rcases (by omega : n = 0 ∨ n = 1 ∨ n = 2) with rfl | rfl | rfl <;> omega

theorem positions_closed (h : Heap (Objects S U)) :
    b.positions cs (b.closed h.objects) = (cs.filterMap b.switchAt).map (·.mnaIsClosed h) := by
  rw [List.map_filterMap]
  refine List.filterMap_congr fun a _ => ?_
  unfold closed switchAt
  cases (b.component a).mnaSwitch <;> rfl

theorem Built.shows {s : MnaSolver V Real (Objects S U)} (built : b.Built cs s) (few : s.mSwitches.length ≤ 32)
    (high : MnaSolver.HighBitsZero s.mSwitches.length s.mCurrentSwitchStatus) (h : Heap (Objects S U)) :
    Shows (b.positions cs (b.closed h.objects)) (s.updateSwitchStatus h).mCurrentSwitchStatus := by
  intro j
  rw [MnaSolver.updateSwitchStatus_bit s h few,positions_closed,← built.switches,List.getElem?_map]
  by_cases inside : j < s.mSwitches.length
  · rw [List.getElem?_eq_getElem inside]
    rfl
  · rw [List.getElem?_eq_none (Nat.le_of_not_lt inside)]
    exact high j (Nat.le_of_not_lt inside)

omit [Field Real] in
/-- A loop over the switches and the bits of a key is one over the switches and their positions. -/
theorem foldl_shown {α β : Type} {g : β → α → Bool → β} (pairs : List (α × Bool)) (key : SwitchStatus) (k : Nat)
    (shown : ∀ j, key.getLsbD (k + j) = (pairs.map Prod.snd)[j]?.getD false) (z : β) :
    ((pairs.map Prod.fst).zipIdx k).foldl (fun z p => g z p.1 (key.getLsbD p.2)) z =
      pairs.foldl (fun z p => g z p.1 p.2) z := by
  induction pairs generalizing k z with
  | nil => rfl
  | cons p pairs ih =>
    have first : key.getLsbD k = p.2 := shown 0
    rw [List.map_cons,List.zipIdx_cons,List.foldl_cons,List.foldl_cons,first]
    refine ih (k + 1) (fun j => ?_) _
    rw [Nat.add_assoc,Nat.add_comm 1]
    exact shown (j + 1)

variable (b) in
def switchBitAt (closed : Nat → Bool) (a : Nat) : Option (MNASwitchInterface Real (Objects S U) × Bool) :=
  (b.component a).mnaSwitch.map fun sw => (sw.interface (b.site a),closed a)

theorem Built.stampSwitched {closed : Nat → Bool} {s : MnaSolver V Real (Objects S U)} (built : b.Built cs s)
    (shown : Shows (b.positions cs closed) key) (h : Heap (Objects S U)) (m : Matrix Real) :
    s.stampSwitched h key m = (cs.filterMap (b.switchBitAt closed)).foldl
      (fun m p => p.1.mnaApplySwitchSystemMatrixStamp p.2 h m) (s.stampPower h m) := by
  have first : s.mSwitches = (cs.filterMap (b.switchBitAt closed)).map Prod.fst := by
    rw [built.switches,List.map_filterMap]
    refine List.filterMap_congr fun a _ => ?_
    unfold switchAt switchBitAt
    cases (b.component a).mnaSwitch <;> rfl
  have second : b.positions cs closed = (cs.filterMap (b.switchBitAt closed)).map Prod.snd := by
    rw [positions,List.map_filterMap]
    refine List.filterMap_congr fun a _ => ?_
    unfold switchBitAt
    cases (b.component a).mnaSwitch <;> rfl
  rw [MnaSolver.stampSwitched,first]
  refine foldl_shown (g := fun m (sw : MNASwitchInterface Real (Objects S U)) bit =>
    sw.mnaApplySwitchSystemMatrixStamp bit h m) _ key 0 (fun j => ?_) _
  rw [← second,Nat.zero_add]
  exact shown j

/-- The matrices of two keys that stand for the same positions. -/
theorem Twins.stampSwitched {closed : Nat → Bool} {ρ : Renaming V} {s s' : MnaSolver V Real (Objects S U)}
    {h h' : Heap (Objects S U)} (perm : cs.Perm cs') (twins : b.Twins cs cs' s s')
    (same : h.Renamed ρ (cs.map b.site) b.network h')
    (shown : Shows (b.positions cs closed) key) (shown' : Shows (b.positions cs' closed) key')
    {m m' : Matrix Real} (size : m.hasSize ρ.rows ρ.rows) (start : m.Renumbered ρ.row ρ.row m') :
    (s.stampSwitched h key m).hasSize ρ.rows ρ.rows ∧
      (s.stampSwitched h key m).Renumbered ρ.row ρ.row (s'.stampSwitched h' key' m') := by
  obtain ⟨size,start⟩ := twins.stampPower perm same size start
  rw [twins.first.stampSwitched shown,twins.second.stampSwitched shown']
  refine stamps_renamed same (fun a x own => ?_) perm size start
  obtain ⟨sw,_,rfl⟩ := Option.map_eq_some_iff.mp own
  exact ⟨sw.mnaApplySwitchSystemMatrixStamp (closed a),fun _ => rfl,fun _ => rfl⟩

end Keys
end LocalSystem
end DPsim
