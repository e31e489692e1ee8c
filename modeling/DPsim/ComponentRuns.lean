import DPsim.ComponentOrder

/-! Steps and runs of the solver for two orders of one list of components. They stay alike as long
as the keys of the switch states agree on what has been factorized. -/
namespace DPsim.LocalSystem
open MnaSolver Renumbering

variable {V : VarType} {S U Real : Type} [Field Real] {b : LocalSystem V S U Real} {cs cs' : List Nat}

section Selection
variable {ρ : Renaming V} {x y : MnaSolver V Real (Objects S U) × Heap (Objects S U)}
  {s : MnaSolver V Real (Objects S U)}

theorem Stocked.entries (stocked : Stocked n s) : s.mSwitchedMatrices.entries = [] ↔ n = 0 := by
  refine entries_nil_iff fun key => ⟨fun member => ?_,fun below => ?_⟩
  · by_contra beyond
    exact AList.lookup_eq_none.mp (stocked.absent key (Nat.le_of_not_lt beyond)).1 member
  · obtain ⟨m,found,_⟩ := stocked.present key below
    exact AList.lookup_isSome.mp (found ▸ rfl)

theorem selected_fst (s : MnaSolver V Real (Objects S U)) : s.selected.1 =
    if s.mSwitchedMatrices.entries = [] then s.mTmpLuFactorization
    else (s.mLuFactorizations.lookup s.mCurrentSwitchStatus).getD .empty := by
  unfold selected factorizationAt
  split
  · rfl
  · cases s.mLuFactorizations.lookup s.mCurrentSwitchStatus <;> rfl

/-- Beyond the keys `operator[]` gives the empty factorization. -/
theorem Stocked.selected_beyond (stocked : Stocked n s) (positive : n ≠ 0)
    (beyond : n * 2 ≤ s.mCurrentSwitchStatus.toNat) : s.selected.1 = .empty := by
  rw [selected_fst,if_neg (positive ∘ stocked.entries.mp)]
  cases held : s.mLuFactorizations.lookup s.mCurrentSwitchStatus with
  | none => rfl
  | some lu => exact (stocked.absent _ beyond).2 lu held

theorem Stocked.selected_below (stocked : Stocked n s) (below : s.mCurrentSwitchStatus.toNat < n * 2) :
    ∃ m, s.mSwitchedMatrices.lookup s.mCurrentSwitchStatus = some m ∧ s.selected.1 = ⟨m⟩ := by
  obtain ⟨m,found,factorized⟩ := stocked.present _ below
  refine ⟨m,found,?_⟩
  rw [selected_fst,if_neg fun none => by have := stocked.entries.mp none; omega,factorized]
  rfl

theorem Stocked.selected (stocked : Stocked n s) : ∃ factorizations,
    s.selected.2 = { s with mLuFactorizations := factorizations } ∧ Stocked n s.selected.2 := by
  obtain ⟨factorizations,kept,same⟩ := s.selected_frame
  refine ⟨factorizations,kept,?_⟩
  by_cases known : s.mSwitchedMatrices.entries = [] ∨ s.mCurrentSwitchStatus ∈ s.mLuFactorizations
  · rw [kept,same known]
    exact ⟨stocked.present,stocked.absent⟩
  · obtain ⟨some_,missing⟩ := not_or.mp known
    have none := AList.lookup_eq_none.mpr missing
    have inserted : s.selected.2 = { s with
        mLuFactorizations := s.mLuFactorizations.insert s.mCurrentSwitchStatus .empty } := by
      rw [MnaSolver.selected,if_neg some_,factorizationAt,none]
    rw [inserted]
    refine ⟨fun key below => ?_,fun key beyond => ?_⟩
    · obtain ⟨m,found,factorized⟩ := stocked.present key below
      refine ⟨m,found,?_⟩
      rw [AList.lookup_insert_ne fun same => by rw [← same,factorized] at none; contradiction]
      exact factorized
    · obtain ⟨absent,empty⟩ := stocked.absent key beyond
      refine ⟨absent,fun lu held => ?_⟩
      by_cases same : key = s.mCurrentSwitchStatus
      · rw [same,AList.lookup_insert] at held
        exact (Option.some.inj held).symm
      · rw [AList.lookup_insert_ne same] at held
        exact empty lu held

theorem Paired.below_iff (perm : cs.Perm cs') (paired : Paired ρ b cs cs' x y)
    (agree : b.KeysAgree cs cs' x.1.mCurrentSwitchStatus) :
    x.1.mCurrentSwitchStatus.toNat < (cs.filterMap b.switchAt).length * 2 ↔
      y.1.mCurrentSwitchStatus.toNat < (cs.filterMap b.switchAt).length * 2 := by
  obtain ⟨closed,shown,shown'⟩ := paired.shown
  have same := agree closed shown
  rw [positions_length,positions_length,filterMap_length_perm perm] at same
  rw [shown.toNat,shown'.toNat]
  exact same

/-- Both runs select factorizations of one matrix, or both the empty one. -/
theorem Paired.selected (perm : cs.Perm cs') (paired : Paired ρ b cs cs' x y)
    (agree : b.KeysAgree cs cs' x.1.mCurrentSwitchStatus) :
    (x.1.selected.1 = .empty ∧ y.1.selected.1 = .empty) ∨ (x.1.selected.1.matrix.hasSize ρ.rows ρ.rows ∧
      x.1.selected.1.matrix.Renumbered ρ.row ρ.row y.1.selected.1.matrix) := by
  have stocked := paired.stocked
  have stocked' := paired.stocked'
  have both := paired.below_iff perm agree
  by_cases none : (cs.filterMap b.switchAt).length = 0
  · rw [selected_fst,selected_fst,if_pos (stocked.entries.mpr none),if_pos (stocked'.entries.mpr none)]
    exact .inr ⟨paired.size,paired.same⟩
  by_cases below : x.1.mCurrentSwitchStatus.toNat < (cs.filterMap b.switchAt).length * 2
  · obtain ⟨closed,shown,shown'⟩ := paired.shown
    obtain ⟨m,found,chosen⟩ := stocked.selected_below below
    obtain ⟨m',found',chosen'⟩ := stocked'.selected_below (both.mp below)
    rw [chosen,chosen']
    exact .inr (paired.matrices closed _ _ m m' shown shown' found found')
  · have beyond := Nat.le_of_not_lt fun below' => below (both.mpr below')
    exact .inl ⟨stocked.selected_beyond none (Nat.le_of_not_lt below),stocked'.selected_beyond none beyond⟩

end Selection

section Steps
variable {ρ : Renaming V} {x y : MnaSolver V Real (Objects S U) × Heap (Objects S U)}

def putEquations (s : MnaSolver V Real (Objects S U)) (e : Equations Real (Objects S U)) :
    MnaSolver V Real (Objects S U) × Heap (Objects S U) :=
  ({ s with
    mTmpSystemMatrix := e.system
    mRightSideVector := e.right
    mLeftSideVector := e.left },e.heap)

theorem Paired.putEquations (paired : Paired ρ b cs cs' x y) {e e' : Equations Real (Objects S U)}
    (same : e.Renamed ρ (cs.map b.site) b.network e') :
    Paired ρ b cs cs' (putEquations x.1 e) (putEquations y.1 e') :=
  ⟨paired.twins.withFields ⟨_,_,_,_,_,_,_⟩ ⟨_,_,_,_,_,_,_⟩,same,paired.size,paired.same,paired.few,paired.shown,
    ⟨paired.stocked.present,paired.stocked.absent⟩,⟨paired.stocked'.present,paired.stocked'.absent⟩,
    paired.matrices⟩

theorem Paired.stepComponents (perm : cs.Perm cs') (paired : Paired ρ b cs cs' x y) (time : Real) :
    Paired ρ b cs cs' (x.1.stepComponents time x.2) (y.1.stepComponents time y.2) := by
  have twins := paired.twins
  have same := paired.equations
  refine paired.putEquations (twins.stepSwitches perm time (twins.stepPower perm time ?_))
  exact ⟨⟨same.sized.system,same.sized.right.setZero,same.sized.left⟩,same.system,same.right.setZero,same.left,
    twins.stepSignals time same.heap⟩

theorem Paired.finishStep (perm : cs.Perm cs') (paired : Paired ρ b cs cs' x y) (time : Real) :
    Paired ρ b cs cs' (x.1.finishStep b.library time x.2) (y.1.finishStep b.library time y.2) := by
  have twins := paired.twins
  have same := paired.equations
  have posted := twins.updateVoltages (twins.postSteps perm time same)
  -- the system matrix is not passed to `mnaPostStep`
  have kept : ({ x.1.updateVoltages b.library (x.1.postSteps time (LocalSystem.equations x.1 x.2)) with
        system := x.1.mTmpSystemMatrix } : Equations Real (Objects S U)).Renamed ρ (cs.map b.site) b.network
      { y.1.updateVoltages b.library (y.1.postSteps time (LocalSystem.equations y.1 y.2)) with
        system := y.1.mTmpSystemMatrix } :=
    ⟨⟨same.sized.system,posted.sized.right,posted.sized.left⟩,same.system,posted.right,posted.left,posted.heap⟩
  exact paired.putEquations kept

theorem Shows.high {bits : List Bool} (shown : Shows bits status) : HighBitsZero bits.length status := by
  intro j beyond
  rw [shown,List.getElem?_eq_none beyond]
  rfl

theorem Paired.updateSwitchStatus (perm : cs.Perm cs') (paired : Paired ρ b cs cs' x y) :
    Paired ρ b cs cs' (x.1.updateSwitchStatus x.2,x.2) (y.1.updateSwitchStatus y.2,y.2) := by
  obtain ⟨closed,shown,shown'⟩ := paired.shown
  have few := paired.few
  have count : x.1.mSwitches.length = (cs.filterMap b.switchAt).length :=
    congrArg List.length paired.twins.first.switches
  have count' : y.1.mSwitches.length = (cs.filterMap b.switchAt).length :=
    (congrArg List.length paired.twins.second.switches).trans (filterMap_length_perm perm)
  have high := shown.high
  have high' := shown'.high
  rw [positions_length] at high high'
  rw [filterMap_length_perm perm] at high'
  have now := paired.twins.first.shows (count ▸ few) (count ▸ high) x.2
  have now' := paired.twins.second.shows (count' ▸ few) (count' ▸ high') y.2
  have objects : y.2.objects = x.2.objects := paired.equations.heap.objects
  rw [objects] at now'
  exact ⟨paired.twins.withFields ⟨_,_,_,_,_,_,_⟩ ⟨_,_,_,_,_,_,_⟩,paired.equations,paired.size,paired.same,few,
    ⟨_,now,now'⟩,⟨paired.stocked.present,paired.stocked.absent⟩,⟨paired.stocked'.present,paired.stocked'.absent⟩,
    paired.matrices⟩

theorem Paired.event (paired : Paired ρ b cs cs' x y) (event : Objects S U → Objects S U) :
    Paired ρ b cs cs' (x.1,{ x.2 with objects := event x.2.objects })
      (y.1,{ y.2 with objects := event y.2.objects }) := by
  have same := paired.equations
  refine ⟨paired.twins,⟨⟨same.sized.system,same.sized.right,same.sized.left⟩,same.system,same.right,same.left,?_⟩,
    paired.size,paired.same,paired.few,paired.shown,paired.stocked,paired.stocked',paired.matrices⟩
  exact ⟨congrArg event same.heap.objects,same.heap.indices,same.heap.network⟩

theorem Paired.solve (perm : cs.Perm cs') (solves : Matrix.Solves b.solution) (paired : Paired ρ b cs cs' x y)
    (agree : b.KeysAgree cs cs' x.1.mCurrentSwitchStatus) (regular : x.1.selected.1.matrix.Nonsingular) :
    Together (fun s s' => Paired ρ b cs cs' (s,x.2) (s',y.2)) (x.1.solve b.library) (y.1.solve b.library) := by
  have right : x.1.mRightSideVector.hasSize ρ.rows 1 := paired.equations.sized.right
  have vectors : x.1.mRightSideVector.Renumbered ρ.row 1 y.1.mRightSideVector := paired.equations.right
  have solved : Together (fun left left' : Matrix Real => left.hasSize ρ.rows 1 ∧ left.Renumbered ρ.row 1 left')
      (x.1.selected.1.solve b.solution x.1.mRightSideVector)
      (y.1.selected.1.solve b.solution y.1.mRightSideVector) := by
    have alike (size : x.1.selected.1.matrix.hasSize ρ.rows ρ.rows)
        (same : x.1.selected.1.matrix.Renumbered ρ.row ρ.row y.1.selected.1.matrix) :
        Together (fun left left' : Matrix Real => left.hasSize ρ.rows 1 ∧ left.Renumbered ρ.row 1 left')
          (x.1.selected.1.solve b.solution x.1.mRightSideVector)
          (y.1.selected.1.solve b.solution y.1.mRightSideVector) := by
      obtain ⟨left,left',ran,ran',long,moved⟩ :=
        PartialPivLU.solve_renumbered solves ρ.row_keeps size same regular right vectors
      rw [ran,ran']
      exact ⟨long,moved⟩
    rcases paired.selected perm agree with ⟨none,none'⟩ | ⟨size,same⟩
    · by_cases rows : ρ.rows = 0
      · refine alike ?_ ?_
        · rw [none,rows]
          exact ⟨rfl,rfl⟩
        · rw [none,none']
          exact .zero ..
      · have short : ¬ (PartialPivLU.empty : PartialPivLU Real).matrix.rows = x.1.mRightSideVector.rows :=
          fun same => rows (right.1.symm.trans same.symm)
        have short' : ¬ (PartialPivLU.empty : PartialPivLU Real).matrix.rows = y.1.mRightSideVector.rows :=
          vectors.rows.symm ▸ short
        rw [none,none',PartialPivLU.solve,PartialPivLU.solve,if_neg short,if_neg short']
        exact Eq.refl Fault.sizeMismatch
    · exact alike size same
  obtain ⟨_,kept,stocked⟩ := paired.stocked.selected
  obtain ⟨_,kept',stocked'⟩ := paired.stocked'.selected
  rw [solve_selected,solve_selected]
  refine solved.bind fun left left' found => ?_
  obtain ⟨size,same⟩ := found
  rw [kept] at stocked ⊢
  rw [kept'] at stocked' ⊢
  have equations := paired.equations
  exact ⟨paired.twins.withFields ⟨_,_,_,_,_,_,_⟩ ⟨_,_,_,_,_,_,_⟩,⟨⟨equations.sized.system,right,size⟩,
    equations.system,vectors,same,equations.heap⟩,paired.size,paired.same,paired.few,paired.shown,
    ⟨stocked.present,stocked.absent⟩,⟨stocked'.present,stocked'.absent⟩,paired.matrices⟩

theorem Paired.step (perm : cs.Perm cs') (solves : Matrix.Solves b.solution) (paired : Paired ρ b cs cs' x y)
    (agree : b.KeysAgree cs cs' x.1.mCurrentSwitchStatus) (regular : x.1.selected.1.matrix.Nonsingular)
    (time : Real) : Together (fun r r' => r'.1 = r.1 ∧ Paired ρ b cs cs' r.2 r'.2)
      (x.1.step b.library time x.2) (y.1.step b.library time y.2) := by
  have stepped := paired.stepComponents perm time
  have chosen : (x.1.stepComponents time x.2).1.selected.1 = x.1.selected.1 := by
    rw [selected_fst,selected_fst]
    rfl
  refine (stepped.solve perm solves agree (chosen ▸ regular)).bind fun s s' solved => ?_
  have finished := solved.finishStep perm time
  refine ⟨?_,finished.updateSwitchStatus perm⟩
  exact congrArg (time + ·) finished.twins.timeStep

end Steps

section Keys
variable {ρ : Renaming V} {x y : MnaSolver V Real (Objects S U) × Heap (Objects S U)}

def HasFactorization (s : MnaSolver V Real (Objects S U)) : Prop :=
  ∃ m, s.mSwitchedMatrices.lookup s.mCurrentSwitchStatus = some m ∧
    s.mLuFactorizations.lookup s.mCurrentSwitchStatus = some ⟨m⟩

theorem Stocked.hasFactorization {s : MnaSolver V Real (Objects S U)} (stocked : Stocked n s) :
    HasFactorization s ↔ s.mCurrentSwitchStatus.toNat < n * 2 := by
  constructor
  · rintro ⟨m,found,_⟩
    by_contra beyond
    rw [(stocked.absent _ (Nat.le_of_not_lt beyond)).1] at found
    contradiction
  · exact stocked.present _

theorem Shows.unique {bits bits' : List Bool} (shown : Shows bits status) (shown' : Shows bits' status)
    (length : bits.length = bits'.length) : bits = bits' := by
  refine List.ext_getElem length fun j inside inside' => ?_
  have first := shown j
  have second := shown' j
  rw [List.getElem?_eq_getElem inside] at first
  rw [List.getElem?_eq_getElem inside'] at second
  exact first.symm.trans second

omit [Field Real] in
theorem positions_perm {closed closed' : Nat → Bool} (perm : cs.Perm cs')
    (same : b.positions cs closed = b.positions cs closed') :
    b.positions cs' closed = b.positions cs' closed' := by
  have at_ : ∀ a ∈ cs, ((b.component a).mnaSwitch.map fun _ => closed a) =
      (b.component a).mnaSwitch.map fun _ => closed' a := by
    clear perm
    induction cs with
    | nil => simp
    | cons c cs ih =>
      unfold positions at same ih
      cases own : (b.component c).mnaSwitch with
      | none =>
        simp only [List.filterMap_cons,own,Option.map_none] at same
        simpa [own] using ih same
      | some sw =>
        simp only [List.filterMap_cons,own,Option.map_some,List.cons.injEq] at same
        simpa [own,same.1] using ih same.2
  exact List.filterMap_congr fun a listed => at_ a (perm.mem_iff.mpr listed)

/-- A factorization exists in both runs or in none exactly if the keys agree. -/
theorem Paired.factorized_iff (perm : cs.Perm cs') (paired : Paired ρ b cs cs' x y) :
    (HasFactorization x.1 ↔ HasFactorization y.1) ↔ b.KeysAgree cs cs' x.1.mCurrentSwitchStatus := by
  rw [paired.stocked.hasFactorization,paired.stocked'.hasFactorization]
  refine ⟨fun same closed' shows_ => ?_,paired.below_iff perm⟩
  obtain ⟨closed,shown,shown'⟩ := paired.shown
  have lengths : (b.positions cs closed).length = (b.positions cs closed').length := by
    rw [positions_length,positions_length]
  have all := shown.unique shows_ lengths
  rw [shown.toNat,shown'.toNat] at same
  rw [← positions_perm perm all,← all,positions_length,positions_length,filterMap_length_perm perm]
  exact same

end Keys

section Runs
variable {ρ : Renaming V} [LinearOrder Real] {timeStep : Real} {domain : Domain} {steadyStateInit : Bool}
  {fuel : Nat} {h : Heap (Objects S U)} {events : List (Objects S U → Objects S U)}

variable (b) in
def advance (x : Real × MnaSolver V Real (Objects S U) × Heap (Objects S U))
    (event : Objects S U → Objects S U) :
    Except Fault (Real × MnaSolver V Real (Objects S U) × Heap (Objects S U)) :=
  x.2.1.step b.library x.1 { x.2.2 with objects := event x.2.2.objects }

variable (b) in
/-- The run with the components in the order of `cs`, from time zero. -/
def run (timeStep : Real) (domain : Domain) (steadyStateInit : Bool) (fuel : Nat) (h : Heap (Objects S U))
    (cs : List Nat) (events : List (Objects S U → Objects S U)) :
    Except Fault (Real × MnaSolver V Real (Objects S U) × Heap (Objects S U)) := do
  let x ← (b.start timeStep domain steadyStateInit cs).initializeSystem b.library fuel h
  events.foldlM b.advance (0,x)

theorem run_snoc (event : Objects S U → Objects S U) :
    b.run timeStep domain steadyStateInit fuel h cs (events ++ [event]) =
      b.run timeStep domain steadyStateInit fuel h cs events >>= (b.advance · event) := by
  simp only [run,List.foldlM_append,List.foldlM_cons,List.foldlM_nil,bind_pure,bind_assoc]

variable (b) in
/-- The matrices that are solved with are nonsingular. -/
structure Regular (timeStep : Real) (domain : Domain) (steadyStateInit : Bool) (fuel : Nat)
    (h : Heap (Objects S U)) (cs : List Nat) (events : List (Objects S U → Objects S U)) : Prop where
  steady : b.SteadyRegular timeStep domain steadyStateInit cs h
  steps : ∀ before event, before ++ [event] <+: events → ∀ x,
    b.run timeStep domain steadyStateInit fuel h cs before = .ok x → x.2.1.selected.1.matrix.Nonsingular

/-- What two runs have in common: the time, the states of the components and the voltages, and up to
the new indices the matrices, that of a switch state at the key for its own order. -/
structure SameRun (ρ : Renaming V) (b : LocalSystem V S U Real) (cs cs' : List Nat)
    (x y : Real × MnaSolver V Real (Objects S U) × Heap (Objects S U)) : Prop where
  time : y.1 = x.1
  heap : x.2.2.Renamed ρ (cs.map b.site) b.network y.2.2
  system : x.2.1.mTmpSystemMatrix.Renumbered ρ.row ρ.row y.2.1.mTmpSystemMatrix
  left : x.2.1.mLeftSideVector.Renumbered ρ.row 1 y.2.1.mLeftSideVector
  status : ∃ closed, Shows (b.positions cs closed) x.2.1.mCurrentSwitchStatus ∧
    Shows (b.positions cs' closed) y.2.1.mCurrentSwitchStatus
  switched : ∀ closed key key' m m', Shows (b.positions cs closed) key → Shows (b.positions cs' closed) key' →
    x.2.1.mSwitchedMatrices.lookup key = some m → y.2.1.mSwitchedMatrices.lookup key' = some m' →
      m.Renumbered ρ.row ρ.row m'
  factorized : HasFactorization x.2.1 ↔ HasFactorization y.2.1

/-- Runs with the same time that are paired. -/
def PairedRun (ρ : Renaming V) (b : LocalSystem V S U Real) (cs cs' : List Nat)
    (x y : Real × MnaSolver V Real (Objects S U) × Heap (Objects S U)) : Prop :=
  y.1 = x.1 ∧ Paired ρ b cs cs' x.2 y.2

omit [LinearOrder Real] in
theorem PairedRun.same_iff {x y : Real × MnaSolver V Real (Objects S U) × Heap (Objects S U)}
    (perm : cs.Perm cs') (paired : PairedRun ρ b cs cs' x y) :
    SameRun ρ b cs cs' x y ↔ b.KeysAgree cs cs' x.2.1.mCurrentSwitchStatus := by
  obtain ⟨time,paired⟩ := paired
  rw [← paired.factorized_iff perm]
  refine ⟨SameRun.factorized,fun factorized => ?_⟩
  exact ⟨time,paired.equations.heap,paired.equations.system,paired.equations.left,paired.shown,
    fun closed key key' m m' shown shown' found found' =>
      (paired.matrices closed key key' m m' shown shown' found found').2,factorized⟩

theorem initialize_together (perm : cs.Perm cs') (wellFormed : b.WellFormed cs h)
    (solves : Matrix.Solves b.solution) (regular : b.SteadyRegular timeStep domain steadyStateInit cs h)
    {τ : Equiv.Perm Nat} (keeps : Keeps (cs.map b.virtualNodes).sum τ)
    (moved : ∀ a p, slot b.virtualNodes cs' a p = (slot b.virtualNodes cs a p).map τ) (fuel : Nat) :
    Together (Paired (b.renumbering _ τ keeps) b cs cs')
      ((b.start timeStep domain steadyStateInit cs).initializeSystem b.library fuel h)
      ((b.start timeStep domain steadyStateInit cs').initializeSystem b.library fuel h) := by
  refine (initializeNetwork_together perm wellFormed solves regular keeps moved fuel).returned.bind
    fun x y facts => ?_
  obtain ⟨ran,ran',both⟩ := facts
  have first := initializeNetwork_ok ran
  have second := initializeNetwork_ok ran'
  have size := size_topology wellFormed first.numSimNodes
  have size' := size_topology (wellFormed.perm perm) second.numSimNodes
  rw [← (perm.map b.virtualNodes).sum_eq] at size'
  exact factorize_together perm both first second size size'

/-- Runs stay paired as long as the keys agree before each step. -/
theorem run_paired (perm : cs.Perm cs') (solves : Matrix.Solves b.solution)
    (regular : b.Regular timeStep domain steadyStateInit fuel h cs events)
    (start : Together (Paired ρ b cs cs')
      ((b.start timeStep domain steadyStateInit cs).initializeSystem b.library fuel h)
      ((b.start timeStep domain steadyStateInit cs').initializeSystem b.library fuel h))
    (agree : ∀ before, before <+: events → ∀ x y,
      b.run timeStep domain steadyStateInit fuel h cs before = .ok x →
      b.run timeStep domain steadyStateInit fuel h cs' before = .ok y → PairedRun ρ b cs cs' x y →
        b.KeysAgree cs cs' x.2.1.mCurrentSwitchStatus) (before : List (Objects S U → Objects S U))
    (first : before <+: events) : Together (PairedRun ρ b cs cs')
      (b.run timeStep domain steadyStateInit fuel h cs before)
      (b.run timeStep domain steadyStateInit fuel h cs' before) := by
  induction before using List.reverseRecOn with
  | nil => exact start.bind fun x y paired => ⟨rfl,paired⟩
  | append_singleton before event ih =>
    have earlier := (List.prefix_append before [event]).trans first
    rw [run_snoc,run_snoc]
    refine (ih earlier).returned.bind fun x y facts => ?_
    obtain ⟨ran,ran',paired⟩ := facts
    have known := agree before earlier x y ran ran' paired
    have nonsingular := regular.steps before event first x ran
    obtain ⟨time,paired⟩ := paired
    rw [advance,advance,time]
    exact (paired.event event).step perm solves known nonsingular x.1

/-- Two orders of one list of components make the same run exactly as long as the keys agree. -/
theorem order_irrelevant_iff (perm : cs.Perm cs') (wellFormed : b.WellFormed cs h)
    (solves : Matrix.Solves b.solution) : ∃ ρ : Renaming V, (∀ i < b.networkRows, ρ.node i = i) ∧
      ∀ (timeStep : Real) (domain : Domain) (steadyStateInit : Bool) (fuel : Nat)
        (events : List (Objects S U → Objects S U)),
        b.Regular timeStep domain steadyStateInit fuel h cs events →
        ((∀ before, before <+: events → Together (SameRun ρ b cs cs')
            (b.run timeStep domain steadyStateInit fuel h cs before)
            (b.run timeStep domain steadyStateInit fuel h cs' before)) ↔
          ∀ before, before <+: events → ∀ x, b.run timeStep domain steadyStateInit fuel h cs before = .ok x →
            b.KeysAgree cs cs' x.2.1.mCurrentSwitchStatus) := by
  obtain ⟨τ,keeps,moved⟩ := slot_perm perm
  refine ⟨b.renumbering _ τ keeps,fun i below => renumbering_network below,?_⟩
  intro timeStep domain steadyStateInit fuel events regular
  have start := initialize_together perm wellFormed solves regular.steady keeps moved fuel
  have paired := run_paired perm solves regular start
  constructor
  · intro same before first x ran
    have agree (before) (first : before <+: events) (x y) (ran : b.run timeStep domain steadyStateInit fuel h cs
        before = .ok x) (ran' : b.run timeStep domain steadyStateInit fuel h cs' before = .ok y)
        (both : PairedRun (b.renumbering _ τ keeps) b cs cs' x y) :
        b.KeysAgree cs cs' x.2.1.mCurrentSwitchStatus := by
      have alike := same before first
      rw [ran,ran'] at alike
      exact (both.same_iff perm).mp alike
    obtain ⟨y,ran',both⟩ := (paired agree before first).ok ran
    exact agree before first x y ran ran' both
  · intro agree before first
    refine (paired (fun before first x _ ran _ _ => agree before first x ran) before first).imp
      fun x y ran _ both => ?_
    exact (both.same_iff perm).mpr (agree before first x ran)

end Runs

section Feeder

/-- A conductance and a current source between every node of a component and ground. -/
def grounded (conductance current : ℚ) : Method .real Bool ℚ where
  respond v := ⟨v.state,fun i j => if i = j ∧ [i] ∈ v.indices then conductance else 0,
    fun i => if [i] ∈ v.indices then current else 0⟩
  uniform ρ v v' same := by
    have moved (i : Nat) : [ρ.row i] ∈ v'.indices ↔ [i] ∈ v.indices := by
      rw [same.indices]
      exact List.mem_map_of_injective (a := [i]) (List.map_injective_iff.mpr ρ.node.injective)
    refine ⟨same.state,fun i _ j _ => ?_,fun i _ => ?_⟩
    · simp only [moved,ρ.row.injective.eq_iff]
    · simp only [moved]

def groundSwitch : LocalSwitch .real Bool ℚ where
  mnaInitialize _ _ closed := closed
  mnaApplySystemMatrixStamp := grounded 1 0
  mnaApplySwitchSystemMatrixStamp closed := grounded (if closed then 1000 else 1) 0
  mnaStep := grounded 0 0
  mnaIsClosed closed := closed

def groundLoad : LocalMNA .real Bool ℚ where
  power := some (.real,⟨true,1,fun _ closed => closed⟩)
  mnaInitialize _ _ closed := closed
  mnaApplySystemMatrixStamp := grounded 1 0
  mnaApplyRightSideVectorStamp := grounded 0 1
  mnaStep := grounded 0 1
  mnaPostStep := grounded 0 0

/-- One node, with three switches and any number of loads that have a virtual node each. -/
def feeder (solution : Matrix ℚ → Matrix ℚ → Nat → Nat → ℚ) : LocalSystem .real Bool ℚ ℚ where
  component a :=
    { nodes := [⟨.system 0,.Single⟩]
      mnaSwitch := if a < 3 then some groundSwitch else none
      mna := if a < 3 then none else some groundLoad
      setBehaviour := fun _ closed => closed }
  mNodes := [⟨⟨.system 0,.Single⟩,false,.real⟩]
  mSystemFrequency := 50
  mSystemOmega := 314
  solution := solution
  defaultPhase := .Single
  updateVoltage :=
    { update := fun indices _ left voltage => match indices with
        | [i] => left i
        | _ => voltage
      uniform := by
        intro ρ indices left left' voltage same
        match indices with
        | [] => rfl
        | [i] => exact same i
        | _ :: _ :: _ => rfl }

/-- The first switch is open and the others are closed. -/
def feederHeap : Heap (Objects Bool ℚ) where
  simNode _ _ := 0
  virtualNode _ _ := none
  made := 0
  objects := ⟨fun a => decide (a ≠ 0),fun _ => 0⟩

theorem feeder_wellFormed (solution : Matrix ℚ → Matrix ℚ → Nat → Nat → ℚ)
    (fits : 1 + (cs.map (feeder solution).virtualNodes).sum < 2 ^ 32) :
    (feeder solution).WellFormed cs feederHeap := by
  refine ⟨by simp [feeder],⟨by simp [feeder,topology],by simp [feederHeap]⟩,?_,?_⟩
  · simp [feeder,network]
  · simpa [rowsFor,networkRows,virtualStride,network,feeder,stride] using fits

theorem single_event_before (before : List (Objects Bool ℚ → Objects Bool ℚ))
    (last : before ++ [event] <+: [(id : Objects Bool ℚ → Objects Bool ℚ)]) : before = [] := by
  have short := last.length_le
  simp only [List.length_append,List.length_cons,List.length_nil] at short
  exact List.eq_nil_of_length_eq_zero (by omega)

/-- With an open and two closed switches one order gives the status 6, which has no factorization,
and the other gives 3. -/
theorem feeder_order_matters : [0,1,2].Perm [2,1,0] ∧
    (feeder Matrix.exactSolution).WellFormed [0,1,2] feederHeap ∧
    Matrix.Solves (feeder Matrix.exactSolution).solution ∧
    (feeder Matrix.exactSolution).Regular 1 .EMT false 0 feederHeap [0,1,2] [id] ∧
    (∃ x y, (feeder Matrix.exactSolution).run 1 .EMT false 0 feederHeap [0,1,2] [] = .ok x ∧
      (feeder Matrix.exactSolution).run 1 .EMT false 0 feederHeap [2,1,0] [] = .ok y ∧
      ¬ HasFactorization x.2.1 ∧ HasFactorization y.2.1) ∧
    (feeder Matrix.exactSolution).run 1 .EMT false 0 feederHeap [0,1,2] [id] = .error .sizeMismatch ∧
    ∃ y, (feeder Matrix.exactSolution).run 1 .EMT false 0 feederHeap [2,1,0] [id] = .ok y := by
  refine ⟨by decide,feeder_wellFormed _ (by decide),Matrix.exactSolution_solves,⟨nofun,?_⟩,
    ⟨_,_,rfl,rfl,?_,⟨_,rfl,rfl⟩⟩,rfl,⟨_,rfl⟩⟩
  · intro before event last x ran
    obtain rfl := single_event_before before last
    obtain ⟨z,first,missing⟩ : ∃ z,
        (feeder Matrix.exactSolution).run 1 .EMT false 0 feederHeap [0,1,2] [] = .ok z ∧
        z.2.1.selected.1 = .empty := ⟨_,rfl,rfl⟩
    obtain rfl := Except.ok.inj (first.symm.trans ran)
    rw [missing]
    exact .of_diagonal rfl (fun _ _ _ => Matrix.zero_entry ..) nofun
  · rintro ⟨m,found,_⟩
    contradiction

theorem order_irrelevant_iff_feeder : ∃ ρ : Renaming .real,
    (∀ i < (feeder Matrix.exactSolution).networkRows, ρ.node i = i) ∧
    ∀ before, before <+: [(id : Objects Bool ℚ → Objects Bool ℚ)] →
      Together (SameRun ρ (feeder Matrix.exactSolution) [0,3,4] [4,3,0])
        ((feeder Matrix.exactSolution).run 1 .EMT false 0 feederHeap [0,3,4] before)
        ((feeder Matrix.exactSolution).run 1 .EMT false 0 feederHeap [4,3,0] before) := by
  have perm : [0,3,4].Perm [4,3,0] := by decide
  obtain ⟨ρ,fixed,same⟩ := order_irrelevant_iff perm (feeder_wellFormed Matrix.exactSolution (by decide))
    Matrix.exactSolution_solves
  refine ⟨ρ,fixed,(same 1 .EMT false 0 [id] ⟨nofun,?_⟩).mpr ?_⟩
  · intro before event last x ran
    obtain rfl := single_event_before before last
    obtain ⟨z,first,rows,cols,entries⟩ : ∃ z,
        (feeder Matrix.exactSolution).run 1 .EMT false 0 feederHeap [0,3,4] [] = .ok z ∧
        z.2.1.selected.1.matrix.rows = 3 ∧ z.2.1.selected.1.matrix.cols = 3 ∧
        ∀ i < 3, ∀ j < 3, (z.2.1.selected.1.matrix.entry i j = 0 ↔ i ≠ j) :=
      ⟨_,rfl,rfl,rfl,by decide +kernel⟩
    obtain rfl := Except.ok.inj (first.symm.trans ran)
    refine .of_diagonal (rows.trans cols.symm) (fun i j other => ?_) fun i inside zero => ?_
    · by_cases inside : i < 3 ∧ j < 3
      · exact (entries i inside.1 j inside.2).mpr other
      · exact Matrix.entry_outside (by rwa [rows,cols])
    · exact (entries i (rows ▸ inside) i (rows ▸ inside)).mp zero rfl
  · exact fun before _ x _ => keysAgree_of_two (by decide) (by decide) _

end Feeder
end DPsim.LocalSystem
