import DPsim.SlotBounds
import DPsim.SampleOwnership

/-! The list of descriptions against the slots of the sample that the export closures fill. Both are
changes at the same indices in the same order, so the last part bound at an index decides both. -/
namespace DPsim.Python.Interface
open DPsim.Interface PyArg Updates

variable {S Real F Obj : Type}

def closures (T : SampleType S Real) (access : AttributeAccess Real) (self : Interface) : Closures S Real :=
  ⟨self.exports.map (exportClosure T access),self.imports.map (importClosure T access)⟩

section Calls
variable [Interpreter F (PyObject Obj)] [Literals F] (lib : AttributeList Obj)

def exportAttributes (calls : List (Call F Obj)) (self : Interface) : Option Interface :=
  calls.foldlM (fun self c => (addExport lib self c.args c.kwargs).map Prod.fst) self

/-- The part was the last one to be bound at the index. -/
def LastAt (requests : List (Request Obj)) (idx : Int32) (p : Part Obj) : Prop :=
  ∃ before after, requests = before ++ (idx,p) :: after ∧ ∀ r ∈ after, r.1 ≠ idx

/-- The descriptions say what is in the sample. -/
structure Layout (T : SampleType S Real) (access : AttributeAccess Real) (values : Attributes Real)
    (calls : List (Call F Obj)) (intf : Interface) (smp : Sample S) : Prop where
  /-- A described slot holds the value of the part that was bound there last. -/
  held : ∀ idx : Int32, 0 ≤ idx.toInt → ∀ d, intf.pyExports[idx.toInt.toNat]? = some (some d) →
    ∃ p, LastAt (calls.flatMap (exportAsked lib)) idx p ∧ d = p.description lib ∧
      ∃ value old, (p.slot lib idx).get access values = .ok value ∧ smp.data idx = T.store p.kind value old
  /-- No closure writes any other slot. -/
  blank : ∀ idx : Int32, 0 ≤ idx.toInt → (∀ d, intf.pyExports[idx.toInt.toNat]? ≠ some (some d)) →
    ∀ exp ∈ (closures T access intf).mExports, ∀ values smp smp',
      exp values smp = .ok smp' → smp'.data idx = smp.data idx

/-- After the calls, `writeValues` sends the sample that it has been handed, with the advertised layout. -/
def LayoutMatches (T : SampleType S Real) (access : AttributeAccess Real) (values : Attributes Real)
    (calls : List (Call F Obj)) (w : DPsim.Interface.Writer S Real) (shm : Shmem) (smp : Nat) : Prop :=
  ∃ self u, exportAttributes lib calls empty = some self ∧
    ({ w with intf := closures T access self } : DPsim.Interface.Writer S Real).writeValues values shm =
      some (.returned,u) ∧
    u.pool.passed.head? = some smp ∧ Layout lib T access values calls self (u.samples smp)

/-- The component or node has been initialized, and an attribute that exists under the name has the
type of the mode and can be read. -/
def Call.Exportable (access : AttributeAccess Real) (values : Attributes Real) (c : Call F Obj) : Prop :=
  match exportParsed c.args c.kwargs with
  | some (_,some _) => True
  | some (f,none) =>
    match f.pyObj, f.attrName, f.idx, f.mode, f.row, f.col with
    | some pyObj, some attrName, some idx, some mode, some row, some col =>
      match identifiedObject pyObj with
      | none => True
      | some none => False
      | some (some obj) => ∀ r ∈ exportModes obj attrName idx mode row col,
          r.2.lookup lib ≠ .invalid → ∃ value, (r.2.slot lib r.1).get access values = .ok value
    | _, _, _, _, _, _ => False
  | none => False

omit [Interpreter F (PyObject Obj)] [Literals F] in
theorem modes_together (obj : Obj) (attrName : String) (idx mode row col : Int32) :
    ∃ look : Lookup, ∀ r ∈ exportModes obj attrName idx mode row col,
      (r.2.lookup lib = .invalid ↔ look = .invalid) := by
  unfold exportModes
  dsimp only
  split
  case h_3 => exact ⟨lib.attributeComplex obj attrName,by simp [Part.lookup]⟩
  case h_10 => exact ⟨lib.attributeMatrix .complex obj attrName,by simp [Part.lookup]⟩
  case h_11 => exact ⟨.invalid,List.forall_mem_nil _⟩
  all_goals exact ⟨_,List.forall_mem_singleton.mpr Iff.rfl⟩

omit [Interpreter F (PyObject Obj)] [Literals F] in
theorem unreadable_null (access : AttributeAccess Real) (values : Attributes Real) {r : Request Obj}
    (null : r.2.lookup lib = .nullptr) : ¬ ∃ value, (r.2.slot lib r.1).get access values = .ok value := by
  rintro ⟨value,read⟩
  simp [Slot.get,Part.slot,null,Lookup.pointer] at read

omit [Interpreter F (PyObject Obj)] [Literals F] in
/-- The branch of the mode is defined and binds parts that can be read, exactly if those of an
existing attribute can be. -/
theorem bind_defined_iff (access : AttributeAccess Real) (values : Attributes Real) (message : String)
    (self : Interface) (bind : List (Request Obj) → Interface × Result) {parts : List (Request Obj)}
    (together : ∃ look : Lookup, ∀ r ∈ parts, (r.2.lookup lib = .invalid ↔ look = .invalid)) :
    (∀ r ∈ parts, r.2.lookup lib ≠ .invalid → ∃ value, (r.2.slot lib r.1).get access values = .ok value) ↔
      (∃ result, bindOrRaise lib message self bind parts = some result) ∧
        ∀ r ∈ found lib parts, ∃ value, (r.2.slot lib r.1).get access values = .ok value := by
  obtain ⟨attr,together⟩ := together
  cases parts with
  | nil => exact iff_of_true nofun ⟨⟨_,rfl⟩,nofun⟩
  | cons r parts =>
    obtain ⟨idx,p⟩ := r
    have first : ((idx,p) : Request Obj) ∈ (idx,p) :: parts := List.mem_cons_self
    cases look : p.lookup lib with
    | invalid =>
      apply iff_of_true
      · intro r member known
        exact absurd ((together r member).mpr ((together (idx,p) first).mp look)) known
      · simp [bindOrRaise,found,look]
    | nullptr =>
      have null := unreadable_null lib access values (r := (idx,p)) look
      apply iff_of_false
      · intro all
        exact null (all (idx,p) first (by simp [look]))
      · rintro ⟨_,all⟩
        simp only [found,look,reduceCtorEq,if_false] at all
        exact null (all (idx,p) first)
    | found a =>
      simp only [bindOrRaise,found,look,reduceCtorEq,if_false]
      constructor
      · intro all
        refine ⟨⟨_,rfl⟩,fun r member => all r member fun unknown => ?_⟩
        have same := (together (idx,p) first).mpr ((together r member).mp unknown)
        rw [show p.lookup lib = .found a from look] at same
        contradiction
      · intro all r member _
        exact all.2 r member

/-- A call is defined and what it binds can be read, exactly if it is exportable. -/
theorem exportable_iff (access : AttributeAccess Real) (values : Attributes Real) (self : Interface)
    (c : Call F Obj) : c.Exportable lib access values ↔
      (∃ result, addExport lib self c.args c.kwargs = some result) ∧
        ∀ r ∈ exportAsked lib c, ∃ value, (r.2.slot lib r.1).get access values = .ok value := by
  unfold Call.Exportable addExport exportAsked
  cases parsed : exportParsed c.args c.kwargs with
  | none => simp
  | some result =>
    obtain ⟨f,raised⟩ := result
    cases raised with
    | some raised => simp
    | none =>
      simp only [Option.bind_some,exportBody,exportBodyAsked]
      split
      · split
        · simp [*]
        · simp [*]
        · rename_i obj object
          simp only [*]
          rw [exportBranch_eq]
          exact bind_defined_iff lib access values _ self _ (modes_together lib obj _ _ _ _ _)
      · simp

theorem exportAttributes_defined {access : AttributeAccess Real} {values : Attributes Real}
    {calls : List (Call F Obj)} (exportable : ∀ c ∈ calls, c.Exportable lib access values) (self : Interface) :
    ∃ self', exportAttributes lib calls self = some self' := by
  induction calls generalizing self with
  | nil => exact ⟨self,rfl⟩
  | cons c calls ih =>
    obtain ⟨⟨⟨next,result⟩,ran⟩,_⟩ := (exportable_iff lib access values self c).mp (exportable c List.mem_cons_self)
    obtain ⟨self',rest⟩ := ih (fun d member => exportable d (List.mem_cons_of_mem c member)) next
    refine ⟨self',?_⟩
    rw [exportAttributes,List.foldlM_cons,ran]
    exact rest

/-- Each call of a run that is defined is defined, and they have bound all the parts they are for. -/
theorem exportAttributes_bound {calls : List (Call F Obj)} {self self' : Interface}
    (ran : exportAttributes lib calls self = some self') :
    self' = (self.bindParts lib (calls.flatMap (exportAsked lib))).1 ∧
      ∀ c ∈ calls, ∃ before result, addExport lib before c.args c.kwargs = some result := by
  induction calls generalizing self with
  | nil =>
    obtain rfl := Option.some.inj ran
    exact ⟨by simp [bindParts_fst,described],nofun⟩
  | cons c calls ih =>
    obtain ⟨next,first,rest⟩ := Option.bind_eq_some_iff.mp ran
    obtain ⟨⟨next,result⟩,added,rfl⟩ := Option.map_eq_some_iff.mp first
    obtain ⟨same,others⟩ := ih rest
    refine ⟨?_,List.forall_mem_cons.mpr ⟨⟨self,_,added⟩,others⟩⟩
    rw [same,addExport_asked lib added]
    simp [bindParts_fst,described,List.foldl_append]

theorem exportAttributes_slots {calls : List (Call F Obj)} {self : Interface}
    (ran : exportAttributes lib calls empty = some self) :
    self.exports = (calls.flatMap (exportAsked lib)).map fun r => r.2.slot lib r.1 := by
  rw [(exportAttributes_bound lib ran).1,bindParts_fst]
  rfl

end Calls

section Descriptions
variable (lib : AttributeList Obj)

def describedAt (pyExports : List (Option Description)) (idx : Int32) : Option Description :=
  if 0 ≤ idx.toInt then (pyExports[idx.toInt.toNat]?).join else none

def descChange (r : Request Obj) : Change fun _ : Int32 => Option Description :=
  ⟨r.1,fun _ => some (r.2.description lib)⟩

theorem toInt_add_one {idx : Int32} (positive : 0 ≤ idx.toInt) (small : idx.toInt + 1 < 2 ^ 31) :
    (idx + 1).toInt = idx.toInt + 1 := by
  rw [Int32.toInt_add,show (1 : Int32).toInt = 1 from rfl]
  exact Int.bmod_eq_of_le (by omega) (by omega)

theorem int32_ext {i j : Int32} (same : i.toInt = j.toInt) : i = j := Int32.toInt_inj.mp same

theorem addExportDesc_change {idx : Int32} (positive : 0 ≤ idx.toInt) (small : idx.toInt + 1 < 2 ^ 31)
    (type name : String) (pyExports : List (Option Description)) :
    describedAt (addExportDesc idx type name "" pyExports).1 =
      Function.update (describedAt pyExports) idx (some ⟨name,type⟩) := by
  funext i
  unfold addExportDesc
  rw [toInt_add_one positive small]
  dsimp only
  have inside : idx.toInt.toNat <
      (pyExports ++ List.replicate ((idx.toInt + 1).toNat - pyExports.length) (none : Option Description)).length := by
    rw [List.length_append,List.length_replicate]
    omega
  rw [if_pos ⟨positive,inside⟩]
  by_cases same : i = idx
  · subst same
    rw [Function.update_self,describedAt,if_pos positive,List.getElem?_set_self inside,String.append_empty]
    rfl
  · rw [Function.update_of_ne same]
    unfold describedAt
    split
    · rename_i inside
      have apart : idx.toInt.toNat ≠ i.toInt.toNat := by
        intro equal
        exact same (int32_ext (by omega))
      rw [List.getElem?_set_ne apart,List.getElem?_append]
      split
      · rfl
      · rename_i outside
        rw [List.getElem?_eq_none (Nat.le_of_not_lt outside),List.getElem?_replicate]
        split <;> rfl
    · rfl

theorem described_changed {parts : List (Request Obj)}
    (small : ∀ r ∈ parts, 0 ≤ r.1.toInt ∧ r.1.toInt + 1 < 2 ^ 31) (pyExports : List (Option Description)) :
    describedAt (described lib pyExports parts) = changed (describedAt pyExports) (parts.map (descChange lib)) := by
  induction parts generalizing pyExports with
  | nil => rfl
  | cons r parts ih =>
    obtain ⟨positive,bound⟩ := small r List.mem_cons_self
    rw [described,List.foldl_cons,List.map_cons,changed_cons]
    refine (ih (fun q member => small q (List.mem_cons_of_mem r member)) _).trans ?_
    rw [addExportDesc_change positive bound]
    rfl

end Descriptions

section Slots
variable (T : SampleType S Real) (access : AttributeAccess Real) (values : Attributes Real)

def slotChange (slot : Slot) : Change fun _ : Int32 => S :=
  ⟨slot.idx,fun old =>
    match slot.get access values with
    | .ok value => T.store slot.kind value old
    | .error _ => old⟩

variable {T access values}

theorem exportClosure_other {slot : Slot} {values : Attributes Real} {smp smp' : Sample S} {idx : Int32}
    (other : slot.idx ≠ idx) (ran : exportClosure T access slot values smp = .ok smp') :
    smp'.data idx = smp.data idx := by
  unfold exportClosure at ran
  split at ran
  · obtain rfl := Except.ok.inj ran
    unfold exportRun
    by_cases past : T.beyond slot.idx smp.capacity = true
    · rw [if_pos past]
    · rw [if_neg past]
      cases slot.get access values with
      | error fault => rfl
      | ok value => exact Function.update_of_ne other.symm _ _
  · contradiction

theorem exportClosure_ok {slot : Slot} {smp : Sample S} {value : slot.kind.Value Real} (positive : 0 ≤ slot.idx.toInt)
    (inside : slot.idx.toInt < smp.capacity) (read : slot.get access values = .ok value) :
    ∃ smp', exportClosure T access slot values smp = .ok smp' ∧ smp'.capacity = smp.capacity ∧
      smp'.data = change smp.data (slotChange T access values slot) := by
  have room : T.beyond slot.idx smp.capacity = false := by
    rw [Bool.eq_false_iff,ne_eq,beyond_iff T positive]
    omega
  simp [exportClosure,exportRun,room,read,Ran.thrown,change,slotChange]

theorem exportClosure_error {slot : Slot} {smp : Sample S} (positive : 0 ≤ slot.idx.toInt)
    (inside : slot.idx.toInt < smp.capacity) (unread : ¬ ∃ value, slot.get access values = .ok value) :
    ∃ fault, exportClosure T access slot values smp = .error fault := by
  have room : T.beyond slot.idx smp.capacity = false := by
    rw [Bool.eq_false_iff,ne_eq,beyond_iff T positive]
    omega
  cases read : slot.get access values with
  | ok value => exact absurd ⟨value,read⟩ unread
  | error fault => simp [exportClosure,exportRun,room,read,Ran.thrown]

/-- All closures return, exactly if all attributes can be read; then each has changed its slot. -/
theorem exports_return_iff {slots : List Slot} {smp : Sample S}
    (inside : ∀ slot ∈ slots, 0 ≤ slot.idx.toInt ∧ slot.idx.toInt < smp.capacity) :
    ((∃ smp', (slots.map (exportClosure T access)).foldlM (fun smp exp => exp values smp) smp = .ok smp') ↔
        ∀ slot ∈ slots, ∃ value, slot.get access values = .ok value) ∧
      ∀ smp', (slots.map (exportClosure T access)).foldlM (fun smp exp => exp values smp) smp = .ok smp' →
        smp'.data = changed smp.data (slots.map (slotChange T access values)) := by
  induction slots generalizing smp with
  | nil =>
    refine ⟨iff_of_true ⟨smp,rfl⟩ nofun,fun smp' ran => ?_⟩
    obtain rfl := Except.ok.inj ran
    rfl
  | cons slot slots ih =>
    obtain ⟨positive,within⟩ := inside slot List.mem_cons_self
    rw [List.map_cons,List.foldlM_cons]
    by_cases readable : ∃ value, slot.get access values = .ok value
    · obtain ⟨value,read⟩ := readable
      obtain ⟨next,ran,capacity,data⟩ := exportClosure_ok (T := T) positive within read
      have others : ∀ s ∈ slots, 0 ≤ s.idx.toInt ∧ s.idx.toInt < next.capacity := by
        intro s member
        rw [capacity]
        exact inside s (List.mem_cons_of_mem slot member)
      have rest := ih others
      rw [ran]
      refine ⟨?_,fun smp' done => ?_⟩
      · rw [List.forall_mem_cons]
        exact rest.1.trans (and_iff_right ⟨value,read⟩).symm
      · rw [List.map_cons,changed_cons,← data]
        exact rest.2 smp' done
    · obtain ⟨fault,ran⟩ := exportClosure_error (T := T) positive within readable
      rw [ran]
      refine ⟨iff_of_false ?_ ?_,?_⟩
      · rintro ⟨smp',done⟩
        contradiction
      · intro all
        exact readable (all slot List.mem_cons_self)
      · intro smp' done
        contradiction

end Slots

section Layout
variable [Interpreter F (PyObject Obj)] [Literals F] (lib : AttributeList Obj)
  {T : SampleType S Real} {access : AttributeAccess Real} {values : Attributes Real}

/-- When the parts have been bound and all can be read, the descriptions say what is in the sample:
the last part at an index decides about both. -/
theorem bound_layout {calls : List (Call F Obj)} {smp smp' : Sample S} {self : Interface}
    (small : ∀ r ∈ calls.flatMap (exportAsked lib), 0 ≤ r.1.toInt ∧ r.1.toInt + 1 < 2 ^ 31)
    (readable : ∀ r ∈ calls.flatMap (exportAsked lib), ∃ value, (r.2.slot lib r.1).get access values = .ok value)
    (bound : self = (empty.bindParts lib (calls.flatMap (exportAsked lib))).1)
    (data : smp'.data = changed smp.data (self.exports.map (slotChange T access values))) :
    Layout lib T access values calls self smp' := by
  rw [bindParts_fst] at bound
  have slots : self.exports = (calls.flatMap (exportAsked lib)).map fun r => r.2.slot lib r.1 := by
    rw [bound]
    rfl
  have descriptions : describedAt self.pyExports =
      changed (describedAt []) ((calls.flatMap (exportAsked lib)).map (descChange lib)) := by
    rw [bound]
    exact described_changed lib small []
  have blank (idx : Int32) : describedAt [] idx = none := by simp [describedAt]
  generalize asked : calls.flatMap (exportAsked lib) = requests at *
  constructor
  · intro idx positive d here
    have describes : describedAt self.pyExports idx = some d := by
      rw [describedAt,if_pos positive,here]
      rfl
    rw [descriptions] at describes
    have named : ∃ r ∈ requests, r.1 = idx := by
      by_contra absent
      simp only [not_exists,not_and] at absent
      rw [changed_other (List.forall_mem_map.mpr absent),blank] at describes
      nomatch describes
    obtain ⟨before,⟨i,p⟩,after,rfl,rfl,last⟩ := exists_last named
    have member : (i,p) ∈ before ++ (i,p) :: after := List.mem_append_right _ List.mem_cons_self
    obtain ⟨value,read⟩ := readable (i,p) member
    refine ⟨p,⟨before,after,asked,last⟩,?_,value,
      changed smp.data (before.map fun r => slotChange T access values (r.2.slot lib r.1)) i,read,?_⟩
    · rw [List.map_append,List.map_cons] at describes
      replace describes :=
        (changed_last (c := descChange lib (i,p)) (List.forall_mem_map.mpr last)).symm.trans describes
      exact (Option.some.inj describes).symm
    · rw [data,slots,List.map_map,List.map_append,List.map_cons]
      refine (changed_last (c := slotChange T access values (p.slot lib i)) (List.forall_mem_map.mpr last)).trans ?_
      simp only [slotChange]
      rw [read]
      rfl
  · intro idx positive absent exp member
    obtain ⟨slot,registered,rfl⟩ := List.mem_map.mp member
    intro values smp smp' ran
    apply exportClosure_other ?_ ran
    rintro rfl
    rw [slots] at registered
    obtain ⟨⟨i,p⟩,request,rfl⟩ := List.mem_map.mp registered
    have requested : ∃ r ∈ requests, r.1 = i := ⟨(i,p),request,rfl⟩
    obtain ⟨before,⟨j,q⟩,after,rfl,same,last⟩ := exists_last requested
    obtain rfl : j = i := same
    have describes := congrFun descriptions j
    rw [List.map_append,List.map_cons] at describes
    replace describes := describes.trans
      (changed_last (c := descChange lib (j,q)) (List.forall_mem_map.mpr last))
    change 0 ≤ j.toInt at positive
    rw [describedAt,if_pos positive] at describes
    exact absent _ (Option.join_eq_some_iff.mp describes)

omit [Interpreter F (PyObject Obj)] [Literals F] in
theorem sends_handed_iff (values : Attributes Real) (w : DPsim.Interface.Writer S Real) {shm : Shmem} {smp : Nat}
    (allocated : shm.allocated = some smp) (fresh : smp ≠ w.mLastSample)
    (passes : ∃ ret, shm.written.find? (· ≠ 0) = some ret ∧ 0 < ret) (P : Sample S → Prop) :
    (∃ u, w.writeValues values shm = some (.returned,u) ∧ u.pool.passed.head? = some smp ∧ P (u.samples smp)) ↔
      ∃ sample, w.intf.runExports values (w.samples smp) = .ok sample ∧
        P { sample with sequence := w.mSequence } := by
  obtain ⟨ret,written,positive⟩ := passes
  have sent (smp : Nat) (pool : Pool) : DPsim.Interface.Writer.send smp shm.written pool = some (pool.pass smp) := by
    rw [DPsim.Interface.Writer.send,written,Option.map_some,if_pos positive]
  unfold DPsim.Interface.Writer.writeValues
  rw [allocated]
  dsimp only
  cases ran : w.intf.runExports values (w.samples smp) with
  | ok sample =>
    simp [sent,Pool.pass,fresh]
  | error fault =>
    apply iff_of_false
    · rintro ⟨u,wrote,head,_⟩
      cases fault with
      | exception what =>
        simp only [sent,Option.map_some] at wrote
        obtain rfl := congrArg Prod.snd (Option.some.inj wrote)
        exact fresh (Option.some.inj head).symm
      | _ => cases wrote
    · rintro ⟨sample,returned,_⟩
      contradiction

/-- After calls with indices inside of the sample its closures return if all attributes can be read, and
change their slots. -/
theorem runExports_changed {calls : List (Call F Obj)} {self : Interface} {smp : Sample S}
    (ran : exportAttributes lib calls empty = some self)
    (inside : ∀ r ∈ calls.flatMap (exportAsked lib), 0 ≤ r.1.toInt ∧ r.1.toInt < smp.capacity) :
    ((∃ smp', (closures T access self).runExports values smp = .ok smp') ↔
        ∀ r ∈ calls.flatMap (exportAsked lib), ∃ value, (r.2.slot lib r.1).get access values = .ok value) ∧
      ∀ smp', (closures T access self).runExports values smp = .ok smp' →
        smp'.data = changed smp.data (self.exports.map (slotChange T access values)) := by
  have slots := exportAttributes_slots lib ran
  have bounds : ∀ slot ∈ self.exports, 0 ≤ slot.idx.toInt ∧ slot.idx.toInt < smp.capacity := by
    rw [slots]
    exact List.forall_mem_map.mpr inside
  obtain ⟨returns,changes⟩ := exports_return_iff bounds
  refine ⟨returns.trans ?_,changes⟩
  rw [slots]
  exact List.forall_mem_map

/-- The advertised layout matches what is sent, exactly if each call is exportable. -/
theorem layout_matches_iff (calls : List (Call F Obj)) (w : DPsim.Interface.Writer S Real) (shm : Shmem) (smp : Nat)
    (samplelen : Int32) (allocated : shm.allocated = some smp) (fresh : smp ≠ w.mLastSample)
    (passes : ∃ ret, shm.written.find? (· ≠ 0) = some ret ∧ 0 < ret)
    (capacity : (w.samples smp).capacity = samplelen.toInt.toNat)
    (indices : ∀ c ∈ calls, ∀ r ∈ exportAsked lib c, 0 ≤ r.1.toInt ∧ r.1.toInt < samplelen.toInt) :
    LayoutMatches lib T access values calls w shm smp ↔ ∀ c ∈ calls, c.Exportable lib access values := by
  have inside : ∀ r ∈ calls.flatMap (exportAsked lib), 0 ≤ r.1.toInt ∧ r.1.toInt < (w.samples smp).capacity := by
    intro r member
    obtain ⟨c,called,bound⟩ := List.mem_flatMap.mp member
    have here := indices c called r bound
    rw [capacity]
    omega
  have small : ∀ r ∈ calls.flatMap (exportAsked lib), 0 ≤ r.1.toInt ∧ r.1.toInt + 1 < 2 ^ 31 := by
    intro r member
    have here := inside r member
    have bounded := samplelen.toInt_lt
    rw [capacity] at here
    omega
  have sends (self : Interface) :=
    sends_handed_iff values { w with intf := closures T access self } allocated fresh passes
  constructor
  · rintro ⟨self,u,ran,wrote,sent,_⟩
    obtain ⟨sample,returned,_⟩ := (sends self fun _ => True).mp ⟨u,wrote,sent,trivial⟩
    have readable := (runExports_changed lib ran inside).1.mp ⟨sample,returned⟩
    intro c called
    obtain ⟨before,result,defined⟩ := (exportAttributes_bound lib ran).2 c called
    apply (exportable_iff lib access values before c).mpr
    exact ⟨⟨result,defined⟩,fun r bound => readable r (List.mem_flatMap_of_mem called bound)⟩
  · intro exportable
    obtain ⟨self,ran⟩ := exportAttributes_defined lib exportable empty
    have readable : ∀ r ∈ calls.flatMap (exportAsked lib),
        ∃ value, (r.2.slot lib r.1).get access values = .ok value := by
      intro r member
      obtain ⟨c,called,bound⟩ := List.mem_flatMap.mp member
      exact ((exportable_iff lib access values self c).mp (exportable c called)).2 r bound
    obtain ⟨returns,changes⟩ := runExports_changed (T := T) lib ran inside
    obtain ⟨sample,returned⟩ := returns.mpr readable
    have layout : Layout lib T access values calls self { sample with sequence := w.mSequence } :=
      bound_layout lib small readable (exportAttributes_bound lib ran).1 (changes sample returned)
    obtain ⟨u,wrote,sent,layout⟩ := (sends self (Layout lib T access values calls self)).mpr ⟨sample,returned,layout⟩
    exact ⟨self,u,ran,wrote,sent,layout⟩

end Layout

section Examples

def twoSamples : DPsim.Interface.Writer (UInt32 × UInt32) Int :=
  .opened ⟨[],[]⟩ 2 0 fun _ => emptySample

/-- `export_attribute(load, "p", 0)`, then `export_attribute(load, "v", 0, 2)`: the magnitude takes
the slot of the power. -/
def overlapping : List (Call ℚ Nat) :=
  [⟨[load,.str "p",.int 0],[]⟩,⟨[load,.str "v",.int 0,.int 2],[]⟩]

theorem layout_matches_iff_overlapping :
    LayoutMatches oneLoad intWords .plain zeros overlapping twoSamples ⟨some 1,[1]⟩ 1 := by
  apply (layout_matches_iff oneLoad overlapping twoSamples ⟨some 1,[1]⟩ 1 64 rfl (by decide)
    ⟨1,rfl,by decide⟩ rfl ?_).mpr
  · rintro c (_ | ⟨_,_ | ⟨_,_ | _⟩⟩)
    · change ∀ r ∈ [((0 : Int32),Part.mk 0 "p" none .whole .real)], _
      exact List.forall_mem_singleton.mpr fun _ => ⟨_,rfl⟩
    · change ∀ r ∈ [((0 : Int32),Part.mk 0 "v" none .mag .real),(1,Part.mk 0 "v" none .phase .real)], _
      intro r bound _
      rcases List.mem_pair.mp bound with rfl | rfl
      all_goals exact ⟨_,rfl⟩
  · rintro c (_ | ⟨_,_ | ⟨_,_ | _⟩⟩) <;> decide

/-- `export_attribute(load, "v", 0, 0)` finds a complex attribute where it wants a real one: index 0
is described, and `writeValues` dereferences the null pointer. -/
theorem wrong_type_described :
    let calls : List (Call ℚ Nat) := [⟨[load,.str "v",.int 0,.int 0],[]⟩]
    exportAttributes oneLoad calls empty = some ⟨[⟨.real,none,0⟩],[],[some ⟨"load.v","float"⟩]⟩ ∧
      ¬ LayoutMatches oneLoad intWords .plain zeros calls twoSamples ⟨some 1,[1]⟩ 1 := by
  refine ⟨rfl,?_⟩
  rintro ⟨self,u,ran,wrote,_⟩
  obtain rfl := Option.some.inj ran
  cases wrote

end Examples
end DPsim.Python.Interface
