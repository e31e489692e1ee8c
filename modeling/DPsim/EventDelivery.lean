import DPsim.PythonChannel

/-! Which coroutines an event should complete, and the schedules under which it does. -/
namespace DPsim.Python.EventChannel
open Transition

def At (s : EventChannel) (i : Nat) (P : Waiter → Prop) : Prop := ∃ w, s.waiters[i]? = some w ∧ P w

/-- The coroutine is suspended in a `wait` for this event, or for any, and the queue holds none that
completes it anyway. -/
def Waiting (s : EventChannel) (evt : Event) (i : Nat) : Prop := s.At i fun w =>
  w.suspended = true ∧ wanted w.evt evt = true ∧ ∀ item ∈ s.queue, wanted w.evt item.event = false

/-- When event number `n` arrived the coroutine was waiting for it. -/
def Due (trace : List (EventChannel × Action)) (n i : Nat) : Prop :=
  ∃ s evt, (s,.arrive evt) ∈ trace ∧ s.arrived = n ∧ Waiting s evt i

def Completed (s : EventChannel) (n i : Nat) : Prop := s.At i fun w =>
  w.phase = .done ∧ ∃ item, w.received.getLast? = some item ∧ item.number = n

/-- After a run: each event has completed the coroutines that were waiting for it, and no coroutine
has taken another event than one it waits for. -/
structure Delivered (trace : List (EventChannel × Action)) (s : EventChannel) : Prop where
  completed : ∀ n i, Due trace n i → Completed s n i
  own : ∀ w ∈ s.waiters, ∀ item ∈ w.received, wanted w.evt item.event = true

def Settled (s : EventChannel) : Prop := ∀ w ∈ s.waiters, w.scheduled = false

/-- An awaited event is read and put in the queue; a coroutine that runs finds the queue empty or
its own event in front, for which no other coroutine is suspended. -/
def Orderly (s : EventChannel) : Action → Prop
  | .addCallback _ | .wait _ => True
  | .arrive evt => (∃ i, Waiting s evt i) → s.task = true ∧ s.raises evt = false
  | .run i => ∀ w item, s.waiters[i]? = some w → s.queue.head? = some item →
      wanted w.evt item.event = true ∧
        ∀ j, j ≠ i → ¬ s.At j fun v => v.suspended = true ∧ wanted v.evt item.event = true

/-- The coroutine is suspended and event number `n` is the first in the queue that it wants. -/
def Pending (s : EventChannel) (n i : Nat) : Prop := s.At i fun w =>
  w.suspended = true ∧ ∃ item, s.queue.find? (fun item => wanted w.evt item.event) = some item ∧ item.number = n

section Coroutines
variable {s : EventChannel} {P : Waiter → Prop}

theorem at_wait {evt : Option Event} (fresh : ¬ P ⟨evt,.ready,[]⟩) (i : Nat) :
    At { s with waiters := s.waiters ++ [⟨evt,.ready,[]⟩] } i P ↔ s.At i P := by
  unfold At
  rw [List.getElem?_append]
  split
  · rfl
  · rename_i outside
    rw [List.getElem?_eq_none (Nat.le_of_not_lt outside)]
    rcases i - s.waiters.length with _ | k <;> simp [fresh]

theorem at_set {i : Nat} {w : Waiter} (at_ : s.waiters[i]? = some w) (w' : Waiter) (queue : List Item)
    (getters : List Nat) (j : Nat) :
    At { s with
      queue := queue
      getters := getters
      waiters := s.waiters.set i w' } j P ↔ (j = i ∧ P w') ∨ (j ≠ i ∧ s.At j P) := by
  unfold At
  by_cases same : j = i
  · subst same
    simp [List.getElem?_set_self (List.getElem?_eq_some_iff.mp at_).1]
  · simp [List.getElem?_set_ne (Ne.symm same),same]

/-- `put` changes a pending future to a set one, which properties of coroutines do not see that are
about neither. -/
theorem at_put (sound : Sound s) (item : Item)
    (blind : ∀ w, w.phase = .blocked → (P { w with phase := .woken } ↔ P w)) (j : Nat) :
    (s.put item).At j P ↔ s.At j P := by
  unfold put
  cases getters : s.getters with
  | nil => rfl
  | cons i rest =>
    obtain ⟨w,at_,blocked⟩ := (sound.blocked i).mp (getters ▸ List.mem_cons_self)
    unfold At
    by_cases same : j = i
    · subst same
      simp [at_,blind w blocked]
    · simp [Ne.symm same]

end Coroutines

theorem put_queue (s : EventChannel) (item : Item) : (s.put item).queue = s.queue ++ [item] := by
  unfold put
  split <;> rfl

theorem due_snoc {trace : List (EventChannel × Action)} {s : EventChannel} {a : Action} {n i : Nat} :
    Due (trace ++ [(s,a)]) n i ↔ Due trace n i ∨ ∃ evt, a = .arrive evt ∧ s.arrived = n ∧ Waiting s evt i := by
  constructor
  · rintro ⟨x,evt,member,number,waiting⟩
    rcases List.mem_append.mp member with old | new
    · exact .inl ⟨x,evt,old,number,waiting⟩
    · cases List.mem_singleton.mp new
      exact .inr ⟨evt,rfl,number,waiting⟩
  · rintro (⟨x,evt,member,number,waiting⟩ | ⟨evt,rfl,number,waiting⟩)
    · exact ⟨x,evt,List.mem_append_left _ member,number,waiting⟩
    · exact ⟨s,evt,List.mem_append_right _ (List.mem_singleton_self _),number,waiting⟩

/-- The coroutine has taken an event that it does not want. -/
def Foreign (w : Waiter) : Prop := ∃ item ∈ w.received, wanted w.evt item.event = false

theorem own_iff {s : EventChannel} :
    (∀ w ∈ s.waiters, ∀ item ∈ w.received, wanted w.evt item.event = true) ↔ ∀ i, ¬ s.At i Foreign := by
  constructor
  · rintro own i ⟨w,at_,item,member,other⟩
    rw [own w (List.mem_of_getElem? at_) item member] at other
    contradiction
  · intro own w there item member
    obtain ⟨i,at_⟩ := List.mem_iff_getElem?.mp there
    by_contra other
    exact own i ⟨w,at_,item,member,by simpa using other⟩

/-- What holds as long as all steps have been orderly: an event that is due is delivered or comes
first for its coroutine, and the first event for a suspended coroutine is due. -/
structure Intact (trace : List (EventChannel × Action)) (s : EventChannel) : Prop where
  due : ∀ n i, Due trace n i → Completed s n i ∨ Pending s n i
  pending : ∀ n i, Pending s n i → Due trace n i
  own : ∀ i, ¬ s.At i Foreign

/-- An event has been lost to a coroutine that it was due for, or taken by one that does not want it. -/
inductive Stolen (trace : List (EventChannel × Action)) (s : EventChannel) : Prop where
  | lost (n i : Nat) (due : Due trace n i) (unfinished : ¬ Completed s n i)
      (gone : ∀ item ∈ s.queue, item.number ≠ n)
  | foreign (i : Nat) (taken : s.At i Foreign)

theorem Waiting.unfinished {s : EventChannel} {evt : Event} {i : Nat} (waiting : Waiting s evt i) (n : Nat) :
    ¬ Completed s n i := by
  rintro ⟨w,at_,done,_⟩
  obtain ⟨v,there,suspended,_⟩ := waiting
  obtain rfl := Option.some.inj (at_.symm.trans there)
  simp [Waiter.suspended,done] at suspended

theorem Completed.other {s : EventChannel} {n i j : Nat} {w : Waiter} (completed : Completed s n j)
    (at_ : s.waiters[i]? = some w) (scheduled : w.scheduled = true) : j ≠ i := by
  rintro rfl
  obtain ⟨v,there,done,_⟩ := completed
  obtain rfl := Option.some.inj (at_.symm.trans there)
  simp [Waiter.scheduled,done] at scheduled

section Steps
variable {trace : List (EventChannel × Action)} {s t : EventChannel}

theorem Intact.same {a : Action} (intact : Intact trace s) (none : ∀ evt, a = .arrive evt → ∀ i, ¬ Waiting s evt i)
    (queue : t.queue = s.queue)
    (coroutines : ∀ P : Waiter → Prop, (∀ evt, ¬ P ⟨evt,.ready,[]⟩) → ∀ i, t.At i P ↔ s.At i P) :
    Intact (trace ++ [(s,a)]) t := by
  have unmoved (n i : Nat) : Due (trace ++ [(s,a)]) n i ↔ Due trace n i := by
    rw [due_snoc,or_iff_left]
    rintro ⟨evt,same,_,waiting⟩
    exact none evt same i waiting
  have completed (n i : Nat) : Completed t n i ↔ Completed s n i := coroutines _ (by simp) i
  have pending (n i : Nat) : Pending t n i ↔ Pending s n i := by
    unfold Pending
    rw [queue]
    exact coroutines _ (by simp [Waiter.suspended]) i
  refine ⟨fun n i => ?_,fun n i => ?_,fun i => ?_⟩
  · rw [unmoved,completed,pending]
    exact intact.due n i
  · rw [unmoved,pending]
    exact intact.pending n i
  · rw [coroutines Foreign (by simp [Foreign]) i]
    exact intact.own i

theorem pending_put (sound : Sound s) (evt : Event) (n i : Nat) :
    Pending { s.put ⟨s.arrived,evt⟩ with arrived := s.arrived + 1 } n i ↔
      Pending s n i ∨ (s.arrived = n ∧ Waiting s evt i) := by
  unfold Pending
  dsimp only
  rw [put_queue]
  refine (at_put sound _ (fun w blocked => by simp [Waiter.suspended,blocked]) i).trans ?_
  constructor
  · rintro ⟨w,at_,suspended,item,found,number⟩
    rw [List.find?_append] at found
    cases earlier : s.queue.find? fun item => wanted w.evt item.event with
    | some first =>
      rw [earlier] at found
      exact .inl ⟨w,at_,suspended,item,earlier.trans found,number⟩
    | none =>
      have other := List.find?_eq_none.mp earlier
      rw [earlier] at found
      simp only [Option.none_or,List.find?_singleton] at found
      split at found
      · rename_i wants
        cases found
        exact .inr ⟨number,w,at_,suspended,wants,fun item member => by simpa using other item member⟩
      · contradiction
  · rintro (⟨w,at_,suspended,item,found,number⟩ | ⟨number,w,at_,suspended,wants,others⟩)
    · exact ⟨w,at_,suspended,item,by rw [List.find?_append,found]; rfl,number⟩
    · have none : s.queue.find? (fun item => wanted w.evt item.event) = none :=
        List.find?_eq_none.mpr fun item member => by simp [others item member]
      exact ⟨w,at_,suspended,⟨s.arrived,evt⟩,by rw [List.find?_append,none]; simp [wants],number⟩

theorem Intact.heard {evt : Event} (intact : Intact trace s) (sound : Sound s) :
    Intact (trace ++ [(s,.arrive evt)]) { s.put ⟨s.arrived,evt⟩ with arrived := s.arrived + 1 } := by
  have completed (n i : Nat) :
      Completed { s.put ⟨s.arrived,evt⟩ with arrived := s.arrived + 1 } n i ↔ Completed s n i :=
    at_put sound _ (fun w blocked => by simp [blocked]) i
  have news (n i : Nat) : Due (trace ++ [(s,.arrive evt)]) n i ↔
      Due trace n i ∨ (s.arrived = n ∧ Waiting s evt i) := by
    simp [due_snoc]
  refine ⟨fun n i => ?_,fun n i => ?_,fun i => ?_⟩
  · rw [news,completed,pending_put sound]
    rintro (old | new)
    · exact (intact.due n i old).imp_right .inl
    · exact .inr (.inr new)
  · rw [news,pending_put sound]
    exact Or.imp_left (intact.pending n i)
  · have unread : ¬ s.At i Foreign := intact.own i
    exact fun taken => unread ((at_put sound _ (fun _ _ => Iff.rfl) i).mp taken)

theorem Intact.takes {i : Nat} {w : Waiter} {revt : Item} {after : List Item} (intact : Intact trace s)
    (at_ : s.waiters[i]? = some w) (scheduled : w.scheduled = true) (queue : s.queue = revt :: after)
    (found : wanted w.evt revt.event = true)
    (alone : ∀ j, j ≠ i → ¬ s.At j fun v => v.suspended = true ∧ wanted v.evt revt.event = true)
    (getters : List Nat) : Intact (trace ++ [(s,.run i)]) { s with
      queue := after
      getters := getters
      waiters := s.waiters.set i { w with
        phase := .done
        received := w.received ++ [revt] } } := by
  have unmoved (n j : Nat) : Due (trace ++ [(s,.run i)]) n j ↔ Due trace n j := by
    simp [due_snoc]
  have others (j : Nat) (other : j ≠ i) (v : Waiter) (there : s.waiters[j]? = some v)
      (suspended : v.suspended = true) : s.queue.find? (fun item => wanted v.evt item.event) =
        after.find? (fun item => wanted v.evt item.event) := by
    have unwanted : ¬ wanted v.evt revt.event = true := fun wants => alone j other ⟨v,there,suspended,wants⟩
    rw [queue]
    exact List.find?_cons_of_neg unwanted
  refine ⟨fun n j due => ?_,fun n j pending => ?_,fun j taken => ?_⟩
  · rcases intact.due n j ((unmoved n j).mp due) with completed | ⟨v,there,suspended,item,first,number⟩
    · exact .inl ((at_set at_ _ after getters j).mpr (.inr ⟨completed.other at_ scheduled,completed⟩))
    · by_cases same : j = i
      · subst same
        obtain rfl := Option.some.inj (at_.symm.trans there)
        have own : s.queue.find? (fun item => wanted w.evt item.event) = some revt := by
          rw [queue]
          exact List.find?_cons_of_pos found
        cases own.symm.trans first
        exact .inl ((at_set at_ _ after getters j).mpr (.inl ⟨rfl,rfl,revt,by simp,number⟩))
      · rw [others j same v there suspended] at first
        exact .inr ((at_set at_ _ after getters j).mpr (.inr ⟨same,v,there,suspended,item,first,number⟩))
  · rcases (at_set at_ _ after getters j).mp pending with ⟨_,suspended,_⟩ | ⟨same,v,there,suspended,item,first,number⟩
    · simp [Waiter.suspended] at suspended
    · rw [← others j same v there suspended] at first
      exact (unmoved n j).mpr (intact.pending n j ⟨v,there,suspended,item,first,number⟩)
  · rcases (at_set at_ _ after getters j).mp taken with ⟨_,item,member,other⟩ | ⟨_,before⟩
    · rcases List.mem_append.mp member with old | new
      · exact intact.own i ⟨w,at_,item,old,other⟩
      · obtain rfl := List.mem_singleton.mp new
        rw [found] at other
        contradiction
    · exact intact.own j before

theorem Intact.waits {i : Nat} {w : Waiter} (intact : Intact trace s) (at_ : s.waiters[i]? = some w)
    (scheduled : w.scheduled = true) (queue : s.queue = []) (getters : List Nat) :
    Intact (trace ++ [(s,.run i)]) { s with
      queue := []
      getters := getters
      waiters := s.waiters.set i { w with
        phase := .blocked
        received := w.received } } := by
  have unmoved (n j : Nat) : Due (trace ++ [(s,.run i)]) n j ↔ Due trace n j := by
    simp [due_snoc]
  refine ⟨fun n j due => ?_,fun n j pending => ?_,fun j taken => ?_⟩
  · rcases intact.due n j ((unmoved n j).mp due) with completed | ⟨v,_,_,item,first,_⟩
    · exact .inl ((at_set at_ _ [] getters j).mpr (.inr ⟨completed.other at_ scheduled,completed⟩))
    · rw [queue] at first
      contradiction
  · obtain ⟨v,_,_,item,first,_⟩ := pending
    contradiction
  · rcases (at_set at_ _ [] getters j).mp taken with ⟨_,foreign⟩ | ⟨_,before⟩
    · exact intact.own i ⟨w,at_,foreign⟩
    · exact intact.own j before

theorem Intact.step {a : Action} (intact : Intact trace s) (sound : Sound s) (orderly : Orderly s a)
    (step : Step s a t) : Intact (trace ++ [(s,a)]) t := by
  cases step_moved step with
  | added callback same =>
    subst same
    exact intact.same nofun rfl (fun P fresh i => Iff.rfl)
  | waits evt same =>
    subst same
    exact intact.same nofun rfl (fun P fresh i => at_wait (fresh evt) i)
  | unheard evt lost task same =>
    subst same
    refine intact.same (fun evt' named i waiting => ?_) rfl (fun P fresh i => Iff.rfl)
    cases named
    obtain ⟨reads,fine⟩ := orderly ⟨i,waiting⟩
    simp [reads,fine] at lost
  | heard evt task fine same =>
    subst same
    exact intact.heard sound
  | ran i w at_ scheduled w' queue result same =>
    subst same
    cases result with
    | finds before revt after split others found =>
      have front : before = [] := by
        cases before with
        | nil => rfl
        | cons first before =>
          have own := (orderly w first at_ (by rw [split]; rfl)).1
          rw [others first List.mem_cons_self] at own
          contradiction
      subst front
      rw [List.append_nil]
      exact intact.takes at_ scheduled split found (orderly w revt at_ (by rw [split]; rfl)).2 _
    | suspends others =>
      have empty : s.queue = [] := by
        cases queue : s.queue with
        | nil => rfl
        | cons first after =>
          have own := (orderly w first at_ (by rw [queue]; rfl)).1
          rw [others first (by rw [queue]; exact List.mem_cons_self)] at own
          contradiction
      rw [empty,List.append_nil]
      exact intact.waits at_ scheduled empty _

theorem Intact.steals {a : Action} (intact : Intact trace s) (sound : Sound s) (disorderly : ¬ Orderly s a)
    (step : Step s a t) : Stolen (trace ++ [(s,a)]) t := by
  cases step_moved step with
  | added callback same => exact absurd trivial disorderly
  | waits evt same => exact absurd trivial disorderly
  | unheard evt lost task same =>
    subst same
    simp only [Orderly,Classical.not_imp] at disorderly
    obtain ⟨⟨i,waiting⟩,_⟩ := disorderly
    refine .lost s.arrived i (due_snoc.mpr (.inr ⟨evt,rfl,rfl,waiting⟩)) (waiting.unfinished _) ?_
    exact fun item member => Nat.ne_of_lt (sound.numbers item member)
  | heard evt task fine same => exact absurd (fun _ => ⟨task,fine⟩) disorderly
  | ran i w at_ scheduled w' queue result same =>
    subst same
    cases result with
    | finds before revt after split others found =>
      cases before with
      | cons first before =>
        have member : first ∈ w.received ++ (first :: before) ++ [revt] := by simp
        exact .foreign i ((at_set at_ _ _ _ i).mpr
          (.inl ⟨rfl,first,member,others first List.mem_cons_self⟩))
      | nil =>
        have head : s.queue.head? = some revt := by rw [split]; rfl
        obtain ⟨j,other,v,there,suspended,wants⟩ : ∃ j, j ≠ i ∧
            s.At j fun v => v.suspended = true ∧ wanted v.evt revt.event = true := by
          by_contra alone
          apply disorderly
          intro w₁ item there first
          obtain rfl := Option.some.inj (at_.symm.trans there)
          obtain rfl := Option.some.inj (head.symm.trans first)
          exact ⟨found,fun j other taken => alone ⟨j,other,taken⟩⟩
        have pending : Pending s revt.number j :=
          ⟨v,there,suspended,revt,by rw [split]; exact List.find?_cons_of_pos wants,rfl⟩
        refine .lost revt.number j (due_snoc.mpr (.inl (intact.pending _ j pending))) ?_ ?_
        · intro completed
          rcases (at_set at_ _ _ _ j).mp completed with ⟨same,_⟩ | ⟨_,v₁,there₁,done,_⟩
          · exact other same
          · obtain rfl := Option.some.inj (there.symm.trans there₁)
            simp [Waiter.suspended,done] at suspended
        · have increasing := sound.increasing
          rw [split,List.nil_append,List.pairwise_cons] at increasing
          exact fun item member => Nat.ne_of_gt (increasing.1 item member)
    | suspends others =>
      cases head : s.queue.head? with
      | none =>
        refine absurd (fun w₁ item _ first => ?_) disorderly
        rw [head] at first
        contradiction
      | some first =>
        have member := List.mem_of_mem_head? head
        refine .foreign i ((at_set at_ _ _ _ i).mpr (.inl ⟨rfl,first,?_,others first member⟩))
        exact List.mem_append_right _ member

theorem foreign_step {a : Action} {i : Nat} (sound : Sound s) (step : Step s a t) (taken : s.At i Foreign) :
    t.At i Foreign := by
  cases step_moved step with
  | added callback same =>
    subst same
    exact taken
  | waits evt same =>
    subst same
    exact (at_wait (by simp [Foreign]) i).mpr taken
  | unheard evt lost task same =>
    subst same
    exact taken
  | heard evt task fine same =>
    subst same
    exact (at_put sound _ (fun _ _ => Iff.rfl) i).mpr taken
  | ran j w at_ scheduled w' queue result same =>
    subst same
    apply (at_set at_ _ _ _ i).mpr
    by_cases here : i = j
    · subst here
      obtain ⟨v,there,item,member,other⟩ := taken
      obtain rfl := Option.some.inj (at_.symm.trans there)
      left
      cases result with
      | finds before revt after split others found =>
        exact ⟨rfl,item,List.mem_append_left _ (List.mem_append_left _ member),other⟩
      | suspends others => exact ⟨rfl,item,List.mem_append_left _ member,other⟩
    · exact .inr ⟨here,taken⟩

theorem completed_step {a : Action} {n i : Nat} (sound : Sound s) (step : Step s a t)
    (completed : Completed t n i) : Completed s n i ∨ ∃ item ∈ s.queue, item.number = n := by
  cases step_moved step with
  | added callback same =>
    subst same
    exact .inl completed
  | waits evt same =>
    subst same
    exact .inl ((at_wait (by simp) i).mp completed)
  | unheard evt lost task same =>
    subst same
    exact .inl completed
  | heard evt task fine same =>
    subst same
    exact .inl ((at_put sound _ (fun w blocked => by simp [blocked]) i).mp completed)
  | ran j w at_ scheduled w' queue result same =>
    subst same
    rcases (at_set at_ _ _ _ i).mp completed with ⟨_,done,item,last,number⟩ | ⟨_,before⟩
    · right
      cases result with
      | finds before revt after split others found =>
        obtain rfl : revt = item := by simpa using last
        exact ⟨revt,by rw [split]; simp,number⟩
      | suspends others => contradiction
    · exact .inl before

theorem queue_step {a : Action} (step : Step s a t) : s.arrived ≤ t.arrived ∧
    (∀ evt, a = .arrive evt → s.arrived < t.arrived) ∧
      ∀ item ∈ t.queue, item ∈ s.queue ∨ item.number = s.arrived := by
  cases step_moved step with
  | added callback same | waits evt same =>
    subst same
    exact ⟨Nat.le_refl _,nofun,fun item member => .inl member⟩
  | unheard evt lost task same =>
    subst same
    exact ⟨Nat.le_succ _,fun _ _ => Nat.lt_succ_self _,fun item member => .inl member⟩
  | heard evt task fine same =>
    subst same
    refine ⟨Nat.le_succ _,fun _ _ => Nat.lt_succ_self _,fun item member => ?_⟩
    dsimp only at member
    rw [put_queue] at member
    rcases List.mem_append.mp member with old | new
    · exact .inl old
    · exact .inr (congrArg Item.number (List.mem_singleton.mp new))
  | ran i w at_ scheduled w' queue result same =>
    subst same
    exact ⟨Nat.le_refl _,nofun,fun item member => .inl (result.rest.1.subset member)⟩

theorem Stolen.step {a : Action} (stolen : Stolen trace s) (sound : Sound s)
    (known : ∀ n i, Due trace n i → n < s.arrived) (step : Step s a t) : Stolen (trace ++ [(s,a)]) t := by
  cases stolen with
  | foreign i taken => exact .foreign i (foreign_step sound step taken)
  | lost n i due unfinished gone =>
    refine .lost n i (due_snoc.mpr (.inl due)) (fun completed => ?_) (fun item member number => ?_)
    · rcases completed_step sound step completed with before | ⟨item,member,number⟩
      · exact unfinished before
      · exact gone item member number
    · rcases (queue_step step).2.2 item member with old | new
      · exact gone item old number
      · have := known n i due
        omega

end Steps

/-- What a run has come to: everything is intact or something has been stolen, depending on whether
all of its steps were orderly. -/
structure Judged (trace : List (EventChannel × Action)) (s : EventChannel) : Prop where
  sound : Sound s
  known : ∀ n i, Due trace n i → n < s.arrived
  intact : (∀ p ∈ trace, Orderly p.1 p.2) → Intact trace s
  stolen : ¬ (∀ p ∈ trace, Orderly p.1 p.2) → Stolen trace s

theorem init_judged : Judged [] init := by
  refine ⟨init_sound,?_,fun _ => ⟨?_,?_,?_⟩,fun some => absurd nofun some⟩
  · rintro n i ⟨_,_,member,_⟩
    contradiction
  · rintro n i ⟨_,_,member,_⟩
    contradiction
  · rintro n i ⟨w,at_,_⟩
    contradiction
  · rintro i ⟨w,at_,_⟩
    contradiction

theorem step_judged (trace : List (EventChannel × Action)) (s : EventChannel) (a : Action) (t : EventChannel)
    (judged : Judged trace s) (step : Step s a t) : Judged (trace ++ [(s,a)]) t := by
  obtain ⟨later,arrival,_⟩ := queue_step step
  have all : (∀ p ∈ trace ++ [(s,a)], Orderly p.1 p.2) ↔ (∀ p ∈ trace, Orderly p.1 p.2) ∧ Orderly s a := by
    simp only [List.forall_mem_append,List.forall_mem_singleton]
  refine ⟨step_sound s a t judged.sound step,fun n i due => ?_,fun orderly => ?_,fun disorderly => ?_⟩
  · rcases due_snoc.mp due with old | ⟨evt,rfl,rfl,_⟩
    · exact Nat.lt_of_lt_of_le (judged.known n i old) later
    · exact arrival evt rfl
  · obtain ⟨before,here⟩ := all.mp orderly
    exact (judged.intact before).step judged.sound here step
  · by_cases before : ∀ p ∈ trace, Orderly p.1 p.2
    · exact (judged.intact before).steals judged.sound (fun here => disorderly (all.mpr ⟨before,here⟩)) step
    · exact (judged.stolen before).step judged.sound judged.known step

theorem run_judged {trace : List (EventChannel × Action)} {s : EventChannel} (path : Path Step init trace s) :
    Judged trace s := by
  simpa using path.history step_judged [] init_judged

theorem settled_not_pending {s : EventChannel} (sound : Sound s) (settled : Settled s) (n i : Nat) :
    ¬ Pending s n i := by
  rintro ⟨w,at_,suspended,item,first,_⟩
  have unscheduled := settled w (List.mem_of_getElem? at_)
  have blocked : w.phase = .blocked := by
    cases phase : w.phase <;> simp_all [Waiter.suspended,Waiter.scheduled]
  have getter := (sound.blocked i).mpr ⟨w,at_,blocked⟩
  have none : s.waiters.countP (fun w => w.phase = .woken) = 0 := by
    rw [List.countP_eq_zero]
    intro v member woken
    have other := settled v member
    simp_all [Waiter.scheduled]
  have enough := sound.enough.resolve_left (List.ne_nil_of_mem getter)
  rw [none,Nat.le_zero,List.length_eq_zero_iff] at enough
  rw [enough] at first
  contradiction

theorem settles (s : EventChannel) :
    ∃ trace t, Path Step s trace t ∧ Settled t ∧ ∀ p ∈ trace, ∃ i, p.2 = .run i := by
  induction left : s.waiters.countP Waiter.scheduled using Nat.strongRecOn generalizing s with
  | _ n ih =>
    by_cases settled : Settled s
    · exact ⟨[],s,.nil,settled,nofun⟩
    · obtain ⟨w,member,scheduled⟩ : ∃ w ∈ s.waiters, w.scheduled = true := by
        simpa [Settled] using settled
      obtain ⟨i,at_⟩ := List.mem_iff_getElem?.mp member
      obtain ⟨inside,there⟩ := List.getElem?_eq_some_iff.mp at_
      obtain ⟨t,step⟩ : ∃ t, Step s (.run i) t := by
        simp [Step,next,resume,at_,scheduled]
      have fewer : t.waiters.countP Waiter.scheduled < n := by
        cases step_moved step with
        | ran _ w₁ at₁ _ w' queue result same =>
          subst same
          have ended : w'.scheduled = false := by
            rcases result.rest.2 with ⟨done,_⟩ | ⟨blocked,_⟩
            · simp [Waiter.scheduled,done]
            · simp [Waiter.scheduled,blocked]
          have some : 0 < s.waiters.countP Waiter.scheduled := List.countP_pos_iff.mpr ⟨w,member,scheduled⟩
          dsimp only
          rw [List.countP_set inside,there,if_pos scheduled,ended]
          simp only [Bool.false_eq_true,if_false]
          omega
      obtain ⟨trace,u,path,done,runs⟩ := ih _ fewer t rfl
      exact ⟨_,u,.cons step path,done,List.forall_mem_cons.mpr ⟨⟨i,rfl⟩,runs⟩⟩

/-- At the end of a run, when the event loop has run what it had to run, every event has completed
the coroutines that were waiting for it, and none has been taken by another, exactly if all steps of
the run were orderly. -/
theorem delivered_iff_orderly {trace : List (EventChannel × Action)} {s : EventChannel}
    (path : Path Step init trace s) (settled : Settled s) :
    Delivered trace s ↔ ∀ p ∈ trace, Orderly p.1 p.2 := by
  have judged := run_judged path
  constructor
  · intro delivered
    by_contra disorderly
    cases judged.stolen disorderly with
    | lost n i due unfinished gone => exact unfinished (delivered.completed n i due)
    | foreign i taken => exact own_iff.mp delivered.own i taken
  · intro orderly
    have intact := judged.intact orderly
    refine ⟨fun n i due => ?_,own_iff.mpr intact.own⟩
    exact (intact.due n i due).resolve_right (settled_not_pending judged.sound settled n i)

def simulationCallbacks : List Action :=
  [.addCallback ⟨some .running,fun _ => false⟩,.addCallback ⟨some .stopped,fun _ => false⟩,
    .addCallback ⟨some .done,fun _ => false⟩,.addCallback ⟨some .overrun,fun _ => true⟩]

/-- `simulate` alone, while the simulation starts. -/
def alone : List Action :=
  simulationCallbacks ++ [.wait (some .running),.run 0,.arrive .running,.run 0]

theorem delivered_iff_orderly_alone : Settled (finalOf next init alone) ∧
    (Delivered (traceOf next init alone) (finalOf next init alone) ↔
      ∀ p ∈ traceOf next init alone, Orderly p.1 p.2) := by
  have settled : Settled (finalOf next init alone) := by
    unfold Settled
    decide
  exact ⟨settled,delivered_iff_orderly (path_of_labels next init alone) settled⟩

/-- `simulate` waits for the start and user code for a pause, which comes first. -/
def beside : List Action :=
  simulationCallbacks ++ [.wait (some .running),.run 0,.wait (some .paused),.run 1,.arrive .paused,.run 0]

/-- The pause goes to the coroutine that does not want it. -/
theorem paused_stolen : Path Step init (traceOf next init beside) (finalOf next init beside) ∧
    Settled (finalOf next init beside) ∧ Due (traceOf next init beside) 0 1 ∧
    ¬ Completed (finalOf next init beside) 0 1 ∧
    ¬ Delivered (traceOf next init beside) (finalOf next init beside) := by
  have due : Due (traceOf next init beside) 0 1 :=
    ⟨_,.paused,List.mem_of_getElem? (i := 8) rfl,rfl,_,rfl,by decide,by decide,by decide⟩
  have open_ : ¬ Completed (finalOf next init beside) 0 1 := by
    rintro ⟨w,at_,done,_⟩
    have blocked : (finalOf next init beside).waiters[1]? = some ⟨some .paused,.blocked,[]⟩ := by decide
    cases blocked.symm.trans at_
    contradiction
  refine ⟨path_of_labels next init beside,?_,due,open_,fun delivered => open_ (delivered.completed 0 1 due)⟩
  unfold Settled
  decide

end DPsim.Python.EventChannel
