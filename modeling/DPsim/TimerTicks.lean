import DPsim.Timer

/-! What the portable `sleep` of a `Timer` counts, over any sequence of sleeps. The tick instants
are the start and a whole number of intervals. -/
namespace DPsim.Timer

/-- A condition on each sleep of a sequence: on its number, the timer it finds and what it leaves. -/
def Each (P : Nat → Timer → Slept → Prop) : Nat → Timer → List Slept → Prop
  | _, _, [] => True
  | m, t, s :: later => P m t s ∧ Each P (m + 1) s.timer later

/-- A tick instant has passed at a reading of the clock. Whether one that the reading falls on
has passed is left open. -/
def Passed (reached : Bool) (instant now : Int) : Prop := instant < now ∨ reached = true ∧ instant = now

def FailsOnOverrun (t : Timer) : Prop := t.mFlags &&& fail_on_overrun ≠ 0

/-- The accounting of the sleep with the number `m`, for a timer started at `S`. -/
structure Accounted (reached : Bool) (S : Int) (m : Nat) (t : Timer) (s : Slept) : Prop where
  /-- At least one tick is added, and one overrun less than ticks. -/
  counts : ∃ ticks : Nat, 1 ≤ ticks ∧ s.timer.mTicks.toInt = t.mTicks.toInt + ticks ∧
    s.timer.mOverruns.toInt = t.mOverruns.toInt + (ticks - 1)
  /-- An overrun is thrown if the tick instant slept for and the one after it have passed. -/
  throws : s.overrun.isSome = true ↔ t.FailsOnOverrun ∧ Passed reached (t.mNextTick + t.mTickInterval) s.now
  next : s.timer.mNextTick = S + (s.timer.mTicks.toInt + 1) * t.mTickInterval
  sleeps : s.timer.mTicks.toInt - s.timer.mOverruns.toInt = m + 1
  overruns : 0 ≤ s.timer.mOverruns.toInt

/-- The reading of a sleep is later than the tick instant slept for. It is not the one after it
where that is to be an overrun, and not so late that `mTicks` overflows. -/
structure Between (reached : Bool) (S : Int) (t : Timer) (s : Slept) : Prop where
  later : t.mNextTick < s.now
  apart : reached = true → t.FailsOnOverrun → s.now ≠ t.mNextTick + t.mTickInterval
  bounded : s.now ≤ S + 2 ^ 63 * t.mTickInterval

structure Counted (S I : Int) (m K : Nat) (t : Timer) : Prop where
  interval : t.mTickInterval = I
  ticks : t.mTicks = Int64.ofNat K
  overruns : t.mOverruns = Int64.ofNat (K - m)
  sleeps : m ≤ K
  fits : K < 2 ^ 63
  next : t.mNextTick = S + (K + 1) * I

theorem Counted.mTicks (counted : Counted S I m K t) : t.mTicks.toInt = K := by
  rw [counted.ticks,Int64.toInt_ofNat_of_lt counted.fits]

theorem Counted.mOverruns (counted : Counted S I m K t) : t.mOverruns.toInt = K - m := by
  have fits := counted.fits
  have sleeps := counted.sleeps
  rw [counted.overruns,Int64.toInt_ofNat_of_lt (by omega)]
  omega

def ticked (t : Timer) (now : Int) (c : Nat) : Slept :=
  { t with mNextTick := t.mNextTick + c * t.mTickInterval }.account now (UInt64.ofNat c)

@[simp] theorem ticked_now (t : Timer) (now : Int) (c : Nat) : (t.ticked now c).now = now := rfl

@[simp] theorem ticked_next (t : Timer) (now : Int) (c : Nat) :
    (t.ticked now c).timer.mNextTick = t.mNextTick + c * t.mTickInterval := rfl

@[simp] theorem ticked_ticks (t : Timer) (now : Int) (c : Nat) :
    (t.ticked now c).timer.mTicks = t.mTicks + Int64.ofNat c := rfl

theorem ofNat_pred {c : Nat} (some : 1 ≤ c) : UInt64.ofNat c - 1 = UInt64.ofNat (c - 1) := by
  obtain ⟨n,rfl⟩ : ∃ n, c = n + 1 := ⟨c - 1,by omega⟩
  rw [UInt64.ofNat_add,Nat.add_sub_cancel]
  exact UInt64.add_sub_cancel _ _

theorem ticked_overruns (t : Timer) (now : Int) {c : Nat} (some : 1 ≤ c) :
    (t.ticked now c).timer.mOverruns = t.mOverruns + Int64.ofNat (c - 1) := by
  simp only [ticked,account,ofNat_pred some]
  rfl

theorem ticked_throws (t : Timer) (now : Int) {c : Nat} (some : 1 ≤ c) (fits : c < 2 ^ 64) :
    (t.ticked now c).overrun.isSome = true ↔ t.FailsOnOverrun ∧ 2 ≤ c := by
  have positive : 0 < UInt64.ofNat (c - 1) ↔ 2 ≤ c := by
    rw [UInt64.lt_iff_toNat_lt,UInt64.toNat_zero,UInt64.toNat_ofNat',Nat.mod_eq_of_lt (by omega)]
    omega
  simp only [ticked,account,ofNat_pred some,positive]
  by_cases throws : 2 ≤ c ∧ t.mFlags &&& fail_on_overrun ≠ 0
  · simp [throws,FailsOnOverrun]
  · rw [if_neg throws]
    simp only [Option.isSome_none,Bool.false_eq_true,false_iff]
    exact fun both => throws ⟨both.2,both.1⟩

theorem Counted.ticked (counted : Counted S I m K t) (now : Int) {c : Nat} (some : 1 ≤ c)
    (fits : K + c < 2 ^ 63) : Counted S I (m + 1) (K + c) (t.ticked now c).timer := by
  have sleeps := counted.sleeps
  refine ⟨counted.interval,?_,?_,by omega,fits,?_⟩
  · rw [ticked_ticks,counted.ticks,← Int64.ofNat_add]
  · rw [ticked_overruns t now some,counted.overruns,← Int64.ofNat_add]
    congr 1
    omega
  · rw [ticked_next,counted.interval,counted.next]
    push_cast
    ring

/-- The ticks fit as long as the clock has not passed the last instant that can be counted. -/
theorem fits_iff {S I now : Int} {K c : Nat} (positive : 0 < I) (some : 1 ≤ c)
    (reached : now ≤ S + (K + 1) * I + c * I)
    (before : ∀ m : Nat, m < c → S + (K + 1) * I + m * I < now) :
    K + c < 2 ^ 63 ↔ now ≤ S + 2 ^ 63 * I := by
  constructor
  · intro fits
    have most : ((K : Int) + c + 1) * I ≤ 2 ^ 63 * I := Int.mul_le_mul_of_nonneg_right (by omega) positive.le
    linarith
  · intro bounded
    by_contra beyond
    have late := before (c - 1) (by omega)
    have least : (2 : Int) ^ 63 * I ≤ (K + c) * I := Int.mul_le_mul_of_nonneg_right (by omega) positive.le
    rw [Nat.cast_sub some] at late
    push_cast at late
    linarith

theorem sleep_accounted (reached : Bool) (positive : 0 < I) (counted : Counted S I m K t) (entry : Int) :
    ∃ s, t.sleep false entry = some s ∧ (Accounted reached S m t s ↔ Between reached S t s) ∧
      (Between reached S t s → ∃ K', Counted S I (m + 1) K' s.timer) := by
  have interval := counted.interval
  obtain ⟨now,ends,c,slept,caught,before⟩ :=
    sleep_portable (t := t) (show 0 < t.mTickInterval by rw [interval]; exact positive) entry
  refine ⟨t.ticked now c,slept,?_⟩
  rw [interval] at caught before
  have some_iff : 1 ≤ c ↔ t.mNextTick < now := by
    constructor
    · intro some
      simpa using before 0 some
    · intro late
      by_contra none
      obtain rfl : c = 0 := by omega
      simp only [Nat.cast_zero,Int.zero_mul,Int.add_zero] at caught
      omega
  have two_iff : 2 ≤ c ↔ t.mNextTick + I < now := by
    constructor
    · intro two
      simpa using before 1 two
    · intro late
      by_contra few
      have most : (c : Int) * I ≤ 1 * I := Int.mul_le_mul_of_nonneg_right (by omega) positive.le
      linarith
  have fits (some : 1 ≤ c) : K + c < 2 ^ 63 ↔ now ≤ S + 2 ^ 63 * I := by
    rw [counted.next] at caught before
    exact fits_iff positive some caught before
  have grown (between : Between reached S t (t.ticked now c)) :
      1 ≤ c ∧ K + c < 2 ^ 63 ∧ Counted S I (m + 1) (K + c) (t.ticked now c).timer := by
    obtain ⟨later,_,bounded⟩ := between
    rw [interval] at bounded
    have some := some_iff.mpr later
    exact ⟨some,(fits some).mpr bounded,counted.ticked now some ((fits some).mpr bounded)⟩
  refine ⟨⟨fun accounted => ?_,fun between => ?_⟩,fun between => ⟨K + c,(grown between).2.2⟩⟩
  · obtain ⟨⟨ticks,more,added,_⟩,throws,next,_,_⟩ := accounted
    -- `next` ties the ticks that are added to those of the loop
    have all : ((t.ticked now c).timer.mTicks.toInt : Int) = K + c := by
      rw [ticked_next,counted.next,interval] at next
      have same : ((t.ticked now c).timer.mTicks.toInt - (K + c)) * I = 0 := by linarith
      rcases Int.mul_eq_zero.mp same with zero | zero
      · omega
      · omega
    have some : 1 ≤ c := by
      rw [all,counted.mTicks] at added
      omega
    have bound := Int64.toInt_lt (t.ticked now c).timer.mTicks
    have inside : K + c < 2 ^ 63 := by omega
    refine ⟨some_iff.mp some,fun falls fails same => ?_,?_⟩
    · rw [ticked_throws t now some (by omega),interval,two_iff] at throws
      rw [ticked_now] at throws same
      rw [interval] at same
      exact absurd (throws.mpr ⟨fails,.inr ⟨falls,same.symm⟩⟩).2 (by omega)
    · rw [interval]
      exact (fits some).mp inside
  · obtain ⟨some,inside,after⟩ := grown between
    have sleeps := counted.sleeps
    refine ⟨⟨c,some,?_,?_⟩,?_,?_,?_,?_⟩
    · rw [after.mTicks,counted.mTicks,Nat.cast_add]
    · rw [after.mOverruns,counted.mOverruns]
      push_cast
      ring
    · rw [ticked_throws t now some (by omega),interval,two_iff]
      refine and_congr_right fun fails => ⟨.inl,?_⟩
      rintro (past | ⟨falls,same⟩)
      · exact past
      · exact absurd same.symm (interval ▸ between.apart falls fails)
    · rw [after.mTicks,after.next,interval]
    · rw [after.mTicks,after.mOverruns]
      push_cast
      ring
    · rw [after.mOverruns]
      push_cast
      omega

theorem sleeps_accounted (reached : Bool) (positive : 0 < I) (counted : Counted S I m K t)
    (entries : List Int) : ∃ slepts, t.sleeps false entries = some slepts ∧
      (Each (Accounted reached S) m t slepts ↔ Each (fun _ => Between reached S) m t slepts) := by
  induction entries generalizing m K t with
  | nil => exact ⟨[],rfl,Iff.rfl⟩
  | cons entry entries ih =>
    obtain ⟨s,slept,one,grows⟩ := sleep_accounted reached positive counted entry
    by_cases between : Between reached S t s
    · obtain ⟨K',after⟩ := grows between
      obtain ⟨later,rest,more⟩ := ih after
      exact ⟨s :: later,by simp [sleeps,slept,rest],and_congr one more⟩
    · have again : s.timer.Periodic false := by
        obtain ⟨u,other,periodic⟩ := sleep_periodic (t := t)
          (show t.Periodic false by rw [Periodic,counted.interval]; simpa using positive) entry
        cases slept.symm.trans other
        exact periodic
      obtain ⟨later,rest⟩ := sleeps_periodic again entries
      refine ⟨s :: later,by simp [sleeps,slept,rest],?_⟩
      exact iff_of_false (fun both => between (one.mp both.1)) (fun both => between both.1)

theorem start_counted {t : Timer} (stopped : t.mState = .stopped) (rt steady : Int) :
    ∃ u, t.start false rt steady = some u ∧ u.mFlags = t.mFlags ∧
      Counted (t.startInstant rt steady) t.mTickInterval 0 0 u :=
  ⟨_,if_pos stopped,rfl,rfl,rfl,rfl,le_refl 0,by decide,by simp⟩

/-- The accounting of a started timer is right in all sleeps exactly if no reading is the tick
instant slept for; one interval later it may be taken for an overrun that is not thrown. -/
theorem accounting_iff {t : Timer} (stopped : t.mState = .stopped) (interval : 1 ≤ t.mTickInterval)
    (reached : Bool) (rt steady : Int) (entries : List Int) :
    ∃ u slepts, t.start false rt steady = some u ∧ u.sleeps false entries = some slepts ∧
      (Each (Accounted reached (t.startInstant rt steady)) 0 u slepts ↔
        Each (fun _ => Between reached (t.startInstant rt steady)) 0 u slepts) := by
  obtain ⟨u,started,_,counted⟩ := start_counted stopped rt steady
  obtain ⟨slepts,slept,right⟩ := sleeps_accounted reached interval counted entries
  exact ⟨u,slepts,started,slept,right⟩

def strictTen : Timer := (Timer.make fail_on_overrun).setInterval 10

theorem accounting_iff_late : ∃ u slepts, strictTen.start false 1000 100 = some u ∧
    u.sleeps false [113,145] = some slepts ∧ Each (Accounted true 100) 0 u slepts := by
  obtain ⟨u,slepts,started,slept,right⟩ :=
    accounting_iff (t := strictTen) rfl (by decide) true 1000 100 [113,145]
  refine ⟨u,slepts,started,slept,right.mpr ?_⟩
  cases started
  cases slept
  exact ⟨⟨by decide,fun _ _ => by decide,by decide⟩,⟨by decide,fun _ _ => by decide,by decide⟩,trivial⟩

/-- A sleep that ends at the tick instant itself adds no tick and minus one overruns, and throws
`2 ^ 64 - 1` overruns, however a tick instant at the reading is counted. -/
theorem exact_sleep_unaccounted :
    ((strictTen.start false 1000 100).bind (·.sleep false 105)).map
        (fun s => (s.report,s.overrun)) = some ((110,0,-1),some 18446744073709551615) ∧
      ∀ reached, ¬ ∃ u slepts, strictTen.start false 1000 100 = some u ∧
        u.sleeps false [105] = some slepts ∧ Each (Accounted reached 100) 0 u slepts := by
  refine ⟨by decide,fun reached => ?_⟩
  rintro ⟨u,slepts,started,slept,accounted⟩
  cases started
  cases slept
  exact absurd accounted.1.overruns (by decide)

end DPsim.Timer
