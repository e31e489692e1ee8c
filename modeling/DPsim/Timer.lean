import Mathlib.Tactic.Linarith
import Mathlib.Tactic.Ring
import Mathlib.Data.Int.Basic

/-! `Timer`, with the branch for `HAVE_TIMERFD` and the portable one. Instants are nanoseconds of
the clock that the timer sleeps on, and a sleep ends at the instant it waits for. -/
namespace DPsim

structure timespec where
  tv_sec : Int
  tv_nsec : Int
  deriving DecidableEq, Repr

def to_timespec (dur : Int) : timespec := ⟨dur.tdiv 1000000000, dur.tmod 1000000000⟩

def timespec.nanoseconds (ts : timespec) : Int := ts.tv_sec * 1000000000 + ts.tv_nsec

@[simp] theorem to_timespec_nanoseconds (dur : Int) : (to_timespec dur).nanoseconds = dur := by
  simp only [to_timespec,timespec.nanoseconds,Int.mul_comm,Int.mul_tdiv_add_tmod]

/-- A timer descriptor that `timerfd_settime` has armed at an absolute time, and how many of its
expirations have been read. -/
structure TimerFd where
  it_value : timespec
  it_interval : timespec
  reads : Nat
  deriving DecidableEq, Repr

namespace TimerFd

def expiry (fd : TimerFd) (k : Nat) : Int := fd.it_value.nanoseconds + k * fd.it_interval.nanoseconds

/-- The expirations up to an instant; without an interval there is one. -/
def expirations (fd : TimerFd) (now : Int) : Nat :=
  if now < fd.it_value.nanoseconds then 0
  else ((now - fd.it_value.nanoseconds) / fd.it_interval.nanoseconds).toNat + 1

/-- `read` blocks up to the first expiration that has not been read, and gives the number of
those that have not. -/
def read (fd : TimerFd) (entry : Int) : Option (Int × UInt64 × TimerFd) :=
  if fd.it_interval.nanoseconds = 0 ∧ 0 < fd.reads then none
  else
    let now := max entry (fd.expiry fd.reads)
    let expired := fd.expirations now
    some (now, UInt64.ofNat (expired - fd.reads), { fd with reads := expired })

theorem expirations_iff {fd : TimerFd} (periodic : 0 < fd.it_interval.nanoseconds) (k : Nat) (now : Int) :
    k < fd.expirations now ↔ fd.expiry k ≤ now := by
  have passed : 0 ≤ k * fd.it_interval.nanoseconds := Int.mul_nonneg (Int.natCast_nonneg k) periodic.le
  unfold expirations expiry
  split
  · omega
  · have due : (k : Int) ≤ (now - fd.it_value.nanoseconds) / fd.it_interval.nanoseconds ↔
        k * fd.it_interval.nanoseconds ≤ now - fd.it_value.nanoseconds := Int.le_ediv_iff_mul_le periodic
    have started : 0 ≤ (now - fd.it_value.nanoseconds) / fd.it_interval.nanoseconds :=
      Int.ediv_nonneg (by omega) periodic.le
    omega

theorem read_some {fd : TimerFd} (periodic : 0 < fd.it_interval.nanoseconds) (entry : Int) :
    ∃ now, now = max entry (fd.expiry fd.reads) ∧ fd.reads < fd.expirations now ∧ fd.read entry =
      some (now, UInt64.ofNat (fd.expirations now - fd.reads), { fd with reads := fd.expirations now }) := by
  refine ⟨_,rfl,(expirations_iff periodic _ _).mpr (Int.le_max_right ..),?_⟩
  rw [read,if_neg (by omega)]

end TimerFd

inductive Timer.State where
  | running
  | stopped
  deriving DecidableEq, Repr

structure Timer where
  mState : Timer.State
  mStartAt : Int
  mNextTick : Int
  mTickInterval : Int
  mTimerFd : TimerFd
  mOverruns : Int64
  mTicks : Int64
  mFlags : Int32
  deriving DecidableEq

namespace Timer

def fail_on_overrun : Int32 := 1

def make (flags : Int32) : Timer :=
  ⟨.stopped, 0, 0, 0, ⟨to_timespec 0, to_timespec 0, 0⟩, 0, 0, flags⟩

def setStartTime (t : Timer) (start : Int) : Timer := { t with mStartAt := start }

def setInterval (t : Timer) (intv : Int) : Timer := { t with mTickInterval := intv }

def startInstant (t : Timer) (rt steady : Int) : Int :=
  if t.mStartAt > 0 then t.mStartAt - rt + steady else steady

def start (HAVE_TIMERFD : Bool) (rt steady : Int) (t : Timer) : Option Timer :=
  if t.mState = .stopped then
    let start := t.startInstant rt steady
    some { t with
      mTicks := 0
      mOverruns := 0
      mTimerFd := if HAVE_TIMERFD then ⟨to_timespec start, to_timespec t.mTickInterval, 0⟩ else t.mTimerFd
      mNextTick := start + t.mTickInterval
      mState := .running }
  else none

/-- What a `sleep` leaves: the timer, the instant at which it ends, and the `OverrunException`. -/
structure Slept where
  timer : Timer
  now : Int
  overrun : Option UInt64

def account (t : Timer) (now : Int) (ticks : UInt64) : Slept :=
  let overruns := ticks - 1
  { timer := { t with
      mOverruns := t.mOverruns + overruns.toInt64
      mTicks := t.mTicks + ticks.toInt64 }
    now := now
    overrun := if 0 < overruns ∧ t.mFlags &&& fail_on_overrun ≠ 0 then some overruns else none }

def catchUp (mTickInterval now : Int) : Nat → Int → UInt64 → Option (Int × UInt64)
  | fuel, mNextTick, ticks =>
    if mNextTick < now then
      match fuel with
      | 0 => none
      | fuel + 1 => catchUp mTickInterval now fuel (mNextTick + mTickInterval) (ticks + 1)
    else some (mNextTick, ticks)

def sleep (HAVE_TIMERFD : Bool) (entry : Int) (t : Timer) : Option Slept :=
  if HAVE_TIMERFD then
    (t.mTimerFd.read entry).map fun (now, ticks, fd) => { t with mTimerFd := fd }.account now ticks
  else
    let now := max entry t.mNextTick
    (catchUp t.mTickInterval now (now - t.mNextTick).toNat t.mNextTick 0).map fun (next, ticks) =>
      { t with mNextTick := next }.account now ticks

def sleeps (HAVE_TIMERFD : Bool) : Timer → List Int → Option (List Slept)
  | _, [] => some []
  | t, entry :: entries => do
    let slept ← t.sleep HAVE_TIMERFD entry
    let later ← sleeps HAVE_TIMERFD slept.timer entries
    return slept :: later

def Slept.report (s : Slept) : Int × Int64 × Int64 := (s.now, s.timer.mTicks, s.timer.mOverruns)

theorem catchUp_some (positive : 0 < I) {fuel : Nat} {next : Int} (enough : (now - next).toNat ≤ fuel)
    (ticks : UInt64) : ∃ c : Nat,
      catchUp I now fuel next ticks = some (next + c * I, ticks + UInt64.ofNat c) ∧
        now ≤ next + c * I ∧ ∀ m : Nat, m < c → next + m * I < now := by
  induction fuel generalizing next ticks with
  | zero =>
    refine ⟨0,?_,by omega,by simp⟩
    rw [catchUp,if_neg (by omega)]
    simp
  | succ fuel ih =>
    unfold catchUp
    by_cases late : next < now
    · rw [if_pos late]
      obtain ⟨c,caught,reached,before⟩ := ih (show (now - (next + I)).toNat ≤ fuel by omega) (ticks + 1)
      refine ⟨c + 1,?_,?_,fun m less => ?_⟩
      · dsimp only
        rw [caught,UInt64.ofNat_add]
        congr 2
        · push_cast
          ring
        · rw [UInt64.add_assoc,UInt64.add_comm (UInt64.ofNat c)]
          rfl
      · push_cast
        linarith
      · cases m with
        | zero => simpa using late
        | succ m =>
          have := before m (by omega)
          push_cast
          linarith
    · rw [if_neg late]
      exact ⟨0,by simp,by simpa using late,by simp⟩

def Periodic (HAVE_TIMERFD : Bool) (t : Timer) : Prop :=
  if HAVE_TIMERFD then 0 < t.mTimerFd.it_interval.nanoseconds else 0 < t.mTickInterval

theorem sleep_timerFd {t : Timer} (periodic : t.Periodic true) (entry : Int) :
    ∃ now, now = max entry (t.mTimerFd.expiry t.mTimerFd.reads) ∧
      t.mTimerFd.reads < t.mTimerFd.expirations now ∧
      t.sleep true entry = some ({ t with
        mTimerFd := { t.mTimerFd with reads := t.mTimerFd.expirations now } }.account now
          (UInt64.ofNat (t.mTimerFd.expirations now - t.mTimerFd.reads))) := by
  obtain ⟨now,ends,more,read⟩ := TimerFd.read_some periodic entry
  exact ⟨now,ends,more,by simp only [sleep,if_true,read,Option.map_some]⟩

theorem sleep_kept {t : Timer} {slept : Slept} (periodic : t.Periodic true)
    (sleeps : t.sleep true entry = some slept) : slept.timer.mFlags = t.mFlags ∧
      ∃ reads, slept.timer.mTimerFd = { t.mTimerFd with reads := reads } := by
  obtain ⟨_,_,_,accounted⟩ := sleep_timerFd periodic entry
  obtain rfl := Option.some.inj (accounted.symm.trans sleeps)
  exact ⟨rfl,_,rfl⟩

theorem sleep_portable {t : Timer} (periodic : t.Periodic false) (entry : Int) :
    ∃ now, now = max entry t.mNextTick ∧ ∃ c : Nat, t.sleep false entry =
        some ({ t with mNextTick := t.mNextTick + c * t.mTickInterval }.account now (UInt64.ofNat c)) ∧
      now ≤ t.mNextTick + c * t.mTickInterval ∧
      ∀ m : Nat, m < c → t.mNextTick + m * t.mTickInterval < now := by
  obtain ⟨c,caught,reached,before⟩ := catchUp_some periodic
    (le_refl (max entry t.mNextTick - t.mNextTick).toNat) 0
  refine ⟨_,rfl,c,?_,reached,before⟩
  simp only [sleep,Bool.false_eq_true,if_false,caught,Option.map_some,UInt64.zero_add]

theorem sleep_periodic {HAVE_TIMERFD : Bool} {t : Timer} (periodic : t.Periodic HAVE_TIMERFD) (entry : Int) :
    ∃ slept, t.sleep HAVE_TIMERFD entry = some slept ∧ slept.timer.Periodic HAVE_TIMERFD := by
  cases HAVE_TIMERFD with
  | true =>
    obtain ⟨_,_,_,slept⟩ := sleep_timerFd periodic entry
    exact ⟨_,slept,periodic⟩
  | false =>
    obtain ⟨_,_,_,slept,_⟩ := sleep_portable periodic entry
    exact ⟨_,slept,periodic⟩

theorem sleeps_periodic {HAVE_TIMERFD : Bool} {t : Timer} (periodic : t.Periodic HAVE_TIMERFD)
    (entries : List Int) : ∃ slepts, t.sleeps HAVE_TIMERFD entries = some slepts := by
  induction entries generalizing t with
  | nil => exact ⟨[],rfl⟩
  | cons entry entries ih =>
    obtain ⟨slept,first,again⟩ := sleep_periodic periodic entry
    obtain ⟨later,rest⟩ := ih again
    exact ⟨slept :: later,by simp [sleeps,first,rest]⟩

/-- One expiration is no overrun, and any other number of them that fits is one. -/
theorem account_overrun {t : Timer} {n : Nat} (fails : t.mFlags = fail_on_overrun) (some : 0 < n)
    (fits : n ≤ 2 ^ 64) (now : Int) : ((t.account now (UInt64.ofNat n)).overrun = none ↔ n = 1) ∧
      (t.mOverruns = 0 → ((t.account now (UInt64.ofNat n)).timer.mOverruns = 0 ↔ n = 1)) := by
  have one : UInt64.ofNat n - 1 = 0 ↔ n = 1 := by
    rw [← UInt64.toNat_inj,UInt64.toNat_sub]
    simp only [UInt64.toNat_ofNat',UInt64.toNat_zero,UInt64.toNat_one]
    omega
  have flag : t.mFlags &&& fail_on_overrun ≠ 0 := by
    rw [fails]
    decide
  constructor
  · rw [← one]
    simp [account,flag,UInt64.pos_iff_ne_zero]
  · intro none
    rw [← one]
    simp only [account,none]
    constructor
    · intro zero
      rw [Int64.zero_add] at zero
      exact congrArg Int64.toUInt64 zero
    · intro zero
      rw [zero]
      rfl

/-- An instant that `std::chrono::nanoseconds` can hold. -/
def Representable (t : Int) : Prop := -2 ^ 63 ≤ t ∧ t < 2 ^ 63

instance (t : Int) : Decidable (Representable t) := by
  unfold Representable; infer_instance

/-- A sleep overruns exactly if it is entered when the expiration after the next is over. -/
theorem sleep_overrun_iff {t : Timer} {slept : Slept} (periodic : t.Periodic true)
    (fails : t.mFlags = fail_on_overrun) (started : Representable t.mTimerFd.it_value.nanoseconds)
    (sleeps : t.sleep true entry = some slept) (ended : Representable slept.now) :
    (slept.overrun = none ↔ entry < t.mTimerFd.expiry (t.mTimerFd.reads + 1)) ∧
      (t.mOverruns = 0 →
        (slept.timer.mOverruns = 0 ↔ entry < t.mTimerFd.expiry (t.mTimerFd.reads + 1))) := by
  obtain ⟨now,ends,more,accounted⟩ := sleep_timerFd periodic entry
  obtain rfl := Option.some.inj (accounted.symm.trans sleeps)
  have positive : 0 < t.mTimerFd.it_interval.nanoseconds := periodic
  have next : t.mTimerFd.expiry (t.mTimerFd.reads + 1) =
      t.mTimerFd.expiry t.mTimerFd.reads + t.mTimerFd.it_interval.nanoseconds := by
    simp only [TimerFd.expiry,Nat.cast_add,Nat.cast_one]
    ring
  have one : t.mTimerFd.expirations now - t.mTimerFd.reads = 1 ↔
      entry < t.mTimerFd.expiry (t.mTimerFd.reads + 1) := by
    have later := TimerFd.expirations_iff positive (t.mTimerFd.reads + 1) now
    omega
  have fits : t.mTimerFd.expirations now - t.mTimerFd.reads ≤ 2 ^ 64 := by
    by_contra beyond
    have late := (TimerFd.expirations_iff positive (2 ^ 64) now).mp (by omega)
    have long : (2 : Int) ^ 64 ≤ 2 ^ 64 * t.mTimerFd.it_interval.nanoseconds := by linarith
    obtain ⟨low,_⟩ := started
    obtain ⟨_,high⟩ := ended
    simp only [TimerFd.expiry,account] at late high
    push_cast at late
    omega
  rw [← one]
  exact account_overrun fails (by omega) fits now

theorem start_some {t : Timer} (stopped : t.mState = .stopped) (HAVE_TIMERFD : Bool) (rt steady : Int) :
    ∃ u, t.start HAVE_TIMERFD rt steady = some u ∧ u.mTicks = 0 ∧ u.mTickInterval = t.mTickInterval ∧
      u.mNextTick = t.startInstant rt steady + t.mTickInterval ∧
      (HAVE_TIMERFD = true → u.mTimerFd =
        ⟨to_timespec (t.startInstant rt steady), to_timespec t.mTickInterval, 0⟩) :=
  ⟨_,if_pos stopped,rfl,rfl,rfl,fun timerfd => if_pos timerfd⟩

/-- The first `sleep` counts one or two expirations less in the portable branch: its `mNextTick` is
the second expiration, and its comparison is strict. -/
theorem first_ticks_ne {S I entry fdNow now : Int} {c : Nat} (positive : 0 < I) (fdEnds : fdNow = max entry S)
    (ends : now = max entry (S + I)) (reached : now ≤ S + I + c * I)
    (before : ∀ m : Nat, m < c → S + I + m * I < now) :
    (UInt64.ofNat (TimerFd.expirations ⟨to_timespec S, to_timespec I, 0⟩ fdNow)).toInt64 ≠
      (UInt64.ofNat c).toInt64 := by
  have expired (k : Nat) :
      k < TimerFd.expirations ⟨to_timespec S, to_timespec I, 0⟩ fdNow ↔ S + k * I ≤ fdNow := by
    rw [TimerFd.expirations_iff (by simpa using positive)]
    simp [TimerFd.expiry]
  generalize TimerFd.expirations ⟨to_timespec S, to_timespec I, 0⟩ fdNow = n at expired
  have more : c < n := by
    rw [expired]
    cases c with
    | zero => omega
    | succ m =>
      have late := before m (by omega)
      have waited : 0 ≤ m * I := Int.mul_nonneg (Int.natCast_nonneg m) positive.le
      push_cast
      rw [Int.add_mul,Int.one_mul]
      omega
  have most : n ≤ c + 2 := by
    by_contra beyond
    have later := (expired (c + 2)).mp (by omega)
    push_cast at later
    rw [Int.add_mul] at later
    omega
  intro same
  have words : UInt64.ofNat n = UInt64.ofNat c := congrArg Int64.toUInt64 same
  have values := congrArg UInt64.toNat words
  simp only [UInt64.toNat_ofNat'] at values
  omega

/-- Both branches sleep as often as they are asked to, and they agree only where no `sleep` is
made: the first one already differs. -/
theorem branches_agree_iff {t : Timer} (stopped : t.mState = .stopped) (interval : 1 ≤ t.mTickInterval)
    (rt steady : Int) (entries : List Int) :
    ∃ u v xs ys, t.start true rt steady = some u ∧ t.start false rt steady = some v ∧
      u.sleeps true entries = some xs ∧ v.sleeps false entries = some ys ∧
      (xs.map Slept.report = ys.map Slept.report ↔ entries = []) := by
  have positive : 0 < t.mTickInterval := interval
  obtain ⟨u,fdStart,fdTicks,_,_,armed⟩ := start_some stopped true rt steady
  obtain ⟨v,start,ticks,sameInterval,next,_⟩ := start_some stopped false rt steady
  replace armed := armed rfl
  have fdPeriodic : u.Periodic true := by simpa [Periodic,armed] using positive
  have periodic : v.Periodic false := by simpa [Periodic,sameInterval] using positive
  obtain ⟨xs,fdSlept⟩ := sleeps_periodic fdPeriodic entries
  obtain ⟨ys,slept⟩ := sleeps_periodic periodic entries
  refine ⟨u,v,xs,ys,fdStart,start,fdSlept,slept,?_⟩
  cases entries with
  | nil =>
    cases fdSlept
    cases slept
    simp
  | cons entry entries =>
    refine iff_of_false (fun same => ?_) (by simp)
    obtain ⟨fdNow,fdEnds,_,fdFirst⟩ := sleep_timerFd fdPeriodic entry
    obtain ⟨now,ends,c,first,reached,before⟩ := sleep_portable periodic entry
    simp only [armed,TimerFd.expiry,to_timespec_nanoseconds,Nat.cast_zero,Int.zero_mul,Int.add_zero]
      at fdEnds fdFirst
    rw [next] at ends
    rw [next,sameInterval] at reached before
    have other := first_ticks_ne positive fdEnds ends reached before
    simp only [sleeps,fdFirst,first,Option.bind_eq_bind,Option.bind_some,Option.bind_eq_some_iff]
      at fdSlept slept
    obtain ⟨_,_,fdHead⟩ := fdSlept
    obtain ⟨_,_,head⟩ := slept
    cases fdHead
    cases head
    have counts := congrArg (fun report => report.2.1) (List.cons.inj same).1
    exact other (by simpa [Slept.report,account,fdTicks,ticks] using counts)

def everyTen : Timer := (Timer.make 0).setInterval 10

theorem branches_agree_iff_twice : ∃ u v xs ys, everyTen.start true 1000 100 = some u ∧
    everyTen.start false 1000 100 = some v ∧ u.sleeps true [105,112] = some xs ∧
    v.sleeps false [105,112] = some ys ∧ xs.map Slept.report ≠ ys.map Slept.report := by
  obtain ⟨u,v,xs,ys,fdStart,start,fdSlept,slept,agree⟩ :=
    branches_agree_iff (t := everyTen) rfl (by decide) 1000 100 [105,112]
  exact ⟨u,v,xs,ys,fdStart,start,fdSlept,slept,fun same => absurd (agree.mp same) (by simp)⟩

/-- Entered at 105, the first sleep ends at once with one tick and no overrun, or at 110 without a
tick and with minus one overruns. -/
theorem first_sleep_differs :
    ((everyTen.start true 1000 100).bind (·.sleep true 105)).map Slept.report = some (105,1,0) ∧
    ((everyTen.start false 1000 100).bind (·.sleep false 105)).map Slept.report = some (110,0,-1) ∧
    ¬ ∀ (t : Timer) (rt steady : Int) (entries : List Int), t.mState = .stopped → 1 ≤ t.mTickInterval →
      steady ≤ t.startInstant rt steady →
      ((t.start true rt steady).bind (·.sleeps true entries)).map (List.map Slept.report) =
        ((t.start false rt steady).bind (·.sleeps false entries)).map (List.map Slept.report) := by
  refine ⟨by decide,by decide,fun agree => ?_⟩
  have same := agree everyTen 1000 100 [105] rfl (by decide) (by decide)
  exact absurd same (by decide)

end Timer
end DPsim
