import Mathlib.Data.Nat.ModEq

namespace Libgoc.Timeout

/-! # When a timeout fires -/

def nsPerMs : UInt64 := 1000000

/-- `goc_timeout_req`; `deadlineNs` is the reading at the call. -/
structure TimeoutReq where
  ms : UInt64
  deadlineNs : UInt64
deriving Repr, DecidableEq

def gocTimeout (ms hrtime : UInt64) : TimeoutReq :=
  { ms, deadlineNs := hrtime }

def elapsedNs (req : TimeoutReq) (now : UInt64) : UInt64 :=
  if now > req.deadlineNs then now - req.deadlineNs else 0

def elapsedMs (req : TimeoutReq) (now : UInt64) : UInt64 :=
  elapsedNs req now / nsPerMs

def remaining (req : TimeoutReq) (now : UInt64) : UInt64 :=
  if elapsedMs req now < req.ms then req.ms - elapsedMs req now else 0

def fireAtNs (req : TimeoutReq) (now : UInt64) : UInt64 :=
  now + remaining req now * nsPerMs

/-- `on_timer_mgr_fire` expires an entry at clock reading `now`. -/
def expires (deadlineNs now : UInt64) : Bool :=
  deadlineNs ≤ now

variable {req : TimeoutReq} {now : UInt64}

theorem elapsedNs_toNat (later : req.deadlineNs ≤ now) :
    (elapsedNs req now).toNat = now.toNat - req.deadlineNs.toNat := by
  rw [UInt64.le_iff_toNat_le] at later
  unfold elapsedNs
  split
  · rw [UInt64.toNat_sub_of_le]
    exact UInt64.le_iff_toNat_le.mpr later
  · rename_i none
    rw [gt_iff_lt, UInt64.lt_iff_toNat_lt] at none
    simp only [UInt64.toNat_zero]
    omega

theorem elapsedMs_toNat (later : req.deadlineNs ≤ now) :
    (elapsedMs req now).toNat = (now.toNat - req.deadlineNs.toNat) / 1000000 := by
  rw [elapsedMs, UInt64.toNat_div, elapsedNs_toNat later]
  rfl

theorem remaining_toNat (later : req.deadlineNs ≤ now) : (remaining req now).toNat =
      req.ms.toNat - (now.toNat - req.deadlineNs.toNat) / 1000000 := by
  have elapsed := elapsedMs_toNat later
  unfold remaining
  split
  · rename_i before
    rw [UInt64.lt_iff_toNat_lt] at before
    rw [UInt64.toNat_sub_of_le _ _ (UInt64.le_iff_toNat_le.mpr (Nat.le_of_lt before)), elapsed]
  · rename_i passed
    rw [UInt64.lt_iff_toNat_lt, elapsed] at passed
    simp only [UInt64.toNat_zero]
    omega

theorem fireAtNs_toNat (req : TimeoutReq) (later : req.deadlineNs ≤ now) :
    (fireAtNs req now).toNat = (now.toNat +
      (req.ms.toNat - (now.toNat - req.deadlineNs.toNat) / 1000000) * 1000000) % 2 ^ 64 := by
  rw [fireAtNs, UInt64.toNat_add, UInt64.toNat_mul, remaining_toNat later]
  exact Nat.add_mod_mod _ _ _

/-- The duration has passed already, or the time it ends at, moved past the
part of a millisecond that the elapsed time is cut by, is a `uint64_t`. -/
def Representable (req : TimeoutReq) (now : UInt64) : Prop :=
  req.ms.toNat ≤ (now.toNat - req.deadlineNs.toNat) / 1000000 ∨
    req.deadlineNs.toNat + req.ms.toNat * 1000000 +
      (now.toNat - req.deadlineNs.toNat) % 1000000 < 2 ^ 64

instance : Decidable (Representable req now) :=
  inferInstanceAs (Decidable (_ ∨ _))

/-- The end of the requested duration, as a number. -/
def endNs (ms hrtime : UInt64) : Nat :=
  hrtime.toNat + ms.toNat * 1000000

/-- A timeout that the loop thread handles at `now` gets a fire time at its end
or later, also when up to one millisecond is allowed for, exactly when its end
is representable; then the timer manager never lets it expire before its end. -/
theorem fires_at_end_or_later_iff (ms hrtime now : UInt64) (later : hrtime ≤ now)
    (slack : Nat) (cut : slack ≤ 1000000) :
    (endNs ms hrtime ≤ (fireAtNs (gocTimeout ms hrtime) now).toNat + slack ↔
      Representable (gocTimeout ms hrtime) now) ∧
    (Representable (gocTimeout ms hrtime) now → ∀ reading,
      expires (fireAtNs (gocTimeout ms hrtime) now) reading = true →
        endNs ms hrtime ≤ reading.toNat) := by
  simp only [expires, decide_eq_true_eq, UInt64.le_iff_toNat_le,
    fireAtNs_toNat (gocTimeout ms hrtime) later]
  rw [UInt64.le_iff_toNat_le] at later
  have bounded := now.toNat_lt
  have split := Nat.div_add_mod (now.toNat - hrtime.toNat) 1000000
  have part := Nat.mod_lt (now.toNat - hrtime.toNat) (by decide : 0 < 1000000)
  simp only [gocTimeout, endNs, Representable]
  by_cases passed : ms.toNat ≤ (now.toNat - hrtime.toNat) / 1000000
  · rw [Nat.sub_eq_zero_of_le passed, Nat.zero_mul, Nat.add_zero, Nat.mod_eq_of_lt bounded]
    simp only [passed, true_or, iff_true, true_implies]
    constructor
    · omega
    · intro reading reached
      omega
  · have exact : now.toNat + (ms.toNat - (now.toNat - hrtime.toNat) / 1000000) * 1000000 =
        hrtime.toNat + ms.toNat * 1000000 + (now.toNat - hrtime.toNat) % 1000000 := by
      omega
    rw [exact]
    simp only [passed, false_or]
    have below := Nat.mod_lt (hrtime.toNat + ms.toNat * 1000000 +
      (now.toNat - hrtime.toNat) % 1000000) (by decide : 0 < 2 ^ 64)
    constructor
    · constructor
      · intro notEarly
        by_contra wraps
        omega
      · intro fits
        rw [Nat.mod_eq_of_lt fits]
        omega
    · intro fits reading reached
      rw [Nat.mod_eq_of_lt fits] at reached
      omega

/-- Five milliseconds, handled two and a half milliseconds after the call. -/
theorem fires_at_end_or_later_short :
    (endNs 5 1000 ≤ (fireAtNs (gocTimeout 5 1000) 2501000).toNat + 0 ↔
      Representable (gocTimeout 5 1000) 2501000) ∧
    (Representable (gocTimeout 5 1000) 2501000 → ∀ reading,
      expires (fireAtNs (gocTimeout 5 1000) 2501000) reading = true →
        endNs 5 1000 ≤ reading.toNat) :=
  fires_at_end_or_later_iff 5 1000 2501000 (by decide) 0 (by decide)

/-- The longest duration wraps to one millisecond before the call: the timeout
expires at once. -/
theorem longest_timeout_expires_at_once : ¬ endNs 18446744073709551615 5000000 ≤
      (fireAtNs (gocTimeout 18446744073709551615 5000000) 5000000).toNat + 1000000 ∧
    expires (fireAtNs (gocTimeout 18446744073709551615 5000000) 5000000) 5000000 = true := by
  decide

end Libgoc.Timeout
