import Mathlib.Data.Int.LeastGreatest
import Parmana.Crypto.AuthorizationSigner
import Parmana.Gateway.EnvelopeVerifier
import Parmana.Js.Order

/-! # The time to live

A verifier compares the seconds between two dates with its maximum, in rounded
arithmetic.  The rounding keeps the order: dates that lie further apart are no fewer
seconds apart (`ttlSeconds_mono`).  So whatever number the maximum is, there is a longest
time to live it allows, in whole milliseconds (`exists_longest`), and a time to live that
leaves room for the rounding is always allowed (`ttlWithinPolicy_of_fits`).
-/
namespace Parmana.Gateway
open Js

/-- A whole number of milliseconds lies between a time to live and a maximum, in the
numbers the two sides compute with. -/
def FitsMilliseconds (ttlSeconds maxTtlSeconds : JsNumber) : Prop :=
  ∃ n : Nat, n < 2 ^ 53 ∧ (ttlSeconds.mulNat 1000).le (.ofInt n) = true ∧
    ((JsNumber.ofInt n).divNat 1000).le maxTtlSeconds = true

section TimeToLive
variable {ttlSeconds maxTtlSeconds : JsNumber}

theorem mulNat_le_ofInt {k : Nat} (h : ttlSeconds.le (.ofInt k) = true) (hk : k * 1000 < 2 ^ 53) :
    (ttlSeconds.mulNat 1000).le (.ofInt (k * 1000 : Nat)) = true := by
  obtain ⟨d, hd, hval⟩ := JsNumber.ofInt_finite (n := (k : Int)) (by omega)
  obtain ⟨e, he, hval'⟩ := JsNumber.ofInt_finite (n := ((k * 1000 : Nat) : Int)) (by omega)
  rw [hd] at h
  cases ttlSeconds with
  | finite f =>
    refine JsNumber.round_le_ofInt ?_
    have hle := JsNumber.le_finite.mp h
    rw [hval, Dyadic.toRat_intCast] at hle
    have hthousand : ((1000 : Nat) : Dyadic).toRat = ((1000 : Nat) : ℚ) := Dyadic.toRat_natCast _
    rw [Dyadic.toRat_mul, hthousand]
    push_cast at hle ⊢
    gcongr
  | negZero =>
    have hzero : JsNumber.merge (JsNumber.negZero.mulNat 1000) = .finite ⟨.zero, trivial⟩ := rfl
    rw [he, ← JsNumber.le_merge_left, hzero]
    refine JsNumber.le_finite.mpr (?_ : (0 : Dyadic).toRat ≤ e.val.toRat)
    rw [hval', Dyadic.toRat_intCast, Dyadic.toRat_zero]
    exact_mod_cast Nat.zero_le (k * 1000)
  | negInf =>
    rw [he]
    rfl
  | nan => simp [JsNumber.le, JsNumber.lt, JsNumber.eq, JsNumber.below, JsNumber.merge] at h
  | posInf => simp [JsNumber.le, JsNumber.lt, JsNumber.eq, JsNumber.below, JsNumber.merge] at h

/-- Whole seconds are whole milliseconds. -/
theorem fits_of_seconds {k : Nat} (hk : k * 1000 < 2 ^ 53) (h : ttlSeconds.le (.ofInt k) = true) :
    FitsMilliseconds ttlSeconds (.ofInt k) := by
  refine ⟨k * 1000, hk, mulNat_le_ofInt h hk, ?_⟩
  obtain ⟨e, he, hval⟩ := JsNumber.ofInt_finite (n := ((k * 1000 : Nat) : Int)) (by omega)
  rw [he]
  refine JsNumber.ofRatio_le_ofRatio (Nat.mul_pos (JsNumber.magnitude_den_pos e) (by norm_num))
    Nat.one_pos ?_
  rw [JsNumber.signed_magnitude, JsNumber.signed_int, hval, Dyadic.toRat_intCast]
  push_cast
  rw [mul_div_assoc, div_self (by norm_num), mul_one]

/-- The seconds between two times come of their exact difference, which is finite. -/
theorem ttlSeconds_merge {expiry issuedAt : Int} (hexpiry : expiry.natAbs ≤ maxTime)
    (hissued : issuedAt.natAbs ≤ maxTime) :
    ∃ (x : Dyadic) (difference : Double), x.toRat = ((expiry - issuedAt : Int) : ℚ) ∧
      (JsNumber.round x).merge = .finite difference ∧
      (Gateway.ttlSeconds (some expiry) (some issuedAt)).merge =
        (JsNumber.divNat (.finite difference) 1000).merge := by
  have hsmall : maxTime < 2 ^ 53 := by decide
  have hmax : maxTime = 8640000000000000 := rfl
  obtain ⟨d, hd, hval⟩ := JsNumber.ofInt_finite (hexpiry.trans_lt hsmall)
  obtain ⟨e, he, hval'⟩ := JsNumber.ofInt_finite (hissued.trans_lt hsmall)
  have hrat : (d.val - e.val).toRat = ((expiry - issuedAt : Int) : ℚ) := by
    rw [Dyadic.toRat_sub, hval, hval', Dyadic.toRat_intCast, Dyadic.toRat_intCast, Int.cast_sub]
  -- the difference lies between two doubles
  obtain ⟨hi, hhi⟩ : ∃ hi, JsNumber.ofInt 18014398509481984 = .finite hi := ⟨_, rfl⟩
  obtain ⟨lo, hlo⟩ : ∃ lo, JsNumber.ofInt (-18014398509481984) = .finite lo := ⟨_, rfl⟩
  have hupper : (JsNumber.round (d.val - e.val)).le (.finite hi) = true := by
    rw [← hhi]
    refine JsNumber.round_le_ofInt ?_
    rw [hrat]
    exact_mod_cast (by omega : expiry - issuedAt ≤ (18014398509481984 : Int))
  have hlower : JsNumber.le (.finite lo) (JsNumber.round (d.val - e.val)) = true := by
    rw [← hlo]
    refine JsNumber.ofInt_le_round ?_
    rw [hrat]
    exact_mod_cast (by omega : (-18014398509481984 : Int) ≤ expiry - issuedAt)
  obtain ⟨difference, hdifference⟩ := JsNumber.finite_of_between hlower hupper
  refine ⟨d.val - e.val, difference, hrat, hdifference, ?_⟩
  rw [← hdifference, JsNumber.divNat_merge]
  show (((JsNumber.ofInt expiry).sub (.ofInt issuedAt)).divNat 1000).merge = _
  rw [hd, he]
  rfl

/-- The seconds between two times are a number. -/
theorem ttlSeconds_isFinite {expiry issuedAt : Int} (hexpiry : expiry.natAbs ≤ maxTime)
    (hissued : issuedAt.natAbs ≤ maxTime) :
    (Gateway.ttlSeconds (some expiry) (some issuedAt)).isFinite = true := by
  obtain ⟨x, difference, -, -, hseconds⟩ := ttlSeconds_merge hexpiry hissued
  obtain ⟨quotient, hquotient⟩ := JsNumber.divNat_finite difference (n := 1000) (by norm_num)
  exact JsNumber.isFinite_of_merge (hseconds.trans hquotient)

/-- Times that are so many milliseconds apart are no more seconds apart. -/
theorem ttlSeconds_le {expiry issuedAt : Int} (hexpiry : expiry.natAbs ≤ maxTime)
    (hissued : issuedAt.natAbs ≤ maxTime) {n : Nat} (hn : n < 2 ^ 53)
    (hle : expiry ≤ issuedAt + n) :
    (Gateway.ttlSeconds (some expiry) (some issuedAt)).le ((JsNumber.ofInt n).divNat 1000) =
      true := by
  obtain ⟨x, difference, hx, hdifference, hseconds⟩ := ttlSeconds_merge hexpiry hissued
  obtain ⟨hi, hhi, -⟩ := JsNumber.ofInt_finite (n := (n : Int)) (by omega)
  rw [← JsNumber.le_merge_left, hseconds, JsNumber.le_merge_left, hhi]
  refine JsNumber.divNat_le_divNat (by norm_num) ?_
  rw [← hdifference, JsNumber.le_merge_left, ← hhi]
  refine JsNumber.round_le_ofInt ?_
  rw [hx]
  exact_mod_cast (by omega : expiry - issuedAt ≤ n)

/-- **Times that lie further apart are no fewer seconds apart.** -/
theorem ttlSeconds_mono {a b a' b' : Int} (ha : a.natAbs ≤ maxTime) (hb : b.natAbs ≤ maxTime)
    (ha' : a'.natAbs ≤ maxTime) (hb' : b'.natAbs ≤ maxTime) (h : a - b ≤ a' - b') :
    (Gateway.ttlSeconds (some a) (some b)).le (Gateway.ttlSeconds (some a') (some b')) = true := by
  obtain ⟨x, difference, hx, hdifference, hseconds⟩ := ttlSeconds_merge ha hb
  obtain ⟨x', difference', hx', hdifference', hseconds'⟩ := ttlSeconds_merge ha' hb'
  rw [← JsNumber.le_merge_left, ← JsNumber.le_merge_right, hseconds, hseconds',
    JsNumber.le_merge_left, JsNumber.le_merge_right]
  refine JsNumber.divNat_le_divNat (by norm_num) ?_
  rw [← hdifference, ← hdifference', JsNumber.le_merge_left, JsNumber.le_merge_right]
  refine JsNumber.round_le_round ?_
  rw [hx, hx']
  exact_mod_cast h

/-- **The dates of an authorization are within the maximum**, where a whole number of
milliseconds lies between it and the time to live. -/
theorem ttlWithinPolicy_of_fits {issuedAt expiry : Int}
    (hfits : FitsMilliseconds ttlSeconds maxTtlSeconds) (hissued : issuedAt.natAbs ≤ maxTime)
    (hexpiry : AuthorizationSigner.expiresAt ttlSeconds issuedAt = some expiry) :
    ttlWithinPolicy maxTtlSeconds (some expiry) (some issuedAt) = true := by
  obtain ⟨n, hn, httl, hmax⟩ := hfits
  have hle := timeClip_add_le hissued hn httl hexpiry
  unfold ttlWithinPolicy
  rw [ttlSeconds_isFinite (timeClip_bound hexpiry) hissued, Bool.true_and]
  exact JsNumber.le_trans (ttlSeconds_le (timeClip_bound hexpiry) hissued hn hle) hmax

/-! ## The longest time to live -/

/-- The maximum allows a time to live of so many milliseconds, and none that is longer. -/
def Longest (maxTtlSeconds : JsNumber) (longest : Int) : Prop :=
  ∀ expiresAt authorizedAt : Int, expiresAt.natAbs ≤ maxTime → authorizedAt.natAbs ≤ maxTime →
    (ttlWithinPolicy maxTtlSeconds (some expiresAt) (some authorizedAt) = true ↔
      expiresAt - authorizedAt ≤ longest)

/-- Between times the seconds are a number, so only the comparison counts. -/
theorem ttlWithinPolicy_iff {expiresAt authorizedAt : Int} (hexpires : expiresAt.natAbs ≤ maxTime)
    (hauthorized : authorizedAt.natAbs ≤ maxTime) :
    ttlWithinPolicy maxTtlSeconds (some expiresAt) (some authorizedAt) = true ↔
      (Gateway.ttlSeconds (some expiresAt) (some authorizedAt)).le maxTtlSeconds = true := by
  unfold ttlWithinPolicy
  rw [ttlSeconds_isFinite hexpires hauthorized, Bool.true_and]

/-- **Every maximum has a longest time to live.** -/
theorem exists_longest (maxTtlSeconds : JsNumber) : ∃ longest, Longest maxTtlSeconds longest := by
  let Allowed : Int → Prop := fun ms => ∃ a b : Int, a.natAbs ≤ maxTime ∧ b.natAbs ≤ maxTime ∧
    a - b = ms ∧ ttlWithinPolicy maxTtlSeconds (some a) (some b) = true
  by_cases hnone : ∃ ms, Allowed ms
  · obtain ⟨longest, ⟨a, b, ha, hb, hab, hallowed⟩, hgreatest⟩ :=
      Int.exists_greatest_of_bdd (P := Allowed) ⟨2 * maxTime, by
        rintro ms ⟨a, b, ha, hb, rfl, -⟩
        omega⟩ hnone
    refine ⟨longest, fun e c he hc => ⟨fun h => hgreatest _ ⟨e, c, he, hc, rfl, h⟩, fun h => ?_⟩⟩
    rw [ttlWithinPolicy_iff he hc]
    exact JsNumber.le_trans (ttlSeconds_mono he hc ha hb (hab ▸ h))
      ((ttlWithinPolicy_iff ha hb).mp hallowed)
  · refine ⟨-(2 * maxTime) - 1, fun e c he hc => ⟨fun h => ?_, fun h => ?_⟩⟩
    · exact absurd ⟨_, e, c, he, hc, rfl, h⟩ hnone
    · omega

end TimeToLive

end Parmana.Gateway
