import LogShipper.Proofs.TriggerSet
import Mathlib.Algebra.Order.Archimedean.Basic
import Mathlib.Algebra.Order.Ring.Pow
import Mathlib.Data.Set.Card
import Mathlib.Tactic.Linarith

/-!
# How many calls are forwarded

With a factor close to one the threshold of a window lags behind the count, and calls are forwarded
one after the other until the powers of the factor overtake the count.  From then on the threshold
stays ahead (`lt_pow_succ`), and so among the first `n` calls of a window as many are forwarded as
there are powers of the factor up to `n`, or all of them if there are not as many calls
(`forwardedBy_eq`).

This is counted in exact arithmetic.  A rule counts in the same way as long as its own arithmetic
compares and multiplies the powers as exact arithmetic does (`TriggerRule.Tracks`): the rational
numbers always do, and the binary format does while it has the powers that are reached.
-/

namespace LogShipper

universe u v

/-! ## Powers and counts -/

section Powers

variable {m : ℚ}

/-- A power of fewer than `n` factors does not exceed `n` if these are less than `1 + 1 / n`. -/
theorem pow_le_of_mul_lt (hm : 1 < m) {p n : ℕ} (hp : p < n) (h : n * m < n + 1) : m ^ p ≤ n := by
  have hn : (1 : ℚ) ≤ n := by exact_mod_cast (Nat.zero_le p).trans_lt hp
  have hpn : (p : ℚ) + 1 ≤ n := by exact_mod_cast hp
  -- `2 - m` is close below the reciprocal of `m`, and Bernoulli's inequality bounds its powers
  have hless : m < 2 := by nlinarith
  have hbernoulli : 1 + p * (1 - m) ≤ (2 - m) ^ p := by
    have hpow := one_add_mul_le_pow (a := 1 - m) (by linarith) p
    have hbase : 1 + (1 - m) = 2 - m := by ring
    rwa [hbase] at hpow
  have hone : 1 ≤ n * (1 + p * (1 - m)) := by nlinarith
  have hproduct : m * (2 - m) ≤ 1 := by nlinarith [sq_nonneg (m - 1)]
  have hpositive : 0 < m ^ p := by positivity
  calc m ^ p ≤ m ^ p * (n * (1 + p * (1 - m))) := le_mul_of_one_le_right hpositive.le hone
    _ = n * (m ^ p * (1 + p * (1 - m))) := by ring
    _ ≤ n * (m ^ p * (2 - m) ^ p) := by gcongr
    _ = n * (m * (2 - m)) ^ p := by rw [mul_pow]
    _ ≤ n * 1 := by
      gcongr
      exact pow_le_one₀ (mul_nonneg (by linarith) (by linarith)) hproduct
    _ = n := mul_one _

/-- A power that is ahead of a count stays ahead when both go on by one, if there are fewer factors
than the count. -/
theorem lt_pow_succ (hm : 1 < m) {p n : ℕ} (hp : p < n) (h : (n : ℚ) < m ^ p) :
    ((n + 1 : ℕ) : ℚ) < m ^ (p + 1) := by
  have hstep : (n : ℚ) + 1 ≤ n * m := by
    by_contra hlt
    exact absurd (pow_le_of_mul_lt hm hp (not_le.1 hlt)) (not_le.2 h)
  push_cast
  calc (n : ℚ) + 1 ≤ n * m := hstep
    _ < m ^ p * m := by gcongr
    _ = m ^ (p + 1) := (pow_succ m p).symm

/-- The exponents of the powers up to a count are those below a bound. -/
theorem exists_pow_le_iff (hm : 1 < m) (n : ℕ) : ∃ p, ∀ j, m ^ j ≤ n ↔ j < p := by
  have hbeyond : ∃ p, (n : ℚ) < m ^ p := pow_unbounded_of_one_lt (n : ℚ) hm
  refine ⟨Nat.find hbeyond, fun j => ?_⟩
  rw [Nat.lt_find_iff]
  constructor
  · intro hj i hi
    exact not_lt.2 ((pow_le_pow_right₀ hm.le hi).trans hj)
  · intro hall
    exact not_lt.1 (hall j (Nat.le_refl j))

/-- How many of the first `n` calls of a window are forwarded with the factor `m`, in exact
arithmetic: each call counts whose number has reached the power at which the threshold stands. -/
def forwardedBy (m : ℚ) : ℕ → ℕ
  | 0 => 0
  | n + 1 => forwardedBy m n + if m ^ forwardedBy m n ≤ (n + 1 : ℕ) then 1 else 0

theorem forwardedBy_succ (m : ℚ) (n : ℕ) : forwardedBy m (n + 1) =
    forwardedBy m n + if m ^ forwardedBy m n ≤ (n + 1 : ℕ) then 1 else 0 := rfl

theorem forwardedBy_le (m : ℚ) (n : ℕ) : forwardedBy m n ≤ n := by
  induction n with
  | zero => exact Nat.le_refl 0
  | succ n ih =>
    rw [forwardedBy_succ]
    split <;> omega

theorem forwardedBy_eq_min (hm : 1 < m) {n p : ℕ} (hp : ∀ j, m ^ j ≤ n ↔ j < p) :
    forwardedBy m n = min n p := by
  induction n generalizing p with
  | zero => exact (Nat.zero_min p).symm
  | succ n ih =>
    obtain ⟨q, hq⟩ := exists_pow_le_iff hm n
    have hmono : q ≤ p := by
      by_contra hlt
      have hpow := (hq p).2 (Nat.not_le.1 hlt)
      exact Nat.lt_irrefl p ((hp p).1 (hpow.trans (by exact_mod_cast Nat.le_succ n)))
    rw [forwardedBy_succ, ih hq]
    simp only [hp]
    rcases Nat.lt_or_ge q n with hqn | hqn
    · -- the threshold is ahead of the count, and the next power is ahead of the next count
      have hahead : (n : ℚ) < m ^ q := not_le.1 fun hle => Nat.lt_irrefl q ((hq q).1 hle)
      have hnext : p ≤ q + 1 := by
        by_contra hlt
        exact not_le.2 (lt_pow_succ hm hqn hahead) ((hp (q + 1)).2 (Nat.not_le.1 hlt))
      rw [Nat.min_eq_right hqn.le]
      split <;> omega
    · -- all calls so far were forwarded
      rw [Nat.min_eq_left hqn]
      split <;> omega

/-- Among the first `n` calls of a window, as many are forwarded as there are powers of the factor
up to `n`, or all of them if these are fewer. -/
theorem forwardedBy_eq (hm : 1 < m) (n : ℕ) :
    forwardedBy m n = min n {j : ℕ | m ^ j ≤ n}.ncard := by
  obtain ⟨p, hp⟩ := exists_pow_le_iff hm n
  have hset : {j : ℕ | m ^ j ≤ n} = Finset.range p := by
    ext j
    simp [hp j]
  rw [forwardedBy_eq_min hm hp, hset, Set.ncard_coe_finset, Finset.card_range]

end Powers

variable {κ : Type u} {θ : Type v} [DecidableEq κ] [ThresholdArithmetic θ]

/-! ## The calls of a window -/

/-- The positions in their windows of calls at some instants, after calls at others. -/
def positions (length : ℕ) (before : List ℕ) : List ℕ → List ℕ
  | [] => []
  | now :: later => positionAfter length before now :: positions length (before ++ [now]) later

theorem positions_append_singleton (length : ℕ) (before instants : List ℕ) (now : ℕ) :
    positions length before (instants ++ [now]) =
      positions length before instants ++ [positionAfter length (before ++ instants) now] := by
  induction instants generalizing before with
  | nil => simp [positions]
  | cons first instants ih => simp [positions, ih]

/-- The calls at some instants, after calls at others, are the first of one window. -/
def AreFirst (length : ℕ) (before instants : List ℕ) : Prop :=
  positions length before instants = List.range' 1 instants.length

instance (length : ℕ) (before instants : List ℕ) : Decidable (AreFirst length before instants) :=
  inferInstanceAs (Decidable (positions length before instants = _))

theorem areFirst_append_singleton {length : ℕ} {before instants : List ℕ} {now : ℕ} :
    AreFirst length before (instants ++ [now]) ↔ AreFirst length before instants ∧
      positionAfter length (before ++ instants) now = instants.length + 1 := by
  unfold AreFirst
  rw [positions_append_singleton, List.length_append, List.length_singleton, List.range'_concat,
    List.append_singleton_inj, Nat.one_mul, Nat.add_comm 1]

namespace TriggerWindow

variable {rule : TriggerRule θ} {instants : List ℕ} {now : ℕ}

/-- The window in which a call at an instant is counted, after calls at given instants. -/
def present (rule : TriggerRule θ) (instants : List ℕ) (now : ℕ) : TriggerWindow θ :=
  ((after rule instants).getD (openAt now)).atInstant rule.window now

theorem count_present (rule : TriggerRule θ) (instants : List ℕ) (now : ℕ) :
    (present rule instants now).count + 1 = positionAfter rule.window instants now :=
  count_atInstant rule instants now

theorem atInstant_eq_or (w : TriggerWindow θ) (length now : ℕ) :
    w.atInstant length now = openAt now ∨ w.atInstant length now = w := by
  unfold atInstant
  split
  · exact .inl rfl
  · exact .inr rfl

theorem count_pos_of_after {w : TriggerWindow θ} (h : after rule instants = some w) :
    0 < w.count := by
  cases instants using List.reverseRecOn with
  | nil => cases h
  | append_singleton instants last =>
    rw [after_append_singleton] at h
    obtain rfl := Option.some.inj h
    exact Nat.succ_pos _

/-- The first call of a window opens it. -/
theorem present_of_eq_one (h : positionAfter rule.window instants now = 1) :
    present rule instants now = openAt now := by
  have hcount := count_present rule instants now
  unfold present at hcount ⊢
  cases hafter : after rule instants with
  | none => exact (atInstant_eq_or (openAt now) rule.window now).elim id id
  | some w =>
    rw [hafter, Option.getD_some] at hcount
    refine (atInstant_eq_or w rule.window now).resolve_right fun hsame => ?_
    have hpos := count_pos_of_after hafter
    rw [hsame] at hcount
    omega

/-- Any other call is counted in the window in which the call before it was. -/
theorem present_of_ne_one {last : ℕ} (h : positionAfter rule.window (instants ++ [last]) now ≠ 1) :
    present rule (instants ++ [last]) now =
      ((present rule instants last).advance rule.multiplier).1 := by
  have hcount := count_present rule (instants ++ [last]) now
  unfold present at hcount ⊢
  rw [after_append_singleton, Option.getD_some] at hcount ⊢
  refine (atInstant_eq_or _ rule.window now).resolve_left fun hopened => ?_
  rw [hopened] at hcount
  exact h hcount.symm

end TriggerWindow

/-! ## Rules that count exactly -/

/-- The arithmetic of a rule compares and multiplies the powers of `m` as exact arithmetic does, for
the first `n` calls of a window: `stands` tells which thresholds stand for which powers. -/
structure TriggerRule.Tracks (rule : TriggerRule θ) (m : ℚ) (n : ℕ) (stands : θ → ℕ → Prop) :
    Prop where
  grows : ThresholdArithmetic.lt (ThresholdArithmetic.ofNat 1) rule.multiplier = true
  one : stands (ThresholdArithmetic.ofNat 1) 0
  le_iff {threshold : θ} {j count : ℕ} : stands threshold j → 0 < count → count ≤ n →
    (ThresholdArithmetic.le threshold (ThresholdArithmetic.ofNat count) = true ↔ m ^ j ≤ count)
  mul {threshold : θ} {j : ℕ} : stands threshold j → m ^ j ≤ n → j + 1 < n →
    stands (ThresholdArithmetic.mul threshold rule.multiplier) (j + 1)

namespace TriggerRule.Tracks

variable {rule : TriggerRule θ} {m : ℚ} {n : ℕ} {stands : θ → ℕ → Prop} {before instants : List ℕ}
  {now : ℕ}

/-- Which calls are forwarded, by the power for which the threshold stands. -/
theorem advance_iff (h : rule.Tracks m n stands) {w : TriggerWindow θ} {j : ℕ}
    (hw : stands w.threshold j) (hcount : w.count < n) :
    (w.advance rule.multiplier).2 = true ↔ m ^ j ≤ (w.count + 1 : ℕ) :=
  h.le_iff hw (Nat.succ_pos _) hcount

/-- Counting a call keeps the threshold at the power whose exponent is the number of calls that were
forwarded. -/
theorem stands_advance (h : rule.Tracks m n stands) {w : TriggerWindow θ}
    (hw : stands w.threshold (forwardedBy m w.count)) (hcount : w.count + 1 < n) :
    stands (w.advance rule.multiplier).1.threshold (forwardedBy m (w.count + 1)) := by
  have hreached := h.le_iff hw (Nat.succ_pos w.count) hcount.le
  rw [forwardedBy_succ]
  by_cases hfires : m ^ forwardedBy m w.count ≤ (w.count + 1 : ℕ)
  · have hle := forwardedBy_le m w.count
    rw [TriggerWindow.threshold_advance_of_reached (hreached.2 hfires) h.grows, if_pos hfires]
    exact h.mul hw (hfires.trans (by exact_mod_cast hcount.le)) (by omega)
  · rw [TriggerWindow.threshold_advance_of_not_reached (mt hreached.1 hfires), if_neg hfires]
    exact hw

/-- Before each of the first calls of a window, its threshold stands for the power whose exponent is
the number of those that were forwarded. -/
theorem stands_present (h : rule.Tracks m n stands)
    (hfirst : AreFirst rule.window before (instants ++ [now])) (hlength : instants.length < n) :
    stands (TriggerWindow.present rule (before ++ instants) now).threshold
      (forwardedBy m instants.length) := by
  induction instants using List.reverseRecOn generalizing now with
  | nil =>
    rw [TriggerWindow.present_of_eq_one (areFirst_append_singleton.1 hfirst).2]
    exact h.one
  | append_singleton instants last ih =>
    obtain ⟨hbefore, hposition⟩ := areFirst_append_singleton.1 hfirst
    have hlast := (areFirst_append_singleton.1 hbefore).2
    rw [List.length_append, List.length_singleton] at hlength hposition ⊢
    have hcount := TriggerWindow.count_present rule (before ++ instants) last
    have hstands := ih hbefore (by omega)
    rw [hlast] at hcount
    rw [← List.append_assoc] at hposition ⊢
    rw [TriggerWindow.present_of_ne_one (by omega), ← hcount]
    rw [← Nat.succ.inj hcount] at hstands
    exact h.stands_advance hstands (by omega)

/-- Each of the first calls of a window is forwarded if its number has reached the power whose
exponent is the number of those that were forwarded before. -/
theorem forwards_iff (h : rule.Tracks m n stands)
    (hfirst : AreFirst rule.window before (instants ++ [now])) (hlength : instants.length < n) :
    rule.forwards (before ++ instants) now = true ↔
      m ^ forwardedBy m instants.length ≤ (instants.length + 1 : ℕ) := by
  have hcount := TriggerWindow.count_present rule (before ++ instants) now
  rw [(areFirst_append_singleton.1 hfirst).2] at hcount
  have hiff := h.advance_iff (h.stands_present hfirst hlength) (by omega)
  rwa [hcount] at hiff

end TriggerRule.Tracks

/-! ## Counting what a trigger forwards -/

namespace Trigger

/-- How many of some calls are calls of a key and forwarded. -/
def forwardedOf (key : κ) (t : Trigger κ θ) : List (κ × ℕ) → ℕ
  | [] => 0
  | call :: calls =>
    let step := t.offer call.1 call.2
    (if decide (call.1 = key) && step.2 then 1 else 0) + forwardedOf key step.1 calls

theorem forwardedOf_append_singleton (key : κ) (t : Trigger κ θ) (calls : List (κ × ℕ))
    (call : κ × ℕ) : t.forwardedOf key (calls ++ [call]) = t.forwardedOf key calls +
      if decide (call.1 = key) && ((t.offerAll calls).offer call.1 call.2).2 then 1 else 0 := by
  induction calls generalizing t with
  | nil => exact Nat.add_comm _ _
  | cons first calls ih =>
    have hcons (calls : List (κ × ℕ)) : t.forwardedOf key (first :: calls) =
        (if decide (first.1 = key) && (t.offer first.1 first.2).2 then 1 else 0) +
          (t.offer first.1 first.2).1.forwardedOf key calls := rfl
    rw [List.cons_append, hcons, hcons, ih, Nat.add_assoc]
    rfl

/-- A rule that counts exactly forwards as many of the first calls of a window as exact arithmetic
does. -/
theorem forwardedOf_eq {rule : TriggerRule θ} {m : ℚ} {n : ℕ} {stands : θ → ℕ → Prop}
    (h : rule.Tracks m n stands) (key : κ) (earlier calls : List (κ × ℕ))
    (hfirst : AreFirst rule.window (instantsOf key earlier) (instantsOf key calls))
    (hn : (instantsOf key calls).length ≤ n) :
    ((new rule).offerAll earlier).forwardedOf key calls =
      forwardedBy m (instantsOf key calls).length := by
  induction calls using List.reverseRecOn with
  | nil => rfl
  | append_singleton calls call ih =>
    rw [forwardedOf_append_singleton]
    rw [instantsOf_append_singleton] at hfirst hn ⊢
    by_cases hkey : call.1 = key
    · rw [if_pos hkey] at hfirst hn ⊢
      rw [List.length_append, List.length_singleton] at hn ⊢
      have hforwards := h.forwards_iff hfirst (by omega)
      rw [ih (areFirst_append_singleton.1 hfirst).1 (by omega), forwardedBy_succ,
        decide_eq_true hkey, Bool.true_and, hkey, ← offerAll_append, offer_offerAll,
        instantsOf_append]
      exact congrArg _ (if_congr hforwards rfl rfl)
    · rw [if_neg hkey, List.append_nil] at hfirst hn ⊢
      rw [ih hfirst hn, decide_eq_false hkey]
      rfl

end Trigger

/-! ## The two arithmetics -/

namespace TriggerRule

/-- The rational numbers compare and multiply all powers exactly. -/
theorem tracks_exact {rule : TriggerRule ℚ} (hm : 1 < rule.multiplier) (n : ℕ) :
    rule.Tracks rule.multiplier n fun threshold j => threshold = rule.multiplier ^ j where
  grows := by
    show decide (((1 : ℕ) : ℚ) < rule.multiplier) = true
    rw [Nat.cast_one]
    exact decide_eq_true hm
  one := (Nat.cast_one).trans (pow_zero _).symm
  le_iff := by
    rintro threshold j count rfl - -
    exact decide_eq_true_iff
  mul := by
    rintro threshold j rfl - -
    exact (pow_succ _ _).symm

/-- The binary format does so while it has the powers that are below the next count. -/
theorem tracks_binary {rule : TriggerRule Binary64} {m : BinaryFraction} {n : ℕ}
    (hrule : rule.multiplier = .finite false m) (hm : 1 < m.value) (hn : n < 2 ^ 53)
    (hpowers : ∀ j < n, m.value ^ j < n + 1 → Binary64.Representable (m.value ^ j)) :
    rule.Tracks m.value n fun threshold j => threshold.StandsBelow (n + 1) (m.value ^ j) where
  grows := by
    have hone : Binary64.ofNat 1 = .finite false ⟨1, 0⟩ := rfl
    show Binary64.lt (.ofNat 1) rule.multiplier = true
    rwa [hrule, hone, Binary64.lt_finite_iff, BinaryFraction.value_natCast, Nat.cast_one]
  one := .inl ⟨⟨1, 0⟩, rfl, by simp⟩
  le_iff := by
    intro threshold j count hstands hpos hcount
    exact hstands.le_ofNat_iff hn hpos (Nat.lt_succ_of_le hcount)
  mul := by
    intro threshold j hstands hle hj
    rcases hstands with ⟨x, rfl, hx⟩ | ⟨hbeyond, -⟩
    · have hproduct : (x.mul m).value = m.value ^ (j + 1) := by
        rw [BinaryFraction.value_mul, hx, pow_succ]
      rw [hrule, ← hproduct]
      apply Binary64.standsBelow_ofMagnitude hn
      · rw [hproduct]
        positivity
      · intro hbelow
        rw [hproduct] at hbelow ⊢
        exact hpowers (j + 1) hj (by exact_mod_cast hbelow)
    · refine absurd (hbeyond.trans hle) (not_le.2 ?_)
      exact_mod_cast Nat.lt_succ_self n

end TriggerRule

namespace Trigger

/-- **The law of thinning for any factor.**  Let some calls of a key be the first `n` calls of one
window, whatever calls came before it and whatever calls of other keys come in between.  With a
factor `m` greater than one, a whole number or not, as many of them are forwarded as there are
powers of `m` up to `n`, or all of them if these are more.  This holds in exact arithmetic.  For
fewer than `2 ^ 53` calls it holds in the binary format too, while the format has every power that
the threshold reaches below the next count. -/
theorem forwardedOf_eq_min (key : κ) (earlier calls : List (κ × ℕ)) (length : ℕ)
    (hfirst : AreFirst length (instantsOf key earlier) (instantsOf key calls)) :
    let n := (instantsOf key calls).length
    (∀ rule : TriggerRule ℚ, rule.window = length → 1 < rule.multiplier →
      ((new rule).offerAll earlier).forwardedOf key calls =
        min n {j : ℕ | rule.multiplier ^ j ≤ n}.ncard) ∧
    (∀ (rule : TriggerRule Binary64) (m : BinaryFraction), rule.window = length →
      rule.multiplier = .finite false m → 1 < m.value → n < 2 ^ 53 →
      (∀ j < n, m.value ^ j < n + 1 → Binary64.Representable (m.value ^ j)) →
      ((new rule).offerAll earlier).forwardedOf key calls =
        min n {j : ℕ | m.value ^ j ≤ n}.ncard) := by
  intro n
  constructor
  · rintro rule rfl hm
    rw [← forwardedBy_eq hm]
    exact forwardedOf_eq (TriggerRule.tracks_exact hm n) key earlier calls hfirst (Nat.le_refl n)
  · rintro rule m rfl hrule hm hn hpowers
    rw [← forwardedBy_eq hm]
    exact forwardedOf_eq (TriggerRule.tracks_binary hrule hm hn hpowers) key earlier calls hfirst
      (Nat.le_refl n)

/-- With the factor 3 / 2 and windows of 10, a call of another key in between, five of the first
six calls of a window are forwarded: the threshold is 81 / 16 when the fifth comes. -/
theorem forwardedOf_eq_min_of_three_halves :
    let exact : TriggerRule ℚ :=
      { severity := .warn, multiplier := 3 / 2, window := 10, depth := 0 }
    let binary : TriggerRule Binary64 :=
      { severity := .warn, multiplier := .finite false ⟨3, -1⟩, window := 10, depth := 0 }
    let earlier : List (String × ℕ) := [("app", 0), ("db", 19)]
    let calls : List (String × ℕ) :=
      [("app", 20), ("db", 21), ("app", 22), ("app", 22), ("app", 23), ("app", 24), ("app", 30)]
    ((new exact).offerAll earlier).forwardedOf "app" calls = 5 ∧
      ((new binary).offerAll earlier).forwardedOf "app" calls = 5 := by
  intro exact binary earlier calls
  have hfirst : AreFirst 10 (instantsOf "app" earlier) (instantsOf "app" calls) := by decide
  have hsix : (instantsOf "app" calls).length = 6 := by decide
  obtain ⟨hexact, hbinary⟩ := forwardedOf_eq_min "app" earlier calls 10 hfirst
  rw [hsix] at hexact hbinary
  have hm : (1 : ℚ) < 3 / 2 := by norm_num
  have hfive : min 6 {j : ℕ | (3 / 2 : ℚ) ^ j ≤ (6 : ℕ)}.ncard = 5 := by
    rw [← forwardedBy_eq hm]
    decide +kernel
  have hvalue : BinaryFraction.value ⟨3, -1⟩ = 3 / 2 := by norm_num [BinaryFraction.value]
  refine ⟨(hexact exact rfl hm).trans hfive, ?_⟩
  rw [← hvalue] at hm hfive
  refine (hbinary binary ⟨3, -1⟩ rfl rfl hm (by decide) fun j hj hbelow => ?_).trans hfive
  have hshort : BinaryFraction.IsShort ⟨3 ^ j, -j⟩ := by
    constructor
    · exact (Nat.pow_le_pow_right (by decide) hj.le).trans_lt (by decide : 3 ^ 6 < 2 ^ 53)
    · show (-1074 : ℤ) ≤ -j
      omega
  have hpower : BinaryFraction.value ⟨3 ^ j, -j⟩ = BinaryFraction.value ⟨3, -1⟩ ^ j := by
    rw [hvalue, BinaryFraction.value, zpow_neg, zpow_natCast, div_pow, div_eq_mul_inv]
    push_cast
    rfl
  rw [← hpower] at hbelow ⊢
  exact Binary64.representable_of_isShort hshort (hbelow.le.trans (by norm_num))

/-- The power that is ahead of the count has to be one of the format too.  The square of this factor
is greater than 17, but it is rounded to 17, so that the call with this number is forwarded. -/
example :
    let m : BinaryFraction := ⟨0x107e0f66afed07, -50⟩
    17 < m.value ^ 2 ∧
      ((Binary64.finite false m).mul (.finite false m)).le (.ofNat 17) = true := by
  refine ⟨?_, by decide +kernel⟩
  norm_num [BinaryFraction.value]

end Trigger

end LogShipper
