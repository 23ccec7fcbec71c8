import B3Chain.Machine.Run
import B3Chain.Stratum.Difficulties
import B3Chain.Words.JsNumber

/-!
# The difficulty the translator announces

The translator bridges a Stratum V1 miner to a channel of the pool.  It does
not announce the target of the channel-open reply, pushes its own initial
difficulty whenever the miner authorizes, and turns the target of a SetTarget
into a difficulty by a division without remainder.  The shares a miner finds
meet the channel's target in every state exactly if no step leaves an
announced difficulty that is too low for it.
-/

namespace B3Chain.Sv2

open Words
open Stratum (ClientState minShareDifficulty poolDiff1Target scaledDiff
  targetFromShareDifficulty)
open Machine (run Along Throughout)

/-! ## The bridge -/

/-- `BridgeState`, with the target the upstream set last. -/
structure Bridge where
  state : ClientState
  lastNotifiedDiff : Option ℚ
  connected : Bool
  connecting : Bool
  resolved : Nat
  channelTarget : Option Nat

/-- What can happen on the two sides. -/
inductive BridgeEvent
  | subscribe
  | opened (target : List Byte)
  | subscribed
  | authorize
  | suggestDifficulty
  | setTarget (maxTarget : List Byte)

/-- `bigIntFromBytesBE`. -/
def bigIntFromBytesBE (b : List Byte) : Nat :=
  leValue b.reverse

/-- The difficulty of a target: `Number(POOL_DIFF1_TARGET / tgt)`. -/
def targetDifficulty (tgt : Nat) : Int :=
  JsNumber.roundDouble (poolDiff1Target / tgt : Nat)

namespace Bridge

/-- A bridge that was just accepted. -/
def accepted : Bridge where
  state := .new
  lastNotifiedDiff := none
  connected := false
  connecting := false
  resolved := 0
  channelTarget := none

/-- `pushDifficulty`. -/
def pushDifficulty (bridge : Bridge) (d : ℚ) : Bridge :=
  { bridge with lastNotifiedDiff := some d }

/-- `onSv2Target`. -/
def onSv2Target (bridge : Bridge) (maxTarget : List Byte) : Bridge :=
  let tgt := bigIntFromBytesBE maxTarget
  if tgt = 0 then bridge
  else
    let diff := targetDifficulty tgt
    if 0 < diff then bridge.pushDifficulty diff else bridge

/-- A step of the bridge.  `subscribe` calls `connect`, whose promise is
resolved when the channel is open; the call goes on later. -/
def step (initialDiff : ℚ) (bridge : Bridge) : BridgeEvent → Option Bridge
  | .subscribe => some { bridge with connected := true, connecting := true }
  | .opened target =>
    if bridge.connected then
      some { bridge with
        connecting := false
        resolved := bridge.resolved + bridge.connecting.toNat
        channelTarget := some (bigIntFromBytesBE target) }
    else none
  | .subscribed =>
    if bridge.resolved = 0 then none
    else some { bridge with
      state := .subscribed
      resolved := bridge.resolved - 1 }
  | .authorize =>
    some ({ bridge with state := .authorized }.pushDifficulty initialDiff)
  | .suggestDifficulty => some bridge
  | .setTarget maxTarget =>
    if bridge.connected then
      some ({ bridge with
        channelTarget := some (bigIntFromBytesBE maxTarget)
      }.onSv2Target maxTarget)
    else none

/-- Every hash that meets the announced difficulty meets the channel's
target. -/
def StrongEnough (bridge : Bridge) : Prop :=
  ∀ d ∈ bridge.lastNotifiedDiff, ∀ tgt ∈ bridge.channelTarget,
    ∀ shareTarget, targetFromShareDifficulty d = .ok shareTarget →
      ∀ hash ≤ shareTarget, hash ≤ tgt

end Bridge

/-! ## Difficulties and targets -/

/-- The difficulty is not too low for the target. -/
def Covers (d : ℚ) (tgt : Nat) : Prop :=
  minShareDifficulty ≤ d → poolDiff1Target * 1000000 < (tgt + 1) * scaledDiff d

instance (d : ℚ) (tgt : Nat) : Decidable (Covers d tgt) :=
  inferInstanceAs (Decidable (_ → _))

theorem covers_iff {d : ℚ} {tgt : Nat} :
    Covers d tgt ↔ ∀ shareTarget, targetFromShareDifficulty d =
      .ok shareTarget → ∀ hash ≤ shareTarget, hash ≤ tgt := by
  have at_most (least : minShareDifficulty ≤ d) :
      poolDiff1Target * 1000000 / scaledDiff d ≤ tgt ↔
        poolDiff1Target * 1000000 < (tgt + 1) * scaledDiff d := by
    rw [← Nat.lt_succ_iff,
      Nat.div_lt_iff_lt_mul (Stratum.scaledDiff_pos least)]
  constructor
  · intro covers shareTarget found hash meets
    obtain ⟨least, rfl⟩ :=
      Stratum.targetFromShareDifficulty_eq_ok_iff.mp found
    exact meets.trans ((at_most least).mpr (covers least))
  · intro strong least
    refine (at_most least).mp (strong _ ?_ _ le_rfl)
    exact Stratum.targetFromShareDifficulty_eq_ok_iff.mpr ⟨least, rfl⟩

theorem scaledDiff_intCast {n : Int} (positive : 0 < n) :
    scaledDiff n = n.toNat * 1000000 := by
  have floor : ⌊(n : ℚ) * 1000000 + 1 / 2⌋ = n * 1000000 := by
    rw [Int.floor_eq_iff]
    push_cast
    constructor <;> linarith
  rw [scaledDiff, floor]
  omega

/-- For a whole difficulty the millionths do not matter. -/
theorem covers_intCast_iff {n : Int} (positive : 0 < n) (tgt : Nat) :
    Covers n tgt ↔ poolDiff1Target < (tgt + 1) * n.toNat := by
  have least : minShareDifficulty ≤ (n : ℚ) := by
    have one : (1 : ℚ) ≤ n := by exact_mod_cast positive
    rw [minShareDifficulty]
    linarith
  rw [Covers, scaledDiff_intCast positive, ← mul_assoc]
  constructor
  · intro covers
    exact lt_of_mul_lt_mul_right (covers least) (Nat.zero_le _)
  · intro below _
    exact Nat.mul_lt_mul_of_pos_right below (by decide)

theorem roundDouble_pos {x : Int} (positive : 0 < x) :
    0 < JsNumber.roundDouble x := by
  rw [JsNumber.roundDouble]
  split
  case isTrue => exact positive
  case isFalse =>
    have nonzero : x.natAbs ≠ 0 := Int.natAbs_ne_zero.mpr positive.ne'
    -- The unit is at most the leading bit, so one of it fits.
    have unit : 2 ^ (x.natAbs.log2 - 52) ≤ x.natAbs :=
      (Nat.pow_le_pow_right Nat.two_pos (Nat.sub_le _ _)).trans
        (Nat.log2_self_le nonzero)
    have below : 0 < x.natAbs / 2 ^ (x.natAbs.log2 - 52) :=
      Nat.div_pos unit (Nat.two_pow_pos _)
    dsimp only
    rw [Int.sign_eq_one_of_pos positive, one_mul, Int.natCast_pos]
    refine Nat.mul_pos ?_ (Nat.two_pow_pos _)
    split
    case isTrue => exact below
    case isFalse => exact Nat.succ_pos _

/-- A difficulty is announced for targets up to that of difficulty one. -/
theorem targetDifficulty_pos_iff {tgt : Nat} :
    0 < targetDifficulty tgt ↔ 0 < tgt ∧ tgt ≤ poolDiff1Target := by
  rw [targetDifficulty, ← Nat.div_pos_iff]
  constructor
  · intro announced
    refine Nat.pos_of_ne_zero fun zero => ?_
    rw [zero] at announced
    exact absurd announced (by decide)
  · intro positive
    exact roundDouble_pos (Int.natCast_pos.mpr positive)

/-! ## Runs -/

namespace Bridge

/-- The difficulty announced for a SetTarget is not too low for it; if none
is announced, the one before is not. -/
def Enough (initialDiff : ℚ) (bridge : Bridge) : BridgeEvent → Prop
  | .opened target =>
    ∀ d ∈ bridge.lastNotifiedDiff, Covers d (bigIntFromBytesBE target)
  | .authorize => ∀ tgt ∈ bridge.channelTarget, Covers initialDiff tgt
  | .setTarget maxTarget =>
    let tgt := bigIntFromBytesBE maxTarget
    if 0 < tgt ∧ tgt ≤ poolDiff1Target then
      poolDiff1Target < (tgt + 1) * (targetDifficulty tgt).toNat
    else ∀ d ∈ bridge.lastNotifiedDiff, Covers d tgt
  | _ => True

instance (initialDiff : ℚ) (bridge : Bridge) :
    (event : BridgeEvent) → Decidable (bridge.Enough initialDiff event)
  | .opened _ | .authorize => inferInstanceAs (Decidable (∀ _ ∈ _, _))
  | .setTarget _ => inferInstanceAs (Decidable (ite _ _ _))
  | .subscribe | .subscribed | .suggestDifficulty => .isTrue trivial

theorem forall_mem_some {α : Type} {property : α → Prop} {value : α} :
    (∀ member ∈ some value, property member) ↔ property value := by
  simp

theorem strongEnough_iff {bridge : Bridge} :
    bridge.StrongEnough ↔ ∀ d ∈ bridge.lastNotifiedDiff,
      ∀ tgt ∈ bridge.channelTarget, Covers d tgt := by
  refine forall₂_congr fun d _ => forall₂_congr fun tgt _ => ?_
  exact covers_iff.symm

/-- What `onSv2Target` leaves announced. -/
theorem onSv2Target_eq (bridge : Bridge) (maxTarget : List Byte) :
    bridge.onSv2Target maxTarget =
      if 0 < bigIntFromBytesBE maxTarget ∧
          bigIntFromBytesBE maxTarget ≤ poolDiff1Target then
        bridge.pushDifficulty
          (targetDifficulty (bigIntFromBytesBE maxTarget))
      else bridge := by
  rw [onSv2Target]
  dsimp only
  by_cases zero : bigIntFromBytesBE maxTarget = 0
  · rw [if_pos zero, if_neg fun both => both.1.ne' zero]
  · rw [if_neg zero]
    exact if_congr targetDifficulty_pos_iff rfl rfl

/-- One step: the bridge is strong enough afterwards exactly if the step left
a difficulty that is. -/
theorem strongEnough_step {initialDiff : ℚ} {bridge next : Bridge}
    {event : BridgeEvent} (strong : bridge.StrongEnough)
    (stepped : bridge.step initialDiff event = some next) :
    next.StrongEnough ↔ bridge.Enough initialDiff event := by
  cases event with
  | subscribe | suggestDifficulty =>
    cases stepped
    exact iff_of_true strong trivial
  | subscribed =>
    obtain ⟨-, ⟨⟩⟩ := Option.ite_none_left_eq_some.mp stepped
    exact iff_of_true strong trivial
  | opened target =>
    obtain ⟨-, ⟨⟩⟩ := Option.ite_none_right_eq_some.mp stepped
    rw [strongEnough_iff]
    refine forall₂_congr fun d _ => ?_
    exact forall_mem_some
  | authorize =>
    cases stepped
    rw [strongEnough_iff]
    exact forall_mem_some
  | setTarget maxTarget =>
    obtain ⟨-, ⟨⟩⟩ := Option.ite_none_right_eq_some.mp stepped
    rw [onSv2Target_eq, Enough, strongEnough_iff]
    split_ifs with announced
    · have positive := targetDifficulty_pos_iff.mpr announced
      rw [← covers_intCast_iff positive]
      exact forall_mem_some.trans forall_mem_some
    · refine forall₂_congr fun d _ => ?_
      exact forall_mem_some

theorem strongEnough_accepted : accepted.StrongEnough := by
  intro d announced
  cases announced

/-- In every run the miner's shares are strong enough in every state exactly
if each step leaves a difficulty that is not too low for the target. -/
theorem translator_strong_enough_iff {initialDiff : ℚ} {final : Bridge}
    {events : List BridgeEvent}
    (taken : run (step initialDiff) accepted events = some final) :
    Throughout (step initialDiff) StrongEnough accepted events ↔
      Along (step initialDiff) (Enough initialDiff) accepted events := by
  have kept : ∀ state event next, StrongEnough state →
      step initialDiff state event = some next →
        (StrongEnough next ↔ Enough initialDiff state event) ∧
          (Enough initialDiff state event → StrongEnough next) := by
    intro state event next strong stepped
    have after := strongEnough_step strong stepped
    exact ⟨after, after.mpr⟩
  exact Machine.throughout_iff_along kept strongEnough_accepted
    strongEnough_accepted taken

/-- The bytes of a target with two digits after eight leading zeros. -/
def targetBytes (high low : Byte) : List Byte :=
  List.replicate 4 0 ++ [high, low] ++ List.replicate 26 0

/-- A channel at difficulty one, and a miner that starts with two. -/
theorem double_difficulty_strong_enough :
    (run (step 2) accepted [.subscribe, .opened (targetBytes 0xff 0xff),
        .subscribed, .authorize]).isSome ∧
      Throughout (step 2) StrongEnough accepted
        [.subscribe, .opened (targetBytes 0xff 0xff), .subscribed,
          .authorize] := by
  refine ⟨by decide +kernel, (translator_strong_enough_iff rfl).mpr ?_⟩
  decide +kernel

/-- For a target at difficulty one and a half the miner is told one. -/
theorem fractional_target_announced_too_low :
    ∃ final,
      run (step 1) accepted
        [.subscribe, .opened (targetBytes 0xaa 0xaa), .subscribed,
          .setTarget (targetBytes 0xaa 0xaa)] = some final ∧
      final.lastNotifiedDiff = some 1 ∧
      final.channelTarget = some (0xaaaa * 2 ^ 208) ∧
      ¬ final.StrongEnough := by
  refine ⟨_, rfl, by decide +kernel, by decide +kernel, ?_⟩
  intro strong
  have covers := strongEnough_iff.mp strong 1 (by decide +kernel)
    (0xaaaa * 2 ^ 208) (by decide +kernel)
  revert covers
  decide +kernel

end Bridge

end B3Chain.Sv2
