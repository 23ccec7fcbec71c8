import B3Chain.Machine.Run
import B3Chain.Stratum.Client

/-!
# Which way the difficulty moves

A retune compares the shares of a window with its length, but a window is
closed as soon as it is `retuneSeconds` old.  Where that is less than
`targetSeconds`, one share in a window looks too frequent however rare shares
are, and an empty window is restarted before it is old enough to lower the
difficulty.  The difficulty is raised at a retune if the window is too short
for its shares, and only then, up to a margin for the rounding of doubles; it
is lowered in a stretch without shares if retunes find empty windows that are
old enough.
-/

namespace B3Chain.Stratum

namespace Vardiff

open Machine Words.Double

/-! ## One retune -/

/-- The shares a window is compared with; an empty one counts as one share. -/
def counted (vardiff : Vardiff) : Nat :=
  max vardiff.sharesInWindow 1

/-- The retune gets as far as comparing. -/
def Acts (params : VardiffParams) (now : Int) (vardiff : Vardiff) : Prop :=
  params.retuneSeconds ≤ vardiff.age now ∧
    (vardiff.sharesInWindow = 0 → params.targetSeconds ≤ vardiff.age now)

instance decidableActs (params : VardiffParams) (now : Int)
    (vardiff : Vardiff) : Decidable (vardiff.Acts params now) :=
  inferInstanceAs (Decidable (_ ∧ (_ → _)))

section

variable {params : VardiffParams} {vardiff : Vardiff} {now : Int}

theorem counted_pos : (0 : ℚ) < vardiff.counted :=
  Nat.cast_pos.mpr (lt_max_of_lt_right Nat.one_pos)

theorem near_observedInterval (vardiff : Vardiff) {elapsed : ℚ}
    (nonneg : 0 ≤ elapsed) :
    Near 1 (vardiff.observedInterval elapsed) (elapsed / vardiff.counted) := by
  rw [observedInterval, counted]
  split
  · next some =>
      rw [Nat.max_eq_left some]
      exact near_nearest (div_nonneg nonneg (Nat.cast_nonneg _))
  · next none =>
      rw [Nat.max_eq_right (by omega), Nat.cast_one, div_one]
      exact near_self nonneg

theorem near_ratio (vardiff : Vardiff) {elapsed : ℚ}
    (target : 0 < params.targetSeconds) (positive : 0 < elapsed) :
    Near 2 (vardiff.ratio params elapsed)
      (params.targetSeconds * vardiff.counted / elapsed) := by
  have interval := vardiff.near_observedInterval positive.le
  have exact : 0 < elapsed / vardiff.counted := div_pos positive counted_pos
  have observed := interval.pos exact
  rw [ratio, if_pos target, if_pos observed, ← div_div_eq_mul_div]
  have rounded := near_nearest (div_nonneg target.le observed.le)
  have both := rounded.trans (interval.const_div target.le observed exact)
  exact both

theorem ratio_of_not_pos {elapsed : ℚ}
    (none : ¬ (0 < params.targetSeconds ∧ 0 < elapsed)) :
    vardiff.ratio params elapsed = 1 := by
  rw [ratio]
  split
  · next target =>
      have nonpos := not_lt.mp fun positive => none ⟨target, positive⟩
      refine if_neg (not_lt.mpr ?_)
      rw [observedInterval]
      split
      · exact nearest_nonpos
          (div_nonpos_of_nonpos_of_nonneg nonpos (Nat.cast_nonneg _))
      · exact nonpos
  · rfl

/-- The difficulty is within bounds that make sense. -/
structure Sane (params : VardiffParams) (vardiff : Vardiff) : Prop where
  positive : 0 < params.minDiff
  low : params.minDiff ≤ vardiff.currentDiff
  high : vardiff.currentDiff ≤ params.maxDiff

theorem Sane.pos (sane : vardiff.Sane params) : 0 < vardiff.currentDiff :=
  sane.positive.trans_le sane.low

theorem Sane.retuned_bounds (sane : vardiff.Sane params) (elapsed : ℚ) :
    params.minDiff ≤ retuned params vardiff elapsed ∧
      retuned params vardiff elapsed ≤ params.maxDiff := by
  rw [retuned]
  exact ⟨le_min (le_max_right _ _) (sane.low.trans sane.high),
    min_le_right _ _⟩

/-! ## Room for rounding

Six roundings stand between a window and the decision.  What they change is
far below the margin.
-/

/-- What is asked for beyond a tenth. -/
def margin : ℚ := 1 / 10 ^ 12

theorem near_change {current : ℚ} (positive : 0 < current) (next : ℚ) :
    Near 2 (nearest (|nearest (next - current)| / current))
      (|next - current| / current) := by
  have rounded := near_nearest
    (div_nonneg (abs_nonneg (nearest (next - current))) positive.le)
  have both := rounded.trans ((near_abs_nearest _).div positive.le)
  exact both

/-- A change that is made is one of a tenth. -/
theorem tenth_of_not_slight {current next : ℚ} (positive : 0 < current)
    (made : ¬ Slight current next) :
    current ≤ 10 * |next - current| * factor ^ 3 := by
  have change := (near_change positive next).1
  have tenth := (near_nearest (x := 1 / 10) (by norm_num)).2
  rw [Slight, not_lt] at made
  rw [div_mul_eq_mul_div, le_div_iff₀ positive] at change
  rw [factor] at change tenth ⊢
  nlinarith

/-- A change of a tenth and a little more is made. -/
theorem not_slight_of_tenth {current next : ℚ} (positive : 0 < current)
    (large : current * factor ^ 3 ≤ 10 * |next - current|) :
    ¬ Slight current next := by
  have change := (near_change positive next).2
  have tenth := (near_nearest (x := 1 / 10) (by norm_num)).1
  rw [Slight, not_lt]
  rw [div_le_iff₀ positive] at change
  rw [factor] at change tenth large
  nlinarith

theorem multiplier_pos (wide : 1 < params.maxStep) (elapsed : ℚ) :
    0 < vardiff.multiplier params elapsed := by
  have inverse : 0 < 1 / params.maxStep := by positivity
  exact lt_max_of_lt_right ((near_nearest inverse.le).pos inverse)

theorem Sane.near_product (sane : vardiff.Sane params)
    (wide : 1 < params.maxStep) (elapsed : ℚ) :
    Near 1 (nearest (vardiff.currentDiff * vardiff.multiplier params elapsed))
      (vardiff.currentDiff * vardiff.multiplier params elapsed) :=
  near_nearest (mul_pos sane.pos (multiplier_pos wide elapsed)).le

/-- A product that is a tenth higher comes of a window that is too short. -/
theorem Sane.of_le_product (sane : vardiff.Sane params)
    (wide : 1 < params.maxStep) {elapsed : ℚ}
    (large : (11 / 10 - margin) * factor ^ 3 * vardiff.currentDiff ≤
      nearest (vardiff.currentDiff * vardiff.multiplier params elapsed)) :
    ((0 < params.targetSeconds ∧ 0 < elapsed) ∧
      (11 / 10 - margin) * elapsed ≤
        params.targetSeconds * vardiff.counted) ∧
      11 / 10 - margin ≤ params.maxStep := by
  have positive := sane.pos
  have product := (sane.near_product wide elapsed).1
  have step : (11 / 10 - margin) * factor ^ 2 ≤
      vardiff.multiplier params elapsed := by
    rw [margin, factor] at *
    nlinarith
  have inverse := (near_nearest (one_div_nonneg.mpr
    (zero_lt_one.trans wide).le : 0 ≤ 1 / params.maxStep)).1
  have small : 1 / params.maxStep < 1 :=
    (div_lt_one (zero_lt_one.trans wide)).mpr wide
  have clamped : ¬ (11 / 10 - margin) * factor ^ 2 ≤
      nearest (1 / params.maxStep) := by
    rw [not_le]
    rw [margin, factor] at *
    linarith
  rw [multiplier, le_max_iff, or_iff_left clamped, le_min_iff] at step
  obtain ⟨frequent, reach⟩ := step
  refine ⟨?_, ?_⟩
  · by_cases both : 0 < params.targetSeconds ∧ 0 < elapsed
    · refine ⟨both, ?_⟩
      have bound := frequent.trans (vardiff.near_ratio both.1 both.2).1
      have scaled := le_of_mul_le_mul_right bound (by rw [factor]; positivity)
      exact (le_div_iff₀ both.2).mp scaled
    · rw [ratio_of_not_pos both, margin, factor] at frequent
      norm_num at frequent
  · rw [margin, factor] at *
    linarith

/-- A window that is too short makes the difficulty a tenth higher. -/
theorem Sane.le_retuned (sane : vardiff.Sane params)
    (wide : 1 < params.maxStep) {elapsed : ℚ}
    (target : 0 < params.targetSeconds) (aged : 0 < elapsed)
    (short : (11 / 10 + margin) * elapsed ≤
      params.targetSeconds * vardiff.counted)
    (reach : 11 / 10 + margin ≤ params.maxStep)
    (room : (11 / 10 + margin) * vardiff.currentDiff ≤ params.maxDiff) :
    (11 / 10 + margin) * vardiff.currentDiff ≤
      retuned params vardiff elapsed * factor ^ 3 := by
  have positive := sane.pos
  have product := (sane.near_product wide elapsed).2
  have frequent := ((le_div_iff₀ aged).mpr short).trans
    (vardiff.near_ratio target aged).2
  have grown : (1 : ℚ) ≤ factor ^ 2 := one_le_pow₀ one_le_factor
  have step : 11 / 10 + margin ≤
      vardiff.multiplier params elapsed * factor ^ 2 := by
    have low : min (vardiff.ratio params elapsed) params.maxStep ≤
        vardiff.multiplier params elapsed := le_max_left _ _
    refine le_trans ?_ (mul_le_mul_of_nonneg_right low (by positivity))
    rw [min_mul_of_nonneg _ _ (by positivity)]
    exact le_min frequent (by nlinarith)
  rw [retuned, min_mul_of_nonneg _ _ (by rw [factor]; positivity)]
  refine le_min ?_ ?_
  · refine le_trans ?_ (mul_le_mul_of_nonneg_right (le_max_left _ _)
      (by rw [factor]; positivity))
    rw [factor] at *
    nlinarith
  · have top := sane.positive.trans_le (sane.low.trans sane.high)
    have more : (1 : ℚ) ≤ factor ^ 3 := one_le_pow₀ one_le_factor
    nlinarith

/-- An empty window that is old enough makes the difficulty a tenth lower. -/
theorem Sane.retuned_le (sane : vardiff.Sane params) {elapsed : ℚ}
    (target : 0 < params.targetSeconds)
    (long : (10 / 9 + margin) * params.targetSeconds ≤ elapsed)
    (none : vardiff.sharesInWindow = 0)
    (reach : 10 / 9 + margin ≤ params.maxStep)
    (room : params.minDiff ≤ (9 / 10 - margin / 2) * vardiff.currentDiff) :
    retuned params vardiff elapsed ≤
      (9 / 10 - margin / 2) * vardiff.currentDiff := by
  have positive := sane.pos
  have wide : 1 < params.maxStep := by
    rw [margin] at reach
    linarith
  have aged : 0 < elapsed := by
    rw [margin] at long
    linarith
  have product := (sane.near_product wide elapsed).1
  have step : vardiff.multiplier params elapsed * (10 / 9 + margin) ≤
      factor ^ 2 := by
    have some : (0 : ℚ) ≤ 10 / 9 + margin := by norm_num [margin]
    rw [multiplier, max_mul_of_nonneg _ _ some]
    refine max_le ?_ ?_
    · have rare := vardiff.near_ratio target aged
      rw [counted, none, Nat.zero_max, Nat.cast_one, mul_one] at rare
      refine (mul_le_mul_of_nonneg_right (min_le_left _ _) some).trans
        (rare.mul_le some ?_)
      rw [div_mul_eq_mul_div, div_le_one aged, mul_comm]
      exact long
    · have inverse : Near 1 (nearest (1 / params.maxStep))
          (1 / params.maxStep) := near_nearest (by positivity)
      refine (inverse.mul_le some ?_).trans
        (pow_le_pow_right₀ one_le_factor one_le_two)
      rwa [div_mul_eq_mul_div, one_mul, div_le_one (by linarith)]
  rw [retuned]
  refine (min_le_left _ _).trans (max_le ?_ room)
  rw [margin, factor] at *
  nlinarith

/-- A retune that does not act keeps the difficulty and the shares. -/
theorem maybeRetune_of_not_acts (idle : ¬ vardiff.Acts params now) :
    (vardiff.maybeRetune params now).2.currentDiff = vardiff.currentDiff ∧
      (vardiff.maybeRetune params now).2.sharesInWindow =
        vardiff.sharesInWindow := by
  rw [maybeRetune]
  split
  · exact ⟨rfl, rfl⟩
  · next old =>
      split
      · exact ⟨rfl, rfl⟩
      · next comparing =>
          refine absurd ⟨not_lt.mp old, fun none => ?_⟩ idle
          exact not_lt.mp fun young => comparing ⟨none, young⟩

/-- A retune that acts starts a new window. -/
theorem maybeRetune_of_acts (acts : vardiff.Acts params now) :
    (vardiff.maybeRetune params now).2 =
      { currentDiff :=
          if Slight vardiff.currentDiff
              (retuned params vardiff (vardiff.age now)) then
            vardiff.currentDiff
          else retuned params vardiff (vardiff.age now)
        windowStart := now
        sharesInWindow := 0 } := by
  have comparing : ¬ (vardiff.sharesInWindow = 0 ∧
      vardiff.age now < params.targetSeconds) :=
    fun young => absurd (acts.2 young.1) (not_le.mpr young.2)
  rw [maybeRetune]
  dsimp only
  rw [if_neg (not_lt.mpr acts.1), if_neg comparing]
  split
  · rfl
  · rfl

/-- The difficulty after a retune. -/
theorem currentDiff_cases (params : VardiffParams) (vardiff : Vardiff)
    (now : Int) :
    (vardiff.Acts params now ∧
      ¬ Slight vardiff.currentDiff
        (retuned params vardiff (vardiff.age now)) ∧
      (vardiff.maybeRetune params now).2.currentDiff =
        retuned params vardiff (vardiff.age now)) ∨
    (vardiff.maybeRetune params now).2.currentDiff = vardiff.currentDiff := by
  by_cases acts : vardiff.Acts params now
  · rw [maybeRetune_of_acts acts]
    dsimp only
    by_cases small : Slight vardiff.currentDiff
        (retuned params vardiff (vardiff.age now))
    · exact .inr (if_pos small)
    · exact .inl ⟨acts, small, if_neg small⟩
  · exact .inr (maybeRetune_of_not_acts acts).1

theorem Sane.maybeRetune (sane : vardiff.Sane params) :
    (vardiff.maybeRetune params now).2.Sane params := by
  obtain ⟨low, high⟩ := sane.retuned_bounds (vardiff.age now)
  obtain ⟨-, -, same⟩ | same := currentDiff_cases params vardiff now
  · exact ⟨sane.positive, same ▸ low, same ▸ high⟩
  · exact ⟨sane.positive, same ▸ sane.low, same ▸ sane.high⟩

end

/-! ## Runs -/

/-- What happens to the difficulty of a connection, and when. -/
inductive Tick
  | share (time : Int)
  | call (now : Int)

/-- When it happens. -/
def Tick.time : Tick → Int
  | .share time => time
  | .call now => now

/-- The difficulty after a share or a retune. -/
def take (params : VardiffParams) (vardiff : Vardiff) : Tick → Vardiff
  | .share _ => vardiff.onShareAccepted
  | .call now => (vardiff.maybeRetune params now).2

/-- The machine of shares and retunes. -/
def step (params : VardiffParams) (vardiff : Vardiff) (tick : Tick) :
    Option Vardiff :=
  some (vardiff.take params tick)

/-- The difficulty is raised. -/
def Raises (params : VardiffParams) (vardiff : Vardiff) (tick : Tick) : Prop :=
  vardiff.currentDiff < (vardiff.take params tick).currentDiff

/-- A retune finds the window too short for its shares, and there is room for
a higher difficulty. -/
def Crowded (params : VardiffParams) (excess : ℚ) (vardiff : Vardiff) :
    Tick → Prop
  | .share _ => False
  | .call now =>
    vardiff.Acts params now ∧
      ((0 < params.targetSeconds ∧ 0 < vardiff.age now) ∧
        excess * vardiff.age now ≤
          params.targetSeconds * vardiff.counted) ∧
      excess ≤ params.maxStep ∧
      excess * vardiff.currentDiff ≤ params.maxDiff

/-- There is no room for a tenth more, with a margin. -/
def Uncrowded (params : VardiffParams) (vardiff : Vardiff) (tick : Tick) :
    Prop :=
  ¬ vardiff.Crowded params (11 / 10 - margin) tick

section

variable {params : VardiffParams} {vardiff next final : Vardiff}

theorem Sane.take (sane : vardiff.Sane params) (tick : Tick) :
    (vardiff.take params tick).Sane params := by
  cases tick with
  | share time => exact ⟨sane.positive, sane.low, sane.high⟩
  | call now => exact sane.maybeRetune

theorem Sane.crowded_of_raises (sane : vardiff.Sane params)
    (wide : 1 < params.maxStep) {tick : Tick}
    (raises : vardiff.Raises params tick) :
    vardiff.Crowded params (11 / 10 - margin) tick := by
  cases tick with
  | share time => exact absurd raises (lt_irrefl _)
  | call now =>
    rw [Raises, Vardiff.take] at raises
    obtain ⟨acts, made, same⟩ | same := currentDiff_cases params vardiff now
    · rw [same] at raises
      have low := sane.low
      have positive := sane.pos
      have tenth := tenth_of_not_slight positive made
      rw [abs_of_pos (sub_pos.mpr raises)] at tenth
      have large : (11 / 10 - margin) * factor ^ 3 * vardiff.currentDiff ≤
          retuned params vardiff (vardiff.age now) := by
        rw [margin, factor] at *
        linarith
      rw [retuned, le_min_iff, le_max_iff, or_iff_left] at large
      · obtain ⟨short, reach⟩ := sane.of_le_product wide large.1
        refine ⟨acts, short, reach, le_trans ?_ large.2⟩
        rw [margin, factor]
        linarith
      · rw [not_le, margin, factor]
        linarith
    · exact absurd raises (same ▸ lt_irrefl _)

theorem Sane.raises_of_crowded (sane : vardiff.Sane params)
    (wide : 1 < params.maxStep) {tick : Tick}
    (crowded : vardiff.Crowded params (11 / 10 + margin) tick) :
    vardiff.Raises params tick := by
  cases tick with
  | share time => exact crowded.elim
  | call now =>
    obtain ⟨acts, ⟨⟨target, aged⟩, short⟩, reach, room⟩ := crowded
    have positive := sane.pos
    have large := sane.le_retuned wide target aged short reach room
    rw [margin] at large
    have higher : vardiff.currentDiff <
        retuned params vardiff (vardiff.age now) := by
      rw [factor] at large
      linarith
    have made : ¬ Slight vardiff.currentDiff
        (retuned params vardiff (vardiff.age now)) := by
      refine not_slight_of_tenth positive ?_
      rw [abs_of_pos (sub_pos.mpr higher)]
      rw [factor] at *
      linarith
    rw [Raises, Vardiff.take, maybeRetune_of_acts acts, if_neg made]
    exact higher

/-! ## A stretch without shares -/

/-- A retune that finds an old window finds it so old, if it is empty, that
the difficulty is lowered, unless it is as low as it can be. -/
def Restful (params : VardiffParams) (vardiff : Vardiff) : Tick → Prop
  | .share _ => True
  | .call now =>
    params.retuneSeconds ≤ vardiff.age now → vardiff.sharesInWindow = 0 →
      (10 / 9 + margin) * params.targetSeconds ≤ vardiff.age now ∧
        (vardiff.currentDiff = params.minDiff ∨
          params.minDiff ≤ (9 / 10 - margin / 2) * vardiff.currentDiff)

/-- The difficulty is lower than it was, or as low as it can be. -/
def Lowered (params : VardiffParams) (before after : Vardiff) : Prop :=
  after.currentDiff < before.currentDiff ∨
    after.currentDiff = params.minDiff

/-- What a stretch of retunes keeps. -/
theorem calm_run (wide : 1 < params.maxStep) (sane : vardiff.Sane params)
    {ticks : List Tick}
    (calm : Along (step params) (Uncrowded params) vardiff ticks)
    (taken : run (step params) vardiff ticks = some final) :
    final.Sane params ∧ final.currentDiff ≤ vardiff.currentDiff := by
  have kept : ∀ (v : Vardiff) (tick : Tick) (later : Vardiff),
      v.Sane params ∧ v.currentDiff ≤ vardiff.currentDiff →
        v.Uncrowded params tick → step params v tick = some later →
          later.Sane params ∧ later.currentDiff ≤ vardiff.currentDiff := by
    rintro v tick _ ⟨held, below⟩ uncrowded ⟨⟩
    refine ⟨held.take tick, (not_lt.mp ?_).trans below⟩
    exact mt (held.crowded_of_raises wide) uncrowded
  exact run_invariant kept ⟨sane, le_rfl⟩ calm taken

/-- A difficulty that was lowered stays so. -/
theorem Lowered.calm (wide : 1 < params.maxStep)
    (lowered : Lowered params vardiff next) (sane : next.Sane params)
    {ticks : List Tick}
    (calm : Along (step params) (Uncrowded params) next ticks)
    (taken : run (step params) next ticks = some final) :
    Lowered params vardiff final := by
  obtain ⟨held, below⟩ := calm_run wide sane calm taken
  obtain lower | least := lowered
  · exact .inl (below.trans_lt lower)
  · exact .inr (le_antisymm (below.trans_eq least) held.low)

/-- A retune of an empty window that is old enough. -/
theorem Sane.lowered_of_restful (sane : vardiff.Sane params)
    (wide : 10 / 9 + margin ≤ params.maxStep)
    (target : 0 < params.targetSeconds)
    {now : Int} (old : params.retuneSeconds ≤ vardiff.age now)
    (none : vardiff.sharesInWindow = 0)
    (uncrowded : vardiff.Uncrowded params (.call now))
    (restful : vardiff.Restful params (.call now)) :
    Lowered params vardiff (vardiff.take params (.call now)) := by
  obtain ⟨aged, least | room⟩ := restful old none
  · have above : 1 < params.maxStep := by
      rw [margin] at wide
      linarith
    have below : ¬ vardiff.Raises params (.call now) :=
      mt (sane.crowded_of_raises above) uncrowded
    refine .inr (le_antisymm ?_ (sane.take _).low)
    exact (not_lt.mp below).trans_eq least
  · have positive := sane.pos
    have small := sane.retuned_le target aged none wide room
    have acts : vardiff.Acts params now := by
      refine ⟨old, fun _ => ?_⟩
      rw [margin] at aged
      linarith
    rw [margin] at small
    have lower : retuned params vardiff (vardiff.age now) <
        vardiff.currentDiff := by
      linarith
    have made : ¬ Slight vardiff.currentDiff
        (retuned params vardiff (vardiff.age now)) := by
      refine not_slight_of_tenth positive ?_
      rw [abs_of_neg (sub_neg.mpr lower), factor]
      linarith
    refine .inl ?_
    rw [Vardiff.take, maybeRetune_of_acts acts, if_neg made]
    exact lower

/-- A retune of a young window does nothing. -/
theorem take_of_young {now : Int}
    (young : vardiff.age now < params.retuneSeconds) :
    vardiff.take params (.call now) = vardiff := by
  rw [take, maybeRetune]
  exact congrArg Prod.snd (if_pos young)

/-- The retunes follow one another within five seconds, up to the last
moment. -/
def Frequent : Int → List Int → Int → Prop
  | time, [], last => time ≤ last ∧ last ≤ time + 5000
  | time, now :: rest, last =>
    (time ≤ now ∧ now ≤ time + 5000) ∧ Frequent now rest last

instance decidableFrequent : (time : Int) → (calls : List Int) →
    (last : Int) → Decidable (Frequent time calls last)
  | time, [], last =>
    inferInstanceAs (Decidable (time ≤ last ∧ last ≤ time + 5000))
  | time, now :: rest, last =>
    have := decidableFrequent now rest last
    inferInstanceAs (Decidable
      ((time ≤ now ∧ now ≤ time + 5000) ∧ Frequent now rest last))

/-- The conditions of a stretch without shares. -/
def Calm (params : VardiffParams) (vardiff : Vardiff) (tick : Tick) : Prop :=
  vardiff.Restful params tick ∧ vardiff.Uncrowded params tick

instance decidableCalm (params : VardiffParams) (vardiff : Vardiff) :
    (tick : Tick) → Decidable (Calm params vardiff tick)
  | .share _ => isTrue ⟨trivial, id⟩
  | .call _ =>
    inferInstanceAs (Decidable ((_ → _ → _ ∧ (_ ∨ _)) ∧
      ¬ (_ ∧ ((_ ∧ _) ∧ _) ∧ _ ∧ _)))

theorem Calm.uncrowded {ticks : List Tick}
    (calm : Along (step params) (Calm params) vardiff ticks) :
    Along (step params) (Uncrowded params) vardiff ticks :=
  calm.imp fun _ _ both => both.2

/-- The parameters of a stretch: the target is more than twice the time
between two retunes, and a step can lower the difficulty by a tenth. -/
structure Patient (params : VardiffParams) : Prop where
  retune : 0 ≤ params.retuneSeconds
  target : 10 + margin * params.retuneSeconds ≤ params.targetSeconds
  wide : 10 / 9 + margin ≤ params.maxStep

theorem Patient.above (patient : Patient params) : 1 < params.maxStep := by
  have wide := patient.wide
  rw [margin] at wide
  linarith

theorem Patient.slow (patient : Patient params) :
    10 ≤ params.targetSeconds := by
  have retune := patient.retune
  have target := patient.target
  rw [margin] at target
  linarith

/-- The exact age of a window that is found young. -/
theorem now_le_of_age_le {now : Int} {bound : ℚ} (nonneg : 0 ≤ bound)
    (young : vardiff.age now ≤ bound) :
    (now : ℚ) ≤ vardiff.windowStart + 1000 * (bound * factor) := by
  obtain past | later := le_total now vardiff.windowStart
  · have pastQ : (now : ℚ) ≤ vardiff.windowStart := by exact_mod_cast past
    have grown := mul_nonneg nonneg (zero_le_one.trans one_le_factor)
    linarith
  · have laterQ : (vardiff.windowStart : ℚ) ≤ now := by exact_mod_cast later
    have exact := (near_nearest (x :=
      ((now - vardiff.windowStart : Int) : ℚ) / 1000)
        (by push_cast; linarith)).2
    have rounded := mul_le_mul_of_nonneg_right young
      (zero_le_one.trans one_le_factor)
    rw [pow_one] at exact
    push_cast at exact rounded
    rw [age] at rounded
    push_cast at rounded
    linarith

/-- An old window that is empty: the difficulty is lowered and stays so. -/
theorem lowered_of_old (patient : Patient params)
    (sane : vardiff.Sane params) {now : Int} {rest : List Tick}
    (old : params.retuneSeconds ≤ vardiff.age now)
    (none : vardiff.sharesInWindow = 0)
    (calm : Along (step params) (Calm params) vardiff (.call now :: rest))
    (taken : run (step params) vardiff (.call now :: rest) = some final) :
    Lowered params vardiff final := by
  have target : 0 < params.targetSeconds := by linarith [patient.slow]
  have lowered := sane.lowered_of_restful patient.wide target old none
    calm.1.2 calm.1.1
  exact lowered.calm patient.above (sane.take _)
    (Calm.uncrowded (calm.2 _ rfl)) taken

/-- How long the stretch has to go on, at least, behind a moment at which no
retune is due: until a retune finds an empty window, and for a whole window
before that if there are shares in this one. -/
def remaining (params : VardiffParams) (vardiff : Vardiff) : ℚ :=
  if vardiff.sharesInWindow = 0 then 5000
  else 1000 * (params.retuneSeconds * factor) + 10000

/-- After two windows without shares the difficulty is lowered. -/
theorem lowered_of_stretch (patient : Patient params)
    (sane : vardiff.Sane params) {time last : Int} {calls : List Int}
    (soon : (time : ℚ) + vardiff.remaining params < last)
    (long : (vardiff.windowStart : ℚ) +
      1000 * (params.retuneSeconds * factor) + vardiff.remaining params < last)
    (frequent : Frequent time calls last)
    (calm : Along (step params) (Calm params) vardiff (calls.map .call))
    (taken : run (step params) vardiff (calls.map .call) = some final) :
    Lowered params vardiff final := by
  have retune := patient.retune
  have grown := mul_nonneg retune (zero_le_one.trans one_le_factor)
  induction calls generalizing vardiff time with
  | nil =>
    have close : (last : ℚ) ≤ time + 5000 := by exact_mod_cast frequent.2
    rw [remaining] at soon
    split at soon
    · linarith
    · linarith
  | cons now calls induction =>
    by_cases old : params.retuneSeconds ≤ vardiff.age now
    · by_cases none : vardiff.sharesInWindow = 0
      · exact lowered_of_old patient sane old none calm taken
      · -- The window with shares is closed, and an empty one is opened.
        have restarted := maybeRetune_of_acts
          (show vardiff.Acts params now from
            ⟨old, fun empty => absurd empty none⟩)
        have near : (now : ℚ) ≤ time + 5000 := by
          exact_mod_cast frequent.1.2
        have fresh : (vardiff.take params (.call now)).windowStart = now :=
          congrArg windowStart restarted
        have empty : (vardiff.take params (.call now)).remaining params =
            5000 :=
          if_pos (congrArg sharesInWindow restarted)
        rw [remaining, if_neg none] at soon
        have lowered := induction (sane.take (.call now))
          (by rw [empty]; linarith) (by rw [fresh, empty]; linarith)
          frequent.2 (calm.2 _ rfl) taken
        have below : ¬ vardiff.Raises params (.call now) :=
          mt (sane.crowded_of_raises patient.above) calm.1.2
        exact lowered.imp_left fun lower =>
          lower.trans_le (not_lt.mp below)
    · have young := not_le.mp old
      have stepped : step params vardiff (.call now) = some vardiff :=
        congrArg some (take_of_young young)
      rw [List.map_cons, run, stepped] at taken
      have start := now_le_of_age_le retune young.le
      exact induction sane (by linarith) long frequent.2
        (calm.2 vardiff stepped) taken

/-- A window starts at a retune. -/
theorem windowStart_take (tick : Tick) :
    (vardiff.take params tick).windowStart = vardiff.windowStart ∨
      (vardiff.take params tick).windowStart = tick.time := by
  cases tick with
  | share time => exact .inl rfl
  | call now =>
    rw [take, maybeRetune]
    split
    · exact .inl rfl
    · split
      · exact .inr rfl
      · dsimp only
        split
        · exact .inr rfl
        · exact .inr rfl

theorem windowStart_le {since : Int} {ticks : List Tick}
    (started : vardiff.windowStart ≤ since)
    (past : ∀ tick ∈ ticks, tick.time ≤ since)
    (taken : run (step params) vardiff ticks = some final) :
    final.windowStart ≤ since := by
  have kept : ∀ (v : Vardiff) (tick : Tick) (later : Vardiff),
      v.windowStart ≤ since → tick.time ≤ since →
        step params v tick = some later → later.windowStart ≤ since := by
    rintro v tick _ held before ⟨⟩
    obtain same | now := windowStart_take tick
    · exact same.trans_le held
    · exact now.trans_le before
  exact run_invariant kept started
    (along_of_forall (fun tick member _ => past tick member) _) taken

end

/--
In every run from a sane start the difficulty is never raised if no retune
finds the window crowded, and only if none finds it so with the margin on the
other side; and after a stretch without shares of more than the target and two
windows it is lowered or as low as it can be, if the stretch is calm.
-/
theorem moves_in_right_direction {params : VardiffParams}
    (wide : 1 < params.maxStep) {start : Int}
    (sane : (new params start).Sane params) {ticks : List Tick}
    {vardiff : Vardiff}
    (taken : run (step params) (new params start) ticks = some vardiff) :
    ((Along (step params) (Uncrowded params) (new params start) ticks →
        Along (step params) (fun v tick => ¬ v.Raises params tick)
          (new params start) ticks) ∧
      (Along (step params) (fun v tick => ¬ v.Raises params tick)
          (new params start) ticks →
        Along (step params)
          (fun v tick => ¬ v.Crowded params (11 / 10 + margin) tick)
          (new params start) ticks)) ∧
    ∀ (since last : Int) (calls : List Int) (final : Vardiff),
      Patient params → start ≤ since → (∀ tick ∈ ticks, tick.time ≤ since) →
      Frequent since calls last →
      (since : ℚ) +
        1000 * (params.targetSeconds + 2 * params.retuneSeconds) < last →
      Along (step params) (Calm params) vardiff (calls.map .call) →
      run (step params) vardiff (calls.map .call) = some final →
        Lowered params vardiff final := by
  have kept {condition : Vardiff → Tick → Prop} : ∀ v tick next,
      v.Sane params → condition v tick → step params v tick = some next →
        next.Sane params := by
    rintro v tick _ held - ⟨⟩
    exact held.take tick
  refine ⟨⟨along_of_invariant kept
      (fun v tick held => mt (held.crowded_of_raises wide)) sane,
    along_of_invariant kept
      (fun v tick held => mt (held.raises_of_crowded wide)) sane⟩, ?_⟩
  intro since last calls final patient started past frequent long calm later
  have held := run_invariant kept sane
    (along_of_forall (fun _ _ _ => trivial) _) taken
  have before : (vardiff.windowStart : ℚ) ≤ since := by
    exact_mod_cast windowStart_le started past taken
  have retune := patient.retune
  have target := patient.target
  have grown := mul_nonneg retune (zero_le_one.trans one_le_factor)
  have short : vardiff.remaining params ≤
      1000 * (params.retuneSeconds * factor) + 10000 := by
    rw [remaining]
    split
    · linarith
    · exact le_rfl
  have enough : 10 + 2 * (params.retuneSeconds * factor) ≤
      params.targetSeconds + 2 * params.retuneSeconds := by
    rw [margin] at target
    rw [factor]
    linarith
  exact lowered_of_stretch patient held (by linarith) (by linarith) frequent
    calm later

/-- Retunes every thirty seconds and shares every thirty-six. -/
def tightParams : VardiffParams where
  targetSeconds := 36
  retuneSeconds := 30
  minDiff := 1
  maxDiff := 1000
  initialDiff := 100
  maxStep := 4

/-- The difficulty after a run. -/
def difficultyAfter (params : VardiffParams) (ticks : List Tick) :
    Option ℚ :=
  (run (step params) (new params 0) ticks).map currentDiff

/-- Retunes every five seconds. -/
def everyFive (count : Nat) : List Int :=
  (List.range count).map fun index => 5000 * (index + 1)

/-- One share raises the difficulty, and a stretch without any share, longer
than the target and two windows, leaves it where it was. -/
theorem one_share_raises_and_silence_keeps :
    difficultyAfter tightParams [] = some 100 ∧
      Frequent 0 (everyFive 6) 30000 ∧
      difficultyAfter tightParams
        (.share 1000 :: (everyFive 6).map .call) = some 120 ∧
      Frequent 0 (everyFive 22) 110000 ∧
      1000 * (tightParams.targetSeconds + 2 * tightParams.retuneSeconds) <
        110000 ∧
      difficultyAfter tightParams ((everyFive 22).map .call) = some 100 := by
  refine ⟨?_, ?_, ?_, ?_, ?_, ?_⟩ <;> decide +kernel

/-- Retunes that find each window fourteen seconds old. -/
def calmParams : VardiffParams where
  targetSeconds := 12
  retuneSeconds := 9
  minDiff := 1
  maxDiff := 1000
  initialDiff := 100
  maxStep := 4

/-- The retunes of thirty and a half seconds. -/
def calmCalls : List Int :=
  [5000, 8900, 13900, 18900, 22800, 27800]

/-- Two windows without shares lower the difficulty. -/
theorem calm_stretch_lowers :
    ∃ final, run (step calmParams) (new calmParams 0)
        (calmCalls.map .call) = some final ∧
      Lowered calmParams (new calmParams 0) final := by
  have sane : (new calmParams 0).Sane calmParams := by
    constructor <;> decide +kernel
  have patient : Patient calmParams := by
    constructor <;> decide +kernel
  obtain ⟨final, taken⟩ := Option.isSome_iff_exists.mp
    (show (run (step calmParams) (new calmParams 0)
      (calmCalls.map .call)).isSome = true by decide +kernel)
  refine ⟨final, taken, ?_⟩
  have begun : run (step calmParams) (new calmParams 0) [] =
      some (new calmParams 0) := rfl
  have moves := moves_in_right_direction (by decide +kernel) sane begun
  exact moves.2 0 30500 calmCalls final patient le_rfl nofun
    (by decide +kernel) (by decide +kernel) (by decide +kernel) taken

end Vardiff

end B3Chain.Stratum
