import Mathlib
import Rtype.Foundations.WeightedChoice
import Rtype.Foundations.WhileLoop

/-!
# Server - The level director

The director spends its credits on waves of enemies.  As long as it has credits it looks
for waves that cost at least half of them, then for any wave that it can pay, and draws
one of these by their weights.  The costs and the weights come from a file, and nobody
looks at them before.

Main results:

- Theorem {lit}`Director.turn_spec`: when a turn ends the loop, and what it picks otherwise.
- Theorem {lit}`Director.getPickedWaves_returns`: the pools for which the loop always ends.
- Theorem {lit}`Director.spends_iff`: the pools for which it spends what it can.
- Theorem {lit}`Director.draw_proportional`: each candidate is drawn as often as its weight
  says.

Current gaps:

- The credits are exact numbers.
-/

namespace Rtype.Server

open WhileLoop (Returns)

/-- {lit}`wave::Archetype`, with the fields that the choice of a wave reads. -/
structure Archetype where
  difficultyCost : ℤ
  weight : UInt64
deriving DecidableEq

/-- The outcomes of {lit}`std::uniform_int_distribution(1, totalWeight)`, by the number of
the draw. -/
structure Draws where
  value : ℕ → UInt64 → UInt64
  within : ∀ n totalWeight, totalWeight ≠ 0 → value n totalWeight ≠ 0 ∧
    value n totalWeight ≤ totalWeight

namespace Director

/-! ## One turn -/

/-- The credits that are left, and the waves that were picked. -/
structure Picking where
  credits : ℚ
  waves : List Archetype := []

/-- The waves that can be paid and cost at least half of the credits. -/
def preferred (wavePool : List Archetype) (credits : ℚ) : List Archetype :=
  let minSpend := credits * (1 / 2)
  wavePool.filter fun wave =>
    decide ((wave.difficultyCost : ℚ) ≤ credits) && decide ((wave.difficultyCost : ℚ) ≥ minSpend)

/-- The waves that can be paid. -/
def affordable (wavePool : List Archetype) (credits : ℚ) : List Archetype :=
  wavePool.filter fun wave => decide ((wave.difficultyCost : ℚ) ≤ credits)

/-- The candidates of a turn. -/
def candidates (wavePool : List Archetype) (credits : ℚ) : List Archetype :=
  if (preferred wavePool credits).isEmpty then
    affordable wavePool credits
  else
    preferred wavePool credits

/-- The sum of the weights, in 64 bits. -/
def totalWeight (waves : List Archetype) : UInt64 :=
  waves.foldl (fun total wave => total + wave.weight) 0

/-- The loop that looks for the wave that was drawn. -/
def select : UInt64 → List Archetype → Option Archetype
  | _, [] => none
  | randomValue, wave :: waves =>
      if randomValue ≤ wave.weight then
        some wave
      else
        select (randomValue - wave.weight) waves

/-- A turn of the loop of {lit}`Director::getPickedWaves`, or nothing when the loop ends. -/
def turn (wavePool : List Archetype) (draws : Draws) (n : ℕ) (picking : Picking) :
    Option Picking :=
  if picking.credits > 0 then
    let candidates := candidates wavePool picking.credits
    let totalWeight := totalWeight candidates
    if candidates.isEmpty || totalWeight == 0 then
      none
    else
      let randomValue := draws.value n totalWeight
      match (select randomValue candidates).or candidates.getLast? with
      | none => none
      | some selected =>
          some
            { credits := picking.credits - selected.difficultyCost
              waves := picking.waves ++ [selected] }
  else
    none

/-- {lit}`Director::getPickedWaves`: the waves with the credits that are left, when the
loop ends within a number of turns. -/
def getPickedWaves (fuel : ℕ) (wavePool : List Archetype) (draws : Draws) (credits : ℚ) :
    Option Picking :=
  WhileLoop.run (turn wavePool draws) fuel 0 { credits }

/-- The call returns. -/
def Picks (wavePool : List Archetype) (draws : Draws) (credits : ℚ) (picking : Picking) : Prop :=
  ∃ fuel, getPickedWaves fuel wavePool draws credits = some picking

/-! ## The draw -/

/-- The weight of a wave as a number. -/
def weightOf (wave : Archetype) : ℕ :=
  wave.weight.toNat

theorem toNat_totalWeight (waves : List Archetype) :
    (totalWeight waves).toNat = WeightedChoice.total weightOf waves % 2 ^ 64 :=
  WeightedChoice.toNat_wordTotal Archetype.weight waves

theorem select_eq_wordChoose (randomValue : UInt64) (waves : List Archetype) :
    select randomValue waves = WeightedChoice.wordChoose Archetype.weight randomValue waves := by
  induction waves generalizing randomValue with
  | nil => rfl
  | cons wave waves ih => rw [select, WeightedChoice.wordChoose, ih]

theorem select_eq (randomValue : UInt64) (waves : List Archetype) :
    select randomValue waves = WeightedChoice.choose weightOf randomValue.toNat waves := by
  rw [select_eq_wordChoose, WeightedChoice.wordChoose_eq]
  rfl

/-- Each draw finds a wave that has a weight. -/
theorem exists_select {waves : List Archetype} {randomValue : UInt64} (hpos : randomValue ≠ 0)
    (hle : randomValue ≤ totalWeight waves) :
    ∃ wave ∈ waves, wave.weight ≠ 0 ∧ select randomValue waves = some wave := by
  rw [select_eq_wordChoose]
  exact WeightedChoice.exists_wordChoose hpos hle

/-! ## What a turn does -/

section

variable {wavePool : List Archetype} {draws : Draws} {n : ℕ} {picking picking' : Picking}
  {wave : Archetype} {credits : ℚ}

theorem mem_affordable :
    wave ∈ affordable wavePool credits ↔
      wave ∈ wavePool ∧ (wave.difficultyCost : ℚ) ≤ credits := by
  rw [affordable, List.mem_filter, decide_eq_true_eq]

theorem mem_preferred :
    wave ∈ preferred wavePool credits ↔
      wave ∈ affordable wavePool credits ∧ credits * (1 / 2) ≤ wave.difficultyCost := by
  rw [preferred, List.mem_filter, mem_affordable, Bool.and_eq_true, decide_eq_true_eq,
    decide_eq_true_eq, and_assoc]

/-- The candidates can be paid. -/
theorem mem_affordable_of_mem_candidates (h : wave ∈ candidates wavePool credits) :
    wave ∈ affordable wavePool credits := by
  unfold candidates at h
  split_ifs at h
  · exact h
  · exact (mem_preferred.mp h).1

/-- The loop ends without credits, and when the candidates have no weight. -/
theorem turn_of_stop
    (h : picking.credits ≤ 0 ∨ totalWeight (candidates wavePool picking.credits) = 0) :
    turn wavePool draws n picking = none := by
  unfold turn
  split_ifs with hcredits
  · have hzero := h.resolve_left (not_le_of_gt hcredits)
    simp [hzero]
  · rfl

/-- Otherwise a wave that has a weight is picked among the candidates. -/
theorem turn_of_go (hcredits : 0 < picking.credits)
    (hweight : totalWeight (candidates wavePool picking.credits) ≠ 0) :
    ∃ wave ∈ candidates wavePool picking.credits, wave.weight ≠ 0 ∧
      select (draws.value n (totalWeight (candidates wavePool picking.credits)))
        (candidates wavePool picking.credits) = some wave ∧
      turn wavePool draws n picking =
        some
          { credits := picking.credits - wave.difficultyCost
            waves := picking.waves ++ [wave] } := by
  rcases draws.within n _ hweight with ⟨hpos, hle⟩
  rcases exists_select hpos hle with ⟨wave, hwave, hweight', hselect⟩
  refine ⟨wave, hwave, hweight', hselect, ?_⟩
  have hnonempty : (candidates wavePool picking.credits).isEmpty = false := by
    rw [List.isEmpty_eq_false_iff]
    exact List.ne_nil_of_mem hwave
  simp only [turn, gt_iff_lt, if_pos hcredits, hnonempty, Bool.false_or, beq_iff_eq,
    if_neg hweight, hselect, Option.some_or]

/-- The turns that end the loop. -/
theorem turn_eq_none_iff :
    turn wavePool draws n picking = none ↔
      picking.credits ≤ 0 ∨ totalWeight (candidates wavePool picking.credits) = 0 := by
  refine ⟨fun hnone => ?_, turn_of_stop⟩
  by_contra hgo
  rw [not_or, not_le] at hgo
  rcases turn_of_go hgo.1 hgo.2 with ⟨wave, _, _, _, hturn⟩
  rw [hnone] at hturn
  cases hturn

/-- What the other turns pick. -/
theorem turn_spec (h : turn wavePool draws n picking = some picking') :
    0 < picking.credits ∧
      ∃ wave ∈ affordable wavePool picking.credits, wave.weight ≠ 0 ∧
        picking' =
          { credits := picking.credits - wave.difficultyCost
            waves := picking.waves ++ [wave] } := by
  by_cases hstop : picking.credits ≤ 0 ∨
      totalWeight (candidates wavePool picking.credits) = 0
  · rw [turn_of_stop hstop] at h
    cases h
  · rw [not_or, not_le] at hstop
    rcases turn_of_go hstop.1 hstop.2 with ⟨wave, hwave, hweight, _, hturn⟩
    rw [hturn] at h
    cases h
    exact ⟨hstop.1, wave, mem_affordable_of_mem_candidates hwave, hweight, rfl⟩

end

/-! ## The end of the loop -/

/-- Waves that cost nothing, or less, have no weight. -/
def NoFreeWave (wavePool : List Archetype) : Prop :=
  ∀ wave ∈ wavePool, wave.difficultyCost ≤ 0 → wave.weight = 0

/-- No draw from the candidates at any credits selects a wave that costs nothing, or less. -/
def NoFreeDraw (wavePool : List Archetype) : Prop :=
  ∀ credits randomValue wave, 0 < credits → randomValue ≠ 0 →
    randomValue ≤ totalWeight (candidates wavePool credits) →
    select randomValue (candidates wavePool credits) = some wave → 0 < wave.difficultyCost

section

variable {wavePool : List Archetype} {draws : Draws} {n : ℕ} {picking picking' : Picking}
  {wave : Archetype} {credits : ℚ} {randomValue : UInt64}

/-- What a draw from the candidates selects. -/
theorem mem_of_select (hpos : randomValue ≠ 0)
    (hle : randomValue ≤ totalWeight (candidates wavePool credits))
    (hselect : select randomValue (candidates wavePool credits) = some wave) :
    wave ∈ wavePool ∧ wave.weight ≠ 0 := by
  rcases exists_select hpos hle with ⟨other, hother, hweight, hselect'⟩
  obtain rfl : wave = other := Option.some.inj (hselect.symm.trans hselect')
  exact ⟨(mem_affordable.mp (mem_affordable_of_mem_candidates hother)).1, hweight⟩

theorem noFreeDraw_of_noFreeWave (hfree : NoFreeWave wavePool) : NoFreeDraw wavePool := by
  intro credits randomValue wave _ hpos hle hselect
  by_contra hcost
  rcases mem_of_select hpos hle hselect with ⟨hwave, hweight⟩
  exact hweight (hfree wave hwave (not_lt.mp hcost))

/-- A turn costs a credit at least. -/
theorem ceil_credits_lt (hdraw : NoFreeDraw wavePool)
    (h : turn wavePool draws n picking = some picking') :
    ⌈picking'.credits⌉₊ < ⌈picking.credits⌉₊ := by
  have hgo := turn_eq_none_iff.not.mp (h ▸ Option.some_ne_none picking')
  rw [not_or, not_le] at hgo
  rcases hgo with ⟨hcredits, hweight⟩
  rcases turn_of_go hcredits hweight with ⟨wave, _, _, hselect, hturn⟩
  obtain rfl := Option.some.inj (h.symm.trans hturn)
  rcases draws.within n _ hweight with ⟨hpos, hle⟩
  have hcost : 1 ≤ wave.difficultyCost := hdraw _ _ wave hcredits hpos hle hselect
  have hcost' : (1 : ℚ) ≤ wave.difficultyCost := by exact_mod_cast hcost
  have hceil : 0 < ⌈picking.credits⌉₊ := Nat.ceil_pos.mpr hcredits
  have hless : ⌈picking.credits - wave.difficultyCost⌉₊ ≤ ⌈picking.credits⌉₊ - 1 := by
    rw [Nat.ceil_le, Nat.cast_sub hceil, Nat.cast_one]
    have hle := Nat.le_ceil picking.credits
    linarith
  exact hless.trans_lt (Nat.sub_lt hceil Nat.one_pos)

theorem picks_of_noFreeDraw (hdraw : NoFreeDraw wavePool) (draws : Draws) (credits : ℚ) :
    ∃ picking, Picks wavePool draws credits picking := by
  apply WhileLoop.exists_returns (P := fun _ => True) (fun picking => ⌈picking.credits⌉₊) trivial
  intro n picking picking' _ hturn
  exact ⟨trivial, ceil_credits_lt hdraw hturn⟩

/-- With many credits no wave is preferred, and all can be paid. -/
theorem candidates_of_large {credits : ℚ} (hcredits : 0 < credits)
    (hlarge : ∀ wave ∈ wavePool, 2 * (wave.difficultyCost : ℚ) < credits) :
    candidates wavePool credits = wavePool := by
  have hpreferred : preferred wavePool credits = [] := by
    rw [List.eq_nil_iff_forall_not_mem]
    intro wave hwave
    rw [mem_preferred, mem_affordable] at hwave
    have hbound := hlarge wave hwave.1.1
    linarith [hwave.2]
  have haffordable : affordable wavePool credits = wavePool := by
    rw [affordable, List.filter_eq_self]
    intro wave hwave
    have hbound := hlarge wave hwave
    rw [decide_eq_true_eq]
    linarith
  simp [candidates, hpreferred, haffordable]

/-- There are that many credits. -/
theorem exists_large (wavePool : List Archetype) :
    ∃ bound : ℚ, 0 ≤ bound ∧ ∀ wave ∈ wavePool, 2 * (wave.difficultyCost : ℚ) ≤ bound := by
  induction wavePool with
  | nil => exact ⟨0, le_rfl, nofun⟩
  | cons first rest ih =>
      rcases ih with ⟨bound, hpos, hbound⟩
      refine ⟨max bound (2 * first.difficultyCost), le_max_of_le_left hpos, ?_⟩
      intro wave hwave
      rcases List.mem_cons.mp hwave with rfl | hwave
      · exact le_max_right _ _
      · exact (hbound wave hwave).trans (le_max_left _ _)

/-- The draws that always give one number for a total. -/
def constantDraws (total randomValue : UInt64)
    (h : total ≠ 0 → randomValue ≠ 0 ∧ randomValue ≤ total) : Draws where
  value _ totalWeight := if totalWeight = total then randomValue else totalWeight
  within n totalWeight hpos := by
    split_ifs with htotal
    · subst htotal
      exact h hpos
    · exact ⟨hpos, UInt64.le_refl totalWeight⟩

theorem constantDraws_value {total randomValue : UInt64}
    (h : total ≠ 0 → randomValue ≠ 0 ∧ randomValue ≤ total) (n : ℕ) :
    (constantDraws total randomValue h).value n total = randomValue :=
  if_pos rfl

/-- A wave is picked forever when its draw leaves the candidates as they are. -/
theorem not_picks {P : ℚ → Prop} {offered : List Archetype} (hpos : randomValue ≠ 0)
    (hle : randomValue ≤ totalWeight offered) (hselect : select randomValue offered = some wave)
    (hoffered : ∀ left, P left → 0 < left ∧ candidates wavePool left = offered)
    (hkeeps : ∀ left, P left → P (left - wave.difficultyCost)) (hcredits : P credits) :
    ¬ ∃ picking, Picks wavePool
      (constantDraws (totalWeight offered) randomValue fun _ => ⟨hpos, hle⟩) credits picking := by
  apply WhileLoop.not_returns (P := fun picking => P picking.credits) hcredits
  intro n picking hpicking
  rcases hoffered _ hpicking with ⟨hleft, hcandidates⟩
  have hweight : totalWeight (candidates wavePool picking.credits) ≠ 0 := by
    rw [hcandidates]
    rintro hzero
    rw [hzero, UInt64.le_zero_iff] at hle
    exact hpos hle
  rcases turn_of_go hleft hweight with ⟨picked, _, _, hpicked, hturn⟩
  rw [hcandidates, constantDraws_value, hselect] at hpicked
  cases hpicked
  exact ⟨_, hturn, hkeeps _ hpicking⟩

/-- A free wave that can be drawn from the whole pool can be drawn forever. -/
theorem exists_not_picks_of_pool (hpos : randomValue ≠ 0) (hle : randomValue ≤ totalWeight wavePool)
    (hselect : select randomValue wavePool = some wave) (hcost : wave.difficultyCost ≤ 0) :
    ∃ draws credits, ¬ ∃ picking, Picks wavePool draws credits picking := by
  rcases exists_large wavePool with ⟨bound, hbound, hlarge⟩
  -- the credits stay above the bound, where the pool is offered as a whole
  refine ⟨_, bound + 1, not_picks (P := fun left => bound < left) hpos hle hselect ?_ ?_
    (lt_add_one bound)⟩
  · intro left hleft
    have hleft' : 0 < left := hbound.trans_lt hleft
    exact ⟨hleft', candidates_of_large hleft' fun wave hwave => (hlarge wave hwave).trans_lt hleft⟩
  · intro left hleft
    have hcost' : (wave.difficultyCost : ℚ) ≤ 0 := by exact_mod_cast hcost
    change bound < left - wave.difficultyCost
    linarith

/-- A wave that costs nothing can be drawn forever wherever it can be drawn once. -/
theorem exists_not_picks_of_zero (hcredits : 0 < credits) (hpos : randomValue ≠ 0)
    (hle : randomValue ≤ totalWeight (candidates wavePool credits))
    (hselect : select randomValue (candidates wavePool credits) = some wave)
    (hcost : wave.difficultyCost = 0) :
    ∃ draws credits, ¬ ∃ picking, Picks wavePool draws credits picking := by
  refine ⟨_, credits, not_picks (P := fun left => left = credits) hpos hle hselect ?_ ?_ rfl⟩
  · rintro left rfl
    exact ⟨hcredits, rfl⟩
  · rintro left rfl
    rw [hcost, Int.cast_zero, sub_zero]

/-- While the sum of the weights fits into 64 bits, each wave that has a weight can be
drawn. -/
theorem exists_draw (htotal : WeightedChoice.total weightOf wavePool < 2 ^ 64)
    (hwave : wave ∈ wavePool) (hweight : wave.weight ≠ 0) :
    ∃ randomValue, randomValue ≠ 0 ∧ randomValue ≤ totalWeight wavePool ∧
      select randomValue wavePool = some wave := by
  rcases WeightedChoice.exists_wordTicket htotal hwave hweight with
    ⟨randomValue, hpos, hle, hchoose⟩
  exact ⟨randomValue, hpos, hle, by rw [select_eq_wordChoose, hchoose]⟩

/-- A free wave that has a weight can be drawn forever. -/
theorem exists_not_picks_of_weight (htotal : WeightedChoice.total weightOf wavePool < 2 ^ 64)
    (hwave : wave ∈ wavePool) (hweight : wave.weight ≠ 0) (hcost : wave.difficultyCost ≤ 0) :
    ∃ draws credits, ¬ ∃ picking, Picks wavePool draws credits picking := by
  rcases exists_draw htotal hwave hweight with ⟨randomValue, hpos, hle, hselect⟩
  exact exists_not_picks_of_pool hpos hle hselect hcost

/-- The loop ends for all credits and draws when no free wave can be drawn.  It ends only then
when no wave has a negative cost, and when the sum of the weights fits into 64 bits.  In the last
case no free wave can be drawn if and only if none has a weight. -/
theorem getPickedWaves_returns (wavePool : List Archetype) :
    (NoFreeDraw wavePool → ∀ draws credits, ∃ picking, Picks wavePool draws credits picking) ∧
      ((∀ wave ∈ wavePool, 0 ≤ wave.difficultyCost) ∨
          WeightedChoice.total weightOf wavePool < 2 ^ 64 →
        (∀ draws credits, ∃ picking, Picks wavePool draws credits picking) →
          NoFreeDraw wavePool) ∧
      (WeightedChoice.total weightOf wavePool < 2 ^ 64 →
        (NoFreeDraw wavePool ↔ NoFreeWave wavePool)) := by
  refine ⟨picks_of_noFreeDraw, ?_, ?_⟩
  · intro hpool hreturns credits randomValue wave hcredits hpos hle hselect
    by_contra hcost
    rw [not_lt] at hcost
    rcases mem_of_select hpos hle hselect with ⟨hwave, hweight⟩
    have hnever : ∃ draws credits, ¬ ∃ picking, Picks wavePool draws credits picking := by
      rcases hpool with hcosts | htotal
      · exact exists_not_picks_of_zero hcredits hpos hle hselect
          (le_antisymm hcost (hcosts wave hwave))
      · exact exists_not_picks_of_weight htotal hwave hweight hcost
    rcases hnever with ⟨draws, credits', hnever⟩
    exact hnever (hreturns draws credits')
  · intro htotal
    refine ⟨?_, noFreeDraw_of_noFreeWave⟩
    intro hdraw wave hwave hcost
    by_contra hweight
    rcases exists_not_picks_of_weight htotal hwave hweight hcost with ⟨draws, credits', hnever⟩
    exact hnever (picks_of_noFreeDraw hdraw draws credits')

/-- The draws that always give the total. -/
def lastDraws : Draws where
  value _ totalWeight := totalWeight
  within _ totalWeight hpos := ⟨hpos, UInt64.le_refl totalWeight⟩

/-- A wave that costs nothing is picked forever. -/
theorem free_wave_forever : ¬ ∃ picking, Picks [⟨0, 1⟩] lastDraws 1 picking := by
  apply WhileLoop.not_returns (P := fun picking => picking.credits = 1) rfl
  intro n picking hpicking
  have hcandidates : candidates [⟨0, 1⟩] picking.credits = [⟨0, 1⟩] := by
    rw [hpicking]
    decide +kernel
  have hcredits : 0 < picking.credits := by
    rw [hpicking]
    exact one_pos
  have hweight : totalWeight (candidates [⟨0, 1⟩] picking.credits) ≠ 0 := by
    rw [hcandidates]
    decide
  rcases turn_of_go hcredits hweight with ⟨wave, hwave, _, _, hturn⟩
  rw [hcandidates, List.mem_singleton] at hwave
  subst hwave
  refine ⟨_, hturn, ?_⟩
  change picking.credits - ((0 : ℤ) : ℚ) = 1
  rw [hpicking, Int.cast_zero, sub_zero]

/-! ## What is spent -/

/-- What some waves cost together. -/
def totalCost (waves : List Archetype) : ℚ :=
  (waves.map fun wave => (wave.difficultyCost : ℚ)).sum

/-- The credits were spent on waves of the pool that have a weight, and none of these can
be paid with what is left. -/
structure Spent (wavePool : List Archetype) (credits : ℚ) (picking : Picking) : Prop where
  cost : totalCost picking.waves = credits - picking.credits
  within : totalCost picking.waves ≤ credits
  weights : ∀ wave ∈ picking.waves, wave ∈ wavePool ∧ wave.weight ≠ 0
  maximal : ∀ wave ∈ wavePool, wave.weight ≠ 0 → picking.credits < wave.difficultyCost

/-- Whenever the candidates have no weight, no wave that can be paid has one. -/
def NeverStuck (wavePool : List Archetype) : Prop :=
  ∀ credits : ℚ, 0 < credits → totalWeight (candidates wavePool credits) = 0 →
    ∀ wave ∈ wavePool, wave.weight ≠ 0 → credits < wave.difficultyCost

/-- What each turn keeps. -/
structure Spending (wavePool : List Archetype) (credits : ℚ) (picking : Picking) : Prop where
  nonneg : 0 ≤ picking.credits
  cost : totalCost picking.waves = credits - picking.credits
  weights : ∀ wave ∈ picking.waves, wave ∈ wavePool ∧ wave.weight ≠ 0

theorem Spending.turn {credits : ℚ} (h : Spending wavePool credits picking)
    (hturn : turn wavePool draws n picking = some picking') :
    Spending wavePool credits picking' := by
  rcases turn_spec hturn with ⟨_, wave, hwave, hweight, rfl⟩
  rw [mem_affordable] at hwave
  constructor
  case nonneg => exact sub_nonneg.mpr hwave.2
  case cost =>
    have hcost := h.cost
    rw [totalCost] at hcost ⊢
    rw [List.map_append, List.sum_append, hcost, List.map_singleton, List.sum_singleton]
    ring
  case weights =>
    intro other hother
    rcases List.mem_append.mp hother with hother | hother
    · exact h.weights other hother
    · rw [List.mem_singleton] at hother
      subst hother
      exact ⟨hwave.1, hweight⟩

/-- The result when no candidate has a weight from the start. -/
theorem Picks.eq_of_stop {credits : ℚ} (hpicks : Picks wavePool draws credits picking)
    (hstop : totalWeight (candidates wavePool credits) = 0) : picking = { credits } :=
  WhileLoop.Returns.unique hpicks (WhileLoop.returns_of_none (turn_of_stop (.inr hstop)))

/-- When all waves cost something, the director spends what it can for all credits and
draws if and only if there are no credits with which it would get stuck. -/
theorem spends_iff (hcosts : ∀ wave ∈ wavePool, 0 < wave.difficultyCost) :
    (∀ draws credits, 0 ≤ credits →
      ∃ picking, Picks wavePool draws credits picking ∧ Spent wavePool credits picking) ↔
      NeverStuck wavePool := by
  constructor
  · intro hspends credits hcredits hstop wave hwave hweight
    rcases hspends lastDraws credits hcredits.le with ⟨picking, hpicks, hspent⟩
    rw [hpicks.eq_of_stop hstop] at hspent
    exact hspent.maximal wave hwave hweight
  · intro hstuck draws credits hcredits
    have hfree : NoFreeWave wavePool := by
      intro wave hwave hcost
      exact absurd (hcosts wave hwave) (not_lt_of_ge hcost)
    rcases picks_of_noFreeDraw (noFreeDraw_of_noFreeWave hfree) draws credits with ⟨picking, hpicks⟩
    have hstart : Spending wavePool credits { credits } := by
      refine ⟨hcredits, ?_, nofun⟩
      rw [sub_self]
      rfl
    rcases WhileLoop.Returns.invariant hpicks hstart fun _ _ _ h => h.turn with
      ⟨hspending, n, hend⟩
    refine ⟨picking, hpicks, hspending.cost, ?_, hspending.weights, ?_⟩
    · rw [hspending.cost]
      linarith [hspending.nonneg]
    · intro wave hwave hweight
      have hcost : (0 : ℚ) < wave.difficultyCost := by exact_mod_cast hcosts wave hwave
      rcases turn_eq_none_iff.mp hend with hempty | hstop
      · exact hempty.trans_lt hcost
      · rcases hspending.nonneg.eq_or_lt with hzero | hleft
        · rwa [← hzero]
        · exact hstuck picking.credits hleft hstop wave hwave hweight

/-- There is a candidate when a wave can be paid. -/
theorem candidates_ne_nil {credits : ℚ} (h : wave ∈ affordable wavePool credits) :
    candidates wavePool credits ≠ [] := by
  unfold candidates
  split_ifs with hpreferred
  · exact List.ne_nil_of_mem h
  · rwa [List.isEmpty_iff] at hpreferred

/-- A pool in which all waves have a weight, and not too much of it, never gets stuck. -/
theorem neverStuck_of_weights (hweights : ∀ wave ∈ wavePool, wave.weight ≠ 0)
    (htotal : WeightedChoice.total weightOf wavePool < 2 ^ 64) : NeverStuck wavePool := by
  intro credits _ hstop wave hwave _
  by_contra hpayable
  rw [not_lt] at hpayable
  have hnonempty := candidates_ne_nil (mem_affordable.mpr ⟨hwave, hpayable⟩)
  rcases List.exists_mem_of_ne_nil _ hnonempty with ⟨candidate, hcandidate⟩
  have hpool := (mem_affordable.mp (mem_affordable_of_mem_candidates hcandidate)).1
  have hsublist : List.Sublist (candidates wavePool credits) wavePool := by
    unfold candidates preferred affordable
    split_ifs
    · exact List.filter_sublist
    · exact List.filter_sublist
  have hless : WeightedChoice.total weightOf (candidates wavePool credits) < 2 ^ 64 :=
    (WeightedChoice.total_le_of_sublist hsublist).trans_lt htotal
  rw [← UInt64.toNat_inj, toNat_totalWeight, UInt64.toNat_zero, Nat.mod_eq_of_lt hless,
    WeightedChoice.total_eq_zero_iff] at hstop
  have hzero := hstop candidate hcandidate
  rw [weightOf, ← UInt64.toNat_zero, UInt64.toNat_inj] at hzero
  exact hweights candidate hpool hzero

/-- The costs and the weights of the waves that come with the server. -/
def waveConfig : List Archetype :=
  [⟨5, 50⟩, ⟨20, 20⟩, ⟨100, 5⟩]

/-- With its own waves the director spends what it can. -/
theorem waveConfig_spent :
    ∃ picking, Picks waveConfig lastDraws 100 picking ∧ Spent waveConfig 100 picking :=
  (spends_iff (by decide)).mpr (neverStuck_of_weights (by decide) (by decide)) lastDraws 100
    (by norm_num)

/-- With ten credits the expensive wave, which is never drawn, hides the cheap one. -/
theorem hidden_wave_not_picked :
    ¬ ∃ picking, Picks [⟨10, 0⟩, ⟨1, 1⟩] lastDraws 10 picking ∧
      Spent [⟨10, 0⟩, ⟨1, 1⟩] 10 picking := by
  rintro ⟨picking, hpicks, hspent⟩
  have hstop : totalWeight (candidates [⟨10, 0⟩, ⟨1, 1⟩] 10) = 0 := by decide +kernel
  rw [hpicks.eq_of_stop hstop] at hspent
  have hless := hspent.maximal ⟨1, 1⟩ (by decide) (by decide)
  revert hless
  norm_num

end

/-! ## How often a candidate is drawn -/

/-- A run of the loop that looks for the wave that was drawn: the position at which it
stops, and the subtractions that it makes on the way. -/
structure Search where
  selected : Option ℕ
  subtractions : List (UInt64 × UInt64) := []

/-- The loop of {lit}`select`, by the positions of the candidates. -/
def search (position : ℕ) : UInt64 → List Archetype → Search
  | _, [] => { selected := none }
  | randomValue, wave :: waves =>
      if randomValue ≤ wave.weight then
        { selected := some position }
      else
        let rest := search (position + 1) (randomValue - wave.weight) waves
        { rest with subtractions := (randomValue, wave.weight) :: rest.subtractions }

theorem search_selected (position : ℕ) (randomValue : UInt64) (waves : List Archetype) :
    (search position randomValue waves).selected =
      (WeightedChoice.choosePosition weightOf randomValue.toNat waves).map (position + ·) := by
  induction waves generalizing position randomValue with
  | nil => rfl
  | cons wave waves ih =>
      rw [search, WeightedChoice.choosePosition, weightOf]
      by_cases hcovered : randomValue ≤ wave.weight
      · rw [if_pos hcovered, if_pos (UInt64.le_iff_toNat_le.mp hcovered)]
        rfl
      · have hgreater := hcovered
        rw [UInt64.le_iff_toNat_le] at hgreater
        rw [if_neg hcovered, if_neg hgreater]
        change (search (position + 1) (randomValue - wave.weight) waves).selected = _
        rw [ih, UInt64.toNat_sub_of_le, Option.map_map]
        · congr 1
          ext i
          change position + 1 + i = position + (i + 1)
          omega
        · rw [UInt64.le_iff_toNat_le]
          omega

/-- No subtraction goes below zero. -/
theorem search_subtractions {position : ℕ} {randomValue : UInt64} {waves : List Archetype} :
    ∀ subtraction ∈ (search position randomValue waves).subtractions,
      subtraction.2 ≤ subtraction.1 := by
  induction waves generalizing position randomValue with
  | nil => nofun
  | cons wave waves ih =>
      rw [search]
      by_cases hcovered : randomValue ≤ wave.weight
      · rw [if_pos hcovered]
        nofun
      · rw [if_neg hcovered]
        intro subtraction hsubtraction
        rcases List.mem_cons.mp hsubtraction with rfl | hrest
        · rw [UInt64.le_iff_toNat_le] at hcovered
          exact UInt64.le_iff_toNat_le.mpr (Nat.le_of_not_le hcovered)
        · exact ih subtraction hrest

/-- The wave that {lit}`select` finds is the one at the position. -/
theorem select_eq_search (randomValue : UInt64) (waves : List Archetype) :
    select randomValue waves = (search 0 randomValue waves).selected.bind fun i => waves[i]? := by
  rw [select_eq, WeightedChoice.choose_eq_position, search_selected, Option.bind_map]
  congr 1
  ext i : 1
  change waves[i]? = waves[0 + i]?
  rw [Nat.zero_add]

/-- Of the draws between one and the sum of the weights, each position gets as many as its
weight.  The position is always found, the wave there is the one that the turn selects, and
no subtraction goes below zero. -/
theorem draw_proportional {candidates : List Archetype}
    (hpos : 0 < WeightedChoice.total weightOf candidates)
    (hless : WeightedChoice.total weightOf candidates < 2 ^ 64) :
    totalWeight candidates ≠ 0 ∧
      (totalWeight candidates).toNat = WeightedChoice.total weightOf candidates ∧
      (∀ i wave, candidates[i]? = some wave →
        ((Finset.Icc 1 (WeightedChoice.total weightOf candidates)).filter fun randomValue =>
          (search 0 (UInt64.ofNat randomValue) candidates).selected = some i).card =
            wave.weight.toNat) ∧
      ∀ randomValue ∈ Finset.Icc 1 (WeightedChoice.total weightOf candidates),
        (∃ i wave, (search 0 (UInt64.ofNat randomValue) candidates).selected = some i ∧
          candidates[i]? = some wave ∧
          select (UInt64.ofNat randomValue) candidates = some wave) ∧
        ∀ subtraction ∈ (search 0 (UInt64.ofNat randomValue) candidates).subtractions,
          subtraction.2 ≤ subtraction.1 := by
  have htotal : (totalWeight candidates).toNat = WeightedChoice.total weightOf candidates := by
    rw [toNat_totalWeight, Nat.mod_eq_of_lt hless]
  have hdraw : ∀ randomValue ∈ Finset.Icc 1 (WeightedChoice.total weightOf candidates),
      (UInt64.ofNat randomValue).toNat = randomValue := by
    intro randomValue hrandom
    rw [Finset.mem_Icc] at hrandom
    rw [UInt64.toNat_ofNat']
    exact Nat.mod_eq_of_lt (hrandom.2.trans_lt hless)
  have hselected : ∀ randomValue ∈ Finset.Icc 1 (WeightedChoice.total weightOf candidates),
      (search 0 (UInt64.ofNat randomValue) candidates).selected =
        WeightedChoice.choosePosition weightOf randomValue candidates := by
    intro randomValue hrandom
    rw [search_selected, hdraw randomValue hrandom]
    simp only [Nat.zero_add, Option.map_id']
  refine ⟨?_, htotal, ?_, ?_⟩
  · rintro hzero
    rw [hzero, UInt64.toNat_zero] at htotal
    omega
  · intro i wave hwave
    refine Eq.trans ?_ (@WeightedChoice.card_choosePosition _ weightOf _ _ _ hwave)
    congr 1
    apply Finset.filter_congr
    intro randomValue hrandom
    rw [hselected randomValue hrandom]
  · intro randomValue hrandom
    refine ⟨?_, search_subtractions⟩
    have hbounds := Finset.mem_Icc.mp hrandom
    rcases WeightedChoice.exists_choose hbounds.1 hbounds.2 with ⟨wave, -, -, hchoose⟩
    have hselect : select (UInt64.ofNat randomValue) candidates = some wave := by
      rw [select_eq, hdraw randomValue hrandom, hchoose]
    have hfound := hselect
    rw [select_eq_search, Option.bind_eq_some_iff] at hfound
    rcases hfound with ⟨i, hi, hwave⟩
    exact ⟨i, wave, hi, hwave, hselect⟩

/-- Among the waves that come with the server. -/
theorem draw_proportional_waveConfig :
    ((Finset.Icc 1 75).filter fun randomValue =>
      (search 0 (UInt64.ofNat randomValue) waveConfig).selected = some 1).card = 20 :=
  (draw_proportional (by decide : 0 < WeightedChoice.total weightOf waveConfig)
    (by decide)).2.2.1 1 ⟨20, 20⟩ rfl

end Director

end Rtype.Server
