import Mathlib
import Rtype.Server.LevelDirector
import Rtype.Server.WaveLives

/-!
# Server - The waves that are picked

The choice of a wave looks at its cost and at its weight.  What comes out of it are the waves
of the pool themselves, with their groups of enemies, and the next updates spawn these.  So a
wave that no call can pick does no harm, whatever its groups are.

Main results:

- Theorem {lit}`Director.picks_map`: with exact numbers, the choice is the one of
  {lit}`LevelDirector`.
- Theorem {lit}`Director.pickable_iff`: the waves that can be picked from a usual pool.

Current gaps:

- None.
-/

namespace Rtype.Server.Level

/-- What {lit}`getPickedWaves` computes with the credits: {lit}`_credits > 0`,
{lit}`difficultyCost <= _credits`, {lit}`difficultyCost >= minSpend` and
{lit}`_credits -= difficultyCost`. -/
structure CreditArithmetic (τ : Type) where
  isPositive : τ → Bool
  canPay : ℤ → τ → Bool
  isHalf : ℤ → τ → Bool
  pay : τ → ℤ → τ

/-- With exact numbers. -/
def CreditArithmetic.exact : CreditArithmetic ℚ where
  isPositive credits := decide (credits > 0)
  canPay difficultyCost credits := decide ((difficultyCost : ℚ) ≤ credits)
  isHalf difficultyCost credits := decide ((difficultyCost : ℚ) ≥ credits * (1 / 2))
  pay credits difficultyCost := credits - difficultyCost

namespace Director

variable {τ : Type}

/-! ## The choice -/

/-- The credits that are left, and the waves that were picked. -/
structure Picking (τ : Type) where
  credits : τ
  waves : List (Archetype τ) := []

section

variable (arithmetic : CreditArithmetic τ) (wavePool : List (Archetype τ)) (draws : Draws)

/-- The waves that can be paid and cost at least half of the credits. -/
def preferred (credits : τ) : List (Archetype τ) :=
  wavePool.filter fun wave =>
    arithmetic.canPay wave.difficultyCost credits && arithmetic.isHalf wave.difficultyCost credits

/-- The waves that can be paid. -/
def affordable (credits : τ) : List (Archetype τ) :=
  wavePool.filter fun wave => arithmetic.canPay wave.difficultyCost credits

/-- The candidates of a turn. -/
def candidates (credits : τ) : List (Archetype τ) :=
  if (preferred arithmetic wavePool credits).isEmpty then
    affordable arithmetic wavePool credits
  else
    preferred arithmetic wavePool credits

/-- The sum of the weights, in 64 bits. -/
def totalWeight (waves : List (Archetype τ)) : UInt64 :=
  waves.foldl (fun total wave => total + wave.weight) 0

/-- The loop that looks for the wave that was drawn. -/
def select : UInt64 → List (Archetype τ) → Option (Archetype τ)
  | _, [] => none
  | randomValue, wave :: waves =>
      if randomValue ≤ wave.weight then
        some wave
      else
        select (randomValue - wave.weight) waves

/-- A turn of the loop of {lit}`Director::getPickedWaves`, or nothing when the loop ends. -/
def turn (n : ℕ) (picking : Picking τ) : Option (Picking τ) :=
  if arithmetic.isPositive picking.credits then
    let candidates := candidates arithmetic wavePool picking.credits
    let totalWeight := totalWeight candidates
    if candidates.isEmpty || totalWeight == 0 then
      none
    else
      let randomValue := draws.value n totalWeight
      match (select randomValue candidates).or candidates.getLast? with
      | none => none
      | some selected =>
          some
            { credits := arithmetic.pay picking.credits selected.difficultyCost
              waves := picking.waves ++ [selected] }
  else
    none

/-- {lit}`Director::getPickedWaves`, with the waves as they are in the pool. -/
def getPickedWaves (fuel : ℕ) (credits : τ) : Option (Picking τ) :=
  WhileLoop.run (turn arithmetic wavePool draws) fuel 0 { credits }

/-- The call returns. -/
def Picks (credits : τ) (picking : Picking τ) : Prop :=
  ∃ fuel, getPickedWaves arithmetic wavePool draws fuel credits = some picking

/-- Some call picks the wave, and returns. -/
def Pickable (archetype : Archetype τ) : Prop :=
  ∃ draws credits picking, Picks arithmetic wavePool draws credits picking ∧
    archetype ∈ picking.waves

end

/-! ## Runs -/

section

variable [NatCast τ] [Add τ] [Sub τ] [Neg τ] [Mul τ] [Div τ] [LT τ] [DecidableLT τ]

/-- What an update gets from {lit}`getPickedWaves`, when it calls it. -/
def Honest (arithmetic : CreditArithmetic τ) (director : Director τ) (frame : Frame τ) : Prop :=
  director.activeWaves = [] → ∃ draws,
    Picks arithmetic director.wavePool draws (director.gainCredits frame).credits
      { credits := frame.creditsLeft, waves := frame.picked }

/-- Each update of a run gets what {lit}`getPickedWaves` returns there. -/
def HonestRun (arithmetic : CreditArithmetic τ) (director : Director τ) (frames : List (Frame τ)) :
    Prop :=
  ∀ past frame more, frames = past ++ frame :: more →
    ∀ director' outputs, director.run past = .ok (director', outputs) →
      director'.Honest arithmetic frame

variable {arithmetic : CreditArithmetic τ} {director director' : Director τ} {frame : Frame τ}
  {frames : List (Frame τ)} {spawned : List (Spawned τ)} {outputs : List (List (Spawned τ))}

theorem HonestRun.nil : director.HonestRun arithmetic [] := by
  intro past frame more hsplit
  cases (List.append_eq_nil_iff.mp hsplit.symm).2

theorem HonestRun.snoc (h : director.HonestRun arithmetic frames)
    (hlast : ∀ director' outputs, director.run frames = .ok (director', outputs) →
      director'.Honest arithmetic frame) :
    director.HonestRun arithmetic (frames ++ [frame]) := by
  intro past other more hsplit
  rcases List.eq_nil_or_concat more with rfl | ⟨more, last, rfl⟩
  · rcases List.append_inj' hsplit rfl with ⟨rfl, hother⟩
    cases hother
    exact hlast
  · rw [List.concat_eq_append, ← List.cons_append, ← List.append_assoc] at hsplit
    exact h past other more (List.append_inj' hsplit rfl).1

theorem HonestRun.of_snoc (h : director.HonestRun arithmetic (frames ++ [frame])) :
    director.HonestRun arithmetic frames ∧
      ∀ director' outputs, director.run frames = .ok (director', outputs) →
        director'.Honest arithmetic frame := by
  refine ⟨?_, h frames frame [] rfl⟩
  intro past other more hsplit
  apply h past other (more ++ [frame])
  rw [hsplit, List.append_assoc, List.cons_append]

/-- The pool stays as it was loaded. -/
theorem wavePool_update (h : director.update frame = .ok (director', spawned)) :
    director'.wavePool = director.wavePool := by
  have hpool : ((director.gainCredits frame).pickNewWaveIfNeeded frame).wavePool =
      director.wavePool := by
    unfold pickNewWaveIfNeeded
    split_ifs <;> rfl
  unfold update at h
  dsimp only at h
  split_ifs at h
  · cases h
    exact hpool
  · split at h
    · cases h
    · split at h
      · cases h
      · cases h
        exact hpool

theorem wavePool_run (h : director.run frames = .ok (director', outputs)) :
    director'.wavePool = director.wavePool := by
  induction frames using List.reverseRecOn generalizing director' outputs with
  | nil =>
      cases h
      rfl
  | append_singleton frames frame ih =>
      cases hrun : director.run frames with
      | error fault =>
          rw [run, List.foldlM_append] at h
          rw [run] at hrun
          rw [hrun] at h
          cases h
      | ok result =>
          rw [run_snoc_of_ok hrun] at h
          cases hupdate : result.1.update frame with
          | error fault =>
              rw [hupdate] at h
              cases h
          | ok next =>
              rw [hupdate] at h
              cases h
              exact (wavePool_update hupdate).trans (ih hrun)

end

/-! ## The draw -/

/-- The weight of a wave as a number. -/
def weightOf (wave : Archetype τ) : ℕ :=
  wave.weight.toNat

theorem totalWeight_map (waves : List (Archetype τ)) :
    Server.Director.totalWeight (waves.map Archetype.toArchetype) = totalWeight waves := by
  rw [Server.Director.totalWeight, List.foldl_map, totalWeight]

theorem select_map (randomValue : UInt64) (waves : List (Archetype τ)) :
    Server.Director.select randomValue (waves.map Archetype.toArchetype) =
      (select randomValue waves).map Archetype.toArchetype := by
  induction waves generalizing randomValue with
  | nil => rfl
  | cons wave waves ih =>
      rw [List.map_cons, Server.Director.select, select]
      split_ifs
      · rfl
      · exact ih _

theorem select_eq_wordChoose (randomValue : UInt64) (waves : List (Archetype τ)) :
    select randomValue waves =
      WeightedChoice.wordChoose (fun wave => wave.weight) randomValue waves := by
  induction waves generalizing randomValue with
  | nil => rfl
  | cons wave waves ih => rw [select, WeightedChoice.wordChoose, ih]

/-- Each draw finds a wave that has a weight. -/
theorem exists_select {waves : List (Archetype τ)} {randomValue : UInt64} (hpos : randomValue ≠ 0)
    (hle : randomValue ≤ totalWeight waves) :
    ∃ wave ∈ waves, wave.weight ≠ 0 ∧ select randomValue waves = some wave := by
  rw [select_eq_wordChoose]
  exact WeightedChoice.exists_wordChoose hpos hle

/-! ## What a turn does -/

section

variable {arithmetic : CreditArithmetic τ} {wavePool : List (Archetype τ)} {draws : Draws}
  {n : ℕ} {picking picking' : Picking τ} {credits : τ} {archetype : Archetype τ}

/-- The candidates are waves of the pool, in their order. -/
theorem candidates_sublist :
    List.Sublist (candidates arithmetic wavePool credits) wavePool := by
  unfold candidates preferred affordable
  split_ifs
  · exact List.filter_sublist
  · exact List.filter_sublist

/-- The loop ends without credits, and when the candidates have no weight. -/
theorem turn_of_stop (h : arithmetic.isPositive picking.credits = false ∨
    totalWeight (candidates arithmetic wavePool picking.credits) = 0) :
    turn arithmetic wavePool draws n picking = none := by
  unfold turn
  split_ifs with hcredits
  · have hzero := h.resolve_left (ne_false_of_eq_true hcredits)
    simp [hzero]
  · rfl

/-- A turn that has credits and candidates with a weight picks the wave that is drawn. -/
theorem turn_of_go (hcredits : arithmetic.isPositive picking.credits = true)
    (hweight : totalWeight (candidates arithmetic wavePool picking.credits) ≠ 0) :
    ∃ wave ∈ wavePool, wave.weight ≠ 0 ∧
      select (draws.value n (totalWeight (candidates arithmetic wavePool picking.credits)))
        (candidates arithmetic wavePool picking.credits) = some wave ∧
      turn arithmetic wavePool draws n picking =
        some
          { credits := arithmetic.pay picking.credits wave.difficultyCost
            waves := picking.waves ++ [wave] } := by
  rcases draws.within n _ hweight with ⟨hpos, hle⟩
  rcases exists_select hpos hle with ⟨wave, hwave, hweight', hselect⟩
  refine ⟨wave, candidates_sublist.subset hwave, hweight', hselect, ?_⟩
  have hnonempty : (candidates arithmetic wavePool picking.credits).isEmpty = false := by
    rw [List.isEmpty_eq_false_iff]
    exact List.ne_nil_of_mem hwave
  simp only [turn, if_pos hcredits, hnonempty, Bool.false_or, beq_iff_eq, if_neg hweight, hselect,
    Option.some_or]

/-- What a turn picks is a wave of the pool that has a weight. -/
theorem turn_spec (h : turn arithmetic wavePool draws n picking = some picking') :
    ∃ wave ∈ wavePool, wave.weight ≠ 0 ∧ picking'.waves = picking.waves ++ [wave] := by
  by_cases hstop : arithmetic.isPositive picking.credits = false ∨
      totalWeight (candidates arithmetic wavePool picking.credits) = 0
  · rw [turn_of_stop hstop] at h
    cases h
  · rw [not_or, Bool.not_eq_false] at hstop
    rcases turn_of_go hstop.1 hstop.2 with ⟨wave, hwave, hweight, -, hturn⟩
    rw [hturn] at h
    cases h
    exact ⟨wave, hwave, hweight, rfl⟩

/-- A wave that can be picked is in the pool and has a weight. -/
theorem Pickable.mem (h : Pickable arithmetic wavePool archetype) :
    archetype ∈ wavePool ∧ archetype.weight ≠ 0 := by
  rcases h with ⟨draws, credits, picking, hpicks, harchetype⟩
  have hkeeps := WhileLoop.Returns.invariant
    (P := fun picking => ∀ wave ∈ picking.waves, wave ∈ wavePool ∧ wave.weight ≠ 0) hpicks nofun ?_
  · exact hkeeps.1 archetype harchetype
  · intro n picking picking' hpicking hturn other hother
    rcases turn_spec hturn with ⟨wave, hwave, hweight, heq⟩
    rw [heq] at hother
    rcases List.mem_append.mp hother with hother | hother
    · exact hpicking other hother
    · rw [List.mem_singleton] at hother
      subst hother
      exact ⟨hwave, hweight⟩

end

/-! ## With exact numbers -/

section

variable {wavePool : List (Archetype ℚ)} {draws : Draws} {credits : ℚ} {picking : Picking ℚ}
  {archetype : Archetype ℚ}

/-- What the choice of a wave has read. -/
def Picking.prices (picking : Picking ℚ) : Server.Director.Picking where
  credits := picking.credits
  waves := picking.waves.map Archetype.toArchetype

theorem candidates_map (wavePool : List (Archetype ℚ)) (credits : ℚ) :
    Server.Director.candidates (wavePool.map Archetype.toArchetype) credits =
      (candidates .exact wavePool credits).map Archetype.toArchetype := by
  have hpreferred : Server.Director.preferred (wavePool.map Archetype.toArchetype) credits =
      (preferred .exact wavePool credits).map Archetype.toArchetype := List.filter_map
  have haffordable : Server.Director.affordable (wavePool.map Archetype.toArchetype) credits =
      (affordable .exact wavePool credits).map Archetype.toArchetype := List.filter_map
  rw [Server.Director.candidates, candidates, hpreferred, haffordable, List.isEmpty_map]
  split_ifs <;> rfl

theorem turn_map (wavePool : List (Archetype ℚ)) (draws : Draws) (n : ℕ) (picking : Picking ℚ) :
    Server.Director.turn (wavePool.map Archetype.toArchetype) draws n picking.prices =
      (turn .exact wavePool draws n picking).map Picking.prices := by
  have htotal : Server.Director.totalWeight (Server.Director.candidates
      (wavePool.map Archetype.toArchetype) picking.prices.credits) =
        totalWeight (candidates .exact wavePool picking.credits) := by
    rw [← totalWeight_map, ← candidates_map]
    rfl
  by_cases hcredits : 0 < picking.credits
  · by_cases hweight : totalWeight (candidates .exact wavePool picking.credits) = 0
    · rw [Server.Director.turn_of_stop (.inr (htotal.trans hweight)), turn_of_stop (.inr hweight),
        Option.map_none]
    · rcases @turn_of_go _ .exact wavePool draws n picking (decide_eq_true hcredits) hweight with
        ⟨wave, -, -, hselect, hturn⟩
      rcases @Server.Director.turn_of_go _ draws n picking.prices hcredits (htotal ▸ hweight) with
        ⟨other, -, -, hselect', hturn'⟩
      have hother : other = wave.toArchetype := by
        rw [htotal] at hselect'
        change Server.Director.select _ (Server.Director.candidates _ picking.credits) = _
          at hselect'
        rw [candidates_map, select_map, hselect, Option.map_some] at hselect'
        exact (Option.some.inj hselect').symm
      rw [hturn', hturn, hother, Option.map_some, Picking.prices, Picking.prices, List.map_append]
      rfl
  · rw [Server.Director.turn_of_stop (.inl (not_lt.mp hcredits)),
      turn_of_stop (.inl (decide_eq_false hcredits)), Option.map_none]

/-- A call that returns is one of those that read the costs and the weights only. -/
theorem picks_map (h : Picks .exact wavePool draws credits picking) :
    Server.Director.Picks (wavePool.map Archetype.toArchetype) draws credits picking.prices := by
  rcases h with ⟨fuel, h⟩
  refine ⟨fuel, ?_⟩
  have hrun := WhileLoop.run_map Picking.prices (turn_map wavePool draws) fuel 0 { credits }
  rw [getPickedWaves] at h
  rw [h] at hrun
  exact hrun

/-- From a pool whose costs are positive and whose weights do not overflow, a wave can be picked
if and only if it has a weight. -/
theorem pickable_iff (hcosts : ∀ wave ∈ wavePool, 0 < wave.difficultyCost)
    (htotal : WeightedChoice.total weightOf wavePool < 2 ^ 64) :
    Pickable .exact wavePool archetype ↔ archetype ∈ wavePool ∧ archetype.weight ≠ 0 := by
  refine ⟨Pickable.mem, ?_⟩
  rintro ⟨hmem, hweight⟩
  -- with its own cost as credits the wave is preferred, and nothing is left behind it
  have hcost : (0 : ℚ) < archetype.difficultyCost := by exact_mod_cast hcosts archetype hmem
  let offered := candidates .exact wavePool (archetype.difficultyCost : ℚ)
  have hoffered : archetype ∈ offered := by
    have hpreferred : archetype ∈ preferred .exact wavePool (archetype.difficultyCost : ℚ) := by
      refine List.mem_filter.mpr ⟨hmem, ?_⟩
      have hhalf : (archetype.difficultyCost : ℚ) * (1 / 2) ≤ archetype.difficultyCost := by
        linarith
      simp only [CreditArithmetic.exact, le_refl, decide_true, Bool.true_and, decide_eq_true_eq]
      exact hhalf
    have hnonempty := List.isEmpty_eq_false_iff.mpr (List.ne_nil_of_mem hpreferred)
    simp only [offered, candidates, hnonempty]
    exact hpreferred
  have hless : WeightedChoice.total weightOf offered < 2 ^ 64 :=
    (WeightedChoice.total_le_of_sublist candidates_sublist).trans_lt htotal
  rcases WeightedChoice.exists_wordTicket hless hoffered hweight with
    ⟨randomValue, hpos, hle, hchoose⟩
  have hdrawn : totalWeight offered ≠ 0 := by
    rintro hzero
    change randomValue ≤ totalWeight offered at hle
    rw [hzero, UInt64.le_zero_iff] at hle
    exact hpos hle
  let draws := Server.Director.constantDraws (totalWeight offered) randomValue
    fun _ => ⟨hpos, hle⟩
  let start : Picking ℚ := { credits := archetype.difficultyCost }
  rcases @turn_of_go _ .exact wavePool draws 0 start (decide_eq_true hcost) hdrawn with
    ⟨wave, -, -, hselect, hturn⟩
  have hwave : wave = archetype := by
    have hdraw : draws.value 0 (totalWeight offered) = randomValue :=
      Server.Director.constantDraws_value _ 0
    change select (draws.value 0 (totalWeight offered)) offered = some wave at hselect
    rw [hdraw, select_eq_wordChoose, hchoose] at hselect
    exact (Option.some.inj hselect).symm
  subst hwave
  have hend : turn .exact wavePool draws 1
      { credits := CreditArithmetic.exact.pay start.credits wave.difficultyCost
        waves := start.waves ++ [wave] } = none :=
    turn_of_stop (.inl (by simp [CreditArithmetic.exact, start]))
  refine ⟨draws, wave.difficultyCost,
    { credits := CreditArithmetic.exact.pay start.credits wave.difficultyCost, waves := [wave] },
    ⟨2, ?_⟩, List.mem_singleton_self wave⟩
  rw [getPickedWaves, WhileLoop.run_of_some 1 hturn, WhileLoop.run_of_none 0 hend]
  rfl

end

end Director

end Rtype.Server.Level
