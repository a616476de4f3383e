import Mathlib
import Rtype.Server.WavePicking

/-!
# Server - The budget of the director

The director gains credits while the game goes on, and more of them the longer it does.  When
no wave is active it spends them on new waves.  What it has spent and what it has left add up
to what it gained, so the waves of a game cannot cost more than the time allows.

Main results:

- Theorem {lit}`Plays.balance`: over every run, the credits and the costs of the waves add up.
- Theorem {lit}`waves_within_budget`: the waves of a run cost at most what its time brings in.

Current gaps:

- The credits and the times are exact numbers.
-/

namespace Rtype.Server.Level

open Rtype.Server.Director (Picks Picking Spending totalCost)

/-! ## Income -/

/-- {lit}`incomeRate`, at a time of the game. -/
def incomeRate (gameTime : ℚ) : ℚ :=
  baseIncome + gameTime / 60 * incomeMultiplier

/-- The gain of some updates, which start at a time of the game. -/
def income : ℚ → List (Frame ℚ) → ℚ
  | _, [] => 0
  | gameTime, frame :: frames =>
      incomeRate (gameTime + frame.dt) * frame.dt + income (gameTime + frame.dt) frames

/-- The time that some updates take. -/
def duration (frames : List (Frame ℚ)) : ℚ :=
  (frames.map Frame.dt).sum

theorem duration_cons (frame : Frame ℚ) (frames : List (Frame ℚ)) :
    duration (frame :: frames) = frame.dt + duration frames := by
  rw [duration, List.map_cons, List.sum_cons, duration]

theorem duration_nonneg {frames : List (Frame ℚ)} (hdts : ∀ frame ∈ frames, 0 ≤ frame.dt) :
    0 ≤ duration frames := by
  apply List.sum_nonneg
  intro dt hdt
  rcases List.mem_map.mp hdt with ⟨frame, hframe, rfl⟩
  exact hdts frame hframe

theorem incomeRate_mono {gameTime gameTime' : ℚ} (h : gameTime ≤ gameTime') :
    incomeRate gameTime ≤ incomeRate gameTime' := by
  unfold incomeRate baseIncome incomeMultiplier
  push_cast
  linarith

/-- The gain is at most what the rate at the end would bring. -/
theorem income_le {gameTime : ℚ} {frames : List (Frame ℚ)}
    (hdts : ∀ frame ∈ frames, 0 ≤ frame.dt) :
    income gameTime frames ≤ incomeRate (gameTime + duration frames) * duration frames := by
  induction frames generalizing gameTime with
  | nil => simp [income, duration]
  | cons frame frames ih =>
      rw [List.forall_mem_cons] at hdts
      have hrest := @ih (gameTime + frame.dt) hdts.2
      rw [add_assoc, ← duration_cons] at hrest
      have hrate : incomeRate (gameTime + frame.dt) ≤
          incomeRate (gameTime + duration (frame :: frames)) := by
        apply incomeRate_mono
        rw [duration_cons]
        linarith [duration_nonneg hdts.2]
      calc income gameTime (frame :: frames)
          = incomeRate (gameTime + frame.dt) * frame.dt + income (gameTime + frame.dt) frames :=
            rfl
        _ ≤ incomeRate (gameTime + duration (frame :: frames)) * frame.dt +
              incomeRate (gameTime + duration (frame :: frames)) * duration frames :=
            add_le_add (mul_le_mul_of_nonneg_right hrate hdts.1) hrest
        _ = incomeRate (gameTime + duration (frame :: frames)) * duration (frame :: frames) := by
            rw [duration_cons]
            ring

/-! ## Spending -/

/-- What the loop that picks waves keeps holds of what it returns. -/
theorem spending_of_picks {wavePool : List Server.Archetype} {draws : Server.Draws} {credits : ℚ}
    {picking : Picking} (hcredits : 0 ≤ credits)
    (h : Picks wavePool draws credits picking) : Spending wavePool credits picking := by
  have hstart : Spending wavePool credits { credits := credits } := by
    constructor
    · exact hcredits
    · simp [totalCost]
    · intro wave hwave
      cases hwave
  exact (WhileLoop.Returns.invariant h hstart fun n s s' hs hturn => hs.turn hturn).1

/-- What an update gets from {lit}`getPickedWaves`, when it calls it. -/
def Honest (director : Director ℚ) (frame : Frame ℚ) : Prop :=
  director.activeWaves = [] → ∃ draws picking,
    Picks (director.wavePool.map Archetype.toArchetype) draws (director.gainCredits frame).credits
      picking ∧
      frame.creditsLeft = picking.credits ∧ frame.picked.map Archetype.toArchetype = picking.waves

/-- The budget is about what the choice reads of the waves that it picks. -/
theorem honest_of_exact {director : Director ℚ} {frame : Frame ℚ}
    (h : director.Honest .exact frame) : Honest director frame := by
  intro hidle
  rcases h hidle with ⟨draws, hpicks⟩
  exact ⟨draws, _, Director.picks_map hpicks, rfl, rfl⟩

/-- The waves that an update starts. -/
def started (director : Director ℚ) (frame : Frame ℚ) : List (Archetype ℚ) :=
  if director.activeWaves = [] then frame.picked else []

/-- What some waves cost together. -/
def cost (waves : List (Archetype ℚ)) : ℚ :=
  totalCost (waves.map Archetype.toArchetype)

theorem cost_append (waves waves' : List (Archetype ℚ)) :
    cost (waves ++ waves') = cost waves + cost waves' := by
  rw [cost, totalCost, List.map_append, List.map_append, List.sum_append]
  rfl

/-- Updates one after another, with the waves that they start. -/
inductive Plays : Director ℚ → List (Frame ℚ) → List (Archetype ℚ) → Director ℚ → Prop
  | nil (director : Director ℚ) : Plays director [] [] director
  | cons {director next director' : Director ℚ} {frame : Frame ℚ} {frames : List (Frame ℚ)}
      {spawned : List (Spawned ℚ)} {waves : List (Archetype ℚ)}
      (hupdate : director.update frame = .ok (next, spawned)) (hhonest : Honest director frame)
      (hrest : Plays next frames waves director') :
      Plays director (frame :: frames) (started director frame ++ waves) director'

/-- An update does not change the credits and the time after it has picked. -/
theorem update_books {director next : Director ℚ} {frame : Frame ℚ} {spawned : List (Spawned ℚ)}
    (h : director.update frame = .ok (next, spawned)) :
    next.gameTime = director.gameTime + frame.dt ∧
      next.credits = ((director.gainCredits frame).pickNewWaveIfNeeded frame).credits := by
  have htime : ((director.gainCredits frame).pickNewWaveIfNeeded frame).gameTime =
      director.gameTime + frame.dt := by
    unfold Director.pickNewWaveIfNeeded
    split_ifs <;> rfl
  unfold Director.update at h
  dsimp only at h
  split_ifs at h
  · cases h
    exact ⟨htime, rfl⟩
  · split at h
    · cases h
    · split at h
      · cases h
      · cases h
        exact ⟨htime, rfl⟩

theorem incomeRate_nonneg {gameTime : ℚ} (h : 0 ≤ gameTime) : 0 ≤ incomeRate gameTime := by
  have hbase : 0 ≤ incomeRate 0 := by norm_num [incomeRate, baseIncome]
  exact hbase.trans (incomeRate_mono h)

/-- The books of one update. -/
theorem update_balance {director next : Director ℚ} {frame : Frame ℚ}
    {spawned : List (Spawned ℚ)} (htime : 0 ≤ director.gameTime) (hcredits : 0 ≤ director.credits)
    (hdt : 0 ≤ frame.dt) (hupdate : director.update frame = .ok (next, spawned))
    (hhonest : Honest director frame) :
    0 ≤ next.credits ∧ next.credits + cost (started director frame) =
      director.credits + incomeRate (director.gameTime + frame.dt) * frame.dt := by
  have hgained : (director.gainCredits frame).credits =
      director.credits + incomeRate (director.gameTime + frame.dt) * frame.dt := rfl
  have hincome : 0 ≤ incomeRate (director.gameTime + frame.dt) * frame.dt :=
    mul_nonneg (incomeRate_nonneg (add_nonneg htime hdt)) hdt
  rw [(update_books hupdate).2, ← hgained]
  by_cases hidle : director.activeWaves = []
  · rcases hhonest hidle with ⟨draws, picking, hpicks, hleft, hpicked⟩
    have hspending := spending_of_picks (hgained ▸ add_nonneg hcredits hincome) hpicks
    have hpick : (director.gainCredits frame).pickNewWaveIfNeeded frame =
        (director.gainCredits frame).pickRandomWaves frame := by
      have hsame : (director.gainCredits frame).activeWaves = [] := hidle
      simp [Director.pickNewWaveIfNeeded, hsame]
    have hcost : cost (started director frame) = totalCost picking.waves := by
      rw [started, if_pos hidle, cost, hpicked]
    rw [hpick, hcost]
    change 0 ≤ frame.creditsLeft ∧ frame.creditsLeft + totalCost picking.waves = _
    rw [hleft, hspending.cost]
    exact ⟨hspending.nonneg, by ring⟩
  · have hkeep : (director.gainCredits frame).pickNewWaveIfNeeded frame =
        director.gainCredits frame := by
      have hsame : (director.gainCredits frame).activeWaves = director.activeWaves := rfl
      simp [Director.pickNewWaveIfNeeded, hsame, hidle]
    have hcost : cost (started director frame) = 0 := by
      rw [started, if_neg hidle]
      rfl
    rw [hkeep, hcost, add_zero]
    exact ⟨hgained ▸ add_nonneg hcredits hincome, rfl⟩

/-! ## Over every run -/

section

variable {director director' : Director ℚ} {frames : List (Frame ℚ)} {waves : List (Archetype ℚ)}

/-- The credits that are left and the costs of the waves that were started add up to the
credits at the start and the gain. -/
theorem Plays.balance (h : Plays director frames waves director')
    (htime : 0 ≤ director.gameTime) (hcredits : 0 ≤ director.credits)
    (hdts : ∀ frame ∈ frames, 0 ≤ frame.dt) :
    0 ≤ director'.credits ∧
      director'.credits + cost waves = director.credits + income director.gameTime frames ∧
      director'.gameTime = director.gameTime + duration frames := by
  induction h with
  | nil director =>
      refine ⟨hcredits, ?_, ?_⟩
      · rfl
      · simp [duration]
  | cons hupdate hhonest hrest ih =>
      rename_i director next director' frame frames spawned waves
      rw [List.forall_mem_cons] at hdts
      rcases update_balance htime hcredits hdts.1 hupdate hhonest with ⟨hnext, hstep⟩
      have htime' := (update_books hupdate).1
      have hlater : 0 ≤ next.gameTime := by
        rw [htime']
        exact add_nonneg htime hdts.1
      rcases ih hlater hnext hdts.2 with ⟨hnonneg, hbalance, hclock⟩
      refine ⟨hnonneg, ?_, ?_⟩
      · rw [htime'] at hbalance
        rw [cost_append, income]
        linarith
      · rw [hclock, htime', duration_cons, add_assoc]

/-- In every run of the director, whatever waves are in the file, whatever is drawn, however
long the ticks are and whenever waves are over: the waves that were started cost at most the
credits at the start and what the time brings in at the rate of the end, and the director is
never in debt. -/
theorem waves_within_budget (h : Plays director frames waves director')
    (htime : 0 ≤ director.gameTime) (hcredits : 0 ≤ director.credits)
    (hdts : ∀ frame ∈ frames, 0 ≤ frame.dt) :
    0 ≤ director'.credits ∧
      director'.credits + cost waves = director.credits + income director.gameTime frames ∧
      cost waves ≤ director.credits +
        (2 + (director.gameTime + duration frames) / 30) * duration frames := by
  rcases h.balance htime hcredits hdts with ⟨hnonneg, hbalance, -⟩
  refine ⟨hnonneg, hbalance, ?_⟩
  have hrate : incomeRate (director.gameTime + duration frames) =
      2 + (director.gameTime + duration frames) / 30 := by
    unfold incomeRate baseIncome incomeMultiplier
    push_cast
    ring
  have hincome := @income_le director.gameTime _ hdts
  rw [hrate] at hincome
  linarith

end

/-! ## A wave that is paid -/

/-- A wave of two enemies. -/
def scouts : Archetype ℚ where
  difficultyCost := 5
  weight := 50
  spawnInterval := 1
  postWaveDelay := 3
  enemies := [⟨.kEnemy, "zigzag", 2⟩]

/-- A director that has saved up. -/
def savedUp : Director ℚ where
  wavePool := [scouts]
  credits := 4
  currentDifficulty := 0
  gameTime := 0

/-- A second in which the wave is picked. -/
def payday : Frame ℚ where
  dt := 1
  playerPos := [200]
  picked := [scouts]
  creditsLeft := 31 / 30
  delay _ := 0
  xDist _ := 150
  yDist _ := 200

theorem waves_within_budget_payday :
    ∃ director', Plays savedUp [payday] [scouts] director' ∧
      cost [scouts] ≤ 4 + (2 + (0 + 1) / 30) * 1 := by
  have hhonest : Honest savedUp payday := by
    intro _
    have hleft : (Server.Director.getPickedWaves 2 [scouts.toArchetype] Server.Director.lastDraws
        (savedUp.gainCredits payday).credits).map Picking.credits = some (31 / 30) := by
      decide +kernel
    have hwaves : (Server.Director.getPickedWaves 2 [scouts.toArchetype] Server.Director.lastDraws
        (savedUp.gainCredits payday).credits).map Picking.waves = some [scouts.toArchetype] := by
      decide +kernel
    rcases Option.map_eq_some_iff.mp hleft with ⟨picking, hpicking, hcredits⟩
    rw [hpicking, Option.map_some, Option.some.injEq] at hwaves
    exact ⟨Server.Director.lastDraws, picking, ⟨2, hpicking⟩, hcredits.symm, hwaves.symm⟩
  cases hupdate : savedUp.update payday with
  | error fault =>
      have hok : (savedUp.update payday).isOk = true := by decide +kernel
      rw [hupdate] at hok
      cases hok
  | ok result =>
      have hplays : Plays savedUp [payday] [scouts] result.1 :=
        .cons hupdate hhonest (.nil result.1)
      have hdts : ∀ frame ∈ [payday], 0 ≤ frame.dt := by
        intro frame hframe
        rw [List.mem_singleton] at hframe
        subst hframe
        decide +kernel
      have hbudget := (waves_within_budget hplays le_rfl (by decide +kernel) hdts).2.2
      have hduration : duration [payday] = 1 := by decide +kernel
      rw [hduration] at hbudget
      exact ⟨result.1, hplays, hbudget⟩

end Rtype.Server.Level
