import Mathlib
import Rtype.Server.WavePicking

/-!
# Server - The configuration of the waves

The waves come from a file.  The loader takes what it finds there: it looks at no list and at
no number.  The scheduler relies on lists that are not empty, on groups that have an enemy,
and on types and movements that it knows.

Main results:

- Function {lit}`parseArchetypes`: the loader, over any library that reads the file.
- Theorem {lit}`Life.Reached.spawnable`: a wave that is picked can be spawned, when every run
  goes well.
- Theorem {lit}`accepted_pools_safe_iff`: the pools whose runs all go well.

Current gaps:

- The file itself, and the exceptions that {lit}`Director::load` catches.
-/

namespace Rtype.Server.Level

/-! ## The loader -/

/-- How the loader can fail. -/
inductive ParseError
  /-- {lit}`json::type_error` -/
  | typeError
  /-- {lit}`json::out_of_range`, or {lit}`std::out_of_range` of a table -/
  | outOfRange
  /-- {lit}`operator[]` with a key that a constant object does not have -/
  | undefined
  deriving DecidableEq

/-- What the loader uses of the library for the configuration files. -/
structure JsonLibrary (J τ : Type) where
  contains : J → String → Bool
  isArray : J → Bool
  index : J → String → Except ParseError J
  atKey : J → String → Except ParseError J
  elements : J → List J
  getString : J → Except ParseError String
  getInt : J → Except ParseError ℤ
  getSize : J → Except ParseError UInt64
  getFloat : J → Except ParseError τ

/-- {lit}`entity::StringToType.at`. -/
def stringToType (name : String) : Except ParseError EntityType :=
  if name = "Player" then .ok .kPlayer
  else if name = "Enemy" then .ok .kEnemy
  else if name = "Bullet" then .ok .kBullet
  else .error .outOfRange

section

variable {J τ : Type} (json : JsonLibrary J τ)

/-- The body of the loop of {lit}`parseEnemies`. -/
def parseEnemy (e : J) : Except ParseError Enemy := do
  let type ← stringToType (← json.getString (← json.atKey e "type"))
  let patternName ← json.getString (← json.atKey e "pattern")
  let count ← json.getInt (← json.atKey e "count")
  return { type := type, patternName := patternName, count := count }

/-- {lit}`parseEnemies`.  The test for an array only writes to the log. -/
def parseEnemies (data : J) : Except ParseError (List Enemy) := do
  (json.elements (← json.index data "enemies")).mapM (parseEnemy json)

/-- The body of the loop of {lit}`Director::parseArchetypes`. -/
def parseArchetype (wave : J) : Except ParseError (Archetype τ) := do
  let name ← json.getString (← json.atKey wave "name")
  let difficultyCost ← json.getInt (← json.atKey wave "difficultyCost")
  let weight ← json.getSize (← json.atKey wave "weight")
  let spawnInterval ← json.getFloat (← json.atKey wave "spawnInterval")
  let postWaveDelay ← json.getFloat (← json.atKey wave "postWaveDelay")
  let enemies ← parseEnemies json wave
  return {
    name := name, difficultyCost := difficultyCost, weight := weight
    spawnInterval := spawnInterval, postWaveDelay := postWaveDelay, enemies := enemies }

/-- The loop of {lit}`Director::parseArchetypes`: the waves before one that fails stay in the
pool. -/
def parseWaves (wavePool : List (Archetype τ)) : List J → List (Archetype τ) × Option ParseError
  | [] => (wavePool, none)
  | wave :: waves =>
      match parseArchetype json wave with
      | .error failure => (wavePool, some failure)
      | .ok archetype => parseWaves (wavePool ++ [archetype]) waves

/-- {lit}`Director::parseArchetypes`. -/
def parseArchetypes (data : J) (wavePool : List (Archetype τ)) :
    List (Archetype τ) × Option ParseError :=
  if !json.contains data "waves" then
    (wavePool, none)
  else
    match json.index data "waves" with
    | .error failure => (wavePool, some failure)
    | .ok waves =>
        if !json.isArray waves then
          (wavePool, none)
        else
          parseWaves json wavePool (json.elements waves)

end

/-! ## Runs over a pool -/

section

variable {τ : Type} [NatCast τ] [Add τ] [Sub τ] [Neg τ] [Mul τ] [Div τ] [LT τ] [DecidableLT τ]

/-- Every run that picks its waves from the pool goes well. -/
def RunsExactly (arithmetic : CreditArithmetic τ) (pool : List (Archetype τ)) : Prop :=
  ∀ (director : Director τ) (frames : List (Frame τ)), director.wavePool = pool →
    director.activeWaves = [] → (∀ frame ∈ frames, frame.playerPos ≠ []) →
      director.HonestRun arithmetic frames → director.Exact frames

variable {arithmetic : CreditArithmetic τ} {pool : List (Archetype τ)} {director : Director τ}
  {frames : List (Frame τ)} {frame : Frame τ} {archetype : Archetype τ}

/-- The lives of one more update are those of waves that can be picked. -/
theorem pickable_of_mem_livesOf (hpool : director.wavePool = pool) {director' : Director τ}
    {outputs : List (List (Spawned τ))} (hfollows : director.Follows frames director' outputs)
    (hlives : ∀ life ∈ livesOf frames, Director.Pickable arithmetic pool life.archetype)
    (hhonest : director'.Honest arithmetic frame) :
    ∀ life ∈ livesOf (frames ++ [frame]), Director.Pickable arithmetic pool life.archetype := by
  intro life hlife
  rw [livesOf_snoc, enroll] at hlife
  split_ifs at hlife with hnone
  · rcases List.mem_append.mp hlife with hlife | hlife
    · exact hlives life hlife
    · rw [recruits, List.mem_mapIdx] at hlife
      rcases hlife with ⟨n, hn, rfl⟩
      rcases hhonest (hfollows.waves.trans (List.isEmpty_iff.mp hnone)) with ⟨draws, hpicks⟩
      rw [Director.wavePool_run hfollows.run, hpool] at hpicks
      exact ⟨draws, _, _, hpicks, List.getElem_mem hn⟩
  · exact hlives life hlife

/-- When the waves that can be picked can be spawned, every run goes well. -/
theorem runsExactly_of_spawnable
    (h : ∀ archetype ∈ pool, Director.Pickable arithmetic pool archetype → archetype.Spawnable) :
    RunsExactly arithmetic pool := by
  intro director frames hpool hempty hplayers hhonest
  have hfollows : ∃ director' outputs, director.Follows frames director' outputs ∧
      ∀ life ∈ livesOf frames, Director.Pickable arithmetic pool life.archetype := by
    induction frames using List.reverseRecOn with
    | nil => exact ⟨director, [], ⟨rfl, hempty, rfl, nofun⟩, nofun⟩
    | append_singleton frames frame ih =>
        rcases hhonest.of_snoc with ⟨hhonest', hlast⟩
        rcases ih (fun other hother => hplayers other (List.mem_append_left _ hother)) hhonest' with
          ⟨director', outputs, hfollows, hlives⟩
        have hlives' := pickable_of_mem_livesOf hpool hfollows hlives
          (hlast director' outputs hfollows.run)
        rcases hfollows.snoc (hplayers frame (List.mem_append_right _ List.mem_cons_self))
          (fun life hlife => h _ (hlives' life hlife).mem.1 (hlives' life hlife)) with
            ⟨director'', spawned, hfollows'⟩
        exact ⟨director'', _, hfollows', hlives'⟩
  rcases hfollows with ⟨director', outputs, hfollows, -⟩
  exact ⟨director', outputs, hfollows⟩

/-! ## A wave that is picked -/

/-- From each place of a timer there is an update in which the wave is due. -/
def CanBeDue (τ : Type) [Add τ] [LT τ] : Prop :=
  ∀ timer interval : τ, ∃ dt, ¬ timer + dt < interval

/-- Each amount of credits can be what an update has when it picks. -/
def CanHaveCredits (τ : Type) [NatCast τ] [Add τ] [Mul τ] [Div τ] : Prop :=
  ∀ credits : τ, ∃ start gameTime dt : τ,
    start + ((baseIncome : τ) + (gameTime + dt) / ((60 : ℕ) : τ) * (incomeMultiplier : τ)) * dt =
      credits

omit [NatCast τ] [Add τ] [Sub τ] [Neg τ] [Mul τ] [Div τ] [LT τ] [DecidableLT τ] in
/-- The cursor stays or goes to the next group, and a wave is finished behind the last one. -/
theorem Active.advance_cases (group : Enemy) (wave : Active τ) :
    (wave.advance group).archetype = wave.archetype ∧
      ((wave.advance group).currentGroupIndex = wave.currentGroupIndex ∧
          (wave.advance group).isFinished = wave.isFinished ∨
        (wave.advance group).currentGroupIndex = wave.currentGroupIndex + 1 ∧
          ((wave.advance group).isFinished = true → wave.isFinished = true ∨
            wave.archetype.enemies.length ≤ wave.currentGroupIndex + 1)) := by
  unfold Active.advance
  dsimp only
  by_cases hlast : wave.spawnedInGroup + 1 ≥ group.count
  · by_cases hend : wave.currentGroupIndex + 1 ≥ wave.archetype.enemies.length
    · rw [if_pos hlast, if_pos hend]
      exact ⟨rfl, .inr ⟨rfl, fun _ => .inr hend⟩⟩
    · rw [if_pos hlast, if_neg hend]
      exact ⟨rfl, .inr ⟨rfl, .inl⟩⟩
  · rw [if_neg hlast]
    exact ⟨rfl, .inl ⟨rfl, rfl⟩⟩

omit [NatCast τ] [Add τ] [Sub τ] [Neg τ] [Mul τ] [Div τ] [LT τ] [DecidableLT τ] in
/-- When the group at the cursor can be spawned, the groups before the next cursor can. -/
theorem Active.groups_advance {group : Enemy} {wave : Active τ}
    (hgroup : wave.archetype.enemies[wave.currentGroupIndex]? = some group)
    (hspawnable : group.Spawnable)
    (hgroups : ∀ group ∈ wave.archetype.enemies.take wave.currentGroupIndex, group.Spawnable) :
    ∀ group' ∈ wave.archetype.enemies.take (wave.advance group).currentGroupIndex,
      group'.Spawnable := by
  intro group' hmem
  rcases (wave.advance_cases group).2 with ⟨hindex, -⟩ | ⟨hindex, -⟩
  · rw [hindex] at hmem
    exact hgroups group' hmem
  · rw [hindex, List.take_add_one, List.mem_append, hgroup] at hmem
    rcases hmem with hmem | hmem
    · exact hgroups group' hmem
    · rw [Option.toList_some, List.mem_singleton] at hmem
      exact hmem ▸ hspawnable

omit [NatCast τ] [Add τ] [Sub τ] [Neg τ] [Mul τ] [Div τ] [LT τ] [DecidableLT τ] in
/-- A wave that becomes finished has its cursor behind the last group. -/
theorem Active.finished_advance {group : Enemy} {wave : Active τ}
    (hrunning : wave.isFinished = false) (hfinished : (wave.advance group).isFinished = true) :
    wave.archetype.enemies.length ≤ (wave.advance group).currentGroupIndex := by
  rcases (wave.advance_cases group).2 with ⟨-, hsame⟩ | ⟨hindex, hlast⟩
  · rw [hsame, hrunning] at hfinished
    cases hfinished
  · rw [hindex]
    rcases hlast hfinished with hwas | hlast
    · rw [hrunning] at hwas
      cases hwas
    · exact hlast

/-- An update that succeeds visits its waves with success. -/
theorem Director.visit_of_update {director director' : Director τ} {frame : Frame τ}
    {spawned : List (Spawned τ)} {wave : Active τ} (hvisited : wave ∈ director.visited frame)
    (hupdate : director.update frame = .ok (director', spawned)) :
    ∃ minOffsetX i result, wave.visit frame minOffsetX i = .ok result := by
  unfold Director.visited at hvisited
  unfold Director.update at hupdate
  dsimp only at hupdate
  rw [if_neg fun hnone => List.ne_nil_of_mem hvisited (List.isEmpty_iff.mp hnone)] at hupdate
  cases hback : Director.lastPlayer frame.playerPos with
  | none =>
      rw [hback] at hupdate
      cases hupdate
  | some back =>
      rw [hback] at hupdate
      rcases List.mem_iff_getElem?.mp hvisited with ⟨i, hi⟩
      dsimp only at hupdate
      split at hupdate
      · cases hupdate
      · rename_i hscan
        rcases ReverseScan.visit_of_scan hscan (List.getElem?_eq_some_iff.mp hi).1 hi with
          ⟨result, hvisit⟩
        exact ⟨_, i, result, hvisit⟩

omit [NatCast τ] [Neg τ] [Mul τ] [Div τ] in
/-- A wave that is due and visited with success has a group at its cursor, which is known. -/
theorem Active.group_of_visit {frame : Frame τ} {minOffsetX : τ} {i : ℕ} {wave : Active τ}
    {result : Option (Active τ) × List (Spawned τ)} (hrunning : wave.isFinished = false)
    (hdue : ¬ wave.timer + frame.dt < wave.archetype.spawnInterval)
    (hvisit : wave.visit frame minOffsetX i = .ok result) :
    ∃ group, wave.archetype.enemies[wave.currentGroupIndex]? = some group ∧
      group.isKnown = true := by
  unfold Active.visit Active.tick at hvisit
  simp only [hrunning, Bool.false_eq_true, if_false, if_neg hdue] at hvisit
  cases hgroup : wave.archetype.enemies[wave.currentGroupIndex]? with
  | none => simp [hgroup] at hvisit
  | some group =>
      refine ⟨group, rfl, ?_⟩
      cases hknown : group.isKnown with
      | true => rfl
      | false => simp [hgroup, hknown] at hvisit

/-! ## The end of its roster -/

/-- A wave of a life, with its groups before the cursor. -/
structure Life.Reached (life : Life τ) (dts : List τ) (wave : Active τ) : Prop where
  state : life.state dts = some wave
  archetype : wave.archetype = life.archetype
  groups : ∀ group ∈ wave.archetype.enemies.take wave.currentGroupIndex, group.Spawnable
  finished : wave.isFinished = true →
    wave.archetype.enemies ≠ [] ∧ wave.archetype.enemies.length ≤ wave.currentGroupIndex

variable {life : Life τ} {wave : Active τ} {director' : Director τ}
  {outputs : List (List (Spawned τ))}

omit [NatCast τ] [Neg τ] [Mul τ] [Div τ] in
theorem Life.Reached.fresh : life.Reached (([] : List (Frame τ)).map Frame.dt) life.fresh where
  state := state_of_length_le (Nat.zero_le _)
  archetype := rfl
  groups := nofun
  finished := nofun

/-- A wave that is due has a group at its cursor, when the update succeeds.  The group can be
spawned, since its enemy is on the roster. -/
theorem Life.Reached.due (h : life.Reached (frames.map Frame.dt) wave)
    (hrunning : wave.isFinished = false) (hborn : life.born ≤ frames.length)
    (hlife : life ∈ livesOf (frames ++ [frame]))
    (hfollows : director.Follows frames director' outputs)
    (hexact : director.Exact (frames ++ [frame]))
    (hdue : ¬ wave.timer + frame.dt < wave.archetype.spawnInterval) :
    ∃ group, wave.archetype.enemies[wave.currentGroupIndex]? = some group ∧ group.Spawnable ∧
      wave.due frame.dt = some group := by
  have hvisited : wave ∈ director'.visited frame := by
    rw [Director.visited_of_alive hfollows.waves, List.mem_filterMap]
    exact ⟨life, hlife, h.state⟩
  rcases hexact with ⟨director'', outputs', hfollows'⟩
  have hrun := hfollows'.run
  rw [Director.run_snoc_of_ok hfollows.run] at hrun
  cases hupdate : director'.update frame with
  | error fault =>
      rw [hupdate] at hrun
      cases hrun
  | ok result =>
      rcases Director.visit_of_update hvisited hupdate with ⟨minOffsetX, i, result, hvisit⟩
      rcases Active.group_of_visit hrunning hdue hvisit with ⟨group, hgroup, hknown⟩
      have hwave : wave.due frame.dt = some group := by
        rw [Active.due, hrunning, Active.isDue, hgroup, decide_eq_false hdue]
        rfl
      refine ⟨group, hgroup, ⟨?_, hknown⟩, hwave⟩
      have hroster : group ∈ life.archetype.roster := by
        apply (hfollows'.rosters life hlife).inOrder.subset
        rw [List.map_append, List.map_singleton,
          Life.spawned_snoc (by rw [List.length_map]; exact hborn), h.state, Option.bind_some,
          hwave]
        exact List.mem_append_right _ List.mem_cons_self
      have hcount : 0 < group.count.toNat := (WeightedChoice.mem_tickets.mp hroster).2
      omega

/-- One more update. -/
theorem Life.Reached.snoc (h : life.Reached (frames.map Frame.dt) wave)
    (hrunning : wave.isFinished = false) (hborn : life.born ≤ frames.length)
    (hlife : life ∈ livesOf (frames ++ [frame]))
    (hfollows : director.Follows frames director' outputs)
    (hexact : director.Exact (frames ++ [frame])) :
    ∃ wave', life.Reached ((frames ++ [frame]).map Frame.dt) wave' ∧
      (¬ wave.timer + frame.dt < wave.archetype.spawnInterval →
        (life.spawned ((frames ++ [frame]).map Frame.dt)).length =
          (life.spawned (frames.map Frame.dt)).length + 1) := by
  have hborn' : life.born ≤ (frames.map Frame.dt).length := by
    rw [List.length_map]
    exact hborn
  rw [List.map_append, List.map_singleton, Life.spawned_snoc hborn', h.state, Option.bind_some]
  have hnext : life.state (frames.map Frame.dt ++ [frame.dt]) = wave.next frame.dt := by
    rw [Life.state_snoc hborn', h.state, Option.bind_some]
  by_cases hdue : wave.timer + frame.dt < wave.archetype.spawnInterval
  · have hwave : wave.due frame.dt = none := by
      simp [Active.due, Active.isDue, hdue]
    rw [Active.next, hwave, if_neg (hrunning ▸ Bool.false_ne_true)] at hnext
    exact ⟨_, ⟨hnext, h.archetype, h.groups, h.finished⟩, fun hnot => absurd hdue hnot⟩
  · rcases h.due hrunning hborn hlife hfollows hexact hdue with
      ⟨group, hgroup, hspawnable, hwave⟩
    rw [Active.next, hwave, if_neg (hrunning ▸ Bool.false_ne_true)] at hnext
    let ticked : Active τ :=
      { wave with timer := wave.timer + frame.dt - wave.archetype.spawnInterval }
    have harchetype : (ticked.advance group).archetype = wave.archetype :=
      (ticked.advance_cases group).1
    refine ⟨ticked.advance group, ⟨hnext, harchetype.trans h.archetype, ?_, ?_⟩, fun _ => ?_⟩
    · rw [harchetype]
      exact @Active.groups_advance _ _ ticked hgroup hspawnable h.groups
    · intro hfinished
      rw [harchetype]
      refine ⟨?_, @Active.finished_advance _ _ ticked hrunning hfinished⟩
      intro hnil
      rw [hnil] at hgroup
      cases hgroup
    · rw [hwave, Option.toList_some, List.length_append, List.length_singleton]

omit [NatCast τ] [Mul τ] [Div τ] in
theorem born_lt {life : Life τ} (h : life ∈ livesOf frames) : life.born < frames.length := by
  rcases picked_of_mem_livesOf h with ⟨frame, hframe, -⟩
  exact (List.getElem?_eq_some_iff.mp hframe).1

/-- An update in which no wave is picked. -/
def waitFrame (dt : τ) : Frame τ where
  dt := dt
  playerPos := [((0 : ℕ) : τ)]
  picked := []
  creditsLeft := ((0 : ℕ) : τ)
  delay _ := ((0 : ℕ) : τ)
  xDist _ := ((0 : ℕ) : τ)
  yDist _ := ((0 : ℕ) : τ)

/-- A wave can be spawned, since it comes to the end of its roster when it is due in each update
from now on. -/
theorem Life.Reached.spawnable (hruns : RunsExactly arithmetic pool) (hdue : CanBeDue τ)
    (hpool : director.wavePool = pool) (hempty : director.activeWaves = [])
    (hplayers : ∀ frame ∈ frames, frame.playerPos ≠ [])
    (hhonest : director.HonestRun arithmetic frames) (hlife : life ∈ livesOf frames)
    (h : life.Reached (frames.map Frame.dt) wave) : life.archetype.Spawnable := by
  induction hleft : life.archetype.roster.length - (life.spawned (frames.map Frame.dt)).length
    using Nat.strong_induction_on generalizing frames wave with
  | _ left ih =>
      cases hfinished : wave.isFinished with
      | true =>
          have hgroups := h.groups
          rw [List.take_of_length_le (h.finished hfinished).2] at hgroups
          rw [← h.archetype]
          exact ⟨(h.finished hfinished).1, hgroups⟩
      | false =>
          rcases hdue wave.timer wave.archetype.spawnInterval with ⟨dt, hdt⟩
          rcases hruns director frames hpool hempty hplayers hhonest with
            ⟨director', outputs, hfollows⟩
          have hhonest' : director.HonestRun arithmetic (frames ++ [waitFrame dt]) := by
            apply hhonest.snoc
            intro director'' outputs' hrun hnone
            cases hfollows.run.symm.trans hrun
            rw [hfollows.waves] at hnone
            exact absurd (List.mem_filterMap.mpr ⟨life, hlife, h.state⟩)
              (List.eq_nil_iff_forall_not_mem.mp hnone wave)
          have hplayers' : ∀ frame ∈ frames ++ [waitFrame dt], frame.playerPos ≠ [] := by
            intro frame hframe
            rcases List.mem_append.mp hframe with hframe | hframe
            · exact hplayers frame hframe
            · rw [List.mem_singleton.mp hframe]
              exact List.cons_ne_nil _ _
          have hexact := hruns director _ hpool hempty hplayers' hhonest'
          have hlife' := Director.mem_livesOf_append hlife [waitFrame dt]
          rcases h.snoc hfinished (born_lt hlife).le hlife' hfollows hexact with
            ⟨wave', hreached, hspawned⟩
          refine ih _ ?_ hplayers' hhonest' hlife' hreached rfl
          rcases hexact with ⟨_, _, hfollows'⟩
          have hle := (hfollows'.rosters life hlife').inOrder.length_le
          rw [hspawned hdt] at hle ⊢
          omega

/-- When every run goes well, the waves that can be picked can be spawned. -/
theorem spawnable_of_runsExactly (hdue : CanBeDue τ) (hcredits : CanHaveCredits τ)
    (hruns : RunsExactly arithmetic pool) (h : Director.Pickable arithmetic pool archetype) :
    archetype.Spawnable := by
  rcases h with ⟨draws, credits, picking, hpicks, hmem⟩
  rcases hcredits credits with ⟨start, gameTime, dt, hgain⟩
  rcases List.mem_iff_getElem?.mp hmem with ⟨n, hn⟩
  let director : Director τ :=
    { wavePool := pool, credits := start, currentDifficulty := ((0 : ℕ) : τ), gameTime := gameTime }
  let first : Frame τ :=
    { waitFrame dt with picked := picking.waves, creditsLeft := picking.credits }
  let life : Life τ := { archetype := archetype, timer := -((0 : ℕ) : τ), born := 0 }
  have hhonest : director.HonestRun arithmetic ([] ++ [first]) := by
    apply Director.HonestRun.nil.snoc
    intro director' outputs hrun _
    cases hrun
    refine ⟨draws, ?_⟩
    change Director.Picks arithmetic pool draws (start + ((baseIncome : τ) +
      (gameTime + dt) / ((60 : ℕ) : τ) * (incomeMultiplier : τ)) * dt) _
    rw [hgain]
    exact hpicks
  have hplayers : ∀ frame ∈ [] ++ [first], frame.playerPos ≠ [] := by
    intro frame hframe
    rw [List.mem_singleton.mp hframe]
    exact List.cons_ne_nil _ _
  have hlife : life ∈ livesOf ([] ++ [first]) :=
    @Director.mem_livesOf_of_picked _ _ _ _ _ _ first [] [] n archetype rfl hn
  have hfollows : director.Follows [] director [] := ⟨rfl, rfl, rfl, nofun⟩
  have hexact := hruns director _ rfl rfl hplayers hhonest
  rcases Life.Reached.fresh.snoc rfl (Nat.zero_le _) hlife hfollows hexact with ⟨wave, hreached, -⟩
  exact hreached.spawnable hruns hdue rfl rfl hplayers hhonest hlife

/-- The pools that the loader accepts are safe to run when the groups of all waves that can be
picked can be spawned, and only then. -/
theorem accepted_pools_safe_iff {J : Type} (json : JsonLibrary J τ) (data : J)
    (arithmetic : CreditArithmetic τ) (hdue : CanBeDue τ) (hcredits : CanHaveCredits τ) :
    RunsExactly arithmetic (parseArchetypes json data []).1 ↔
      ∀ archetype ∈ (parseArchetypes json data []).1,
        Director.Pickable arithmetic (parseArchetypes json data []).1 archetype →
          archetype.Spawnable := by
  constructor
  · intro hruns archetype _ hpickable
    exact spawnable_of_runsExactly hdue hcredits hruns hpickable
  · exact runsExactly_of_spawnable

end

/-! ## With exact numbers -/

theorem canBeDue_rat : CanBeDue ℚ := by
  intro timer interval
  refine ⟨interval - timer, ?_⟩
  rw [add_sub_cancel]
  exact lt_irrefl interval

theorem canHaveCredits_rat : CanHaveCredits ℚ := by
  intro credits
  refine ⟨credits, 0, 0, ?_⟩
  rw [mul_zero, add_zero]

/-- With positive costs, and weights that do not overflow, the waves that have a weight must be
such that they can be spawned, and no others. -/
theorem runsExactly_iff_of_costs {pool : List (Archetype ℚ)}
    (hcosts : ∀ wave ∈ pool, 0 < wave.difficultyCost)
    (htotal : WeightedChoice.total Director.weightOf pool < 2 ^ 64) :
    RunsExactly .exact pool ↔
      ∀ archetype ∈ pool, archetype.weight ≠ 0 → archetype.Spawnable := by
  constructor
  · intro hruns archetype hmem hweight
    exact spawnable_of_runsExactly canBeDue_rat canHaveCredits_rat hruns
      ((Director.pickable_iff hcosts htotal).mpr ⟨hmem, hweight⟩)
  · intro h
    apply runsExactly_of_spawnable
    intro archetype hmem hpickable
    exact h archetype hmem hpickable.mem.2

/-- A file: the values that the configuration of the waves has. -/
inductive Json
  | num (n : ℤ)
  | str (s : String)
  | arr (elements : List Json)
  | obj (fields : List (String × Json))

/-- The library on such files. -/
def jsonLibrary : JsonLibrary Json ℚ where
  contains
    | .obj fields, key => (fields.lookup key).isSome
    | _, _ => false
  isArray
    | .arr _ => true
    | _ => false
  index
    | .obj fields, key => ((fields.lookup key).map Except.ok).getD (.error .undefined)
    | _, _ => .error .typeError
  atKey
    | .obj fields, key => ((fields.lookup key).map Except.ok).getD (.error .outOfRange)
    | _, _ => .error .typeError
  elements
    | .arr elements => elements
    | .obj fields => fields.map Prod.snd
    | value => [value]
  getString
    | .str s => .ok s
    | _ => .error .typeError
  getInt
    | .num n => .ok (n.bmod (2 ^ 32))
    | _ => .error .typeError
  getSize
    | .num n => .ok (UInt64.ofNat (n % 2 ^ 64).toNat)
    | _ => .error .typeError
  getFloat
    | .num n => .ok n
    | _ => .error .typeError

/-- A file with one wave. -/
def waveFile (enemies : List Json) : Json :=
  .obj [("waves", .arr [.obj [
    ("name", .str "wave"), ("difficultyCost", .num 5), ("weight", .num 50),
    ("spawnInterval", .num 1), ("postWaveDelay", .num 3), ("enemies", .arr enemies)]])]

/-- An enemy in a file. -/
def enemyFile (count : ℤ) : Json :=
  .obj [("type", .str "Enemy"), ("pattern", .str "zigzag"), ("count", .num count)]

/-- The wave of such a file. -/
def fileWave (enemies : List Enemy) : Archetype ℚ where
  name := "wave"
  difficultyCost := 5
  weight := 50
  spawnInterval := 1
  postWaveDelay := 3
  enemies := enemies

theorem parse_empty : parseArchetypes jsonLibrary (waveFile []) [] = ([fileWave []], none) := by
  rfl

theorem parse_zero : parseArchetypes jsonLibrary (waveFile [enemyFile 0]) [] =
    ([fileWave [⟨.kEnemy, "zigzag", 0⟩]], none) := by
  rfl

theorem parse_one : parseArchetypes jsonLibrary (waveFile [enemyFile 1]) [] =
    ([fileWave [⟨.kEnemy, "zigzag", 1⟩]], none) := by
  rfl

/-- A file with a wave of one enemy, whose runs all go well. -/
theorem accepted_pools_safe_iff_enemy :
    RunsExactly .exact (parseArchetypes jsonLibrary (waveFile [enemyFile 1]) []).1 := by
  apply (accepted_pools_safe_iff jsonLibrary (waveFile [enemyFile 1]) .exact canBeDue_rat
    canHaveCredits_rat).mpr
  rw [parse_one]
  intro archetype hmem _
  rw [List.mem_singleton] at hmem
  subst hmem
  refine ⟨List.cons_ne_nil _ _, ?_⟩
  intro group hgroup
  rw [fileWave, List.mem_singleton] at hgroup
  subst hgroup
  exact ⟨by decide, by decide⟩

/-- A director that has loaded a file, with three credits. -/
def loaded (data : Json) : Director ℚ where
  wavePool := (parseArchetypes jsonLibrary data []).1
  credits := 3
  currentDifficulty := 0
  gameTime := 0

/-- A second with one player, in which the wave of a file is picked for five credits. -/
def fileFrame (enemies : List Enemy) : Frame ℚ where
  dt := 1
  playerPos := [200]
  picked := [fileWave enemies]
  creditsLeft := 1 / 30
  delay _ := 0
  xDist _ := 150
  yDist _ := 200

/-- The director picks the wave. -/
theorem honest_fileFrame {data : Json} {enemies : List Enemy}
    (hparse : parseArchetypes jsonLibrary data [] = ([fileWave enemies], none)) :
    (loaded data).Honest .exact (fileFrame enemies) := by
  intro _
  have hpool : (loaded data).wavePool = [fileWave enemies] := by
    rw [loaded, hparse]
  have hcredits : ((loaded data).gainCredits (fileFrame enemies)).credits = 151 / 30 := by
    norm_num [Director.gainCredits, loaded, fileFrame, baseIncome, incomeMultiplier]
  have hoffered : Director.candidates .exact [fileWave enemies] (151 / 30) =
      [fileWave enemies] := by
    norm_num [Director.candidates, Director.preferred, CreditArithmetic.exact, fileWave]
  have hstuck : Director.candidates .exact [fileWave enemies] (1 / 30) = [] := by
    norm_num [Director.candidates, Director.preferred, Director.affordable,
      CreditArithmetic.exact, fileWave]
  have hweight : Director.totalWeight
      (Director.candidates .exact [fileWave enemies] (151 / 30)) ≠ 0 := by
    rw [hoffered]
    change (0 + 50 : UInt64) ≠ 0
    decide
  rcases @Director.turn_of_go _ .exact [fileWave enemies] Server.Director.lastDraws 0
    { credits := 151 / 30 } (decide_eq_true (by norm_num)) hweight with ⟨wave, hwave, -, -, hturn⟩
  rw [List.mem_singleton] at hwave
  subst hwave
  have hleft : CreditArithmetic.exact.pay (151 / 30) (fileWave enemies).difficultyCost =
      1 / 30 := by
    norm_num [CreditArithmetic.exact, fileWave]
  rw [hleft] at hturn
  have hend : Director.turn .exact [fileWave enemies] Server.Director.lastDraws 1
      { credits := 1 / 30, waves := [] ++ [fileWave enemies] } = none :=
    Director.turn_of_stop (.inr (by rw [hstuck]; rfl))
  refine ⟨Server.Director.lastDraws, 2, ?_⟩
  rw [hpool, hcredits, Director.getPickedWaves, WhileLoop.run_of_some 1 hturn,
    WhileLoop.run_of_none 0 hend]
  rfl

/-- A wave without enemies is accepted and picked, and its first update looks behind the list; a
group of no enemies is accepted and picked, and spawns one. -/
theorem empty_waves_accepted :
    ((parseArchetypes jsonLibrary (waveFile []) []).2 = none ∧
        (loaded (waveFile [])).Honest .exact (fileFrame []) ∧
        (loaded (waveFile [])).run [fileFrame []] = .error .undefined) ∧
      (parseArchetypes jsonLibrary (waveFile [enemyFile 0]) []).2 = none ∧
        (loaded (waveFile [enemyFile 0])).Honest .exact (fileFrame [⟨.kEnemy, "zigzag", 0⟩]) ∧
        ((loaded (waveFile [enemyFile 0])).run [fileFrame [⟨.kEnemy, "zigzag", 0⟩]]).map
          Prod.snd = .ok [[⟨750, 200, ⟨.kEnemy, "zigzag", 0⟩⟩]] := by
  refine ⟨⟨by rw [parse_empty], honest_fileFrame parse_empty, ?_⟩, by rw [parse_zero],
    honest_fileFrame parse_zero, ?_⟩
  · simp [Director.run, Director.update, loaded, Director.gainCredits,
      Director.pickNewWaveIfNeeded, Director.pickRandomWaves, fileFrame, fileWave,
      Director.lastPlayer, ReverseScan.scan, Active.visit, Active.tick]
  · have hknown : Enemy.isKnown ⟨.kEnemy, "zigzag", 0⟩ = true := by decide
    simp [Director.run, Director.update, loaded, Director.gainCredits,
      Director.pickNewWaveIfNeeded, Director.pickRandomWaves, fileFrame, fileWave,
      Director.lastPlayer, ReverseScan.scan, Active.visit, Active.tick, hknown, Except.map]
    norm_num

end Rtype.Server.Level
