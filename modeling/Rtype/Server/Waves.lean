import Mathlib
import Rtype.Foundations.ReverseScan
import Rtype.Foundations.WeightedChoice
import Rtype.Server.LevelDirector
import Rtype.Server.Lobby

/-!
# Server - The waves

The waves that the director has picked run side by side.  Each one has a timer and a cursor
into its groups of enemies; an update visits them from the last one to the first, erases
those that have finished, and lets each other one spawn an enemy when its timer is due.

Main results:

- Theorem {lit}`Active.Sound.next_cases`: what an update does to one wave.
- Theorem {lit}`Director.update_eq`: what it does to all of them.

Current gaps:

- Which waves are picked in an update, and the random numbers, are given from outside.
-/

namespace Rtype.Server.Level

/-! ## Archetypes and waves -/

/-- {lit}`level::Enemy`: a group of enemies. -/
structure Enemy where
  type : EntityType
  patternName : String
  count : ℤ
  deriving DecidableEq

/-- {lit}`level::wave::Archetype`. -/
structure Archetype (τ : Type) extends Rtype.Server.Archetype where
  name : String := ""
  spawnInterval : τ
  postWaveDelay : τ
  enemies : List Enemy

/-- {lit}`level::wave::Active`. -/
structure Active (τ : Type) where
  archetype : Archetype τ
  timer : τ
  currentGroupIndex : ℕ := 0
  spawnedInGroup : ℤ := 0
  isFinished : Bool := false

/-- {lit}`level::Director`, without its random numbers. -/
structure Director (τ : Type) where
  wavePool : List (Archetype τ) := []
  credits : τ
  currentDifficulty : τ
  gameTime : τ
  activeWaves : List (Active τ) := []

/-- How an update can fail. -/
inductive Fault
  /-- {lit}`back()` of an empty vector -/
  | emptyBack
  /-- {lit}`std::out_of_range` -/
  | outOfRange
  /-- an access past the end of a vector -/
  | undefined
  deriving DecidableEq

/-- An enemy that is spawned: where, and from which group. -/
structure Spawned (τ : Type) where
  x : τ
  y : τ
  group : Enemy

/-- What an update gets from outside: the time, the places of the players, what
{lit}`getPickedWaves` returns if it is called and the credits that it leaves, and the random
numbers, by the number of the picked wave and by the index in the loop. -/
structure Frame (τ : Type) where
  dt : τ
  playerPos : List τ
  picked : List (Archetype τ)
  creditsLeft : τ
  delay : ℕ → τ
  xDist : ℕ → τ
  yDist : ℕ → τ

/-- The components of an enemy are found in the tables. -/
def Enemy.isKnown (group : Enemy) : Bool :=
  (Lobby.typeToHitbox group.type).isSome && (Lobby.typeToVelocity group.type).isSome &&
    (Lobby.typeToValue group.type).isSome && (Lobby.nameToMoveSet group.patternName).isSome

namespace Active

variable {τ : Type} [Add τ] [Sub τ] [LT τ] [DecidableLT τ]

/-- The end of the loop body: one more enemy of the group has been spawned. -/
def advance (group : Enemy) (wave : Active τ) : Active τ :=
  let wave := { wave with spawnedInGroup := wave.spawnedInGroup + 1 }
  if wave.spawnedInGroup ≥ group.count then
    let wave := { wave with
      spawnedInGroup := 0, currentGroupIndex := wave.currentGroupIndex + 1 }
    if wave.currentGroupIndex ≥ wave.archetype.enemies.length then
      { wave with isFinished := true }
    else
      wave
  else
    wave

/-- The loop body for a wave that is not finished. -/
def tick (frame : Frame τ) (minOffsetX : τ) (i : ℕ) (wave : Active τ) :
    Except Fault (Active τ × List (Spawned τ)) :=
  let wave := { wave with timer := wave.timer + frame.dt }
  if wave.timer < wave.archetype.spawnInterval then
    .ok (wave, [])
  else
    let wave := { wave with timer := wave.timer - wave.archetype.spawnInterval }
    match wave.archetype.enemies[wave.currentGroupIndex]? with
    | none => .error .undefined
    | some group =>
        if group.isKnown then
          .ok (wave.advance group,
            [{ x := minOffsetX + frame.xDist i, y := frame.yDist i, group := group }])
        else
          .error .outOfRange

/-- The loop body: what becomes of the wave, and what it spawns. -/
def visit (frame : Frame τ) (minOffsetX : τ) (i : ℕ) (wave : Active τ) :
    Except Fault (Option (Active τ) × List (Spawned τ)) :=
  if wave.isFinished then
    .ok (none, [])
  else
    match wave.tick frame minOffsetX i with
    | .error fault => .error fault
    | .ok (wave, spawned) => .ok (some wave, spawned)

end Active

/-! ## The director -/

/-- {lit}`BASE_INCOME` and {lit}`INCOME_MULTIPLIER`. -/
def baseIncome : ℕ := 2
def incomeMultiplier : ℕ := 2

namespace Director

section

variable {τ : Type} [NatCast τ] [Add τ] [Sub τ] [Neg τ] [Mul τ] [Div τ] [LT τ] [DecidableLT τ]

/-- {lit}`Director::pickRandomWaves`. -/
def pickRandomWaves (frame : Frame τ) (director : Director τ) : Director τ :=
  { director with
    credits := frame.creditsLeft
    activeWaves := director.activeWaves ++ frame.picked.mapIdx fun n archetype =>
      { archetype := archetype, timer := -frame.delay n } }

/-- {lit}`Director::pickNewWaveIfNeeded`. -/
def pickNewWaveIfNeeded (frame : Frame τ) (director : Director τ) : Director τ :=
  if !director.activeWaves.isEmpty then director else director.pickRandomWaves frame

/-- The start of {lit}`Director::update`. -/
def gainCredits (frame : Frame τ) (director : Director τ) : Director τ :=
  let gameTime := director.gameTime + frame.dt
  let incomeRate := (baseIncome : τ) + gameTime / ((60 : ℕ) : τ) * (incomeMultiplier : τ)
  { director with
    gameTime := gameTime
    credits := director.credits + incomeRate * frame.dt }

/-- {lit}`playerPos.back()`, after the sort. -/
def lastPlayer (playerPos : List τ) : Option τ :=
  (playerPos.mergeSort fun a b => !decide (b < a)).getLast?

/-- {lit}`Director::update`. -/
def update (frame : Frame τ) (director : Director τ) :
    Except Fault (Director τ × List (Spawned τ)) :=
  let director := (director.gainCredits frame).pickNewWaveIfNeeded frame
  if director.activeWaves.isEmpty then
    .ok (director, [])
  else
    match lastPlayer frame.playerPos with
    | none => .error .emptyBack
    | some back =>
        let minOffsetX := back + ((400 : ℕ) : τ)
        match ReverseScan.scan (Active.visit frame minOffsetX) .undefined
            director.activeWaves.length director.activeWaves [] with
        | .error fault => .error fault
        | .ok (activeWaves, spawned) => .ok ({ director with activeWaves := activeWaves }, spawned)

/-- {lit}`Director::restart`. -/
def restart (director : Director τ) : Director τ :=
  { director with
    activeWaves := []
    credits := ((0 : ℕ) : τ)
    currentDifficulty := ((0 : ℕ) : τ)
    gameTime := ((0 : ℕ) : τ) }

/-- Updates one after another, with what each of them spawns. -/
def run (frames : List (Frame τ)) (director : Director τ) :
    Except Fault (Director τ × List (List (Spawned τ))) :=
  frames.foldlM (fun state frame =>
    match state.1.update frame with
    | .error fault => .error fault
    | .ok (director, spawned) => .ok (director, state.2 ++ [spawned])) (director, [])

end

end Director

/-! ## Rosters -/

/-- How many enemies a group has. -/
def Enemy.size (group : Enemy) : ℕ :=
  group.count.toNat

/-- All enemies of a wave, group by group. -/
def Archetype.roster {τ : Type} (archetype : Archetype τ) : List Enemy :=
  WeightedChoice.tickets Enemy.size archetype.enemies

/-- A group that can be spawned as it says. -/
structure Enemy.Spawnable (group : Enemy) : Prop where
  count : 1 ≤ group.count
  known : group.isKnown = true

/-- A wave that can be spawned as it says. -/
structure Archetype.Spawnable {τ : Type} (archetype : Archetype τ) : Prop where
  nonempty : archetype.enemies ≠ []
  groups : ∀ group ∈ archetype.enemies, group.Spawnable

namespace Active

variable {τ : Type}

/-- How many enemies lie before the cursor. -/
def progress (wave : Active τ) : ℕ :=
  WeightedChoice.total Enemy.size (wave.archetype.enemies.take wave.currentGroupIndex) +
    wave.spawnedInGroup.toNat

/-- The cursor points at an enemy of a group, or behind all groups when the wave is
finished. -/
structure Sound (wave : Active τ) : Prop where
  spawnable : wave.archetype.Spawnable
  running : wave.isFinished = false →
    ∃ group, wave.archetype.enemies[wave.currentGroupIndex]? = some group ∧
      0 ≤ wave.spawnedInGroup ∧ wave.spawnedInGroup < group.count
  finished : wave.isFinished = true →
    wave.currentGroupIndex = wave.archetype.enemies.length ∧ wave.spawnedInGroup = 0

variable {wave : Active τ} {group : Enemy}

/-- A wave that was picked. -/
theorem Sound.fresh {archetype : Archetype τ} (h : archetype.Spawnable) (timer : τ) :
    Sound { archetype := archetype, timer := timer } where
  spawnable := h
  running := by
    intro _
    rcases List.exists_cons_of_ne_nil h.nonempty with ⟨first, rest, henemies⟩
    have hcount := (h.groups first (henemies ▸ List.mem_cons_self)).count
    have hpos : 0 < first.count := by omega
    refine ⟨first, ?_, le_refl 0, hpos⟩
    change archetype.enemies[0]? = some first
    rw [henemies, List.getElem?_cons_zero]
  finished := nofun

/-- The enemy at the cursor is the next one of the roster. -/
theorem roster_progress (hgroup : wave.archetype.enemies[wave.currentGroupIndex]? = some group)
    (hnonneg : 0 ≤ wave.spawnedInGroup) (hless : wave.spawnedInGroup < group.count) :
    wave.archetype.roster[wave.progress]? = some group :=
  WeightedChoice.tickets_getElem? hgroup (by rw [Enemy.size]; omega)

/-- A wave is finished when its cursor is behind the roster. -/
theorem Sound.finished_iff (h : wave.Sound) :
    wave.isFinished = true ↔ wave.archetype.roster.length ≤ wave.progress := by
  cases hfinished : wave.isFinished with
  | true =>
      rcases h.finished hfinished with ⟨hindex, hspawned⟩
      rw [Archetype.roster, WeightedChoice.length_tickets, progress, hindex, List.take_length]
      simp
  | false =>
      rcases h.running hfinished with ⟨group, hgroup, hnonneg, hless⟩
      have hroster := roster_progress hgroup hnonneg hless
      have hinside := (List.getElem?_eq_some_iff.mp hroster).1
      simp only [Bool.false_eq_true, false_iff, not_le]
      exact hinside

/-- Spawning moves the cursor to the next enemy. -/
theorem Sound.advance (h : wave.Sound) (hrunning : wave.isFinished = false)
    (hgroup : wave.archetype.enemies[wave.currentGroupIndex]? = some group) :
    (wave.advance group).Sound ∧ (wave.advance group).archetype = wave.archetype ∧
      (wave.advance group).progress = wave.progress + 1 := by
  rcases h.running hrunning with ⟨group', hgroup', hnonneg, hless⟩
  rw [hgroup, Option.some_inj] at hgroup'
  subst hgroup'
  have hinside := (List.getElem?_eq_some_iff.mp hgroup).1
  by_cases hlast : wave.spawnedInGroup + 1 ≥ group.count
  · -- the group is complete
    have htotal := @WeightedChoice.total_take_succ _ Enemy.size _ _ _ hgroup
    by_cases hend : wave.currentGroupIndex + 1 ≥ wave.archetype.enemies.length
    · have heq : wave.advance group =
          { wave with
            spawnedInGroup := 0, currentGroupIndex := wave.currentGroupIndex + 1,
            isFinished := true } := by
        simp only [Active.advance, if_pos hlast, if_pos hend]
      rw [heq]
      refine ⟨⟨h.spawnable, nofun, fun _ => ⟨le_antisymm hinside hend, rfl⟩⟩, rfl, ?_⟩
      simp only [progress, htotal, Enemy.size]
      omega
    · have heq : wave.advance group =
          { wave with
            spawnedInGroup := 0, currentGroupIndex := wave.currentGroupIndex + 1 } := by
        simp only [Active.advance, if_pos hlast, if_neg hend]
      have hmore : wave.currentGroupIndex + 1 < wave.archetype.enemies.length := by omega
      have hcount := (h.spawnable.groups _ (List.getElem_mem hmore)).count
      rw [heq]
      refine ⟨⟨h.spawnable, fun _ => ?_, fun hfinished => ?_⟩, rfl, ?_⟩
      · exact ⟨_, List.getElem?_eq_getElem hmore, le_refl 0, Int.lt_of_lt_of_le Int.one_pos hcount⟩
      · exact absurd hfinished (by rw [hrunning]; exact Bool.false_ne_true)
      · simp only [progress, htotal, Enemy.size]
        omega
  · have heq : wave.advance group =
        { wave with spawnedInGroup := wave.spawnedInGroup + 1 } := by
      simp only [Active.advance, if_neg hlast]
    rw [heq]
    refine ⟨⟨h.spawnable, fun _ => ?_, fun hfinished => ?_⟩, rfl, ?_⟩
    · exact ⟨group, hgroup, Int.add_nonneg hnonneg Int.one_nonneg, Int.not_le.mp hlast⟩
    · exact absurd hfinished (by rw [hrunning]; exact Bool.false_ne_true)
    · simp only [progress]
      omega

end Active

/-! ## One update of one wave -/

namespace Active

variable {τ : Type} [Add τ] [Sub τ] [LT τ] [DecidableLT τ]

/-- The timer of a wave in an update: it is due, or not. -/
def isDue (dt : τ) (wave : Active τ) : Bool :=
  !decide (wave.timer + dt < wave.archetype.spawnInterval)

/-- The group of which a wave spawns an enemy in an update. -/
def due (dt : τ) (wave : Active τ) : Option Enemy :=
  if wave.isFinished then none
  else if wave.isDue dt then wave.archetype.enemies[wave.currentGroupIndex]?
  else none

/-- What becomes of a wave in an update. -/
def next (dt : τ) (wave : Active τ) : Option (Active τ) :=
  if wave.isFinished then none
  else
    match wave.due dt with
    | none => some { wave with timer := wave.timer + dt }
    | some group =>
        some (({ wave with timer := wave.timer + dt - wave.archetype.spawnInterval } :
          Active τ).advance group)

variable {wave : Active τ} {frame : Frame τ} {minOffsetX : τ} {i : ℕ}

/-- The enemies that a wave spawns in an update, in their places. -/
def place (frame : Frame τ) (minOffsetX : τ) (i : ℕ) (wave : Active τ) : List (Spawned τ) :=
  (wave.due frame.dt).toList.map fun group =>
    { x := minOffsetX + frame.xDist i, y := frame.yDist i, group := group }

/-- The visit of a wave in the loop: a finished wave is erased, and another one spawns the
enemy that is due. -/
theorem Sound.visit_eq (h : wave.Sound) :
    wave.visit frame minOffsetX i =
      .ok (wave.next frame.dt, wave.place frame minOffsetX i) := by
  unfold visit next place
  by_cases hfinished : wave.isFinished = true
  · rw [if_pos hfinished, if_pos hfinished, due, if_pos hfinished]
    rfl
  · rw [if_neg hfinished, if_neg hfinished]
    rcases h.running (Bool.not_eq_true _ ▸ hfinished) with ⟨group, hgroup, -, -⟩
    have hknown := (h.spawnable.groups group (List.mem_of_getElem? hgroup)).known
    by_cases hearly : wave.timer + frame.dt < wave.archetype.spawnInterval
    · have hdue : wave.due frame.dt = none := by
        simp [due, isDue, hearly]
      simp only [tick, if_pos hearly, hdue]
      rfl
    · have hdue : wave.due frame.dt = some group := by
        simp [due, isDue, hearly, hfinished, hgroup]
      simp only [tick, if_neg hearly, hgroup, hknown, if_true, hdue]
      rfl

/-- What a wave goes through in an update: it is erased when its roster is complete, and
otherwise it waits or spawns the next enemy of the roster. -/
theorem Sound.next_cases (h : wave.Sound) (dt : τ) :
    (wave.isFinished = true ∧ wave.next dt = none ∧ wave.due dt = none) ∨
      ∃ wave', wave.next dt = some wave' ∧ wave'.Sound ∧ wave'.archetype = wave.archetype ∧
        ((wave.due dt = none ∧ wave'.progress = wave.progress) ∨
          ∃ group, wave.due dt = some group ∧ wave.archetype.roster[wave.progress]? = some group ∧
            wave'.progress = wave.progress + 1) := by
  by_cases hfinished : wave.isFinished = true
  · left
    exact ⟨hfinished, by rw [next, if_pos hfinished], by rw [due, if_pos hfinished]⟩
  · right
    have hrunning : wave.isFinished = false := Bool.not_eq_true _ ▸ hfinished
    rcases h.running hrunning with ⟨group, hgroup, hnonneg, hless⟩
    by_cases hearly : wave.isDue dt = true
    · have hdue : wave.due dt = some group := by
        rw [due, if_neg hfinished, if_pos hearly, hgroup]
      have hmoved : Sound { wave with
          timer := wave.timer + dt - wave.archetype.spawnInterval } :=
        ⟨h.spawnable, h.running, h.finished⟩
      rcases hmoved.advance hrunning hgroup with ⟨hsound, harchetype, hprogress⟩
      refine ⟨_, by rw [next, if_neg hfinished, hdue], hsound, harchetype, .inr ?_⟩
      exact ⟨group, hdue, roster_progress hgroup hnonneg hless, hprogress⟩
    · have hdue : wave.due dt = none := by
        rw [due, if_neg hfinished, if_neg hearly]
      refine ⟨{ wave with timer := wave.timer + dt }, by rw [next, if_neg hfinished, hdue], ?_,
        rfl, .inl ⟨hdue, rfl⟩⟩
      exact ⟨h.spawnable, h.running, h.finished⟩

end Active

/-! ## One update of all waves -/

namespace Director

variable {τ : Type} [NatCast τ] [Add τ] [Sub τ] [Neg τ] [Mul τ] [Div τ] [LT τ] [DecidableLT τ]

/-- The waves that an update visits. -/
def visited (frame : Frame τ) (director : Director τ) : List (Active τ) :=
  ((director.gainCredits frame).pickNewWaveIfNeeded frame).activeWaves

omit [Sub τ] [LT τ] [DecidableLT τ] in
theorem visited_eq (frame : Frame τ) (director : Director τ) :
    director.visited frame =
      if director.activeWaves.isEmpty then
        frame.picked.mapIdx fun n archetype =>
          { archetype := archetype, timer := -frame.delay n }
      else director.activeWaves := by
  unfold visited pickNewWaveIfNeeded
  change (if !director.activeWaves.isEmpty then director.gainCredits frame
    else (director.gainCredits frame).pickRandomWaves frame).activeWaves = _
  cases hempty : director.activeWaves.isEmpty with
  | false => rfl
  | true =>
      change director.activeWaves ++ _ = _
      rw [List.isEmpty_iff.mp hempty]
      rfl

omit [NatCast τ] [Add τ] [Sub τ] [Neg τ] [Mul τ] [Div τ] in
theorem exists_lastPlayer {playerPos : List τ} (h : playerPos ≠ []) :
    ∃ back, lastPlayer playerPos = some back := by
  have hsorted : (playerPos.mergeSort fun a b => !decide (b < a)) ≠ [] := by
    intro hnil
    apply h
    rw [← List.length_eq_zero_iff, ← List.length_mergeSort, hnil, List.length_nil]
  exact ⟨_, List.getLast?_eq_some_getLast hsorted⟩

omit [NatCast τ] [Sub τ] [Neg τ] [Mul τ] [Div τ] in
/-- What the waves spawn in the loop, by their groups. -/
theorem groups_place (frame : Frame τ) (minOffsetX : τ) (waves : List (Active τ)) :
    (waves.zipIdx.reverse.flatMap fun entry =>
      entry.1.place frame minOffsetX entry.2).map Spawned.group =
        waves.reverse.filterMap (Active.due frame.dt) := by
  have hgroup : ∀ entry : Active τ × ℕ,
      (entry.1.place frame minOffsetX entry.2).map Spawned.group =
        (entry.1.due frame.dt).toList := by
    intro entry
    rw [Active.place, List.map_map]
    exact List.map_id _
  rw [List.map_flatMap]
  simp only [hgroup]
  rw [← List.filterMap_eq_flatMap_toList]
  have hunzip : waves.reverse = waves.zipIdx.reverse.map Prod.fst := by
    rw [List.map_reverse, List.zipIdx_map_fst]
  rw [hunzip, List.filterMap_map]
  rfl

/-- An update never fails while the waves are sound.  Each wave is visited once: it goes
through its own update, and all of them together spawn the enemies that are due, from the
last wave to the first. -/
theorem update_eq {frame : Frame τ} {director : Director τ} (hplayers : frame.playerPos ≠ [])
    (hsound : ∀ wave ∈ director.visited frame, wave.Sound) :
    ∃ director' spawned, director.update frame = .ok (director', spawned) ∧
      director'.activeWaves = (director.visited frame).filterMap (Active.next frame.dt) ∧
      spawned.map Spawned.group =
        (director.visited frame).reverse.filterMap (Active.due frame.dt) := by
  rcases exists_lastPlayer hplayers with ⟨back, hback⟩
  by_cases hnone : (director.visited frame).isEmpty = true
  · refine ⟨(director.gainCredits frame).pickNewWaveIfNeeded frame, [], ?_, ?_, ?_⟩
    · rw [update]
      exact if_pos hnone
    · change director.visited frame = _
      rw [List.isEmpty_iff.mp hnone]
      rfl
    · rw [List.isEmpty_iff.mp hnone]
      rfl
  · have hscan := @ReverseScan.scan_eq _ _ _
      (Active.visit frame (back + ((400 : ℕ) : τ))) Fault.undefined (Active.next frame.dt)
      (fun i wave => wave.place frame (back + ((400 : ℕ) : τ)) i) (director.visited frame) [] []
      (fun i wave hwave => (hsound wave (List.mem_of_getElem? hwave)).visit_eq)
    rw [List.append_nil, List.append_nil, List.nil_append] at hscan
    refine ⟨{ (director.gainCredits frame).pickNewWaveIfNeeded frame with
      activeWaves := (director.visited frame).filterMap (Active.next frame.dt) }, _, ?_, rfl,
      groups_place frame (back + ((400 : ℕ) : τ)) (director.visited frame)⟩
    unfold visited at hnone hscan ⊢
    unfold update
    dsimp only
    rw [if_neg hnone, hback]
    dsimp only
    rw [hscan]

end Director

end Rtype.Server.Level
