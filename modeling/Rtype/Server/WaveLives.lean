import Mathlib
import Rtype.Server.Waves

/-!
# Server - The lives of the waves

Every wave that is picked has a life of its own, in which there are no other waves: it starts
with the update that picks it, and goes through each update from then on.  Over any run the
director, with its one vector and its loop that erases, is the same as these lives side by
side.

Main results:

- Theorem {lit}`Life.tells`: a life spawns its roster, in order.
- Theorem {lit}`Director.exact_of_spawnable`: every run that picks waves which can be spawned
  spawns their rosters.

Current gaps:

- None.
-/

namespace Rtype.Server.Level

/-! ## One life -/

/-- A picked wave: its archetype, the timer that it starts with, and the number of the update
that picks it. -/
structure Life (τ : Type) where
  archetype : Archetype τ
  timer : τ
  born : ℕ

namespace Life

variable {τ : Type} [Add τ] [Sub τ] [LT τ] [DecidableLT τ]

/-- The wave when it is picked. -/
def fresh (life : Life τ) : Active τ :=
  { archetype := life.archetype, timer := life.timer }

/-- The wave after some updates, as long as it is not erased. -/
def state (life : Life τ) (dts : List τ) : Option (Active τ) :=
  (dts.drop life.born).foldl (fun wave dt => wave.bind (Active.next dt)) (some life.fresh)

/-- What the wave spawns in an update, by the number of the update. -/
def spawnAt (life : Life τ) (dts : List τ) (k : ℕ) : Option Enemy :=
  if life.born ≤ k then dts[k]?.bind fun dt => (life.state (dts.take k)).bind (Active.due dt)
  else none

/-- What the wave spawns in some updates. -/
def spawned (life : Life τ) (dts : List τ) : List Enemy :=
  (List.range dts.length).filterMap (life.spawnAt dts)

/-- The wave spawns its roster in order, is finished when the roster is complete, and until
then points at one of its groups. -/
structure KeepsRoster (life : Life τ) (dts : List τ) : Prop where
  inOrder : life.spawned dts <+: life.archetype.roster
  finished : ∀ wave, life.state dts = some wave →
    (wave.isFinished = true ↔ life.spawned dts = life.archetype.roster)
  inRange : ∀ wave, life.state dts = some wave → wave.isFinished = false →
    wave.currentGroupIndex < wave.archetype.enemies.length
  erased : life.state dts = none → life.spawned dts = life.archetype.roster

variable {life : Life τ} {dts : List τ} {dt : τ}

theorem state_of_length_le (h : dts.length ≤ life.born) : life.state dts = some life.fresh := by
  rw [state, List.drop_of_length_le h, List.foldl_nil]

theorem state_snoc (h : life.born ≤ dts.length) :
    life.state (dts ++ [dt]) = (life.state dts).bind (Active.next dt) := by
  rw [state, List.drop_append_of_le_length h, List.foldl_append, List.foldl_cons, List.foldl_nil,
    ← state]

theorem spawnAt_append {k : ℕ} (hk : k < dts.length) :
    life.spawnAt (dts ++ [dt]) k = life.spawnAt dts k := by
  rw [spawnAt, spawnAt, List.getElem?_append_left hk, List.take_append_of_le_length hk.le]

theorem spawnAt_length (h : life.born ≤ dts.length) :
    life.spawnAt (dts ++ [dt]) dts.length = (life.state dts).bind (Active.due dt) := by
  rw [spawnAt, if_pos h, List.getElem?_concat_length, Option.bind_some, List.take_left]

theorem spawnAt_of_lt {k : ℕ} (hk : k < life.born) : life.spawnAt dts k = none :=
  if_neg (Nat.not_le_of_lt hk)

theorem spawned_of_length_le (h : dts.length ≤ life.born) : life.spawned dts = [] := by
  rw [spawned, List.filterMap_eq_nil_iff]
  intro k hk
  exact spawnAt_of_lt ((List.mem_range.mp hk).trans_le h)

theorem spawned_snoc (h : life.born ≤ dts.length) :
    life.spawned (dts ++ [dt]) =
      life.spawned dts ++ ((life.state dts).bind (Active.due dt)).toList := by
  have hfront : (List.range dts.length).filterMap (life.spawnAt (dts ++ [dt])) =
      life.spawned dts := by
    apply List.filterMap_congr
    intro k hk
    exact spawnAt_append (List.mem_range.mp hk)
  have hlast : life.spawnAt (dts ++ [dt]) dts.length = _ := spawnAt_length h
  rw [spawned, List.length_append, List.length_singleton, List.range_succ, List.filterMap_append,
    hfront, ← hlast]
  cases hdue : life.spawnAt (dts ++ [dt]) dts.length with
  | none => simp [hdue]
  | some group => simp [hdue]

/-- A life spawns its roster up to the cursor, and is over when the roster is complete. -/
theorem tells (hspawnable : life.archetype.Spawnable) (hborn : life.born ≤ dts.length) :
    (∃ wave, life.state dts = some wave ∧ wave.Sound ∧ wave.archetype = life.archetype ∧
      life.spawned dts = life.archetype.roster.take wave.progress) ∨
      (life.state dts = none ∧ life.spawned dts = life.archetype.roster) := by
  induction dts using List.reverseRecOn with
  | nil =>
      left
      refine ⟨life.fresh, state_of_length_le (Nat.zero_le _), .fresh hspawnable life.timer, rfl, ?_⟩
      rw [spawned_of_length_le (Nat.zero_le _)]
      rfl
  | append_singleton dts dt ih =>
      rw [List.length_append, List.length_singleton] at hborn
      rcases Nat.lt_or_ge dts.length life.born with hlast | hborn'
      · -- the wave has just been picked
        have hlength : (dts ++ [dt]).length ≤ life.born := by
          rw [List.length_append, List.length_singleton]
          exact hlast
        left
        refine ⟨life.fresh, state_of_length_le hlength, .fresh hspawnable life.timer, rfl, ?_⟩
        rw [spawned_of_length_le hlength]
        rfl
      · rw [state_snoc hborn', spawned_snoc hborn']
        rcases ih hborn' with ⟨wave, hstate, hsound, harchetype, hspawned⟩ | ⟨hstate, hspawned⟩
        · rw [hstate, Option.bind_some, Option.bind_some, hspawned]
          rcases hsound.next_cases dt with ⟨hfinished, hnext, hdue⟩ |
            ⟨wave', hnext, hsound', harchetype', hmoves⟩
          · right
            have hlength := hsound.finished_iff.mp hfinished
            rw [harchetype] at hlength
            refine ⟨hnext, ?_⟩
            rw [hdue, Option.toList_none, List.append_nil, List.take_of_length_le hlength]
          · left
            refine ⟨wave', hnext, hsound', harchetype'.trans harchetype, ?_⟩
            rcases hmoves with ⟨hdue, hprogress⟩ | ⟨group, hdue, hroster, hprogress⟩
            · rw [hdue, Option.toList_none, List.append_nil, hprogress]
            · rw [harchetype] at hroster
              rw [hdue, hprogress, List.take_add_one, hroster]
        · right
          rw [hstate, Option.bind_none, Option.bind_none, hspawned, Option.toList_none,
            List.append_nil]
          exact ⟨rfl, rfl⟩

theorem keepsRoster (hspawnable : life.archetype.Spawnable) (hborn : life.born ≤ dts.length) :
    life.KeepsRoster dts := by
  rcases tells hspawnable hborn with ⟨wave, hstate, hsound, harchetype, hspawned⟩ |
    ⟨hstate, hspawned⟩
  · constructor
    case inOrder =>
      rw [hspawned]
      exact List.take_prefix _ _
    case finished =>
      intro wave' hwave'
      rw [hstate, Option.some_inj] at hwave'
      subst hwave'
      rw [hsound.finished_iff, harchetype, hspawned, List.take_eq_self_iff]
    case inRange =>
      intro wave' hwave' hrunning
      rw [hstate, Option.some_inj] at hwave'
      subst hwave'
      rcases hsound.running hrunning with ⟨group, hgroup, -, -⟩
      exact (List.getElem?_eq_some_iff.mp hgroup).1
    case erased =>
      intro hnone
      rw [hstate] at hnone
      cases hnone
  · constructor
    case inOrder =>
      rw [hspawned]
    case finished =>
      intro wave hwave
      rw [hstate] at hwave
      cases hwave
    case inRange =>
      intro wave hwave
      rw [hstate] at hwave
      cases hwave
    case erased => exact fun _ => hspawned

end Life

/-! ## All lives -/

section

variable {τ : Type} [NatCast τ] [Add τ] [Sub τ] [Neg τ] [Mul τ] [Div τ] [LT τ] [DecidableLT τ]

/-- The waves of some lives that are not erased. -/
def alive (lives : List (Life τ)) (dts : List τ) : List (Active τ) :=
  lives.filterMap fun life => life.state dts

/-- The lives that an update starts when it picks. -/
def recruits (frame : Frame τ) (k : ℕ) : List (Life τ) :=
  frame.picked.mapIdx fun n archetype =>
    { archetype := archetype, timer := -frame.delay n, born := k }

/-- An update picks when no wave is left. -/
def enroll (lives : List (Life τ)) (past : List (Frame τ)) (frame : Frame τ) : List (Life τ) :=
  if (alive lives (past.map Frame.dt)).isEmpty then lives ++ recruits frame past.length else lives

/-- The lives of all waves that are picked in some updates. -/
def livesOf (frames : List (Frame τ)) : List (Life τ) :=
  (frames.foldl (fun (story : List (Frame τ) × List (Life τ)) frame =>
    (story.1 ++ [frame], enroll story.2 story.1 frame)) ([], [])).2

omit [NatCast τ] [Mul τ] [Div τ] in
theorem livesOf_snoc (frames : List (Frame τ)) (frame : Frame τ) :
    livesOf (frames ++ [frame]) = enroll (livesOf frames) frames frame := by
  have hpast : ∀ frames : List (Frame τ),
      (frames.foldl (fun (story : List (Frame τ) × List (Life τ)) frame =>
        (story.1 ++ [frame], enroll story.2 story.1 frame)) ([], [])).1 = frames := by
    intro frames
    induction frames using List.reverseRecOn with
    | nil => rfl
    | append_singleton frames frame ih =>
        rw [List.foldl_append, List.foldl_cons, List.foldl_nil, ih]
  rw [livesOf, List.foldl_append, List.foldl_cons, List.foldl_nil, hpast, ← livesOf]

omit [NatCast τ] [Mul τ] [Div τ] in
/-- Every life starts with an update that picks its archetype. -/
theorem picked_of_mem_livesOf {frames : List (Frame τ)} {life : Life τ}
    (h : life ∈ livesOf frames) :
    ∃ frame, frames[life.born]? = some frame ∧ life.archetype ∈ frame.picked := by
  induction frames using List.reverseRecOn with
  | nil => cases h
  | append_singleton frames frame ih =>
      rw [livesOf_snoc, enroll] at h
      have hold : life ∈ livesOf frames → ∃ frame', (frames ++ [frame])[life.born]? = some frame' ∧
          life.archetype ∈ frame'.picked := by
        intro hlife
        rcases ih hlife with ⟨frame', hframe', hpicked⟩
        refine ⟨frame', ?_, hpicked⟩
        rw [List.getElem?_append_left (List.getElem?_eq_some_iff.mp hframe').1, hframe']
      split_ifs at h with hnone
      · rcases List.mem_append.mp h with hlife | hlife
        · exact hold hlife
        · rw [recruits, List.mem_mapIdx] at hlife
          rcases hlife with ⟨n, hn, rfl⟩
          exact ⟨frame, List.getElem?_concat_length, List.getElem_mem hn⟩
      · exact hold h

namespace Director

/-- The run succeeds.  Its waves are those of the lives that are not erased, each update
spawns what is due in the lives, and every life keeps its roster. -/
structure Follows (director : Director τ) (frames : List (Frame τ)) (director' : Director τ)
    (outputs : List (List (Spawned τ))) : Prop where
  run : director.run frames = .ok (director', outputs)
  waves : director'.activeWaves = alive (livesOf frames) (frames.map Frame.dt)
  outputs : outputs.map (List.map Spawned.group) = (List.range frames.length).map fun k =>
    (livesOf frames).reverse.filterMap fun life => life.spawnAt (frames.map Frame.dt) k
  rosters : ∀ life ∈ livesOf frames, life.KeepsRoster (frames.map Frame.dt)

/-- The run succeeds and spawns the rosters of all waves that it picks. -/
def Exact (director : Director τ) (frames : List (Frame τ)) : Prop :=
  ∃ director' outputs, director.Follows frames director' outputs

variable {director director' : Director τ} {frames : List (Frame τ)} {frame : Frame τ}
  {outputs : List (List (Spawned τ))} {fault : Fault}

theorem run_snoc_of_ok (h : director.run frames = .ok (director', outputs)) :
    director.run (frames ++ [frame]) =
      match director'.update frame with
      | .error fault => .error fault
      | .ok (director'', spawned) => .ok (director'', outputs ++ [spawned]) := by
  rw [run, List.foldlM_append]
  rw [run] at h
  rw [h]
  change (match director'.update frame with
    | .error fault => Except.error fault
    | .ok (director'', spawned) => Except.ok (director'', outputs ++ [spawned])) >>= pure = _
  cases director'.update frame <;> rfl

/-- The waves that an update visits are those of the lives, with the ones it starts. -/
theorem visited_of_alive
    (h : director'.activeWaves = alive (livesOf frames) (frames.map Frame.dt)) :
    director'.visited frame =
      (livesOf (frames ++ [frame])).filterMap fun life => life.state (frames.map Frame.dt) := by
  rw [visited_eq, livesOf_snoc, enroll, h]
  split_ifs with hnone
  · rw [List.filterMap_append]
    have hold : (livesOf frames).filterMap (fun life => life.state (frames.map Frame.dt)) = [] :=
      List.isEmpty_iff.mp hnone
    have hfresh : (fun life : Life τ => life.state (frames.map Frame.dt)) ∘
        (fun entry : Archetype τ × ℕ =>
          { archetype := entry.1, timer := -frame.delay entry.2, born := frames.length }) =
        some ∘ fun entry => { archetype := entry.1, timer := -frame.delay entry.2 } := by
      ext1 entry
      exact Life.state_of_length_le (by rw [List.length_map])
    rw [hold, List.nil_append, recruits, List.mapIdx_eq_zipIdx_map, List.mapIdx_eq_zipIdx_map,
      List.filterMap_map, hfresh, List.filterMap_eq_map]
  · rfl

omit [NatCast τ] [Mul τ] [Div τ] in
/-- The lives that an update starts spawn nothing in the updates before. -/
theorem spawnAt_enroll {k : ℕ} (hk : k < frames.length) :
    ((livesOf (frames ++ [frame])).reverse.filterMap fun life =>
      life.spawnAt (frames.map Frame.dt ++ [frame.dt]) k) =
      (livesOf frames).reverse.filterMap fun life => life.spawnAt (frames.map Frame.dt) k := by
  have hlength : k < (frames.map Frame.dt).length := by
    rwa [List.length_map]
  have hnew : (recruits frame frames.length).reverse.filterMap
      (fun life => life.spawnAt (frames.map Frame.dt) k) = [] := by
    rw [List.filterMap_eq_nil_iff]
    intro life hlife
    rw [List.mem_reverse, recruits, List.mem_mapIdx] at hlife
    rcases hlife with ⟨n, hn, rfl⟩
    exact Life.spawnAt_of_lt hk
  simp only [Life.spawnAt_append hlength]
  rw [livesOf_snoc, enroll]
  split_ifs
  · rw [List.reverse_append, List.filterMap_append, hnew, List.nil_append]
  · rfl

/-- One more update. -/
theorem Follows.snoc (h : director.Follows frames director' outputs)
    (hplayers : frame.playerPos ≠ [])
    (hspawnable : ∀ life ∈ livesOf (frames ++ [frame]), life.archetype.Spawnable) :
    ∃ director'' spawned,
      director.Follows (frames ++ [frame]) director'' (outputs ++ [spawned]) := by
  have hborn : ∀ life ∈ livesOf (frames ++ [frame]),
      life.born ≤ (frames.map Frame.dt).length := by
    intro life hlife
    rcases picked_of_mem_livesOf hlife with ⟨frame', hframe', -⟩
    have hlt := (List.getElem?_eq_some_iff.mp hframe').1
    rw [List.length_append, List.length_singleton] at hlt
    rw [List.length_map]
    omega
  have hvisited := @visited_of_alive _ _ _ _ _ _ _ _ _ director' frames frame h.waves
  have hsound : ∀ wave ∈ director'.visited frame, wave.Sound := by
    intro wave hwave
    rw [hvisited, List.mem_filterMap] at hwave
    rcases hwave with ⟨life, hlife, hstate⟩
    rcases Life.tells (hspawnable life hlife) (hborn life hlife) with
      ⟨wave', hstate', hsound, -, -⟩ | ⟨hnone, -⟩
    · rw [hstate, Option.some_inj] at hstate'
      exact hstate' ▸ hsound
    · rw [hstate] at hnone
      cases hnone
  rcases update_eq hplayers hsound with ⟨director'', spawned, hupdate, hwaves, hspawned⟩
  refine ⟨director'', spawned, ?_⟩
  constructor
  case run => rw [run_snoc_of_ok h.run, hupdate]
  case waves =>
    rw [hwaves, hvisited, List.filterMap_filterMap, alive, List.map_append, List.map_singleton]
    apply List.filterMap_congr
    intro life hlife
    exact (Life.state_snoc (hborn life hlife)).symm
  case outputs =>
    rw [List.map_append, List.map_singleton, h.outputs, hspawned, List.length_append,
      List.length_singleton, List.range_succ, List.map_append, List.map_singleton,
      List.map_append, List.map_singleton, hvisited]
    congr 1
    · apply List.map_congr_left
      intro k hk
      exact (spawnAt_enroll (List.mem_range.mp hk)).symm
    · rw [← List.filterMap_reverse, List.filterMap_filterMap]
      congr 1
      apply List.filterMap_congr
      intro life hlife
      rw [← List.length_map Frame.dt]
      exact (Life.spawnAt_length (hborn life (List.mem_reverse.mp hlife))).symm
  case rosters =>
    intro life hlife
    rw [List.map_append, List.map_singleton]
    apply Life.keepsRoster (hspawnable life hlife)
    rw [List.length_append]
    exact (hborn life hlife).trans (Nat.le_add_right _ _)

/-- Every run that picks waves which can be spawned spawns their rosters. -/
theorem exact_of_spawnable (hempty : director.activeWaves = [])
    (hframes : ∀ frame ∈ frames, frame.playerPos ≠ [] ∧
      ∀ archetype ∈ frame.picked, archetype.Spawnable) : director.Exact frames := by
  induction frames using List.reverseRecOn with
  | nil => exact ⟨director, [], rfl, hempty, rfl, nofun⟩
  | append_singleton frames frame ih =>
      rcases ih fun frame' hframe' => hframes frame' (List.mem_append_left _ hframe') with
        ⟨director', outputs, hfollows⟩
      have hspawnable : ∀ life ∈ livesOf (frames ++ [frame]), life.archetype.Spawnable := by
        intro life hlife
        rcases picked_of_mem_livesOf hlife with ⟨frame', hframe', hpicked⟩
        exact (hframes frame' (List.mem_of_getElem? hframe')).2 _ hpicked
      rcases hfollows.snoc (hframes frame (List.mem_append_right _ List.mem_cons_self)).1
        hspawnable with ⟨director'', spawned, hfollows'⟩
      exact ⟨director'', _, hfollows'⟩

omit [NatCast τ] [Mul τ] [Div τ] in
/-- Lives are not forgotten. -/
theorem mem_livesOf_append {life : Life τ} (h : life ∈ livesOf frames) (more : List (Frame τ)) :
    life ∈ livesOf (frames ++ more) := by
  induction more using List.reverseRecOn with
  | nil => rwa [List.append_nil]
  | append_singleton more frame ih =>
      rw [← List.append_assoc, livesOf_snoc, enroll]
      split_ifs
      · exact List.mem_append_left _ ih
      · exact ih

omit [NatCast τ] [Mul τ] [Div τ] in
/-- An update that finds no wave left starts a life for each wave that it picks. -/
theorem mem_livesOf_of_picked {past more : List (Frame τ)} {n : ℕ} {archetype : Archetype τ}
    (hnone : alive (livesOf past) (past.map Frame.dt) = [])
    (hpicked : frame.picked[n]? = some archetype) :
    { archetype := archetype, timer := -frame.delay n, born := past.length } ∈
      livesOf (past ++ frame :: more) := by
  rw [List.append_cons]
  apply mem_livesOf_append
  rw [livesOf_snoc, enroll, hnone, List.isEmpty_nil, if_pos rfl, recruits]
  apply List.mem_append_right
  rcases List.getElem?_eq_some_iff.mp hpicked with ⟨hn, rfl⟩
  exact List.mem_mapIdx.mpr ⟨n, hn, rfl⟩

/-- Every wave that is picked spawns its roster, as long as its groups can be spawned. -/
theorem waves_spawn_their_rosters (hempty : director.activeWaves = [])
    (hframes : ∀ frame ∈ frames, frame.playerPos ≠ [] ∧
      ∀ archetype ∈ frame.picked, archetype.Spawnable) :
    (∃ director' outputs, director.Follows frames director' outputs) ∧
      (∀ life ∈ livesOf frames,
        ∃ frame, frames[life.born]? = some frame ∧ life.archetype ∈ frame.picked) ∧
      ∀ past frame more, frames = past ++ frame :: more →
        alive (livesOf past) (past.map Frame.dt) = [] →
        ∀ n archetype, frame.picked[n]? = some archetype →
          { archetype := archetype, timer := -frame.delay n, born := past.length } ∈
            livesOf frames := by
  refine ⟨exact_of_spawnable hempty hframes, fun life => picked_of_mem_livesOf, ?_⟩
  intro past frame more hsplit hnone n archetype hpicked
  rw [hsplit]
  exact mem_livesOf_of_picked hnone hpicked

end Director

end

namespace Director

/-- A wave of one group. -/
def singleWave (group : Enemy) : Archetype ℚ where
  difficultyCost := 5
  weight := 50
  spawnInterval := 1
  postWaveDelay := 3
  enemies := [group]

/-- A second with one player, in which a wave is picked. -/
def singleFrame (group : Enemy) : Frame ℚ where
  dt := 1
  playerPos := [200]
  picked := [singleWave group]
  creditsLeft := 0
  delay _ := 0
  xDist _ := 150
  yDist _ := 200

/-- A director that has not picked anything. -/
def idle : Director ℚ where
  credits := 0
  currentDifficulty := 0
  gameTime := 0

/-- A wave of two enemies in three seconds. -/
theorem waves_spawn_their_rosters_enemies :
    (∃ director' outputs, idle.Follows
      (List.replicate 3 (singleFrame ⟨.kEnemy, "zigzag", 2⟩)) director' outputs) := by
  refine (waves_spawn_their_rosters rfl ?_).1
  intro frame hframe
  rw [List.eq_of_mem_replicate hframe]
  refine ⟨List.cons_ne_nil _ _, ?_⟩
  intro archetype harchetype
  rw [singleFrame, List.mem_singleton] at harchetype
  subst harchetype
  refine ⟨List.cons_ne_nil _ _, ?_⟩
  intro group hgroup
  rw [singleWave, List.mem_singleton] at hgroup
  subst hgroup
  exact ⟨by decide, by decide⟩

/-- A wave of bullets throws, although it has a group, and the group has a count. -/
theorem bullet_wave_throws :
    idle.run [singleFrame ⟨.kBullet, "zigzag", 1⟩] = .error .outOfRange ∧
      (singleFrame ⟨.kBullet, "zigzag", 1⟩).playerPos ≠ [] ∧
      ∀ archetype ∈ (singleFrame ⟨.kBullet, "zigzag", 1⟩).picked,
        archetype.enemies ≠ [] ∧ ∀ group ∈ archetype.enemies, 1 ≤ group.count := by
  refine ⟨?_, List.cons_ne_nil _ _, ?_⟩
  · have hunknown : (⟨.kBullet, "zigzag", 1⟩ : Enemy).isKnown = false := rfl
    simp [run, update, idle, gainCredits, pickNewWaveIfNeeded, pickRandomWaves, singleFrame,
      singleWave, lastPlayer, ReverseScan.scan, Active.visit, Active.tick, hunknown]
  · intro archetype harchetype
    rw [singleFrame, List.mem_singleton] at harchetype
    subst harchetype
    exact ⟨List.cons_ne_nil _ _, by decide⟩

end Director

end Rtype.Server.Level
