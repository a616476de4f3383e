import Mathlib
import Rtype.Server.ApplyMovement
import Rtype.Server.Lobby

/-!
# Server - Collisions of players

A player that runs into others stops at the first one that the search finds, wherever that
one is.  When it is not ahead of the player, the player jumps back; when it is not the
nearest one, the player stops inside another one.

Main results:

- Theorem {lit}`movement_shortens_iff`: when all players move towards where they go, and not
  further.
- Theorem {lit}`players_stay_apart`: when players that were apart stay apart, and so are apart
  again.
- Theorems {lit}`nearestFound_of_two` and {lit}`aheadFound_of_separated`: two players that are
  apart are safe from both.

Current gaps:

- None.
-/

namespace Rtype.Server.ApplyMovement

open Rtype.Rtecs
open Boxes (Box Move Separated)

variable {κ : Type} {Other : κ → Type} [DecidableEq κ] {ecs ecs' : Store Other}

/-! ## The ways of the players -/

/-- Every search finds only what lies ahead of the player. -/
def AheadFound (ecs : Store Other) : Prop :=
  Transition.AllowedRun (Boxes.makeMove (colliders ecs)) (Boxes.FindsAhead (colliders ecs))
    (players ecs) (moves ecs)

/-- Every player has gone a part of its way. -/
def Shortens (ecs ecs' : Store Other) : Prop :=
  ∀ (e : ℕ) (pos pos' : Position) (vel : Velocity), isPlayer ecs e = true →
    ecs.getEntityComponent e (.other .position) = some pos →
    ecs.getEntityComponent e (.other .velocity) = some vel →
    ecs'.getEntityComponent e (.other .position) = some pos' →
    pos'.x ∈ Set.uIcc pos.x (pos.x + vel.vx) ∧ pos'.y ∈ Set.uIcc pos.y (pos.y + vel.vy)

omit [DecidableEq κ] in
theorem isPlayer_iff {e : ℕ} :
    isPlayer ecs e = true ↔
      ecs.getEntityComponent e .type = some (TypeComponent.mk .kPlayer) := by
  unfold isPlayer
  cases (ecs.getEntityComponent e .type : Option TypeComponent) with
  | none => exact iff_of_false nofun nofun
  | some component =>
      rcases component with ⟨type⟩
      rw [decide_eq_true_eq]
      constructor
      · rintro rfl
        rfl
      · intro h
        exact congrArg TypeComponent.type (Option.some.inj h)

omit [DecidableEq κ] in
theorem movesOf_of_player {e : ℕ} {vel : Velocity} (hplayer : isPlayer ecs e = true)
    (hvel : ecs.getEntityComponent e (.other .velocity) = some vel) :
    movesOf ecs e =
      [{ who := e, axis := .horizontal, distance := vel.vx },
        { who := e, axis := .vertical, distance := vel.vy }] := by
  simp only [movesOf, isPlayer_iff.mp hplayer, hvel, if_true]

omit [DecidableEq κ] in
theorem movesOf_cases (ecs : Store Other) (e : ℕ) :
    movesOf ecs e = [] ∨ isPlayer ecs e = true ∧
      ∃ vel : Velocity, ecs.getEntityComponent e (.other .velocity) = some vel := by
  unfold movesOf
  split
  · rename_i component vel htype hvel
    split_ifs with hplayer
    · rcases component with ⟨type⟩
      subst hplayer
      exact .inr ⟨isPlayer_iff.mpr htype, vel, hvel⟩
    · exact .inl rfl
  · exact .inl rfl

omit [DecidableEq κ] in
theorem mem_movesOf {e : ℕ} {move : Move ℕ Axis ℚ} :
    move ∈ movesOf ecs e ↔ move.who = e ∧ isPlayer ecs e = true ∧
      ∃ vel : Velocity, ecs.getEntityComponent e (.other .velocity) = some vel ∧
        move.distance = speed vel move.axis := by
  constructor
  · intro hmove
    rcases movesOf_cases ecs e with hnil | ⟨hplayer, vel, hvel⟩
    · rw [hnil] at hmove
      cases hmove
    · rw [movesOf_of_player hplayer hvel, List.mem_pair] at hmove
      rcases hmove with rfl | rfl
      · exact ⟨rfl, hplayer, vel, hvel, rfl⟩
      · exact ⟨rfl, hplayer, vel, hvel, rfl⟩
  · rintro ⟨rfl, hplayer, vel, hvel, hdistance⟩
    rw [movesOf_of_player hplayer hvel, List.mem_pair]
    rcases move with ⟨who, axis, distance⟩
    cases axis with
    | horizontal => exact .inl (congrArg (Move.mk who Axis.horizontal) hdistance)
    | vertical => exact .inr (congrArg (Move.mk who Axis.vertical) hdistance)

/-- The moves are those of the players that can move. -/
theorem mem_moves {move : Move ℕ Axis ℚ} :
    move ∈ moves ecs ↔ move.who ∈ movable ecs ∧ isPlayer ecs move.who = true ∧
      ∃ vel : Velocity, ecs.getEntityComponent move.who (.other .velocity) = some vel ∧
        move.distance = speed vel move.axis := by
  rw [moves, List.mem_flatMap]
  constructor
  · rintro ⟨e, he, hmove⟩
    rcases mem_movesOf.mp hmove with ⟨rfl, hplayer, hvel⟩
    exact ⟨he, hplayer, hvel⟩
  · rintro ⟨he, hplayer, hvel⟩
    exact ⟨move.who, he, mem_movesOf.mpr ⟨rfl, hplayer, hvel⟩⟩

/-- No player moves twice along an axis. -/
theorem nodup_moves (ecs : Store Other) :
    ((moves ecs).map fun move => (move.who, move.axis)).Nodup := by
  rw [moves, List.map_flatMap, List.nodup_flatMap]
  constructor
  · intro e _
    rcases movesOf_cases ecs e with hnil | ⟨hplayer, vel, hvel⟩
    · rw [hnil]
      exact List.nodup_nil
    · rw [movesOf_of_player hplayer hvel]
      simp
  · apply (ecs.nodup_getEntities_group .type movableRest).imp
    intro e e' hne pair hpair hpair'
    rcases List.mem_map.mp hpair with ⟨move, hmove, rfl⟩
    rcases List.mem_map.mp hpair' with ⟨move', hmove', heq⟩
    apply hne
    rw [← (mem_movesOf.mp hmove).1, ← (mem_movesOf.mp hmove').1]
    exact (congrArg Prod.fst heq).symm

omit [DecidableEq κ] in
theorem players_eq_some_iff {e : ℕ} {b : Box Axis ℚ} :
    players ecs e = some b ↔ isPlayer ecs e = true ∧
      ∃ (pos : Position) (box : Hitbox),
        ecs.getEntityComponent e (.other .position) = some pos ∧
          ecs.getEntityComponent e (.other .hitbox) = some box ∧ boxOf pos box = b := by
  rw [isPlayer_iff]
  constructor
  · intro hbox
    rcases Option.map_eq_some_iff.mp hbox with ⟨⟨pos, box⟩, hbody, heq⟩
    unfold bodyOf at hbody
    split at hbody
    · rename_i component pos' box' htype hpos hhitbox
      split_ifs at hbody with hplayer
      cases hbody
      rcases component with ⟨type⟩
      subst hplayer
      exact ⟨htype, pos, box, hpos, hhitbox, heq⟩
    · cases hbody
  · rintro ⟨htype, pos, box, hpos, hhitbox, heq⟩
    simp only [players, bodyOf, htype, hpos, hhitbox, if_true, Option.map_some, heq]

/-- A player that can move has a box. -/
theorem exists_hitbox_of_movable {e : ℕ} (he : e ∈ movable ecs) :
    ∃ box : Hitbox, ecs.getEntityComponent e (.other .hitbox) = some box := by
  have hmember : e ∈ (ecs.group (.type :: movableRest)).getEntities := Array.mem_toList_iff.mp he
  rcases ECS.position_of_mem_group (d := .other .hitbox) (by simp [movableRest]) hmember with
    ⟨reference, hreference, -⟩
  rcases ECS.exists_instanceAt hreference with ⟨box, -, hbox⟩
  exact ⟨box, hbox⟩

/-- The players have gone a part of their ways if and only if their boxes have. -/
theorem shortens_iff
    (hothers : ∀ e c, c ≠ .state →
      ¬ (e ∈ movable ecs ∧ (c = .other .position ∨ c = .other .velocity)) →
        ecs'.getEntityComponent e c = ecs.getEntityComponent e c) :
    Shortens ecs ecs' ↔
      ∀ move ∈ moves ecs, Boxes.GoesOn (players ecs) (players ecs') move := by
  constructor
  · rintro hshort ⟨e, axis, distance⟩ hmove b b' hb hb'
    rcases mem_moves.mp hmove with ⟨-, hplayer, vel, hvel, hdistance⟩
    rcases players_eq_some_iff.mp hb with ⟨-, pos, box, hpos, -, rfl⟩
    rcases players_eq_some_iff.mp hb' with ⟨-, pos', box', hpos', -, rfl⟩
    rcases hshort e pos pos' vel hplayer hpos hvel hpos' with ⟨hx, hy⟩
    simp only at hdistance
    subst hdistance
    cases axis with
    | horizontal => exact hx
    | vertical => exact hy
  · intro hgoes e pos pos' vel hplayer hpos hvel hpos'
    by_cases he : e ∈ movable ecs
    · rcases exists_hitbox_of_movable he with ⟨box, hbox⟩
      have hplayer' : isPlayer ecs' e = true := by
        rw [isPlayer_iff, hothers e .type nofun (by simp)]
        exact isPlayer_iff.mp hplayer
      have hbox' : ecs'.getEntityComponent e (.other .hitbox) = some box :=
        (hothers e (.other .hitbox) nofun (by simp)).trans hbox
      have hb := players_eq_some_iff.mpr ⟨hplayer, pos, box, hpos, hbox, rfl⟩
      have hb' := players_eq_some_iff.mpr ⟨hplayer', pos', box, hpos', hbox', rfl⟩
      have hx := hgoes ⟨e, .horizontal, vel.vx⟩ (mem_moves.mpr ⟨he, hplayer, vel, hvel, rfl⟩)
        _ _ hb hb'
      have hy := hgoes ⟨e, .vertical, vel.vy⟩ (mem_moves.mpr ⟨he, hplayer, vel, hvel, rfl⟩)
        _ _ hb hb'
      exact ⟨hx, hy⟩
    · -- the entity is not visited
      have hsame : ecs'.getEntityComponent e (.other .position) = some pos :=
        (hothers e (.other .position) nofun fun hboth => he hboth.1).trans hpos
      rw [hsame] at hpos'
      cases hpos'
      exact ⟨Set.left_mem_uIcc, Set.left_mem_uIcc⟩

/-- All players move towards where they go, and not further, if and only if every search finds
only what lies ahead. -/
theorem movement_shortens_iff (ecs : Store Other) :
    ∃ ecs', apply ecs = some ecs' ∧ (Shortens ecs ecs' ↔ AheadFound ecs) := by
  rcases apply_refines ecs with ⟨ecs', happly, -, hothers, hplayers⟩
  refine ⟨ecs', happly, ?_⟩
  rw [shortens_iff hothers, hplayers]
  exact Boxes.goesOn_iff (nodup_moves ecs)

/-! ## The boxes of the players -/

/-- Every search finds what is in the way of the player. -/
def NearestFound (ecs : Store Other) : Prop :=
  Transition.AllowedRun (Boxes.makeMove (colliders ecs))
    (fun boxes move => ∀ b, boxes move.who = some b →
      Boxes.FindsNearest (colliders ecs) boxes move b)
    (players ecs) (moves ecs)

/-- Players that are apart stay apart in each of their moves if and only if every search finds
what is in the way. -/
theorem throughout_apart_iff (hapart : Separated (players ecs)) :
    Transition.Throughout (Boxes.makeMove (colliders ecs)) Separated (players ecs) (moves ecs) ↔
      NearestFound ecs :=
  Boxes.throughout_separated_iff hapart (moves ecs)

/-- Players that are apart stay apart in each of their moves if and only if every search finds
what is in the way, and then they are apart again after the system. -/
theorem players_stay_apart (ecs : Store Other) (hapart : Separated (players ecs)) :
    ∃ ecs', apply ecs = some ecs' ∧
      (Transition.Throughout (Boxes.makeMove (colliders ecs)) Separated (players ecs) (moves ecs) ↔
        NearestFound ecs) ∧
      (NearestFound ecs → Separated (players ecs')) := by
  rcases apply_refines ecs with ⟨ecs', happly, -, -, hplayers⟩
  have hiff := throughout_apart_iff hapart
  refine ⟨ecs', happly, hiff, ?_⟩
  intro hnearest
  rw [hplayers]
  exact (hiff.mpr hnearest).last

/-- With two players each search finds what is in the way. -/
theorem nearestFound_of_two (ecs : Store Other) (h : Boxes.Pair (colliders ecs) (players ecs)) :
    NearestFound ecs :=
  h.allowedRun (moves ecs)

/-- When players are apart and each search finds what is in the way, it finds only what lies
ahead. -/
theorem aheadFound_of_separated (hapart : Separated (players ecs)) (hnearest : NearestFound ecs) :
    AheadFound ecs :=
  Boxes.allowedRun_findsAhead ((throughout_apart_iff hapart).mpr hnearest)

-- the searches in a concrete store are not to be carried out by unfolding
attribute [irreducible] NearestFound

/-! ## Players that go wrong -/

theorem mem_typed_of_players {e : ℕ} {b : Box Axis ℚ}
    (h : players ecs e = some b) : e ∈ (ecs.group [.type]).getEntities.toList := by
  rcases players_eq_some_iff.mp h with ⟨hplayer, -⟩
  rw [Array.mem_toList_iff, ECS.mem_getEntities_group]
  intro c hc
  rw [List.mem_singleton.mp hc, isPlayer_iff.mp hplayer]
  rfl

/-- The boxes of the players are apart, as seen by a look at all of them. -/
def apart (ecs : Store Other) : Bool :=
  let typed := (ecs.group [.type]).getEntities.toList
  typed.all fun k => typed.all fun l => decide (k = l) || (players ecs k).all fun b =>
    (players ecs l).all fun c => decide (¬ Boxes.Overlap b c)

theorem separated_iff_apart : Separated (players ecs) ↔ apart ecs = true := by
  simp only [apart, List.all_eq_true, Bool.or_eq_true, decide_eq_true_eq, Option.all_eq_true]
  constructor
  · intro hapart k _ l _
    by_cases heq : k = l
    · exact .inl heq
    · exact .inr fun b hb c hc => hapart k l b c heq hb hc
  · intro hall k l b c hne hb hc
    rcases hall k (mem_typed_of_players hb) l (mem_typed_of_players hc) with heq | hpair
    · exact absurd heq hne
    · exact hpair b hb c hc

/-- Players that have joined, now with these positions and velocities. -/
def joined (places : List (Position × Velocity)) : Store fun _ : Empty => Unit :=
  places.foldl
    (fun ecs place =>
      (ecs.registerEntity ⟨.other .position, place.1⟩
        [⟨.other .velocity, place.2⟩, ⟨.type, TypeComponent.mk .kPlayer⟩,
          ⟨.other .hitbox, Hitbox.mk true 150 75⟩, ⟨.state, State.mk playerWaiting⟩]).1)
    (({} : Store fun _ : Empty => Unit).registerComponents
      [.other .position, .other .velocity, .type, .other .hitbox, .state])

/-- Two players where they join, the first of which goes right. -/
def atSpawn : Store fun _ : Empty => Unit :=
  joined [({ x := 200, y := 300 }, { vx := 10, maxVx := 10, maxVy := 10 }),
    ({ x := 200, y := 300 }, { maxVx := 10, maxVy := 10 })]

/-- The first coordinate of an entity. -/
def xOf (e : ℕ) (ecs : Store Other) : Option ℚ :=
  (ecs.getEntityComponent e (.other .position) : Option Position).map Position.x

/-- The player that goes right is put at the left of the other one. -/
theorem goes_back_atSpawn : ∃ ecs', apply atSpawn = some ecs' ∧ ¬ Shortens atSpawn ecs' := by
  rcases apply_refines atSpawn with ⟨ecs', happly, -⟩
  refine ⟨ecs', happly, ?_⟩
  intro hshort
  have hback : (apply atSpawn).bind (xOf 0) = some 50 := by decide +kernel
  have hstart : xOf 0 atSpawn = some 200 := by decide +kernel
  have hspeed : (atSpawn.getEntityComponent 0 (.other .velocity) : Option Velocity).map
      Velocity.vx = some 10 := by
    decide +kernel
  rw [happly] at hback
  rcases Option.map_eq_some_iff.mp hback with ⟨pos', hpos', hx'⟩
  rcases Option.map_eq_some_iff.mp hstart with ⟨pos, hpos, hx⟩
  rcases Option.map_eq_some_iff.mp hspeed with ⟨vel, hvel, hvx⟩
  have hmem := (hshort 0 pos pos' vel (by decide +kernel) hpos hvel hpos').1
  rw [hx', hx, hvx, Set.mem_uIcc] at hmem
  norm_num at hmem

/-- Three players that are apart, the first of which goes right. -/
def inARow : Store fun _ : Empty => Unit :=
  joined [({ x := 200, y := 300 }, { vx := 10, maxVx := 10, maxVy := 10 }),
    ({ x := 358, y := 340 }, { maxVx := 10, maxVy := 10 }),
    ({ x := 355, y := 260 }, { maxVx := 10, maxVy := 10 })]

/-- The player that goes right stops at the second player, inside the third one. -/
theorem ends_up_inside_inARow :
    Separated (players inARow) ∧ ∃ ecs', apply inARow = some ecs' ∧ ¬ Separated (players ecs') := by
  refine ⟨separated_iff_apart.mpr (by decide +kernel), ?_⟩
  rcases apply_refines inARow with ⟨ecs', happly, -⟩
  refine ⟨ecs', happly, ?_⟩
  have hinside : (apply inARow).map apart = some false := by decide +kernel
  rw [happly, Option.map_some, Option.some.injEq] at hinside
  rw [separated_iff_apart, hinside]
  decide

/-- Two players that are apart, the first of which goes right. -/
def sideBySide : Store fun _ : Empty => Unit :=
  joined [({ x := 200, y := 300 }, { vx := 10, maxVx := 10, maxVy := 10 }),
    ({ x := 355, y := 340 }, { maxVx := 10, maxVy := 10 })]

theorem pair_sideBySide : Boxes.Pair (colliders sideBySide) (players sideBySide) := by
  have hids : (sideBySide.group [.type]).getEntities.toList = [0, 1] := by decide +kernel
  have hplayer : ∀ e, players sideBySide e ≠ none → e ∈ [0, 1] := by
    intro e he
    rcases Option.ne_none_iff_exists'.mp he with ⟨b, hb⟩
    have hmem := mem_typed_of_players hb
    rw [hids] at hmem
    exact hmem
  constructor
  · intro e he
    have hsearched : colliders sideBySide = [0, 1] := by decide +kernel
    exact hsearched ▸ hplayer e he
  · intro k l m hk hl hm
    have hk := hplayer k hk
    have hl := hplayer l hl
    have hm := hplayer m hm
    simp only [List.mem_pair] at hk hl hm
    omega

theorem players_stay_apart_sideBySide :
    ∃ ecs', apply sideBySide = some ecs' ∧ Separated (players ecs') := by
  have hapart : Separated (players sideBySide) := separated_iff_apart.mpr (by decide +kernel)
  have hnearest : NearestFound sideBySide := nearestFound_of_two sideBySide pair_sideBySide
  rcases players_stay_apart sideBySide hapart with ⟨ecs', happly, -, hstay⟩
  exact ⟨ecs', happly, hstay hnearest⟩

end Rtype.Server.ApplyMovement
