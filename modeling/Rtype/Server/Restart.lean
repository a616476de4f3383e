import Mathlib
import Rtype.Server.LobbySteps
import Rtype.Server.Waves

/-!
# Server - The restart of a lobby

When nobody is alive any more, and when a game starts, the lobby starts over: the players are
alive again, the enemies and the bullets are destroyed one after another, and the level
director forgets its waves.

Main results:

- Structure {lit}`Cleared`: what is destroyed, what is announced, and what stays as it is.
- Theorem {lit}`DirectedLobby.restart_clears`: a restart does this, and nothing else.

Current gaps:

- None.
-/

namespace Rtype.Server

open Rtype.Rtecs Rtype.Rteng Rtype.Common
open Std

namespace Lobby

/-! ## The players -/

/-- The entities of the players. -/
def playerIds (lobby : Lobby) : List ℕ :=
  lobby.players.toList.map Prod.snd

/-- The instance of an entity. -/
def instanceOf (lobby : Lobby) (e : ℕ) (c : Kind) : Option (Comp c) :=
  lobby.engine.ecs.getEntityComponent e c

/-- The type of an entity. -/
def typeOf (lobby : Lobby) (e : ℕ) : Option EntityType :=
  (lobby.instanceOf e .type).map TypeComponent.type

/-- The entities have been revived, and nothing else has changed. -/
structure Revived (lobby lobby' : Lobby) (ids : List ℕ) : Prop where
  frame : ∃ ecs, lobby' = lobby.setEcs ecs ∧ ecs.entities = lobby.engine.ecs.entities
  alive : ∀ id ∈ ids, lobby'.instanceOf id .state = some (State.mk entityAlive)
  others : ∀ e c, ¬ (e ∈ ids ∧ c = .state) → lobby'.instanceOf e c = lobby.instanceOf e c

theorem revived_revive {ids : List ℕ} {lobby : Lobby}
    (h : ∀ id ∈ ids, lobby.engine.ecs.hasComponent .state id = true) :
    ∃ lobby', lobby.revive ids = .ok lobby' ∧ Revived lobby lobby' ids := by
  induction ids generalizing lobby with
  | nil => exact ⟨lobby, rfl, ⟨_, rfl, rfl⟩, nofun, fun _ _ _ => rfl⟩
  | cons id ids ih =>
      let newInstance : Instance Comp := ⟨.state, State.mk entityAlive⟩
      let next := lobby.setEcs (lobby.engine.ecs.updateEntityComponent id newInstance).1
      have hfirst := h id List.mem_cons_self
      have hwritten := @ECS.getEntityComponent_updateEntityComponent _ _ _ lobby.engine.ecs id
        newInstance hfirst
      have hrest : ∀ other ∈ ids, next.engine.ecs.hasComponent .state other = true := by
        intro other hother
        change (lobby.engine.ecs.updateEntityComponent id newInstance).1.hasComponent _ _ = true
        rw [ECS.hasComponent_updateEntityComponent]
        exact h other (List.mem_cons_of_mem id hother)
      rcases ih hrest with ⟨lobby', hrevive, ⟨ecs, rfl, hentities⟩, halive, hothers⟩
      refine ⟨_, ?_, ⟨ecs, rfl, ?_⟩, ?_, ?_⟩
      · rw [revive_cons hfirst]
        exact hrevive
      · rw [hentities]
        exact ECS.entities_updateEntityComponent _ _ _
      · intro other hother
        by_cases hlater : other ∈ ids
        · exact halive other hlater
        · apply (hothers other .state fun hboth => hlater hboth.1).trans
          rcases List.mem_cons.mp hother with rfl | hlater'
          · exact hwritten.1
          · exact absurd hlater' hlater
      · intro e c hne
        rw [List.mem_cons] at hne
        apply (hothers e c fun hboth => hne ⟨.inr hboth.1, hboth.2⟩).trans
        exact hwritten.2 e c fun hboth => hne ⟨.inl hboth.1, hboth.2⟩

/-! ## Enemies and bullets -/

/-- The live entities of some types have been destroyed and announced, and nothing else has
changed. -/
structure Removes (lobby lobby' : Lobby) (ids : List ℕ) (doomed : EntityType → Prop) : Prop where
  nodup : ids.Nodup
  exactly : ∀ e, e ∈ ids ↔ e ∈ lobby.engine.ecs.entities ∧
    ∃ type, lobby.typeOf e = some type ∧ doomed type
  players : lobby'.players = lobby.players
  masks : ∀ e, lobby'.engine.ecs.entities[e]? =
    if e ∈ ids then none else lobby.engine.ecs.entities[e]?
  instances : ∀ e c, lobby'.instanceOf e c = if e ∈ ids then none else lobby.instanceOf e c
  outGoing : lobby'.outGoing = lobby.outGoing ++ ids.map fun id =>
    (lobby.getAllSessions, .destroy { id := id, earnedPoints := 0 })

theorem removes_removeAllOf (lobby : Lobby) (type : EntityType) :
    ∃ ids, Removes lobby (lobby.removeAllOf type) ids fun other => other = type := by
  refine ⟨_, nodup_toDestroy lobby.engine.ecs .type
    fun component : TypeComponent => decide (component.type = type), ?_, ?_, ?_, ?_, ?_⟩
  · intro e
    apply mem_toDestroy.trans
    apply and_congr_right
    intro _
    change (∃ component : TypeComponent, lobby.instanceOf e .type = some component ∧ _) ↔ _
    rw [typeOf]
    cases (lobby.instanceOf e .type : Option TypeComponent) with
    | none =>
        constructor
        · rintro ⟨component, hnone, -⟩
          cases hnone
        · rintro ⟨other, hnone, -⟩
          cases hnone
    | some found =>
        constructor
        · rintro ⟨component, hsome, hequal⟩
          cases hsome
          exact ⟨_, rfl, of_decide_eq_true hequal⟩
        · rintro ⟨other, hsome, htype⟩
          cases hsome
          exact ⟨found, rfl, decide_eq_true htype⟩
  · rw [removeAllOf, destroyAll_eq]
    rfl
  · intro e
    rw [removeAllOf, destroyAll_eq]
    split_ifs with hdoomed
    · apply ExtTreeMap.getElem?_eq_none
      exact fun hlive => (mem_entities_destroyAll.mp hlive).1 hdoomed
    · exact mask_destroyAll hdoomed
  · intro e c
    rw [removeAllOf, destroyAll_eq]
    exact getEntityComponent_destroyAll c
  · rw [removeAllOf, destroyAll_eq]
    rfl

/-- Removals one after another. -/
theorem Removes.append {lobby lobby' lobby'' : Lobby} {ids ids' : List ℕ}
    {doomed doomed' : EntityType → Prop} (h : Removes lobby lobby' ids doomed)
    (h' : Removes lobby' lobby'' ids' doomed') :
    Removes lobby lobby'' (ids ++ ids') fun type => doomed type ∨ doomed' type := by
  have hlive : ∀ e, e ∈ lobby'.engine.ecs.entities ↔
      e ∉ ids ∧ e ∈ lobby.engine.ecs.entities := by
    intro e
    rw [← ExtTreeMap.isSome_getElem?_iff_mem, ← ExtTreeMap.isSome_getElem?_iff_mem, h.masks]
    split_ifs with hdoomed
    · simp [hdoomed]
    · simp [hdoomed]
  have hlater : ∀ e, e ∈ ids' ↔ e ∉ ids ∧ e ∈ lobby.engine.ecs.entities ∧
      ∃ type, lobby.typeOf e = some type ∧ doomed' type := by
    intro e
    rw [h'.exactly, hlive, and_assoc]
    apply and_congr_right
    intro hspared
    rw [typeOf, h.instances, if_neg hspared, typeOf]
  have hsplit : ∀ {β : Type} (e : ℕ) (x : Option β),
      (if e ∈ ids' then none else if e ∈ ids then none else x) =
        if e ∈ ids ++ ids' then none else x := by
    intro β e x
    by_cases hfirst : e ∈ ids
    · rw [if_pos hfirst, if_pos (List.mem_append_left _ hfirst), ite_self]
    · rw [if_neg hfirst]
      simp only [List.mem_append, hfirst, false_or]
  constructor
  · rw [List.nodup_append']
    refine ⟨h.nodup, h'.nodup, ?_⟩
    intro e hfirst hsecond
    exact ((hlater e).mp hsecond).1 hfirst
  · intro e
    rw [List.mem_append, hlater]
    constructor
    · rintro (hfirst | ⟨-, hlive, type, htype, hdoomed⟩)
      · rcases (h.exactly e).mp hfirst with ⟨hlive, type, htype, hdoomed⟩
        exact ⟨hlive, type, htype, .inl hdoomed⟩
      · exact ⟨hlive, type, htype, .inr hdoomed⟩
    · rintro ⟨hlive, type, htype, hdoomed⟩
      by_cases hfirst : e ∈ ids
      · exact .inl hfirst
      · rcases hdoomed with hdoomed | hdoomed
        · exact .inl ((h.exactly e).mpr ⟨hlive, type, htype, hdoomed⟩)
        · exact .inr ⟨hfirst, hlive, type, htype, hdoomed⟩
  · exact h'.players.trans h.players
  · intro e
    rw [h'.masks, h.masks, hsplit]
  · intro e c
    rw [h'.instances, h.instances, hsplit]
  · rw [h'.outGoing, h.outGoing, List.map_append, List.append_assoc, getAllSessions,
      getAllSessions, h.players]

end Lobby

/-! ## The restart -/

/-- A lobby with its level director. -/
structure DirectedLobby (τ : Type) where
  lobby : Lobby
  levelDirector : Level.Director τ

/-- {lit}`Lobby::restart`, with the level director. -/
def DirectedLobby.restart {τ : Type} [NatCast τ] (game : DirectedLobby τ) :
    Except Fault (DirectedLobby τ) :=
  match game.lobby.restart with
  | .error fault => .error fault
  | .ok lobby => .ok { lobby := lobby, levelDirector := game.levelDirector.restart }

/-- The enemies and the bullets are gone, the players are alive, and the director has
forgotten its waves; nothing else has changed. -/
structure Cleared {τ : Type} [NatCast τ] (game game' : DirectedLobby τ) (ids : List ℕ) : Prop where
  nodup : ids.Nodup
  exactly : ∀ e, e ∈ ids ↔ e ∈ game.lobby.engine.ecs.entities ∧
    ∃ type, game.lobby.typeOf e = some type ∧ (type = .kEnemy ∨ type = .kBullet)
  players : game'.lobby.players = game.lobby.players
  masks : ∀ e, game'.lobby.engine.ecs.entities[e]? =
    if e ∈ ids then none else game.lobby.engine.ecs.entities[e]?
  gone : ∀ e ∈ ids, ∀ c, game'.lobby.instanceOf e c = none
  alive : ∀ e ∈ game.lobby.playerIds, e ∉ ids →
    game'.lobby.instanceOf e .state = some (State.mk entityAlive)
  kept : ∀ e c, e ∉ ids → ¬ (e ∈ game.lobby.playerIds ∧ c = .state) →
    game'.lobby.instanceOf e c = game.lobby.instanceOf e c
  outGoing : game'.lobby.outGoing = game.lobby.outGoing ++ ids.map fun id =>
    (game.lobby.getAllSessions, .destroy { id := id, earnedPoints := 0 })
  director : game'.levelDirector =
    { game.levelDirector with
      activeWaves := []
      credits := ((0 : ℕ) : τ)
      currentDifficulty := ((0 : ℕ) : τ)
      gameTime := ((0 : ℕ) : τ) }

/-- A restart of a lobby whose players all have a state revives the players, and clears the
enemies and the bullets and nothing else. -/
theorem DirectedLobby.restart_clears {τ : Type} [NatCast τ] (game : DirectedLobby τ)
    (hplayers : ∀ id ∈ game.lobby.playerIds, id ∈ game.lobby.engine.ecs.entities ∧
      game.lobby.engine.ecs.hasComponent .state id = true) :
    ∃ revived game' ids, game.lobby.revive game.lobby.playerIds = .ok revived ∧
      (∀ id ∈ game.lobby.playerIds, revived.instanceOf id .state = some (State.mk entityAlive)) ∧
      game.restart = .ok game' ∧ Cleared game game' ids := by
  rcases Lobby.revived_revive fun id hid => (hplayers id hid).2 with ⟨revived, hrevive, hrevived⟩
  rcases Lobby.removes_removeAllOf revived .kEnemy with ⟨enemies, henemies⟩
  rcases Lobby.removes_removeAllOf (revived.removeAllOf .kEnemy) .kBullet with ⟨bullets, hbullets⟩
  have hremoves := henemies.append hbullets
  rcases hrevived.frame with ⟨ecs, hframe, hentities⟩
  have hsame : revived.engine.ecs.entities = game.lobby.engine.ecs.entities := by
    rw [hframe]
    exact hentities
  have hrestart : game.restart = .ok
      { lobby := (revived.removeAllOf .kEnemy).removeAllOf .kBullet
        levelDirector := game.levelDirector.restart } := by
    unfold restart Lobby.restart
    rw [← Lobby.playerIds, hrevive]
  refine ⟨revived, _, enemies ++ bullets, hrevive, hrevived.alive, hrestart, ?_⟩
  constructor
  · exact hremoves.nodup
  · intro e
    have htype : revived.typeOf e = game.lobby.typeOf e := by
      have hkept := hrevived.others e .type fun hboth => nomatch hboth.2
      exact congrArg (Option.map TypeComponent.type) hkept
    rw [hremoves.exactly, hsame, htype]
  · rw [hremoves.players, hframe]
    rfl
  · intro e
    rw [hremoves.masks, hsame]
  · intro e he c
    rw [hremoves.instances, if_pos he]
  · intro e he hspared
    apply (hremoves.instances e .state).trans
    rw [if_neg hspared]
    exact hrevived.alive e he
  · intro e c hspared hother
    rw [hremoves.instances, if_neg hspared]
    exact hrevived.others e c hother
  · rw [hremoves.outGoing, hframe]
    rfl
  · rfl

/-- A lobby with a player, an enemy, and credits for a wave. -/
def crowdedLobby : DirectedLobby ℚ where
  lobby := ((Lobby.new 0).seated 7).spawned ⟨.type, TypeComponent.mk .kEnemy⟩
    [⟨.state, State.mk entityAlive⟩] none
  levelDirector := { credits := 30, currentDifficulty := 1, gameTime := 60 }

theorem restart_clears_crowdedLobby :
    ∃ revived game' ids, crowdedLobby.lobby.revive crowdedLobby.lobby.playerIds = .ok revived ∧
      (∀ id ∈ crowdedLobby.lobby.playerIds,
        revived.instanceOf id .state = some (State.mk entityAlive)) ∧
      crowdedLobby.restart = .ok game' ∧ Cleared crowdedLobby game' ids := by
  apply DirectedLobby.restart_clears
  decide +kernel

end Rtype.Server
