import Mathlib
import Rtype.Client.Keyboard
import Rtype.Server.TaskDiscipline

/-!
# Client - From the keys to the bullets

The packets that the keyboards make are handled by the lobby of the players, which fires a
bullet for each packet that asks for a shot.

Main results:

- Theorem {lit}`exists_handleUserInput_fired`: what a packet with keys does to a lobby.
- Theorem {lit}`presses_fire`: each player fires as many bullets as the key was pressed.

Current gaps:

- The packets of each player arrive in their order, and between them are only packets of the
  other players, and no ticks.
-/

namespace Rtype.Client

open Rtype.Rtecs Rtype.Common Rtype.Server

/-- A bullet of a player. -/
def IsBulletOf (ecs : ECS Comp) (id bullet : ℕ) : Prop :=
  ecs.getEntityComponent bullet .type = some (TypeComponent.mk .kBullet) ∧
    ecs.getEntityComponent bullet (.other .owner) = some (Owner.mk id)

/-- An entity is the same in two stores. -/
structure SameEntity (ecs ecs' : ECS Comp) (e : ℕ) : Prop where
  mask : ecs'.entities[e]? = ecs.entities[e]?
  instances : ∀ c, ecs'.getEntityComponent e c = ecs.getEntityComponent e c

theorem SameEntity.trans {ecs ecs' ecs'' : ECS Comp} {e : ℕ} (h : SameEntity ecs ecs' e)
    (h' : SameEntity ecs' ecs'' e) : SameEntity ecs ecs'' e :=
  ⟨h'.mask.trans h.mask, fun c => (h'.instances c).trans (h.instances c)⟩

theorem SameEntity.describe {ecs ecs' : ECS Comp} {e : ℕ} (h : SameEntity ecs ecs' e) :
    Lobby.describe ecs' e = Lobby.describe ecs e := by
  have hinstances : ecs'.getEntityComponent e = ecs.getEntityComponent e := funext h.instances
  simp only [Lobby.describe, Lobby.infos, ECS.getEntityMask, h.mask, hinstances]

/-- All live ids are below the counter of the store, and so many more ids are small enough for
components. -/
structure HasRoom (ecs : ECS Comp) (n : ℕ) : Prop where
  fresh : ∀ e ∈ ecs.entities, e < ecs.entitiesID
  room : ecs.entitiesID + n ≤ idLimit

theorem HasRoom.mono {ecs : ECS Comp} {n m : ℕ} (h : HasRoom ecs m) (hle : n ≤ m) :
    HasRoom ecs n :=
  ⟨h.fresh, (Nat.add_le_add_left hle _).trans h.room⟩

/-- The entities of the bullets of some shots. -/
def bulletIds (shots : List (SessionPtr × Spawn)) : List ℕ :=
  shots.map fun shot => shot.2.id

/-- A lobby has fired some bullets for its players, and has told all of them.  The bullets are
all that is new in the store, and each packet describes its bullet. -/
structure Fired (shots : List (SessionPtr × Spawn)) (lobby lobby' : Lobby) : Prop where
  fit : lobby'.Fit
  players : lobby'.players = lobby.players
  outGoing : lobby'.outGoing = lobby.outGoing ++ shots.map fun shot =>
    (lobby.players.keys, .spawn shot.2)
  counter : lobby'.engine.ecs.entitiesID = lobby.engine.ecs.entitiesID + shots.length
  ids : bulletIds shots = List.range' lobby.engine.ecs.entitiesID shots.length
  entities : ∀ e, e ∈ lobby'.engine.ecs.entities ↔
    e ∈ lobby.engine.ecs.entities ∨ e ∈ bulletIds shots
  kept : ∀ e ∈ lobby.engine.ecs.entities,
    (∀ session : SessionPtr, lobby.players[session]? ≠ some e) →
      SameEntity lobby.engine.ecs lobby'.engine.ecs e
  bullets : ∀ shot ∈ shots, ∃ id, lobby.players[shot.1]? = some id ∧
    shot.2 = Lobby.describe lobby'.engine.ecs shot.2.id ∧
    IsBulletOf lobby'.engine.ecs id shot.2.id

/-- The ids of the bullets are not below the counter. -/
theorem Fired.le_id {shots : List (SessionPtr × Spawn)} {lobby lobby' : Lobby}
    (h : Fired shots lobby lobby') {e : ℕ} (he : e ∈ bulletIds shots) :
    lobby.engine.ecs.entitiesID ≤ e ∧ e < lobby'.engine.ecs.entitiesID := by
  rw [h.ids, List.mem_range'_1] at he
  rw [h.counter]
  exact he

theorem Fired.hasRoom {shots : List (SessionPtr × Spawn)} {lobby lobby' : Lobby} {n : ℕ}
    (h : Fired shots lobby lobby') (hroom : HasRoom lobby.engine.ecs (shots.length + n)) :
    HasRoom lobby'.engine.ecs n := by
  constructor
  · intro e he
    rcases (h.entities e).mp he with hold | hnew
    · have hlt := hroom.fresh e hold
      have hcounter := h.counter
      omega
    · exact (h.le_id hnew).2
  · have hle := hroom.room
    rw [h.counter]
    omega

theorem Fired.trans {shots shots' : List (SessionPtr × Spawn)} {lobby lobby' lobby'' : Lobby}
    (hfit : lobby.Fit)
    (hfresh : ∀ e ∈ lobby.engine.ecs.entities, e < lobby.engine.ecs.entitiesID)
    (h : Fired shots lobby lobby') (h' : Fired shots' lobby' lobby'') :
    Fired (shots ++ shots') lobby lobby'' := by
  constructor
  · exact h'.fit
  · rw [h'.players, h.players]
  · rw [h'.outGoing, h.outGoing, h.players, List.map_append, List.append_assoc]
  · rw [h'.counter, h.counter, List.length_append, Nat.add_assoc]
  · rw [bulletIds, List.map_append, ← bulletIds, ← bulletIds, h.ids, h'.ids, h.counter,
      List.range'_append_1, List.length_append]
  · intro e
    rw [h'.entities, h.entities, bulletIds, bulletIds, bulletIds, List.map_append, List.mem_append,
      or_assoc]
  · intro e he hplayer
    apply (h.kept e he hplayer).trans
    apply h'.kept e ((h.entities e).mpr (.inl he))
    rw [h.players]
    exact hplayer
  · intro shot hshot
    rcases List.mem_append.mp hshot with hshot | hshot
    · rcases h.bullets shot hshot with ⟨id, hid, hdescribes, htype, howner⟩
      have hbullet : shot.2.id ∈ bulletIds shots := List.mem_map_of_mem hshot
      -- the entities of the players are older than the bullet
      have hsame : SameEntity lobby'.engine.ecs lobby''.engine.ecs shot.2.id := by
        apply h'.kept _ ((h.entities _).mpr (.inr hbullet))
        intro session hplayer
        rw [h.players] at hplayer
        have hold := hfresh _ (hfit.playable session _ hplayer).live
        have hnew := (h.le_id hbullet).1
        omega
      refine ⟨id, hid, ?_, ?_, ?_⟩
      · rw [hsame.describe]
        exact hdescribes
      · exact (hsame.instances .type).trans htype
      · exact (hsame.instances (.other .owner)).trans howner
    · rw [← h.players]
      exact h'.bullets shot hshot

theorem Fired.nothing {lobby : Lobby} (hfit : lobby.Fit) : Fired [] lobby lobby where
  fit := hfit
  players := rfl
  outGoing := (List.append_nil _).symm
  counter := rfl
  ids := rfl
  entities _ := (or_iff_left List.not_mem_nil).symm
  kept _ _ _ := ⟨rfl, fun _ => rfl⟩
  bullets _ hshot := (List.not_mem_nil hshot).elim

/-- The player is steered. -/
theorem fired_write {lobby : Lobby} (hfit : lobby.Fit) {session : SessionPtr} {id : ℕ}
    (hplayer : lobby.players[session]? = some id) (velocity : Velocity) :
    Fired [] lobby (lobby.setEcs (lobby.engine.ecs.updateEntityComponent id
      ⟨.other .velocity, velocity⟩).1) := by
  have hhas : lobby.engine.ecs.hasComponent (.other .velocity) id = true :=
    (hfit.playable session id hplayer).holds _ (by decide)
  have hentities := ECS.entities_updateEntityComponent lobby.engine.ecs id
    ⟨.other .velocity, velocity⟩
  constructor
  · refine ⟨hfit.registered.updateEntityComponent id _, ?_⟩
    intro other player hother
    exact (hfit.playable other player hother).updateEntityComponent id _
  · rfl
  · exact (List.append_nil _).symm
  · exact (ECS.KeepsIds.updateEntityComponent lobby.engine.ecs id _).counter
  · rfl
  · intro e
    change e ∈ (lobby.engine.ecs.updateEntityComponent id _).1.entities ↔ _
    rw [hentities]
    exact (or_iff_left List.not_mem_nil).symm
  · intro e _ hother
    have hne : e ≠ id := by
      rintro rfl
      exact hother session hplayer
    constructor
    · exact congrArg (fun entities => entities[e]?) hentities
    · intro c
      have hothers := (@ECS.getEntityComponent_updateEntityComponent _ _ _ lobby.engine.ecs id
        ⟨.other .velocity, velocity⟩ hhas).2
      exact hothers e c fun hboth => hne hboth.1
  · intro shot hshot
    cases hshot

/-- A bullet is spawned. -/
theorem fired_spawned {lobby : Lobby} (hfit : lobby.Fit) (hroom : HasRoom lobby.engine.ecs 1)
    {session : SessionPtr} {id : ℕ} (hplayer : lobby.players[session]? = some id)
    {first : Instance Comp} {rest : List (Instance Comp)} (hfirst : first.1 ∈ gameComponents)
    (htype : ECS.lastOf (first :: rest) .type = some (TypeComponent.mk .kBullet))
    (howner : ECS.lastOf (first :: rest) (.other .owner) = some (Owner.mk id)) :
    Fired [(session, Lobby.describe (lobby.engine.ecs.registerEntity first rest).1
      (lobby.engine.ecs.registerEntity first rest).2)] lobby (lobby.spawned first rest none) := by
  have hsettled := hfit.registered.settled
  have hset := fun c (hc : c ∈ gameComponents) => hfit.registered.isSome_set hc
  have hid : (lobby.engine.ecs.registerEntity first rest).2 = lobby.engine.ecs.entitiesID :=
    ECS.registerEntity_id hsettled (hset _ hfirst)
  constructor
  · refine ⟨hfit.registered.registerEntity first rest, ?_⟩
    intro other player hother
    exact (hfit.playable other player hother).registerEntity hfit.registered rest hfirst
  · rfl
  · rfl
  · change (lobby.engine.ecs.registerEntity first rest).1.entitiesID = _
    have hle := hroom.room
    rw [ECS.entitiesID_registerEntity hsettled (hset _ hfirst)]
    exact Nat.mod_eq_of_lt (hle.trans_lt (by decide))
  · change [(lobby.engine.ecs.registerEntity first rest).2] = _
    rw [hid]
    rfl
  · intro e
    change e ∈ (lobby.engine.ecs.registerEntity first rest).1.entities ↔
      _ ∨ e ∈ [(lobby.engine.ecs.registerEntity first rest).2]
    rw [ECS.mem_entities_registerEntity hsettled (hset _ hfirst), hid, List.mem_singleton, or_comm]
  · intro e he _
    have hne : e ≠ lobby.engine.ecs.entitiesID := (hroom.fresh e he).ne
    exact ⟨ECS.entities_registerEntity_of_ne hne,
      ECS.getEntityComponent_registerEntity_of_ne hne⟩
  · intro shot hmem
    rw [List.mem_singleton] at hmem
    subst hmem
    refine ⟨id, hplayer, rfl, ?_⟩
    change IsBulletOf (lobby.engine.ecs.registerEntity first rest).1 id
      (lobby.engine.ecs.registerEntity first rest).2
    rw [ECS.registerEntity_snd]
    constructor
    · rw [ECS.getEntityComponent_registerEntity_newId hsettled (hset _ (by decide)), htype]
      rfl
    · rw [ECS.getEntityComponent_registerEntity_newId hsettled (hset _ (by decide)), howner]
      rfl

/-- Who fires. -/
def shooters (inputs : List (SessionPtr × BitVec 8)) : List SessionPtr :=
  (inputs.filter fun input => input.2 &&& kShoot ≠ 0).map Prod.fst

/-- The shots of one player among those of all. -/
theorem count_shooters (inputs : List (SessionPtr × BitVec 8)) (session : SessionPtr) :
    (shooters inputs).count session =
      ((inputs.filter fun input => input.1 = session).map Prod.snd).countP fun mask =>
        mask &&& kShoot ≠ 0 := by
  rw [shooters, List.count, List.countP_map, List.countP_filter, List.countP_map,
    List.countP_filter]
  apply List.countP_congr
  intro input _
  simp [and_comm]

section

variable [FloatUnit]

/-- The bullet of a shot. -/
theorem fired_spawnBullet {lobby : Lobby} (hfit : lobby.Fit) (hroom : HasRoom lobby.engine.ecs 1)
    {session : SessionPtr} {id : ℕ} (hplayer : lobby.players[session]? = some id) (pos : Position)
    (inputMask : BitVec 8) :
    ∃ lobby' shots, Lobby.spawnBullet id lobby pos inputMask = .ok lobby' ∧
      Fired shots lobby lobby' ∧
      shots.map Prod.fst = if inputMask &&& kShoot ≠ 0 then [session] else [] := by
  unfold Lobby.spawnBullet
  split_ifs with hshot
  · rw [Lobby.spawnEntity_spawned]
    exact ⟨_, _, rfl, fired_spawned hfit hroom hplayer (by decide) rfl rfl, rfl⟩
  · exact ⟨lobby, [], rfl, .nothing hfit, rfl⟩

/-- A packet with keys never fails for a player, steers the player, and fires a bullet if it
asks for one. -/
theorem exists_handleUserInput_fired {lobby : Lobby} (hfit : lobby.Fit)
    (hroom : HasRoom lobby.engine.ecs 1) {session : SessionPtr}
    (hmember : session ∈ lobby.players) (inputMask : BitVec 8) :
    ∃ lobby' shots, Lobby.handleUserInput session lobby inputMask = .ok lobby' ∧
      Fired shots lobby lobby' ∧
      shots.map Prod.fst = if inputMask &&& kShoot ≠ 0 then [session] else [] := by
  rcases Option.isSome_iff_exists.mp (Std.ExtTreeMap.mem_iff_isSome_getElem?.mp hmember) with
    ⟨id, hplayer⟩
  rcases Lobby.exists_playerComponent hfit hplayer (c := .other .position) (by decide) with
    ⟨(position : Position), hposition⟩
  rcases Lobby.exists_playerComponent hfit hplayer (c := .other .velocity) (by decide) with
    ⟨(velocity : Velocity), hvelocity⟩
  have hid : lobby.getPlayerId session = some id := hplayer
  have hsteered := fired_write hfit hplayer (Lobby.steer velocity inputMask)
  rcases fired_spawnBullet hsteered.fit (hsteered.hasRoom hroom) (hsteered.players ▸ hplayer)
    position inputMask with ⟨lobby', shots, hspawn, hfired, hshots⟩
  refine ⟨lobby', shots, ?_, hsteered.trans hfit hroom.fresh hfired, hshots⟩
  unfold Lobby.handleUserInput
  simp only [hvelocity, hid, Lobby.getPlayerPosition, hposition]
  exact hspawn

/-- Several packets with keys, in the order of their arrival. -/
def handleInputs (inputs : List (SessionPtr × BitVec 8)) (lobby : Lobby) :
    Except Server.Fault Lobby :=
  inputs.foldlM (fun lobby input => Lobby.handleUserInput input.1 lobby input.2) lobby

theorem exists_handleInputs {inputs : List (SessionPtr × BitVec 8)} {lobby : Lobby}
    (hfit : lobby.Fit) (hroom : HasRoom lobby.engine.ecs inputs.length)
    (hmembers : ∀ input ∈ inputs, input.1 ∈ lobby.players) :
    ∃ lobby' shots, handleInputs inputs lobby = .ok lobby' ∧ Fired shots lobby lobby' ∧
      shots.map Prod.fst = shooters inputs := by
  induction inputs generalizing lobby with
  | nil => exact ⟨lobby, [], rfl, .nothing hfit, rfl⟩
  | cons input inputs ih =>
      rw [List.forall_mem_cons] at hmembers
      rw [List.length_cons] at hroom
      rcases exists_handleUserInput_fired hfit (hroom.mono (Nat.succ_le_succ (Nat.zero_le _)))
        hmembers.1 input.2 with ⟨lobby₁, first, hfirst, hfired₁, hshooter⟩
      have hone : first.length ≤ 1 := by
        rw [← List.length_map Prod.fst, hshooter]
        split_ifs <;> simp
      have hroom₁ : HasRoom lobby₁.engine.ecs inputs.length :=
        hfired₁.hasRoom (hroom.mono (by omega))
      have hmembers₁ : ∀ input ∈ inputs, input.1 ∈ lobby₁.players := by
        rw [hfired₁.players]
        exact hmembers.2
      rcases ih hfired₁.fit hroom₁ hmembers₁ with ⟨lobby', rest, hrest, hfired, hshooters⟩
      refine ⟨lobby', first ++ rest, ?_, hfired₁.trans hfit hroom.fresh hfired, ?_⟩
      · rw [handleInputs, List.foldlM_cons, hfirst]
        exact hrest
      · rw [List.map_append, hshooter, hshooters, shooters, shooters, List.filter_cons]
        simp only [decide_eq_true_eq]
        split_ifs <;> rfl

/-- The packets of several players arrive in a lobby in any order, but those of each player in
the order in which the keyboard made them, and with no tick between them.  Then none of them
fails; each player fires as many bullets as the key of the shot was pressed, no matter how long
it was held; every bullet is announced to all players, as a bullet of the player who fired it;
and the bullets, each with an id of its own, are all that is new in the store. -/
theorem presses_fire {lobby : Lobby} {inputs : List (SessionPtr × BitVec 8)} (hfit : lobby.Fit)
    (hroom : HasRoom lobby.engine.ecs inputs.length)
    (hmembers : ∀ input ∈ inputs, input.1 ∈ lobby.players)
    {frames : SessionPtr → List Keyboard}
    (hwishes : ∀ session, (inputs.filter fun input => input.1 = session).map Prod.snd =
      wishes noKeys (frames session)) :
    ∃ lobby' shots, handleInputs inputs lobby = .ok lobby' ∧ Fired shots lobby lobby' ∧
      (∀ session, (shots.map Prod.fst).count session =
        presses .KEY_SPACE noKeys (frames session)) ∧
      (bulletIds shots).Nodup ∧
      ∀ e, e ∈ bulletIds shots ↔
        e ∈ lobby'.engine.ecs.entities ∧ e ∉ lobby.engine.ecs.entities := by
  rcases exists_handleInputs hfit hroom hmembers with ⟨lobby', shots, hrun, hfired, hshooters⟩
  refine ⟨lobby', shots, hrun, hfired, ?_, ?_, ?_⟩
  · intro session
    rw [hshooters, count_shooters, hwishes, countP_wishes]
  · rw [hfired.ids]
    exact List.nodup_range'
  · intro e
    rw [hfired.entities]
    constructor
    · intro hbullet
      refine ⟨.inr hbullet, fun hold => ?_⟩
      have hlt := hroom.fresh e hold
      have hle := (hfired.le_id hbullet).1
      omega
    · rintro ⟨hold | hbullet, hnew⟩
      · exact absurd hold hnew
      · exact hbullet

end

/-! ## A shot -/

section

local instance shootingUnit : FloatUnit := .addsZero

/-- The space bar is down. -/
def spaceBar : Keyboard := fun key => key = .KEY_SPACE

/-- A player holds the space bar down for two frames. -/
def oneShot (session : SessionPtr) : List Keyboard :=
  if session = 7 then [spaceBar, spaceBar, noKeys] else []

/-- The player has fired one bullet, which is entity 1. -/
theorem presses_fire_once :
    ∃ lobby' shots, handleInputs [(7, kShoot)] ((Lobby.new 0).joined 7) = .ok lobby' ∧
      Fired shots ((Lobby.new 0).joined 7) lobby' ∧ (shots.map Prod.fst).count 7 = 1 ∧
      bulletIds shots = [1] ∧ 1 ∈ lobby'.engine.ecs.entities := by
  have hroom : HasRoom ((Lobby.new 0).joined 7).engine.ecs 1 := by
    constructor
    · have hkeys : ∀ e ∈ ((Lobby.new 0).joined 7).engine.ecs.entities.keys,
          e < ((Lobby.new 0).joined 7).engine.ecs.entitiesID := by decide +kernel
      exact fun e he => hkeys e (Std.ExtTreeMap.mem_keys.mpr he)
    · decide +kernel
  have hmembers : ∀ input ∈ [((7 : SessionPtr), kShoot)],
      input.1 ∈ ((Lobby.new 0).joined 7).players := by
    intro input hinput
    rw [List.mem_singleton] at hinput
    subst hinput
    decide +kernel
  have hwishes : ∀ session : SessionPtr,
      (([(7, kShoot)] : List (SessionPtr × BitVec 8)).filter fun input =>
        input.1 = session).map Prod.snd = wishes noKeys (oneShot session) := by
    intro session
    by_cases hsession : session = 7
    · subst hsession
      decide
    · rw [oneShot, if_neg hsession, List.filter_cons_of_neg]
      · rfl
      · simpa using Ne.symm hsession
  rcases presses_fire (Lobby.fit_joined (Lobby.fit_new 0)) hroom hmembers hwishes with
    ⟨lobby', shots, hrun, hfired, hcount, -, hnew⟩
  have hids := hfired.ids
  have hcounter : ((Lobby.new 0).joined 7).engine.ecs.entitiesID = 1 := by decide +kernel
  have hlength : shots.length = 1 := by
    -- nobody else has pressed the key
    have hall : ∀ session ∈ shots.map Prod.fst, 7 = session := by
      intro session hsession
      by_contra hne
      have hpositive := List.count_pos_iff.mpr hsession
      rw [hcount, oneShot, if_neg (Ne.symm hne)] at hpositive
      exact absurd hpositive (lt_irrefl 0)
    rw [← List.length_map Prod.fst, ← List.count_eq_length.mpr hall]
    exact hcount 7
  rw [hcounter, hlength] at hids
  refine ⟨lobby', shots, hrun, hfired, hcount 7, hids, ?_⟩
  exact ((hnew 1).mp (hids ▸ List.mem_singleton_self 1)).1

end

end Rtype.Client
