import Mathlib
import Rtype.Client.World

/-!
# Client - The map of the bindings

The packets about entities may come in any order and more than once.  The map always binds
the ids of the server to the entities of the client one to one, and a description of an
entity that is bound already is passed over.

Main results:

- Structure {lit}`HandlerToolbox.Matched`: the bindings and the live entities match.
- Theorem {lit}`binding_map_sound`: they do after any packets about entities.
- Theorem {lit}`binding_map_wraps`: unless so many were described that the counter of the
  client comes round.

Current gaps:

- The end of the program at an id that is too large for a component is not a state of the
  client.  Up to {lit}`idLimit` entities no id is.
-/

namespace Rtype.Client

open Rtype.Rtecs Rtype.Rteng Rtype.Common Rtype.Server
open Std

namespace HandlerToolbox

variable {t t' : HandlerToolbox}

/-! ## Live entities are bound -/

/-- Every live entity is bound. -/
def Covered (t : HandlerToolbox) : Prop :=
  ∀ real ∈ t.engine.ecs.entities, ∃ id : ℕ, t.serverToClient[id]? = some real

theorem Covered.new : HandlerToolbox.new.Covered := by
  intro real hreal
  have hempty : HandlerToolbox.new.engine.ecs.entities.isEmpty = true := by decide +kernel
  rw [ExtTreeMap.isEmpty_iff.mp hempty] at hreal
  exact absurd hreal ExtTreeMap.not_mem_empty

theorem Covered.keep (h : t.Covered) (hbinding : t'.serverToClient = t.serverToClient)
    (hlive : ∀ e ∈ t'.engine.ecs.entities, e ∈ t.engine.ecs.entities) : t'.Covered := by
  intro real hreal
  rw [hbinding]
  exact h real (hlive real hreal)

theorem Covered.add (h : t.Covered) (id : ℕ) (instances : List (Instance Comp)) :
    (t.add id instances).Covered :=
  h.keep rfl fun _ he => (ECS.mem_entities_add ..).mp he

theorem Covered.bound (h : t.Covered) {id : ℕ} (hnew : id ∉ t.serverToClient) :
    (Client.bound t id).Covered := by
  intro real hreal
  rcases ECS.mem_entities_insertEntity.mp hreal with rfl | hold
  · exact ⟨id, ExtTreeMap.getElem?_insert_self⟩
  · rcases h real hold with ⟨other, hother⟩
    exact ⟨other, (enriches_bound hnew).bound other real hother⟩

theorem Covered.handleSpawn (h : t.Covered) {packet : Spawn}
    (hok : Client.handleSpawn packet t = .ok t') : t'.Covered := by
  rcases handleSpawn_cases hok with ⟨-, rfl⟩ | ⟨hnew, instances, rfl⟩
  · exact h
  · exact (h.bound hnew).add _ instances

theorem Covered.handleDestroy (h : t.Covered) (packet : Destroy) :
    (Client.handleDestroy packet t).Covered := by
  unfold Client.handleDestroy
  split
  · exact h
  · rename_i gone hgone
    intro real hreal
    rcases mem_entities_destroyEntity.mp hreal with ⟨hne, hlive⟩
    rcases h real hlive with ⟨id, hid⟩
    refine ⟨id, ?_⟩
    change (t.serverToClient.erase packet.id)[id]? = _
    rw [ExtTreeMap.getElem?_erase, if_neg, hid]
    rw [Std.compare_eq_iff_eq]
    rintro rfl
    exact hne (Option.some.inj (hid.symm.trans hgone))

/-- Whatever is handled, every live entity stays bound. -/
theorem Covered.handle (h : t.Covered) {packet : Variant} (hok : Client.handle t packet = .ok t') :
    t'.Covered := by
  cases packet with
  | spawn packet => exact h.handleSpawn hok
  | destroy packet =>
      cases hok
      exact h.handleDestroy packet
  | worldInit packet =>
      have hstate : (t.setGameState packet.state).Covered := h
      exact spawnAll_preserves (fun hcovered hspawn => hcovered.handleSpawn hspawn) hstate hok
  | updateGameState gameState =>
      cases hok
      exact h
  | joinAck packet =>
      change handleJoinAck packet t = _ at hok
      cases hbound : t.serverToClient[packet.id]? with
      | none =>
          rw [handleJoinAck_of_none hbound] at hok
          cases hok
      | some real =>
          rw [handleJoinAck_of_some hbound] at hok
          cases hok
          have hstate : ((t.setGameState packet.gameState).setMenuState menuLobby).Covered := h
          exact hstate.add real _

theorem Reached.covered {n : ℕ} (h : Reached n t) : t.Covered := by
  induction h with
  | new => exact .new
  | handle packet _ hok ih => exact ih.handle hok
  | @write n toolbox entity newInstance _ ih =>
      intro real hreal
      apply ih real
      change real ∈ (toolbox.engine.ecs.updateEntityComponent entity newInstance).1.entities
        at hreal
      rwa [ECS.entities_updateEntityComponent] at hreal

/-! ## Bindings and live entities -/

/-- The map binds ids of the server to the live entities of the client, one to one. -/
structure Matched (t : HandlerToolbox) : Prop where
  injective : ∀ (id id' real : ℕ), t.serverToClient[id]? = some real →
    t.serverToClient[id']? = some real → id = id'
  live : ∀ (id real : ℕ), t.serverToClient[id]? = some real → real ∈ t.engine.ecs.entities
  covered : ∀ real ∈ t.engine.ecs.entities, ∃ id : ℕ, t.serverToClient[id]? = some real

/-- While few entities are described, the ids of the client are small enough for components. -/
theorem Reached.lt_idLimit {n : ℕ} (h : Reached n t) (hfew : n ≤ idLimit) {real : ℕ}
    (hreal : real ∈ t.engine.ecs.entities) : real < idLimit := by
  have hlinked := h.linked (hfew.trans_lt (by decide))
  rcases h.covered real hreal with ⟨id, hbound⟩
  exact (hlinked.live id real hbound).2.trans_le (hlinked.counter.trans hfew)

theorem Reached.matched {n : ℕ} (h : Reached n t) (hfew : n < 2 ^ 64) : t.Matched where
  injective := (h.linked hfew).injective
  live id real hbound := ((h.linked hfew).live id real hbound).1
  covered := h.covered

/-- Packets that are handled one after another. -/
theorem Reached.handleAll {n : ℕ} (h : Reached n t) {packets : List Variant}
    (hok : Client.handleAll packets t = .ok t') : Reached (n + (packets.map described).sum) t' := by
  induction packets generalizing n t with
  | nil =>
      cases hok
      exact h
  | cons packet packets ih =>
      rw [Client.handleAll, List.foldlM_cons] at hok
      cases hfirst : Client.handle t packet with
      | error fault =>
          rw [hfirst] at hok
          cases hok
      | ok next =>
          rw [hfirst] at hok
          rw [List.map_cons, List.sum_cons, ← Nat.add_assoc]
          exact ih (h.handle packet hfirst) hok

/-! ## Entities that are known -/

/-- A description of an entity that is bound is passed over. -/
theorem handleSpawn_known {packet : Spawn} (h : packet.id ∈ t.serverToClient) :
    Client.handleSpawn packet t = .ok t :=
  if_pos h

/-- A snapshot is handled like its entries, one after another. -/
theorem spawnAll_eq_foldlM (t : HandlerToolbox) (spawns : List Spawn) :
    spawnAll t (spawns.map Spawn.bitmask) (spawns.map Spawn.id) (spawns.map Spawn.content) =
      spawns.foldlM (fun t spawn => Client.handleSpawn spawn t) t := by
  induction spawns generalizing t with
  | nil => rfl
  | cons spawn spawns ih =>
      simp only [List.map_cons, spawnAll, List.tail_cons, List.foldlM_cons]
      split_ifs with hknown
      · rw [handleSpawn_known hknown]
        exact ih t
      · cases Client.handleSpawn spawn t with
        | error fault => rfl
        | ok next => exact ih next

theorem handleWorldInit_eq {packet : WorldInit} {spawns : List Spawn} (h : packet.Lists spawns) :
    handleWorldInit packet t =
      spawns.foldlM (fun t spawn => Client.handleSpawn spawn t)
        (t.setGameState packet.state) := by
  rcases h with ⟨hids, hbitsets, hentities⟩
  rw [handleWorldInit, hids, hbitsets, hentities, spawnAll_eq_foldlM]

/-- Descriptions of entities that are bound change nothing: a {lit}`Spawn` leaves the client
as it is, and an entry of a snapshot might as well be missing. -/
structure PassesOver (t : HandlerToolbox) : Prop where
  spawn : ∀ packet : Spawn, packet.id ∈ t.serverToClient → Client.handleSpawn packet t = .ok t
  entry : ∀ (packet packet' : WorldInit) (earlier : List Spawn) (entry : Spawn)
    (later : List Spawn), packet.Lists (earlier ++ entry :: later) →
    packet'.Lists (earlier ++ later) → packet'.state = packet.state →
    (entry.id ∈ t.serverToClient ∨ entry.id ∈ earlier.map Spawn.id) →
    handleWorldInit packet t = handleWorldInit packet' t

theorem passesOver (t : HandlerToolbox) : t.PassesOver where
  spawn _ := handleSpawn_known
  entry packet packet' earlier entry later hlists hlists' hstate hknown := by
    rw [handleWorldInit_eq hlists, handleWorldInit_eq hlists', hstate, List.foldlM_append,
      List.foldlM_append]
    cases hearlier : earlier.foldlM (fun t spawn => Client.handleSpawn spawn t)
        (t.setGameState packet.state) with
    | error fault => rfl
    | ok next =>
        have hmem : entry.id ∈ next.serverToClient := by
          rw [← spawnAll_eq_foldlM] at hearlier
          apply ((learns_spawnAll hearlier).mem entry.id).mpr
          have hlength : (earlier.map Spawn.bitmask).length = (earlier.map Spawn.id).length := by
            rw [List.length_map, List.length_map]
          rw [hlength, List.take_length]
          exact hknown.symm
        have hentry : (entry :: later).foldlM (fun t spawn => Client.handleSpawn spawn t) next =
            later.foldlM (fun t spawn => Client.handleSpawn spawn t) next := by
          rw [List.foldlM_cons, handleSpawn_known hmem]
          rfl
        exact hentry

end HandlerToolbox

/-! ## Packets about entities -/

/-- A store of the server with one enemy. -/
def enemyStore : ECS Comp :=
  ((Lobby.new 0).engine.ecs.registerEntity ⟨.type, TypeComponent.mk .kEnemy⟩ []).1

/-- The description of the enemy, under an id. -/
def enemySpawn (id : ℕ) : Spawn :=
  { Lobby.describe enemyStore 0 with id := id }

/-- What a packet describes does not depend on the id. -/
theorem describes_id {packet : Spawn} (h : Describes packet) (id : ℕ) :
    Describes { packet with id := id } :=
  h

theorem describes_enemySpawn (id : ℕ) : Describes (enemySpawn id) := by
  have hclothed : Lobby.Clothed enemyStore := (Lobby.Clothed.new 0).registerEntity [] type_mem
  have hlive : 0 ∈ enemyStore.entities := by decide +kernel
  exact describes_id (hclothed.describes hlive) id

/-- After packets about entities in any order the bindings match the live entities, and
packets about entities that are bound change nothing.  Up to {lit}`idLimit` entities all packets
are handled without a fault, and all ids are small enough for components. -/
theorem binding_map_sound {packets : List Variant}
    (hworld : ∀ packet ∈ packets, isWorld packet)
    (hwellFormed : ∀ packet ∈ packets, WellFormed packet)
    (hfew : (packets.map described).sum < 2 ^ 64) :
    (∀ toolbox, handleAll packets .new = .ok toolbox → toolbox.Matched ∧ toolbox.PassesOver) ∧
      ((packets.map described).sum ≤ idLimit → ∃ toolbox, handleAll packets .new = .ok toolbox ∧
        ∀ real ∈ toolbox.engine.ecs.entities, real < idLimit) := by
  have hreached : ∀ toolbox, handleAll packets .new = .ok toolbox →
      toolbox.Reached (packets.map described).sum := by
    intro toolbox hok
    rw [← Nat.zero_add (packets.map described).sum]
    exact HandlerToolbox.Reached.new.handleAll hok
  constructor
  · intro toolbox hok
    exact ⟨(hreached toolbox hok).matched hfew, toolbox.passesOver⟩
  · intro hsmall
    rcases handleAll_accords HandlerToolbox.Ready.new hwellFormed hworld with ⟨toolbox, hok, -, -⟩
    exact ⟨toolbox, hok, fun real => (hreached toolbox hok).lt_idLimit hsmall⟩

/-- An entity is described twice, goes, and comes again. -/
theorem binding_map_sound_again :
    ∃ toolbox, handleAll [.spawn (enemySpawn 0), .spawn (enemySpawn 0),
      .destroy { id := 0, earnedPoints := 0 }, .spawn (enemySpawn 0)] .new = .ok toolbox ∧
        (∀ real ∈ toolbox.engine.ecs.entities, real < idLimit) ∧
        toolbox.Matched ∧ toolbox.PassesOver := by
  have hspawn : WellFormed (.spawn (enemySpawn 0)) := describes_enemySpawn 0
  have hwellFormed : ∀ packet ∈ [Variant.spawn (enemySpawn 0), .spawn (enemySpawn 0),
      .destroy { id := 0, earnedPoints := 0 }, .spawn (enemySpawn 0)], WellFormed packet := by
    intro packet hpacket
    simp only [List.mem_cons, List.not_mem_nil, or_false] at hpacket
    rcases hpacket with rfl | rfl | rfl | rfl
    · exact hspawn
    · exact hspawn
    · exact trivial
    · exact hspawn
  rcases binding_map_sound (by simp [isWorld]) hwellFormed (by simp [described]) with
    ⟨hsound, hhandled⟩
  have hthree : 3 ≤ idLimit := by decide
  rcases hhandled hthree with ⟨toolbox, hok, hsmall⟩
  exact ⟨toolbox, hok, hsmall, hsound toolbox hok⟩

/-! ## When the counter comes round -/

/-- A new entity gets the next id. -/
theorem handleSpawn_new {toolbox : HandlerToolbox} (hready : toolbox.Ready) {packet : Spawn}
    (hpacket : Describes packet) (hnew : packet.id ∉ toolbox.serverToClient) :
    ∃ toolbox', handleSpawn packet toolbox = .ok toolbox' ∧ toolbox'.Ready ∧
      toolbox'.serverToClient =
        toolbox.serverToClient.insert packet.id toolbox.engine.ecs.entitiesID ∧
      toolbox'.engine.ecs.entitiesID = (toolbox.engine.ecs.entitiesID + 1) % 2 ^ 64 := by
  rcases hready.handleSpawn_ok hpacket with ⟨toolbox', hok⟩
  refine ⟨toolbox', hok, hready.handleSpawn hok, ?_⟩
  rcases handleSpawn_cases hok with ⟨hknown, -⟩ | ⟨-, instances, rfl⟩
  · exact absurd hknown hnew
  · exact ⟨rfl, (ECS.KeepsIds.addEntityComponents _ _ instances).counter⟩

/-- The description of an entity that has no component which the client knows; nothing is put
into the store for it. -/
def bareSpawn (id : ℕ) : Spawn :=
  { id := id, bitmask := [63], content := [] }

theorem describes_bareSpawn (id : ℕ) : Describes (bareSpawn id) := by
  have hbits : ∀ i < gameComponents.length,
      ((DynamicBitSet.deserialize [63]).getD {}).get (i + 1) = false := by decide +kernel
  refine ⟨fun _ => none, (DynamicBitSet.deserialize [63]).getD {}, rfl, ?_, rfl⟩
  intro i c hc
  exact hbits i (List.getElem?_eq_some_iff.mp hc).1

/-- The client while entities come and go beside the first one. -/
structure Turned (k : ℕ) (toolbox : HandlerToolbox) : Prop where
  ready : toolbox.Ready
  counter : toolbox.engine.ecs.entitiesID = k % 2 ^ 64
  first : toolbox.serverToClient[0]? = some 0
  others : ∀ id, id ≠ 0 → id ∉ toolbox.serverToClient

/-- An entity comes and goes. -/
def comeAndGo : List Variant :=
  [.spawn (bareSpawn 1), .destroy { id := 1, earnedPoints := 0 }]

theorem Turned.step {k : ℕ} {toolbox : HandlerToolbox} (h : Turned k toolbox) :
    ∃ toolbox', handleAll comeAndGo toolbox = .ok toolbox' ∧ Turned (k + 1) toolbox' := by
  have hnew : (bareSpawn 1).id ∉ toolbox.serverToClient := h.others 1 one_ne_zero
  rcases handleSpawn_new h.ready (describes_bareSpawn 1) hnew with
    ⟨spawned, hok, hready, hbinding, hcounter⟩
  have hbound : spawned.serverToClient[1]? = some toolbox.engine.ecs.entitiesID := by
    rw [hbinding]
    exact ExtTreeMap.getElem?_insert_self
  let gone : Destroy := { id := 1, earnedPoints := 0 }
  have hgone : handleDestroy gone spawned =
      { spawned.setEcs (spawned.engine.ecs.destroyEntity toolbox.engine.ecs.entitiesID) with
        serverToClient := spawned.serverToClient.erase 1 } := by
    unfold handleDestroy
    rw [hbound]
  refine ⟨handleDestroy gone spawned, ?_, hready.handleDestroy gone, ?_, ?_, ?_⟩
  · have hspawn : handle toolbox (.spawn (bareSpawn 1)) = .ok spawned := hok
    rw [handleAll, comeAndGo, List.foldlM_cons, hspawn]
    rfl
  · rw [hgone]
    change spawned.engine.ecs.entitiesID = _
    rw [hcounter, h.counter, Nat.mod_add_mod]
  · rw [hgone]
    change (spawned.serverToClient.erase 1)[0]? = _
    rw [hbinding]
    simp [ExtTreeMap.getElem?_erase, ExtTreeMap.getElem?_insert, bareSpawn, h.first]
  · intro id hid
    rw [hgone]
    change id ∉ spawned.serverToClient.erase 1
    rw [hbinding, ExtTreeMap.mem_erase, ExtTreeMap.mem_insert]
    rintro ⟨hne, hid' | hid'⟩
    · exact hne hid'
    · exact h.others id hid hid'

theorem handleAll_append {packets packets' : List Variant} {toolbox toolbox' : HandlerToolbox}
    (h : handleAll packets toolbox = .ok toolbox') :
    handleAll (packets ++ packets') toolbox = handleAll packets' toolbox' := by
  rw [handleAll] at h
  rw [handleAll, List.foldlM_append, h]
  rfl

theorem Turned.run {k : ℕ} {toolbox : HandlerToolbox} (h : Turned k toolbox) (n : ℕ) :
    ∃ toolbox', handleAll (List.replicate n comeAndGo).flatten toolbox = .ok toolbox' ∧
      Turned (k + n) toolbox' := by
  induction n generalizing k toolbox with
  | zero => exact ⟨toolbox, rfl, h⟩
  | succ n ih =>
      rcases h.step with ⟨next, hnext, hturned⟩
      rcases ih hturned with ⟨last, hlast, hturned'⟩
      refine ⟨last, ?_, ?_⟩
      · rw [List.replicate_succ, List.flatten_cons, handleAll_append hnext, hlast]
      · rwa [Nat.add_assoc, Nat.add_comm 1 n] at hturned'

/-- The client with the first entity. -/
theorem exists_turned :
    ∃ toolbox, handleAll [.spawn (bareSpawn 0)] .new = .ok toolbox ∧ Turned 1 toolbox := by
  have hempty : HandlerToolbox.new.serverToClient = ∅ := rfl
  have hnew : (bareSpawn 0).id ∉ HandlerToolbox.new.serverToClient := by
    rw [hempty]
    exact ExtTreeMap.not_mem_empty
  have hzero : HandlerToolbox.new.engine.ecs.entitiesID = 0 := rfl
  rcases handleSpawn_new .new (describes_bareSpawn 0) hnew with
    ⟨toolbox, hok, hready, hbinding, hcounter⟩
  rw [hzero] at hbinding hcounter
  refine ⟨toolbox, ?_, hready, hcounter, ?_, ?_⟩
  · have hspawn : handle .new (.spawn (bareSpawn 0)) = .ok toolbox := hok
    rw [handleAll, List.foldlM_cons, hspawn]
    rfl
  · rw [hbinding]
    exact ExtTreeMap.getElem?_insert_self
  · intro id hid
    rw [hbinding, hempty, ExtTreeMap.mem_insert, Std.compare_eq_iff_eq]
    rintro (hsame | hid')
    · exact hid hsame.symm
    · exact ExtTreeMap.not_mem_empty hid'

/-- Packets that describe an entity, 2^64 - 1 entities that come and go, and one more. -/
def churn : List Variant :=
  [.spawn (bareSpawn 0)] ++ ((List.replicate (2 ^ 64 - 1) comeAndGo).flatten ++
    [.spawn (bareSpawn 2)])

/-- After 2^64 entities without components the next one is bound to the entity of the first
one. -/
theorem binding_map_wraps :
    (∀ packet ∈ churn, isWorld packet ∧ WellFormed packet) ∧
      ∃ toolbox, handleAll churn .new = .ok toolbox ∧ toolbox.serverToClient[0]? = some 0 ∧
        toolbox.serverToClient[2]? = some 0 := by
  have hspawn : ∀ id, isWorld (.spawn (bareSpawn id)) ∧ WellFormed (.spawn (bareSpawn id)) :=
    fun id => ⟨rfl, describes_bareSpawn id⟩
  constructor
  · intro packet hpacket
    rw [churn, List.mem_append, List.mem_append, List.mem_singleton, List.mem_singleton,
      List.mem_flatten] at hpacket
    rcases hpacket with rfl | ⟨packets, hpackets, hpacket⟩ | rfl
    · exact hspawn 0
    · rw [List.eq_of_mem_replicate hpackets, comeAndGo, List.mem_pair] at hpacket
      rcases hpacket with rfl | rfl
      · exact hspawn 1
      · exact ⟨rfl, trivial⟩
    · exact hspawn 2
  · rcases exists_turned with ⟨first, hfirst, hturned⟩
    rcases hturned.run (2 ^ 64 - 1) with ⟨last, hlast, hturned'⟩
    have hnew : (bareSpawn 2).id ∉ last.serverToClient := hturned'.others 2 two_ne_zero
    rcases handleSpawn_new hturned'.ready (describes_bareSpawn 2) hnew with
      ⟨toolbox, hok, -, hbinding, -⟩
    have hcounter : last.engine.ecs.entitiesID = 0 := hturned'.counter.trans (by norm_num)
    rw [hcounter] at hbinding
    refine ⟨toolbox, ?_, ?_, ?_⟩
    · have hthird : handle last (.spawn (bareSpawn 2)) = .ok toolbox := hok
      rw [churn, handleAll_append hfirst, handleAll_append hlast, handleAll, List.foldlM_cons,
        hthird]
      rfl
    · rw [hbinding, ExtTreeMap.getElem?_insert, if_neg (by simp [bareSpawn]), hturned'.first]
    · rw [hbinding]
      exact ExtTreeMap.getElem?_insert_self

end Rtype.Client
