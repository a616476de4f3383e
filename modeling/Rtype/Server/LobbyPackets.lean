import Mathlib
import Rtype.Common.Factory
import Rtype.Server.LobbySteps

/-!
# Server - What the members of a lobby are told

A lobby tells its members about its entities: a {lit}`Spawn` or a {lit}`WorldInit` mentions
entities that are there, a {lit}`Destroy` one that is gone.  For a session that stays a
member, the last packet about an entity tells whether the entity is live.

Main results:

- Function {lit}`lastWord`: what the last packet about an entity says of it.
- Structure {lit}`Lobby.Relays`: the packets between two states of a lobby say what has
  changed.
- Theorem {lit}`Lobby.Attended.relays`: they do, for a member, from its join on.

Current gaps:

- None.
-/

namespace Rtype.Server

open Rtype.Rtecs Rtype.Rteng Rtype.Common
open Std Transition

/-! ## What packets say about an entity -/

/-- What a packet says about an entity: that it is there, that it is gone, or nothing. -/
def about (id : ℕ) : Variant → Option Bool
  | .spawn packet => if packet.id = id then some true else none
  | .worldInit packet => if id ∈ packet.ids then some true else none
  | .destroy packet => if packet.id = id then some false else none
  | .joinAck _ => none
  | .updateGameState _ => none

/-- What the last packet about an entity says of it. -/
def lastWord (id : ℕ) (packets : List Variant) : Option Bool :=
  packets.reverse.findSome? (about id)

theorem lastWord_append (id : ℕ) (packets packets' : List Variant) :
    lastWord id (packets ++ packets') = (lastWord id packets').or (lastWord id packets) := by
  rw [lastWord, List.reverse_append, List.findSome?_append]
  rfl

@[simp]
theorem lastWord_nil (id : ℕ) : lastWord id [] = none :=
  rfl

@[simp]
theorem lastWord_singleton (id : ℕ) (packet : Variant) :
    lastWord id [packet] = about id packet := by
  rw [lastWord, List.reverse_singleton, List.findSome?_singleton]

theorem lastWord_cons (id : ℕ) (packet : Variant) (packets : List Variant) :
    lastWord id (packet :: packets) = (lastWord id packets).or (about id packet) := by
  rw [← List.singleton_append, lastWord_append, lastWord_singleton]

theorem lastWord_destroys (id : ℕ) (ids : List ℕ) :
    lastWord id (ids.map fun d => .destroy { id := d, earnedPoints := 0 }) =
      if id ∈ ids then some false else none := by
  induction ids with
  | nil => rfl
  | cons d ids ih =>
      rw [List.map_cons, lastWord_cons, ih, about]
      by_cases hid : id ∈ ids
      · simp [hid]
      · simp [hid, eq_comm]

/-- The packets that a session gets of the ones that were sent. -/
def received (session : SessionPtr) (sent : List (List SessionPtr × Variant)) : List Variant :=
  sent.filterMap fun entry => if session ∈ entry.1 then some entry.2 else none

theorem received_append (session : SessionPtr) (sent sent' : List (List SessionPtr × Variant)) :
    received session (sent ++ sent') = received session sent ++ received session sent' :=
  List.filterMap_append ..

@[simp]
theorem received_nil (session : SessionPtr) : received session [] = [] :=
  rfl

theorem received_singleton (session : SessionPtr) (sessions : List SessionPtr) (packet : Variant) :
    received session [(sessions, packet)] = if session ∈ sessions then [packet] else [] := by
  unfold received
  split_ifs with h
  · simp [h]
  · simp [h]

theorem received_broadcast {session : SessionPtr} {sessions : List SessionPtr}
    (h : session ∈ sessions) (packets : List Variant) :
    received session (packets.map fun packet => (sessions, packet)) = packets := by
  induction packets with
  | nil => rfl
  | cons packet packets ih =>
      rw [List.map_cons, ← List.singleton_append, received_append, ih, received_singleton,
        if_pos h, List.singleton_append]

/-! ## Packets that can be read -/

/-- The packet describes an entity by components of the game. -/
def Describes (packet : Spawn) : Prop :=
  ∃ (held : (c : Kind) → Option (Comp c)) (bitmask : DynamicBitSet),
    DynamicBitSet.deserialize packet.bitmask = some bitmask ∧
      (∀ i c, gameComponents[i]? = some c → bitmask.get (i + 1) = (held c).isSome) ∧
      packet.content = contentOf schema held gameComponents

/-- The packets that describe the entities of a snapshot. -/
def WorldInit.Lists (packet : WorldInit) (spawns : List Spawn) : Prop :=
  packet.ids = spawns.map Spawn.id ∧ packet.bitsets = spawns.map Spawn.bitmask ∧
    packet.entities = spawns.map Spawn.content

/-- A packet that a client can read. -/
def WellFormed : Variant → Prop
  | .spawn packet => Describes packet
  | .worldInit packet => ∃ spawns, packet.Lists spawns ∧ ∀ spawn ∈ spawns, Describes spawn
  | _ => True

namespace Lobby

/-! ## Every entity has a component -/

/-- The store knows its types, and each entity has one of them. -/
structure Clothed (ecs : ECS Comp) : Prop where
  registered : ECS.Registered gameComponents ecs
  holds : ∀ id ∈ ecs.entities, ∃ c ∈ gameComponents, ecs.hasComponent c id = true

theorem Clothed.new (id : ℕ) : Clothed (Lobby.new id).engine.ecs := by
  refine ⟨registered_new id, ?_⟩
  intro e he
  rw [entities_new] at he
  exact absurd he ExtTreeMap.not_mem_empty

theorem Clothed.registerEntity {ecs : ECS Comp} (h : Clothed ecs) {first : Instance Comp}
    (rest : List (Instance Comp)) (hfirst : first.1 ∈ gameComponents) :
    Clothed (ecs.registerEntity first rest).1 := by
  have hset := h.registered.isSome_set hfirst
  refine ⟨h.registered.registerEntity first rest, ?_⟩
  intro e he
  rw [ECS.mem_entities_registerEntity h.registered.settled hset] at he
  rcases he with rfl | he
  · exact ⟨first.1, hfirst, ECS.hasComponent_registerEntity h.registered.settled hset hset
      (.inr ⟨rfl, List.mem_cons_self⟩)⟩
  · obtain ⟨c, hc, hholds⟩ := h.holds e he
    exact ⟨c, hc, ECS.hasComponent_registerEntity h.registered.settled hset
      (h.registered.isSome_set hc) (.inl hholds)⟩

theorem Clothed.updateEntityComponent {ecs : ECS Comp} (h : Clothed ecs) (entity : ℕ)
    (newInstance : Instance Comp) : Clothed (ecs.updateEntityComponent entity newInstance).1 := by
  refine ⟨h.registered.updateEntityComponent entity newInstance, ?_⟩
  intro e he
  rw [ECS.entities_updateEntityComponent] at he
  obtain ⟨c, hc, hholds⟩ := h.holds e he
  exact ⟨c, hc, by rw [ECS.hasComponent_updateEntityComponent, hholds]⟩

theorem Clothed.destroyAll {ecs : ECS Comp} (h : Clothed ecs) (ids : List ℕ) :
    Clothed (Rteng.destroyAll ecs ids) := by
  refine ⟨h.registered.destroyAll ids, ?_⟩
  intro e he
  obtain ⟨hid, he⟩ := mem_entities_destroyAll.mp he
  obtain ⟨c, hc, hholds⟩ := h.holds e he
  exact ⟨c, hc, by rw [hasComponent_destroyAll hid, hholds]⟩

/-- The packet that describes an entity can be read. -/
theorem Clothed.describes {ecs : ECS Comp} (h : Clothed ecs) {id : ℕ} (hid : id ∈ ecs.entities) :
    Describes (describe ecs id) := by
  have hheld : ∃ c ∈ gameComponents, (ecs.getEntityComponent id c).isSome := by
    obtain ⟨c, hc, hholds⟩ := h.holds id hid
    rw [ECS.hasComponent_eq_isSome_get] at hholds
    exact ⟨c, hc, hholds⟩
  obtain ⟨bitmask, hbitmask, hbits⟩ := Factory.exists_bitmask h.registered hid hheld
  exact ⟨ecs.getEntityComponent id, bitmask, hbitmask, hbits, rfl⟩

/-- The snapshot can be read, and mentions exactly the entities that are there. -/
theorem Clothed.snapshot {lobby : Lobby} (h : Clothed lobby.engine.ecs) :
    WellFormed (.worldInit lobby.snapshot) := by
  let ecs := lobby.engine.ecs
  refine ⟨(getAllEntities ecs).map (describe ecs), ⟨?_, ?_, ?_⟩, ?_⟩
  · rw [List.map_map]
    exact (List.map_id _).symm
  · rw [List.map_map]
    rfl
  · rw [List.map_map]
    rfl
  · intro spawn hspawn
    obtain ⟨id, hid, rfl⟩ := List.mem_map.mp hspawn
    exact h.describes (mem_getAllEntities.mp hid)

theorem about_snapshot (lobby : Lobby) (id : ℕ) :
    about id (.worldInit lobby.snapshot) =
      if id ∈ lobby.engine.ecs.entities then some true else none := by
  simp only [about, Lobby.snapshot, mem_getAllEntities]

/-! ## Packets that say what has changed -/

/-- A word about an entity accords with what has happened to it. -/
def Accords (word : Option Bool) (before after : Prop) : Prop :=
  match word with
  | some true => after
  | some false => ¬ after
  | none => after ↔ before

theorem Accords.rfl {before : Prop} : Accords none before before :=
  Iff.rfl

theorem Accords.trans {word word' : Option Bool} {p p' p'' : Prop} (h : Accords word p p')
    (h' : Accords word' p' p'') : Accords (word'.or word) p p'' := by
  cases word' with
  | some told =>
      rw [Option.some_or]
      cases told with
      | true => exact h'
      | false => exact h'
  | none =>
      cases word with
      | none => exact Iff.trans h' h
      | some told =>
          cases told with
          | true => exact (show p'' ↔ p' from h').mpr h
          | false => exact fun hafter => h ((show p'' ↔ p' from h').mp hafter)

/-- The packets that were sent between two states tell a session, in a form that it can
read, what has become of the entities. -/
structure Relays (session : SessionPtr) (lobby lobby' : Lobby)
    (sent : List (List SessionPtr × Variant)) : Prop where
  outGoing : lobby'.outGoing = lobby.outGoing ++ sent
  wellFormed : ∀ packet ∈ received session sent, WellFormed packet
  accords : ∀ id, Accords (lastWord id (received session sent))
    (id ∈ lobby.engine.ecs.entities) (id ∈ lobby'.engine.ecs.entities)

theorem Relays.refl {session : SessionPtr} {lobby lobby' : Lobby}
    (houtGoing : lobby'.outGoing = lobby.outGoing)
    (hentities : ∀ id, id ∈ lobby'.engine.ecs.entities ↔ id ∈ lobby.engine.ecs.entities) :
    Relays session lobby lobby' [] where
  outGoing := by rw [houtGoing, List.append_nil]
  wellFormed := by
    intro packet hmem
    cases hmem
  accords := hentities

theorem Relays.trans {session : SessionPtr} {l l' l'' : Lobby}
    {sent sent' : List (List SessionPtr × Variant)} (h : Relays session l l' sent)
    (h' : Relays session l' l'' sent') : Relays session l l'' (sent ++ sent') where
  outGoing := by rw [h'.outGoing, h.outGoing, List.append_assoc]
  wellFormed := by
    intro packet hmem
    rw [received_append, List.mem_append] at hmem
    exact hmem.elim (h.wellFormed packet) (h'.wellFormed packet)
  accords id := by
    rw [received_append, lastWord_append]
    exact (h.accords id).trans (h'.accords id)

/-- One packet is sent. -/
theorem Relays.one {session : SessionPtr} {lobby lobby' : Lobby} {sessions : List SessionPtr}
    {packet : Variant} (hmember : session ∈ sessions)
    (houtGoing : lobby'.outGoing = lobby.outGoing ++ [(sessions, packet)])
    (hwellFormed : WellFormed packet)
    (haccords : ∀ id, Accords (about id packet) (id ∈ lobby.engine.ecs.entities)
      (id ∈ lobby'.engine.ecs.entities)) :
    Relays session lobby lobby' [(sessions, packet)] where
  outGoing := houtGoing
  wellFormed := by
    rw [received_singleton, if_pos hmember]
    intro packet' hmem
    rwa [List.mem_singleton.mp hmem]
  accords id := by
    rw [received_singleton, if_pos hmember, lastWord_singleton]
    exact haccords id

/-- A packet that says nothing about entities is sent, maybe to others. -/
theorem Relays.silent {session : SessionPtr} {lobby lobby' : Lobby} {sessions : List SessionPtr}
    {packet : Variant} (houtGoing : lobby'.outGoing = lobby.outGoing ++ [(sessions, packet)])
    (hwellFormed : WellFormed packet) (hsilent : ∀ id, about id packet = none)
    (hentities : ∀ id, id ∈ lobby'.engine.ecs.entities ↔ id ∈ lobby.engine.ecs.entities) :
    Relays session lobby lobby' [(sessions, packet)] := by
  by_cases hmember : session ∈ sessions
  · refine .one hmember houtGoing hwellFormed ?_
    intro id
    rw [hsilent]
    exact hentities id
  · refine ⟨houtGoing, ?_, ?_⟩
    · rw [received_singleton, if_neg hmember]
      intro packet' hmem
      cases hmem
    · intro id
      rw [received_singleton, if_neg hmember]
      exact hentities id

theorem mem_entities_spawned {lobby : Lobby} (h : Clothed lobby.engine.ecs)
    {first : Instance Comp} {rest : List (Instance Comp)} (hfirst : first.1 ∈ gameComponents)
    {session : Option SessionPtr} {id : ℕ} :
    id ∈ (lobby.spawned first rest session).engine.ecs.entities ↔
      id = (lobby.engine.ecs.registerEntity first rest).2 ∨ id ∈ lobby.engine.ecs.entities := by
  have hset := h.registered.isSome_set hfirst
  rw [ECS.registerEntity_id h.registered.settled hset]
  exact ECS.mem_entities_registerEntity h.registered.settled hset

/-- Spawning an entity tells the players about it. -/
theorem relays_spawned {lobby : Lobby} (h : Clothed lobby.engine.ecs) {first : Instance Comp}
    {rest : List (Instance Comp)} (hfirst : first.1 ∈ gameComponents)
    (newcomer : Option SessionPtr) {session : SessionPtr}
    (hmember : session ∈ (lobby.spawned first rest newcomer).players) :
    ∃ sessions, Relays session lobby (lobby.spawned first rest newcomer)
      [(sessions, .spawn (describe (lobby.engine.ecs.registerEntity first rest).1
        (lobby.engine.ecs.registerEntity first rest).2))] := by
  have hlive : (lobby.engine.ecs.registerEntity first rest).2 ∈
      (lobby.spawned first rest newcomer).engine.ecs.entities :=
    (mem_entities_spawned h hfirst).mpr (.inl rfl)
  refine ⟨_, .one (ExtTreeMap.mem_keys.mpr hmember) rfl
    ((h.registerEntity rest hfirst).describes hlive) ?_⟩
  intro id
  rw [about]
  split_ifs with hid
  · change id ∈ _
    rw [← hid]
    exact hlive
  · change id ∈ _ ↔ id ∈ _
    rw [mem_entities_spawned h hfirst]
    exact or_iff_right (Ne.symm hid)

/-- Destroying entities tells the players about them. -/
theorem relays_destroyAll (lobby : Lobby) (ids : List ℕ) {session : SessionPtr}
    (hmember : session ∈ lobby.players) :
    ∃ sent, Relays session lobby (lobby.destroyAll ids) sent := by
  have hreceived : received session (ids.map fun id =>
      (lobby.players.keys, Variant.destroy { id := id, earnedPoints := 0 })) =
      ids.map fun id => .destroy { id := id, earnedPoints := 0 } := by
    rw [← received_broadcast (ExtTreeMap.mem_keys.mpr hmember) (ids.map fun id =>
      .destroy { id := id, earnedPoints := 0 }), List.map_map]
    rfl
  rw [destroyAll_eq]
  refine ⟨_, rfl, ?_, ?_⟩
  · rw [hreceived]
    intro packet hmem
    obtain ⟨id, -, rfl⟩ := List.mem_map.mp hmem
    trivial
  · intro id
    rw [hreceived, lastWord_destroys]
    have hentities : id ∈ (Rteng.destroyAll lobby.engine.ecs ids).entities ↔
        id ∉ ids ∧ id ∈ lobby.engine.ecs.entities := mem_entities_destroyAll
    split_ifs with hid
    · exact fun hlive => (hentities.mp hlive).1 hid
    · exact hentities.trans (and_iff_right hid)

theorem Micro.clothed {lobby lobby' : Lobby} (h : Micro lobby lobby')
    (hclothed : Clothed lobby.engine.ecs) : Clothed lobby'.engine.ecs := by
  cases h with
  | announce gameState => exact hclothed
  | write entity newInstance => exact hclothed.updateEntityComponent entity newInstance
  | spawn first rest hfirst => exact hclothed.registerEntity rest hfirst
  | destroy ids =>
      rw [destroyAll_eq]
      exact hclothed.destroyAll ids

theorem Steps.clothed {lobby lobby' : Lobby} (h : Steps lobby lobby')
    (hclothed : Clothed lobby.engine.ecs) : Clothed lobby'.engine.ecs := by
  induction h with
  | refl => exact hclothed
  | tail _ hstep ih => exact hstep.clothed ih

theorem Micro.relays {lobby lobby' : Lobby} (h : Micro lobby lobby')
    (hclothed : Clothed lobby.engine.ecs) {session : SessionPtr}
    (hmember : session ∈ lobby.players) : ∃ sent, Relays session lobby lobby' sent := by
  cases h with
  | announce gameState =>
      exact ⟨_, .silent rfl trivial (fun _ => rfl) fun _ => Iff.rfl⟩
  | write entity newInstance =>
      refine ⟨[], .refl rfl ?_⟩
      intro id
      change id ∈ (lobby.engine.ecs.updateEntityComponent entity newInstance).1.entities ↔ _
      rw [ECS.entities_updateEntityComponent]
  | spawn first rest hfirst =>
      obtain ⟨sessions, hrelays⟩ := relays_spawned hclothed hfirst none hmember
      exact ⟨_, hrelays⟩
  | destroy ids => exact relays_destroyAll lobby ids hmember

theorem Steps.relays {lobby lobby' : Lobby} (h : Steps lobby lobby')
    (hclothed : Clothed lobby.engine.ecs) {session : SessionPtr}
    (hmember : session ∈ lobby.players) : ∃ sent, Relays session lobby lobby' sent := by
  induction h with
  | refl => exact ⟨[], .refl rfl fun _ => Iff.rfl⟩
  | tail hsteps hstep ih =>
      obtain ⟨sent, hrelays⟩ := ih
      have hmember' := hmember
      rw [← Steps.frame hsteps |>.players] at hmember'
      obtain ⟨sent', hrelays'⟩ := hstep.relays (Steps.clothed hsteps hclothed) hmember'
      exact ⟨sent ++ sent', hrelays.trans hrelays'⟩

/-! ## Joining and leaving -/

theorem relays_opened (lobby : Lobby) (session : SessionPtr) :
    ∃ sent, Relays session lobby lobby.opened sent := by
  unfold opened
  split_ifs
  · exact ⟨_, .silent rfl trivial (fun _ => rfl) fun _ => Iff.rfl⟩
  · exact ⟨[], .refl rfl fun _ => Iff.rfl⟩

theorem ecs_opened (lobby : Lobby) : lobby.opened.engine.ecs = lobby.engine.ecs := by
  unfold opened
  split_ifs
  · rfl
  · rfl

/-- The id of a new player depends on the store only. -/
theorem seatedId_eq (lobby : Lobby) :
    lobby.seatedId =
      (lobby.engine.ecs.registerEntity playerComponents.1 playerComponents.2).2 := by
  rw [seatedId, ecs_opened]

theorem clothed_seated {lobby : Lobby} (h : Clothed lobby.engine.ecs) (session : SessionPtr) :
    Clothed (lobby.seated session).engine.ecs := by
  have hopened : Clothed lobby.opened.engine.ecs := lobby.opened_steps.clothed h
  exact hopened.registerEntity _ position_mem

theorem clothed_joined {lobby : Lobby} (h : Clothed lobby.engine.ecs) (session : SessionPtr) :
    Clothed (lobby.joined session).engine.ecs := by
  obtain ⟨packets, hjoined⟩ := lobby.joined_cases session
  rw [hjoined]
  exact clothed_seated h session

/-- The lobby that has answered the request to join. -/
def answered (lobby : Lobby) (session : SessionPtr) : Lobby :=
  (lobby.seated session).send session (.joinAck (lobby.acknowledgement session))

theorem joined_of_ne {lobby : Lobby} (h : lobby.seatedId ≠ 0) (session : SessionPtr) :
    lobby.joined session =
      (lobby.answered session).broadcast (.worldInit (lobby.answered session).snapshot) :=
  if_pos h

theorem joined_of_eq {lobby : Lobby} (h : lobby.seatedId = 0) (session : SessionPtr) :
    lobby.joined session = lobby.answered session :=
  if_neg (not_not.mpr h)

/-- The packets of a join, for a session that is in the lobby by then.  When there is a
snapshot, it mentions every entity. -/
theorem relays_joined {lobby : Lobby} (h : Clothed lobby.engine.ecs) (newcomer : SessionPtr)
    {session : SessionPtr} (hmember : session ∈ (lobby.joined newcomer).players) :
    ∃ sent, Relays session lobby (lobby.joined newcomer) sent ∧
      (lobby.seatedId ≠ 0 → ∀ id ∈ (lobby.joined newcomer).engine.ecs.entities,
        lastWord id (received session sent) ≠ none) := by
  have hplayers : session ∈ (lobby.seated newcomer).players := by
    obtain ⟨packets, hjoined⟩ := lobby.joined_cases newcomer
    rwa [hjoined] at hmember
  have hopenedClothed : Clothed lobby.opened.engine.ecs := lobby.opened_steps.clothed h
  obtain ⟨first, hopened⟩ := lobby.relays_opened session
  obtain ⟨sessions, hseated⟩ := relays_spawned hopenedClothed position_mem _ hplayers
  have hanswered : Relays session (lobby.seated newcomer) (lobby.answered newcomer)
      [([newcomer], .joinAck (lobby.acknowledgement newcomer))] :=
    .silent rfl trivial (fun _ => rfl) fun _ => Iff.rfl
  have hsofar := (hopened.trans hseated).trans hanswered
  by_cases hid : lobby.seatedId = 0
  · rw [joined_of_eq hid]
    exact ⟨_, hsofar, fun hne => absurd hid hne⟩
  · rw [joined_of_ne hid]
    let last := Variant.worldInit (lobby.answered newcomer).snapshot
    have hsnapshot : Relays session (lobby.answered newcomer)
        ((lobby.answered newcomer).broadcast last)
        [((lobby.answered newcomer).getAllSessions, last)] := by
      refine .one (ExtTreeMap.mem_keys.mpr hplayers) rfl (clothed_seated h newcomer).snapshot ?_
      intro id
      rw [about_snapshot]
      split_ifs with hlive
      · exact hlive
      · exact Iff.rfl
    refine ⟨_, hsofar.trans hsnapshot, fun _ id hlive => ?_⟩
    have hlive' : id ∈ (lobby.answered newcomer).engine.ecs.entities := hlive
    have hkey : session ∈ (lobby.answered newcomer).getAllSessions :=
      ExtTreeMap.mem_keys.mpr hplayers
    rw [received_append, lastWord_append, received_singleton, if_pos hkey, lastWord_singleton,
      about_snapshot, if_pos hlive']
    exact Option.some_ne_none true

theorem clothed_runLeave {lobby : Lobby} (h : Clothed lobby.engine.ecs) (session : SessionPtr) :
    Clothed (lobby.runLeave session).engine.ecs := by
  cases hplayer : lobby.players[session]? with
  | none => rwa [runLeave_of_none hplayer]
  | some id =>
      have hwithout : Clothed (lobby.without session id).engine.ecs := h.destroyAll [id]
      rw [runLeave_of_some hplayer]
      split_ifs
      · have hcleared := hwithout.destroyAll (getAllEntities (lobby.without session id).engine.ecs)
        unfold closed
        rw [destroyAll_eq]
        dsimp only
        split_ifs
        · exact hcleared
        · exact hcleared
      · exact hwithout

/-- The packet of a leave, for a session that stays. -/
theorem relays_runLeave (lobby : Lobby) (leaver : SessionPtr) {session : SessionPtr}
    (hmember : session ∈ lobby.players)
    (hstays : session ∈ (lobby.runLeave leaver).players) :
    ∃ sent, Relays session lobby (lobby.runLeave leaver) sent := by
  cases hplayer : lobby.players[leaver]? with
  | none =>
      rw [runLeave_of_none hplayer]
      exact ⟨[], .refl rfl fun _ => Iff.rfl⟩
  | some id =>
      rw [(lobby.frame_runLeave leaver).2.2.2.1] at hstays
      have hnonempty : ¬ (lobby.players.erase leaver).isEmpty := by
        rw [ExtTreeMap.isEmpty_iff]
        intro hempty
        rw [hempty] at hstays
        exact ExtTreeMap.not_mem_empty hstays
      rw [runLeave_of_some hplayer, if_neg hnonempty]
      refine ⟨_, .one (ExtTreeMap.mem_keys.mpr hmember) rfl trivial ?_⟩
      intro other
      have hentities : other ∈ (lobby.without leaver id).engine.ecs.entities ↔
          other ≠ id ∧ other ∈ lobby.engine.ecs.entities := mem_entities_destroyEntity
      rw [about]
      split_ifs with hid
      · exact fun hlive => (hentities.mp hlive).1 hid.symm
      · exact hentities.trans (and_iff_right (Ne.symm hid))

/-! ## A member is told everything -/

section Thread

variable [FloatUnit]

theorem clothed_runTask {task : Task} {lobby lobby' : Lobby} (h : lobby.runTask task = .ok lobby')
    (hclothed : Clothed lobby.engine.ecs) : Clothed lobby'.engine.ecs := by
  cases task with
  | join session =>
      by_cases hmember : session ∈ lobby.players
      · rw [runTask, runJoin_of_mem hmember] at h
        cases h
        exact hclothed
      · rw [runTask, runJoin_of_not_mem hmember] at h
        obtain rfl := Except.ok.inj h
        exact clothed_joined hclothed session
  | leave session =>
      cases h
      exact clothed_runLeave hclothed session
  | userInput session inputMask => exact (action_steps rfl h).clothed hclothed
  | start session => exact (action_steps rfl h).clothed hclothed

theorem relays_runTask {task : Task} {lobby lobby' : Lobby} (h : lobby.runTask task = .ok lobby')
    (hclothed : Clothed lobby.engine.ecs) {session : SessionPtr}
    (hmember : session ∈ lobby.players) (hstays : session ∈ lobby'.players) :
    ∃ sent, Relays session lobby lobby' sent := by
  cases task with
  | join newcomer =>
      by_cases hpresent : newcomer ∈ lobby.players
      · rw [runTask, runJoin_of_mem hpresent] at h
        cases h
        exact ⟨[], .refl rfl fun _ => Iff.rfl⟩
      · rw [runTask, runJoin_of_not_mem hpresent] at h
        obtain rfl := Except.ok.inj h
        obtain ⟨sent, hrelays, -⟩ := relays_joined hclothed newcomer hstays
        exact ⟨sent, hrelays⟩
  | leave leaver =>
      cases h
      exact relays_runLeave lobby leaver hmember hstays
  | userInput s inputMask => exact (action_steps rfl h).relays hclothed hmember
  | start s => exact (action_steps rfl h).relays hclothed hmember

theorem ThreadStep.clothed {lobby lobby' : Lobby} (h : ThreadStep lobby lobby')
    (hclothed : Clothed lobby.engine.ecs) : Clothed lobby'.engine.ecs := by
  cases h with
  | move phase => exact hclothed
  | task task tasks lobby' phase hqueue hrun =>
      have hclothed' : Clothed lobby'.engine.ecs := clothed_runTask hrun hclothed
      exact hclothed'
  | tick effects lobby' phase hrun =>
      have hclothed' := (runTick_steps hrun).clothed hclothed
      exact hclothed'
  | direct wave lobby' phase hrun =>
      have hclothed' := (direct_steps hrun).clothed hclothed
      exact hclothed'
  | taskFault task tasks fault hqueue hrun => exact hclothed
  | tickFault effects fault hrun => exact hclothed
  | directFault wave fault hrun => exact hclothed

theorem ThreadStep.relays {lobby lobby' : Lobby} (h : ThreadStep lobby lobby')
    (hclothed : Clothed lobby.engine.ecs) {session : SessionPtr}
    (hmember : session ∈ lobby.players) (hstays : session ∈ lobby'.players) :
    ∃ sent, Relays session lobby lobby' sent := by
  cases h with
  | move phase => exact ⟨[], .refl rfl fun _ => Iff.rfl⟩
  | task task tasks lobby' phase hqueue hrun =>
      have hstays' : session ∈ lobby'.players := hstays
      have hmember' : session ∈ (lobby.withQueue tasks).players := hmember
      obtain ⟨sent, hrelays⟩ := relays_runTask hrun hclothed hmember' hstays'
      exact ⟨sent, hrelays.outGoing, hrelays.wellFormed, hrelays.accords⟩
  | tick effects lobby' phase hrun =>
      obtain ⟨sent, hrelays⟩ := (runTick_steps hrun).relays hclothed hmember
      exact ⟨sent, hrelays.outGoing, hrelays.wellFormed, hrelays.accords⟩
  | direct wave lobby' phase hrun =>
      obtain ⟨sent, hrelays⟩ := (direct_steps hrun).relays hclothed hmember
      exact ⟨sent, hrelays.outGoing, hrelays.wellFormed, hrelays.accords⟩
  | taskFault task tasks fault hqueue hrun => exact ⟨[], .refl rfl fun _ => Iff.rfl⟩
  | tickFault effects fault hrun => exact ⟨[], .refl rfl fun _ => Iff.rfl⟩
  | directFault wave fault hrun => exact ⟨[], .refl rfl fun _ => Iff.rfl⟩

/-- What happens to a lobby: a task is pushed, or its thread makes a step. -/
inductive Act
  | push (task : Task)
  | thread (act : ThreadAct)

def step (lobby : Lobby) : Act → Lobby
  | .push task => lobby.pushTask task
  | .thread act => lobby.advance act

/-- The states of all runs of a lobby that has been started. -/
abbrev Reached : Lobby → Prop :=
  Reachable (fun lobby => ∃ id, lobby = (Lobby.new id).start) step fun _ _ => True

theorem Reached.clothed {lobby : Lobby} (h : Reached lobby) : Clothed lobby.engine.ecs := by
  apply Reachable.invariant h
  · rintro lobby ⟨id, rfl⟩
    exact .new id
  · intro lobby act _ _ hclothed
    cases act with
    | push task => exact hclothed
    | thread act => exact (lobby.advance_cases act).clothed hclothed

/-- The states of a lobby from the join of a session on, as long as it is a player. -/
inductive Attended (session : SessionPtr) (start : Lobby) : Lobby → Prop
  | join (tasks : List Task) (hphase : start.phase = .draining)
      (hqueue : start.actionQueue = .join session :: tasks) (hnew : session ∉ start.players) :
      Attended session start (start.step (.thread .go))
  | step {lobby : Lobby} (act : Act) (h : Attended session start lobby)
      (hmember : session ∈ (lobby.step act).players) : Attended session start (lobby.step act)

theorem step_join {start : Lobby} {session : SessionPtr} {tasks : List Task}
    (hphase : start.phase = .draining) (hqueue : start.actionQueue = .join session :: tasks)
    (hnew : session ∉ start.players) :
    start.step (.thread .go) = ((start.withQueue tasks).joined session).withPhase .draining := by
  have hrun : (start.withQueue tasks).runTask (.join session) =
      .ok ((start.withQueue tasks).joined session) := runJoin_of_not_mem hnew
  change start.advance .go = _
  unfold advance
  rw [hphase]
  change start.popTask = _
  unfold popTask
  rw [hqueue]
  change (start.withQueue tasks).resume .draining _ = _
  rw [hrun]
  rfl

/-- From its join on, a member is told what becomes of the entities; after a snapshot,
it has heard of every entity that is live. -/
theorem Attended.relays {session : SessionPtr} {start lobby : Lobby} (hstart : Reached start)
    (h : Attended session start lobby) :
    Clothed lobby.engine.ecs ∧ session ∈ lobby.players ∧
      ∃ sent, Relays session start lobby sent ∧
        (start.seatedId ≠ 0 → ∀ id ∈ lobby.engine.ecs.entities,
          lastWord id (received session sent) ≠ none) := by
  induction h with
  | join tasks hphase hqueue hnew =>
      rw [step_join hphase hqueue hnew]
      have hclothed := Reached.clothed hstart
      have hqueued : Clothed (start.withQueue tasks).engine.ecs := hclothed
      have hmember : session ∈ ((start.withQueue tasks).joined session).players := by
        rw [((start.withQueue tasks).frame_joined session).2.2.2.2]
        exact ExtTreeMap.mem_insert_self
      have hseated : (start.withQueue tasks).seatedId = start.seatedId := by
        rw [seatedId_eq, seatedId_eq]
        rfl
      have hjoined := clothed_joined hqueued session
      obtain ⟨sent, hrelays, hannounced⟩ := relays_joined hqueued session hmember
      rw [hseated] at hannounced
      generalize (start.withQueue tasks).joined session = lobby
        at hmember hjoined hrelays hannounced
      exact ⟨hjoined, hmember, sent,
        ⟨hrelays.outGoing, hrelays.wellFormed, hrelays.accords⟩, hannounced⟩
  | @step lobby act _ hstays ih =>
      obtain ⟨hclothed, hmember, sent, hrelays, hannounced⟩ := ih
      have hnext : ∃ sent', Relays session lobby (lobby.step act) sent' := by
        cases act with
        | push task => exact ⟨[], .refl rfl fun _ => Iff.rfl⟩
        | thread act => exact (lobby.advance_cases act).relays hclothed hmember hstays
      have hclothed' : Clothed (lobby.step act).engine.ecs := by
        cases act with
        | push task => exact hclothed
        | thread act => exact (lobby.advance_cases act).clothed hclothed
      obtain ⟨sent', hrelays'⟩ := hnext
      refine ⟨hclothed', hstays, sent ++ sent', hrelays.trans hrelays', ?_⟩
      intro hne id hlive
      rw [received_append, lastWord_append]
      cases hword : lastWord id (received session sent') with
      | some word => exact Option.some_ne_none word
      | none =>
          -- nothing has happened to the entity since
          have haccords := hrelays'.accords id
          rw [hword] at haccords
          have hbefore := (show _ ↔ _ from haccords).mp hlive
          rw [Option.none_or]
          exact hannounced hne id hbefore

end Thread

end Lobby

end Rtype.Server
