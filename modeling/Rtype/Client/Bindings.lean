import Mathlib
import Rtype.Client.Handlers

/-!
# Client - The bindings

What every handler keeps: the types that were registered, and the link between the ids of
the server and the entities of the client.  Packets that describe entities are always
handled; the client learns of the entities, and nothing that it has is taken away.

Main results:

- Structure {lit}`HandlerToolbox.Learns`: what becomes of the client when it is told that
  entities are there.
- Theorems {lit}`HandlerToolbox.Ready.handleSpawn_ok` and
  {lit}`HandlerToolbox.Ready.handleWorldInit_ok`: descriptions of entities are handled.
- Theorem {lit}`HandlerToolbox.Reached.linked`: each id of the server is bound to a live
  entity of its own.

Current gaps:

- None.
-/

namespace Rtype.Client

open Rtype.Rtecs Rtype.Rteng Rtype.Common Rtype.Server
open Std

/-! ## The types of the client -/

namespace HandlerToolbox

variable {t t' t'' : HandlerToolbox}

/-- The factory and the store know their types. -/
structure Ready (t : HandlerToolbox) : Prop where
  creators : t.componentFactory.creators = gameComponents
  registered : ECS.Registered clientComponents t.engine.ecs

theorem Ready.new : HandlerToolbox.new.Ready := by
  have hstart : ECS.Registered clientComponents
      (ECS.registering clientComponents : ECS.History Comp).ecs :=
    ECS.Registered.start nodup_clientComponents
  have hlist : clientComponents =
      (gameComponents ++ [.other .behaviour]) ++ graphicalComponents := by
    decide
  have hecs : (ECS.registering clientComponents : ECS.History Comp).ecs =
      HandlerToolbox.new.engine.ecs := by
    rw [ECS.registering, ECS.History.step, hlist, ECS.registerComponents_append]
    rfl
  exact ⟨rfl, hecs ▸ hstart⟩

theorem Ready.add (h : t.Ready) (id : ℕ) (instances : List (Instance Comp)) :
    (t.add id instances).Ready :=
  ⟨h.creators, h.registered.addEntityComponents id instances⟩

theorem Ready.bound (h : t.Ready) (id : ℕ) : (bound t id).Ready :=
  ⟨h.creators, h.registered.preRegisterEntity⟩

theorem Ready.handleSpawn (h : t.Ready) {packet : Spawn}
    (hok : handleSpawn packet t = .ok t') : t'.Ready := by
  rcases handleSpawn_cases hok with ⟨-, rfl⟩ | ⟨-, instances, rfl⟩
  · exact h
  · exact (h.bound packet.id).add _ instances

theorem Ready.handleDestroy (h : t.Ready) (packet : Destroy) :
    (handleDestroy packet t).Ready := by
  unfold Client.handleDestroy
  split
  · exact h
  · exact ⟨h.creators, h.registered.destroyEntity _⟩

/-! ## What handling adds, and what it never takes away -/

/-- Nothing that the client has is taken away. -/
structure Enriches (t t' : HandlerToolbox) : Prop where
  bound : ∀ (id real : ℕ), t.serverToClient[id]? = some real → t'.serverToClient[id]? = some real
  live : ∀ e ∈ t.engine.ecs.entities, e ∈ t'.engine.ecs.entities
  holds : ∀ c e, t.engine.ecs.hasComponent c e = true → t'.engine.ecs.hasComponent c e = true

theorem Enriches.refl (t : HandlerToolbox) : t.Enriches t where
  bound _ _ h := h
  live _ h := h
  holds _ _ h := h

theorem Enriches.trans (h : t.Enriches t') (h' : t'.Enriches t'') : t.Enriches t'' where
  bound id real hbound := h'.bound id real (h.bound id real hbound)
  live e he := h'.live e (h.live e he)
  holds c e he := h'.holds c e (h.holds c e he)

theorem enriches_add (t : HandlerToolbox) (id : ℕ) (instances : List (Instance Comp)) :
    t.Enriches (t.add id instances) where
  bound _ _ h := h
  live _ he := (ECS.mem_entities_add ..).mpr he
  holds _ _ he := ECS.hasComponent_add_of_has he

theorem enriches_bound {id : ℕ} (hnew : id ∉ t.serverToClient) :
    t.Enriches (Client.bound t id) where
  bound other real hbound := by
    have hne : id ≠ other := by
      rintro rfl
      rw [ExtTreeMap.mem_iff_isSome_getElem?, hbound] at hnew
      exact hnew rfl
    change (t.serverToClient.insert id _)[other]? = _
    rw [ExtTreeMap.getElem?_insert, if_neg (by rwa [Std.compare_eq_iff_eq]), hbound]
  live _ he := ECS.mem_entities_insertEntity.mpr (.inr he)
  holds _ _ he := he

/-- The entity that stands for an id of the server is there. -/
def Embodies (t : HandlerToolbox) (id : ℕ) : Prop :=
  ∃ real : ℕ, t.serverToClient[id]? = some real ∧ real ∈ t.engine.ecs.entities

theorem Embodies.mono {id : ℕ} (h : t.Embodies id) (henriches : t.Enriches t') :
    t'.Embodies id := by
  obtain ⟨real, hbound, hlive⟩ := h
  exact ⟨real, henriches.bound id real hbound, henriches.live real hlive⟩

/-- The client has been told that some entities of the server are there. -/
structure Learns (ids : List ℕ) (t t' : HandlerToolbox) : Prop where
  enriches : t.Enriches t'
  mem : ∀ id, id ∈ t'.serverToClient ↔ id ∈ ids ∨ id ∈ t.serverToClient
  embodies : ∀ id ∈ ids, id ∉ t.serverToClient → t'.Embodies id

theorem Learns.nothing (t : HandlerToolbox) : Learns [] t t where
  enriches := .refl t
  mem id := by simp only [List.not_mem_nil, false_or]
  embodies := by
    intro id hid
    cases hid

theorem Learns.trans {ids ids' : List ℕ} (h : Learns ids t t') (h' : Learns ids' t' t'') :
    Learns (ids ++ ids') t t'' where
  enriches := h.enriches.trans h'.enriches
  mem id := by
    rw [h'.mem, h.mem, List.mem_append]
    tauto
  embodies := by
    intro id hid hnew
    by_cases hfirst : id ∈ ids
    · exact (h.embodies id hfirst hnew).mono h'.enriches
    · have hrest : id ∈ ids' := (List.mem_append.mp hid).resolve_left hfirst
      apply h'.embodies id hrest
      rw [h.mem]
      exact not_or.mpr ⟨hfirst, hnew⟩

/-- A {lit}`Spawn` of a known entity. -/
theorem Learns.known {id : ℕ} (h : id ∈ t.serverToClient) : Learns [id] t t where
  enriches := .refl t
  mem other := by
    rw [List.mem_singleton]
    refine ⟨.inr, ?_⟩
    rintro (rfl | hother)
    · exact h
    · exact hother
  embodies := by
    intro other hother hunbound
    rw [List.mem_singleton] at hother
    subst hother
    exact absurd h hunbound

theorem learns_handleSpawn {packet : Spawn} (hok : handleSpawn packet t = .ok t') :
    Learns [packet.id] t t' := by
  rcases handleSpawn_cases hok with ⟨hknown, rfl⟩ | ⟨hnew, instances, rfl⟩
  · exact .known hknown
  · let real := t.engine.ecs.preRegisterEntity.2
    have hadd := enriches_add (Client.bound t packet.id) real instances
    refine ⟨(enriches_bound hnew).trans hadd, ?_, ?_⟩
    · intro id
      change id ∈ t.serverToClient.insert packet.id _ ↔ _
      rw [ExtTreeMap.mem_insert, Std.compare_eq_iff_eq, List.mem_singleton, eq_comm]
    · intro id hid _
      rw [List.mem_singleton] at hid
      subst hid
      have hbound : (Client.bound t packet.id).Embodies packet.id :=
        ⟨real, ExtTreeMap.getElem?_insert_self, ECS.mem_entities_insertEntity.mpr (.inl rfl)⟩
      exact hbound.mono hadd

/-- The loop over a snapshot tells the client of the entities up to the number of bitsets. -/
theorem learns_spawnAll {bitsets : List (List ℕ)} {ids : List ℕ} {entities : List (List UInt8)}
    (hok : spawnAll t bitsets ids entities = .ok t') :
    Learns (ids.take bitsets.length) t t' := by
  induction bitsets generalizing t ids entities with
  | nil =>
      simp only [spawnAll, Except.ok.injEq] at hok
      exact hok ▸ .nothing t
  | cons bitset bitsets ih =>
      cases ids with
      | nil => cases hok
      | cons id ids =>
          unfold spawnAll at hok
          split_ifs at hok with hknown
          · exact (Learns.known hknown).trans (ih hok)
          · cases entities with
            | nil => cases hok
            | cons content entities =>
                dsimp only at hok
                split at hok
                · cases hok
                · rename_i next hspawn
                  exact (learns_handleSpawn hspawn).trans (ih hok)

/-- What a {lit}`Spawn` preserves, a snapshot preserves. -/
theorem spawnAll_preserves {p : HandlerToolbox → Prop}
    (hspawn : ∀ {t t' : HandlerToolbox} {packet : Spawn}, p t →
      handleSpawn packet t = .ok t' → p t')
    (h : p t) {bitsets : List (List ℕ)} {ids : List ℕ} {entities : List (List UInt8)}
    (hok : spawnAll t bitsets ids entities = .ok t') : p t' := by
  induction bitsets generalizing t ids entities with
  | nil =>
      simp only [Client.spawnAll, Except.ok.injEq] at hok
      exact hok ▸ h
  | cons bitset bitsets ih =>
      cases ids with
      | nil => cases hok
      | cons id ids =>
          unfold Client.spawnAll at hok
          split_ifs at hok
          · exact ih h hok
          · cases entities with
            | nil => cases hok
            | cons content entities =>
                dsimp only at hok
                split at hok
                · cases hok
                · rename_i next hnext
                  exact ih (hspawn h hnext) hok

theorem Ready.spawnAll (h : t.Ready) {bitsets : List (List ℕ)} {ids : List ℕ}
    {entities : List (List UInt8)} (hok : spawnAll t bitsets ids entities = .ok t') :
    t'.Ready :=
  spawnAll_preserves (fun hready hspawn => hready.handleSpawn hspawn) h hok

/-- Whatever is handled, the types stay known. -/
theorem Ready.handle (h : t.Ready) {packet : Variant} (hok : handle t packet = .ok t') :
    t'.Ready := by
  cases packet with
  | spawn packet => exact h.handleSpawn hok
  | destroy packet =>
      obtain rfl := Except.ok.inj hok
      exact h.handleDestroy packet
  | worldInit packet =>
      have hstate : (t.setGameState packet.state).Ready := ⟨h.creators, h.registered⟩
      exact hstate.spawnAll hok
  | updateGameState gameState =>
      obtain rfl := Except.ok.inj hok
      exact ⟨h.creators, h.registered⟩
  | joinAck packet =>
      change handleJoinAck packet t = _ at hok
      cases hbound : t.serverToClient[packet.id]? with
      | none =>
          rw [handleJoinAck_of_none hbound] at hok
          cases hok
      | some real =>
          rw [handleJoinAck_of_some hbound] at hok
          obtain rfl := Except.ok.inj hok
          exact ⟨h.creators, h.registered.addEntityComponents _ _⟩

theorem Reached.ready {n : ℕ} (h : Reached n t) : t.Ready := by
  induction h with
  | new => exact .new
  | handle packet _ hok ih => exact ih.handle hok
  | write entity newInstance _ ih =>
      exact ⟨ih.creators, ih.registered.updateEntityComponent entity newInstance⟩

/-! ## Packets that are handled -/

/-- A description is read. -/
theorem Ready.handleSpawn_ok (h : t.Ready) {packet : Spawn} (hpacket : Describes packet) :
    ∃ t', Client.handleSpawn packet t = .ok t' := by
  obtain ⟨held, bitmask, hbitmask, hbits, hcontent⟩ := hpacket
  let real := t.engine.ecs.preRegisterEntity.2
  have hfactory : t.componentFactory = { creators := gameComponents } :=
    congrArg Factory.mk h.creators
  have hread := @Factory.apply_eq Kind Comp _ schema held real bitmask
    { creators := gameComponents } hbits (fun c _ component _ => roundTrips c component)
    t.engine.ecs.preRegisterEntity.1
  unfold Client.handleSpawn
  split_ifs
  · exact ⟨t, rfl⟩
  · dsimp only
    rw [hbitmask]
    dsimp only
    rw [hfactory, hcontent, hread]
    exact ⟨_, rfl⟩

theorem Ready.spawnAll_ok (h : t.Ready) {spawns : List Spawn}
    (hspawns : ∀ spawn ∈ spawns, Describes spawn) :
    ∃ t', Client.spawnAll t (spawns.map Spawn.bitmask) (spawns.map Spawn.id)
      (spawns.map Spawn.content) = .ok t' := by
  induction spawns generalizing t with
  | nil => exact ⟨t, rfl⟩
  | cons spawn spawns ih =>
      rw [List.forall_mem_cons] at hspawns
      simp only [List.map_cons, Client.spawnAll, List.tail_cons]
      split_ifs
      · exact ih h hspawns.2
      · obtain ⟨t', hok⟩ := h.handleSpawn_ok hspawns.1
        rw [hok]
        exact ih (h.handleSpawn hok) hspawns.2

/-- A snapshot is read, and the client learns of all its entities. -/
theorem Ready.handleWorldInit_ok (h : t.Ready) {packet : WorldInit}
    (hpacket : WellFormed (.worldInit packet)) :
    ∃ t', handleWorldInit packet t = .ok t' ∧ Learns packet.ids t t' := by
  obtain ⟨spawns, ⟨hids, hbitsets, hentities⟩, hspawns⟩ := hpacket
  have hstate : (t.setGameState packet.state).Ready := ⟨h.creators, h.registered⟩
  obtain ⟨t', hok⟩ := hstate.spawnAll_ok hspawns
  rw [← hids, ← hbitsets, ← hentities] at hok
  have hlearns := learns_spawnAll hok
  have hlength : packet.bitsets.length = packet.ids.length := by
    rw [hids, hbitsets, List.length_map, List.length_map]
  rw [hlength, List.take_length] at hlearns
  exact ⟨t', hok, ⟨hlearns.enriches.bound, hlearns.enriches.live, hlearns.enriches.holds⟩,
    hlearns.mem, hlearns.embodies⟩

/-! ## The bindings -/

/-- Each id of the server is bound to a live entity of its own, and the counter has handed
out at most so many ids. -/
structure Linked (n : ℕ) (t : HandlerToolbox) : Prop where
  counter : t.engine.ecs.entitiesID ≤ n
  live : ∀ (id real : ℕ), t.serverToClient[id]? = some real →
    real ∈ t.engine.ecs.entities ∧ real < t.engine.ecs.entitiesID
  injective : ∀ (id id' real : ℕ), t.serverToClient[id]? = some real →
    t.serverToClient[id']? = some real → id = id'

theorem Linked.new : Linked 0 .new where
  counter := Nat.le_refl 0
  live id real hbound := by
    change (∅ : ExtTreeMap ℕ ℕ)[id]? = _ at hbound
    rw [ExtTreeMap.getElem?_empty] at hbound
    cases hbound
  injective id id' real hbound := by
    change (∅ : ExtTreeMap ℕ ℕ)[id]? = _ at hbound
    rw [ExtTreeMap.getElem?_empty] at hbound
    cases hbound

theorem Linked.mono {n m : ℕ} (h : Linked n t) (hle : n ≤ m) : Linked m t where
  counter := h.counter.trans hle
  live := h.live
  injective := h.injective

theorem Linked.embodies {n : ℕ} (h : Linked n t) {id : ℕ} (hid : id ∈ t.serverToClient) :
    t.Embodies id := by
  rw [ExtTreeMap.mem_iff_isSome_getElem?] at hid
  obtain ⟨real, hbound⟩ := Option.isSome_iff_exists.mp hid
  exact ⟨real, hbound, (h.live id real hbound).1⟩

/-- Calls that hand out no id and destroy nothing. -/
theorem Linked.keep {n : ℕ} (h : Linked n t) (hbinding : t'.serverToClient = t.serverToClient)
    (hcounter : t'.engine.ecs.entitiesID = t.engine.ecs.entitiesID)
    (hlive : ∀ e ∈ t.engine.ecs.entities, e ∈ t'.engine.ecs.entities) : Linked n t' where
  counter := hcounter ▸ h.counter
  live id real hbound := by
    rw [hbinding] at hbound
    obtain ⟨hreal, hlt⟩ := h.live id real hbound
    exact ⟨hlive real hreal, hcounter ▸ hlt⟩
  injective id id' real hbound hbound' := by
    rw [hbinding] at hbound hbound'
    exact h.injective id id' real hbound hbound'

theorem Linked.add {n : ℕ} (h : Linked n t) (id : ℕ) (instances : List (Instance Comp)) :
    Linked n (t.add id instances) :=
  h.keep rfl (ECS.KeepsIds.addEntityComponents t.engine.ecs id instances).counter
    (enriches_add t id instances).live

theorem Linked.bound {n : ℕ} (h : Linked n t) (hfew : n + 1 < 2 ^ 64) {id : ℕ}
    (hnew : id ∉ t.serverToClient) : Linked (n + 1) (Client.bound t id) := by
  have hcounter := h.counter
  have hnext : (Client.bound t id).engine.ecs.entitiesID = t.engine.ecs.entitiesID + 1 :=
    Nat.mod_eq_of_lt (by omega)
  have hget : ∀ (other real : ℕ), (Client.bound t id).serverToClient[other]? = some real →
      id = other ∧ real = t.engine.ecs.entitiesID ∨ t.serverToClient[other]? = some real := by
    intro other real hbound
    change (t.serverToClient.insert id _)[other]? = _ at hbound
    rw [ExtTreeMap.getElem?_insert] at hbound
    split_ifs at hbound with hother
    · exact .inl ⟨Std.compare_eq_iff_eq.mp hother, (Option.some.inj hbound).symm⟩
    · exact .inr hbound
  refine ⟨?_, ?_, ?_⟩
  · rw [hnext]
    omega
  · intro other real hbound
    rw [hnext]
    rcases hget other real hbound with ⟨-, rfl⟩ | hold
    · exact ⟨ECS.mem_entities_insertEntity.mpr (.inl rfl), Nat.lt_succ_self _⟩
    · obtain ⟨hreal, hlt⟩ := h.live other real hold
      exact ⟨(enriches_bound hnew).live real hreal, Nat.lt_succ_of_lt hlt⟩
  · intro other other' real hbound hbound'
    -- the new id is above all that are bound
    rcases hget other real hbound with ⟨rfl, hreal⟩ | hold
    · rcases hget other' real hbound' with ⟨rfl, -⟩ | hold'
      · rfl
      · have hlt := (h.live other' real hold').2
        omega
    · rcases hget other' real hbound' with ⟨rfl, hreal⟩ | hold'
      · have hlt := (h.live other real hold).2
        omega
      · exact h.injective other other' real hold hold'

theorem Linked.handleSpawn {n : ℕ} (h : Linked n t) (hfew : n + 1 < 2 ^ 64) {packet : Spawn}
    (hok : Client.handleSpawn packet t = .ok t') : Linked (n + 1) t' := by
  rcases handleSpawn_cases hok with ⟨-, rfl⟩ | ⟨hnew, instances, rfl⟩
  · exact h.mono (Nat.le_succ n)
  · exact (h.bound hfew hnew).add _ instances

theorem Linked.spawnAll {n : ℕ} (h : Linked n t) {bitsets : List (List ℕ)} {ids : List ℕ}
    {entities : List (List UInt8)} (hfew : n + bitsets.length < 2 ^ 64)
    (hok : Client.spawnAll t bitsets ids entities = .ok t') :
    Linked (n + bitsets.length) t' := by
  induction bitsets generalizing n t ids entities with
  | nil =>
      simp only [Client.spawnAll, Except.ok.injEq] at hok
      exact hok ▸ h
  | cons bitset bitsets ih =>
      have hcount : n + (bitset :: bitsets).length = n + 1 + bitsets.length := by
        rw [List.length_cons]
        omega
      rw [hcount] at hfew ⊢
      cases ids with
      | nil => cases hok
      | cons id ids =>
          unfold Client.spawnAll at hok
          split_ifs at hok
          · exact ih (h.mono (Nat.le_succ n)) hfew hok
          · cases entities with
            | nil => cases hok
            | cons content entities =>
                dsimp only at hok
                split at hok
                · cases hok
                · rename_i next hspawn
                  exact ih (h.handleSpawn (by omega) hspawn) hfew hok

theorem Linked.handleDestroy {n : ℕ} (h : Linked n t) (packet : Destroy) :
    Linked n (Client.handleDestroy packet t) := by
  unfold Client.handleDestroy
  split
  · exact h
  · rename_i real hreal
    have hget : ∀ (id e : ℕ), (t.serverToClient.erase packet.id)[id]? = some e →
        packet.id ≠ id ∧ t.serverToClient[id]? = some e := by
      intro id e hbound
      rw [ExtTreeMap.getElem?_erase] at hbound
      split_ifs at hbound with hid
      rw [Std.compare_eq_iff_eq] at hid
      exact ⟨hid, hbound⟩
    refine ⟨h.counter, ?_, ?_⟩
    · intro id e hbound
      obtain ⟨hne, hold⟩ := hget id e hbound
      obtain ⟨hlive, hlt⟩ := h.live id e hold
      refine ⟨mem_entities_destroyEntity.mpr ⟨?_, hlive⟩, hlt⟩
      -- nobody else is bound to the entity that goes
      rintro rfl
      exact hne (h.injective packet.id id e hreal hold)
    · intro id id' e hbound hbound'
      exact h.injective id id' e (hget id e hbound).2 (hget id' e hbound').2

theorem Linked.handle {n : ℕ} (h : Linked n t) {packet : Variant}
    (hfew : n + described packet < 2 ^ 64) (hok : Client.handle t packet = .ok t') :
    Linked (n + described packet) t' := by
  cases packet with
  | spawn packet => exact h.handleSpawn hfew hok
  | destroy packet =>
      obtain rfl := Except.ok.inj hok
      exact h.handleDestroy packet
  | worldInit packet =>
      have hstate : Linked n (t.setGameState packet.state) := ⟨h.counter, h.live, h.injective⟩
      exact hstate.spawnAll hfew hok
  | updateGameState gameState =>
      obtain rfl := Except.ok.inj hok
      exact ⟨h.counter, h.live, h.injective⟩
  | joinAck packet =>
      change handleJoinAck packet t = _ at hok
      cases hbound : t.serverToClient[packet.id]? with
      | none =>
          rw [handleJoinAck_of_none hbound] at hok
          cases hok
      | some real =>
          rw [handleJoinAck_of_some hbound] at hok
          obtain rfl := Except.ok.inj hok
          have hstate : Linked n ((t.setGameState packet.gameState).setMenuState menuLobby) :=
            ⟨h.counter, h.live, h.injective⟩
          exact hstate.add real _

/-- As long as the counter of the client has not come round, each id of the server is bound
to a live entity of its own. -/
theorem Reached.linked {n : ℕ} (h : Reached n t) (hfew : n < 2 ^ 64) : Linked n t := by
  induction h with
  | new => exact .new
  | @handle n _ _ packet _ hok ih => exact (ih (by omega)).handle hfew hok
  | @write n toolbox entity newInstance _ ih =>
      have hwritten : (toolbox.setEcs
          (toolbox.engine.ecs.updateEntityComponent entity newInstance).1).serverToClient =
          toolbox.serverToClient := rfl
      apply (ih hfew).keep hwritten
      · exact (ECS.KeepsIds.updateEntityComponent toolbox.engine.ecs entity newInstance).counter
      · intro e he
        change e ∈ (toolbox.engine.ecs.updateEntityComponent entity newInstance).1.entities
        rwa [ECS.entities_updateEntityComponent]

end HandlerToolbox

end Rtype.Client
