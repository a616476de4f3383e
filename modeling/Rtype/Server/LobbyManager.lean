import Mathlib
import Rtype.Foundations.Transition
import Rtype.Server.LobbySteps

/-!
# Server - The lobby manager

The manager owns the lobbies and knows which session is in which of them.  All its calls
come from the main thread; between two of them, and while {lit}`update` walks over the
lobbies, the threads of the lobbies go on.

Main results:

- Structure {lit}`Manager` and its functions, under the names of the source.
- Inductive type {lit}`Manager.Move`: the changes that the steps of the system are made of.
- Structure {lit}`Manager.Invariant`: ids come from a counter that never goes back.
- Theorem {lit}`Manager.update_safe_iff`: when {lit}`update` collects the stopped lobbies.

Current gaps:

- A thread that is still in its loop when its lobby is erased uses a destroyed object, and so do
  {lit}`leaveRoom` and {lit}`pushActionToLobby` through a pointer that is still recorded.  The
  model lets them go on with the lobby as it was; nothing is said about the code in such runs.
-/

namespace Rtype.Server

open Rtype.Common
open Lobby (ThreadAct)
open Std Transition

/-! ## The manager -/

/-- {lit}`lobby::Manager`.  A lobby is named by its id, which is never given out twice:
{lit}`lobby` is the memory in which the lobbies live, {lit}`lobbies` the keys of the map
that owns them, and a pointer of {lit}`playerLookup` is the id of its target. -/
structure Manager where
  nbLobbies : ℕ := 0
  lobbies : Finset ℕ := ∅
  lobby : ℕ → Lobby := Lobby.new
  playerLookup : SessionPtr → Option ℕ := fun _ => none
  outGoing : List (List SessionPtr × Variant) := []
  terminated : Bool := false

namespace Manager

/-- The object of a lobby is changed. -/
def modifyLobby (m : Manager) (id : ℕ) (f : Lobby → Lobby) : Manager :=
  { m with lobby := Function.update m.lobby id (f (m.lobby id)) }

/-- {lit}`_lobbies.emplace`. -/
def emplace (m : Manager) (id : ℕ) : Manager :=
  if id ∈ m.lobbies then m
  else
    { m with
      lobbies := insert id m.lobbies
      lobby := Function.update m.lobby id (Lobby.new id) }

/-- {lit}`_lobbies.erase`. -/
def erase (m : Manager) (id : ℕ) : Manager :=
  { m with lobbies := m.lobbies.erase id }

/-- {lit}`Manager::createLobby`. -/
def createLobby (m : Manager) : Manager × ℕ :=
  if m.nbLobbies > 255 then
    (m, m.nbLobbies)
  else
    let started := (m.emplace m.nbLobbies).modifyLobby m.nbLobbies Lobby.start
    ({ started with nbLobbies := m.nbLobbies + 1 }, m.nbLobbies)

/-- The end of {lit}`Manager::joinRoom`. -/
def enter (m : Manager) (session : SessionPtr) (roomId : ℕ) : Manager :=
  if roomId ∈ m.lobbies then
    { m.modifyLobby roomId fun lobby => lobby.pushTask (.join session) with
      playerLookup := Function.update m.playerLookup session (some roomId) }
  else
    m

/-- The answer to a request that cannot be met. -/
def refusal : Variant :=
  .joinAck { id := 0, roomId := 0, gameState := gameMenu, status := false }

/-- {lit}`Manager::joinRoom`. -/
def joinRoom (m : Manager) (session : SessionPtr) (roomId : ℕ := 0) : Manager :=
  if (m.playerLookup session).isSome then
    m
  else if roomId > 255 then
    let (created, lobbyId) := m.createLobby
    if lobbyId ≥ 255 then
      { created with outGoing := created.outGoing ++ [([session], refusal)] }
    else
      created.enter session lobbyId
  else
    m.enter session roomId

/-- {lit}`Manager::leaveRoom`. -/
def leaveRoom (m : Manager) (session : SessionPtr) : Manager :=
  match m.playerLookup session with
  | none => m
  | some id =>
      { m.modifyLobby id fun lobby => lobby.pushTask (.leave session) with
        playerLookup := Function.update m.playerLookup session none }

/-- {lit}`Manager::pushActionToLobby`. -/
def pushActionToLobby (m : Manager) (session : SessionPtr) (action : Task) : Manager :=
  match m.playerLookup session with
  | none => m
  | some id => m.modifyLobby id fun lobby => lobby.pushTask action

/-! ## What the calls keep -/

/-- Ids come from a counter that never goes back, and the first lobby stays. -/
structure Invariant (m : Manager) : Prop where
  bound : m.nbLobbies ≤ 256
  lt : ∀ id ∈ m.lobbies, id < m.nbLobbies
  first : 0 < m.nbLobbies → 0 ∈ m.lobbies

theorem Invariant.card_le {m : Manager} (h : m.Invariant) : m.lobbies.card ≤ 256 := by
  have hsub : m.lobbies ⊆ Finset.range m.nbLobbies := by
    intro id hid
    exact Finset.mem_range.mpr (h.lt id hid)
  calc m.lobbies.card ≤ (Finset.range m.nbLobbies).card := Finset.card_le_card hsub
    _ = m.nbLobbies := Finset.card_range _
    _ ≤ 256 := h.bound

/-- The id that the counter gives is free. -/
theorem Invariant.fresh {m : Manager} (h : m.Invariant) : m.nbLobbies ∉ m.lobbies :=
  fun hid => absurd (h.lt _ hid) (lt_irrefl _)

theorem createLobby_eq {m : Manager} (h : m.Invariant) (hnb : m.nbLobbies ≤ 255) :
    m.createLobby =
      ({ m with
        nbLobbies := m.nbLobbies + 1
        lobbies := insert m.nbLobbies m.lobbies
        lobby := Function.update m.lobby m.nbLobbies (Lobby.new m.nbLobbies).start },
        m.nbLobbies) := by
  simp only [createLobby, emplace, modifyLobby, if_neg h.fresh, if_neg hnb.not_gt,
    Function.update_self, Function.update_idem]

theorem lobby_modifyLobby_self (m : Manager) (id : ℕ) (f : Lobby → Lobby) :
    (m.modifyLobby id f).lobby id = f (m.lobby id) :=
  Function.update_self ..

theorem lobby_modifyLobby_of_ne (m : Manager) {id other : ℕ} (h : other ≠ id)
    (f : Lobby → Lobby) : (m.modifyLobby id f).lobby other = m.lobby other :=
  Function.update_of_ne h ..

theorem lobby_modifyLobby (m : Manager) (id other : ℕ) (f : Lobby → Lobby) :
    (m.modifyLobby id f).lobby other =
      if other = id then f (m.lobby other) else m.lobby other := by
  split_ifs with hid
  · subst hid
    exact lobby_modifyLobby_self m other f
  · exact lobby_modifyLobby_of_ne m hid f

theorem lobby_createLobby {m : Manager} (h : m.Invariant) (hnb : m.nbLobbies ≤ 255) {id : ℕ}
    (hid : id < m.nbLobbies) : m.createLobby.1.lobby id = m.lobby id := by
  rw [createLobby_eq h hnb]
  exact Function.update_of_ne hid.ne ..

/-- A turn of the loop that finds a stopped lobby only erases it. -/
theorem modifyLobby_stop {m : Manager} {id : ℕ} (h : (m.lobby id).isRunning = false) :
    m.modifyLobby id Lobby.stop = m := by
  have hstop : (m.lobby id).stop = m.lobby id := by
    simp [Lobby.stop, h]
  rw [modifyLobby, hstop, Function.update_eq_self]

theorem enter_of_mem {m : Manager} {session : SessionPtr} {id : ℕ} (h : id ∈ m.lobbies) :
    m.enter session id =
      { m.modifyLobby id fun lobby => lobby.pushTask (.join session) with
        playerLookup := Function.update m.playerLookup session (some id) } :=
  if_pos h

theorem leaveRoom_of_some {m : Manager} {session : SessionPtr} {id : ℕ}
    (h : m.playerLookup session = some id) :
    m.leaveRoom session =
      { m.modifyLobby id fun lobby => lobby.pushTask (.leave session) with
        playerLookup := Function.update m.playerLookup session none } := by
  simp only [leaveRoom, h]

theorem leaveRoom_of_none {m : Manager} {session : SessionPtr}
    (h : m.playerLookup session = none) : m.leaveRoom session = m := by
  simp only [leaveRoom, h]

theorem pushActionToLobby_of_some {m : Manager} {session : SessionPtr} {id : ℕ} {task : Task}
    (h : m.playerLookup session = some id) :
    m.pushActionToLobby session task = m.modifyLobby id fun lobby => lobby.pushTask task := by
  simp only [pushActionToLobby, h]

theorem pushActionToLobby_of_none {m : Manager} {session : SessionPtr} {task : Task}
    (h : m.playerLookup session = none) : m.pushActionToLobby session task = m := by
  simp only [pushActionToLobby, h]

section Threads

variable [FloatUnit]

/-- A step of the thread of a lobby. -/
def thread (m : Manager) (id : ℕ) (act : ThreadAct) : Manager :=
  if id < m.nbLobbies then m.modifyLobby id fun lobby => lobby.advance act else m

/-- Steps of several threads. -/
def threads (m : Manager) (acts : List (ℕ × ThreadAct)) : Manager :=
  acts.foldl (fun m act => m.thread act.1 act.2) m

/-- The loop of {lit}`Manager::update`, from an index down to 1.  The index is cut to the
width of the key; {lit}`at` throws when the key is absent.  Before each turn, some
threads make the steps that the schedule says. -/
def visit (schedule : ℕ → List (ℕ × ThreadAct)) : ℕ → Manager → Option Manager
  | 0, m => some m
  | i + 1, m =>
      let m := m.threads (schedule (i + 1))
      let key := (i + 1) % 2 ^ 16
      if key ∉ m.lobbies then
        none
      else if (m.lobby key).isRunning then
        visit schedule i m
      else
        visit schedule i ((m.modifyLobby key Lobby.stop).erase key)

/-- {lit}`Manager::update`: the index starts one below the size of the map, as a
{lit}`size_t`.  The result is {lit}`none` when an exception ends the call. -/
def update (m : Manager) (schedule : ℕ → List (ℕ × ThreadAct)) : Option Manager :=
  visit schedule ((m.lobbies.card + 2 ^ 64 - 1) % 2 ^ 64) m

/-! ## The system -/

/-- A call on the main thread, or a step of a lobby thread. -/
inductive Act
  | createLobby
  | joinRoom (session : SessionPtr) (roomId : ℕ)
  | leaveRoom (session : SessionPtr)
  | userInput (session : SessionPtr) (inputMask : BitVec 8)
  | start (session : SessionPtr)
  | update (schedule : ℕ → List (ℕ × ThreadAct))
  | thread (id : ℕ) (act : ThreadAct)

/-- One step.  Nothing catches an exception of {lit}`update`: it ends the program. -/
def step (m : Manager) (act : Act) : Manager :=
  if m.terminated then
    m
  else
    match act with
    | .createLobby => m.createLobby.1
    | .joinRoom session roomId => m.joinRoom session roomId
    | .leaveRoom session => m.leaveRoom session
    | .userInput session inputMask => m.pushActionToLobby session (.userInput session inputMask)
    | .start session => m.pushActionToLobby session (.start session)
    | .update schedule => (m.update schedule).getD { m with terminated := true }
    | .thread id act => m.thread id act

/-- The states of all runs whose steps are allowed. -/
abbrev Reached (allowed : Manager → Act → Prop) : Manager → Prop :=
  Reachable (fun m => m = {}) step allowed

/-! ## What the steps are made of -/

/-- The changes that the steps are made of.  A session enters a lobby other than the
first one only if that lobby is {lit}`safe`. -/
inductive Move (safe : Lobby → Prop) (m : Manager) : Manager → Prop
  | create (h : m.nbLobbies ≤ 255) : Move safe m m.createLobby.1
  | enter (session : SessionPtr) (id : ℕ) (hfree : m.playerLookup session = none)
      (hid : id ∈ m.lobbies) (hsafe : id = 0 ∨ safe (m.lobby id)) :
      Move safe m (m.enter session id)
  | leave (session : SessionPtr) : Move safe m (m.leaveRoom session)
  | action (session : SessionPtr) (task : Task) (h : task.onBehalf = some session) :
      Move safe m (m.pushActionToLobby session task)
  | thread (id : ℕ) (act : ThreadAct) : Move safe m (m.thread id act)
  | remove (id : ℕ) (hid : id ∈ m.lobbies) (hzero : id ≠ 0)
      (hstopped : (m.lobby id).isRunning = false) : Move safe m (m.erase id)
  | answer (outGoing : List (List SessionPtr × Variant)) :
      Move safe m { m with outGoing := outGoing }
  | terminate : Move safe m { m with terminated := true }

/-- Several changes. -/
abbrev Moves (safe : Lobby → Prop) : Manager → Manager → Prop :=
  Relation.ReflTransGen (Move safe)

/-- The keys and the counter after a change. -/
theorem Move.keys {safe : Lobby → Prop} {m m' : Manager} (h : Move safe m m') :
    (m'.nbLobbies = m.nbLobbies ∧ m'.lobbies = m.lobbies) ∨
    (m.nbLobbies ≤ 255 ∧ m' = m.createLobby.1) ∨
    (m'.nbLobbies = m.nbLobbies ∧ ∃ id ≠ 0, m'.lobbies = m.lobbies.erase id) := by
  cases h with
  | create h => exact .inr (.inl ⟨h, rfl⟩)
  | enter session id hfree hid hsafe =>
      rw [enter_of_mem hid]
      exact .inl ⟨rfl, rfl⟩
  | leave session =>
      unfold leaveRoom
      split
      · exact .inl ⟨rfl, rfl⟩
      · exact .inl ⟨rfl, rfl⟩
  | action session task h =>
      unfold pushActionToLobby
      split
      · exact .inl ⟨rfl, rfl⟩
      · exact .inl ⟨rfl, rfl⟩
  | thread id act =>
      unfold Manager.thread
      split_ifs
      · exact .inl ⟨rfl, rfl⟩
      · exact .inl ⟨rfl, rfl⟩
  | remove id hid hzero hstopped => exact .inr (.inr ⟨rfl, id, hzero, rfl⟩)
  | answer outGoing => exact .inl ⟨rfl, rfl⟩
  | terminate => exact .inl ⟨rfl, rfl⟩

theorem Invariant.move {safe : Lobby → Prop} {m m' : Manager} (h : m.Invariant)
    (hmove : Move safe m m') : m'.Invariant := by
  obtain ⟨hnb, hkeys⟩ | ⟨hnb, rfl⟩ | ⟨hnb, id, hzero, hkeys⟩ := hmove.keys
  · exact ⟨hnb ▸ h.bound, by rw [hnb, hkeys]; exact h.lt, by rw [hnb, hkeys]; exact h.first⟩
  · rw [createLobby_eq h hnb]
    refine ⟨Nat.succ_le_succ hnb, ?_, fun _ => ?_⟩
    · intro id hid
      rcases Finset.mem_insert.mp hid with rfl | hid
      · exact Nat.lt_succ_self _
      · exact (h.lt id hid).trans (Nat.lt_succ_self _)
    · by_cases hpos : 0 < m.nbLobbies
      · exact Finset.mem_insert_of_mem (h.first hpos)
      · rw [Nat.eq_zero_of_not_pos hpos]
        exact Finset.mem_insert_self ..
  · refine ⟨hnb ▸ h.bound, ?_, ?_⟩
    · intro id' hid'
      rw [hkeys] at hid'
      rw [hnb]
      exact h.lt id' (Finset.mem_of_mem_erase hid')
    · rw [hnb, hkeys]
      intro hpos
      exact Finset.mem_erase.mpr ⟨hzero.symm, h.first hpos⟩

theorem Invariant.moves {safe : Lobby → Prop} {m m' : Manager} (h : m.Invariant)
    (hmoves : Moves safe m m') : m'.Invariant := by
  induction hmoves with
  | refl => exact h
  | tail _ hmove ih => exact ih.move hmove

/-! ## The loop of {lit}`update` -/

theorem threads_moves (safe : Lobby → Prop) (m : Manager) (acts : List (ℕ × ThreadAct)) :
    Moves safe m (m.threads acts) := by
  induction acts generalizing m with
  | nil => exact .refl
  | cons act acts ih => exact .head (.thread act.1 act.2) (ih _)

theorem lobbies_threads (m : Manager) (acts : List (ℕ × ThreadAct)) :
    (m.threads acts).lobbies = m.lobbies := by
  induction acts generalizing m with
  | nil => rfl
  | cons act acts ih =>
      rw [threads, List.foldl_cons, ← threads, ih, thread]
      split_ifs
      · rfl
      · rfl

/-- A turn of the loop. -/
theorem visit_succ {schedule : ℕ → List (ℕ × ThreadAct)} {i : ℕ} (hi : i + 1 < 2 ^ 16)
    (m : Manager) :
    visit schedule (i + 1) m =
      if i + 1 ∉ m.lobbies then none
      else if ((m.threads (schedule (i + 1))).lobby (i + 1)).isRunning then
        visit schedule i (m.threads (schedule (i + 1)))
      else visit schedule i ((m.threads (schedule (i + 1))).erase (i + 1)) := by
  rw [visit]
  simp only [Nat.mod_eq_of_lt hi, lobbies_threads]
  split_ifs with hkey hrunning
  · rfl
  · rw [modifyLobby_stop (by simpa using hrunning)]
  · rfl

/-- The loop looks up every index that it counts. -/
theorem isSome_visit {schedule : ℕ → List (ℕ × ThreadAct)} {i : ℕ} (hi : i < 2 ^ 16)
    (m : Manager) : (visit schedule i m).isSome ↔ ∀ id, id ≠ 0 → id ≤ i → id ∈ m.lobbies := by
  induction i generalizing m with
  | zero =>
      refine iff_of_true rfl ?_
      intro id hzero hle
      exact absurd (Nat.le_zero.mp hle) hzero
  | succ i ih =>
      rw [visit_succ hi]
      by_cases hkey : i + 1 ∈ m.lobbies
      · rw [if_neg (not_not.mpr hkey)]
        have hrest : (∀ id, id ≠ 0 → id ≤ i + 1 → id ∈ m.lobbies) ↔
            ∀ id, id ≠ 0 → id ≤ i → id ∈ m.lobbies := by
          constructor
          · intro h id hzero hle
            exact h id hzero (hle.trans (Nat.le_succ i))
          · intro h id hzero hle
            rcases Nat.le_succ_iff.mp hle with hle | rfl
            · exact h id hzero hle
            · exact hkey
        rw [hrest]
        split_ifs
        · rw [ih ((Nat.lt_succ_self i).trans hi), lobbies_threads]
        · rw [ih ((Nat.lt_succ_self i).trans hi), erase, lobbies_threads]
          constructor
          · intro h id hzero hle
            exact Finset.mem_of_mem_erase (h id hzero hle)
          · intro h id hzero hle
            exact Finset.mem_erase.mpr ⟨(Nat.lt_succ_of_le hle).ne, h id hzero hle⟩
      · rw [if_pos hkey]
        refine iff_of_false (by simp) ?_
        intro h
        exact hkey (h (i + 1) (Nat.succ_ne_zero i) le_rfl)

/-- The loop is made of changes. -/
theorem visit_moves (safe : Lobby → Prop) {schedule : ℕ → List (ℕ × ThreadAct)} {i : ℕ}
    (hi : i < 2 ^ 16) {m m' : Manager} (h : visit schedule i m = some m') : Moves safe m m' := by
  induction i generalizing m with
  | zero =>
      cases h
      exact .refl
  | succ i ih =>
      have hi' := (Nat.lt_succ_self i).trans hi
      have hthreads := threads_moves safe m (schedule (i + 1))
      rw [visit_succ hi] at h
      split_ifs at h with hkey hrunning
      · exact hthreads.trans (ih hi' h)
      · refine hthreads.trans (.head (.remove (i + 1) ?_ (Nat.succ_ne_zero i) ?_) (ih hi' h))
        · rw [lobbies_threads]
          exact hkey
        · simpa using hrunning

theorem visit_of_empty {m : Manager} (h : m.lobbies = ∅)
    (schedule : ℕ → List (ℕ × ThreadAct)) (i : ℕ) : visit schedule (i + 1) m = none := by
  rw [visit]
  simp only [lobbies_threads, h, Finset.notMem_empty, not_false_eq_true, if_true]

theorem update_of_empty {m : Manager} (h : m.lobbies = ∅)
    (schedule : ℕ → List (ℕ × ThreadAct)) : m.update schedule = none := by
  obtain ⟨i, hindex⟩ : ∃ i, (m.lobbies.card + 2 ^ 64 - 1) % 2 ^ 64 = i + 1 :=
    ⟨2 ^ 64 - 2, by simp [h]⟩
  unfold update
  rw [hindex]
  exact visit_of_empty h schedule i

theorem update_eq {m : Manager} (h : m.Invariant) (hpos : m.lobbies.Nonempty)
    (schedule : ℕ → List (ℕ × ThreadAct)) :
    m.update schedule = visit schedule (m.lobbies.card - 1) m := by
  have hcard := h.card_le
  have hone := Finset.card_pos.mpr hpos
  have hindex : (m.lobbies.card + 2 ^ 64 - 1) % 2 ^ 64 = m.lobbies.card - 1 := by omega
  rw [update, hindex]

/-- A call of {lit}`update` is made of changes. -/
theorem update_moves (safe : Lobby → Prop) {m m' : Manager} (hinv : m.Invariant)
    {schedule : ℕ → List (ℕ × ThreadAct)} (h : m.update schedule = some m') :
    Moves safe m m' := by
  rcases m.lobbies.eq_empty_or_nonempty with hempty | hpos
  · rw [update_of_empty hempty] at h
    cases h
  · rw [update_eq hinv hpos] at h
    have hcard := hinv.card_le
    exact visit_moves safe (by omega) h

/-! ## The runs of the system -/

/-- A request to join is {lit}`safe` when the lobby that it names is the first one, or
is safe. -/
def SafeEntry (safe : Lobby → Prop) (m : Manager) : Act → Prop
  | .joinRoom session roomId =>
      m.playerLookup session = none → roomId ≤ 255 → roomId ∈ m.lobbies → roomId ≠ 0 →
        safe (m.lobby roomId)
  | _ => True

theorem joinRoom_moves {safe : Lobby → Prop} (hnew : ∀ id, safe (Lobby.new id).start)
    {m : Manager} (hinv : m.Invariant) {session : SessionPtr} {roomId : ℕ}
    (hentry : m.SafeEntry safe (.joinRoom session roomId)) :
    Moves safe m (m.joinRoom session roomId) := by
  unfold joinRoom
  split_ifs with hlookup hroom
  · exact .refl
  · have hfree : m.playerLookup session = none := by simpa using hlookup
    by_cases hnb : m.nbLobbies ≤ 255
    · refine .head (.create hnb) ?_
      rw [createLobby_eq hinv hnb]
      dsimp only
      split_ifs
      · exact .single (.answer _)
      · refine .single (.enter session m.nbLobbies hfree (Finset.mem_insert_self ..) (.inr ?_))
        simpa using hnew m.nbLobbies
    · have hfull : m.createLobby = (m, m.nbLobbies) := if_pos (Nat.lt_of_not_le hnb)
      rw [hfull]
      dsimp only
      rw [if_pos (by omega)]
      exact .single (.answer _)
  · have hfree : m.playerLookup session = none := by simpa using hlookup
    by_cases hid : roomId ∈ m.lobbies
    · refine .single (.enter session roomId hfree hid ?_)
      by_cases hzero : roomId = 0
      · exact .inl hzero
      · exact .inr (hentry hfree (Nat.le_of_not_lt hroom) hid hzero)
    · rw [enter, if_neg hid]

/-- Every step is made of changes. -/
theorem step_moves {safe : Lobby → Prop} (hnew : ∀ id, safe (Lobby.new id).start) {m : Manager}
    (hinv : m.Invariant) {act : Act} (hentry : m.SafeEntry safe act) :
    Moves safe m (m.step act) := by
  unfold step
  split_ifs
  · exact .refl
  · cases act with
    | createLobby =>
        by_cases hnb : m.nbLobbies ≤ 255
        · exact .single (.create hnb)
        · have hfull : m.createLobby = (m, m.nbLobbies) := if_pos (Nat.lt_of_not_le hnb)
          rw [hfull]
    | joinRoom session roomId => exact joinRoom_moves hnew hinv hentry
    | leaveRoom session => exact .single (.leave session)
    | userInput session inputMask => exact .single (.action session _ rfl)
    | start session => exact .single (.action session _ rfl)
    | update schedule =>
        dsimp only
        cases hupdate : m.update schedule with
        | none => exact .single .terminate
        | some m' => exact update_moves safe hinv hupdate
    | thread id act => exact .single (.thread id act)

theorem Reached.run {allowed : Manager → Act → Prop} {acts : List Act}
    (h : AllowedRun step allowed {} acts) : Reached allowed (acts.foldl step {}) := by
  have hstart : Reached allowed {} := .start rfl
  exact Reachable.run hstart h

theorem Reached.invariant {allowed : Manager → Act → Prop} {m : Manager}
    (h : Reached allowed m) : m.Invariant := by
  apply Reachable.invariant h
  · rintro m rfl
    exact ⟨Nat.zero_le _, by simp, fun hpos => absurd hpos (lt_irrefl 0)⟩
  · intro m act _ _ hinv
    have hentry : m.SafeEntry (fun _ => True) act := by
      cases act <;> simp [SafeEntry]
    exact hinv.moves (step_moves (fun _ => trivial) hinv hentry)

/-! ## Collecting the stopped lobbies -/

/-- What a call of {lit}`update` should do: only lobbies that have stopped are removed,
the first one never is, and each other lobby that has stopped before the call is. -/
structure Collected (m m' : Manager) : Prop where
  kept : m'.lobbies ⊆ m.lobbies
  removed : ∀ id ∈ m.lobbies, id ∉ m'.lobbies → id ≠ 0 ∧ (m'.lobby id).isRunning = false
  stopped : ∀ id ∈ m.lobbies, id ≠ 0 → (m.lobby id).isRunning = false → id ∉ m'.lobbies

theorem isRunning_thread {m : Manager} {id target : ℕ} {act : ThreadAct}
    (h : ((m.thread target act).lobby id).isRunning = true) : (m.lobby id).isRunning = true := by
  unfold thread at h
  split_ifs at h
  · rw [lobby_modifyLobby] at h
    split_ifs at h
    · exact ((m.lobby id).advance_cases act).isRunning h
    · exact h
  · exact h

theorem isRunning_threads {m : Manager} {id : ℕ} {acts : List (ℕ × ThreadAct)}
    (h : ((m.threads acts).lobby id).isRunning = true) : (m.lobby id).isRunning = true := by
  induction acts generalizing m with
  | nil => exact h
  | cons act acts ih => exact isRunning_thread (ih h)

theorem isRunning_visit {schedule : ℕ → List (ℕ × ThreadAct)} {i : ℕ} (hi : i < 2 ^ 16)
    {m m' : Manager} (h : visit schedule i m = some m') {id : ℕ}
    (hrunning : (m'.lobby id).isRunning = true) : (m.lobby id).isRunning = true := by
  induction i generalizing m with
  | zero =>
      cases h
      exact hrunning
  | succ i ih =>
      have hi' := (Nat.lt_succ_self i).trans hi
      rw [visit_succ hi] at h
      split_ifs at h
      · exact isRunning_threads (ih hi' h)
      · have hbefore :
            (((m.threads (schedule (i + 1))).erase (i + 1)).lobby id).isRunning = true := ih hi' h
        exact isRunning_threads hbefore

/-- What the loop removes. -/
theorem visit_collects {schedule : ℕ → List (ℕ × ThreadAct)} {i : ℕ} (hi : i < 2 ^ 16)
    {m m' : Manager} (h : visit schedule i m = some m') :
    m'.lobbies ⊆ m.lobbies ∧
      (∀ id ∈ m.lobbies, id ∉ m'.lobbies → id ≠ 0 ∧ (m'.lobby id).isRunning = false) ∧
      ∀ id, id ≠ 0 → id ≤ i → (m.lobby id).isRunning = false → id ∉ m'.lobbies := by
  induction i generalizing m with
  | zero =>
      cases h
      refine ⟨Finset.Subset.refl _, ?_, ?_⟩
      · intro id hid hremoved
        exact absurd hid hremoved
      · intro id hzero hle
        exact absurd (Nat.le_zero.mp hle) hzero
  | succ i ih =>
      have hi' := (Nat.lt_succ_self i).trans hi
      rw [visit_succ hi] at h
      have hstill : ∀ id, (m.lobby id).isRunning = false →
          ((m.threads (schedule (i + 1))).lobby id).isRunning = false := by
        intro id hstopped
        by_contra hrunning
        rw [Bool.not_eq_false] at hrunning
        rw [isRunning_threads hrunning] at hstopped
        cases hstopped
      split_ifs at h with hkey hrunning
      · obtain ⟨hkept, hremoved, hcollected⟩ := ih hi' h
        rw [lobbies_threads] at hkept hremoved
        refine ⟨hkept, hremoved, fun id hzero hle hstopped => ?_⟩
        rcases Nat.le_succ_iff.mp hle with hle | rfl
        · exact hcollected id hzero hle (hstill id hstopped)
        · rw [hstill (i + 1) hstopped] at hrunning
          cases hrunning
      · obtain ⟨hkept, hremoved, hcollected⟩ := ih hi' h
        rw [erase, lobbies_threads] at hkept hremoved
        have hgone : i + 1 ∉ m'.lobbies :=
          fun hin => (Finset.mem_erase.mp (hkept hin)).1 rfl
        refine ⟨hkept.trans (Finset.erase_subset ..), fun id hid hout => ?_,
          fun id hzero hle hstopped => ?_⟩
        · by_cases hlast : id = i + 1
          · subst hlast
            refine ⟨Nat.succ_ne_zero i, ?_⟩
            by_contra hagain
            exact hrunning (isRunning_visit hi' h (Bool.eq_true_of_not_eq_false hagain))
          · exact hremoved id (Finset.mem_erase.mpr ⟨hlast, hid⟩) hout
        · rcases Nat.le_succ_iff.mp hle with hle | rfl
          · exact hcollected id hzero hle (hstill id hstopped)
          · exact hgone

/-- In every reachable state, {lit}`update` finds each lobby that it looks up and collects
the stopped ones, in whatever way the threads go on, exactly when the ids of the lobbies
are the numbers below their count and there is a lobby. -/
theorem update_safe_iff {m : Manager} (h : Reached (fun _ _ => True) m) :
    (∀ schedule, ∃ m', m.update schedule = some m' ∧ m.Collected m') ↔
      m.lobbies.Nonempty ∧ m.lobbies = Finset.range m.lobbies.card := by
  have hinv := Reached.invariant h
  have hcard := hinv.card_le
  have hlt : m.lobbies.card - 1 < 2 ^ 16 := by omega
  constructor
  · intro hsafe
    obtain ⟨m', hupdate, -⟩ := hsafe fun _ => []
    have hpos : m.lobbies.Nonempty := by
      by_contra hempty
      rw [update_of_empty (Finset.not_nonempty_iff_eq_empty.mp hempty)] at hupdate
      cases hupdate
    rw [update_eq hinv hpos] at hupdate
    have hkeys := (isSome_visit hlt m).mp (Option.isSome_of_eq_some hupdate)
    obtain ⟨some_id, hsome⟩ := hpos
    have hzero : 0 ∈ m.lobbies := hinv.first ((Nat.zero_le _).trans_lt (hinv.lt _ hsome))
    refine ⟨⟨some_id, hsome⟩, (Finset.eq_of_subset_of_card_le ?_ ?_).symm⟩
    · intro id hid
      have hid' := Finset.mem_range.mp hid
      by_cases hfirst : id = 0
      · exact hfirst ▸ hzero
      · exact hkeys id hfirst (by omega)
    · rw [Finset.card_range]
  · rintro ⟨hpos, hrange⟩ schedule
    have hone := Finset.card_pos.mpr hpos
    have hmem : ∀ id, id ∈ m.lobbies ↔ id < m.lobbies.card := by
      intro id
      conv_lhs => rw [hrange]
      exact Finset.mem_range
    rw [update_eq hinv hpos]
    have hsome : (visit schedule (m.lobbies.card - 1) m).isSome := by
      rw [isSome_visit hlt]
      intro id hzero hle
      rw [hmem]
      omega
    obtain ⟨m', hvisit⟩ := Option.isSome_iff_exists.mp hsome
    obtain ⟨hkept, hremoved, hcollected⟩ := visit_collects hlt hvisit
    refine ⟨m', hvisit, hkept, hremoved, fun id hid hzero hstopped => ?_⟩
    have hid' := (hmem id).mp hid
    exact hcollected id hzero (by omega) hstopped

end Threads

section Runs

local instance : FloatUnit := .addsZero

/-- Three lobbies, the middle one of which stops and is erased. -/
def runWithGap : List Act :=
  [.createLobby, .joinRoom 7 300, .joinRoom 8 300, .leaveRoom 7,
    .thread 1 .go, .thread 1 .go, .thread 1 .go, .update fun _ => []]

/-- Before a lobby in the middle is erased, {lit}`update` is safe. -/
theorem update_safe_before_gap :
    ((runWithGap.take 7).foldl step {}).lobbies = {0, 1, 2} ∧
      ∀ schedule, ∃ m', ((runWithGap.take 7).foldl step {}).update schedule = some m' ∧
        ((runWithGap.take 7).foldl step {}).Collected m' := by
  have hreached : Reached (fun _ _ => True) ((runWithGap.take 7).foldl step {}) :=
    Reached.run (allowedRun_of_forall (fun _ _ => trivial) _ _)
  exact ⟨by decide +kernel, (update_safe_iff hreached).mpr ⟨by decide +kernel, by decide +kernel⟩⟩

/-- Once it is erased, the next call of {lit}`update` looks up an id that is absent. -/
theorem update_throws_after_gap :
    Reached (fun _ _ => True) (runWithGap.foldl step {}) ∧
      (runWithGap.foldl step {}).lobbies = {0, 2} ∧
      (runWithGap.foldl step {}).update (fun _ => []) = none := by
  have hreached : Reached (fun _ _ => True) (runWithGap.foldl step {}) :=
    Reached.run (allowedRun_of_forall (fun _ _ => trivial) _ _)
  have hkeys : (runWithGap.foldl step {}).lobbies = {0, 2} := by decide +kernel
  refine ⟨hreached, hkeys, ?_⟩
  have habsent : ¬ ((runWithGap.foldl step {}).update fun _ => []).isSome := by decide +kernel
  simpa using habsent

end Runs

end Manager

end Rtype.Server
