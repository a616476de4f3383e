import Mathlib
import Rtype.Foundations.Blocks
import Rtype.Server.LobbyManager

/-!
# Server - Requests for a lobby

A client can ask for a new lobby, and for the pages of the list of lobbies.  The number of
lobbies is limited, and the limit is tested where a lobby is made and again where a session
enters it.  The place where a page starts is computed from the number that the client sends,
in 32 bits.

Main results:

- Theorem {lit}`Manager.joinRoom_all_or_nothing_iff`: the counter at which the two tests of
  the limit disagree.
- Theorem {lit}`Manager.paged_iff`: the page numbers that are answered with their page.

Current gaps:

- The order in which the map lists its keys is a list that is given.
-/

namespace Rtype.Server

namespace Manager

open Rtype.Common
open Transition

/-! ## A room of one's own -/

/-- One new lobby was started, and the session was put into it. -/
structure JoinedNew (m m' : Manager) (session : SessionPtr) (id : ℕ) : Prop where
  fresh : id ∉ m.lobbies
  lobbies : m'.lobbies = insert id m.lobbies
  lobby : m'.lobby id = (Lobby.new id).start.pushTask (.join session)
  others : ∀ other ≠ id, m'.lobby other = m.lobby other
  playerLookup : m'.playerLookup = Function.update m.playerLookup session (some id)

/-- Nothing was changed, and the session was told so. -/
structure Refused (m m' : Manager) (session : SessionPtr) : Prop where
  lobbies : m'.lobbies = m.lobbies
  lobby : m'.lobby = m.lobby
  playerLookup : m'.playerLookup = m.playerLookup
  outGoing : m'.outGoing = m.outGoing ++ [([session], refusal)]

/-- The request was met or refused as a whole. -/
def AllOrNothing (m m' : Manager) (session : SessionPtr) : Prop :=
  (∃ id, JoinedNew m m' session id) ∨ Refused m m' session

variable {m : Manager} {session : SessionPtr} {roomId : ℕ}

theorem joinRoom_of_large (hfree : m.playerLookup session = none) (hroom : roomId > 255) :
    m.joinRoom session roomId =
      if m.createLobby.2 ≥ 255 then
        { m.createLobby.1 with outGoing := m.createLobby.1.outGoing ++ [([session], refusal)] }
      else
        m.createLobby.1.enter session m.createLobby.2 := by
  simp only [joinRoom, hfree, Option.isSome_none, Bool.false_eq_true, if_false, if_pos hroom]

/-- Below the limit the session gets a lobby. -/
theorem joinRoom_of_lt (h : m.Invariant) (hfree : m.playerLookup session = none)
    (hroom : roomId > 255) (hnb : m.nbLobbies < 255) :
    JoinedNew m (m.joinRoom session roomId) session m.nbLobbies := by
  have hlookup := joinRoom_of_large hfree hroom
  rw [createLobby_eq h hnb.le, if_neg (Nat.not_le_of_lt hnb),
    enter_of_mem (Finset.mem_insert_self ..)] at hlookup
  rw [hlookup]
  constructor
  case fresh => exact h.fresh
  case lobbies => rfl
  case lobby => simp [modifyLobby]
  case others =>
    intro other hother
    simp [modifyLobby, hother]
  case playerLookup => rfl

/-- The last lobby is started for a session that is refused. -/
theorem joinRoom_of_eq (h : m.Invariant) (hfree : m.playerLookup session = none)
    (hroom : roomId > 255) (hnb : m.nbLobbies = 255) :
    m.joinRoom session roomId =
      { m with
        nbLobbies := 256
        lobbies := insert 255 m.lobbies
        lobby := Function.update m.lobby 255 (Lobby.new 255).start
        outGoing := m.outGoing ++ [([session], refusal)] } := by
  rw [joinRoom_of_large hfree hroom, createLobby_eq h hnb.le, hnb]
  rfl

/-- Above the limit there is no lobby for the session. -/
theorem joinRoom_of_gt (hfree : m.playerLookup session = none) (hroom : roomId > 255)
    (hnb : m.nbLobbies > 255) : Refused m (m.joinRoom session roomId) session := by
  have hfull : m.createLobby = (m, m.nbLobbies) := if_pos hnb
  rw [joinRoom_of_large hfree hroom, hfull, if_pos hnb.le]
  exact ⟨rfl, rfl, rfl, rfl⟩

/-- The last lobby is started for a session that does not enter it. -/
theorem not_allOrNothing_of_eq (h : m.Invariant) (hfree : m.playerLookup session = none)
    (hroom : roomId > 255) (hnb : m.nbLobbies = 255) :
    ¬ AllOrNothing m (m.joinRoom session roomId) session := by
  rw [joinRoom_of_eq h hfree hroom hnb]
  rintro (⟨id, hjoined⟩ | hrefused)
  · have hsame := congrFun hjoined.playerLookup session
    rw [Function.update_self] at hsame
    change m.playerLookup session = some id at hsame
    rw [hfree] at hsame
    cases hsame
  · have hlobbies : insert 255 m.lobbies = m.lobbies := hrefused.lobbies
    apply h.fresh
    rw [hnb, ← hlobbies]
    exact Finset.mem_insert_self ..

section Runs

variable [FloatUnit]

/-- A request for a new lobby is met or refused as a whole, unless the counter says that
one lobby can still be made. -/
theorem joinRoom_all_or_nothing_iff (h : Reached (fun _ _ => True) m)
    (hfree : m.playerLookup session = none) (hroom : roomId > 255) :
    AllOrNothing m (m.joinRoom session roomId) session ↔ m.nbLobbies ≠ 255 := by
  have hinv := Reached.invariant h
  constructor
  · intro hwhole hnb
    exact not_allOrNothing_of_eq hinv hfree hroom hnb hwhole
  · intro hnb
    rcases Nat.lt_or_gt_of_ne hnb with hlt | hgt
    · exact .inl ⟨_, joinRoom_of_lt hinv hfree hroom hlt⟩
    · exact .inr (joinRoom_of_gt hfree hroom hgt)

/-- The server makes lobbies, one after another. -/
def creations (n : ℕ) : Manager :=
  (List.replicate n .createLobby).foldl step {}

theorem creations_reached (n : ℕ) : Reached (fun _ _ => True) (creations n) :=
  Reached.run (allowedRun_of_forall (fun _ _ => trivial) _ _)

theorem creations_eq {n : ℕ} (hn : n ≤ 256) :
    (creations n).nbLobbies = n ∧ (creations n).playerLookup = (fun _ => none) ∧
      (creations n).terminated = false := by
  induction n with
  | zero => exact ⟨rfl, rfl, rfl⟩
  | succ n ih =>
      rcases ih (Nat.le_of_succ_le hn) with ⟨hnb, hlookup, hrunning⟩
      have hinv := Reached.invariant (creations_reached n)
      have hbelow : (creations n).nbLobbies ≤ 255 := by omega
      have hnext : creations (n + 1) = (creations n).step .createLobby := by
        rw [creations, List.replicate_succ', List.foldl_concat]
        rfl
      have hstep : (creations n).step .createLobby = (creations n).createLobby.1 := by
        simp only [step, hrunning, Bool.false_eq_true, if_false]
      rw [hnext, hstep, createLobby_eq hinv hbelow]
      exact ⟨congrArg (· + 1) hnb, hlookup, hrunning⟩

end Runs

section Examples

local instance requestsFloatUnit : FloatUnit := .addsZero

/-- The first session that asks gets a lobby. -/
theorem first_room : AllOrNothing (creations 1) ((creations 1).joinRoom 7 300) 7 := by
  rcases creations_eq (n := 1) (by norm_num) with ⟨hnb, hlookup, -⟩
  apply (joinRoom_all_or_nothing_iff (creations_reached 1) (congrFun hlookup 7) (by norm_num)).mpr
  rw [hnb]
  norm_num

/-- The session that asks when the counter is at 255 is refused, and its lobby runs. -/
theorem last_room_left_running :
    Reached (fun _ _ => True) (creations 255) ∧ (creations 255).playerLookup 7 = none ∧
      ¬ AllOrNothing (creations 255) ((creations 255).joinRoom 7 300) 7 := by
  rcases creations_eq (n := 255) (by norm_num) with ⟨hnb, hlookup, -⟩
  have hreached := creations_reached 255
  refine ⟨hreached, congrFun hlookup 7, ?_⟩
  exact not_allOrNothing_of_eq (Reached.invariant hreached) (congrFun hlookup 7) (by norm_num) hnb

end Examples

/-! ## The pages of the list -/

/-- The loop of {lit}`Manager::getLobbiesId`, over the keys that are left. -/
def listLoop (offset : UInt32) : UInt32 → List ℕ → List ℕ → List ℕ
  | _, roomIds, [] => roomIds
  | i, roomIds, lobby :: lobbies =>
      if i < offset then
        listLoop offset (i + 1) roomIds lobbies
      else
        let roomIds := roomIds ++ [lobby]
        if roomIds.length = 20 then roomIds else listLoop offset i roomIds lobbies

/-- {lit}`Manager::getLobbiesId`, for the keys in the order of the map. -/
def getLobbiesId (listing : List ℕ) (page : UInt32) : List ℕ :=
  let offset := page * 20
  listLoop offset 0 [] listing

/-- {lit}`Manager::getLobbiesMaxPage`. -/
def getLobbiesMaxPage (listing : List ℕ) : UInt32 :=
  UInt32.ofNat (listing.length / 20 + 1)

/-- The loop skips the keys before the offset, and takes what is missing. -/
theorem listLoop_eq {offset i : UInt32} (hi : i ≤ offset) {roomIds : List ℕ}
    (hroom : roomIds.length < 20) (lobbies : List ℕ) :
    listLoop offset i roomIds lobbies =
      roomIds ++ (lobbies.drop (offset.toNat - i.toNat)).take (20 - roomIds.length) := by
  induction lobbies generalizing i roomIds with
  | nil => simp [listLoop]
  | cons lobby lobbies ih =>
      rw [listLoop]
      rw [UInt32.le_iff_toNat_le] at hi
      by_cases hskip : i < offset
      · rw [if_pos hskip]
        rw [UInt32.lt_iff_toNat_lt] at hskip
        have hnext : (i + 1).toNat = i.toNat + 1 := by
          have hbound := offset.toNat_lt
          rw [UInt32.toNat_add, UInt32.toNat_one]
          exact Nat.mod_eq_of_lt (by omega)
        have hle : i + 1 ≤ offset := by
          rw [UInt32.le_iff_toNat_le, hnext]
          omega
        have hdrop : offset.toNat - i.toNat = offset.toNat - (i + 1).toNat + 1 := by omega
        rw [ih hle hroom, hdrop, List.drop_succ_cons]
      · rw [if_neg hskip]
        rw [UInt32.lt_iff_toNat_lt] at hskip
        have hsame : i = offset := UInt32.toNat_inj.mp (by omega)
        subst hsame
        rw [Nat.sub_self, List.drop_zero]
        by_cases hfull : roomIds.length + 1 = 20
        · have hone : 20 - roomIds.length = 1 := by omega
          simp [hfull, hone]
        · have hroom' : (roomIds ++ [lobby]).length < 20 := by
            rw [List.length_append, List.length_singleton]
            omega
          have htake : 20 - roomIds.length = 20 - (roomIds ++ [lobby]).length + 1 := by
            rw [List.length_append, List.length_singleton]
            omega
          dsimp only
          rw [if_neg hroom'.ne, ih (UInt32.le_refl i) hroom', Nat.sub_self, List.drop_zero, htake,
            List.take_succ_cons, List.append_assoc, List.singleton_append]

theorem getLobbiesId_eq (listing : List ℕ) (page : UInt32) :
    getLobbiesId listing page = (listing.drop (page * 20).toNat).take 20 :=
  listLoop_eq (UInt32.le_iff_toNat_le.mpr (Nat.zero_le _)) (by decide) listing

theorem getLobbiesId_block {listing : List ℕ} {page : UInt32} (hpage : 20 * page.toNat < 2 ^ 32) :
    getLobbiesId listing page = Blocks.block 20 listing page.toNat := by
  have hoffset : (page * 20).toNat = 20 * page.toNat := by
    rw [UInt32.toNat_mul, Nat.mul_comm]
    exact Nat.mod_eq_of_lt hpage
  rw [getLobbiesId_eq, hoffset, Blocks.block]

/-- What the pages are to be: blocks of the list, the first ones all of it, the others
empty. -/
structure Paged (listing : List ℕ) (page : UInt32) : Prop where
  block : getLobbiesId listing page = Blocks.block 20 listing page.toNat
  past : listing.length ≤ 20 * page.toNat → getLobbiesId listing page = []
  once : (List.range (getLobbiesMaxPage listing).toNat).flatMap
    (fun k => getLobbiesId listing (UInt32.ofNat k)) = listing
  beyond : getLobbiesMaxPage listing ≤ page → getLobbiesId listing page = []

/-- An id has 16 bits. -/
theorem length_listing_le {listing : List ℕ} (hnodup : listing.Nodup)
    (hids : ∀ id ∈ listing, id < 2 ^ 16) : listing.length ≤ 2 ^ 16 := by
  have hsub : listing ⊆ List.range (2 ^ 16) := by
    intro id hid
    exact List.mem_range.mpr (hids id hid)
  have hle := (hnodup.subperm hsub).length_le
  rwa [List.length_range] at hle

theorem toNat_getLobbiesMaxPage {listing : List ℕ} (hlength : listing.length ≤ 2 ^ 16) :
    (getLobbiesMaxPage listing).toNat = listing.length / 20 + 1 := by
  rw [getLobbiesMaxPage, UInt32.toNat_ofNat']
  apply Nat.mod_eq_of_lt
  omega

/-- The pages that are announced have all the ids. -/
theorem flatMap_getLobbiesId {listing : List ℕ} (hlength : listing.length ≤ 2 ^ 16) :
    (List.range (getLobbiesMaxPage listing).toNat).flatMap
      (fun k => getLobbiesId listing (UInt32.ofNat k)) = listing := by
  rw [toNat_getLobbiesMaxPage hlength]
  have hblocks : ∀ k ∈ List.range (listing.length / 20 + 1),
      getLobbiesId listing (UInt32.ofNat k) = Blocks.block 20 listing k := by
    intro k hk
    rw [List.mem_range] at hk
    have hpage : (UInt32.ofNat k).toNat = k := by
      rw [UInt32.toNat_ofNat']
      apply Nat.mod_eq_of_lt
      omega
    rw [getLobbiesId_block (by omega), hpage]
  rw [List.flatMap_def, List.map_congr_left hblocks, ← List.flatMap_def]
  apply Blocks.flatMap_range_block
  omega

/-- A page number is answered with its page if and only if the place where the page starts
fits into 32 bits, or what is left of it lies past the end of the list. -/
theorem paged_iff {listing : List ℕ} (hnodup : listing.Nodup)
    (hids : ∀ id ∈ listing, id < 2 ^ 16) (page : UInt32) :
    Paged listing page ↔ 20 * page.toNat < 2 ^ 32 ∨ listing.length ≤ (page * 20).toNat := by
  have hlength := length_listing_le hnodup hids
  constructor
  · intro hpaged
    by_contra hwrong
    rw [not_or] at hwrong
    have hempty := hpaged.past (by omega)
    rw [getLobbiesId_eq, List.take_eq_nil_iff, List.drop_eq_nil_iff] at hempty
    rcases hempty with hempty | hempty
    · cases hempty
    · exact hwrong.2 hempty
  · intro hfits
    have hblock : getLobbiesId listing page = Blocks.block 20 listing page.toNat := by
      by_cases hpage : 20 * page.toNat < 2 ^ 32
      · exact getLobbiesId_block hpage
      · rw [(Blocks.block_eq_nil_iff (by norm_num) listing page.toNat).mpr (by omega),
          getLobbiesId_eq, List.drop_eq_nil_of_le (hfits.resolve_left hpage), List.take_nil]
    have hpast : listing.length ≤ 20 * page.toNat → getLobbiesId listing page = [] := by
      intro hpast
      rw [hblock]
      exact (Blocks.block_eq_nil_iff (by norm_num) listing page.toNat).mpr hpast
    refine ⟨hblock, hpast, flatMap_getLobbiesId hlength, fun hbeyond => hpast ?_⟩
    rw [UInt32.le_iff_toNat_le, toNat_getLobbiesMaxPage hlength] at hbeyond
    omega

/-- The second page of thirty lobbies. -/
theorem paged_second : Paged (List.range 30) 1 := by
  apply (paged_iff List.nodup_range _ 1).mpr
  · exact .inl (by decide)
  · intro id hid
    rw [List.mem_range] at hid
    omega

/-- A page number whose start is 4 in 32 bits: the page is not empty. -/
theorem not_paged_wrapped : (List.range 30).Nodup ∧ ¬ Paged (List.range 30) 214748365 := by
  refine ⟨List.nodup_range, fun hpaged => ?_⟩
  have hempty := hpaged.past (by decide)
  revert hempty
  decide

end Manager

end Rtype.Server
