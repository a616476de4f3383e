import Mathlib
import Rtype.Client.GameStates
import Rtype.Client.Keyboard
import Rtype.Foundations.Machines
import Rtype.Server.LobbyRequests

/-!
# Client - The menus

Before the game runs, the client shows one of three menus.  The first one asks the server for
its rooms and leads to the second one, which shows a button for each room and one for a new
room.  The acknowledgement of a player leads to the third one, where the game can be started.

Main results:

- Function {lit}`MenuRenderer.apply`: the system, under the names of the source.
- Theorem {lit}`one_packet_each_frame`: wherever the mouse is, a frame sends no more than one
  packet.
- Theorem {lit}`menus_in_order`: what the menus send is at most one question for the rooms, then
  requests to join, and then requests to start.
- Theorem {lit}`rooms_offered`: the first rooms that are shown are the only ones that the client
  ever asks to join.
- Theorem {lit}`rooms_fit`: the rooms of one page of the server fit into the box of the menu.

Current gaps:

- Coordinates are exact numbers; those of the buttons are integers.
- What is drawn, and the fonts, are left out.
-/

namespace Rtype.Client

open Rtype.Rtecs Rtype.Common Rtype.Server

/-! ## Rectangles -/

/-- {lit}`Vector2`. -/
structure Vector2 where
  x : ℚ
  y : ℚ

/-- {lit}`Rectangle`. -/
structure Rectangle where
  x : ℚ
  y : ℚ
  width : ℚ
  height : ℚ
  deriving DecidableEq

/-- A point is in a rectangle, or on its border. -/
structure Rectangle.Covers (bounds : Rectangle) (point : Vector2) : Prop where
  left : bounds.x ≤ point.x
  right : point.x ≤ bounds.x + bounds.width
  top : bounds.y ≤ point.y
  bottom : point.y ≤ bounds.y + bounds.height

/-- Two rectangles have no point in common. -/
def Rectangle.Apart (bounds bounds' : Rectangle) : Prop :=
  ∀ point, bounds.Covers point → ¬ bounds'.Covers point

/-- The mouse and the window in a frame. -/
structure Frame where
  mouse : Vector2
  isMouseButtonDown : Bool
  windowShouldClose : Bool

/-! ## Constants -/

def BUTTON_WIDTH : ℚ := 500
def BUTTON_HEIGHT : ℚ := 150
def X : ℚ := 1920 / 2 - BUTTON_WIDTH / 2
def Y : ℚ := 1080 / 2 - BUTTON_HEIGHT / 2
def BUTTON_OFFSET_Y : ℚ := BUTTON_HEIGHT * (3 / 2)

def BOX_X : ℤ := 230
def BOX_Y : ℤ := 300
def BOX_WIDTH : ℤ := 1000
def BOX_HEIGHT : ℤ := 700
def IN_BOX_OFFSET_X : ℤ := 80
def IN_BOX_OFFSET_Y : ℤ := 40
def BETWEEN_BOX_OFFSET_X : ℤ := IN_BOX_OFFSET_Y
def BETWEEN_BOX_OFFSET_Y : ℤ := IN_BOX_OFFSET_Y
def BOX_IN_BOX_ORIGIN_X : ℤ := BOX_X + IN_BOX_OFFSET_X
def BOX_IN_BOX_ORIGIN_Y : ℤ := BOX_Y + IN_BOX_OFFSET_Y
def BOX_IN_BOX_WIDTH : ℤ := (BOX_WIDTH - IN_BOX_OFFSET_X * 2) / 6
def BOX_IN_BOX_HEIGHT : ℤ := (BOX_HEIGHT - IN_BOX_OFFSET_Y * 3) / 5
def LOBBY_PER_LINE : ℕ := 5

/-- {lit}`PLAY_BUTTON`. -/
def playButton : Rectangle := ⟨X, Y - BUTTON_OFFSET_Y, BUTTON_WIDTH, BUTTON_HEIGHT⟩

/-- {lit}`START_BUTTON`. -/
def startButton : Rectangle := ⟨X, Y, BUTTON_WIDTH, BUTTON_HEIGHT⟩

/-- {lit}`CREATE_BUTTON`. -/
def createButton : Rectangle :=
  ⟨(BOX_X + BOX_WIDTH + 70 : ℤ), BOX_Y, BUTTON_WIDTH, BUTTON_HEIGHT⟩

/-- {lit}`menu::state::MenuJoin`. -/
def menuJoin : ℕ := 3

/-! ## The system -/

/-- {lit}`gui::LobbyButton`. -/
structure LobbyButton where
  roomId : UInt16
  bounds : Rectangle
  deriving DecidableEq

/-- {lit}`client::Lobby`. -/
structure LobbyPage where
  roomIds : List UInt32 := []
  page : UInt32 := 0
  maxPage : UInt32 := 0

/-- The system, with the parts of the client that it refers to and the packets that
{lit}`service::Network` has sent. -/
structure MenuRenderer where
  toolbox : HandlerToolbox
  lobby : LobbyPage := {}
  lobbyButtons : List LobbyButton := []
  outgoingQueue : List Outgoing := []
  sent : List Outgoing := []

namespace MenuRenderer

/-- {lit}`service::Network::send`. -/
def send (menu : MenuRenderer) (packet : Outgoing) : MenuRenderer :=
  { menu with outgoingQueue := menu.outgoingQueue ++ [packet] }

/-- {lit}`service::Network::flush`. -/
def flush (menu : MenuRenderer) : MenuRenderer :=
  { menu with outgoingQueue := [], sent := menu.sent ++ menu.outgoingQueue }

/-- The loop of {lit}`renderLobbyList` that makes the buttons: {lit}`i` is the number of the next
room, and {lit}`column` and {lit}`row` are its place. -/
def makeButtons (i : ℕ) (column row : ℚ) : List UInt32 → List LobbyButton
  | [] => []
  | roomId :: roomIds =>
      let bounds : Rectangle :=
        ⟨BOX_IN_BOX_ORIGIN_X + (BOX_IN_BOX_WIDTH + BETWEEN_BOX_OFFSET_X) * column,
          BOX_IN_BOX_ORIGIN_Y + (BOX_IN_BOX_HEIGHT + BETWEEN_BOX_OFFSET_Y) * row,
          BOX_IN_BOX_WIDTH, BOX_IN_BOX_HEIGHT⟩
      let column := column + 1
      ⟨roomId.toUInt16, bounds⟩ ::
        if i % LOBBY_PER_LINE = 0 then
          makeButtons (i + 1) 0 (row + 1) roomIds
        else
          makeButtons (i + 1) column row roomIds

section

variable (checkCollisionPointRec : Vector2 → Rectangle → Bool)

/-- {lit}`Button::render` and {lit}`LobbyButton::render`, without what they draw. -/
def render (frame : Frame) (bounds : Rectangle) : Bool :=
  let hover := checkCollisionPointRec frame.mouse bounds
  hover && frame.isMouseButtonDown

/-- The first part of {lit}`MenuRenderer::renderLobbyList`. -/
def showButtons (menu : MenuRenderer) : MenuRenderer :=
  if menu.lobbyButtons.isEmpty then
    { menu with lobbyButtons := makeButtons 1 0 0 menu.lobby.roomIds }
  else
    menu

/-- {lit}`MenuRenderer::renderLobbyList`. -/
def renderLobbyList (frame : Frame) (menu : MenuRenderer) : MenuRenderer :=
  let menu := menu.showButtons
  let menu :=
    if render checkCollisionPointRec frame createButton then menu.send (.join "username" 256)
    else menu
  menu.lobbyButtons.foldl (fun menu lobbyButton =>
    if render checkCollisionPointRec frame lobbyButton.bounds then
      menu.send (.join "username" lobbyButton.roomId.toNat)
    else menu) menu

/-- {lit}`MenuRenderer::renderHomeMenu`; the button for the credits only writes to the log. -/
def renderHomeMenu (frame : Frame) (menu : MenuRenderer) : MenuRenderer :=
  if render checkCollisionPointRec frame playButton then
    { menu with toolbox := menu.toolbox.setMenuState menuJoin }.send (.lobbyList 0)
  else
    menu

/-- {lit}`MenuRenderer::renderPreGameMenu`. -/
def renderPreGameMenu (frame : Frame) (menu : MenuRenderer) : MenuRenderer :=
  if render checkCollisionPointRec frame startButton then menu.send .start else menu

/-- {lit}`MenuRenderer::apply`.  The state is read once, before any menu is rendered. -/
def apply (frame : Frame) (menu : MenuRenderer) : MenuRenderer :=
  if menu.toolbox.engine.gameState = gameRunning ∨ frame.windowShouldClose then
    menu
  else
    let menuState := menu.toolbox.engine.menuState
    let menu :=
      if menuState = menuLobby then renderPreGameMenu checkCollisionPointRec frame menu else menu
    let menu :=
      if menuState = menuJoin then renderLobbyList checkCollisionPointRec frame menu else menu
    if menuState = menuHome then renderHomeMenu checkCollisionPointRec frame menu else menu

end

/-! ## Runs -/

/-- What happens to the menus: frames, packets of a lobby, a list of rooms, the packets of other
systems, the flush of the queue, and code that changes the store. -/
inductive Act
  | frame (frame : Frame)
  | packet (packet : Variant)
  | lobbyListAck (roomIds : List UInt16) (page maxPage : UInt32)
  | input (inputMask : BitVec 8)
  | flush
  | store (ecs : ECS Comp)

/-- The client after an act, unless a handler fails. -/
def step (checkCollisionPointRec : Vector2 → Rectangle → Bool) (menu : MenuRenderer) :
    Act → Option MenuRenderer
  | .frame frame => some (apply checkCollisionPointRec frame menu)
  | .packet packet =>
      match handle menu.toolbox packet with
      | .ok toolbox => some { menu with toolbox := toolbox }
      | .error _ => none
  | .lobbyListAck roomIds page maxPage =>
      some { menu with lobby := ⟨roomIds.map UInt16.toUInt32, page, maxPage⟩ }
  | .input inputMask => some (menu.send (.userInput inputMask))
  | .flush => some menu.flush
  | .store ecs => some { menu with toolbox := menu.toolbox.setEcs ecs }

/-- The client when {lit}`App::run` starts. -/
def new : MenuRenderer where
  toolbox := .new

/-! ## The grid of the rooms -/

/-- The place of the button of a room. -/
def cell (n : ℕ) : Rectangle where
  x := 310 + 180 * ((n % 5 : ℕ) : ℚ)
  y := 340 + 156 * ((n / 5 : ℕ) : ℚ)
  width := 140
  height := 116

/-- Places in a row that are longer than what they hold do not overlap. -/
theorem eq_of_covered {start pitch width point : ℚ} (hwidth : width < pitch) {m n : ℕ}
    (hm : start + pitch * m ≤ point ∧ point ≤ start + pitch * m + width)
    (hn : start + pitch * n ≤ point ∧ point ≤ start + pitch * n + width) : m = n := by
  have hle : ∀ {m n : ℕ}, start + pitch * m ≤ point → start + pitch * n ≤ point →
      point ≤ start + pitch * n + width → m ≤ n := by
    intro m n hstart hstart' hend
    by_contra hlt
    have hnext : (n : ℚ) + 1 ≤ m := by exact_mod_cast not_le.mp hlt
    have hpitch : 0 ≤ pitch := by linarith
    have hfar : pitch * (n + 1) ≤ pitch * m := mul_le_mul_of_nonneg_left hnext hpitch
    linarith
  exact le_antisymm (hle hm.1 hn.1 hn.2) (hle hn.1 hm.1 hm.2)

theorem eq_of_cell_covers {m n : ℕ} {point : Vector2} (hm : (cell m).Covers point)
    (hn : (cell n).Covers point) : m = n := by
  have hcolumn : m % 5 = n % 5 :=
    eq_of_covered (show (140 : ℚ) < 180 by norm_num) ⟨hm.left, hm.right⟩ ⟨hn.left, hn.right⟩
  have hrow : m / 5 = n / 5 :=
    eq_of_covered (show (116 : ℚ) < 156 by norm_num) ⟨hm.top, hm.bottom⟩ ⟨hn.top, hn.bottom⟩
  rw [← Nat.mod_add_div m 5, hcolumn, hrow, Nat.mod_add_div]

theorem column_le (n : ℕ) : ((n % 5 : ℕ) : ℚ) ≤ 4 := by
  exact_mod_cast Nat.lt_succ_iff.mp (Nat.mod_lt n (by norm_num))

/-- The button for a new room is to the right of all others. -/
theorem createButton_apart (n : ℕ) : createButton.Apart (cell n) := by
  intro point hcreate hcell
  have hright : point.x ≤ 310 + 180 * ((n % 5 : ℕ) : ℚ) + 140 := hcell.right
  have hleft : (1300 : ℚ) ≤ point.x := hcreate.left
  have hcolumn := column_le n
  linarith

/-- The box that is drawn around the rooms. -/
def roomBox : Rectangle := ⟨BOX_X, BOX_Y, BOX_WIDTH, BOX_HEIGHT⟩

/-- Four rows are in the box. -/
theorem roomBox_covers {n : ℕ} (hn : n < 20) {point : Vector2} (hcell : (cell n).Covers point) :
    roomBox.Covers point := by
  have hcolumn := column_le n
  have hrow : ((n / 5 : ℕ) : ℚ) ≤ 3 := by
    exact_mod_cast Nat.lt_succ_iff.mp (Nat.div_lt_of_lt_mul hn)
  have hcolumn₀ : (0 : ℚ) ≤ ((n % 5 : ℕ) : ℚ) := Nat.cast_nonneg _
  have hrow₀ : (0 : ℚ) ≤ ((n / 5 : ℕ) : ℚ) := Nat.cast_nonneg _
  have hleft : 310 + 180 * ((n % 5 : ℕ) : ℚ) ≤ point.x := hcell.left
  have hright : point.x ≤ 310 + 180 * ((n % 5 : ℕ) : ℚ) + 140 := hcell.right
  have htop : 340 + 156 * ((n / 5 : ℕ) : ℚ) ≤ point.y := hcell.top
  have hbottom : point.y ≤ 340 + 156 * ((n / 5 : ℕ) : ℚ) + 116 := hcell.bottom
  constructor
  · change (230 : ℚ) ≤ point.x
    linarith
  · change point.x ≤ (230 : ℚ) + 1000
    linarith
  · change (300 : ℚ) ≤ point.y
    linarith
  · change point.y ≤ (300 : ℚ) + 700
    linarith

/-- The buttons after the first {lit}`n` ones. -/
def buttonsFrom (n : ℕ) (roomIds : List UInt32) : List LobbyButton :=
  makeButtons (n + 1) ((n % 5 : ℕ) : ℚ) ((n / 5 : ℕ) : ℚ) roomIds

theorem buttonsFrom_cons (n : ℕ) (roomId : UInt32) (roomIds : List UInt32) :
    buttonsFrom n (roomId :: roomIds) =
      ⟨roomId.toUInt16, cell n⟩ :: buttonsFrom (n + 1) roomIds := by
  have hcell : (⟨BOX_IN_BOX_ORIGIN_X +
        (BOX_IN_BOX_WIDTH + BETWEEN_BOX_OFFSET_X) * ((n % 5 : ℕ) : ℚ),
      BOX_IN_BOX_ORIGIN_Y + (BOX_IN_BOX_HEIGHT + BETWEEN_BOX_OFFSET_Y) * ((n / 5 : ℕ) : ℚ),
      BOX_IN_BOX_WIDTH, BOX_IN_BOX_HEIGHT⟩ : Rectangle) = cell n := by
    simp only [cell, BOX_IN_BOX_ORIGIN_X, BOX_IN_BOX_ORIGIN_Y, BOX_IN_BOX_WIDTH, BOX_IN_BOX_HEIGHT,
      BETWEEN_BOX_OFFSET_X, BETWEEN_BOX_OFFSET_Y, BOX_X, BOX_Y, BOX_WIDTH, BOX_HEIGHT,
      IN_BOX_OFFSET_X, IN_BOX_OFFSET_Y]
    norm_num
  rw [buttonsFrom, makeButtons, hcell, buttonsFrom, LOBBY_PER_LINE]
  split_ifs with hline
  · have hcolumn : (n + 1) % 5 = 0 := hline
    have hrow : (n + 1) / 5 = n / 5 + 1 := by omega
    rw [hcolumn, hrow, Nat.cast_zero, Nat.cast_succ]
  · have hcolumn : (n + 1) % 5 = n % 5 + 1 := by omega
    have hrow : (n + 1) / 5 = n / 5 := by omega
    rw [hcolumn, hrow, Nat.cast_succ]

theorem exists_cell_of_mem {n : ℕ} {roomIds : List UInt32} {button : LobbyButton}
    (h : button ∈ buttonsFrom n roomIds) :
    ∃ k, n ≤ k ∧ k < n + roomIds.length ∧ button.bounds = cell k := by
  induction roomIds generalizing n with
  | nil => cases h
  | cons roomId roomIds ih =>
      rw [buttonsFrom_cons, List.mem_cons] at h
      rw [List.length_cons]
      rcases h with rfl | h
      · exact ⟨n, le_rfl, by omega, rfl⟩
      · rcases ih h with ⟨k, hk, hk', hbounds⟩
        exact ⟨k, by omega, by omega, hbounds⟩

/-- The buttons of the rooms do not overlap each other. -/
theorem pairwise_buttonsFrom (n : ℕ) (roomIds : List UInt32) :
    ((buttonsFrom n roomIds).map LobbyButton.bounds).Pairwise Rectangle.Apart := by
  induction roomIds generalizing n with
  | nil => exact List.Pairwise.nil
  | cons roomId roomIds ih =>
      rw [buttonsFrom_cons, List.map_cons, List.pairwise_cons]
      refine ⟨?_, ih (n + 1)⟩
      intro bounds hmem point hfirst hother
      rcases List.mem_map.mp hmem with ⟨button, hbutton, rfl⟩
      rcases exists_cell_of_mem hbutton with ⟨k, hk, -, hbounds⟩
      rw [hbounds] at hother
      have hsame := eq_of_cell_covers hfirst hother
      omega

/-- The buttons of the menu of the rooms do not overlap. -/
theorem pairwise_buttons (roomIds : List UInt32) :
    (createButton :: (buttonsFrom 0 roomIds).map LobbyButton.bounds).Pairwise
      Rectangle.Apart := by
  refine List.pairwise_cons.mpr ⟨?_, pairwise_buttonsFrom 0 roomIds⟩
  intro bounds hmem
  rcases List.mem_map.mp hmem with ⟨button, hbutton, rfl⟩
  rcases exists_cell_of_mem hbutton with ⟨k, -, -, hbounds⟩
  rw [hbounds]
  exact createButton_apart k

/-- The rooms of the buttons. -/
theorem map_roomId_buttonsFrom (n : ℕ) (roomIds : List UInt16) :
    (buttonsFrom n (roomIds.map UInt16.toUInt32)).map LobbyButton.roomId = roomIds := by
  induction roomIds generalizing n with
  | nil => rfl
  | cons roomId roomIds ih =>
      rw [List.map_cons, buttonsFrom_cons, List.map_cons, ih, UInt16.toUInt16_toUInt32]

/-! ## What a frame sends -/

/-- What can be clicked in the menu of the rooms, and the room that is asked for then. -/
def offers (lobbyButtons : List LobbyButton) : List (Rectangle × ℕ) :=
  (createButton, 256) :: lobbyButtons.map fun lobbyButton =>
    (lobbyButton.bounds, lobbyButton.roomId.toNat)

theorem pairwise_offers (roomIds : List UInt32) :
    (offers (buttonsFrom 0 roomIds)).Pairwise fun offer offer' => offer.1.Apart offer'.1 := by
  have hbounds : (offers (buttonsFrom 0 roomIds)).map Prod.fst =
      createButton :: (buttonsFrom 0 roomIds).map LobbyButton.bounds := by
    rw [offers, List.map_cons, List.map_map]
    rfl
  have hapart := pairwise_buttons roomIds
  rwa [← hbounds, List.pairwise_map] at hapart

/-- Of elements that exclude each other, at most one is kept. -/
theorem length_filter_le_one {α : Type} {p : α → Bool} {l : List α}
    (h : l.Pairwise fun a b => p a = true → ¬ p b = true) : (l.filter p).length ≤ 1 := by
  induction l with
  | nil => exact Nat.zero_le 1
  | cons a l ih =>
      rw [List.pairwise_cons] at h
      by_cases ha : p a = true
      · have hrest : l.filter p = [] := List.filter_eq_nil_iff.mpr fun b hb => h.1 b hb ha
        rw [List.filter_cons_of_pos ha, hrest, List.length_singleton]
      · rw [List.filter_cons_of_neg ha]
        exact ih h.2

section

variable (check : Vector2 → Rectangle → Bool)

/-- The rooms that a frame asks to join. -/
def clicked (frame : Frame) (lobbyButtons : List LobbyButton) : List ℕ :=
  ((offers lobbyButtons).filter fun offer => render check frame offer.1).map Prod.snd

/-- The loop over the buttons. -/
theorem foldl_render (frame : Frame) (lobbyButtons : List LobbyButton) (menu : MenuRenderer) :
    lobbyButtons.foldl (fun menu lobbyButton =>
        if render check frame lobbyButton.bounds then
          menu.send (.join "username" lobbyButton.roomId.toNat)
        else menu) menu =
      { menu with outgoingQueue := menu.outgoingQueue ++
          ((lobbyButtons.filter fun lobbyButton => render check frame lobbyButton.bounds).map
            fun lobbyButton => .join "username" lobbyButton.roomId.toNat) } := by
  induction lobbyButtons generalizing menu with
  | nil => rw [List.filter_nil, List.map_nil, List.append_nil, List.foldl_nil]
  | cons lobbyButton lobbyButtons ih =>
      rw [List.foldl_cons, ih, List.filter_cons]
      split_ifs
      · rw [List.map_cons, List.append_cons]
        rfl
      · rfl

theorem showButtons_eq (menu : MenuRenderer) :
    menu.showButtons = { menu with lobbyButtons := menu.showButtons.lobbyButtons } := by
  unfold showButtons
  split_ifs
  · rfl
  · rfl

theorem renderLobbyList_eq (frame : Frame) (menu : MenuRenderer) :
    renderLobbyList check frame menu =
      { menu with
        lobbyButtons := menu.showButtons.lobbyButtons
        outgoingQueue := menu.outgoingQueue ++
          (clicked check frame menu.showButtons.lobbyButtons).map (.join "username") } := by
  rw [renderLobbyList, clicked, offers, showButtons_eq, List.filter_cons, List.filter_map,
    foldl_render]
  dsimp only
  split_ifs
  · rw [List.map_cons, List.map_cons, List.append_cons, List.map_map, List.map_map]
    rfl
  · rw [List.map_map, List.map_map]
    rfl

/-- What a frame does. -/
theorem apply_cases (frame : Frame) (menu : MenuRenderer) :
    apply check frame menu = menu ∨
      menu.toolbox.engine.menuState = menuLobby ∧ apply check frame menu = menu.send .start ∨
      menu.toolbox.engine.menuState = menuJoin ∧
        apply check frame menu = renderLobbyList check frame menu ∨
      menu.toolbox.engine.menuState = menuHome ∧
        apply check frame menu =
          { menu with toolbox := menu.toolbox.setMenuState menuJoin }.send (.lobbyList 0) := by
  unfold apply
  dsimp only
  split_ifs with hclosed hhome hjoin hlobby hlobby hjoin hlobby hlobby
  · exact .inl rfl
  · cases hhome.symm.trans hjoin
  · cases hhome.symm.trans hjoin
  · cases hhome.symm.trans hlobby
  · unfold renderHomeMenu
    split_ifs
    · exact .inr (.inr (.inr ⟨hhome, rfl⟩))
    · exact .inl rfl
  · cases hjoin.symm.trans hlobby
  · exact .inr (.inr (.inl ⟨hjoin, rfl⟩))
  · unfold renderPreGameMenu
    split_ifs
    · exact .inr (.inl ⟨hlobby, rfl⟩)
    · exact .inl rfl
  · exact .inl rfl

/-- In the menu of the rooms no more than one button is clicked. -/
theorem length_clicked_le_one
    (hcheck : ∀ point bounds, check point bounds = true → bounds.Covers point) (frame : Frame)
    (roomIds : List UInt32) : (clicked check frame (buttonsFrom 0 roomIds)).length ≤ 1 := by
  have hcovers : ∀ bounds, render check frame bounds = true → bounds.Covers frame.mouse := by
    intro bounds hrender
    rw [render, Bool.and_eq_true] at hrender
    exact hcheck _ _ hrender.1
  rw [clicked, List.length_map]
  apply length_filter_le_one
  apply (pairwise_offers roomIds).imp
  intro offer offer' hapart hoffer hoffer'
  exact hapart frame.mouse (hcovers _ hoffer) (hcovers _ hoffer')

end

/-! ## The rooms that are shown -/

section

variable {check : Vector2 → Rectangle → Bool} {menu menu' : MenuRenderer} {acts : List Act}

/-- All packets that have been sent or wait for it. -/
def packets (menu : MenuRenderer) : List Outgoing :=
  menu.sent ++ menu.outgoingQueue

theorem packets_send (menu : MenuRenderer) (packet : Outgoing) :
    (menu.send packet).packets = menu.packets ++ [packet] :=
  (List.append_assoc ..).symm

theorem packets_flush (menu : MenuRenderer) : menu.flush.packets = menu.packets :=
  List.append_nil _

theorem packets_renderLobbyList (frame : Frame) (menu : MenuRenderer) :
    (renderLobbyList check frame menu).packets = menu.packets ++
      (clicked check frame menu.showButtons.lobbyButtons).map (.join "username") := by
  rw [renderLobbyList_eq]
  exact (List.append_assoc ..).symm

/-- A packet of a lobby does not concern the menus themselves. -/
theorem step_packet {packet : Variant} (hstep : step check menu (.packet packet) = some menu') :
    ∃ toolbox, handle menu.toolbox packet = .ok toolbox ∧
      menu' = { menu with toolbox := toolbox } := by
  cases hok : handle menu.toolbox packet with
  | error fault =>
      rw [step, hok] at hstep
      cases hstep
  | ok toolbox =>
      rw [step, hok] at hstep
      exact ⟨toolbox, rfl, (Option.some.inj hstep).symm⟩

/-- A list of rooms that the client has at some time: that of the start, or one that came. -/
def Listed (acts : List Act) (roomIds : List UInt16) : Prop :=
  roomIds = [] ∨ ∃ page maxPage, Act.lobbyListAck roomIds page maxPage ∈ acts

theorem Listed.mono {roomIds : List UInt16} (h : Listed acts roomIds) (more : List Act) :
    Listed (acts ++ more) roomIds := by
  rcases h with hempty | ⟨page, maxPage, hack⟩
  · exact .inl hempty
  · exact .inr ⟨page, maxPage, List.mem_append_left more hack⟩

/-- The rooms that the menus know after some acts, those that they show, and those that they
have asked for. -/
structure Shows (acts : List Act) (menu : MenuRenderer) : Prop where
  lobby : ∃ roomIds, Listed acts roomIds ∧ menu.lobby.roomIds = roomIds.map UInt16.toUInt32
  buttons : ∃ roomIds, Listed acts roomIds ∧
    menu.lobbyButtons = buttonsFrom 0 (roomIds.map UInt16.toUInt32)
  joins : ∀ username room, .join username room ∈ menu.packets → username = "username" ∧
    (room = 256 ∨ ∃ roomId ∈ menu.lobbyButtons.map LobbyButton.roomId, room = roomId.toNat)

theorem Shows.new : Shows [] .new :=
  ⟨⟨[], .inl rfl, rfl⟩, ⟨[], .inl rfl, rfl⟩, fun _ _ hmem => (List.not_mem_nil hmem).elim⟩

theorem Shows.mono (h : Shows acts menu) (more : List Act) : Shows (acts ++ more) menu := by
  rcases h.lobby with ⟨known, hknown, hlobby⟩
  rcases h.buttons with ⟨shown, hshown, hbuttons⟩
  exact ⟨⟨known, hknown.mono more, hlobby⟩, ⟨shown, hshown.mono more, hbuttons⟩, h.joins⟩

theorem Shows.setToolbox (h : Shows acts menu) (toolbox : HandlerToolbox) :
    Shows acts { menu with toolbox := toolbox } :=
  ⟨h.lobby, h.buttons, h.joins⟩

/-- A packet that asks for no room changes nothing of this. -/
theorem Shows.send (h : Shows acts menu) {packet : Outgoing}
    (hplain : ∀ username room, packet ≠ .join username room) : Shows acts (menu.send packet) := by
  refine ⟨h.lobby, h.buttons, ?_⟩
  intro username room hmem
  rw [packets_send, List.mem_append, List.mem_singleton] at hmem
  rcases hmem with hmem | hnew
  · exact h.joins username room hmem
  · exact absurd hnew.symm (hplain username room)

theorem Shows.showButtons (h : Shows acts menu) : Shows acts menu.showButtons := by
  unfold MenuRenderer.showButtons
  split_ifs with hempty
  · rcases h.lobby with ⟨known, hknown, hlobby⟩
    refine ⟨h.lobby, ⟨known, hknown, ?_⟩, ?_⟩
    · rw [hlobby]
      rfl
    · intro username room hmem
      rcases h.joins username room hmem with ⟨husername, hroom | ⟨roomId, hshown, -⟩⟩
      · exact ⟨husername, .inl hroom⟩
      · rw [List.isEmpty_iff.mp hempty] at hshown
        cases hshown
  · exact h

theorem Shows.renderLobbyList (h : Shows acts menu) (frame : Frame) :
    Shows acts (renderLobbyList check frame menu) := by
  have hshown := h.showButtons
  have hpackets := @packets_renderLobbyList check frame menu
  rw [renderLobbyList_eq] at hpackets ⊢
  refine ⟨h.lobby, hshown.buttons, ?_⟩
  intro username room hmem
  rw [hpackets, List.mem_append] at hmem
  rcases hmem with hmem | hmem
  · rw [showButtons_eq] at hshown
    exact hshown.joins username room hmem
  · rcases List.mem_map.mp hmem with ⟨_, hclicked, hjoin⟩
    obtain ⟨rfl, rfl⟩ := Outgoing.join.inj hjoin
    refine ⟨rfl, ?_⟩
    rcases List.mem_map.mp hclicked with ⟨offer, hoffer, rfl⟩
    rcases List.mem_cons.mp (List.mem_filter.mp hoffer).1 with rfl | hbutton
    · exact .inl rfl
    · rcases List.mem_map.mp hbutton with ⟨lobbyButton, hlobbyButton, rfl⟩
      exact .inr ⟨lobbyButton.roomId, List.mem_map_of_mem hlobbyButton, rfl⟩

theorem Shows.step (h : Shows acts menu) {act : Act} (hstep : step check menu act = some menu') :
    Shows (acts ++ [act]) menu' := by
  have hmore := h.mono [act]
  cases act with
  | frame frame =>
      obtain rfl := Option.some.inj hstep
      rcases apply_cases check frame menu with hsame | ⟨-, hstart⟩ | ⟨-, hrooms⟩ | ⟨-, hplay⟩
      · rwa [hsame]
      · rw [hstart]
        exact hmore.send (by simp)
      · rw [hrooms]
        exact hmore.renderLobbyList frame
      · rw [hplay]
        exact (hmore.setToolbox _).send (by simp)
  | packet packet =>
      rcases step_packet hstep with ⟨toolbox, -, rfl⟩
      exact hmore.setToolbox toolbox
  | lobbyListAck roomIds page maxPage =>
      obtain rfl := Option.some.inj hstep
      have hlisted : Listed (acts ++ [.lobbyListAck roomIds page maxPage]) roomIds :=
        .inr ⟨page, maxPage, List.mem_append_right acts (List.mem_singleton_self _)⟩
      exact ⟨⟨roomIds, hlisted, rfl⟩, hmore.buttons, hmore.joins⟩
  | input inputMask =>
      obtain rfl := Option.some.inj hstep
      exact hmore.send (by simp)
  | flush =>
      obtain rfl := Option.some.inj hstep
      refine ⟨hmore.lobby, hmore.buttons, ?_⟩
      rw [packets_flush]
      exact hmore.joins
  | store ecs =>
      obtain rfl := Option.some.inj hstep
      exact hmore.setToolbox _

theorem shows_run (hrun : acts.foldlM (step check) .new = some menu) : Shows acts menu :=
  @Machines.foldlM_history _ _ (step check) (fun _ => True) Shows
    (fun _ _ _ _ hshows _ hstep => hshows.step hstep) _ _ _ hrun (fun _ _ => trivial) .new

/-- In every state that a run of the client reaches: a frame queues no more than one packet,
wherever the mouse is and whatever menu is shown, and the buttons of the rooms overlap neither
each other nor the button for a new room. -/
theorem one_packet_each_frame
    (hcheck : ∀ point bounds, check point bounds = true → bounds.Covers point)
    (hrun : acts.foldlM (step check) .new = some menu) (frame : Frame) :
    (∃ packets : List Outgoing, packets.length ≤ 1 ∧
      (apply check frame menu).outgoingQueue = menu.outgoingQueue ++ packets) ∧
      (createButton :: menu.lobbyButtons.map LobbyButton.bounds).Pairwise Rectangle.Apart := by
  have hshows := shows_run hrun
  have hshown := hshows.showButtons
  refine ⟨?_, ?_⟩
  · rcases apply_cases check frame menu with hsame | ⟨-, hstart⟩ | ⟨-, hrooms⟩ | ⟨-, hplay⟩
    · exact ⟨[], Nat.zero_le 1, by rw [hsame, List.append_nil]⟩
    · exact ⟨[.start], le_rfl, by rw [hstart]; rfl⟩
    · rcases hshown.buttons with ⟨roomIds, -, hbuttons⟩
      refine ⟨_, ?_, by rw [hrooms, renderLobbyList_eq]⟩
      rw [List.length_map, hbuttons]
      exact length_clicked_le_one check hcheck frame _
    · exact ⟨[.lobbyList 0], le_rfl, by rw [hplay]; rfl⟩
  · rcases hshows.buttons with ⟨roomIds, -, hbuttons⟩
    rw [hbuttons]
    exact pairwise_buttons _

/-- Buttons that are there stay. -/
theorem lobbyButtons_step {act : Act} (hstep : step check menu act = some menu')
    (hsome : menu.lobbyButtons ≠ []) : menu'.lobbyButtons = menu.lobbyButtons := by
  cases act with
  | frame frame =>
      obtain rfl := Option.some.inj hstep
      rcases apply_cases check frame menu with hsame | ⟨-, hstart⟩ | ⟨-, hrooms⟩ | ⟨-, hplay⟩
      · rw [hsame]
      · rw [hstart]
        rfl
      · have hfull : ¬ menu.lobbyButtons.isEmpty = true :=
          fun hempty => hsome (List.isEmpty_iff.mp hempty)
        rw [hrooms, renderLobbyList_eq, showButtons, if_neg hfull]
      · rw [hplay]
        rfl
  | packet packet =>
      rcases step_packet hstep with ⟨toolbox, -, rfl⟩
      rfl
  | lobbyListAck roomIds page maxPage =>
      obtain rfl := Option.some.inj hstep
      rfl
  | input inputMask =>
      obtain rfl := Option.some.inj hstep
      rfl
  | flush =>
      obtain rfl := Option.some.inj hstep
      rfl
  | store ecs =>
      obtain rfl := Option.some.inj hstep
      rfl

theorem lobbyButtons_run (hrun : acts.foldlM (step check) menu = some menu')
    (hsome : menu.lobbyButtons ≠ []) : menu'.lobbyButtons = menu.lobbyButtons := by
  apply @Machines.foldlM_invariant _ _ (step check) (fun _ => True)
    (fun next => next.lobbyButtons = menu.lobbyButtons) _ _ _ _ hrun (fun _ _ => trivial) rfl
  intro next act next' hnext _ hstep
  rw [lobbyButtons_step hstep (hnext ▸ hsome), hnext]

/-- In every run of the client: as soon as rooms are shown, they are those of one list that came
before, and they stay the same for the rest of the run, whatever lists come later; and all
requests to join are for one of them, or for a new room. -/
theorem rooms_offered {before : List Act} {menu₀ : MenuRenderer}
    (hbefore : before.foldlM (step check) .new = some menu₀) (hsome : menu₀.lobbyButtons ≠ [])
    (hrun : acts.foldlM (step check) menu₀ = some menu) :
    ∃ roomIds page maxPage, Act.lobbyListAck roomIds page maxPage ∈ before ∧
      menu₀.lobbyButtons.map LobbyButton.roomId = roomIds ∧
      menu.lobbyButtons = menu₀.lobbyButtons ∧
      ∀ username room, .join username room ∈ menu.packets → username = "username" ∧
        (room = 256 ∨ ∃ roomId ∈ roomIds, room = roomId.toNat) := by
  rcases (shows_run hbefore).buttons with ⟨roomIds, hlisted, hbuttons⟩
  have hsame := lobbyButtons_run hrun hsome
  have hwhole : (before ++ acts).foldlM (step check) .new = some menu := by
    rw [List.foldlM_append, hbefore]
    exact hrun
  have hrooms : menu₀.lobbyButtons.map LobbyButton.roomId = roomIds := by
    rw [hbuttons, map_roomId_buttonsFrom]
  have hjoins := (shows_run hwhole).joins
  rw [hsame, hrooms] at hjoins
  rcases hlisted with rfl | ⟨page, maxPage, hack⟩
  · exact absurd hbuttons hsome
  · exact ⟨roomIds, page, maxPage, hack, hrooms, hsame, hjoins⟩

/-- The server has answered the request for the first page when it had these rooms. -/
def Answered (acts : List Act) (listing : List ℕ) : Prop :=
  ∃ roomIds page maxPage, Act.lobbyListAck roomIds page maxPage ∈ acts ∧
    roomIds.map UInt16.toNat = Manager.getLobbiesId listing 0

theorem getLobbiesId_zero (listing : List ℕ) :
    Manager.getLobbiesId listing 0 = listing.take 20 :=
  Manager.getLobbiesId_eq listing 0

/-- In every run of the client in which all lists are pages that the server gives for the
request of the menus: no more than twenty rooms are shown, each button is in the box around
them, and all requests to join are for a new room or for one of the first twenty rooms that the
server had when it answered. -/
theorem rooms_fit (hrun : acts.foldlM (step check) .new = some menu)
    (hserver : ∀ roomIds page maxPage, Act.lobbyListAck roomIds page maxPage ∈ acts →
      ∃ listing, roomIds.map UInt16.toNat = Manager.getLobbiesId listing 0) :
    menu.lobbyButtons.length ≤ 20 ∧
      (∀ button ∈ menu.lobbyButtons, ∀ point,
        button.bounds.Covers point → roomBox.Covers point) ∧
      ∀ username room, .join username room ∈ menu.packets →
        room = 256 ∨ ∃ listing, Answered acts listing ∧ room ∈ listing.take 20 := by
  have hshows := shows_run hrun
  rcases hshows.buttons with ⟨roomIds, hlisted, hbuttons⟩
  have hrooms : menu.lobbyButtons.map LobbyButton.roomId = roomIds := by
    rw [hbuttons, map_roomId_buttonsFrom]
  have hfew : roomIds.length ≤ 20 := by
    rcases hlisted with rfl | ⟨page, maxPage, hack⟩
    · exact Nat.zero_le 20
    · rcases hserver roomIds page maxPage hack with ⟨listing, hlisting⟩
      rw [← List.length_map, hlisting, getLobbiesId_zero]
      exact List.length_take_le 20 listing
  refine ⟨?_, ?_, ?_⟩
  · rw [← List.length_map, hrooms]
    exact hfew
  · intro button hbutton point hpoint
    rw [hbuttons] at hbutton
    rcases exists_cell_of_mem hbutton with ⟨k, -, hk, hbounds⟩
    rw [List.length_map] at hk
    exact roomBox_covers (by omega) (hbounds ▸ hpoint)
  · intro username room hjoin
    rcases (hshows.joins username room hjoin).2 with hnew | ⟨roomId, hroomId, rfl⟩
    · exact .inl hnew
    · rw [hrooms] at hroomId
      rcases hlisted with rfl | ⟨page, maxPage, hack⟩
      · cases hroomId
      · rcases hserver roomIds page maxPage hack with ⟨listing, hlisting⟩
        refine .inr ⟨listing, ⟨roomIds, page, maxPage, hack, hlisting⟩, ?_⟩
        rw [← getLobbiesId_zero, ← hlisting]
        exact List.mem_map_of_mem hroomId

/-! ## The order of the requests -/

/-- The packets of the menus; the others are the inputs of the player. -/
def isRequest : Outgoing → Bool
  | .userInput _ => false
  | _ => true

/-- The requests that have been sent or wait for it. -/
def requests (menu : MenuRenderer) : List Outgoing :=
  menu.packets.filter isRequest

/-- A menu, and the requests that there may be while it is open. -/
inductive Phase (acts : List Act) : ℕ → List Outgoing → Prop
  | home : Phase acts menuHome []
  | join (rooms : List ℕ) : Phase acts menuJoin (.lobbyList 0 :: rooms.map (.join "username"))
  | lobby (asked : List Outgoing) (rooms : List ℕ) (starts : ℕ)
      (hasked : asked = [.lobbyList 0] ∨ asked = [] ∧ rooms = []) (packet : JoinAck)
      (hack : Act.packet (.joinAck packet) ∈ acts) :
      Phase acts menuLobby
        (asked ++ rooms.map (.join "username") ++ List.replicate starts .start)

theorem Phase.mono {menuState : ℕ} {queued : List Outgoing} (h : Phase acts menuState queued)
    (more : List Act) : Phase (acts ++ more) menuState queued := by
  cases h with
  | home => exact .home
  | join rooms => exact .join rooms
  | lobby asked rooms starts hasked packet hack =>
      exact .lobby asked rooms starts hasked packet (List.mem_append_left more hack)

/-- An acknowledgement of a player opens the last menu. -/
theorem Phase.joined {menuState : ℕ} {queued : List Outgoing} (h : Phase acts menuState queued)
    {packet : JoinAck} (hack : Act.packet (.joinAck packet) ∈ acts) :
    Phase acts menuLobby queued := by
  cases h with
  | home => exact .lobby [] [] 0 (.inr ⟨rfl, rfl⟩) packet hack
  | join rooms =>
      have hlobby := Phase.lobby [.lobbyList 0] rooms 0 (.inl rfl) packet hack
      rwa [List.replicate_zero, List.append_nil] at hlobby
  | lobby asked rooms starts hasked packet hack =>
      exact .lobby asked rooms starts hasked packet hack

theorem Phase.play {queued : List Outgoing} (h : Phase acts menuHome queued) :
    Phase acts menuJoin (queued ++ [.lobbyList 0]) := by
  cases h with
  | home => exact .join []

theorem Phase.clicked {queued : List Outgoing} (h : Phase acts menuJoin queued)
    (rooms : List ℕ) : Phase acts menuJoin (queued ++ rooms.map (.join "username")) := by
  cases h with
  | join rooms' =>
      rw [List.cons_append, ← List.map_append]
      exact .join (rooms' ++ rooms)

theorem Phase.start {queued : List Outgoing} (h : Phase acts menuLobby queued) :
    Phase acts menuLobby (queued ++ [.start]) := by
  cases h with
  | lobby asked rooms starts hasked packet hack =>
      rw [List.append_assoc, ← List.replicate_succ']
      exact .lobby asked rooms (starts + 1) hasked packet hack

theorem requests_send (menu : MenuRenderer) {packet : Outgoing} (h : isRequest packet = true) :
    (menu.send packet).requests = menu.requests ++ [packet] := by
  rw [requests, packets_send, List.filter_append, List.filter_singleton, h]
  rfl

theorem requests_input (menu : MenuRenderer) (inputMask : BitVec 8) :
    (menu.send (.userInput inputMask)).requests = menu.requests := by
  rw [requests, packets_send, List.filter_append]
  exact List.append_nil _

theorem requests_renderLobbyList (frame : Frame) (menu : MenuRenderer) :
    (renderLobbyList check frame menu).requests = menu.requests ++
      (MenuRenderer.clicked check frame menu.showButtons.lobbyButtons).map (.join "username") := by
  rw [requests, packets_renderLobbyList, List.filter_append]
  congr 1
  rw [List.filter_eq_self]
  intro packet hpacket
  rcases List.mem_map.mp hpacket with ⟨room, -, rfl⟩
  rfl

/-- The menu that is open fits to the requests so far. -/
def InPhase (acts : List Act) (menu : MenuRenderer) : Prop :=
  Phase acts menu.toolbox.engine.menuState menu.requests

theorem InPhase.frame (h : InPhase acts menu) (frame : Frame) :
    InPhase acts (apply check frame menu) := by
  unfold InPhase at h ⊢
  rcases apply_cases check frame menu with
    hsame | ⟨hlobby, hstart⟩ | ⟨hjoin, hrooms⟩ | ⟨hhome, hplay⟩
  · rwa [hsame]
  · rw [hstart, requests_send menu rfl]
    rw [hlobby] at h
    exact hlobby.symm ▸ h.start
  · have hstate : (renderLobbyList check frame menu).toolbox = menu.toolbox := by
      rw [renderLobbyList_eq]
    rw [hrooms, requests_renderLobbyList, hstate, hjoin]
    rw [hjoin] at h
    exact h.clicked _
  · rw [hplay, requests_send _ rfl]
    rw [hhome] at h
    exact h.play

theorem InPhase.packet (h : InPhase acts menu) {packet : Variant} {toolbox : HandlerToolbox}
    (hok : handle menu.toolbox packet = .ok toolbox) :
    InPhase (acts ++ [.packet packet]) { menu with toolbox := toolbox } := by
  have hmenu := (handle_registers hok).2
  have hmore := Phase.mono h [.packet packet]
  change Phase _ toolbox.engine.menuState menu.requests
  rw [hmenu]
  cases packet with
  | joinAck packet => exact hmore.joined (List.mem_append_right acts (List.mem_singleton_self _))
  | spawn packet => exact hmore
  | destroy packet => exact hmore
  | worldInit packet => exact hmore
  | updateGameState gameState => exact hmore

theorem InPhase.step (h : InPhase acts menu) {act : Act}
    (hstep : step check menu act = some menu') : InPhase (acts ++ [act]) menu' := by
  have hmore : InPhase (acts ++ [act]) menu := Phase.mono h [act]
  cases act with
  | frame frame =>
      obtain rfl := Option.some.inj hstep
      exact hmore.frame frame
  | packet packet =>
      rcases step_packet hstep with ⟨toolbox, hok, rfl⟩
      exact h.packet hok
  | lobbyListAck roomIds page maxPage =>
      obtain rfl := Option.some.inj hstep
      exact hmore
  | input inputMask =>
      obtain rfl := Option.some.inj hstep
      unfold InPhase
      rw [requests_input]
      exact hmore
  | flush =>
      obtain rfl := Option.some.inj hstep
      unfold InPhase requests
      rw [packets_flush]
      exact hmore
  | store ecs =>
      obtain rfl := Option.some.inj hstep
      exact hmore

theorem inPhase_run (hrun : acts.foldlM (MenuRenderer.step check) .new = some menu) :
    InPhase acts menu :=
  @Machines.foldlM_history _ _ (MenuRenderer.step check) (fun _ => True) InPhase
    (fun _ _ _ _ hphase _ hstep => hphase.step hstep) _ _ _ hrun (fun _ _ => trivial) .home

/-- The parts of the requests. -/
theorem Phase.split {menuState : ℕ} {queued : List Outgoing} (h : Phase acts menuState queued) :
    ∃ asked rooms starts,
      queued = asked ++ rooms.map (.join "username") ++ List.replicate starts .start ∧
      (asked = [.lobbyList 0] ∨ asked = [] ∧ rooms = []) ∧
      (starts ≠ 0 → ∃ packet, Act.packet (.joinAck packet) ∈ acts) := by
  cases h with
  | home => exact ⟨[], [], 0, rfl, .inr ⟨rfl, rfl⟩, fun hstarts => absurd rfl hstarts⟩
  | join rooms =>
      refine ⟨[.lobbyList 0], rooms, 0, ?_, .inl rfl, fun hstarts => absurd rfl hstarts⟩
      exact (List.append_nil _).symm
  | lobby asked rooms starts hasked packet hack =>
      exact ⟨asked, rooms, starts, rfl, hasked, fun _ => ⟨packet, hack⟩⟩

/-- In every run of the client, whatever is clicked and whatever comes from the server: the
menus ask for the list of rooms at most once, then to join rooms, and only after that to start a
game.  They ask to join only after they have asked for the list, and to start only after a
player was acknowledged. -/
theorem menus_in_order (hrun : acts.foldlM (MenuRenderer.step check) .new = some menu) :
    ∃ asked rooms starts,
      menu.requests = asked ++ rooms.map (.join "username") ++ List.replicate starts .start ∧
      (asked = [.lobbyList 0] ∨ asked = [] ∧ rooms = []) ∧
      (starts ≠ 0 → ∃ packet, Act.packet (.joinAck packet) ∈ acts) :=
  Phase.split (inPhase_run hrun)

end

/-! ## A client that looks for a room -/

/-- {lit}`CheckCollisionPointRec`. -/
def checkCollisionPointRec (point : Vector2) (bounds : Rectangle) : Bool :=
  decide (bounds.x ≤ point.x) && decide (point.x < bounds.x + bounds.width) &&
    decide (bounds.y ≤ point.y) && decide (point.y < bounds.y + bounds.height)

theorem covers_of_checkCollisionPointRec (point : Vector2) (bounds : Rectangle)
    (h : checkCollisionPointRec point bounds = true) : bounds.Covers point := by
  simp only [checkCollisionPointRec, Bool.and_eq_true, decide_eq_true_eq] at h
  exact ⟨h.1.1.1, h.1.1.2.le, h.1.2, h.2.le⟩

/-- A click. -/
def click (x y : ℚ) : Frame :=
  { mouse := ⟨x, y⟩, isMouseButtonDown := true, windowShouldClose := false }

/-- The player asks for the rooms, and sees those with the numbers 4 and 7. -/
def lookAtRooms : List Act :=
  [.frame (click 960 300), .lobbyListAck [4, 7] 0 1, .frame (click 0 0)]

/-- Another list comes, and the player clicks on the second room. -/
def clickSecond : List Act :=
  [.lobbyListAck [9] 0 1, .frame (click 500 400)]

/-- The player joins the second room, is acknowledged and starts the game. -/
def startGame : List Act :=
  lookAtRooms ++ [.frame (click 500 400), .packet (.spawn ⟨3, [63], []⟩),
    .packet (.joinAck ⟨3, 7, gameLobby, true⟩), .frame (click 960 500)]

/-- The client after acts that do not fail. -/
def after (menu : MenuRenderer) (acts : List Act) : MenuRenderer :=
  (acts.foldlM (step checkCollisionPointRec) menu).getD menu

theorem foldlM_after {menu : MenuRenderer} {acts : List Act}
    (hok : (acts.foldlM (step checkCollisionPointRec) menu).isSome = true) :
    acts.foldlM (step checkCollisionPointRec) menu = some (after menu acts) := by
  rcases Option.isSome_iff_exists.mp hok with ⟨menu', hrun⟩
  rw [after, hrun, Option.getD_some]

theorem foldlM_lookAtRooms :
    lookAtRooms.foldlM (step checkCollisionPointRec) .new = some (after .new lookAtRooms) :=
  rfl

theorem eq_of_mem_lookAtRooms {roomIds : List UInt16} {page maxPage : UInt32}
    (h : Act.lobbyListAck roomIds page maxPage ∈ lookAtRooms) : roomIds = [4, 7] := by
  simp only [lookAtRooms, List.mem_cons, reduceCtorEq, Act.lobbyListAck.injEq, List.not_mem_nil,
    or_false, false_or] at h
  exact h.1

theorem one_packet_each_frame_second :
    (apply checkCollisionPointRec (click 500 400) (after .new lookAtRooms)).outgoingQueue.length =
        2 ∧
      (∃ packets : List Outgoing, packets.length ≤ 1 ∧
        (apply checkCollisionPointRec (click 500 400) (after .new lookAtRooms)).outgoingQueue =
          (after .new lookAtRooms).outgoingQueue ++ packets) ∧
      (createButton :: (after .new lookAtRooms).lobbyButtons.map LobbyButton.bounds).Pairwise
        Rectangle.Apart := by
  exact ⟨by decide +kernel,
    one_packet_each_frame covers_of_checkCollisionPointRec foldlM_lookAtRooms (click 500 400)⟩

theorem rooms_offered_second :
    (after (after .new lookAtRooms) clickSecond).packets.length = 2 ∧
      (after (after .new lookAtRooms) clickSecond).lobbyButtons =
        (after .new lookAtRooms).lobbyButtons ∧
      ∀ username room,
        .join username room ∈ (after (after .new lookAtRooms) clickSecond).packets →
          room = 256 ∨ room = 4 ∨ room = 7 := by
  refine ⟨by decide +kernel, ?_⟩
  have hrun : clickSecond.foldlM (step checkCollisionPointRec) (after .new lookAtRooms) =
      some (after (after .new lookAtRooms) clickSecond) := rfl
  have hsome : (after .new lookAtRooms).lobbyButtons ≠ [] := by decide +kernel
  rcases rooms_offered foldlM_lookAtRooms hsome hrun with
    ⟨roomIds, page, maxPage, hack, -, hsame, hjoins⟩
  refine ⟨hsame, ?_⟩
  obtain rfl := eq_of_mem_lookAtRooms hack
  intro username room hjoin
  rcases (hjoins username room hjoin).2 with hnew | ⟨roomId, hroomId, rfl⟩
  · exact .inl hnew
  · simp only [List.mem_cons, List.not_mem_nil, or_false] at hroomId
    rcases hroomId with rfl | rfl
    · exact .inr (.inl rfl)
    · exact .inr (.inr rfl)

theorem rooms_fit_second :
    (after .new lookAtRooms).lobbyButtons.length = 2 ∧
      ∀ button ∈ (after .new lookAtRooms).lobbyButtons, ∀ point,
        button.bounds.Covers point → roomBox.Covers point := by
  have hserver : ∀ roomIds page maxPage, Act.lobbyListAck roomIds page maxPage ∈ lookAtRooms →
      ∃ listing, roomIds.map UInt16.toNat = Manager.getLobbiesId listing 0 := by
    intro roomIds page maxPage hack
    obtain rfl := eq_of_mem_lookAtRooms hack
    exact ⟨[4, 7], rfl⟩
  exact ⟨by decide +kernel, (rooms_fit foldlM_lookAtRooms hserver).2.1⟩

theorem menus_in_order_second :
    (after .new startGame).requests = [.lobbyList 0, .join "username" 7, .start] ∧
      ∃ asked rooms starts,
        (after .new startGame).requests =
          asked ++ rooms.map (.join "username") ++ List.replicate starts .start ∧
        (asked = [.lobbyList 0] ∨ asked = [] ∧ rooms = []) ∧
        (starts ≠ 0 → ∃ packet, Act.packet (.joinAck packet) ∈ startGame) := by
  have hrun : startGame.foldlM (step checkCollisionPointRec) .new =
      some (after .new startGame) := foldlM_after (by decide +kernel)
  exact ⟨by decide +kernel, menus_in_order hrun⟩

end MenuRenderer

end Rtype.Client
