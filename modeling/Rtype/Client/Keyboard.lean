import Mathlib
import Rtype.Rtecs.Rewriting
import Rtype.Client.Handlers

/-!
# Client - The keyboard

In each frame a system looks at the keys.  It keeps for each of them whether it is down and
whether that has changed since the last frame, and sends the keys of the player to the server.
Holding the key of the shot down is one shot, and holding a direction down is one packet in
each frame.

Main results:

- Function {lit}`IoSystem.apply`: the system, under the names of the source.
- Theorem {lit}`IoSystem.keys_sent`: in every run, the packets and the hitboxes that are shown
  say when keys were down and when they were pressed.

Current gaps:

- The mouse is left out; nothing reads what the system keeps of it.
-/

namespace Rtype.Client

open Rtype.Rtecs Rtype.Common Rtype.Server

/-! ## Buttons -/

namespace Button

/-- {lit}`button::STATE_CHANGED_BIT`. -/
def STATE_CHANGED_BIT : BitVec 8 := 0b10

/-- {lit}`button::State`: a number of 8 bits, which has names for four values. -/
abbrev State := BitVec 8

def UP : State := 0b00
def DOWN : State := 0b01
def RELEASED : State := 0b10
def PRESSED : State := 0b11

/-- {lit}`updateButtonState`, for a key that is down or not. -/
def updateButtonState (isDown : Bool) (previousState : State) : State :=
  let prevDown := previousState &&& DOWN == DOWN
  let out : BitVec 8 := if isDown != prevDown then STATE_CHANGED_BIT else 0
  out ||| (if isDown then 1 else 0)

/-- The state of a key that was down or not, and is down or not. -/
def stateOf (wasDown isDown : Bool) : State :=
  if isDown then (if wasDown then DOWN else PRESSED) else (if wasDown then RELEASED else UP)

/-- The truth table. -/
theorem updateButtonState_stateOf (older wasDown isDown : Bool) :
    updateButtonState isDown (stateOf older wasDown) = stateOf wasDown isDown := by
  cases older <;> cases wasDown <;> cases isDown <;> rfl

end Button

/-! ## The system -/

/-- The keys that are looked at. -/
inductive KeyboardKey
  | KEY_UP
  | KEY_DOWN
  | KEY_LEFT
  | KEY_RIGHT
  | KEY_SPACE
  | KEY_R
  | KEY_H
  deriving DecidableEq

/-- {lit}`IsKeyDown` in a frame. -/
abbrev Keyboard := KeyboardKey → Bool

/-- {lit}`IoValue`. -/
structure IoValue where
  up : Button.State := Button.UP
  down : Button.State := Button.UP
  left : Button.State := Button.UP
  right : Button.State := Button.UP
  action1 : Button.State := Button.UP
  action2 : Button.State := Button.UP
  hitbox : Button.State := Button.UP

/-- {lit}`packet::Variant` of the client. -/
inductive Outgoing
  | join (username : String) (roomId : ℕ)
  | start
  | userInput (inputMask : BitVec 8)
  | lobbyList (page : ℕ)
  deriving DecidableEq

/-- The system, the queue of {lit}`service::Network` and the store. -/
structure IoSystem where
  input : IoValue := {}
  shown : Bool := false
  outgoingQueue : List Outgoing := []
  ecs : ECS Comp

namespace IoSystem

/-- The states of all keys. -/
def updateKeys (keys : Keyboard) (input : IoValue) : IoValue where
  up := Button.updateButtonState (keys .KEY_UP) input.up
  down := Button.updateButtonState (keys .KEY_DOWN) input.down
  left := Button.updateButtonState (keys .KEY_LEFT) input.left
  right := Button.updateButtonState (keys .KEY_RIGHT) input.right
  action1 := Button.updateButtonState (keys .KEY_SPACE) input.action1
  action2 := Button.updateButtonState (keys .KEY_R) input.action2
  hitbox := Button.updateButtonState (keys .KEY_H) input.hitbox

/-- A key is being held down, or just got pressed. -/
def isHeld (state : Button.State) : Bool :=
  state == Button.DOWN || state == Button.PRESSED

/-- The mask of {lit}`packet::UserInput`. -/
def inputMask (input : IoValue) : BitVec 8 :=
  let mask : BitVec 8 := 0
  let mask := if isHeld input.up then mask ||| kUp else mask
  let mask := if isHeld input.down then mask ||| kDown else mask
  let mask := if isHeld input.left then mask ||| kLeft else mask
  let mask := if isHeld input.right then mask ||| kRight else mask
  if input.action1 == Button.PRESSED then mask ||| kShoot else mask

/-- The callback for the hitboxes. -/
def showHitbox (shown : Bool) (ecs : ECS Comp) (_id : ℕ) : List ℕ → Option (ECS Comp)
  | [hitboxRef] =>
      match ecs.instanceAt (.other .hitbox) hitboxRef with
      | some (h : Hitbox) => ecs.writeAt hitboxRef ⟨.other .hitbox, { h with shown := shown }⟩
      | none => none
  | _ => none

/-- The pass over the hitboxes. -/
def showHitboxes (shown : Bool) (ecs : ECS Comp) : Option (ECS Comp) :=
  (ecs.group [.other .hitbox]).apply (showHitbox shown) ecs

/-- The part of {lit}`IO::apply` for the key that shows the hitboxes. -/
def toggle (io : IoSystem) : Option IoSystem :=
  if io.input.hitbox == Button.PRESSED then
    (showHitboxes (!io.shown) io.ecs).map fun ecs => { io with shown := !io.shown, ecs := ecs }
  else
    some io

/-- The end of {lit}`IO::apply`. -/
def send (io : IoSystem) : IoSystem :=
  let mask := inputMask io.input
  if mask = 0 then io
  else { io with outgoingQueue := io.outgoingQueue ++ [.userInput mask] }

/-- {lit}`IO::apply`. -/
def apply (keys : Keyboard) (io : IoSystem) : Option IoSystem :=
  (toggle { io with input := updateKeys keys io.input }).map send

/-- Several frames. -/
def run (io : IoSystem) (frames : List Keyboard) : Option IoSystem :=
  frames.foldlM (fun io keys => io.apply keys) io

end IoSystem

/-! ## What the player does -/

/-- No key is down. -/
def noKeys : Keyboard := fun _ => false

/-- How often a key was pressed in several frames. -/
def presses (key : KeyboardKey) : Keyboard → List Keyboard → ℕ
  | _, [] => 0
  | before, keys :: frames =>
      (if keys key && !before key then 1 else 0) + presses key keys frames

/-- The directions that are held, and the shot that was just fired. -/
def wish (before keys : Keyboard) : BitVec 8 :=
  (if keys .KEY_UP then kUp else 0) ||| (if keys .KEY_DOWN then kDown else 0) |||
    (if keys .KEY_LEFT then kLeft else 0) ||| (if keys .KEY_RIGHT then kRight else 0) |||
    (if keys .KEY_SPACE && !before .KEY_SPACE then kShoot else 0)

/-- The wishes of several frames that are not empty. -/
def wishes : Keyboard → List Keyboard → List (BitVec 8)
  | _, [] => []
  | before, keys :: frames =>
      (if wish before keys = 0 then [] else [wish before keys]) ++ wishes keys frames

/-- Each press of the key is one wish to shoot. -/
theorem countP_wishes (before : Keyboard) (frames : List Keyboard) :
    (wishes before frames).countP (fun mask => mask &&& kShoot ≠ 0) =
      presses .KEY_SPACE before frames := by
  induction frames generalizing before with
  | nil => rfl
  | cons keys frames ih =>
      have hwish : wish before keys &&& kShoot ≠ 0 ↔
          (keys .KEY_SPACE && !before .KEY_SPACE) = true := by
        unfold wish
        generalize keys .KEY_UP = up, keys .KEY_DOWN = down, keys .KEY_LEFT = left,
          keys .KEY_RIGHT = right, (keys .KEY_SPACE && !before .KEY_SPACE) = shot
        revert up down left right shot
        decide
      rw [wishes, List.countP_append, ih, presses]
      congr 1
      by_cases hshot : (keys .KEY_SPACE && !before .KEY_SPACE) = true
      · have hbit := hwish.mpr hshot
        have hsome : wish before keys ≠ 0 := by
          intro hzero
          rw [hzero] at hbit
          exact hbit rfl
        rw [if_neg hsome, if_pos hshot, List.countP_singleton, if_pos (decide_eq_true hbit)]
      · have hbit : ¬ wish before keys &&& kShoot ≠ 0 := fun hbit => hshot (hwish.mp hbit)
        rw [if_neg hshot]
        split_ifs
        · rfl
        · rw [List.countP_singleton, if_neg]
          simpa using hbit

/-! ## What the system does -/

namespace IoSystem

/-- The states of the keys that were down in one frame and are down in the next one. -/
def keysOf (older before : Keyboard) : IoValue where
  up := Button.stateOf (older .KEY_UP) (before .KEY_UP)
  down := Button.stateOf (older .KEY_DOWN) (before .KEY_DOWN)
  left := Button.stateOf (older .KEY_LEFT) (before .KEY_LEFT)
  right := Button.stateOf (older .KEY_RIGHT) (before .KEY_RIGHT)
  action1 := Button.stateOf (older .KEY_SPACE) (before .KEY_SPACE)
  action2 := Button.stateOf (older .KEY_R) (before .KEY_R)
  hitbox := Button.stateOf (older .KEY_H) (before .KEY_H)

theorem updateKeys_keysOf (older before keys : Keyboard) :
    updateKeys keys (keysOf older before) = keysOf before keys := by
  simp only [updateKeys, keysOf, Button.updateButtonState_stateOf]

theorem isHeld_stateOf (wasDown isDown : Bool) :
    isHeld (Button.stateOf wasDown isDown) = isDown := by
  cases wasDown <;> cases isDown <;> rfl

theorem stateOf_eq_pressed (wasDown isDown : Bool) :
    (Button.stateOf wasDown isDown == Button.PRESSED) = (isDown && !wasDown) := by
  cases wasDown <;> cases isDown <;> rfl

theorem inputMask_keysOf (before keys : Keyboard) :
    inputMask (keysOf before keys) = wish before keys := by
  simp only [inputMask, keysOf, isHeld_stateOf, stateOf_eq_pressed, wish]
  generalize keys .KEY_UP = up, keys .KEY_DOWN = down, keys .KEY_LEFT = left,
    keys .KEY_RIGHT = right, (keys .KEY_SPACE && !before .KEY_SPACE) = shot
  revert up down left right shot
  decide

/-- A hitbox that is shown or not. -/
def showing (shown : Bool) (_e : ℕ) (instances : ∀ c, Option (Comp c)) : Option Hitbox :=
  (instances (.other .hitbox)).map fun h : Hitbox => { h with shown := shown }

theorem local_showHitbox (shown : Bool) :
    ECS.Local (showHitbox shown) [.other .hitbox] (.other .hitbox) (showing shown) := by
  intro ecs e references hown
  unfold ECS.OwnReferences at hown
  rcases hown with _ | ⟨hhitbox, _ | _⟩
  rcases ECS.exists_instanceAt hhitbox with ⟨(hitbox : Hitbox), hhitboxAt, hhitbox'⟩
  rcases ECS.gives_writeAt hhitbox ({ hitbox with shown := shown } : Hitbox) with
    ⟨ecs', hwrite, hgives⟩
  refine ⟨ecs', ?_, hgives.rewrites ?_⟩
  · simp only [showHitbox, hhitboxAt]
    exact hwrite
  · intro d hd
    subst hd
    simp only [showing, hhitbox']
    rfl

/-- All hitboxes are shown or not, and nothing else has changed. -/
structure Shows (shown : Bool) (ecs ecs' : ECS Comp) : Prop where
  only : ECS.WritesOnly ecs ecs'
  hitboxes : ∀ e, ecs'.getEntityComponent e (.other .hitbox) =
    (ecs.getEntityComponent e (.other .hitbox)).map fun h : Hitbox => { h with shown := shown }
  others : ∀ e c, c ≠ .other .hitbox → ecs'.getEntityComponent e c = ecs.getEntityComponent e c

theorem Shows.again {shown shown' : Bool} {ecs ecs' ecs'' : ECS Comp} (h : Shows shown ecs ecs')
    (h' : Shows shown' ecs' ecs'') : Shows shown' ecs ecs'' := by
  constructor
  · exact h.only.trans h'.only
  · intro e
    rw [h'.hitboxes, h.hitboxes]
    exact Option.map_map _ _ _
  · intro e c hc
    rw [h'.others e c hc, h.others e c hc]

theorem showHitboxes_shows (shown : Bool) (ecs : ECS Comp) :
    ∃ ecs', showHitboxes shown ecs = some ecs' ∧ Shows shown ecs ecs' := by
  rcases ECS.apply_rewrites (local_showHitbox shown) ecs with ⟨ecs', hpass, hrewrites⟩
  refine ⟨ecs', hpass, hrewrites.only, ?_, hrewrites.others⟩
  intro e
  by_cases hhitbox : ∀ b ∈ [GameComponent.other .hitbox],
      (ecs.getEntityComponent e b).isSome = true
  · exact hrewrites.given e hhitbox
  · rw [hrewrites.spared e hhitbox]
    simp only [List.mem_singleton, forall_eq, Bool.not_eq_true, Option.isSome_eq_false_iff,
      Option.isNone_iff_eq_none] at hhitbox
    rw [hhitbox]
    rfl

/-- What several presses of the key that shows the hitboxes do. -/
def Toggled (times : ℕ) (io io' : IoSystem) : Prop :=
  io'.shown = (io.shown ^^ decide (times % 2 = 1)) ∧
    (times = 0 → io'.ecs = io.ecs) ∧ (times ≠ 0 → Shows io'.shown io.ecs io'.ecs)

theorem Toggled.trans {times times' : ℕ} {io io' io'' : IoSystem} (h : Toggled times io io')
    (h' : Toggled times' io' io'') : Toggled (times + times') io io'' := by
  rcases h with ⟨hshown, hnever, hsome⟩
  rcases h' with ⟨hshown', hnever', hsome'⟩
  refine ⟨?_, ?_, ?_⟩
  · rw [hshown', hshown, Bool.xor_assoc]
    congr 1
    rcases Nat.mod_two_eq_zero_or_one times with heven | hodd <;>
      rcases Nat.mod_two_eq_zero_or_one times' with heven' | hodd' <;>
      simp [Nat.add_mod, *]
  · intro hzero
    rw [hnever' (by omega), hnever (by omega)]
  · intro hpositive
    by_cases hlater : times' = 0
    · have hshown'' : io''.shown = io'.shown := by simp [hshown', hlater]
      rw [hnever' hlater, hshown'']
      exact hsome (by omega)
    · by_cases hearlier : times = 0
      · rw [← hnever hearlier]
        exact hsome' hlater
      · exact (hsome hearlier).again (hsome' hlater)

/-- The key that shows the hitboxes. -/
theorem exists_toggle {io : IoSystem} {before keys : Keyboard}
    (hinput : io.input = keysOf before keys) :
    ∃ io', io.toggle = some io' ∧ io'.input = io.input ∧
      io'.outgoingQueue = io.outgoingQueue ∧ Toggled (presses .KEY_H before [keys]) io io' := by
  have hpressed : (io.input.hitbox == Button.PRESSED) = (keys .KEY_H && !before .KEY_H) := by
    rw [hinput]
    exact stateOf_eq_pressed _ _
  unfold toggle
  rw [hpressed]
  simp only [presses, Nat.add_zero]
  split_ifs
  · rcases showHitboxes_shows (!io.shown) io.ecs with ⟨ecs', hpass, hshows⟩
    rw [hpass, Option.map_some]
    refine ⟨_, rfl, rfl, rfl, ?_, ?_, fun _ => hshows⟩
    · simp
    · intro hzero
      cases hzero
  · refine ⟨_, rfl, rfl, rfl, ?_, fun _ => rfl, fun hne => absurd rfl hne⟩
    simp

/-- One frame. -/
theorem exists_apply {io : IoSystem} {older before : Keyboard}
    (hinput : io.input = keysOf older before) (keys : Keyboard) :
    ∃ io', io.apply keys = some io' ∧ io'.input = keysOf before keys ∧
      io'.outgoingQueue = io.outgoingQueue ++ (wishes before [keys]).map .userInput ∧
      Toggled (presses .KEY_H before [keys]) io io' := by
  have hkeys : updateKeys keys io.input = keysOf before keys := by
    rw [hinput, updateKeys_keysOf]
  rcases @exists_toggle { io with input := updateKeys keys io.input } before keys hkeys with
    ⟨toggled, htoggle, hsame, hqueue, htoggled⟩
  rw [apply, htoggle, Option.map_some]
  refine ⟨_, rfl, ?_⟩
  have hmask : inputMask toggled.input = wish before keys := by
    rw [hsame, hkeys, inputMask_keysOf]
  simp only [send, hmask, wishes, List.append_nil]
  split_ifs
  · refine ⟨hsame.trans hkeys, ?_, htoggled⟩
    rw [hqueue, List.map_nil, List.append_nil]
  · refine ⟨hsame.trans hkeys, ?_, htoggled⟩
    rw [hqueue, List.map_singleton]

/-- Several frames. -/
theorem exists_run {io : IoSystem} {older before : Keyboard}
    (hinput : io.input = keysOf older before) (frames : List Keyboard) :
    ∃ io', io.run frames = some io' ∧
      io'.outgoingQueue = io.outgoingQueue ++ (wishes before frames).map .userInput ∧
      Toggled (presses .KEY_H before frames) io io' := by
  induction frames generalizing io older before with
  | nil =>
      refine ⟨io, rfl, (List.append_nil _).symm, ?_, fun _ => rfl, fun hne => absurd rfl hne⟩
      simp [presses]
  | cons keys frames ih =>
      rcases exists_apply hinput keys with ⟨io₁, happly, hinput₁, hqueue₁, htoggled₁⟩
      rcases ih hinput₁ with ⟨io', hrun, hqueue, htoggled⟩
      have hwishes : wishes before (keys :: frames) =
          wishes before [keys] ++ wishes keys frames := by
        simp only [wishes, List.append_nil]
      have hpresses : presses .KEY_H before (keys :: frames) =
          presses .KEY_H before [keys] + presses .KEY_H keys frames := by
        simp only [presses, Nat.add_zero]
      refine ⟨io', ?_, ?_, ?_⟩
      · rw [run, List.foldlM_cons, happly]
        exact hrun
      · rw [hqueue, hqueue₁, hwishes, List.map_append, List.append_assoc]
      · rw [hpresses]
        exact htoggled₁.trans htoggled

/-- In every run of the system over any frames, from the state of the program's start: it never
fails; the packets that it queues are the wishes of the frames in their order, where a held
direction is in each frame and a shot only in the frame of its press; and the hitboxes are
shown when the key for that was pressed an odd number of times, and nothing else changes. -/
theorem keys_sent (ecs : ECS Comp) (queue : List Outgoing) (frames : List Keyboard) :
    ∃ io', IoSystem.run { ecs := ecs, outgoingQueue := queue } frames = some io' ∧
      io'.outgoingQueue = queue ++ (wishes noKeys frames).map .userInput ∧
      (wishes noKeys frames).countP (fun mask => mask &&& kShoot ≠ 0) =
        presses .KEY_SPACE noKeys frames ∧
      io'.shown = decide (presses .KEY_H noKeys frames % 2 = 1) ∧
      (presses .KEY_H noKeys frames = 0 → io'.ecs = ecs) ∧
      (presses .KEY_H noKeys frames ≠ 0 → Shows io'.shown ecs io'.ecs) := by
  have hinput : IoSystem.input { ecs := ecs, outgoingQueue := queue } =
      keysOf noKeys noKeys := rfl
  rcases exists_run hinput frames with ⟨io', hrun, hqueue, hshown, hnever, hsome⟩
  refine ⟨io', hrun, hqueue, countP_wishes noKeys frames, ?_, hnever, hsome⟩
  rw [hshown, Bool.false_xor]

end IoSystem

end Rtype.Client
