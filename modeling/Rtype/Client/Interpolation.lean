import Mathlib
import Rtype.Foundations.Approach
import Rtype.Rtecs.Rewriting
import Rtype.Server.UpdatedMovements

/-!
# Client - Drawing the entities where the server says

The client does not put an entity where the server says, but draws it on its way there.  A
packet with a position that is not far away sets the target of the entity, and each frame
takes the drawn position a part of the way to the target.  A packet with a position that is
far away sets the drawn position itself, and leaves the target as it is.

Main results:

- Theorem {lit}`apply_view`: what a frame does to all entities.
- Theorem {lit}`handleUpdatePosition_view`: what a packet does to all entities.
- Theorem {lit}`drawn_within`: in every run, an entity is drawn within the bounds of the
  positions that the server has told.
- Theorem {lit}`settles`: where an entity comes to rest, which is not always where the server
  says.

Current gaps:

- Positions and velocities are exact numbers.
-/

namespace Rtype.Client.Interpolation

open Rtype.Rtecs Rtype.Server
open ApplyMovement (Position Velocity)
open Std (ExtTreeMap)

/-! ## The components -/

/-- {lit}`components::TargetPos`. -/
structure TargetPos where
  x : ℚ
  y : ℚ

/-- The component types that are used here, and all the others. -/
inductive Part (κ : Type)
  | position
  | velocity
  | targetPos
  | other (c : κ)
  deriving DecidableEq

/-- The instances of these component types. -/
def PartInstance {κ : Type} (Other : κ → Type) : Part κ → Type
  | .position => Position
  | .velocity => Velocity
  | .targetPos => TargetPos
  | .other c => Other c

variable {κ : Type} {Other : κ → Type}

/-- The stores of the client. -/
abbrev Store (Other : κ → Type) :=
  ECS (PartInstance Other)

/-! ## The system -/

/-- {lit}`interpolationSpeed`. -/
def interpolationSpeed : ℚ := 10

/-- The callback of {lit}`Interpolation::apply`, after a frame that took {lit}`dt` seconds. -/
def interpolate (dt : ℚ) (position : Position) (targetPosition : TargetPos) : Position :=
  let x := position.x + (targetPosition.x - position.x) * interpolationSpeed * dt
  let y := position.y + (targetPosition.y - position.y) * interpolationSpeed * dt
  { position with
    x := if |targetPosition.x - x| < 1 / 10 then targetPosition.x else x
    y := if |targetPosition.y - y| < 1 / 10 then targetPosition.y else y }

section

variable [DecidableEq κ]

/-- The callback with its references. -/
def visit (dt : ℚ) (ecs : Store Other) (_id : ℕ) : List ℕ → Option (Store Other)
  | [posRef, targetRef] =>
      match ecs.instanceAt .position posRef, ecs.instanceAt .targetPos targetRef with
      | some (position : Position), some (targetPosition : TargetPos) =>
          ecs.writeAt posRef ⟨.position, interpolate dt position targetPosition⟩
      | _, _ => none
  | _ => none

/-- {lit}`Interpolation::apply`. -/
def apply (dt : ℚ) (ecs : Store Other) : Option (Store Other) :=
  (ecs.group [.position, .targetPos]).apply (visit dt) ecs

end

/-! ## The handler -/

/-- What the handlers of positions use of {lit}`client::HandlerToolbox`. -/
structure Toolbox (Other : κ → Type) where
  ecs : Store Other
  serverToClient : ExtTreeMap ℕ ℕ

/-- A position that is too far away to be reached smoothly. -/
def isFar (packet : UpdatePosition) (position : Position) : Bool :=
  let dx := packet.x - position.x
  let dy := packet.y - position.y
  decide (dx * dx + dy * dy > 300 * 300)

section

variable [DecidableEq κ]

/-- The first part of {lit}`handleUpdatePosition`. -/
def writePosition (packet : UpdatePosition) (id : ℕ) (ecs : Store Other) :
    Option (Store Other) :=
  let positions := ecs.group [.position, .targetPos]
  match (positions.views .position).atKey id, (positions.views .targetPos).atKey id with
  | some posRef, some targetRef =>
      match ecs.instanceAt .position posRef, ecs.instanceAt .targetPos targetRef with
      | some (pos : Position), some (target : TargetPos) =>
          if isFar packet pos then
            ecs.writeAt posRef ⟨.position, { pos with x := packet.x, y := packet.y }⟩
          else
            ecs.writeAt targetRef ⟨.targetPos, { target with x := packet.x, y := packet.y }⟩
      | _, _ => none
  | _, _ => some ecs

/-- The second part of {lit}`handleUpdatePosition`. -/
def writeVelocity (packet : UpdatePosition) (id : ℕ) (ecs : Store Other) :
    Option (Store Other) :=
  match ((ecs.group [.velocity]).views .velocity).atKey id with
  | some velRef =>
      match ecs.instanceAt .velocity velRef with
      | some (vel : Velocity) =>
          ecs.writeAt velRef ⟨.velocity, { vel with vx := packet.vx, vy := packet.vy }⟩
      | none => none
  | none => some ecs

/-- {lit}`handleUpdatePosition`. -/
def handleUpdatePosition (packet : UpdatePosition) (toolbox : Toolbox Other) :
    Option (Toolbox Other) :=
  match toolbox.serverToClient[packet.id]? with
  | none => some toolbox
  | some id =>
      match writePosition packet id toolbox.ecs with
      | none => none
      | some ecs =>
          (writeVelocity packet id ecs).map fun ecs => { toolbox with ecs := ecs }

end

/-! ## The view of an entity -/

/-- Where an entity is drawn, and where it goes. -/
structure View where
  drawn : ℚ × ℚ
  target : ℚ × ℚ
  deriving DecidableEq

/-- The view of an entity that has both components. -/
def view (ecs : Store Other) (e : ℕ) : Option View :=
  match ecs.getEntityComponent e .position, ecs.getEntityComponent e .targetPos with
  | some (position : Position), some (target : TargetPos) =>
      some { drawn := (position.x, position.y), target := (target.x, target.y) }
  | _, _ => none

/-- A frame. -/
def View.frame (dt : ℚ) (v : View) : View where
  drawn := (Approach.approach (1 / 10) v.target.1 v.drawn.1 (interpolationSpeed * dt),
    Approach.approach (1 / 10) v.target.2 v.drawn.2 (interpolationSpeed * dt))
  target := v.target

/-- The square of a distance. -/
def View.distance (v : View) (place : ℚ × ℚ) : ℚ :=
  (place.1 - v.drawn.1) * (place.1 - v.drawn.1) + (place.2 - v.drawn.2) * (place.2 - v.drawn.2)

/-- A packet. -/
def View.update (place : ℚ × ℚ) (v : View) : View :=
  if v.distance place > 300 * 300 then { v with drawn := place } else { v with target := place }

/-! ## The view of an entity over several steps -/

/-- What happens on the main thread: frames, packets with positions, and everything else. -/
inductive Action
  | frame (dt : ℚ)
  | update (packet : UpdatePosition)
  | other

/-- The position of a packet. -/
def place (packet : UpdatePosition) : ℚ × ℚ :=
  (packet.x, packet.y)

/-- What an action does to the view of an entity. -/
def View.act (isBound : ℕ → Bool) (v : View) : Action → View
  | .frame dt => v.frame dt
  | .update packet => if isBound packet.id then v.update (place packet) else v
  | .other => v

/-- An entity is drawn within bounds, and goes to a place within them. -/
def View.Within (lo hi : ℚ × ℚ) (v : View) : Prop :=
  v.drawn ∈ Set.Icc lo hi ∧ v.target ∈ Set.Icc lo hi

theorem within_frame {lo hi : ℚ × ℚ} {v : View} (h : v.Within lo hi) {dt : ℚ}
    (hdt : 0 ≤ dt ∧ dt ≤ 1 / 10) : (v.frame dt).Within lo hi := by
  have hpart : 0 ≤ interpolationSpeed * dt ∧ interpolationSpeed * dt ≤ 1 := by
    unfold interpolationSpeed
    constructor <;> linarith [hdt.1, hdt.2]
  rcases h with ⟨⟨hlo, hhi⟩, ⟨hlo', hhi'⟩⟩
  have hx := Set.uIcc_subset_Icc ⟨hlo.1, hhi.1⟩ ⟨hlo'.1, hhi'.1⟩
    (@Approach.approach_mem_uIcc ℚ _ _ _ (1 / 10) v.target.1 v.drawn.1 _ hpart)
  have hy := Set.uIcc_subset_Icc ⟨hlo.2, hhi.2⟩ ⟨hlo'.2, hhi'.2⟩
    (@Approach.approach_mem_uIcc ℚ _ _ _ (1 / 10) v.target.2 v.drawn.2 _ hpart)
  exact ⟨⟨⟨hx.1, hy.1⟩, ⟨hx.2, hy.2⟩⟩, ⟨hlo', hhi'⟩⟩

theorem within_update {lo hi : ℚ × ℚ} {v : View} (h : v.Within lo hi) {target : ℚ × ℚ}
    (htarget : target ∈ Set.Icc lo hi) : (v.update target).Within lo hi := by
  unfold View.update
  split_ifs
  · exact ⟨htarget, h.2⟩
  · exact ⟨h.1, htarget⟩

theorem within_foldl {isBound : ℕ → Bool} {actions : List Action} {lo hi : ℚ × ℚ} {v : View}
    (hin : v.Within lo hi) (hframes : ∀ dt, Action.frame dt ∈ actions → 0 ≤ dt ∧ dt ≤ 1 / 10)
    (hpackets : ∀ packet, Action.update packet ∈ actions → isBound packet.id = true →
      place packet ∈ Set.Icc lo hi) :
    (actions.foldl (View.act isBound) v).Within lo hi := by
  induction actions generalizing v with
  | nil => exact hin
  | cons a actions ih =>
      apply ih
      · cases a with
        | frame dt => exact within_frame hin (hframes dt List.mem_cons_self)
        | update packet =>
            simp only [View.act]
            split_ifs with hbound
            · exact within_update hin (hpackets packet List.mem_cons_self hbound)
            · exact hin
        | other => exact hin
      · exact fun dt hdt => hframes dt (List.mem_cons_of_mem a hdt)
      · exact fun packet hpacket => hpackets packet (List.mem_cons_of_mem a hpacket)

/-- The durations of the frames. -/
def frames (actions : List Action) : List ℚ :=
  actions.filterMap fun
    | .frame dt => some dt
    | _ => none

theorem mem_frames {dt : ℚ} : dt ∈ frames actions ↔ Action.frame dt ∈ actions := by
  rw [frames, List.mem_filterMap]
  constructor
  · rintro ⟨a, ha, hdt⟩
    cases a with
    | frame dt' =>
        obtain rfl := Option.some.inj hdt
        exact ha
    | update packet => cases hdt
    | other => cases hdt
  · intro hdt
    exact ⟨_, hdt, rfl⟩

/-- Without packets for the entity, only the frames matter. -/
theorem foldl_act_eq {isBound : ℕ → Bool} {actions : List Action} {v : View}
    (hpackets : ∀ packet, Action.update packet ∈ actions → isBound packet.id = false) :
    actions.foldl (View.act isBound) v = (frames actions).foldl (fun v dt => v.frame dt) v := by
  induction actions generalizing v with
  | nil => rfl
  | cons a actions ih =>
      have hrest := @ih (v.act isBound a) fun packet hpacket =>
        hpackets packet (List.mem_cons_of_mem a hpacket)
      rw [List.foldl_cons, hrest]
      cases a with
      | frame dt => rfl
      | update packet =>
          rw [View.act, hpackets packet List.mem_cons_self]
          rfl
      | other => rfl

/-- The two axes of several frames. -/
theorem foldl_frame_eq (dts : List ℚ) (v : View) :
    dts.foldl (fun v dt => v.frame dt) v =
      { drawn := ((dts.map (interpolationSpeed * ·)).foldl
          (Approach.approach (1 / 10) v.target.1) v.drawn.1,
          (dts.map (interpolationSpeed * ·)).foldl
            (Approach.approach (1 / 10) v.target.2) v.drawn.2)
        target := v.target } := by
  induction dts generalizing v with
  | nil => rfl
  | cons dt dts ih =>
      rw [List.foldl_cons, ih]
      rfl

/-! ## The view of an entity in the store -/

variable {ecs ecs' : Store Other} {e : ℕ}

theorem view_of_same (hposition : ecs'.getEntityComponent e .position =
    ecs.getEntityComponent e .position) (htarget : ecs'.getEntityComponent e .targetPos =
    ecs.getEntityComponent e .targetPos) : view ecs' e = view ecs e := by
  rw [view, view, hposition, htarget]

/-- The view after an interpolation. -/
theorem view_interpolate {position : Position} {target : TargetPos} {dt : ℚ}
    (hposition : ecs'.getEntityComponent e .position =
      some (interpolate dt position target : Position))
    (htarget : ecs'.getEntityComponent e .targetPos = some target) :
    view ecs' e = some (View.frame dt
      { drawn := (position.x, position.y), target := (target.x, target.y) }) := by
  simp only [view, hposition, htarget, interpolate, View.frame, Approach.approach, mul_assoc]

/-- The view of an entity with both components. -/
theorem view_of_some {position : Position} {target : TargetPos}
    (hposition : ecs.getEntityComponent e .position = some position)
    (htarget : ecs.getEntityComponent e .targetPos = some target) :
    view ecs e = some { drawn := (position.x, position.y), target := (target.x, target.y) } := by
  simp only [view, hposition, htarget]

/-- Without one of the components there is nothing to see. -/
theorem view_of_not_both (h : ¬ ∀ b ∈ [Part.position, .targetPos],
    (ecs.getEntityComponent e b).isSome = true) : view ecs e = none := by
  unfold view
  split
  · rename_i position target hposition htarget
    refine absurd ?_ h
    intro b hb
    simp only [List.mem_cons, List.not_mem_nil, or_false] at hb
    rcases hb with rfl | rfl
    · exact Option.isSome_of_eq_some hposition
    · exact Option.isSome_of_eq_some htarget
  · rfl

/-! ## What the system does -/

section

variable [DecidableEq κ]

/-- The new position of an entity. -/
def drawn (dt : ℚ) (_e : ℕ) (instances : ∀ c : Part κ, Option (PartInstance Other c)) :
    Option Position :=
  match instances .position, instances .targetPos with
  | some (position : Position), some (target : TargetPos) =>
      some (interpolate dt position target)
  | _, _ => none

theorem local_visit (dt : ℚ) :
    ECS.Local (visit dt : Store Other → ℕ → List ℕ → Option (Store Other))
      [.position, .targetPos] .position (drawn dt) := by
  intro ecs e references hown
  unfold ECS.OwnReferences at hown
  rcases hown with _ | ⟨hposition, _ | ⟨htarget, _ | _⟩⟩
  rcases ECS.exists_instanceAt hposition with ⟨(position : Position), hpositionAt, hposition'⟩
  rcases ECS.exists_instanceAt htarget with ⟨(target : TargetPos), htargetAt, htarget'⟩
  rcases ECS.gives_writeAt hposition (interpolate dt position target : Position) with
    ⟨ecs', hwrite, hgives⟩
  refine ⟨ecs', ?_, hgives.rewrites ?_⟩
  · simp only [visit, hpositionAt, htargetAt]
    exact hwrite
  · intro d hd
    subst hd
    simp only [drawn, hposition', htarget']
    rfl

/-- A frame never fails, and takes every entity a part of its way. -/
theorem apply_view (dt : ℚ) (ecs : Store Other) :
    ∃ ecs', apply dt ecs = some ecs' ∧ ECS.WritesOnly ecs ecs' ∧
      ∀ e, view ecs' e = (view ecs e).map (View.frame dt) := by
  rcases ECS.apply_rewrites (local_visit dt) ecs with ⟨ecs', hpass, hrewrites⟩
  refine ⟨ecs', hpass, hrewrites.only, ?_⟩
  intro e
  have htarget := hrewrites.others e .targetPos (by simp)
  by_cases hboth : ∀ b ∈ [Part.position, .targetPos], (ecs.getEntityComponent e b).isSome = true
  · rcases Option.isSome_iff_exists.mp (hboth .position (by simp)) with ⟨position, hposition⟩
    rcases Option.isSome_iff_exists.mp (hboth .targetPos (by simp)) with ⟨target, htarget'⟩
    have hnew := hrewrites.given e hboth
    simp only [drawn, hposition, htarget'] at hnew
    rw [view_interpolate hnew (htarget.trans htarget'), view_of_some hposition htarget',
      Option.map_some]
  · rw [view_of_same (hrewrites.spared e hboth) htarget, view_of_not_both hboth, Option.map_none]

/-! ## What the handler does -/

theorem isFar_eq (packet : UpdatePosition) (position : Position) (target : ℚ × ℚ) :
    isFar packet position =
      decide (View.distance { drawn := (position.x, position.y), target := target }
        (place packet) > 300 * 300) :=
  rfl

/-- A packet in the view of its entity. -/
theorem update_view (packet : UpdatePosition) (position : Position) (target : TargetPos) :
    View.update (place packet)
        { drawn := (position.x, position.y), target := (target.x, target.y) } =
      if isFar packet position = true then
        { drawn := place packet, target := (target.x, target.y) }
      else { drawn := (position.x, position.y), target := place packet } := by
  rw [View.update, isFar_eq packet position (target.x, target.y)]
  simp only [decide_eq_true_eq]

/-- The first part never fails, and changes the view of its entity only. -/
theorem writePosition_view (packet : UpdatePosition) (id : ℕ) (ecs : Store Other) :
    ∃ ecs', writePosition packet id ecs = some ecs' ∧
      ∀ e, view ecs' e =
        if e = id then (view ecs e).map (View.update (place packet)) else view ecs e := by
  have hatPosition := @ECS.atKey_group _ _ _ ecs .position .position [.targetPos] (by simp) id
  have hatTarget := @ECS.atKey_group _ _ _ ecs .targetPos .position [.targetPos] (by simp) id
  by_cases hboth : ∀ b ∈ [Part.position, .targetPos], (ecs.getEntityComponent id b).isSome = true
  · rw [if_pos hboth] at hatPosition hatTarget
    have hsome : ∀ b ∈ [Part.position, .targetPos],
        ∃ reference, ecs.position b id = some reference := by
      intro b hb
      rw [← Option.isSome_iff_exists, ← ECS.hasComponent_eq, ECS.hasComponent_eq_isSome_get]
      exact hboth b hb
    rcases hsome .position (by simp) with ⟨posRef, hposRef⟩
    rcases hsome .targetPos (by simp) with ⟨targetRef, htargetRef⟩
    rcases ECS.exists_instanceAt hposRef with ⟨(position : Position), hpositionAt, hposition⟩
    rcases ECS.exists_instanceAt htargetRef with ⟨(target : TargetPos), htargetAt, htarget⟩
    have hbefore := view_of_some hposition htarget
    simp only [writePosition, hatPosition, hatTarget, hposRef, htargetRef, hpositionAt, htargetAt]
    by_cases hfar : isFar packet position = true
    · rcases ECS.gives_writeAt hposRef ({ position with x := packet.x, y := packet.y } : Position)
        with ⟨ecs', hwrite, hgives⟩
      refine ⟨ecs', by rw [if_pos hfar]; exact hwrite, ?_⟩
      intro e
      split_ifs with he
      · subst he
        rw [hbefore, Option.map_some, update_view, if_pos hfar]
        exact view_of_some (hgives.given e rfl) ((hgives.others e _ (by simp)).trans htarget)
      · exact view_of_same (hgives.spared e he) (hgives.others e _ (by simp))
    · rcases ECS.gives_writeAt htargetRef ({ target with x := packet.x, y := packet.y } : TargetPos)
        with ⟨ecs', hwrite, hgives⟩
      refine ⟨ecs', by rw [if_neg hfar]; exact hwrite, ?_⟩
      intro e
      split_ifs with he
      · subst he
        rw [hbefore, Option.map_some, update_view, if_neg hfar]
        exact view_of_some ((hgives.others e _ (by simp)).trans hposition) (hgives.given e rfl)
      · exact view_of_same (hgives.others e _ (by simp)) (hgives.spared e he)
  · rw [if_neg hboth] at hatPosition
    refine ⟨ecs, by simp only [writePosition, hatPosition], ?_⟩
    intro e
    split_ifs with he
    · subst he
      rw [view_of_not_both hboth, Option.map_none]
    · rfl

/-- The second part never fails, and changes no view. -/
theorem writeVelocity_view (packet : UpdatePosition) (id : ℕ) (ecs : Store Other) :
    ∃ ecs', writeVelocity packet id ecs = some ecs' ∧ ∀ e, view ecs' e = view ecs e := by
  cases hat : ((ecs.group [.velocity]).views .velocity).atKey id with
  | none => exact ⟨ecs, by simp only [writeVelocity, hat], fun _ => rfl⟩
  | some velRef =>
      have hgroup := ecs.atKey_group (List.mem_singleton_self Part.velocity) id
      rw [hat] at hgroup
      split_ifs at hgroup
      rcases ECS.exists_instanceAt hgroup.symm with ⟨(velocity : Velocity), hvelocityAt, -⟩
      rcases ECS.gives_writeAt hgroup.symm
        ({ velocity with vx := packet.vx, vy := packet.vy } : Velocity) with
        ⟨ecs', hwrite, hgives⟩
      refine ⟨ecs', ?_, ?_⟩
      · simp only [writeVelocity, hat, hvelocityAt]
        exact hwrite
      · intro e
        exact view_of_same (hgives.others e _ (by simp)) (hgives.others e _ (by simp))

/-- A packet never fails, and changes the view of the entity that is bound to its id, and no
other one. -/
theorem handleUpdatePosition_view (packet : UpdatePosition) (toolbox : Toolbox Other) :
    ∃ toolbox', handleUpdatePosition packet toolbox = some toolbox' ∧
      toolbox'.serverToClient = toolbox.serverToClient ∧
      ∀ e, view toolbox'.ecs e =
        if toolbox.serverToClient[packet.id]? = some e then
          (view toolbox.ecs e).map (View.update (place packet))
        else view toolbox.ecs e := by
  cases hbound : toolbox.serverToClient[packet.id]? with
  | none => exact ⟨toolbox, by simp only [handleUpdatePosition, hbound], rfl, by simp⟩
  | some id =>
      rcases writePosition_view packet id toolbox.ecs with ⟨ecs₁, hposition, hview₁⟩
      rcases writeVelocity_view packet id ecs₁ with ⟨ecs₂, hvelocity, hview₂⟩
      refine ⟨{ toolbox with ecs := ecs₂ }, ?_, rfl, ?_⟩
      · simp only [handleUpdatePosition, hbound, hposition, hvelocity, Option.map_some]
      · intro e
        change view ecs₂ e = _
        rw [hview₂, hview₁]
        simp only [Option.some.injEq, eq_comm]

/-! ## Runs -/

/-- The ids of the server that are bound to an entity. -/
def boundTo (toolbox : Toolbox Other) (e n : ℕ) : Bool :=
  decide (toolbox.serverToClient[n]? = some e)

/-- A step; what else happens does not touch what is seen of one entity. -/
inductive Step (e : ℕ) : Toolbox Other → Action → Toolbox Other → Prop
  | frame {toolbox : Toolbox Other} {dt : ℚ} {ecs' : Store Other}
      (hpass : apply dt toolbox.ecs = some ecs') :
      Step e toolbox (.frame dt) { toolbox with ecs := ecs' }
  | update {toolbox toolbox' : Toolbox Other} {packet : UpdatePosition}
      (hhandle : handleUpdatePosition packet toolbox = some toolbox') :
      Step e toolbox (.update packet) toolbox'
  | other {toolbox toolbox' : Toolbox Other} (hview : view toolbox'.ecs e = view toolbox.ecs e)
      (hbound : boundTo toolbox' e = boundTo toolbox e) :
      Step e toolbox .other toolbox'

/-- Steps one after another. -/
inductive Runs (e : ℕ) : Toolbox Other → List Action → Toolbox Other → Prop
  | nil (toolbox : Toolbox Other) : Runs e toolbox [] toolbox
  | cons {toolbox toolbox' toolbox'' : Toolbox Other} {a : Action} {actions : List Action}
      (hstep : Step e toolbox a toolbox') (hrest : Runs e toolbox' actions toolbox'') :
      Runs e toolbox (a :: actions) toolbox''

variable {toolbox toolbox' : Toolbox Other} {a : Action} {actions : List Action}

theorem Step.view_eq (h : Step e toolbox a toolbox') :
    view toolbox'.ecs e = (view toolbox.ecs e).map fun v => v.act (boundTo toolbox e) a := by
  cases h with
  | frame hpass =>
      rename_i dt ecs'
      rcases apply_view dt toolbox.ecs with ⟨ecs'', hpass', -, hview⟩
      rw [hpass, Option.some.injEq] at hpass'
      subst hpass'
      exact hview e
  | update hhandle =>
      rename_i packet
      rcases handleUpdatePosition_view packet toolbox with ⟨toolbox'', hhandle', -, hview⟩
      rw [hhandle, Option.some.injEq] at hhandle'
      subst hhandle'
      rw [hview]
      by_cases hbound : toolbox.serverToClient[packet.id]? = some e
      · simp only [View.act, boundTo, hbound, if_true, decide_true]
      · simp only [View.act, boundTo, hbound, if_false, decide_false, Bool.false_eq_true,
          Option.map_id']
  | other hview hbound =>
      rw [hview]
      exact Option.map_id'.symm

theorem Step.boundTo_eq (h : Step e toolbox a toolbox') :
    boundTo toolbox' e = boundTo toolbox e := by
  cases h with
  | frame hpass => rfl
  | update hhandle =>
      rename_i packet
      rcases handleUpdatePosition_view packet toolbox with ⟨toolbox'', hhandle', hsame, -⟩
      rw [hhandle, Option.some.injEq] at hhandle'
      subst hhandle'
      ext n
      rw [boundTo, boundTo, hsame]
  | other hview hbound => exact hbound

/-- The view after a run is the view before it, with its frames and packets. -/
theorem Runs.view_eq (h : Runs e toolbox actions toolbox') :
    view toolbox'.ecs e =
      (view toolbox.ecs e).map fun v => actions.foldl (View.act (boundTo toolbox e)) v := by
  induction h with
  | nil toolbox => exact Option.map_id'.symm
  | cons hstep hrest ih =>
      rw [ih, hstep.view_eq, hstep.boundTo_eq, Option.map_map]
      rfl

/-! ## The bounds of what is drawn -/

/-- In every run with at least ten frames in a second, whatever else happens and however the
packets come: an entity is always drawn within the bounds of where it was at the start and of
the positions that the server has told. -/
theorem drawn_within {v : View} (hview : view toolbox.ecs e = some v)
    (h : Runs e toolbox actions toolbox')
    (hframes : ∀ dt, Action.frame dt ∈ actions → 0 ≤ dt ∧ dt ≤ 1 / 10) {lo hi : ℚ × ℚ}
    (hin : v.Within lo hi)
    (hpackets : ∀ packet, Action.update packet ∈ actions →
      toolbox.serverToClient[packet.id]? = some e → place packet ∈ Set.Icc lo hi) :
    ∃ v', view toolbox'.ecs e = some v' ∧ v'.Within lo hi := by
  rw [h.view_eq, hview]
  refine ⟨_, rfl, within_foldl hin hframes ?_⟩
  intro packet hpacket hbound
  exact hpackets packet hpacket (of_decide_eq_true hbound)

/-! ## Where an entity comes to rest -/

/-- Where an entity comes to rest after a packet. -/
def View.rest (v : View) (place : ℚ × ℚ) : ℚ × ℚ :=
  if v.distance place > 300 * 300 then v.target else place

theorem View.target_update (v : View) (place : ℚ × ℚ) :
    (v.update place).target = v.rest place := by
  unfold View.update View.rest
  split_ifs <;> rfl

theorem View.rest_eq_iff (v : View) (place : ℚ × ℚ) :
    v.rest place = place ↔ v.distance place ≤ 300 * 300 ∨ v.target = place := by
  unfold View.rest
  split_ifs with hfar
  · exact (or_iff_right hfar.not_ge).symm
  · exact iff_of_true rfl (Or.inl (not_lt.mp hfar))

/-- After a packet for an entity and enough frames of less than a fifth of a second, with
anything in between but another packet for it: it rests at the position of the packet, if that
was not far from where it was drawn; else it has gone back to its old target, and is where the
server says only if that is the same place. -/
theorem settles {v : View} (hview : view toolbox.ecs e = some v) {packet : UpdatePosition}
    (hbound : toolbox.serverToClient[packet.id]? = some e) {slack : ℚ} (hslack : 0 < slack) :
    ∃ n, ∀ actions toolbox', Runs e toolbox (.update packet :: actions) toolbox' →
      (∀ later, Action.update later ∈ actions → toolbox.serverToClient[later.id]? ≠ some e) →
      (∀ dt, Action.frame dt ∈ actions → slack ≤ dt ∧ dt ≤ 1 / 5 - slack) →
      n ≤ (frames actions).length →
      view toolbox'.ecs e =
          some { drawn := v.rest (place packet), target := v.rest (place packet) } ∧
        (v.rest (place packet) = place packet ↔
          v.distance (place packet) ≤ 300 * 300 ∨ v.target = place packet) := by
  have hpart : 1 - interpolationSpeed * slack < 1 := by
    unfold interpolationSpeed
    linarith
  have hε : (0 : ℚ) < 1 / 10 := by norm_num
  let moved := v.update (place packet)
  rcases Approach.exists_arrives hε hpart moved.target.1 moved.drawn.1 with ⟨n₁, hx⟩
  rcases Approach.exists_arrives hε hpart moved.target.2 moved.drawn.2 with ⟨n₂, hy⟩
  refine ⟨max n₁ n₂, fun actions toolbox' h hlater hframes hlength => ⟨?_, v.rest_eq_iff _⟩⟩
  have hothers : ∀ later, Action.update later ∈ actions →
      boundTo toolbox e later.id = false := fun later hmem => decide_eq_false (hlater later hmem)
  have hfirst : v.act (boundTo toolbox e) (.update packet) = moved :=
    if_pos (decide_eq_true hbound)
  let parts := (frames actions).map (interpolationSpeed * ·)
  have hlength' : parts.length = (frames actions).length := List.length_map _
  have hparts : ∀ k ∈ parts, |1 - k| ≤ 1 - interpolationSpeed * slack := by
    intro k hk
    rcases List.mem_map.mp hk with ⟨dt, hdt, rfl⟩
    rcases hframes dt (mem_frames.mp hdt) with ⟨hlong, hshort⟩
    unfold interpolationSpeed
    rw [abs_le]
    constructor <;> linarith
  rw [h.view_eq, hview, Option.map_some, List.foldl_cons, hfirst, foldl_act_eq hothers,
    foldl_frame_eq, hx parts (by omega) hparts, hy parts (by omega) hparts, ← v.target_update]

/-- With at most 5 frames in a second, an entity never comes closer to its target on an axis
on which it is not there yet. -/
theorem never_settles {v : View} (hview : view toolbox.ecs e = some v)
    (h : Runs e toolbox actions toolbox')
    (hpackets : ∀ packet, Action.update packet ∈ actions →
      toolbox.serverToClient[packet.id]? ≠ some e)
    (hframes : ∀ dt, Action.frame dt ∈ actions → 1 / 5 ≤ dt) :
    ∃ v', view toolbox'.ecs e = some v' ∧ v'.target = v.target ∧
      (1 / 10 ≤ |v.target.1 - v.drawn.1| →
        |v.target.1 - v.drawn.1| ≤ |v'.target.1 - v'.drawn.1|) ∧
      (1 / 10 ≤ |v.target.2 - v.drawn.2| →
        |v.target.2 - v.drawn.2| ≤ |v'.target.2 - v'.drawn.2|) := by
  have hothers : ∀ packet, Action.update packet ∈ actions →
      boundTo toolbox e packet.id = false := fun packet hmem =>
    decide_eq_false (hpackets packet hmem)
  have hparts : ∀ k ∈ (frames actions).map (interpolationSpeed * ·), 2 ≤ k := by
    intro k hk
    rcases List.mem_map.mp hk with ⟨dt, hdt, rfl⟩
    have hlong := hframes dt (mem_frames.mp hdt)
    unfold interpolationSpeed
    linarith
  rw [h.view_eq, hview, Option.map_some, foldl_act_eq hothers, foldl_frame_eq]
  exact ⟨_, rfl, rfl, fun hfar => Approach.le_abs_sub_foldl_approach hfar hparts,
    fun hfar => Approach.le_abs_sub_foldl_approach hfar hparts⟩

/-- Frames and packets never fail. -/
theorem exists_step (e : ℕ) (toolbox : Toolbox Other) (a : Action) :
    ∃ toolbox', Step e toolbox a toolbox' := by
  cases a with
  | frame dt =>
      rcases apply_view dt toolbox.ecs with ⟨ecs', hpass, -⟩
      exact ⟨_, .frame hpass⟩
  | update packet =>
      rcases handleUpdatePosition_view packet toolbox with ⟨toolbox', hhandle, -⟩
      exact ⟨toolbox', .update hhandle⟩
  | other => exact ⟨toolbox, .other rfl rfl⟩

/-- So every list of them can happen. -/
theorem exists_runs (e : ℕ) (toolbox : Toolbox Other) (actions : List Action) :
    ∃ toolbox', Runs e toolbox actions toolbox' := by
  induction actions generalizing toolbox with
  | nil => exact ⟨toolbox, .nil toolbox⟩
  | cons a actions ih =>
      rcases exists_step e toolbox a with ⟨toolbox₁, hstep⟩
      rcases ih toolbox₁ with ⟨toolbox', hrest⟩
      exact ⟨toolbox', .cons hstep hrest⟩

end

/-! ## A single entity -/

/-- A toolbox with one entity, which is drawn at the origin. -/
def alone (target : TargetPos) : Toolbox fun _ : Empty => Unit where
  ecs := ((({} : Store fun _ : Empty => Unit).registerComponents [.position, .targetPos])
    |>.registerEntity ⟨.position, Position.mk 0 0 false⟩ [⟨.targetPos, target⟩]).1
  serverToClient := (∅ : ExtTreeMap ℕ ℕ).insert 7 0

/-- A position far away. -/
def farAway : UpdatePosition where
  id := 7
  x := 500
  y := 0
  vx := 0
  vy := 0

theorem bound_alone (target : TargetPos) :
    (alone target).serverToClient[farAway.id]? = some 0 := by
  simp [alone, farAway]

theorem view_alone : view (alone ⟨0, 0⟩).ecs 0 = some { drawn := (0, 0), target := (0, 0) } := by
  decide +kernel

/-- It is drawn between the two places that it was told. -/
theorem drawn_within_alone :
    ∃ toolbox', Runs 0 (alone ⟨0, 0⟩) [.update farAway, .frame (1 / 60)] toolbox' ∧
      ∃ v', view toolbox'.ecs 0 = some v' ∧ v'.Within (0, 0) (500, 0) := by
  rcases exists_runs 0 (alone ⟨0, 0⟩) [.update farAway, .frame (1 / 60)] with ⟨toolbox', h⟩
  refine ⟨toolbox', h, drawn_within view_alone h ?_ ?_ ?_⟩
  · intro dt hdt
    simp only [List.mem_cons, reduceCtorEq, Action.frame.injEq, List.not_mem_nil, or_false,
      false_or] at hdt
    subst hdt
    norm_num
  · simp [View.Within]
  · intro packet hpacket _
    simp only [List.mem_cons, reduceCtorEq, Action.update.injEq, List.not_mem_nil,
      or_false] at hpacket
    subst hpacket
    simp [place, farAway]

/-- It goes back to the origin. -/
theorem settles_alone :
    ∃ n, ∀ actions toolbox', Runs 0 (alone ⟨0, 0⟩) (.update farAway :: actions) toolbox' →
      (∀ later, Action.update later ∈ actions →
        (alone ⟨0, 0⟩).serverToClient[later.id]? ≠ some 0) →
      (∀ dt, Action.frame dt ∈ actions → 1 / 100 ≤ dt ∧ dt ≤ 1 / 5 - 1 / 100) →
      n ≤ (frames actions).length →
      view toolbox'.ecs 0 = some { drawn := (0, 0), target := (0, 0) } := by
  rcases settles view_alone (bound_alone _) (by norm_num : (0 : ℚ) < 1 / 100) with ⟨n, hn⟩
  refine ⟨n, fun actions toolbox' h hlater hframes hlength => ?_⟩
  have hrest : View.rest { drawn := (0, 0), target := (0, 0) } (place farAway) = (0, 0) := by
    decide +kernel
  rw [(hn actions toolbox' h hlater hframes hlength).1, hrest]

/-- With a slow frame it is still as far away. -/
theorem never_settles_alone :
    ∃ toolbox', Runs 0 (alone ⟨100, 0⟩) [.frame (1 / 4)] toolbox' ∧
      ∃ v', view toolbox'.ecs 0 = some v' ∧ 100 ≤ |v'.target.1 - v'.drawn.1| := by
  have hview : view (alone ⟨100, 0⟩).ecs 0 = some { drawn := (0, 0), target := (100, 0) } := by
    decide +kernel
  rcases exists_runs 0 (alone ⟨100, 0⟩) [.frame (1 / 4)] with ⟨toolbox', h⟩
  have hframes : ∀ dt, Action.frame dt ∈ [Action.frame (1 / 4)] → 1 / 5 ≤ dt := by
    intro dt hdt
    rw [List.mem_singleton, Action.frame.injEq] at hdt
    subst hdt
    norm_num
  rcases never_settles hview h (by simp) hframes with ⟨v', hview', -, hx, -⟩
  refine ⟨toolbox', h, v', hview', ?_⟩
  have hfar : (100 : ℚ) = |100 - 0| := by norm_num
  rw [hfar]
  exact hx (by norm_num)

end Rtype.Client.Interpolation
