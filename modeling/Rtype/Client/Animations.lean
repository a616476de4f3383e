import Mathlib
import Rtype.Client.BindingMap
import Rtype.Rtecs.Rewriting

/-!
# Client - The animated sprites

An entity whose type has more than one picture gets an animation when it appears on the
client, and in each frame the animation system turns the pictures that are due.  A looping
animation starts again after its last picture; any other one stays there.

Main results:

- Functions {lit}`advance` and {lit}`apply`: the system, with the steps of C++ that are
  undefined.
- Theorem {lit}`pictures_in_sheet`: in every run of the client the system is defined, and each
  animation shows a picture of the sheet of a type.
- Theorem {lit}`picture_shown`: which picture that is, however many packets and other frames
  there were since.

Current gaps:

- None.
-/

namespace Rtype.Client.AnimationSystem

open Rtype.Rtecs Rtype.Rteng Rtype.Common Rtype.Server
open Std (ExtTreeMap)

/-! ## Floats in their order -/

/-- A float that is not a number. -/
def isNaN (x : CFloat) : Bool :=
  decide (0x7F800000 < x &&& 0x7FFFFFFF)

/-- The place of a float among the numbers, with one place for both zeros. -/
def rank (x : CFloat) : ℤ :=
  if x.msb then -((x &&& 0x7FFFFFFF).toNat : ℤ) else x.toNat

/-- {lit}`operator>=` on floats. -/
def ge (x y : CFloat) : Bool :=
  !isNaN x && !isNaN y && decide (rank y ≤ rank x)

/-! ## The system -/

section

variable [FloatUnit]

/-- The callback of {lit}`AnimationSystem::apply`.  A remainder by zero and an increment past
the largest {lit}`int` are undefined. -/
def advance (dt : CFloat) (anim : Animation) : Option Animation :=
  let elapsedTime := FloatUnit.add anim.elapsedTime dt
  if ge elapsedTime anim.frameTime then
    if anim.loop || anim.currentFrame < anim.frameCount - 1 then
      if anim.frameCount = 0 ∨ anim.currentFrame + 1 ≥ 2 ^ 31 then
        none
      else
        some { anim with
          elapsedTime := 0
          currentFrame := (anim.currentFrame + 1) % anim.frameCount }
    else
      some { anim with elapsedTime := 0 }
  else
    some { anim with elapsedTime := elapsedTime }

/-- The callback with its reference. -/
def visit (dt : CFloat) (ecs : ECS Comp) (_id : ℕ) : List ℕ → Option (ECS Comp)
  | [animRef] =>
      match ecs.instanceAt (.other .animation) animRef with
      | none => none
      | some (anim : Animation) =>
          match advance dt anim with
          | none => none
          | some anim' => ecs.writeAt animRef ⟨.other .animation, anim'⟩
  | _ => none

/-- {lit}`AnimationSystem::apply`, after a frame that took {lit}`dt` seconds. -/
def apply (dt : CFloat) (ecs : ECS Comp) : Option (ECS Comp) :=
  (ecs.group [.other .animation]).apply (visit dt) ecs

end

/-! ## The pictures of a type -/

/-- The animation that {lit}`addGraphicalComponents` starts. -/
def start (type : EntityType) : Animation :=
  let config := typeToAnimation type
  ⟨config.frameCount, 0, config.frameTime, 0, config.frameWidth, config.frameHeight, config.loop⟩

/-- A type has several pictures. -/
def Animates (type : EntityType) : Prop :=
  1 < (typeToAnimation type).frameCount

/-- An animation of a type with several pictures, that shows one of them. -/
structure InSheet (type : EntityType) (anim : Animation) : Prop where
  several : Animates type
  config : anim = { start type with
    currentFrame := anim.currentFrame, elapsedTime := anim.elapsedTime }
  shown : anim.currentFrame < (typeToAnimation type).frameCount

theorem frameCount_le (type : EntityType) : (typeToAnimation type).frameCount ≤ 8 := by
  unfold typeToAnimation
  split <;> decide

theorem inSheet_start {type : EntityType} (h : Animates type) : InSheet type (start type) :=
  ⟨h, rfl, Nat.zero_lt_of_lt h⟩

theorem InSheet.frameCount {type : EntityType} {anim : Animation} (h : InSheet type anim) :
    anim.frameCount = (typeToAnimation type).frameCount := by
  rw [h.config]
  rfl

/-! ## Frames of one animation -/

/-- The picture after so many that are over. -/
def nextPicture (anim : Animation) (k : ℕ) : ℕ :=
  if anim.loop then (anim.currentFrame + k) % anim.frameCount
  else min (anim.currentFrame + k) (anim.frameCount - 1)

theorem nextPicture_lt {type : EntityType} {anim : Animation} (h : InSheet type anim) (k : ℕ) :
    nextPicture anim k < (typeToAnimation type).frameCount := by
  have hcount := h.frameCount
  have hshown := h.shown
  unfold nextPicture
  split_ifs
  · rw [hcount]
    exact Nat.mod_lt _ (by omega)
  · omega

theorem nextPicture_zero {type : EntityType} {anim : Animation} (h : InSheet type anim) :
    nextPicture anim 0 = anim.currentFrame := by
  have hcount := h.frameCount
  have hshown := h.shown
  unfold nextPicture
  split_ifs
  · exact Nat.mod_eq_of_lt (by omega)
  · omega

/-- Pictures one after another. -/
theorem nextPicture_nextPicture (anim : Animation) (elapsedTime : CFloat) (j k : ℕ) :
    nextPicture { anim with elapsedTime, currentFrame := nextPicture anim j } k =
      nextPicture anim (j + k) := by
  unfold nextPicture
  dsimp only
  split_ifs
  · rw [Nat.mod_add_mod, Nat.add_assoc]
  · omega

section

variable [FloatUnit]

/-- The time of a picture is over in this frame. -/
def isDue (dt : CFloat) (anim : Animation) : Bool :=
  ge (FloatUnit.add anim.elapsedTime dt) anim.frameTime

/-- A frame, where it is defined. -/
def turn (anim : Animation) (dt : CFloat) : Animation :=
  if isDue dt anim then
    { anim with elapsedTime := 0, currentFrame := nextPicture anim 1 }
  else
    { anim with elapsedTime := FloatUnit.add anim.elapsedTime dt }

theorem InSheet.advance {type : EntityType} {anim : Animation} (h : InSheet type anim)
    (dt : CFloat) : AnimationSystem.advance dt anim = some (turn anim dt) := by
  have hcount := h.frameCount
  have hle := frameCount_le type
  have hshown := h.shown
  unfold AnimationSystem.advance turn isDue nextPicture
  dsimp only
  split_ifs with hdue hgo hundefined hloop hloop
  · omega
  · rfl
  · -- the picture is not the last one, so that the remainder does nothing
    have hnext : anim.currentFrame + 1 < anim.frameCount := by
      simp only [hloop, Bool.false_or, decide_eq_true_eq] at hgo
      omega
    rw [Nat.mod_eq_of_lt hnext, min_eq_left (by omega)]
  · simp [hloop] at hgo
  · -- the last picture stays
    have hlast : anim.frameCount - 1 ≤ anim.currentFrame := by
      simpa [hloop] using hgo
    have hsame : min (anim.currentFrame + 1) (anim.frameCount - 1) = anim.currentFrame := by omega
    rw [hsame]
  · rfl

theorem InSheet.turn {type : EntityType} {anim : Animation} (h : InSheet type anim)
    (dt : CFloat) : InSheet type (turn anim dt) := by
  have hnext := nextPicture_lt h 1
  unfold AnimationSystem.turn
  split_ifs
  · exact ⟨h.several, by rw [h.config], hnext⟩
  · exact ⟨h.several, by rw [h.config], h.shown⟩

/-- The time of the picture that is shown, and how many pictures have been over, after one
more frame. -/
def timer (frameTime : CFloat) (time : CFloat × ℕ) (dt : CFloat) : CFloat × ℕ :=
  let elapsedTime := FloatUnit.add time.1 dt
  if ge elapsedTime frameTime then (0, time.2 + 1) else (elapsedTime, time.2)

/-- An animation at a time. -/
def atTime (anim : Animation) (time : CFloat × ℕ) : Animation :=
  { anim with elapsedTime := time.1, currentFrame := nextPicture anim time.2 }

theorem turn_atTime (anim : Animation) (time : CFloat × ℕ) (dt : CFloat) :
    turn (atTime anim time) dt = atTime anim (timer anim.frameTime time dt) := by
  have hnext := nextPicture_nextPicture anim time.1 time.2 1
  unfold turn isDue timer atTime
  dsimp only
  split_ifs
  · rw [hnext]
  · rfl

/-- Several frames. -/
theorem foldl_turn {type : EntityType} {anim : Animation} (h : InSheet type anim)
    (dts : List CFloat) :
    dts.foldl turn anim =
      atTime anim (dts.foldl (timer anim.frameTime) (anim.elapsedTime, 0)) := by
  have hstart : anim = atTime anim (anim.elapsedTime, 0) := by
    unfold atTime
    rw [nextPicture_zero h]
  have hrun : ∀ time, dts.foldl turn (atTime anim time) =
      atTime anim (dts.foldl (timer anim.frameTime) time) := by
    induction dts with
    | nil => exact fun _ => rfl
    | cons dt dts ih =>
        intro time
        rw [List.foldl_cons, List.foldl_cons, turn_atTime, ih]
  rw [← hrun, ← hstart]

/-- One more frame. -/
theorem map_turns_append (anim : Option Animation) (dts : List CFloat) (dt : CFloat) :
    (anim.map (dts.foldl turn)).map (turn · dt) = anim.map ((dts ++ [dt]).foldl turn) := by
  cases anim with
  | none => rfl
  | some anim =>
      rw [Option.map_some, Option.map_some, Option.map_some, List.foldl_append]
      rfl

/-! ## The pass over the store -/

/-- The animation of an entity. -/
def animationOf (ecs : ECS Comp) (e : ℕ) : Option Animation :=
  ecs.getEntityComponent e (.other .animation)

/-- All animations show a picture of the sheet of a type. -/
def Sheets (ecs : ECS Comp) : Prop :=
  ∀ e anim, animationOf ecs e = some anim → ∃ type, InSheet type anim

theorem localWhere_visit (dt : CFloat) :
    ECS.LocalWhere
      (fun instances => ∀ anim : Animation, instances (.other .animation) = some anim →
        ∃ type, InSheet type anim)
      (visit dt) [.other .animation] (.other .animation)
      (fun _ instances => (instances (.other .animation)).map fun anim : Animation =>
        turn anim dt) := by
  intro ecs e references hown hfit
  unfold ECS.OwnReferences at hown
  rcases hown with _ | ⟨hanim, _ | _⟩
  rcases ECS.exists_instanceAt hanim with ⟨(anim : Animation), hanimAt, hanim'⟩
  rcases hfit anim hanim' with ⟨type, hsheet⟩
  rcases ECS.gives_writeAt hanim (turn anim dt : Animation) with ⟨ecs', hwrite, hgives⟩
  refine ⟨ecs', ?_, hgives.rewrites ?_⟩
  · simp only [visit, hanimAt, hsheet.advance]
    exact hwrite
  · intro d hd
    subst hd
    simp only [hanim']
    rfl

/-- A frame turns all pictures that are due. -/
theorem apply_turns {ecs : ECS Comp} (h : Sheets ecs) (dt : CFloat) :
    ∃ ecs', apply dt ecs = some ecs' ∧ ECS.WritesOnly ecs ecs' ∧
      ∀ e, animationOf ecs' e = (animationOf ecs e).map (turn · dt) := by
  rcases ECS.apply_rewrites_where (localWhere_visit dt) ecs fun e _ => h e with
    ⟨ecs', hpass, hrewrites⟩
  refine ⟨ecs', hpass, hrewrites.only, ?_⟩
  intro e
  by_cases hanim : ∀ b ∈ [GameComponent.other .animation],
      (ecs.getEntityComponent e b).isSome = true
  · exact hrewrites.given e hanim
  · unfold animationOf
    rw [hrewrites.spared e hanim]
    simp only [List.mem_singleton, forall_eq, Bool.not_eq_true, Option.isSome_eq_false_iff,
      Option.isNone_iff_eq_none] at hanim
    rw [hanim]
    rfl

end

/-! ## What the handlers do to animations -/

/-- A component that is added to an entity, in the store afterwards. -/
theorem getEntityComponent_add_singleton (ecs : ECS Comp) (id : ℕ) (c : Kind) (value : Comp c)
    (e : ℕ) :
    (ecs.addEntityComponents id [⟨c, value⟩]).getEntityComponent e c =
        ecs.getEntityComponent e c ∨
      e = id ∧ (ecs.addEntityComponents id [⟨c, value⟩]).getEntityComponent e c = some value := by
  by_cases he : e = id
  · subst he
    by_cases hlive : e ∈ ecs.entities
    · by_cases hset : (ecs.components c).isSome
      · right
        rw [ECS.getEntityComponent_add_self hlive hset, ECS.lastOf_singleton_self]
        exact ⟨rfl, rfl⟩
      · left
        rw [Bool.not_eq_true, Option.isSome_eq_false_iff, Option.isNone_iff_eq_none] at hset
        have hset' := ECS.isSome_components_add ecs e [⟨c, value⟩] c
        rw [hset, Option.isSome_none, Option.isSome_eq_false_iff, Option.isNone_iff_eq_none]
          at hset'
        rw [ECS.getEntityComponent_of_unregistered hset,
          ECS.getEntityComponent_of_unregistered hset']
    · left
      rw [ECS.addEntityComponents_of_dead hlive]
  · left
    exact ECS.getEntityComponent_add_of_ne fun heq => absurd heq he

/-- Another component that is added. -/
theorem animationOf_add_other (ecs : ECS Comp) (id : ℕ) {c : Kind} (hother : c ≠ .other .animation)
    (value : Comp c) (e : ℕ) :
    animationOf (ecs.addEntityComponents id [⟨c, value⟩]) e = animationOf ecs e := by
  apply ECS.getEntityComponent_add_of_ne
  intro _
  simpa using hother.symm

/-- The factory leaves the components alone that it has no creator for. -/
theorem animationOf_foldlM {entityId : ℕ} {bitmask : DynamicBitSet}
    {creators : List (Kind × ℕ)} {s s' : ECS Comp × Rtnt.Packet}
    (hcreators : ∀ creator ∈ creators, creator.1 ≠ .other .animation)
    (hok : creators.foldlM (Factory.applyCreator schema entityId bitmask) s = .ok s') (e : ℕ) :
    animationOf s'.1 e = animationOf s.1 e := by
  induction creators generalizing s with
  | nil =>
      obtain rfl : s = s' := Except.ok.inj hok
      rfl
  | cons creator creators ih =>
      rw [List.forall_mem_cons] at hcreators
      rw [List.foldlM_cons] at hok
      cases hstep : Factory.applyCreator schema entityId bitmask s creator with
      | error what =>
          rw [hstep] at hok
          cases hok
      | ok next =>
          rw [hstep] at hok
          rw [ih hcreators.2 hok]
          unfold Factory.applyCreator Factory.create at hstep
          split_ifs at hstep
          · split at hstep
            · cases hstep
            · obtain rfl := Except.ok.inj hstep
              exact animationOf_add_other s.1 entityId hcreators.1 _ e
          · obtain rfl := Except.ok.inj hstep
            rfl

theorem animationOf_factory {factory : Factory Kind} {ecs ecs' : ECS Comp} {entityId : ℕ}
    {bitmask : DynamicBitSet} {data : List UInt8} {reader : Rtnt.Packet}
    (hcreators : factory.creators = gameComponents)
    (hok : factory.apply schema ecs entityId bitmask data = .ok (ecs', reader)) (e : ℕ) :
    animationOf ecs' e = animationOf ecs e := by
  apply animationOf_foldlM ?_ hok
  intro creator hcreator
  have hmem := List.fst_mem_of_mem_zipIdx hcreator
  rw [hcreators] at hmem
  rintro heq
  rw [heq] at hmem
  revert hmem
  decide

/-- The graphics of an entity start its animation, or leave it. -/
theorem animationOf_addGraphicalComponents (id : ℕ) (toolbox : HandlerToolbox) (e : ℕ) :
    animationOf (addGraphicalComponents id toolbox).engine.ecs e =
        animationOf toolbox.engine.ecs e ∨
      e = id ∧ ∃ type, Animates type ∧
        animationOf (addGraphicalComponents id toolbox).engine.ecs e = some (start type) := by
  have htarget : ∀ toolbox, animationOf (addTargetPos id toolbox).engine.ecs e =
      animationOf toolbox.engine.ecs e := by
    intro toolbox
    unfold addTargetPos
    split
    · rfl
    · exact animationOf_add_other _ id (by decide) _ e
  unfold addGraphicalComponents
  rw [htarget]
  unfold addSprite
  split
  · exact .inl rfl
  · rename_i component _
    dsimp only
    have hsprite := animationOf_add_other toolbox.engine.ecs id (c := .other .sprite) (by decide)
      (Sprite.mk component.type) e
    split_ifs with hseveral
    · rcases getEntityComponent_add_singleton (toolbox.engine.ecs.addEntityComponents id
        [⟨.other .sprite, Sprite.mk component.type⟩]) id (.other .animation)
        (start component.type) e with hsame | ⟨he, hnew⟩
      · exact .inl (hsame.trans hsprite)
      · exact .inr ⟨he, component.type, hseveral, hnew⟩
    · exact .inl hsprite

/-! ## Steps that are no frames -/

section

variable {t t' t'' : HandlerToolbox} {n k : ℕ}

/-- What may become of the animations while so many entities are described: they are left, go
with their entity, or start on a new one. -/
structure Starts (k : ℕ) (t t' : HandlerToolbox) : Prop where
  factory : t'.componentFactory = t.componentFactory
  counter : t.engine.ecs.entitiesID + k < 2 ^ 64 →
    t.engine.ecs.entitiesID ≤ t'.engine.ecs.entitiesID ∧
      t'.engine.ecs.entitiesID ≤ t.engine.ecs.entitiesID + k
  animations : ∀ e, animationOf t'.engine.ecs e = animationOf t.engine.ecs e ∨
    animationOf t'.engine.ecs e = none ∨
      (t.engine.ecs.entitiesID + k < 2 ^ 64 →
        t.engine.ecs.entitiesID ≤ e ∧ e < t'.engine.ecs.entitiesID) ∧
      ∃ type, Animates type ∧ animationOf t'.engine.ecs e = some (start type)

/-- Nothing happens to the animations. -/
theorem Starts.same (hfactory : t'.componentFactory = t.componentFactory)
    (hcounter : t'.engine.ecs.entitiesID = t.engine.ecs.entitiesID)
    (hanimations : ∀ e, animationOf t'.engine.ecs e = animationOf t.engine.ecs e) :
    Starts 0 t t' := by
  refine ⟨hfactory, ?_, fun e => .inl (hanimations e)⟩
  intro _
  omega

theorem Starts.trans (h : Starts n t t') (h' : Starts k t' t'') : Starts (n + k) t t'' := by
  refine ⟨h'.factory.trans h.factory, ?_, ?_⟩
  · intro hfew
    have hcounter := h.counter (by omega)
    have hcounter' := h'.counter (by omega)
    omega
  · intro e
    rcases h'.animations e with hsame | hnone | ⟨hnew, hstart⟩
    · rw [hsame]
      rcases h.animations e with hsame | hnone | ⟨hnew, hstart⟩
      · exact .inl hsame
      · exact .inr (.inl hnone)
      · refine .inr (.inr ⟨?_, hstart⟩)
        intro hfew
        have hcounter := h.counter (by omega)
        have hcounter' := h'.counter (by omega)
        have hnew := hnew (by omega)
        omega
    · exact .inr (.inl hnone)
    · refine .inr (.inr ⟨?_, hstart⟩)
      intro hfew
      have hcounter := h.counter (by omega)
      have hnew := hnew (by omega)
      omega

theorem Starts.refl (t : HandlerToolbox) : Starts 0 t t :=
  .same rfl rfl fun _ => rfl

/-- Fewer entities are described than are counted. -/
theorem Starts.mono (h : Starts n t t') (hle : n ≤ k) : Starts k t t' := by
  refine ⟨h.factory, ?_, ?_⟩
  · intro hfew
    have hcounter := h.counter (by omega)
    omega
  · intro e
    rcases h.animations e with hsame | hnone | ⟨hnew, hstart⟩
    · exact .inl hsame
    · exact .inr (.inl hnone)
    · exact .inr (.inr ⟨fun hfew => hnew (by omega), hstart⟩)

theorem animationOf_handleSpawn (hcreators : t.componentFactory.creators = gameComponents)
    {packet : Spawn} (hok : handleSpawn packet t = .ok t') (e : ℕ) :
    animationOf t'.engine.ecs e = animationOf t.engine.ecs e ∨
      e = t.engine.ecs.entitiesID ∧ ∃ type, Animates type ∧
        animationOf t'.engine.ecs e = some (start type) := by
  unfold handleSpawn at hok
  split_ifs at hok with hknown
  · obtain rfl := Except.ok.inj hok
    exact .inl rfl
  · dsimp only at hok
    split at hok
    · cases hok
    · split at hok
      · cases hok
      · rename_i ecs reader hread
        obtain rfl := Except.ok.inj hok
        have hfactory := animationOf_factory hcreators hread e
        have hgraphics := animationOf_addGraphicalComponents t.engine.ecs.entitiesID
          ((bound t packet.id).setEcs ecs) e
        exact hgraphics.imp_left fun hsame => hsame.trans hfactory

theorem starts_handleSpawn (hcreators : t.componentFactory.creators = gameComponents)
    {packet : Spawn} (hok : handleSpawn packet t = .ok t') : Starts 1 t t' := by
  rcases handleSpawn_cases hok with ⟨-, rfl⟩ | ⟨-, instances, hadd⟩
  · exact (Starts.refl t').mono (Nat.zero_le 1)
  · have hcounter : t'.engine.ecs.entitiesID = (t.engine.ecs.entitiesID + 1) % 2 ^ 64 := by
      rw [hadd]
      exact (ECS.KeepsIds.addEntityComponents _ _ instances).counter
    refine ⟨by rw [hadd]; rfl, ?_, ?_⟩
    · intro hfew
      rw [hcounter, Nat.mod_eq_of_lt hfew]
      omega
    · intro e
      rcases animationOf_handleSpawn hcreators hok e with hsame | ⟨he, hstart⟩
      · exact .inl hsame
      · refine .inr (.inr ⟨?_, hstart⟩)
        intro hfew
        rw [hcounter, Nat.mod_eq_of_lt hfew, he]
        omega

theorem starts_spawnAll (hcreators : t.componentFactory.creators = gameComponents)
    {bitsets : List (List ℕ)} {ids : List ℕ} {entities : List (List UInt8)}
    (hok : spawnAll t bitsets ids entities = .ok t') : Starts bitsets.length t t' := by
  induction bitsets generalizing t ids entities with
  | nil =>
      simp only [spawnAll, Except.ok.injEq] at hok
      exact hok ▸ .refl t
  | cons bitset bitsets ih =>
      rw [List.length_cons, Nat.add_comm]
      cases ids with
      | nil => cases hok
      | cons id ids =>
          unfold spawnAll at hok
          split_ifs at hok
          · exact ((Starts.refl t).mono (Nat.zero_le 1)).trans (ih hcreators hok)
          · cases entities with
            | nil => cases hok
            | cons content entities =>
                dsimp only at hok
                split at hok
                · cases hok
                · rename_i next hspawn
                  have hfirst := starts_handleSpawn hcreators hspawn
                  have hnext : next.componentFactory.creators = gameComponents := by
                    rw [hfirst.factory, hcreators]
                  exact hfirst.trans (ih hnext hok)

theorem starts_handleDestroy (packet : Destroy) : Starts 0 t (handleDestroy packet t) := by
  unfold handleDestroy
  split
  · exact .refl t
  · rename_i real _
    refine ⟨rfl, fun _ => ⟨le_rfl, le_rfl⟩, ?_⟩
    intro e
    have hgone := ECS.getEntityComponent_destroyEntity t.engine.ecs real e (.other .animation)
    split_ifs at hgone
    · exact .inr (.inl hgone)
    · exact .inl hgone

/-- Whatever is handled, animations are left, go or start. -/
theorem starts_handle (hcreators : t.componentFactory.creators = gameComponents)
    {packet : Variant} (hok : handle t packet = .ok t') : Starts (described packet) t t' := by
  cases packet with
  | spawn packet => exact starts_handleSpawn hcreators hok
  | destroy packet =>
      obtain rfl := Except.ok.inj hok
      exact starts_handleDestroy packet
  | worldInit packet =>
      have hstate : Starts 0 t (t.setGameState packet.state) := .same rfl rfl fun _ => rfl
      have hcreators' :
          (t.setGameState packet.state).componentFactory.creators = gameComponents := hcreators
      have hspawns := hstate.trans (starts_spawnAll hcreators' hok)
      rwa [Nat.zero_add] at hspawns
  | updateGameState gameState =>
      obtain rfl := Except.ok.inj hok
      exact .same rfl rfl fun _ => rfl
  | joinAck packet =>
      change handleJoinAck packet t = _ at hok
      cases hbound : t.serverToClient[packet.id]? with
      | none =>
          rw [handleJoinAck_of_none hbound] at hok
          cases hok
      | some real =>
          rw [handleJoinAck_of_some hbound] at hok
          obtain rfl := Except.ok.inj hok
          have hids := ECS.KeepsIds.addEntityComponents t.engine.ecs real [⟨.other .me, Me.mk⟩]
          exact .same rfl hids.counter
            fun e => animationOf_add_other t.engine.ecs real (c := .other .me) (by decide) Me.mk e

/-- Code that writes to other components. -/
theorem starts_write (t : HandlerToolbox) (entity : ℕ) {newInstance : Instance Comp}
    (hother : newInstance.1 ≠ .other .animation) :
    Starts 0 t
      (t.setEcs (t.engine.ecs.updateEntityComponent entity newInstance).1) := by
  have hids := ECS.KeepsIds.updateEntityComponent t.engine.ecs entity newInstance
  refine .same rfl hids.counter ?_
  intro e
  by_cases hhas : t.engine.ecs.hasComponent newInstance.1 entity = true
  · exact (ECS.getEntityComponent_updateEntityComponent t.engine.ecs hhas).2 e _
      fun h => hother h.2.symm
  · exact congrArg (animationOf · e) (ECS.updateEntityComponent_of_not_has hhas)

/-- What holds of a client all the time. -/
structure Animated (t : HandlerToolbox) : Prop where
  creators : t.componentFactory.creators = gameComponents
  sheets : Sheets t.engine.ecs

theorem animationOf_new (e : ℕ) : animationOf HandlerToolbox.new.engine.ecs e = none := by
  apply Factory.getEntityComponent_of_dead HandlerToolbox.Ready.new.registered.settled
  intro hlive
  rcases HandlerToolbox.Covered.new e hlive with ⟨id, hbound⟩
  change (∅ : ExtTreeMap ℕ ℕ)[id]? = _ at hbound
  rw [ExtTreeMap.getElem?_empty] at hbound
  cases hbound

theorem Animated.new : Animated .new := by
  refine ⟨rfl, ?_⟩
  intro e anim hanim
  rw [animationOf_new] at hanim
  cases hanim

theorem Animated.starts {k : ℕ} (h : Animated t) (hstarts : Starts k t t') : Animated t' := by
  refine ⟨by rw [hstarts.factory, h.creators], ?_⟩
  intro e anim hanim
  rcases hstarts.animations e with hsame | hnone | ⟨-, type, hseveral, hstart⟩
  · exact h.sheets e anim (hsame ▸ hanim)
  · rw [hnone] at hanim
    cases hanim
  · rw [hstart, Option.some.injEq] at hanim
    exact ⟨type, hanim ▸ inSheet_start hseveral⟩

end

/-! ## Runs -/

section

variable [FloatUnit]

/-- What happens to the client over time: packets are handled, which describe so many entities,
other code writes to components that are no animations, and frames of some length pass. -/
inductive Run (t : HandlerToolbox) : ℕ → List CFloat → HandlerToolbox → Prop
  | start : Run t 0 [] t
  | handle {n : ℕ} {dts : List CFloat} {t' t'' : HandlerToolbox} (packet : Variant)
      (h : Run t n dts t') (hok : Client.handle t' packet = .ok t'') :
      Run t (n + described packet) dts t''
  | write {n : ℕ} {dts : List CFloat} {t' : HandlerToolbox} (entity : ℕ)
      (newInstance : Instance Comp) (hother : newInstance.1 ≠ .other .animation)
      (h : Run t n dts t') :
      Run t n dts (t'.setEcs (t'.engine.ecs.updateEntityComponent entity newInstance).1)
  | frame {n : ℕ} {dts : List CFloat} {t' : HandlerToolbox} {ecs : ECS Comp} (dt : CFloat)
      (h : Run t n dts t') (hok : apply dt t'.engine.ecs = some ecs) :
      Run t n (dts ++ [dt]) (t'.setEcs ecs)

variable {t t' : HandlerToolbox} {n n₀ : ℕ} {dts dts₀ : List CFloat}

theorem Animated.frame (h : Animated t) {dt : CFloat} {ecs : ECS Comp}
    (hok : apply dt t.engine.ecs = some ecs) : Animated (t.setEcs ecs) := by
  refine ⟨h.creators, ?_⟩
  rcases apply_turns h.sheets dt with ⟨ecs', hok', -, hturns⟩
  obtain rfl := Option.some.inj (hok.symm.trans hok')
  intro e anim hanim
  change animationOf ecs e = some anim at hanim
  rw [hturns, Option.map_eq_some_iff] at hanim
  rcases hanim with ⟨before, hbefore, rfl⟩
  rcases h.sheets e before hbefore with ⟨type, hsheet⟩
  exact ⟨type, hsheet.turn dt⟩

theorem Run.animated (h : Run t n dts t') (hstart : Animated t) : Animated t' := by
  induction h with
  | start => exact hstart
  | handle packet _ hok ih => exact ih.starts (starts_handle ih.creators hok)
  | write entity newInstance hother _ ih => exact ih.starts (starts_write _ entity hother)
  | frame dt _ hok ih => exact ih.frame hok

/-- Runs one after another. -/
theorem Run.trans {m : ℕ} {dts' : List CFloat} {t'' : HandlerToolbox} (h : Run t n dts t')
    (h' : Run t' m dts' t'') : Run t (n + m) (dts ++ dts') t'' := by
  induction h' with
  | start =>
      rw [Nat.add_zero, List.append_nil]
      exact h
  | handle packet _ hok ih =>
      rw [← Nat.add_assoc]
      exact ih.handle packet hok
  | write entity newInstance hother _ ih => exact ih.write entity newInstance hother
  | frame dt _ hok ih =>
      rw [← List.append_assoc]
      exact ih.frame dt hok

/-- Frames can always go on. -/
theorem exists_frames (h : Animated t) (dts : List CFloat) :
    ∃ t', Run t 0 dts t' ∧
      ∀ e, animationOf t'.engine.ecs e = (animationOf t.engine.ecs e).map (dts.foldl turn) := by
  induction dts using List.reverseRecOn with
  | nil =>
      refine ⟨t, .start, fun e => ?_⟩
      exact Option.map_id'.symm
  | append_singleton dts dt ih =>
      rcases ih with ⟨t', hrun, hturns⟩
      rcases apply_turns (hrun.animated h).sheets dt with ⟨ecs, hok, -, hturn⟩
      refine ⟨t'.setEcs ecs, hrun.frame dt hok, ?_⟩
      intro e
      change animationOf ecs e = _
      rw [hturn, hturns, map_turns_append]

/-- In every run of the client, whatever its packets contain and however long its frames are:
the animation system never gets to an undefined step, and every animation has the sheet of a
type with several pictures and shows one of them. -/
theorem pictures_in_sheet (h : Run .new n dts t) :
    (∀ dt, ∃ ecs, apply dt t.engine.ecs = some ecs) ∧
      ∀ e anim, animationOf t.engine.ecs e = some anim → ∃ type, InSheet type anim := by
  have hanimated := h.animated .new
  refine ⟨?_, hanimated.sheets⟩
  intro dt
  rcases apply_turns hanimated.sheets dt with ⟨ecs, hok, -⟩
  exact ⟨ecs, hok⟩

/-- An entity that was there has gone, or has seen all the frames. -/
structure Follows (t : HandlerToolbox) (n : ℕ) (dts : List CFloat) (t' : HandlerToolbox) :
    Prop where
  counter : t.engine.ecs.entitiesID ≤ t'.engine.ecs.entitiesID ∧
    t'.engine.ecs.entitiesID ≤ t.engine.ecs.entitiesID + n
  animations : ∀ e < t.engine.ecs.entitiesID, animationOf t'.engine.ecs e = none ∨
    animationOf t'.engine.ecs e = (animationOf t.engine.ecs e).map (dts.foldl turn)
  known : ∀ e, (animationOf t'.engine.ecs e).isSome →
    (animationOf t.engine.ecs e).isSome ∨ e < t'.engine.ecs.entitiesID

theorem Follows.starts {k : ℕ} {t'' : HandlerToolbox} (h : Follows t n dts t')
    (hstarts : Starts k t' t'') (hfew : t.engine.ecs.entitiesID + (n + k) < 2 ^ 64) :
    Follows t (n + k) dts t'' := by
  have hcounter := h.counter
  have hcounter' := hstarts.counter (by omega)
  refine ⟨by omega, ?_, ?_⟩
  · intro e he
    rcases hstarts.animations e with hsame | hnone | ⟨hnew, -⟩
    · rw [hsame]
      exact h.animations e he
    · exact .inl hnone
    · have hnew := hnew (by omega)
      omega
  · intro e hsome
    rcases hstarts.animations e with hsame | hnone | ⟨hnew, -⟩
    · rw [hsame] at hsome
      exact (h.known e hsome).imp_right (by omega)
    · rw [hnone] at hsome
      cases hsome
    · exact .inr (hnew (by omega)).2

theorem Run.follows (h : Run t n dts t') (hstart : Animated t)
    (hfew : t.engine.ecs.entitiesID + n < 2 ^ 64) : Follows t n dts t' := by
  induction h with
  | start =>
      refine ⟨by omega, ?_, fun _ hsome => .inl hsome⟩
      intro e _
      right
      cases animationOf t.engine.ecs e with
      | none => rfl
      | some anim => rfl
  | handle packet hrun hok ih =>
      exact (ih (by omega)).starts (starts_handle (hrun.animated hstart).creators hok) hfew
  | write entity newInstance hother _ ih =>
      exact (ih hfew).starts (starts_write _ entity hother) hfew
  | @frame n dts t' ecs dt hrun hok ih =>
      have hfollows := ih hfew
      rcases apply_turns (hrun.animated hstart).sheets dt with ⟨ecs', hok', hwrites, hturns⟩
      obtain rfl := Option.some.inj (hok.symm.trans hok')
      have hids : (t'.setEcs ecs).engine.ecs.entitiesID = t'.engine.ecs.entitiesID :=
        hwrites.entitiesID
      refine ⟨by rw [hids]; exact hfollows.counter, ?_, ?_⟩
      · intro e he
        change animationOf ecs e = none ∨ animationOf ecs e = _
        rw [hturns]
        rcases hfollows.animations e he with hnone | hsame
        · exact .inl (by rw [hnone]; rfl)
        · exact .inr (by rw [hsame, map_turns_append])
      · intro e hsome
        change (animationOf ecs e).isSome at hsome
        rw [hturns, Option.isSome_map] at hsome
        rw [hids]
        exact hfollows.known e hsome

/-- In every run of the client that describes fewer than 2^64 entities: the picture that an
entity shows depends only on the frames since some moment.  Each time its timer is over, a
looping animation goes on to the next picture, and to the first after the last one; any other
animation goes on until its last picture and stays there. -/
theorem picture_shown (h₀ : Run .new n₀ dts₀ t) (h : Run t n dts t') (hfew : n₀ + n < 2 ^ 64)
    {e : ℕ} {before anim : Animation} (hbefore : animationOf t.engine.ecs e = some before)
    (hanim : animationOf t'.engine.ecs e = some anim) :
    anim = atTime before (dts.foldl (timer before.frameTime) (before.elapsedTime, 0)) := by
  have hanimated := h₀.animated .new
  have hzero : HandlerToolbox.new.engine.ecs.entitiesID = 0 := rfl
  have hold := h₀.follows .new (by omega)
  have hcounter := hold.counter
  have hknown : e < t.engine.ecs.entitiesID := by
    rcases hold.known e (Option.isSome_of_eq_some hbefore) with hsome | hknown
    · rw [animationOf_new] at hsome
      cases hsome
    · exact hknown
  have hnew := h.follows hanimated (by omega)
  rcases hanimated.sheets e before hbefore with ⟨type, hsheet⟩
  rcases hnew.animations e hknown with hnone | hsame
  · rw [hnone] at hanim
    cases hanim
  · rw [hbefore, hanim, Option.map_some, Option.some.injEq] at hsame
    rw [hsame, foldl_turn hsheet]

end

/-! ## An enemy -/

section

/-- The arithmetic of a run in which each frame is long. -/
local instance longFrames : FloatUnit where
  add _ dt := dt

/-- What becomes of a client that is told of an enemy. -/
def tellEnemy (t : HandlerToolbox) : HandlerToolbox :=
  match handleSpawn (enemySpawn 0) t with
  | .ok t' => t'
  | .error _ => t

/-- The client after it has been told of an enemy. -/
def enemyShown : HandlerToolbox :=
  tellEnemy .new

theorem handle_tellEnemy {t : HandlerToolbox} (h : t.Ready) :
    handle t (.spawn (enemySpawn 0)) = .ok (tellEnemy t) := by
  rcases h.handleSpawn_ok (describes_enemySpawn 0) with ⟨t', hok⟩
  rw [tellEnemy, handle, hok]

theorem run_enemyShown : Run .new 1 [] enemyShown :=
  Run.start.handle _ (handle_tellEnemy .new)

/-- Nine frames of half a second. -/
def nineFrames : List CFloat :=
  List.replicate 9 0x3F000000

/-- The enemy shows a picture of its sheet after the frames. -/
theorem pictures_in_sheet_enemy :
    ∃ t anim, Run .new 1 nineFrames t ∧ animationOf t.engine.ecs 0 = some anim ∧
      ∃ type, InSheet type anim := by
  have hshown : (animationOf enemyShown.engine.ecs 0).isSome = true := by decide +kernel
  rcases Option.isSome_iff_exists.mp hshown with ⟨before, hbefore⟩
  rcases exists_frames (run_enemyShown.animated .new) nineFrames with ⟨t, hrun, hturns⟩
  have hanim := hturns 0
  rw [hbefore, Option.map_some] at hanim
  have hwhole : Run .new 1 nineFrames t := run_enemyShown.trans hrun
  exact ⟨t, _, hwhole, hanim, (pictures_in_sheet hwhole).2 0 _ hanim⟩

/-- The enemy has eight pictures, and is at the second one again. -/
theorem picture_shown_enemy :
    ∃ t anim, Run enemyShown 0 nineFrames t ∧ animationOf t.engine.ecs 0 = some anim ∧
      anim.currentFrame = 1 := by
  have hstart : (animationOf enemyShown.engine.ecs 0).map
      (fun anim => (anim.frameCount, anim.currentFrame, anim.frameTime, anim.loop)) =
        some (8, 0, 0x3E19999A, true) := by
    decide +kernel
  rcases Option.map_eq_some_iff.mp hstart with ⟨before, hbefore, hfields⟩
  simp only [Prod.mk.injEq] at hfields
  rcases hfields with ⟨hcount, hcurrent, htime, hloop⟩
  rcases exists_frames (run_enemyShown.animated .new) nineFrames with ⟨t, hrun, hturns⟩
  have hanim := hturns 0
  rw [hbefore, Option.map_some] at hanim
  have hpicture := picture_shown run_enemyShown hrun (by norm_num) hbefore hanim
  have hdue : ge 0x3F000000 0x3E19999A = true := by decide
  have hframe : ∀ time, timer 0x3E19999A time 0x3F000000 = (0, time.2 + 1) := fun time =>
    if_pos hdue
  have hover : (nineFrames.foldl (timer 0x3E19999A) (before.elapsedTime, 0)).2 = 9 := by
    simp only [nineFrames, List.replicate, List.foldl_cons, List.foldl_nil, hframe]
  refine ⟨t, _, hrun, hanim, ?_⟩
  rw [hpicture, htime, atTime]
  dsimp only
  rw [hover, nextPicture, hloop, hcount, hcurrent]
  rfl

end

end Rtype.Client.AnimationSystem
