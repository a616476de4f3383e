import Mathlib
import Rtype.Foundations.Transition

/-!
# Foundations - Boxes that move along the axes

A box has an interval on each axis, and two boxes overlap when their intervals meet on every
axis.  Boxes move one after another, each along one axis at a time.  A box that would run into
others stops at one of them, the first that a search finds.

Main results:

- Theorem {lit}`stop_mem_uIcc_iff`: when such a stop lies on the way of the box.
- Theorem {lit}`separated_move_iff`: when a move keeps boxes apart that were apart.
- Theorems {lit}`throughout_separated_iff` and {lit}`goesOn_iff`: the same for many moves.

Current gaps:

- None.
-/

namespace Boxes

/-! ## Intervals -/

/-- An open interval. -/
structure Interval (α : Type*) where
  start : α
  size : α

section Line

variable {α : Type*} [CommRing α] [LinearOrder α] [IsStrictOrderedRing α] {s t u : Interval α}
  {v : α}

/-- Two intervals meet. -/
def Interval.Meets (s t : Interval α) : Prop :=
  s.start < t.start + t.size ∧ t.start < s.start + s.size

omit [IsStrictOrderedRing α] in
theorem Interval.Meets.symm (h : s.Meets t) : t.Meets s :=
  ⟨h.2, h.1⟩

instance (s t : Interval α) : Decidable (s.Meets t) :=
  inferInstanceAs (Decidable (_ ∧ _))

/-- The interval at another place. -/
def Interval.at (s : Interval α) (start : α) : Interval α :=
  { s with start := start }

/-- Where an interval goes that is to move by {lit}`v`: it stops at the one that was found, at
the end from which it comes. -/
def stop (s : Interval α) (v : α) : Option (Interval α) → α
  | none => s.start + v
  | some t => if v > 0 then t.start - s.size else if v < 0 then t.start + t.size else s.start

/-- The interval lies ahead of a move. -/
structure Ahead (s : Interval α) (v : α) (t : Interval α) : Prop where
  right : 0 < v → s.start + s.size ≤ t.start
  left : v < 0 → t.start + t.size ≤ s.start

/-- A stop at an interval that the move would reach lies on the way if and only if the
interval lies ahead. -/
theorem stop_mem_uIcc_iff {found : Option (Interval α)}
    (hfound : ∀ t, found = some t → (s.at (s.start + v)).Meets t) :
    stop s v found ∈ Set.uIcc s.start (s.start + v) ↔ ∀ t, found = some t → Ahead s v t := by
  cases found with
  | none =>
      have hend : s.start + v ∈ Set.uIcc s.start (s.start + v) := Set.right_mem_uIcc
      exact iff_of_true hend nofun
  | some t =>
      rcases hfound t rfl with ⟨hbefore, hafter⟩
      simp only [Interval.at] at hbefore hafter
      simp only [Option.some.injEq, forall_eq', stop]
      rw [Set.mem_uIcc]
      rcases lt_trichotomy v 0 with hv | rfl | hv
      · rw [if_neg hv.not_gt, if_pos hv]
        constructor
        · intro hstop
          refine ⟨fun hright => absurd hright hv.not_gt, fun _ => ?_⟩
          rcases hstop with ⟨hlow, hhigh⟩ | ⟨hlow, hhigh⟩
          · linarith
          · exact hhigh
        · intro hahead
          exact .inr ⟨hbefore.le, hahead.left hv⟩
      · rw [if_neg (lt_irrefl _), if_neg (lt_irrefl _)]
        constructor
        · intro _
          exact ⟨fun h => absurd h (lt_irrefl _), fun h => absurd h (lt_irrefl _)⟩
        · intro _
          exact .inl ⟨le_rfl, (add_zero s.start).ge⟩
      · rw [if_pos hv]
        constructor
        · intro hstop
          refine ⟨fun _ => ?_, fun hleft => absurd hleft hv.not_gt⟩
          rcases hstop with ⟨hlow, hhigh⟩ | ⟨hlow, hhigh⟩
          · linarith
          · linarith
        · intro hahead
          have hstart := hahead.right hv
          exact .inl ⟨by linarith, by linarith⟩

/-- At its stop the interval meets another one, which is nearer than the one it stops at. -/
inductive Passes (s : Interval α) (v : α) (t u : Interval α) : Prop
  | right (hv : 0 < v) (hnearer : u.start < t.start) (hmeets : t.start - s.size < u.start + u.size)
  | left (hv : v < 0) (hnearer : t.start + t.size < u.start + u.size)
      (hmeets : u.start < t.start + t.size + s.size)

omit [IsStrictOrderedRing α] in
theorem Passes.ne_zero (h : Passes s v t u) : v ≠ 0 := by
  rcases h with ⟨hright, -, -⟩ | ⟨hleft, -, -⟩
  · exact hright.ne'
  · exact hleft.ne

theorem meets_stop_iff (hv : v ≠ 0) : (s.at (stop s v (some t))).Meets u ↔ Passes s v t u := by
  simp only [Interval.Meets, Interval.at, stop]
  rcases hv.lt_or_gt with hv | hv
  · rw [if_neg hv.not_gt, if_pos hv]
    constructor
    · rintro ⟨hnearer, hmeets⟩
      exact .left hv hnearer hmeets
    · rintro (⟨hright, -, -⟩ | ⟨-, hnearer, hmeets⟩)
      · exact absurd hright hv.not_gt
      · exact ⟨hnearer, hmeets⟩
  · rw [if_pos hv]
    constructor
    · rintro ⟨hmeets, hnearer⟩
      exact .right hv (by linarith) hmeets
    · rintro (⟨-, hnearer, hmeets⟩ | ⟨hleft, -, -⟩)
      · exact ⟨hmeets, by linarith⟩
      · exact absurd hleft hv.not_gt

end Line

/-! ## Boxes -/

/-- A box: an interval on each axis. -/
abbrev Box (ι α : Type*) :=
  ι → Interval α

section Space

variable {ι α : Type*} [DecidableEq ι] [CommRing α] [LinearOrder α] [IsStrictOrderedRing α]
  {b c : Box ι α} {i : ι} {start : α}

/-- Two boxes overlap. -/
def Overlap (b c : Box ι α) : Prop :=
  ∀ i, (b i).Meets (c i)

instance [Fintype ι] (b c : Box ι α) : Decidable (Overlap b c) :=
  inferInstanceAs (Decidable (∀ i, (b i).Meets (c i)))

omit [DecidableEq ι] [IsStrictOrderedRing α] in
theorem Overlap.symm (h : Overlap b c) : Overlap c b :=
  fun i => (h i).symm

/-- Two boxes overlap up to one axis. -/
def InLane (i : ι) (b c : Box ι α) : Prop :=
  ∀ j, j ≠ i → (b j).Meets (c j)

/-- The box at another place on an axis. -/
def Box.at (b : Box ι α) (i : ι) (start : α) : Box ι α :=
  Function.update b i ((b i).at start)

omit [IsStrictOrderedRing α] in
theorem overlap_at_iff :
    Overlap (b.at i start) c ↔ ((b i).at start).Meets (c i) ∧ InLane i b c := by
  constructor
  · intro h
    have haxis := h i
    rw [Box.at, Function.update_self] at haxis
    refine ⟨haxis, ?_⟩
    intro j hj
    have hother := h j
    rwa [Box.at, Function.update_of_ne hj] at hother
  · rintro ⟨haxis, hlane⟩ j
    by_cases hj : j = i
    · subst hj
      rwa [Box.at, Function.update_self]
    · rw [Box.at, Function.update_of_ne hj]
      exact hlane j hj

omit [CommRing α] [LinearOrder α] [IsStrictOrderedRing α] in
theorem Box.at_start (b : Box ι α) (i : ι) : b.at i (b i).start = b :=
  Function.update_eq_self i b

end Space

/-! ## Moves -/

/-- A move of a box along an axis. -/
structure Move (κ ι α : Type*) where
  who : κ
  axis : ι
  distance : α

section Moves

variable {κ ι α : Type*} [DecidableEq κ] [DecidableEq ι] [Fintype ι] [CommRing α] [LinearOrder α]
  [IsStrictOrderedRing α]

/-- The search for a box that another one runs into. -/
def firstHit (colliders : List κ) (boxes : κ → Option (Box ι α)) (who : κ) (next : Box ι α) :
    Option κ :=
  colliders.find? fun k =>
    decide (k ≠ who) && (boxes k).any fun c => decide (Overlap next c)

/-- The box that a move runs into, if the search finds one. -/
def hit (colliders : List κ) (boxes : κ → Option (Box ι α)) (move : Move κ ι α) (b : Box ι α) :
    Option (Box ι α) :=
  (firstHit colliders boxes move.who
    (b.at move.axis ((b move.axis).start + move.distance))).bind boxes

/-- Where the box is after its move. -/
def landing (colliders : List κ) (boxes : κ → Option (Box ι α)) (move : Move κ ι α)
    (b : Box ι α) : Box ι α :=
  b.at move.axis (stop (b move.axis) move.distance
    ((hit colliders boxes move b).map fun c => c move.axis))

/-- The boxes after a move. -/
def makeMove (colliders : List κ) (boxes : κ → Option (Box ι α)) (move : Move κ ι α) :
    κ → Option (Box ι α) :=
  match boxes move.who with
  | none => boxes
  | some b => Function.update boxes move.who (some (landing colliders boxes move b))

variable {colliders : List κ} {boxes : κ → Option (Box ι α)} {move : Move κ ι α} {b c : Box ι α}

omit [IsStrictOrderedRing α] in
theorem hit_eq_some (h : hit colliders boxes move b = some c) :
    ∃ k, k ≠ move.who ∧ boxes k = some c ∧
      Overlap (b.at move.axis ((b move.axis).start + move.distance)) c := by
  rcases Option.bind_eq_some_iff.mp h with ⟨k, hfirst, hbox⟩
  have hfound := List.find?_some hfirst
  simp only [hbox, Option.any_some, Bool.and_eq_true, decide_eq_true_eq] at hfound
  exact ⟨k, hfound.1, hbox, hfound.2⟩

omit [IsStrictOrderedRing α] in
theorem hit_eq_none (h : hit colliders boxes move b = none) {k : κ} (hk : k ∈ colliders)
    (hne : k ≠ move.who) (hbox : boxes k = some c) :
    ¬ Overlap (b.at move.axis ((b move.axis).start + move.distance)) c := by
  intro hoverlap
  have hnone := Option.bind_eq_none_iff.mp h
  cases hfirst : firstHit colliders boxes move.who
      (b.at move.axis ((b move.axis).start + move.distance)) with
  | none =>
      have hmiss := List.find?_eq_none.mp hfirst k hk
      simp [hbox, hne, hoverlap] at hmiss
  | some found =>
      have hfound := List.find?_some hfirst
      simp only [Bool.and_eq_true, hnone found hfirst] at hfound
      cases hfound.2

omit [IsStrictOrderedRing α] in
theorem makeMove_of_none (h : boxes move.who = none) : makeMove colliders boxes move = boxes := by
  rw [makeMove, h]

omit [IsStrictOrderedRing α] in
theorem makeMove_of_some (h : boxes move.who = some b) :
    makeMove colliders boxes move =
      Function.update boxes move.who (some (landing colliders boxes move b)) := by
  rw [makeMove, h]

omit [IsStrictOrderedRing α] in
theorem makeMove_of_ne (colliders : List κ) (boxes : κ → Option (Box ι α)) {k : κ}
    (hk : k ≠ move.who) : makeMove colliders boxes move k = boxes k := by
  cases hwho : boxes move.who with
  | none => rw [makeMove_of_none hwho]
  | some b => rw [makeMove_of_some hwho, Function.update_of_ne hk]

omit [IsStrictOrderedRing α] in
theorem makeMove_eq_none_iff {k : κ} :
    makeMove colliders boxes move k = none ↔ boxes k = none := by
  by_cases hk : k = move.who
  · subst hk
    cases hwho : boxes move.who with
    | none =>
        rw [makeMove_of_none hwho]
        exact iff_of_true hwho rfl
    | some b =>
        rw [makeMove_of_some hwho, Function.update_self]
        exact iff_of_false (Option.some_ne_none _) (Option.some_ne_none _)
  · rw [makeMove_of_ne colliders boxes hk]

omit [IsStrictOrderedRing α] in
/-- Where a box goes that runs into nothing. -/
theorem landing_of_none (h : hit colliders boxes move b = none) :
    landing colliders boxes move b = b.at move.axis ((b move.axis).start + move.distance) := by
  rw [landing, h]
  rfl

omit [IsStrictOrderedRing α] in
/-- Where a box goes that runs into another one. -/
theorem landing_of_some (h : hit colliders boxes move b = some c) :
    landing colliders boxes move b =
      b.at move.axis (stop (b move.axis) move.distance (some (c move.axis))) := by
  rw [landing, h]
  rfl

omit [IsStrictOrderedRing α] in
/-- A box stays that is not to move and runs into another one. -/
theorem landing_of_still (h : hit colliders boxes move b = some c) (hv : move.distance = 0) :
    landing colliders boxes move b = b := by
  rw [landing_of_some h, hv, stop, if_neg (lt_irrefl _), if_neg (lt_irrefl _), Box.at_start]

/-- A move of a box that leaves it apart from another one: the other one is not where the box
goes, not nearer in the lane than what the search finds, and not where the box stays. -/
structure Clears (colliders : List κ) (boxes : κ → Option (Box ι α)) (move : Move κ ι α)
    (b c : Box ι α) : Prop where
  missed : hit colliders boxes move b = none →
    ¬ Overlap (b.at move.axis ((b move.axis).start + move.distance)) c
  found : ∀ t, hit colliders boxes move b = some t → move.distance ≠ 0 →
    InLane move.axis b c → ¬ Passes (b move.axis) move.distance (t move.axis) (c move.axis)
  still : ∀ t, hit colliders boxes move b = some t → move.distance = 0 → ¬ Overlap b c

theorem clears_iff :
    Clears colliders boxes move b c ↔ ¬ Overlap (landing colliders boxes move b) c := by
  cases hhit : hit colliders boxes move b with
  | none =>
      rw [landing_of_none hhit]
      constructor
      · intro hclears
        exact hclears.missed hhit
      · intro hfree
        refine ⟨fun _ => hfree, fun t ht => ?_, fun t ht => ?_⟩
        · rw [hhit] at ht
          cases ht
        · rw [hhit] at ht
          cases ht
  | some t =>
      have hsome : hit colliders boxes move b ≠ none := by
        rw [hhit]
        exact Option.some_ne_none t
      by_cases hv : move.distance = 0
      · rw [landing_of_still hhit hv]
        constructor
        · intro hclears
          exact hclears.still t hhit hv
        · intro hfree
          exact ⟨fun hnone => absurd hnone hsome, fun _ _ hne => absurd hv hne, fun _ _ _ => hfree⟩
      · rw [landing_of_some hhit, overlap_at_iff, meets_stop_iff hv, and_comm, not_and]
        constructor
        · intro hclears
          exact hclears.found t hhit hv
        · intro hfree
          refine ⟨fun hnone => absurd hnone hsome, fun t' ht' _ => ?_,
            fun _ _ hzero => absurd hzero hv⟩
          rw [hhit] at ht'
          cases ht'
          exact hfree

/-! ## Boxes that are apart -/

/-- All boxes are apart. -/
def Separated (boxes : κ → Option (Box ι α)) : Prop :=
  ∀ k l b c, k ≠ l → boxes k = some b → boxes l = some c → ¬ Overlap b c

omit [IsStrictOrderedRing α] [DecidableEq ι] [Fintype ι] in
theorem separated_update_iff (h : Separated boxes) {k : κ} :
    Separated (Function.update boxes k (some b)) ↔
      ∀ l c, l ≠ k → boxes l = some c → ¬ Overlap b c := by
  constructor
  · intro hnew l c hne hbox
    apply hnew k l b c hne.symm (Function.update_self ..)
    rwa [Function.update_of_ne hne]
  · intro hfree l m c d hne hc hd
    by_cases hl : l = k
    · subst hl
      rw [Function.update_self] at hc
      rw [Function.update_of_ne hne.symm] at hd
      cases hc
      exact hfree m d hne.symm hd
    · rw [Function.update_of_ne hl] at hc
      by_cases hm : m = k
      · subst hm
        rw [Function.update_self] at hd
        cases hd
        intro hoverlap
        exact hfree l c hl hc hoverlap.symm
      · rw [Function.update_of_ne hm] at hd
        exact h l m c d hne hc hd

/-- The search finds what is in the way of the box: nothing that it does not search for, and
nothing nearer in the lane than what it finds. -/
structure FindsNearest (colliders : List κ) (boxes : κ → Option (Box ι α)) (move : Move κ ι α)
    (b : Box ι α) : Prop where
  missed : hit colliders boxes move b = none → ∀ k c, k ≠ move.who → k ∉ colliders →
    boxes k = some c → ¬ Overlap (b.at move.axis ((b move.axis).start + move.distance)) c
  found : ∀ t, hit colliders boxes move b = some t → ∀ k c, k ≠ move.who → boxes k = some c →
    InLane move.axis b c → ¬ Passes (b move.axis) move.distance (t move.axis) (c move.axis)

omit [IsStrictOrderedRing α] in
/-- Among boxes that are apart, the search finds what is in the way if and only if the move
clears all other boxes. -/
theorem findsNearest_iff (h : Separated boxes) (hwho : boxes move.who = some b) :
    FindsNearest colliders boxes move b ↔
      ∀ k c, k ≠ move.who → boxes k = some c → Clears colliders boxes move b c := by
  constructor
  · intro hnearest k c hne hbox
    constructor
    · intro hnone
      by_cases hk : k ∈ colliders
      · exact hit_eq_none hnone hk hne hbox
      · exact hnearest.missed hnone k c hne hk hbox
    · intro t ht _
      exact hnearest.found t ht k c hne hbox
    · intro _ _ _
      exact h move.who k b c hne.symm hwho hbox
  · intro hclears
    constructor
    · intro hnone k c hne _ hbox
      exact (hclears k c hne hbox).missed hnone
    · intro t ht k c hne hbox hlane hpasses
      exact (hclears k c hne hbox).found t ht hpasses.ne_zero hlane hpasses

/-- A move keeps boxes apart if and only if its search finds what is in the way. -/
theorem separated_move_iff (h : Separated boxes) :
    Separated (makeMove colliders boxes move) ↔
      ∀ b, boxes move.who = some b → FindsNearest colliders boxes move b := by
  cases hwho : boxes move.who with
  | none =>
      rw [makeMove_of_none hwho]
      exact iff_of_true h nofun
  | some b =>
      rw [makeMove_of_some hwho, separated_update_iff h]
      simp only [Option.some.injEq, forall_eq', findsNearest_iff h hwho, clears_iff]

/-- Boxes that are apart stay apart in all moves if and only if each search finds what is in
the way. -/
theorem throughout_separated_iff (h : Separated boxes) (moves : List (Move κ ι α)) :
    Transition.Throughout (makeMove colliders) Separated boxes moves ↔
      Transition.AllowedRun (makeMove colliders)
        (fun boxes move => ∀ b, boxes move.who = some b → FindsNearest colliders boxes move b)
        boxes moves := by
  have hstep : ∀ (boxes : κ → Option (Box ι α)) (move : Move κ ι α), Separated boxes →
      (Separated (makeMove colliders boxes move) ↔
        ∀ b, boxes move.who = some b → FindsNearest colliders boxes move b) :=
    fun _ _ hapart => separated_move_iff hapart
  exact Transition.throughout_iff hstep h moves

/-! ## Boxes on their way -/

/-- Between two states the box has gone a part of its way. -/
def GoesOn (boxes boxes' : κ → Option (Box ι α)) (move : Move κ ι α) : Prop :=
  ∀ b b', boxes move.who = some b → boxes' move.who = some b' →
    (b' move.axis).start ∈
      Set.uIcc (b move.axis).start ((b move.axis).start + move.distance)

omit [IsStrictOrderedRing α] [DecidableEq κ] [DecidableEq ι] [Fintype ι] in
theorem goesOn_iff_of_some {boxes' : κ → Option (Box ι α)} {b' : Box ι α}
    (hbox : boxes move.who = some b) (hbox' : boxes' move.who = some b') :
    GoesOn boxes boxes' move ↔
      (b' move.axis).start ∈
        Set.uIcc (b move.axis).start ((b move.axis).start + move.distance) := by
  constructor
  · intro hgoes
    exact hgoes b b' hbox hbox'
  · intro hmem c c' hc hc'
    rw [hbox] at hc
    rw [hbox'] at hc'
    cases hc
    cases hc'
    exact hmem

/-- What the search finds lies ahead of the box. -/
def FindsAhead (colliders : List κ) (boxes : κ → Option (Box ι α)) (move : Move κ ι α) : Prop :=
  ∀ b t, boxes move.who = some b → hit colliders boxes move b = some t →
    Ahead (b move.axis) move.distance (t move.axis)

omit [IsStrictOrderedRing α] in
/-- A move leaves the intervals on other axes, and the other boxes. -/
theorem exists_makeMove (colliders : List κ) {k : κ} {i : ι} (hbox : boxes k = some b)
    (hother : (k, i) ≠ (move.who, move.axis)) :
    ∃ b', makeMove colliders boxes move k = some b' ∧ b' i = b i := by
  by_cases hk : k = move.who
  · subst hk
    have hi : i ≠ move.axis := fun heq => hother (by rw [heq])
    rw [makeMove_of_some hbox, Function.update_self]
    refine ⟨_, rfl, ?_⟩
    rw [landing, Box.at, Function.update_of_ne hi]
  · exact ⟨b, (makeMove_of_ne colliders boxes hk).trans hbox, rfl⟩

omit [IsStrictOrderedRing α] in
theorem exists_foldl_makeMove (colliders : List κ) {k : κ} {i : ι} {moves : List (Move κ ι α)}
    (hbox : boxes k = some b)
    (hother : (k, i) ∉ moves.map fun move => (move.who, move.axis)) :
    ∃ b', moves.foldl (makeMove colliders) boxes k = some b' ∧ b' i = b i := by
  induction moves generalizing boxes b with
  | nil => exact ⟨b, hbox, rfl⟩
  | cons move moves ih =>
      rw [List.map_cons, List.mem_cons, not_or] at hother
      rcases exists_makeMove colliders hbox hother.1 with ⟨b₁, hbox₁, haxis₁⟩
      rcases ih hbox₁ hother.2 with ⟨b', hbox', haxis'⟩
      exact ⟨b', hbox', haxis'.trans haxis₁⟩

/-- When a box stays where a move has brought it, it has gone on if and only if the search has
found what lies ahead. -/
theorem goesOn_iff_findsAhead {boxes' : κ → Option (Box ι α)} {b' : Box ι α}
    (hbox : boxes move.who = some b) (hbox' : boxes' move.who = some b')
    (hlanded : b' move.axis = landing colliders boxes move b move.axis) :
    GoesOn boxes boxes' move ↔ FindsAhead colliders boxes move := by
  have hstart : (b' move.axis).start = stop (b move.axis) move.distance
      ((hit colliders boxes move b).map fun c => c move.axis) := by
    rw [hlanded, landing, Box.at, Function.update_self]
    rfl
  have hfound : ∀ t, ((hit colliders boxes move b).map fun c => c move.axis) = some t →
      ((b move.axis).at ((b move.axis).start + move.distance)).Meets t := by
    intro t ht
    rcases Option.map_eq_some_iff.mp ht with ⟨c, hhit, rfl⟩
    rcases hit_eq_some hhit with ⟨k, -, -, hoverlap⟩
    exact (overlap_at_iff.mp hoverlap).1
  rw [goesOn_iff_of_some hbox hbox', hstart, stop_mem_uIcc_iff hfound]
  simp only [FindsAhead, hbox, Option.some.injEq, Option.map_eq_some_iff]
  constructor
  · rintro hall _ c rfl hhit
    exact hall _ ⟨c, hhit, rfl⟩
  · rintro hall _ ⟨c, hhit, rfl⟩
    exact hall b c rfl hhit

omit [IsStrictOrderedRing α] in
/-- The other moves begin where they would have begun. -/
theorem goesOn_makeMove_iff (colliders : List κ) (boxes' : κ → Option (Box ι α))
    {later : Move κ ι α} (hother : (later.who, later.axis) ≠ (move.who, move.axis)) :
    GoesOn (makeMove colliders boxes move) boxes' later ↔ GoesOn boxes boxes' later := by
  cases hbox : boxes later.who with
  | none =>
      have hnone : makeMove colliders boxes move later.who = none :=
        makeMove_eq_none_iff.mpr hbox
      exact iff_of_true (fun b _ hb => by simp [hnone] at hb)
        (fun b _ hb => by simp [hbox] at hb)
  | some b =>
      rcases exists_makeMove colliders hbox hother with ⟨b₁, hbox₁, haxis₁⟩
      cases hlast : boxes' later.who with
      | none =>
          exact iff_of_true (fun _ b' _ hb => by simp [hlast] at hb)
            (fun _ b' _ hb => by simp [hlast] at hb)
      | some b' => rw [goesOn_iff_of_some hbox₁ hlast, goesOn_iff_of_some hbox hlast, haxis₁]

/-- When no box moves twice along an axis, all boxes go on if and only if each search finds
what lies ahead. -/
theorem goesOn_iff {moves : List (Move κ ι α)}
    (hnodup : (moves.map fun move => (move.who, move.axis)).Nodup) :
    (∀ move ∈ moves, GoesOn boxes (moves.foldl (makeMove colliders) boxes) move) ↔
      Transition.AllowedRun (makeMove colliders) (FindsAhead colliders) boxes moves := by
  induction moves generalizing boxes with
  | nil => exact iff_of_true nofun trivial
  | cons move moves ih =>
      rw [List.map_cons, List.nodup_cons] at hnodup
      rw [List.forall_mem_cons, List.foldl_cons, Transition.AllowedRun]
      apply and_congr
      · cases hwho : boxes move.who with
        | none =>
            exact iff_of_true (fun b _ hb => by simp [hwho] at hb)
              (fun b _ hb => by simp [hwho] at hb)
        | some b =>
            have hlanded : makeMove colliders boxes move move.who =
                some (landing colliders boxes move b) := by
              rw [makeMove_of_some hwho, Function.update_self]
            rcases exists_foldl_makeMove colliders hlanded hnodup.1 with ⟨b', hbox', haxis'⟩
            exact goesOn_iff_findsAhead hwho hbox' haxis'
      · rw [← ih hnodup.2]
        apply forall₂_congr
        intro later hlater
        rw [goesOn_makeMove_iff]
        intro heq
        exact hnodup.1 (heq ▸ List.mem_map_of_mem hlater)

/-- What the search finds lies ahead of a box that overlaps no other one. -/
theorem findsAhead_of_separated (h : Separated boxes) : FindsAhead colliders boxes move := by
  intro b t hbox hhit
  rcases hit_eq_some hhit with ⟨k, hne, hk, hoverlap⟩
  rcases overlap_at_iff.mp hoverlap with ⟨⟨hbefore, hafter⟩, hlane⟩
  simp only [Interval.at] at hbefore hafter
  -- the box shares the lane, so that it is apart on the axis
  have hapart : ¬ (b move.axis).Meets (t move.axis) := by
    intro hmeets
    apply h move.who k b t hne.symm hbox hk
    rw [← b.at_start move.axis]
    exact overlap_at_iff.mpr ⟨hmeets, hlane⟩
  rw [Interval.Meets, not_and_or, not_lt, not_lt] at hapart
  constructor
  · intro hright
    rcases hapart with hend | hend
    · linarith
    · exact hend
  · intro hleft
    rcases hapart with hend | hend
    · exact hend
    · linarith

/-- There are at most two boxes, and the search goes over both. -/
structure Pair (colliders : List κ) (boxes : κ → Option (Box ι α)) : Prop where
  searched : ∀ k, boxes k ≠ none → k ∈ colliders
  pair : ∀ k l m, boxes k ≠ none → boxes l ≠ none → boxes m ≠ none → k = l ∨ k = m ∨ l = m

omit [IsStrictOrderedRing α] in
theorem Pair.makeMove (h : Pair colliders boxes) (move : Move κ ι α) :
    Pair colliders (Boxes.makeMove colliders boxes move) where
  searched k hk := h.searched k (makeMove_eq_none_iff.not.mp hk)
  pair k l m hk hl hm := h.pair k l m (makeMove_eq_none_iff.not.mp hk)
    (makeMove_eq_none_iff.not.mp hl) (makeMove_eq_none_iff.not.mp hm)

omit [IsStrictOrderedRing α] in
theorem Pair.findsNearest (h : Pair colliders boxes) (hbox : boxes move.who = some b) :
    FindsNearest colliders boxes move b where
  missed _ k c _ hk hc := absurd (h.searched k (by simp [hc])) hk
  found t ht k c hne hc _ hpasses := by
    rcases hit_eq_some ht with ⟨l, hl, hlt, -⟩
    have heq : l = k := by
      rcases h.pair move.who l k (by simp [hbox]) (by simp [hlt]) (by simp [hc]) with h | h | h
      · exact absurd h.symm hl
      · exact absurd h.symm hne
      · exact h
    rw [heq, hc] at hlt
    cases hlt
    -- the other box is not nearer than itself
    rcases hpasses with ⟨-, hnearer, -⟩ | ⟨-, hnearer, -⟩
    · exact lt_irrefl _ hnearer
    · exact lt_irrefl _ hnearer

omit [IsStrictOrderedRing α] in
/-- With two boxes each search finds what is in the way. -/
theorem Pair.allowedRun (h : Pair colliders boxes) (moves : List (Move κ ι α)) :
    Transition.AllowedRun (Boxes.makeMove colliders)
      (fun boxes move => ∀ b, boxes move.who = some b → FindsNearest colliders boxes move b)
      boxes moves := by
  induction moves generalizing boxes with
  | nil => trivial
  | cons move moves ih => exact ⟨fun b hbox => h.findsNearest hbox, ih (h.makeMove move)⟩

/-- Boxes that are always apart always go on. -/
theorem allowedRun_findsAhead {moves : List (Move κ ι α)}
    (h : Transition.Throughout (makeMove colliders) Separated boxes moves) :
    Transition.AllowedRun (makeMove colliders) (FindsAhead colliders) boxes moves := by
  induction moves generalizing boxes with
  | nil => trivial
  | cons move moves ih => exact ⟨findsAhead_of_separated h.1, ih h.2⟩

end Moves

end Boxes
