import Mathlib
import Rtype.Foundations.Transition
import Rtype.Server.Lobby

/-!
# Server - The clock of a lobby

The thread of a lobby looks at the clock at the start of each turn of its outer loop.  The time
that has passed goes into {lit}`lag`, and each tick takes {lit}`TIME_PER_TICK` out of it, as
long as there is enough.  So a slow turn is made up for by more ticks in the next one.

Main results:

- Structure {lit}`ClockedLobby` and its steps, under the names of the source.
- Theorem {lit}`ClockedLobby.lobby_step`: the lobby does what it does without the clock.
- Theorem {lit}`ClockedLobby.ticks_exact`: no tick is lost, and none is done before its time.

Current gaps:

- Times are exact numbers.
-/

namespace Rtype.Server

open Transition Rtype.Common

/-- {lit}`server::TIME_PER_TICK`, with 20 ticks in a second. -/
def TIME_PER_TICK : ℚ := 1 / 20

/-- The local variables of {lit}`Lobby::run`, and how many ticks have come to their end. -/
structure ClockedLobby where
  lobby : Lobby
  lag : ℚ := 0
  lastTime : ℚ
  ticks : ℕ := 0

namespace ClockedLobby

/-- What happens: the thread looks at the clock and goes on, runs the systems, or ends a tick;
or another thread does something. -/
inductive Act
  | go (currentTime : ℚ)
  | tick (effects : List SystemEffect)
  | direct (wave : Option (List Enemy))
  | outside (change : Lobby → Lobby)

section

variable [FloatUnit]

/-- The lobby makes a step. -/
def advance (clocked : ClockedLobby) (act : Lobby.ThreadAct) : ClockedLobby :=
  { clocked with lobby := clocked.lobby.advance act }

/-- {lit}`lag += elapsed.count()`, at the start of a turn of the outer loop. -/
def readClock (clocked : ClockedLobby) (currentTime : ℚ) : ClockedLobby :=
  let elapsed := currentTime - clocked.lastTime
  { clocked with lag := clocked.lag + elapsed, lastTime := currentTime }

/-- {lit}`lag -= server::TIME_PER_TICK`, when nothing was thrown. -/
def endTick (clocked : ClockedLobby) (wave : Option (List Enemy)) : ClockedLobby :=
  match clocked.lobby.direct wave with
  | .ok _ =>
      { clocked with lag := clocked.lag - TIME_PER_TICK, ticks := clocked.ticks + 1 }
  | .error _ => clocked

/-- One step of {lit}`Lobby::run`. -/
def step (clocked : ClockedLobby) : Act → ClockedLobby
  | .go currentTime =>
      match clocked.lobby.phase with
      | .test =>
          if clocked.lobby.isRunning then (clocked.readClock currentTime).advance .go
          else clocked.advance .go
      | .ticking => if TIME_PER_TICK ≤ clocked.lag then clocked else clocked.advance .go
      | .draining => clocked.advance .go
      | .directing => clocked
      | .returned => clocked
  | .tick effects =>
      match clocked.lobby.phase with
      | .ticking =>
          if TIME_PER_TICK ≤ clocked.lag then clocked.advance (.tick effects) else clocked
      | _ => clocked
  | .direct wave =>
      match clocked.lobby.phase with
      | .directing => (clocked.endTick wave).advance (.direct wave)
      | _ => clocked
  | .outside change => { clocked with lobby := change clocked.lobby }

/-- The clock never goes back, and other threads do not change where this one is. -/
def Allowed (clocked : ClockedLobby) : Act → Prop
  | .go currentTime => clocked.lastTime ≤ currentTime
  | .tick _ => True
  | .direct _ => True
  | .outside change => (change clocked.lobby).phase = clocked.lobby.phase

/-- The start of {lit}`Lobby::run`, at some time. -/
def Starts (startTime : ℚ) (clocked : ClockedLobby) : Prop :=
  ∃ lobby : Lobby, lobby.phase = .test ∧ clocked = { lobby := lobby, lastTime := startTime }

/-- The states of a lobby whose thread starts at some time. -/
abbrev Runs (startTime : ℚ) : ClockedLobby → Prop :=
  Reachable (Starts startTime) step Allowed

/-! ## The same thread without the clock -/

variable {startTime : ℚ} {clocked : ClockedLobby}

/-- A step does with the lobby what the thread does without the clock, or what the other
threads do. -/
theorem lobby_step (clocked : ClockedLobby) (a : Act) :
    (clocked.step a).lobby = clocked.lobby ∨
      (∃ act, (clocked.step a).lobby = clocked.lobby.advance act) ∨
      ∃ change, a = .outside change ∧ (clocked.step a).lobby = change clocked.lobby := by
  cases a with
  | go currentTime =>
      unfold step
      cases clocked.lobby.phase with
      | test =>
          dsimp only
          split_ifs
          · exact .inr (.inl ⟨.go, rfl⟩)
          · exact .inr (.inl ⟨.go, rfl⟩)
      | draining => exact .inr (.inl ⟨.go, rfl⟩)
      | ticking =>
          dsimp only
          split_ifs
          · exact .inl rfl
          · exact .inr (.inl ⟨.go, rfl⟩)
      | directing => exact .inl rfl
      | returned => exact .inl rfl
  | tick effects =>
      unfold step
      dsimp only
      split
      · split_ifs
        · exact .inr (.inl ⟨.tick effects, rfl⟩)
        · exact .inl rfl
      · exact .inl rfl
  | direct wave =>
      unfold step
      dsimp only
      split
      · refine .inr (.inl ⟨.direct wave, ?_⟩)
        unfold endTick
        split <;> rfl
      · exact .inl rfl
  | outside change => exact .inr (.inr ⟨change, rfl, rfl⟩)

/-! ## The ticks are on time -/

/-- The time that has passed is in the ticks and in the lag, which is not larger than a tick
when the thread is between its turns, and not smaller than a tick when it is within one. -/
structure OnTime (startTime : ℚ) (clocked : ClockedLobby) : Prop where
  total : clocked.lastTime - startTime = clocked.ticks * TIME_PER_TICK + clocked.lag
  nonneg : 0 ≤ clocked.lag
  between : clocked.lobby.phase = .test → clocked.lag < TIME_PER_TICK
  within : clocked.lobby.phase = .directing → TIME_PER_TICK ≤ clocked.lag

omit [FloatUnit] in
theorem phase_resume (lobby : Lobby) (phase : Phase) (result : Except Fault Lobby) :
    (lobby.resume phase result).phase = phase ∨ (lobby.resume phase result).phase = .returned := by
  cases result with
  | ok lobby' => exact .inl rfl
  | error fault => exact .inr rfl

theorem phase_popTask (lobby : Lobby) :
    lobby.popTask.phase = .draining ∨ lobby.popTask.phase = .ticking ∨
      lobby.popTask.phase = .returned := by
  unfold Lobby.popTask
  split
  · exact .inr (.inl rfl)
  · rcases phase_resume _ .draining _ with hphase | hphase
    · exact .inl hphase
    · exact .inr (.inr hphase)

omit [FloatUnit] in
/-- In the other phases only the sum matters. -/
theorem OnTime.of_phase (htotal : clocked.lastTime - startTime =
    clocked.ticks * TIME_PER_TICK + clocked.lag) (hnonneg : 0 ≤ clocked.lag)
    (htest : clocked.lobby.phase ≠ .test) (hdirecting : clocked.lobby.phase ≠ .directing) :
    OnTime startTime clocked := by
  constructor
  · exact htotal
  · exact hnonneg
  · exact fun hphase => absurd hphase htest
  · exact fun hphase => absurd hphase hdirecting

/-- A step of the lobby into one of the other phases. -/
theorem OnTime.leave (h : OnTime startTime clocked) {act : Lobby.ThreadAct} {phase : Phase}
    (hgone : (clocked.lobby.advance act).phase = phase) (htest : phase ≠ .test)
    (hdirecting : phase ≠ .directing) : OnTime startTime (clocked.advance act) :=
  .of_phase h.total h.nonneg (hgone.trans_ne htest) (hgone.trans_ne hdirecting)

/-- The thread goes on. -/
theorem OnTime.go (h : OnTime startTime clocked) {currentTime : ℚ}
    (hclock : clocked.lastTime ≤ currentTime) :
    OnTime startTime (clocked.step (.go currentTime)) := by
  unfold step
  dsimp only
  cases hphase : clocked.lobby.phase with
  | test =>
      dsimp only
      split_ifs with hrunning
      · have hgone : (clocked.lobby.advance .go).phase = .draining := by
          simp only [Lobby.advance, hphase, hrunning, if_true]
        apply OnTime.of_phase
        · simp only [ClockedLobby.advance, readClock]
          linarith [h.total]
        · simp only [ClockedLobby.advance, readClock]
          linarith [h.nonneg]
        · exact hgone.trans_ne (by decide)
        · exact hgone.trans_ne (by decide)
      · have hgone : (clocked.lobby.advance .go).phase = .returned := by
          simp only [Lobby.advance, hphase, hrunning, if_false, Bool.false_eq_true]
        exact h.leave hgone (by decide) (by decide)
  | draining =>
      have hgone : (clocked.lobby.advance .go).phase = clocked.lobby.popTask.phase := by
        simp only [Lobby.advance, hphase]
      rcases phase_popTask clocked.lobby with hnext | hnext | hnext
      · exact h.leave (hgone.trans hnext) (by decide) (by decide)
      · exact h.leave (hgone.trans hnext) (by decide) (by decide)
      · exact h.leave (hgone.trans hnext) (by decide) (by decide)
  | ticking =>
      dsimp only
      split_ifs with hdue
      · exact h
      · have hgone : (clocked.lobby.advance .go).phase = .test := by
          simp only [Lobby.advance, hphase]
        constructor
        · exact h.total
        · exact h.nonneg
        · exact fun _ => not_le.mp hdue
        · intro hdirecting
          rw [ClockedLobby.advance, hgone] at hdirecting
          cases hdirecting
  | directing => exact h
  | returned => exact h

/-- The systems run. -/
theorem OnTime.tick (h : OnTime startTime clocked) (effects : List SystemEffect) :
    OnTime startTime (clocked.step (.tick effects)) := by
  unfold step
  dsimp only
  split
  · rename_i hphase
    split_ifs with hdue
    · have hgone : (clocked.lobby.advance (.tick effects)).phase = .directing ∨
          (clocked.lobby.advance (.tick effects)).phase = .returned := by
        simp only [Lobby.advance, hphase]
        exact phase_resume _ _ _
      constructor
      · exact h.total
      · exact h.nonneg
      · intro htest
        rw [ClockedLobby.advance] at htest
        rcases hgone with hgone | hgone <;> rw [hgone] at htest <;> cases htest
      · exact fun _ => hdue
    · exact h
  · exact h

/-- A tick comes to its end. -/
theorem OnTime.direct (h : OnTime startTime clocked) (wave : Option (List Enemy)) :
    OnTime startTime (clocked.step (.direct wave)) := by
  unfold step
  dsimp only
  split
  · rename_i hphase
    have hdue := h.within hphase
    cases hdirect : clocked.lobby.direct wave with
    | ok lobby' =>
        have hgone : (clocked.lobby.advance (.direct wave)).phase = .ticking := by
          simp only [Lobby.advance, hphase, hdirect]
          rfl
        have hended : clocked.endTick wave =
            { clocked with lag := clocked.lag - TIME_PER_TICK, ticks := clocked.ticks + 1 } := by
          simp only [endTick, hdirect]
        rw [hended]
        apply OnTime.of_phase
        · simp only [ClockedLobby.advance]
          push_cast
          linarith [h.total]
        · simp only [ClockedLobby.advance]
          linarith
        · exact hgone.trans_ne (by decide)
        · exact hgone.trans_ne (by decide)
    | error fault =>
        have hgone : (clocked.lobby.advance (.direct wave)).phase = .returned := by
          simp only [Lobby.advance, hphase, hdirect]
          rfl
        have hended : clocked.endTick wave = clocked := by
          simp only [endTick, hdirect]
        rw [hended]
        exact h.leave hgone (by decide) (by decide)
  · exact h

theorem OnTime.step {a : Act} (h : OnTime startTime clocked) (ha : Allowed clocked a) :
    OnTime startTime (clocked.step a) := by
  cases a with
  | go currentTime => exact h.go ha
  | tick effects => exact h.tick effects
  | direct wave => exact h.direct wave
  | outside change =>
      constructor
      · exact h.total
      · exact h.nonneg
      · exact fun hphase => h.between (ha.symm.trans hphase)
      · exact fun hphase => h.within (ha.symm.trans hphase)

theorem Runs.onTime (h : Runs startTime clocked) : OnTime startTime clocked := by
  apply h.invariant
  · rintro clocked ⟨lobby, hphase, rfl⟩
    constructor
    · simp
    · exact le_rfl
    · exact fun _ => by norm_num [TIME_PER_TICK]
    · intro hdirecting
      rw [hphase] at hdirecting
      cases hdirecting
  · intro clocked a _ ha ih
    exact ih.step ha

/-- In every run of the thread of a lobby, whatever its tasks, systems and waves do, whatever
other threads do to it, and however long each turn takes: the ticks that have come to their end
are never more than fit into the time that the clock has shown, and whenever the thread is
between two turns of its loop they are exactly as many, however slow the turns were. -/
theorem ticks_exact {startTime : ℚ} {clocked : ClockedLobby} (h : Runs startTime clocked) :
    clocked.ticks ≤ ⌊(clocked.lastTime - startTime) / TIME_PER_TICK⌋₊ ∧
      (clocked.lobby.phase = .test →
        clocked.ticks = ⌊(clocked.lastTime - startTime) / TIME_PER_TICK⌋₊) := by
  have honTime := h.onTime
  have hpositive : 0 < TIME_PER_TICK := by norm_num [TIME_PER_TICK]
  have hratio : (clocked.lastTime - startTime) / TIME_PER_TICK =
      clocked.ticks + clocked.lag / TIME_PER_TICK := by
    rw [honTime.total, add_div, mul_div_cancel_right₀ _ hpositive.ne']
  have hfloor : ⌊(clocked.lastTime - startTime) / TIME_PER_TICK⌋₊ =
      clocked.ticks + ⌊clocked.lag / TIME_PER_TICK⌋₊ := by
    rw [hratio, add_comm, Nat.floor_add_natCast (div_nonneg honTime.nonneg hpositive.le), add_comm]
  rw [hfloor]
  constructor
  · exact Nat.le_add_right _ _
  · intro hphase
    have hless : clocked.lag / TIME_PER_TICK < 1 :=
      (div_lt_one hpositive).mpr (honTime.between hphase)
    rw [Nat.floor_eq_zero.mpr hless, Nat.add_zero]

end

/-! ## A slow turn -/

section

local instance clockUnit : FloatUnit := .addsZero

/-- The first look at the clock is late, and two ticks are due. -/
def lateActs : List Act :=
  [.go (3 / 25), .go (3 / 25), .tick [], .direct none, .tick [], .direct none, .go (3 / 25)]

/-- A lobby that is running and has no players. -/
def lateLobby : ClockedLobby where
  lobby := { Lobby.new 0 with isRunning := true }
  lastTime := 0

theorem ticks_exact_late :
    (lateActs.foldl step lateLobby).ticks = 2 ∧
      (lateActs.foldl step lateLobby).ticks =
        ⌊((lateActs.foldl step lateLobby).lastTime - 0) / TIME_PER_TICK⌋₊ := by
  have hticks : (lateActs.foldl step lateLobby).ticks = 2 := by decide +kernel
  have hphase : (lateActs.foldl step lateLobby).lobby.phase = .test := by decide +kernel
  have hclock : AllowedRun step Allowed lateLobby lateActs := by
    refine ⟨?_, ?_, trivial, trivial, trivial, trivial, ?_, trivial⟩ <;>
      simp only [Allowed] <;> decide +kernel
  have hstart : Runs 0 lateLobby := .start ⟨_, rfl, rfl⟩
  exact ⟨hticks, (ticks_exact (hstart.run hclock)).2 hphase⟩

end

end ClockedLobby

end Rtype.Server
