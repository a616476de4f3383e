import Mathlib.Data.List.Basic

/-!
# Foundations - Registers that are kept up to date by messages

Someone owns a value and sends messages about it; each message gives the value that the
register has now, or says nothing.  A replica that handles the messages in order ends with
what the last message said, and with its own value when none said anything.  A register for
each key is a family of such registers over the same messages.

Main results:

- Function {lit}`Registers.lastSaid`: the value of the last message that gives one.
- Theorem {lit}`Registers.replay_eq_lastSaid`: a replica ends with that value.
- Theorem {lit}`Registers.Tells.trans`: accounts of two stretches of time compose.

Current gaps:

- None.
-/

namespace Registers

variable {μ α : Type*}

/-- The value of the last message that gives one. -/
def lastSaid (gives : μ → Option α) (messages : List μ) : Option α :=
  messages.reverse.findSome? gives

/-- The register after the messages. -/
def replay (gives : μ → Option α) (value : α) (messages : List μ) : α :=
  messages.foldl (fun value message => (gives message).getD value) value

variable {gives : μ → Option α}

@[simp]
theorem lastSaid_nil : lastSaid gives [] = none :=
  rfl

@[simp]
theorem lastSaid_singleton (message : μ) : lastSaid gives [message] = gives message := by
  rw [lastSaid, List.reverse_singleton, List.findSome?_singleton]

theorem lastSaid_append (messages messages' : List μ) :
    lastSaid gives (messages ++ messages') =
      (lastSaid gives messages').or (lastSaid gives messages) := by
  rw [lastSaid, List.reverse_append, List.findSome?_append]
  rfl

theorem lastSaid_cons (message : μ) (messages : List μ) :
    lastSaid gives (message :: messages) = (lastSaid gives messages).or (gives message) := by
  rw [← List.singleton_append, lastSaid_append, lastSaid_singleton]

theorem lastSaid_eq_none {messages : List μ} (h : ∀ message ∈ messages, gives message = none) :
    lastSaid gives messages = none := by
  rw [lastSaid, List.findSome?_eq_none_iff]
  intro message hmem
  exact h message (List.mem_reverse.mp hmem)

@[simp]
theorem replay_nil (value : α) : replay gives value [] = value :=
  rfl

theorem replay_cons (value : α) (message : μ) (messages : List μ) :
    replay gives value (message :: messages) =
      replay gives ((gives message).getD value) messages :=
  rfl

theorem replay_append (value : α) (messages messages' : List μ) :
    replay gives value (messages ++ messages') =
      replay gives (replay gives value messages) messages' :=
  List.foldl_append

/-- A replica ends with what the last message said. -/
theorem replay_eq_lastSaid (value : α) (messages : List μ) :
    replay gives value messages = (lastSaid gives messages).getD value := by
  induction messages generalizing value with
  | nil => rfl
  | cons message messages ih =>
      rw [replay_cons, ih, lastSaid_cons]
      cases lastSaid gives messages with
      | none => rfl
      | some last => rfl

/-- The messages tell what has become of a value: replaying them on the old value gives the
new one. -/
def Tells (gives : μ → Option α) (messages : List μ) (before after : α) : Prop :=
  replay gives before messages = after

theorem Tells.trans {messages messages' : List μ} {a b c : α} (h : Tells gives messages a b)
    (h' : Tells gives messages' b c) : Tells gives (messages ++ messages') a c := by
  rw [Tells, replay_append, show replay gives a messages = b from h]
  exact h'

end Registers
