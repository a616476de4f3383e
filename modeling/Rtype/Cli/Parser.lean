import Mathlib

/-!
# Command line - The parser of the arguments

Both programs read their arguments with one parser.  An argument that starts with a dash is a
flag, and the argument after it is its value, unless that starts with a dash too.  Everything
else is passed over.

Main results:

- Functions {lit}`parse` and {lit}`hasFlag` and {lit}`getValue`, under the names of the source.
- Theorem {lit}`parse_eq`: the loop with its index against the arguments one after another.
- Theorem {lit}`arguments_found`: which flags are found, and with which values.
- Theorem {lit}`parse_render`: flags that are written out are read back.

Current gaps:

- The type of a flag is left out; only a conversion that neither program uses reads it.
-/

namespace Rtype.Cli

/-! ## The parser -/

/-- {lit}`cli_parser::Flag`, with the key and the value. -/
structure Flag where
  flag : String
  value : String
  deriving DecidableEq

/-- {lit}`arg[0] == '-'`; the first character of an empty string is the null character. -/
def isDashed (arg : String) : Bool :=
  arg.toList.head? == some '-'

/-- The loop of the constructor of {lit}`Parser`, from an index. -/
def parseFrom (argv : List String) (i : ℕ) (flags : List Flag) : List Flag :=
  if h : i < argv.length then
    let arg := argv[i]
    if !isDashed arg then
      parseFrom argv (i + 1) flags
    else if h' : i + 1 ≥ argv.length then
      flags ++ [⟨arg, ""⟩]
    else
      -- the index goes back when the next argument is a flag itself
      if isDashed argv[i + 1] then
        parseFrom argv (i + 1) (flags ++ [⟨arg, ""⟩])
      else
        parseFrom argv (i + 2) (flags ++ [⟨arg, argv[i + 1]⟩])
  else
    flags
termination_by argv.length - i

/-- {lit}`Parser::Parser`. -/
def parse (argv : List String) : List Flag :=
  parseFrom argv 1 []

/-- {lit}`Parser::hasFlag`. -/
def hasFlag (flags : List Flag) (flag : String) : Bool :=
  flags.any fun f => f.flag == flag

/-- {lit}`Parser::getValue`. -/
def getValue (flags : List Flag) (flag : String) : Flag :=
  (flags.find? fun f => f.flag == flag).getD ⟨"", ""⟩

/-! ## The arguments one after another -/

/-- The value that some arguments start with. -/
def valueOf (args : List String) : String :=
  match args with
  | [] => ""
  | arg :: _ => if isDashed arg then "" else arg

/-- The flags among some arguments. -/
def flagsOf : List String → List Flag
  | [] => []
  | arg :: args => if isDashed arg then ⟨arg, valueOf args⟩ :: flagsOf args else flagsOf args

theorem flagsOf_of_plain {arg : String} {args : List String} (h : isDashed arg = false) :
    flagsOf (arg :: args) = flagsOf args := by
  rw [flagsOf, h]
  rfl

theorem flagsOf_of_dashed {arg : String} {args : List String} (h : isDashed arg = true) :
    flagsOf (arg :: args) = ⟨arg, valueOf args⟩ :: flagsOf args := by
  rw [flagsOf, if_pos h]

/-- The loop goes through the arguments that are left. -/
theorem parseFrom_eq (argv : List String) (i : ℕ) (flags : List Flag) :
    parseFrom argv i flags = flags ++ flagsOf (argv.drop i) := by
  induction i, flags using parseFrom.induct argv with
  | case1 i flags h arg hplain ih =>
      rw [parseFrom, dif_pos h, if_pos hplain, ih, List.drop_eq_getElem_cons h,
        flagsOf_of_plain (Bool.not_eq_true' _ ▸ hplain)]
  | case2 i flags h arg hdashed hlast =>
      rw [Bool.not_eq_true, Bool.not_eq_false'] at hdashed
      have hnone : argv.drop (i + 1) = [] := List.drop_of_length_le hlast
      rw [List.drop_eq_getElem_cons h, flagsOf_of_dashed hdashed, hnone, parseFrom, dif_pos h,
        if_neg (by simpa using hdashed), dif_pos hlast]
      rfl
  | case3 i flags h arg hdashed hmore hnext ih =>
      rw [Bool.not_eq_true, Bool.not_eq_false'] at hdashed
      have hcons := List.drop_eq_getElem_cons (not_le.mp hmore)
      rw [parseFrom, dif_pos h, if_neg (by simpa using hdashed), dif_neg hmore, if_pos hnext, ih,
        List.drop_eq_getElem_cons h, flagsOf_of_dashed hdashed, List.append_assoc,
        List.singleton_append]
      congr 3
      rw [hcons, valueOf, if_pos hnext]
  | case4 i flags h arg hdashed hmore hvalue ih =>
      rw [Bool.not_eq_true, Bool.not_eq_false'] at hdashed
      have hcons := List.drop_eq_getElem_cons (not_le.mp hmore)
      rw [parseFrom, dif_pos h, if_neg (by simpa using hdashed), dif_neg hmore, if_neg hvalue, ih,
        List.drop_eq_getElem_cons h, flagsOf_of_dashed hdashed, hcons,
        flagsOf_of_plain (Bool.not_eq_true _ ▸ hvalue), List.append_assoc, List.singleton_append,
        valueOf, if_neg hvalue]
  | case5 i flags h =>
      rw [parseFrom, dif_neg h, List.drop_of_length_le (not_lt.mp h), flagsOf, List.append_nil]

/-- The flags are those of the arguments after the name of the program. -/
theorem parse_eq (argv : List String) : parse argv = flagsOf argv.tail := by
  rw [parse, parseFrom_eq, List.nil_append, List.drop_one]

/-! ## Which flags are found -/

theorem hasFlag_flagsOf (args : List String) (name : String) :
    hasFlag (flagsOf args) name = true ↔ isDashed name = true ∧ name ∈ args := by
  induction args with
  | nil => simp [flagsOf, hasFlag]
  | cons arg args ih =>
      cases hdashed : isDashed arg with
      | false =>
          rw [flagsOf_of_plain hdashed, ih, List.mem_cons]
          constructor
          · exact fun h => ⟨h.1, .inr h.2⟩
          · rintro ⟨hname, rfl | hmem⟩
            · rw [hname] at hdashed
              cases hdashed
            · exact ⟨hname, hmem⟩
      | true =>
          rw [flagsOf_of_dashed hdashed, hasFlag, List.any_cons, Bool.or_eq_true, ← hasFlag, ih,
            List.mem_cons, beq_iff_eq]
          constructor
          · rintro (rfl | h)
            · exact ⟨hdashed, .inl rfl⟩
            · exact ⟨h.1, .inr h.2⟩
          · rintro ⟨hname, rfl | hmem⟩
            · exact .inl rfl
            · exact .inr ⟨hname, hmem⟩

/-- The value comes from the first time that the flag is given. -/
theorem getValue_flagsOf {before after : List String} {name : String}
    (hname : isDashed name = true) (hfirst : name ∉ before) :
    getValue (flagsOf (before ++ name :: after)) name = ⟨name, valueOf after⟩ := by
  induction before with
  | nil =>
      rw [List.nil_append, flagsOf_of_dashed hname, getValue, List.find?_cons_of_pos]
      · rfl
      · exact beq_self_eq_true name
  | cons arg before ih =>
      rw [List.mem_cons, not_or] at hfirst
      rw [List.cons_append]
      cases hdashed : isDashed arg with
      | false => rw [flagsOf_of_plain hdashed, ih hfirst.2]
      | true =>
          rw [flagsOf_of_dashed hdashed, getValue, List.find?_cons_of_neg]
          · exact ih hfirst.2
          · simpa using Ne.symm hfirst.1

/-- A flag is found if and only if it starts with a dash and is given after the name of the
program; its value is the argument after its first occurrence, or empty when that is missing or
a flag itself; and a flag that is not found has an empty value. -/
theorem arguments_found (argv : List String) (name : String) :
    (hasFlag (parse argv) name = true ↔ isDashed name = true ∧ name ∈ argv.tail) ∧
      (∀ before after, argv.tail = before ++ name :: after → name ∉ before →
        isDashed name = true → getValue (parse argv) name = ⟨name, valueOf after⟩) ∧
      (hasFlag (parse argv) name = false → getValue (parse argv) name = ⟨"", ""⟩) := by
  rw [parse_eq]
  refine ⟨hasFlag_flagsOf argv.tail name, ?_, ?_⟩
  · intro before after hargs hfirst hname
    rw [hargs]
    exact getValue_flagsOf hname hfirst
  · intro hnone
    rw [getValue, List.find?_eq_none.mpr (List.any_eq_false.mp hnone)]
    rfl

/-! ## Writing flags out -/

/-- A flag that the parser can return. -/
structure Flag.WellFormed (f : Flag) : Prop where
  flag : isDashed f.flag = true
  value : isDashed f.value = false

/-- Flags as arguments. -/
def render (flags : List Flag) : List String :=
  flags.flatMap fun f => if f.value = "" then [f.flag] else [f.flag, f.value]

theorem isDashed_valueOf (args : List String) : isDashed (valueOf args) = false := by
  cases args with
  | nil => rfl
  | cons arg args =>
      simp only [valueOf]
      split_ifs with hdashed
      · rfl
      · exact Bool.not_eq_true _ ▸ hdashed

theorem wellFormed_flagsOf (args : List String) : ∀ f ∈ flagsOf args, f.WellFormed := by
  induction args with
  | nil =>
      intro f hf
      cases hf
  | cons arg args ih =>
      cases hdashed : isDashed arg with
      | false =>
          rw [flagsOf_of_plain hdashed]
          exact ih
      | true =>
          rw [flagsOf_of_dashed hdashed, List.forall_mem_cons]
          exact ⟨⟨hdashed, isDashed_valueOf args⟩, ih⟩

/-- What comes after a flag without a value is the next flag. -/
theorem valueOf_render {flags : List Flag} (h : ∀ f ∈ flags, f.WellFormed) :
    valueOf (render flags) = "" := by
  cases flags with
  | nil => rfl
  | cons f flags =>
      have hdashed := (h f List.mem_cons_self).flag
      unfold render
      rw [List.flatMap_cons]
      split_ifs
      · exact if_pos hdashed
      · exact if_pos hdashed

theorem flagsOf_render {flags : List Flag} (h : ∀ f ∈ flags, f.WellFormed) :
    flagsOf (render flags) = flags := by
  induction flags with
  | nil => rfl
  | cons f flags ih =>
      rw [List.forall_mem_cons] at h
      have hrest := ih h.2
      rw [render, List.flatMap_cons, ← render]
      split_ifs with hempty
      · rw [List.singleton_append, flagsOf_of_dashed h.1.flag, valueOf_render h.2, hrest,
          ← hempty]
      · rw [List.cons_append, List.singleton_append, flagsOf_of_dashed h.1.flag,
          flagsOf_of_plain h.1.value, hrest, valueOf, if_neg (by simp [h.1.value])]

/-- What the parser returns are flags with a dash whose values have none; and all lists of such
flags, in any order and with any repetitions, are read back after they are written out. -/
theorem parse_render :
    (∀ argv, ∀ f ∈ parse argv, f.WellFormed) ∧
      ∀ (program : String) (flags : List Flag), (∀ f ∈ flags, f.WellFormed) →
        parse (program :: render flags) = flags := by
  constructor
  · intro argv
    rw [parse_eq]
    exact wellFormed_flagsOf argv.tail
  · intro program flags h
    rw [parse_eq, List.tail_cons]
    exact flagsOf_render h

end Rtype.Cli
