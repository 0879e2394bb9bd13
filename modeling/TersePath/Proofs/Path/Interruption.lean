import TersePath.Proofs.Path.Length

/-! One path written twice, in the shorter spelling of each command and in the present spellings only. A
kept spelling that is used is at least a character shorter than the present one, and that pays for its own
letter. It does not pay for the letter of the next command, which goes missing only after the same letter. -/

namespace TersePath

def Config.keeping (config : Config) (keep : Bool) : Config := { config with keepSmallerCommand := keep }

def Config.omits (config : Config) (letter : Option Char) (closed : Bool) (text : List Char) : Bool :=
  !config.devmode && config.removeRepeatedLetters && omitsLetter letter closed text

/-- Whether a command in its present spelling has its letter written only because the command before it
is not in its own present spelling. -/
def interrupts (config : Config) (before command : Command) : Bool :=
  let text := command.text config.devmode
  chosenText config command == text &&
    config.omits (before.text config.devmode).head? before.closesSubpath text &&
      !config.omits (chosenText config before).head? before.closesSubpath text

def interruptions (config : Config) : List Command → ℕ
  | before :: command :: rest =>
    (if interrupts config before command then 1 else 0) + interruptions config (command :: rest)
  | _ => 0

section Interruption

variable {config : Config} {command before : Command} {letter other : Option Char} {closed : Bool}
  {text : List Char} {rest : List Command}

lemma chosenText_keeping_false (config : Config) (command : Command) :
    chosenText (config.keeping false) command = command.text config.devmode := by
  obtain hpresent | ⟨_, -, -, hkeeps, -⟩ := chosenText_present_or_kept (config.keeping false) command
  · exact hpresent
  · cases hkeeps

def Config.writtenLength (config : Config) (letter : Option Char) (closed : Bool) (text : List Char) : ℕ :=
  if config.omits letter closed text then text.length - 1 else text.length

def Config.closeLength (config : Config) (command : Command) : ℕ :=
  (if config.devmode then 1 else 0) +
    if command.closesSubpath then (if config.devmode then 2 else 1) else 0

lemma length_serializeFrom_cons :
    (serializeFrom config letter closed (command :: rest)).length =
      config.writtenLength letter closed (chosenText config command) + config.closeLength command +
        (serializeFrom config (chosenText config command).head? command.closesSubpath rest).length := by
  rw [serializeFrom, Config.writtenLength, Config.closeLength, Config.omits]
  cases config.devmode <;> cases command.closesSubpath <;>
    simp [apply_ite List.length] <;> omega

lemma Config.writtenLength_le (config : Config) (letter : Option Char) (closed : Bool) (text : List Char) :
    config.writtenLength letter closed text ≤ text.length := by
  rw [Config.writtenLength]
  split <;> omega

lemma Config.length_le_writtenLength (config : Config) (letter : Option Char) (closed : Bool)
    (text : List Char) : text.length ≤ config.writtenLength letter closed text + 1 := by
  rw [Config.writtenLength]
  split <;> omega

lemma Config.writtenLength_first (config : Config) (text : List Char) :
    config.writtenLength none false text = text.length := by
  refine if_neg fun homits => ?_
  rw [Config.omits, Bool.and_eq_true] at homits
  exact (of_omitsLetter homits.2).2.2.1.elim nofun nofun

lemma writtenLength_interrupted (config : Config) (before command : Command) :
    config.writtenLength (chosenText config before).head? before.closesSubpath (chosenText config command) ≤
      config.writtenLength (before.text config.devmode).head? before.closesSubpath
          (command.text config.devmode) + if interrupts config before command then 1 else 0 := by
  obtain hpresent | ⟨_, -, rfl, -, hkept⟩ := chosenText_present_or_kept config command
  · rw [Config.writtenLength, Config.writtenLength, interrupts, hpresent]
    cases config.omits (chosenText config before).head? before.closesSubpath (command.text config.devmode) with
    | true =>
      simp
      split <;> omega
    | false =>
      simp
      split <;> omega
  · have hle := config.writtenLength_le (chosenText config before).head? before.closesSubpath
      (chosenText config command)
    have hge := config.length_le_writtenLength (before.text config.devmode).head? before.closesSubpath
      (command.text config.devmode)
    omega

lemma length_serializeFrom_interrupted (config : Config) (before : Command) (rest : List Command) :
    (serializeFrom config (chosenText config before).head? before.closesSubpath rest).length ≤
      (serializeFrom (config.keeping false) (before.text config.devmode).head? before.closesSubpath
          rest).length + interruptions config (before :: rest) := by
  induction rest generalizing before with
  | nil => simp [serializeFrom]
  | cons command rest ih =>
    have hcommand := writtenLength_interrupted config before command
    have hrest := ih command
    rw [length_serializeFrom_cons, length_serializeFrom_cons, chosenText_keeping_false, interruptions]
    change _ ≤ config.writtenLength _ _ _ + config.closeLength _ + _ + _
    omega

lemma interruptions_of_lettered (h : config.devmode = true ∨ config.removeRepeatedLetters = false)
    (commands : List Command) : interruptions config commands = 0 := by
  have homits : ∀ letter closed text, config.omits letter closed text = false := by
    intro letter closed text
    rcases h with h | h <;> simp [Config.omits, h]
  induction commands with
  | nil => rfl
  | cons before rest ih =>
    cases rest with
    | nil => rfl
    | cons command rest => simp [interruptions, interrupts, homits, ih]

end Interruption

lemma length_serialize_interrupted (config : Config) (commands : List Command) :
    (serialize (config.keeping true) commands).length ≤
      (serialize (config.keeping false) commands).length +
        interruptions (config.keeping true) (foldCloses commands) := by
  rw [serialize, serialize]
  cases foldCloses commands with
  | nil => simp [serializeFrom]
  | cons command rest =>
    have hfirst : (chosenText (config.keeping true) command).length ≤ (command.text config.devmode).length := by
      obtain hpresent | ⟨_, -, rfl, -, hkept⟩ := chosenText_present_or_kept (config.keeping true) command
      · exact (congrArg List.length hpresent).le
      · exact hkept.le
    have hrest := length_serializeFrom_interrupted (config.keeping true) command rest
    rw [length_serializeFrom_cons, length_serializeFrom_cons, chosenText_keeping_false,
      Config.writtenLength_first, Config.writtenLength_first]
    change _ ≤ _ + (config.keeping true).closeLength command + _ + _
    change _ ≤ (serializeFrom (config.keeping false) (command.text config.devmode).head? _ rest).length + _ at hrest
    omega

/-- Kept spellings make a path longer by no more than the letters that they keep from going missing, and not
at all where no letter may go missing. -/
theorem length_serialize_keeping (config : Config) (commands : List Command) :
    (serialize (config.keeping true) commands).length ≤
      (serialize (config.keeping false) commands).length +
        interruptions (config.keeping true) (foldCloses commands) ∧
    (config.devmode = true ∨ config.removeRepeatedLetters = false →
      (serialize (config.keeping true) commands).length ≤
        (serialize (config.keeping false) commands).length) := by
  have hlength := length_serialize_interrupted config commands
  refine ⟨hlength, fun h => ?_⟩
  have hkeeping : (config.keeping true).devmode = true ∨ (config.keeping true).removeRepeatedLetters = false := h
  have hlettered := interruptions_of_lettered hkeeping (foldCloses commands)
  omega

namespace Example

def staircase : List Command :=
  let n := Binary64.ofInt
  [ { letter := ⟨.move, true⟩, operands := [n 22, n 113] },
    { letter := ⟨.line, false⟩, operands := [n (-3), n (-3)] },
    { letter := ⟨.line, true⟩, operands := [n 9, n 100] },
    { letter := ⟨.line, false⟩, operands := [n (-5), n (-5)] } ]

end Example

theorem length_serialize_keeping_staircase :
    serialize (Config.keeping { removeRepeatedLetters := false } true)
        (simplify (toRelative false Example.staircase)) = "M22 113l-3-3L9 100l-5-5".toList ∧
      serialize (Config.keeping { removeRepeatedLetters := false } false)
        (simplify (toRelative false Example.staircase)) = "M22 113l-3-3l-10-10l-5-5".toList ∧
      (serialize (Config.keeping { removeRepeatedLetters := false } true)
          (simplify (toRelative false Example.staircase))).length ≤
        (serialize (Config.keeping { removeRepeatedLetters := false } false)
          (simplify (toRelative false Example.staircase))).length :=
  ⟨by decide +kernel, by decide +kernel, (length_serialize_keeping _ _).2 (.inr rfl)⟩

/-- The kept spelling of the middle line saves one character, and the letters of two lines come back. -/
theorem length_serialize_staircase :
    (∀ c ∈ Example.staircase, ∀ x ∈ c.operands, x.isInteger = true) ∧
      serialize (Config.keeping {} true) (simplify (toRelative false Example.staircase)) =
        "M22 113l-3-3L9 100l-5-5".toList ∧
      serialize (Config.keeping {} false) (simplify (toRelative false Example.staircase)) =
        "M22 113l-3-3-10-10-5-5".toList ∧
      (serialize (Config.keeping {} false) (simplify (toRelative false Example.staircase))).length <
        (serialize (Config.keeping {} true) (simplify (toRelative false Example.staircase))).length := by
  refine ⟨?_, ?_, ?_, ?_⟩
  all_goals decide +kernel

end TersePath
