import TersePath.Proofs.Path.Guarded

namespace TersePath

def Compacts (letter : Option Char) : Prop := letter = some 'c' ∨ letter = some 'l'

instance : DecidablePred Compacts := fun _ => inferInstanceAs (Decidable (_ ∨ _))

lemma compacts_char (letter : Letter) :
    Compacts (some letter.char) ↔ letter = ⟨.cubic, false⟩ ∨ letter = ⟨.line, false⟩ := by
  obtain ⟨kind, absolute⟩ := letter
  cases kind <;> cases absolute <;> decide

def writtenLength (letter : Option Char) (closed : Bool) (text : List Char) : ℕ :=
  if omitsLetter letter closed text then text.length - 1 else text.length

def leastLength (text : List Char) : ℕ := writtenLength text.head? false text

section Text

variable {letter : Option Char} {closed : Bool} {text : List Char}

lemma of_omitsLetter (h : omitsLetter letter closed text = true) :
    closed = false ∧ text.head? = letter ∧ Compacts letter ∧ 2 ≤ text.length := by
  rw [omitsLetter.eq_def] at h
  split at h
  · next c rest =>
    simp only [Bool.and_eq_true, Bool.or_eq_true, beq_iff_eq, Bool.not_eq_true'] at h
    obtain ⟨⟨hc, rfl⟩, hclosed⟩ := h
    exact ⟨hclosed, rfl, hc.imp (congrArg some) (congrArg some), by simp⟩
  · cases h

lemma writtenLength_le : writtenLength letter closed text ≤ text.length := by
  rw [writtenLength]
  split <;> omega

lemma length_le_writtenLength : text.length ≤ writtenLength letter closed text + 1 := by
  rw [writtenLength]
  split <;> omega

lemma leastLength_le : leastLength text ≤ writtenLength letter closed text := by
  by_cases h : omitsLetter letter closed text = true
  · obtain ⟨rfl, rfl, -, -⟩ := of_omitsLetter h
    exact le_rfl
  · rw [writtenLength, if_neg h]
    exact writtenLength_le

lemma writtenLength_of_letter (h : ¬ Compacts letter) : writtenLength letter closed text = text.length :=
  if_neg fun homits => h (of_omitsLetter homits).2.2.1

lemma writtenLength_of_head (h : ¬ Compacts text.head?) : writtenLength letter closed text = text.length := by
  refine if_neg fun homits => ?_
  obtain ⟨-, rfl, hcompacts, -⟩ := of_omitsLetter homits
  exact h hcompacts

lemma writtenLength_pos (h : text ≠ []) : 1 ≤ writtenLength letter closed text := by
  rw [writtenLength]
  split
  · next homits =>
    have := (of_omitsLetter homits).2.2.2
    omega
  · exact List.length_pos_of_ne_nil h

end Text

def pathLength (spell : Command → List Char) (letter : Option Char) (closed : Bool) :
    List Command → ℕ
  | [] => 0
  | command :: rest =>
    if command.kind = .close then (if closed then 0 else 1) + pathLength spell letter true rest
    else writtenLength letter closed (spell command) + pathLength spell (spell command).head? false rest

section Path

variable {spell : Command → List Char} {letter other : Option Char} {closed : Bool}
  {command : Command} {xs ys commands : List Command}

lemma pathLength_close (h : command.kind = .close) : pathLength spell letter closed (command :: xs) =
    (if closed then 0 else 1) + pathLength spell letter true xs := by
  rw [pathLength, if_pos h]

lemma pathLength_cons (h : command.kind ≠ .close) : pathLength spell letter closed (command :: xs) =
    writtenLength letter closed (spell command) + pathLength spell (spell command).head? false xs := by
  rw [pathLength, if_neg h]

lemma pathLength_closed (letter other : Option Char) :
    pathLength spell letter true commands = pathLength spell other true commands := by
  have hwritten : ∀ letter text, writtenLength letter true text = text.length := fun letter text =>
    if_neg fun homits => Bool.noConfusion (of_omitsLetter homits).1
  induction commands generalizing letter other with
  | nil => rfl
  | cons command rest ih =>
    by_cases hclose : command.kind = .close
    · rw [pathLength_close hclose, pathLength_close hclose, ih letter other]
    · rw [pathLength_cons hclose, pathLength_cons hclose, hwritten, hwritten]

lemma pathLength_le_succ (spell : Command → List Char) (commands : List Command)
    (letter other : Option Char) (closed closed' : Bool) :
    pathLength spell letter closed commands ≤ pathLength spell other closed' commands + 1 := by
  cases commands with
  | nil => simp [pathLength]
  | cons command rest =>
    by_cases hclose : command.kind = .close
    · rw [pathLength_close hclose, pathLength_close hclose, pathLength_closed letter other]
      split <;> omega
    · rw [pathLength_cons hclose, pathLength_cons hclose]
      have hle : writtenLength letter closed (spell command) ≤ _ := writtenLength_le
      have hge : _ ≤ writtenLength other closed' (spell command) + 1 := length_le_writtenLength
      omega

lemma pathLength_le_plain (h : ¬ Compacts other) :
    pathLength spell letter closed commands ≤ pathLength spell other closed commands := by
  cases commands with
  | nil => exact le_rfl
  | cons command rest =>
    by_cases hclose : command.kind = .close
    · rw [pathLength_close hclose, pathLength_close hclose, pathLength_closed letter other]
    · rw [pathLength_cons hclose, pathLength_cons hclose, writtenLength_of_letter h]
      exact Nat.add_le_add_right writtenLength_le _

lemma pathLength_drop (h : command.kind ≠ .close → spell command ≠ []) :
    pathLength spell letter closed xs ≤ pathLength spell letter closed (command :: xs) := by
  by_cases hclose : command.kind = .close
  · rw [pathLength_close hclose]
    cases closed with
    | true => simp
    | false =>
      have hle := pathLength_le_succ spell xs letter letter false true
      simpa [Nat.add_comm] using hle
  · rw [pathLength_cons hclose]
    -- the command that is gone pays for the letter after it
    have hpos : 1 ≤ writtenLength letter closed (spell command) := writtenLength_pos (h hclose)
    have hle := pathLength_le_succ spell xs letter (spell command).head? closed false
    omega

lemma pathLength_cons_mono {k : ℕ}
    (h : ∀ letter closed, pathLength spell letter closed xs ≤ pathLength spell letter closed ys + k)
    (command : Command) (letter : Option Char) (closed : Bool) :
    pathLength spell letter closed (command :: xs) ≤ pathLength spell letter closed (command :: ys) + k := by
  by_cases hclose : command.kind = .close
  · rw [pathLength_close hclose, pathLength_close hclose, Nat.add_assoc]
    exact Nat.add_le_add_left (h _ _) _
  · rw [pathLength_cons hclose, pathLength_cons hclose, Nat.add_assoc]
    exact Nat.add_le_add_left (h _ _) _

lemma pathLength_append_mono {k : ℕ}
    (h : ∀ letter closed, pathLength spell letter closed xs ≤ pathLength spell letter closed ys + k)
    (previous : Option Command) (letter : Option Char) (closed : Bool) :
    pathLength spell letter closed (previous.toList ++ xs) ≤
      pathLength spell letter closed (previous.toList ++ ys) + k := by
  cases previous with
  | none => exact h letter closed
  | some previous => exact pathLength_cons_mono h previous letter closed

lemma pathLength_trimMoves (hspelled : ∀ c ∈ commands, c.kind ≠ .close → spell c ≠ []) :
    pathLength spell letter closed (trimMoves commands) ≤ pathLength spell letter closed commands := by
  induction commands generalizing letter closed with
  | nil => exact le_rfl
  | cons command rest ih =>
    obtain ⟨-, hrest⟩ := List.forall_mem_cons.mp hspelled
    rw [trimMoves_cons]
    split
    · exact Nat.zero_le _
    · exact pathLength_cons_mono (k := 0) (fun _ _ => ih hrest) command letter closed

end Path

lemma pathLength_marked (spell : Command → List Char) (commands : List Command) (letter : Option Char) :
    pathLength spell letter false commands =
      (if commands.head?.any fun next => next.kind == .close then 1 else 0) +
        pathLength spell letter (commands.head?.any fun next => next.kind == .close) commands := by
  cases commands with
  | nil => rfl
  | cons command rest =>
    by_cases hclose : command.kind = .close
    · simp [pathLength_close hclose, hclose]
    · have hopen : (command.kind == .close) = false := beq_eq_false_iff_ne.mpr hclose
      simp [hopen]

/-- The text of a path is as long as its commands in the spellings that are chosen for them. -/
theorem length_serializeFrom {commands : List Command}
    (hopen : ∀ c ∈ commands, c.closesSubpath = false) {letter : Option Char} {closed : Bool}
    (h : closed = true ∨ ∀ c ∈ commands.head?, c.kind ≠ .close) :
    (serializeFrom {} letter closed (foldCloses commands)).length =
      pathLength (chosenText {}) letter closed commands := by
  induction commands generalizing letter closed with
  | nil => rfl
  | cons command rest ih =>
    obtain ⟨hcommand, hrest⟩ := List.forall_mem_cons.mp hopen
    by_cases hclose : command.kind = .close
    · have htrue : closed = true := h.resolve_right fun hne => hne command rfl hclose
      rw [foldCloses_close hclose, pathLength_close hclose, ih hrest (Or.inl htrue), htrue]
      simp
    · have hothers : (rest.head?.any fun next => next.kind == .close) = true ∨
          ∀ c ∈ rest.head?, c.kind ≠ .close := by
        rw [or_iff_not_imp_left, Bool.not_eq_true]
        intro hany c hc
        rw [hc] at hany
        exact beq_eq_false_iff_ne.mp hany
      have hshort : ∀ text : List Char, (if omitsLetter letter closed text then text.tail else text).length =
          writtenLength letter closed text := by
        intro text
        rw [writtenLength]
        split
        · exact List.length_tail
        · rfl
      have hlength : (serializeFrom {} (chosenText {} command).head? _ (foldCloses rest)).length = _ :=
        ih hrest hothers
      rw [foldCloses_cons hclose, pathLength_cons hclose, pathLength_marked, ← hlength, ← hshort]
      cases rest.head?.any fun next => next.kind == .close with
      | true =>
        have hchosen : chosenText {} { command with closesSubpath := true } = chosenText {} command := rfl
        simp [serializeFrom, hchosen, Nat.add_comm]
      | false =>
        simp [serializeFrom, hcommand]

theorem length_serialize {commands : List Command} (hhead : BeginsWithMove commands)
    (hopen : ∀ c ∈ commands, c.closesSubpath = false) :
    (serialize {} commands).length = pathLength (chosenText {}) none false commands := by
  refine length_serializeFrom hopen (Or.inr fun c hc hclose => ?_)
  cases (hhead c hc).symm.trans hclose

section Sweeps

variable {spell : Command → List Char} {edit : Option Command → Command → Option Command → Edit}
  {letter : Option Char} {closed : Bool} {previous : Option Command} {commands rest : List Command}
  {command other : Command}

lemma pathLength_replace (h : other.kind = .close ↔ command.kind = .close)
    (hspell : spell other = spell command) :
    pathLength spell letter closed (other :: rest) = pathLength spell letter closed (command :: rest) := by
  by_cases hclose : command.kind = .close
  · rw [pathLength_close hclose, pathLength_close (h.mpr hclose)]
  · rw [pathLength_cons hclose, pathLength_cons (h.not.mpr hclose), hspell]

lemma pathLength_sweep (hmerge : ∀ previous command next other, edit previous command next ≠ .merge other)
    (hreplace : ∀ previous command next other, edit previous command next = .replace other →
      (other.kind = .close ↔ command.kind = .close) ∧ spell other = spell command)
    (hspelled : ∀ c ∈ commands, c.kind ≠ .close → spell c ≠ []) :
    pathLength spell letter closed (sweep edit previous commands) ≤
      pathLength spell letter closed (previous.toList ++ commands) := by
  induction commands generalizing previous letter closed with
  | nil => simp [sweep]
  | cons command rest ih =>
    obtain ⟨hcommand, hrest⟩ := List.forall_mem_cons.mp hspelled
    rw [sweep]
    cases hcase : edit previous command rest.head? with
    | keep => exact pathLength_append_mono (k := 0) (fun _ _ => ih hrest) previous letter closed
    | replace other =>
      obtain ⟨hclose, hspell⟩ := hreplace _ _ _ _ hcase
      refine pathLength_append_mono (k := 0) (fun letter closed => ?_) previous letter closed
      exact (ih hrest).trans_eq (pathLength_replace hclose hspell)
    | drop =>
      refine (ih hrest).trans (pathLength_append_mono (k := 0) (fun letter closed => ?_) previous letter closed)
      exact pathLength_drop hcommand
    | merge other => exact absurd hcase (hmerge _ _ _ _)

/-- What the merges of a sweep write more than the spellings of the commands that they merge. -/
def mergeSurplus (edit : Option Command → Command → Option Command → Edit) :
    Option Command → List Command → ℕ
  | _, [] => 0
  | previous, command :: rest =>
    match edit previous command rest.head? with
    | .keep => mergeSurplus edit (some command) rest
    | .replace other => mergeSurplus edit (some other) rest
    | .drop => mergeSurplus edit previous rest
    | .merge other =>
      (chosenText {} other).length -
          ((previous.elim 0 fun before => (chosenText {} before).length) + (chosenText {} command).length) +
        mergeSurplus edit (some other) rest

def Command.Lettered (command : Command) : Prop :=
  command.kind ≠ .close → chosenText {} command ≠ [] ∧
    (Compacts (chosenText {} command).head? → command.kind = .line ∨ command.kind = .cubic)

lemma lettered_of_bare (h : command.Bare) : command.Lettered := by
  intro _
  rw [chosenText_bare {} h]
  refine ⟨List.cons_ne_nil _ _, fun hcompacts => ?_⟩
  rcases (compacts_char command.letter).mp hcompacts with hletter | hletter
  · exact Or.inr (congrArg Letter.kind hletter)
  · exact Or.inl (congrArg Letter.kind hletter)

lemma Joins.kinds {before : Command} (h : Joins before command other) :
    ∀ c ∈ [before, command, other], c.kind = .move ∨ c.kind = .horizontal ∨ c.kind = .vertical := by
  simp only [List.forall_mem_cons, List.not_mem_nil, false_imp_iff, implies_true, and_true]
  cases h with
  | axis a b hbefore hcommand haxis hletter =>
    have hk := kind_of_isRelativeAxis haxis
    have hsame : before.kind = command.kind := congrArg Letter.kind hletter
    exact ⟨Or.inr (hsame.symm ▸ hk), Or.inr hk, Or.inr hk⟩
  | moveTo hbefore hcommand => exact ⟨Or.inl hbefore, Or.inl hcommand, Or.inl hcommand⟩
  | moveBy hbefore hcommand => exact ⟨Or.inl hbefore, Or.inl hcommand, Or.inl hbefore⟩

lemma Command.Lettered.not_compacts (h : command.Lettered)
    (hkind : command.kind = .move ∨ command.kind = .horizontal ∨ command.kind = .vertical) :
    command.kind ≠ .close ∧ ¬ Compacts (chosenText {} command).head? := by
  have hclose : command.kind ≠ .close := by
    rintro hk
    simp [hk] at hkind
  refine ⟨hclose, fun hcompacts => ?_⟩
  rcases (h hclose).2 hcompacts with hk | hk
  · simp [hk] at hkind
  · simp [hk] at hkind

lemma pathLength_merge {before : Command} (h : Joins before command other) (hbefore : before.Lettered)
    (hcommand : command.Lettered) (rest : List Command) (letter : Option Char)
    (closed : Bool) :
    pathLength (chosenText {}) letter closed (other :: rest) ≤
      pathLength (chosenText {}) letter closed (before :: command :: rest) +
        ((chosenText {} other).length -
          ((chosenText {} before).length + (chosenText {} command).length)) := by
  have hkinds := h.kinds
  simp only [List.forall_mem_cons, List.not_mem_nil, false_imp_iff, implies_true, and_true] at hkinds
  obtain ⟨hopen, hplain⟩ := hbefore.not_compacts hkinds.1
  obtain ⟨hopen', hplain'⟩ := hcommand.not_compacts hkinds.2.1
  have hother := ((lettered_of_bare h.bare).not_compacts hkinds.2.2).1
  rw [pathLength_cons hother, pathLength_cons hopen, pathLength_cons hopen', writtenLength_of_head hplain,
    writtenLength_of_head hplain']
  have hwritten : writtenLength letter closed (chosenText {} other) ≤ _ := writtenLength_le
  have hrest : pathLength (chosenText {}) (chosenText {} other).head? false rest ≤ _ :=
    pathLength_le_plain hplain'
  omega

lemma pathLength_sweep_merging (hlawful : Lawful edit) (hpresent : ∀ previous command next other,
      edit previous command next ≠ .replace other)
    (hprevious : ∀ p ∈ previous, p.Lettered) (hcommands : ∀ c ∈ commands, c.Lettered) :
    pathLength (chosenText {}) letter closed (sweep edit previous commands) ≤
      pathLength (chosenText {}) letter closed (previous.toList ++ commands) +
        mergeSurplus edit previous commands := by
  induction commands generalizing previous letter closed with
  | nil => simp [sweep, mergeSurplus]
  | cons command rest ih =>
    obtain ⟨hcommand, hrest⟩ := List.forall_mem_cons.mp hcommands
    rw [sweep, mergeSurplus]
    cases hcase : edit previous command rest.head? with
    | keep =>
      have hkept : ∀ p ∈ some command, p.Lettered := by simpa using hcommand
      exact pathLength_append_mono (fun _ _ => ih hkept hrest) previous letter closed
    | replace other => exact absurd hcase (hpresent _ _ _ _)
    | drop =>
      have hdrop : ∀ letter closed, pathLength (chosenText {}) letter closed rest ≤
          pathLength (chosenText {}) letter closed (command :: rest) + 0 :=
        fun _ _ => pathLength_drop fun hclose => (hcommand hclose).1
      have hless := pathLength_append_mono hdrop previous letter closed
      exact (ih hprevious hrest).trans (Nat.add_le_add_right hless _)
    | merge other =>
      obtain ⟨before, rfl, hjoins⟩ := hlawful.joins _ _ _ _ hcase
      have hother : ∀ p ∈ some other, p.Lettered := by simpa using lettered_of_bare hjoins.bare
      have hrest : pathLength (chosenText {}) letter closed (sweep edit (some other) rest) ≤
          pathLength (chosenText {}) letter closed (other :: rest) + _ := ih hother hrest
      have hmerge := pathLength_merge hjoins (hprevious before rfl) hcommand rest letter closed
      dsimp only [Option.elim_some, Option.toList_some, List.cons_append, List.nil_append]
      omega

end Sweeps

end TersePath
