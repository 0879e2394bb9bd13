import TersePath.Proofs.Number.Sums
import TersePath.Proofs.Path.Surplus

namespace TersePath

structure Command.Unkept (number : Binary64 → Prop) (command : Command) : Prop where
  wellFormed : command.WellFormed
  chosen : chosenText {} command = command.text false
  operands : ∀ x ∈ command.operands, number x

section Joins

variable {before command other : Command}

lemma Command.Unkept.whole (h : command.Unkept fun x => x.isInteger = true) : command.Unkept Binary64.Whole :=
  ⟨h.wellFormed, h.chosen, fun x hx => Or.inl (h.operands x hx)⟩

lemma length_single {x : Binary64} (h : x.Whole) : (operandsText false [x]).length = x.signs + x.width := by
  rw [operandsText, List.flatMap_nil, List.append_nil, Binary64.spelling_length h]

lemma length_pair {x y : Binary64} (hx : x.Whole) (hy : y.Whole) :
    (operandsText false [x, y]).length = x.signs + x.width + (y.width + 1) := by
  rw [operandsText, List.flatMap_cons, List.flatMap_nil, List.append_nil, List.length_append,
    Binary64.spelling_length hx, Binary64.nextOperand_length hy]

lemma length_sums {xs ys : List Binary64} (h : xs.length = 1 ∨ xs.length = 2) (hlength : ys.length = xs.length)
    (hxs : ∀ x ∈ xs, x.Whole) (hys : ∀ y ∈ ys, y.isInteger = true) :
    (∀ z ∈ List.zipWith (· + ·) xs ys, z.Whole) ∧
    (operandsText false (List.zipWith (· + ·) xs ys)).length ≤
      (operandsText false xs).length + (operandsText false ys).length := by
  rcases h with h | h
  · obtain ⟨x, rfl⟩ := exists_of_length_one h
    obtain ⟨y, rfl⟩ := exists_of_length_one hlength
    have hx := hxs x (by simp)
    have hy := hys y (by simp)
    obtain ⟨hsum, hwidth, hsigns⟩ := Binary64.width_add hx hy
    refine ⟨by simpa using hsum, ?_⟩
    rw [List.zipWith_cons_cons, List.zipWith_nil_left, length_single hx, length_single (Or.inl hy),
      length_single hsum]
    omega
  · obtain ⟨x1, y1, rfl⟩ := exists_of_length_two h
    obtain ⟨x2, y2, rfl⟩ := exists_of_length_two hlength
    obtain ⟨hx1, hy1⟩ : x1.Whole ∧ y1.Whole := by simpa using hxs
    obtain ⟨hx2, hy2⟩ : x2.isInteger = true ∧ y2.isInteger = true := by simpa using hys
    obtain ⟨hx, hxwidth, hxsigns⟩ := Binary64.width_add hx1 hx2
    obtain ⟨hy, hywidth, -⟩ := Binary64.width_add hy1 hy2
    refine ⟨by simpa using ⟨hx, hy⟩, ?_⟩
    rw [List.zipWith_cons_cons, List.zipWith_cons_cons, List.zipWith_nil_left, length_pair hx1 hy1,
      length_pair (Or.inl hx2) (Or.inl hy2), length_pair hx hy]
    omega

theorem Joins.unkept (h : Joins before command other) (hbefore : before.Unkept Binary64.Whole)
    (hcommand : command.Unkept fun x => x.isInteger = true) : other.Unkept Binary64.Whole ∧
      (chosenText {} other).length ≤ (chosenText {} before).length + (chosenText {} command).length := by
  have hwell := maintained_wellFormed.joins _ _ _ h hbefore.wellFormed hcommand.wellFormed
  have hchosen := chosenText_bare {} h.bare
  rw [hchosen, hbefore.chosen, hcommand.chosen]
  simp only [length_text]
  cases h with
  | axis a b ha hb =>
    obtain ⟨hwhole, hle⟩ := length_sums (Or.inl (congrArg List.length ha))
      ((congrArg List.length hb).trans (congrArg List.length ha).symm) hbefore.operands hcommand.operands
    have hsum : List.zipWith (· + ·) before.operands command.operands = [a + b] := by
      rw [ha, hb]
      rfl
    rw [hsum] at hwhole hle
    refine ⟨⟨hwell, hchosen, hwhole⟩, ?_⟩
    dsimp only
    omega
  | moveTo hfirst hk =>
    refine ⟨⟨hwell, hchosen, hcommand.whole.operands⟩, ?_⟩
    dsimp only
    omega
  | moveBy hfirst hk =>
    have hpair : before.operands.length = 2 := hbefore.wellFormed.trans (congrArg Kind.arity hfirst)
    have hpair' : command.operands.length = 2 := hcommand.wellFormed.trans (congrArg Kind.arity hk)
    obtain ⟨hwhole, hle⟩ :=
      length_sums (Or.inr hpair) (hpair'.trans hpair.symm) hbefore.operands hcommand.operands
    refine ⟨⟨hwell, hchosen, hwhole⟩, ?_⟩
    dsimp only
    omega

lemma mergeSurplus_eq_zero (kinds : Kind → Prop) {edit : Option Command → Command → Option Command → Edit}
    (hlawful : Lawful edit) (hpresent : ∀ previous command next other,
      edit previous command next ≠ .replace other)
    (hkinds : ∀ before command next other, edit (some before) command next = .merge other →
      kinds before.kind ∧ kinds command.kind)
    {previous : Option Command} {commands : List Command}
    (hprevious : ∀ p ∈ previous, kinds p.kind → p.Unkept Binary64.Whole)
    (hcommands : ∀ c ∈ commands, kinds c.kind → c.Unkept fun x => x.isInteger = true) :
    mergeSurplus edit previous commands = 0 := by
  induction commands generalizing previous with
  | nil => rfl
  | cons command rest ih =>
    obtain ⟨hcommand, hrest⟩ := List.forall_mem_cons.mp hcommands
    rw [mergeSurplus]
    cases hcase : edit previous command rest.head? with
    | keep =>
      refine ih ?_ hrest
      simpa using fun hk => (hcommand hk).whole
    | replace other => exact absurd hcase (hpresent _ _ _ _)
    | drop => exact ih hprevious hrest
    | merge other =>
      obtain ⟨before, rfl, hjoins⟩ := hlawful.joins _ _ _ _ hcase
      obtain ⟨hk1, hk2⟩ := hkinds _ _ _ _ hcase
      -- what they become is unkept again, and may be merged with the next command
      obtain ⟨hunkept, hle⟩ := hjoins.unkept (hprevious before rfl hk1) (hcommand hk2)
      have hafter : mergeSurplus edit (some other) rest = 0 := ih (by simpa using fun _ => hunkept) hrest
      dsimp only [Option.elim_some]
      rw [hafter, Nat.sub_eq_zero_of_le hle]

end Joins

/-- A command of integers that is written as it is unless it is of a spare kind. -/
structure Command.Direct (spare : Kind → Prop) (command : Command) : Prop where
  wellFormed : command.WellFormed
  integers : ∀ x ∈ command.operands, x.isInteger = true
  short : spare command.kind ∨ (command.text false).length ≤ command.keptText.length

section Direct

variable {previous next : Option Command} {command other : Command} {spare : Kind → Prop}

lemma isInteger_zero : Binary64.zero.isInteger = true := beq_iff_eq.mpr (Nat.zero_mod _)

lemma mem_of_asCubic {c : Cubic} (h : command.asCubic previous = some c) :
    c.x ∈ command.operands ∧ c.y ∈ command.operands := by
  obtain ⟨-, ho⟩ | ⟨-, ho, -, -⟩ := asCubic_cases h
  · rw [ho, Cubic.operands]
    simp
  · rw [ho]
    simp

lemma Replaces.integers (h : Replaces previous command other)
    (hcommand : ∀ x ∈ command.operands, x.isInteger = true) : ∀ x ∈ other.operands, x.isInteger = true := by
  cases h with
  | straight c hc =>
    obtain ⟨hx, hy⟩ := mem_of_asCubic hc
    simpa [Command.reshape] using ⟨hcommand _ hx, hcommand _ hy⟩
  | vertical c hc => simpa [Command.reshape] using hcommand _ (mem_of_asCubic hc).2
  | horizontal c hc => simpa [Command.reshape] using hcommand _ (mem_of_asCubic hc).1
  | spelledOut => simpa [Command.reshape, isInteger_zero] using hcommand
  | smooth x1 y1 rest ho =>
    rw [ho] at hcommand
    exact fun x hx => hcommand x (List.mem_cons_of_mem _ (List.mem_cons_of_mem _ hx))
  | flat =>
    obtain hflat | ⟨x, y, ho, -, ⟨-, hflat⟩ | ⟨-, -, hflat⟩⟩ := flat_cases command
    · rwa [hflat]
    all_goals
      rw [hflat]
      simp [Command.reshape, hcommand, ho]

lemma Command.Direct.replaced {spare' : Kind → Prop} (h : command.Direct spare)
    (hother : Replaces previous command other)
    (hshort : spare' other.kind ∨ ¬ spare command.kind ∧ other.kind ≠ .cubic) : other.Direct spare' := by
  refine ⟨maintained_wellFormed.replaces _ _ _ hother h.wellFormed, hother.integers h.integers,
    hshort.imp id fun hkinds => ?_⟩
  have hle := h.short.resolve_left hkinds.1
  rw [hother.keptText]
  obtain ⟨-, hk⟩ | rfl | hless := hother.saves
  · exact absurd hk hkinds.2
  · exact hle
  · have hleast : leastLength (command.text false) ≤ _ := writtenLength_le
    omega

lemma Command.Direct.unkept (h : command.Direct spare) (hk : ¬ spare command.kind) :
    command.Unkept fun x => x.isInteger = true := by
  refine ⟨h.wellFormed, ?_, h.integers⟩
  have hle := h.short.resolve_left hk
  cases hkept : command.absoluteText with
  | none =>
    rw [Command.keptText, hkept, length_text] at hle
    simp at hle
  | some kept =>
    rw [keptText_of_eq hkept] at hle
    obtain ⟨-, hshort⟩ | ⟨hchosen, -⟩ := chosenText_cases hkept
    · omega
    · exact hchosen

lemma ne_close_of_isCubic (h : command.kind.isCubic = true) : command.kind ≠ .close := by
  intro hclose
  rw [hclose] at h
  cases h

lemma direct_straightCubic (h : Edit.straightCubic previous command next = .replace other)
    (hcommand : command.Direct (· = .close)) : other.Direct (· = .close) := by
  obtain ⟨hcubic, hk⟩ := kind_of_straightCubic h
  refine hcommand.replaced (Lawful.straightCubic.replaces _ _ _ _ h) (Or.inr ⟨ne_close_of_isCubic hcubic, ?_⟩)
  rw [hk]
  decide

lemma direct_axisCubic (h : Edit.axisCubic previous command next = .replace other)
    (hcommand : command.Direct (· = .close)) : other.Direct (· = .close) := by
  obtain ⟨hcubic, hk⟩ := kind_of_axisCubic h
  refine hcommand.replaced (Lawful.axisCubic.replaces _ _ _ _ h) (Or.inr ⟨ne_close_of_isCubic hcubic, ?_⟩)
  rcases hk with hk | hk
  all_goals
    rw [hk]
    decide

def Kind.Spare (kind : Kind) : Prop := kind = .close ∨ kind.isCubic = true

lemma direct_orphanSmooth (h : Edit.orphanSmooth previous command next = .replace other)
    (hcommand : command.Direct Kind.Spare) : other.Direct Kind.Spare := by
  refine hcommand.replaced (Lawful.orphanSmooth.replaces _ _ _ _ h) (Or.inl (Or.inr ?_))
  rw [kind_of_orphanSmooth h]
  rfl

lemma direct_contractSmooth (h : Edit.contractSmooth previous command next = .replace other)
    (hcommand : command.Direct Kind.Spare) : other.Direct Kind.Spare := by
  refine hcommand.replaced (Lawful.contractSmooth.replaces _ _ _ _ h) (Or.inl (Or.inr ?_))
  rw [(kind_of_contractSmooth h).2]
  rfl

lemma direct_lineToAxis (h : Edit.lineToAxis previous command next = .replace other)
    (hcommand : command.Direct Kind.Spare) : other.Direct Kind.Spare := by
  have hother := Lawful.lineToAxis.replaces _ _ _ _ h
  rw [eq_flat_of_lineToAxis h] at hother ⊢
  obtain hflat | ⟨hline, hk⟩ := kind_flat command
  · rwa [hflat]
  · refine hcommand.replaced hother (Or.inr ⟨?_, ?_⟩)
    · simp [hline, Kind.Spare, Kind.isCubic]
    · rcases hk with hk | hk
      all_goals simp [hk]

end Direct

section Relative

variable {commands : List Command}

def Command.noted (spaced : Bool) (command : Command) : Command :=
  if command.kind = .close then command else command.keepText spaced

lemma relativeFrom_of_relative (spaced : Bool) (cursor : Cursor) (h : ∀ c ∈ commands, c.absolute = false) :
    relativeFrom spaced cursor commands = commands.map (Command.noted spaced) := by
  induction commands generalizing cursor with
  | nil => rfl
  | cons command rest ih =>
    obtain ⟨hcommand, hrest⟩ := List.forall_mem_cons.mp h
    rw [relativeFrom, ih _ hrest, hcommand]
    rfl

lemma toRelative_of_relative (spaced : Bool) (h : ∀ c ∈ commands.tail, c.absolute = false) :
    toRelative spaced commands = commands.map (Command.noted spaced) := by
  cases commands with
  | nil => rfl
  | cons command rest =>
    have hrest : ∀ c ∈ rest, c.absolute = false := h
    rw [toRelative, relativeFrom_of_relative spaced _ hrest]
    rfl

lemma direct_noted {command : Command} (hwell : command.WellFormed)
    (hinteger : ∀ x ∈ command.operands, x.isInteger = true) :
    (command.noted false).Direct (· = .close) := by
  rw [Command.noted]
  split
  · next hclose => exact ⟨hwell, hinteger, Or.inl hclose⟩
  · exact ⟨hwell, hinteger, Or.inr le_rfl⟩

lemma direct_reshaped (h : ∀ c ∈ commands, c.Direct (· = .close)) :
    ∀ c ∈ reshaped commands, c.Direct Kind.Spare := by
  have h1 := forall_sweep_apart not_merge_straightCubic direct_straightCubic h
  have h2 := forall_sweep_apart not_merge_axisCubic direct_axisCubic h1
  have hspare : ∀ {command : Command}, command.Direct (· = .close) → command.Direct Kind.Spare :=
    fun hcommand => ⟨hcommand.wellFormed, hcommand.integers, hcommand.short.imp Or.inl id⟩
  have h3 := forall_sweep_apart not_merge_orphanSmooth direct_orphanSmooth fun c hc => hspare (h2 c hc)
  have h4 := forall_sweep_apart not_merge_contractSmooth direct_contractSmooth h3
  exact forall_sweep_apart not_merge_lineToAxis direct_lineToAxis h4

lemma forall_trimmed {good : Command → Prop} (h : ∀ c ∈ commands, c.kind = .move → good c) :
    ∀ c ∈ trimmed commands, c.kind = .move → good c := by
  have hmerged : ∀ c ∈ Rule.mergeAxisRuns.apply commands, c.kind = .move → good c := by
    refine forall_sweep (fun _ _ _ _ hcase => absurd hcase (shortens_mergeAxis.present _ _ _ _))
      (fun previous command next other hcase _ _ hmove => ?_) (by simp) h
    obtain hkeep | ⟨hdrop, -⟩ | ⟨_, _, _, -, -, -, haxis, -, -, hother⟩ :=
      mergeAxis_cases previous command next
    · cases hkeep.symm.trans hcase
    · cases hdrop.symm.trans hcase
    · obtain rfl := Edit.merge.inj (hother.symm.trans hcase)
      rcases kind_of_isRelativeAxis haxis with hk | hk
      all_goals cases hk.symm.trans hmove
  have hdropped := forall_sweep_apart not_merge_zeroAxis
    (fun hcase => absurd hcase (not_replace_zeroAxis _ _ _ _)) hmerged
  have hclosed := forall_sweep_apart not_merge_closeAfterMove
    (fun hcase => absurd hcase (shortens_closeAfterMove.present _ _ _ _)) hdropped
  exact fun c hc => hclosed c (mem_of_mem_trimMoves hc)

lemma mergeSurplus_mergeAxis (h : ∀ c ∈ commands, ¬ c.kind.Spare → c.Unkept fun x => x.isInteger = true) :
    mergeSurplus Edit.mergeAxis none commands = 0 := by
  refine mergeSurplus_eq_zero (fun kind => kind = .horizontal ∨ kind = .vertical) .mergeAxis
    shortens_mergeAxis.present (fun before command next other hcase => ?_) (by simp) fun c hc hk => h c hc ?_
  · obtain hkeep | ⟨hdrop, -⟩ | ⟨_, _, _, hbefore, -, -, haxis, hletter, -, -⟩ :=
      mergeAxis_cases (some before) command next
    · cases hkeep.symm.trans hcase
    · cases hdrop.symm.trans hcase
    · obtain rfl := Option.some.inj hbefore
      have hsame : before.kind = command.kind := congrArg Letter.kind hletter
      have hk := kind_of_isRelativeAxis haxis
      exact ⟨hsame ▸ hk, hk⟩
  · rcases hk with hk | hk
    all_goals simp [hk, Kind.Spare, Kind.isCubic]

lemma mergeSurplus_mergeMoves
    (h : ∀ c ∈ commands, c.kind = .move → c.Unkept fun x => x.isInteger = true) :
    mergeSurplus Edit.mergeMoves none commands = 0 := by
  refine mergeSurplus_eq_zero (· = .move) .mergeMoves shortens_mergeMoves.present
    (fun before command next other hcase => ?_) (by simp) h
  obtain ⟨hfirst, hk, -⟩ := kind_of_mergeMoves hcase
  exact ⟨hfirst, hk⟩

theorem surplus_of_relative (hwell : ∀ c ∈ commands, c.WellFormed)
    (hrelative : ∀ c ∈ commands.tail, c.absolute = false)
    (hinteger : ∀ c ∈ commands, ∀ x ∈ c.operands, x.isInteger = true) :
    surplus (toRelative false commands) = 0 := by
  have hdirect : ∀ c ∈ toRelative false commands, c.Direct (· = .close) := by
    intro c hc
    rw [toRelative_of_relative false hrelative] at hc
    obtain ⟨command, hcommand, rfl⟩ := List.mem_map.mp hc
    exact direct_noted (hwell command hcommand) (hinteger command hcommand)
  have hunkept : ∀ c ∈ reshaped (toRelative false commands), ¬ c.kind.Spare →
      c.Unkept fun x => x.isInteger = true := fun c hc => (direct_reshaped hdirect c hc).unkept
  have hmoves := forall_trimmed fun c hc hk => hunkept c hc (by simp [hk, Kind.Spare, Kind.isCubic])
  rw [surplus, mergeSurplus_mergeAxis hunkept, mergeSurplus_mergeMoves hmoves]

end Relative

/-- A path that is made relative and simplified is written no longer than it was, apart from what its merges
write more than the spellings that they lose. A path of integers that is relative already loses nothing. -/
theorem length_simplified {commands : List Command} (hhead : BeginsWithMove commands)
    (hread : ∀ c ∈ commands, c.Read) :
    (serialize {} (simplify (toRelative false commands))).length ≤
      (serialize {} commands).length + surplus (toRelative false commands) ∧
    ((∀ c ∈ commands.tail, c.absolute = false) → (∀ c ∈ commands, ∀ x ∈ c.operands, x.isInteger = true) →
      (serialize {} (simplify (toRelative false commands))).length ≤ (serialize {} commands).length) := by
  have hle := length_serialize_simplify hhead fun c hc => (hread c hc).2
  refine ⟨hle, fun hrelative hinteger => ?_⟩
  rwa [surplus_of_relative (fun c hc => (hread c hc).1) hrelative hinteger] at hle

namespace Example

def strokes : List Command :=
  let n := Binary64.ofInt
  [ { letter := ⟨.move, true⟩, operands := [n 3, n (-4)] },
    { letter := ⟨.move, false⟩, operands := [n 90, n 10] },
    { letter := ⟨.horizontal, false⟩, operands := [n 5] },
    { letter := ⟨.line, false⟩, operands := [n 70, n 0] },
    { letter := ⟨.close, false⟩, operands := [] } ]

def returning : List Command :=
  let n := Binary64.ofInt
  [ { letter := ⟨.move, true⟩, operands := [n 1000, n 0] },
    { letter := ⟨.horizontal, true⟩, operands := [n 1] },
    { letter := ⟨.horizontal, true⟩, operands := [n 0] } ]

end Example

theorem length_simplified_strokes :
    BeginsWithMove Example.strokes ∧ (∀ c ∈ Example.strokes, c.Read) ∧
    (∀ c ∈ Example.strokes.tail, c.absolute = false) ∧
    (∀ c ∈ Example.strokes, ∀ x ∈ c.operands, x.isInteger = true) ∧
    (serialize {} (simplify (toRelative false Example.strokes))).length ≤
      (serialize {} Example.strokes).length := by
  have hhead : BeginsWithMove Example.strokes := by simp [BeginsWithMove, Example.strokes, Command.kind]
  have hread : ∀ c ∈ Example.strokes, c.Read := by
    simp [Example.strokes, Command.Read, Command.WellFormed, Command.Bare, Command.kind, Kind.arity]
  have hrelative : ∀ c ∈ Example.strokes.tail, c.absolute = false := by decide +kernel
  have hinteger : ∀ c ∈ Example.strokes, ∀ x ∈ c.operands, x.isInteger = true := by decide +kernel
  exact ⟨hhead, hread, hrelative, hinteger, (length_simplified hhead hread).2 hrelative hinteger⟩

/-- The one line that both become is written with its step, which is longer than the two ends. -/
theorem length_simplified_returning :
    BeginsWithMove Example.returning ∧ (∀ c ∈ Example.returning, c.Read) ∧
    (∀ c ∈ Example.returning, ∀ x ∈ c.operands, x.isInteger = true) ∧
    serialize {} Example.returning = "M1000 0H1H0".toList ∧
    serialize {} (simplify (toRelative false Example.returning)) = "M1000 0h-1000".toList ∧
    (serialize {} Example.returning).length <
      (serialize {} (simplify (toRelative false Example.returning))).length := by
  refine ⟨?_, ?_, ?_, ?_, ?_, ?_⟩
  · simp [BeginsWithMove, Example.returning, Command.kind]
  · simp [Example.returning, Command.Read, Command.WellFormed, Command.Bare, Command.kind, Kind.arity]
  all_goals decide +kernel

end TersePath
