import TersePath.Proofs.Path.Opened

namespace TersePath

open Binary64 Edit

structure Akin (command other : Command) : Prop where
  kind : other.kind = command.kind
  letter : command.kind ≠ .close → other.letter = command.letter
  first : command.Proper
  second : other.Proper
  values : other.operands.map value = command.operands.map value

namespace Akin

variable {command other : Command}

lemma symm (h : Akin command other) : Akin other command :=
  ⟨h.kind.symm, fun hclose => (h.letter (h.kind ▸ hclose)).symm, h.second, h.first, h.values.symm⟩

lemma twins (h : Akin command other) : List.Forall₂ Twin command.operands other.operands := by
  have hlength : command.operands.length = other.operands.length := by
    simpa using (congrArg List.length h.values).symm
  refine List.forall₂_iff_get.mpr ⟨hlength, fun i hi hi' => ?_⟩
  have hvalue := List.getElem_of_eq h.values (by rwa [List.length_map])
  rw [List.getElem_map, List.getElem_map] at hvalue
  exact .of_value (h.first.2 _ (List.getElem_mem hi)) (h.second.2 _ (List.getElem_mem hi')) hvalue

lemma isRelative (h : Akin command other) (kind : Kind) (hkind : kind ≠ .close) :
    other.isRelative kind = command.isRelative kind := by
  by_cases hclose : command.kind = .close
  · have hnone : ∀ c : Command, c.kind = .close → c.isRelative kind = false := fun c hc =>
      Bool.eq_false_iff.mpr fun hrelative => hkind ((kind_of_isRelative hrelative).symm.trans hc)
    rw [hnone other (h.kind.trans hclose), hnone command hclose]
  · rw [Command.isRelative, Command.isRelative, h.letter hclose]

lemma isRelativeLine (h : Akin command other) : isRelativeLine other = isRelativeLine command := by
  simp only [Edit.isRelativeLine, h.isRelative .line (by decide),
    h.isRelative .horizontal (by decide), h.isRelative .vertical (by decide)]

lemma isRelativeAxis (h : Akin command other) : isRelativeAxis other = isRelativeAxis command := by
  simp only [Edit.isRelativeAxis, h.isRelative .horizontal (by decide),
    h.isRelative .vertical (by decide)]

lemma signs (h : Akin command other) :
    other.operands.map signClass = command.operands.map signClass := by
  refine List.ext_getElem (by simpa using h.twins.length_eq.symm) fun i hi hi' => ?_
  rw [List.length_map] at hi hi'
  rw [List.getElem_map, List.getElem_map]
  have htwin := List.forall₂_iff_get.mp h.twins |>.2 i hi' hi
  rcases htwin with heq | ⟨hx, hy⟩
  · exact congrArg signClass heq
  · exact (isZero_iff_signClass.mp hy).trans (isZero_iff_signClass.mp hx).symm

lemma sameWay (h : Akin command other) (hclose : command.kind ≠ .close) : command.SameWay other :=
  ⟨h.letter hclose, h.signs⟩

lemma text (h : Akin command other) (hclose : command.kind ≠ .close) (spaced : Bool) :
    other.text spaced = command.text spaced := by
  have hspelled : ∀ {xs ys : List Binary64}, List.Forall₂ Twin xs ys →
      ys.map spelling = xs.map spelling := by
    intro xs ys hall
    induction hall with
    | nil => rfl
    | cons head _ ih => rw [List.map_cons, List.map_cons, head.spelling, ih]
  have hoperands : ∀ {xs ys : List Binary64}, List.Forall₂ Twin xs ys →
      operandsText spaced ys = operandsText spaced xs := by
    intro xs ys hall
    cases hall with
    | nil => rfl
    | @cons x y xs ys head tail =>
      have htail : (ys.flatMap fun y => nextOperand spaced y.spelling) =
          xs.flatMap fun x => nextOperand spaced x.spelling := by
        have hmaps := congrArg (List.flatMap (nextOperand spaced)) (hspelled tail)
        rwa [List.flatMap_map, List.flatMap_map] at hmaps
      rw [operandsText, operandsText, head.spelling, htail]
  rw [Command.text, Command.text, h.letter hclose, hoperands h.twins]

lemma endsAtControl (h : Akin command other) : other.endsAtControl = command.endsAtControl := by
  have htwins : List.Forall₂ Twin command.operands.reverse other.operands.reverse :=
    List.forall₂_reverse_iff.mpr h.twins
  rw [Command.endsAtControl, Command.endsAtControl]
  generalize command.operands.reverse = xs at htwins
  generalize other.operands.reverse = ys at htwins
  rcases htwins with _ | ⟨hy, _ | ⟨hx, _ | ⟨hy2, _ | ⟨hx2, -⟩⟩⟩⟩
  · rfl
  · rfl
  · rfl
  · rfl
  · change (_ && _) = (_ && _)
    rw [hx2.equals hx, hy2.equals hy]

lemma curve (h : Akin command other) {c : Cubic} (hc : command.curve? = some c) :
    ∃ d, other.curve? = some d ∧ c.Twins d := by
  have htwins := h.twins
  rcases curve_cases hc with ⟨hcubic, ho⟩ | ⟨hsmooth, ho, hx, hy⟩
  · rw [ho, Cubic.operands] at htwins
    obtain ⟨x1, y1, x2, y2, x, y, ho'⟩ := exists_of_length_six htwins.length_eq.symm
    rw [ho'] at htwins
    simp only [List.forall₂_cons, List.forall₂_nil_left_iff, and_true] at htwins
    obtain ⟨t1, t2, t3, t4, t5, t6⟩ := htwins
    exact ⟨⟨x1, y1, x2, y2, x, y⟩, curve_of_cubic ((h.isRelative _ (by decide)).trans hcubic) ho',
      t1, t2, t3, t4, t5, t6⟩
  · rw [ho] at htwins
    obtain ⟨x2, y2, x, y, ho'⟩ := exists_of_length_four htwins.length_eq.symm
    rw [ho'] at htwins
    simp only [List.forall₂_cons, List.forall₂_nil_left_iff, and_true] at htwins
    obtain ⟨t3, t4, t5, t6⟩ := htwins
    exact ⟨⟨.zero, .zero, x2, y2, x, y⟩,
      curve_of_smooth ((h.isRelative _ (by decide)).trans hsmooth) ho',
      hx ▸ .refl _, hy ▸ .refl _, t3, t4, t5, t6⟩

lemma flat (h : Akin command other) (hflat : command.flat = command) : other.flat = other := by
  obtain hother | ⟨x', y', ho', hline, hzero⟩ := flat_cases other
  · exact hother
  have hrelative : command.isRelative .line := (h.isRelative _ (by decide)).symm.trans hline
  have htwins := h.twins
  have hwell := h.first.1
  rw [Command.WellFormed, kind_of_isRelative hrelative] at hwell
  obtain ⟨x, y, ho⟩ := exists_of_length_two hwell
  rw [ho, ho'] at htwins
  simp only [List.forall₂_cons, List.forall₂_nil_left_iff, and_true] at htwins
  -- the other one is a line that keeps to an axis, so this one is one too
  have hkind : command.flat.kind ≠ .line := by
    rw [Command.flat, lineToAxis, ho]
    simp only [hrelative, Bool.not_true, Bool.false_eq_true, if_false]
    rcases hzero with ⟨hy, -⟩ | ⟨hy, hx, -⟩
    · rw [if_pos (htwins.2.isZero.symm.trans hy)]
      simp [Command.reshape, Command.kind]
    · rw [if_neg (by rw [← htwins.2.isZero, hy]; exact Bool.false_ne_true),
        if_pos (htwins.1.isZero.symm.trans hx)]
      simp [Command.reshape, Command.kind]
  rw [hflat, kind_of_isRelative hrelative] at hkind
  exact absurd rfl hkind

lemma isBreak (h : Akin command other) : other.isBreak = command.isBreak := by
  rw [Command.isBreak, Command.isBreak, h.kind]

lemma pens (h : Akin command other) (follower : Kind) :
    reflectsPen (some other) follower = reflectsPen (some command) follower := by
  simp only [reflectsPen, h.kind, h.endsAtControl]

lemma follower (h : Akin command other) :
    Command.follower? (some other) = Command.follower? (some command) := by
  simp only [Command.follower?, Option.map_some, h.kind]

end Akin

end TersePath
