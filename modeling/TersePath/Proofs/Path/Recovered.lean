import TersePath.Proofs.Path.Finished
import TersePath.Proofs.Path.Reprinted
import TersePath.Proofs.Pen.Converted

/-! What is read from a printed path, made relative, stands for the path that was printed. A command that
was printed in its kept spelling may come back as one of another kind, but it draws the same, and it was
printed so only because that is shorter. -/

namespace TersePath

open Picture Binary64 Edit

section Figure

variable {hand : Hand} {place : Place} {previous : Option Command} {command other : Command}

lemma eq_of_reflect {p q : Point} (h : reflect p q = p) : q = p := by
  rw [reflect, add_eq_left, sub_eq_zero] at h
  exact h.symm

lemma equals_of_cubicLead {first : Option Point} {base : Point} {x2 y2 x y : Binary64}
    (hfigure : hand.figure command = .cubic first (base + (x2.value, y2.value)) (base + (x.value, y.value)))
    (h : (hand.after command).cubicLead = (hand.after command).point)
    (hfinite : ∀ z ∈ [x2, y2, x, y], z.isFinite = true) : x2.equals x && y2.equals y := by
  rw [after_cubic hfigure] at h
  have hpoint := eq_of_reflect h
  simp only [add_right_inj, Prod.mk.injEq] at hpoint
  rw [Bool.and_eq_true, equals_iff (hfinite x2 (by simp)) (hfinite x (by simp)),
    equals_iff (hfinite y2 (by simp)) (hfinite y (by simp))]
  exact hpoint

lemma reflectsPen_of_cubicLead (hproper : ∀ c ∈ previous, c.Proper) (hfits : Hand.Fits hand previous)
    (h : hand.cubicLead = hand.point) : reflectsPen previous .smoothCubic := by
  cases previous with
  | none => rfl
  | some command =>
    obtain ⟨before, rfl⟩ := hfits
    cases hcubic : command.kind.isCubic with
    | false => simp [reflectsPen, hcubic]
    | true =>
      rw [reflectsPen_of_isCubic hcubic]
      obtain ⟨⟨kind, absolute⟩, operands, closes, text⟩ := command
      obtain ⟨hwell, hfinite⟩ := hproper _ rfl
      have hops : Operands kind operands := hwell.operands
      cases hops with
      | cubic x1 y1 x2 y2 x y =>
        exact equals_of_cubicLead rfl h fun z hz => hfinite z (List.mem_cons_of_mem _ (List.mem_cons_of_mem _ hz))
      | smoothCubic x2 y2 x y => exact equals_of_cubicLead rfl h hfinite
      | _ => cases hcubic

/-- What a command of one letter draws from one place tells its operands but for the signs of zeros. -/
lemma values_of_figure (hcommand : command.WellFormed) (hother : other.WellFormed)
    (hletter : other.letter = command.letter)
    (h : figure value place other = figure value place command) :
    other.operands.map value = command.operands.map value := by
  obtain ⟨⟨kind, absolute⟩, operands, closes, text⟩ := command
  obtain ⟨letter, others, closes', text'⟩ := other
  obtain rfl : letter = ⟨kind, absolute⟩ := hletter
  have hops : Operands kind operands := hcommand.operands
  have hothers : Operands kind others := hother.operands
  cases hops <;> cases hothers <;> simp_all [figure, Command.kind, Command.absolute]

lemma akin_of_figure (hcommand : command.Proper) (hother : other.Proper) (hkind : other.kind = command.kind)
    (hletter : command.kind ≠ .close → other.letter = command.letter)
    (h : hand.figure other = hand.figure command) : Akin command other := by
  refine ⟨hkind, hletter, hcommand, hother, ?_⟩
  by_cases hclose : command.kind = .close
  · have hnone : ∀ {c : Command}, c.WellFormed → c.kind = .close → c.operands = [] := by
      intro c hc hk
      rw [Command.WellFormed, hk] at hc
      exact List.eq_nil_of_length_eq_zero hc
    rw [hnone hcommand.1 hclose, hnone hother.1 (hkind.trans hclose)]
  · exact values_of_figure hcommand.1 hother.1 (hletter hclose) h

lemma curve_of_figure (hproper : command.Proper) (hrelative : command.absolute = false)
    {first : Option Point} {q p : Point} (h : hand.figure command = .cubic first q p) :
    ∃ c, command.curve? = some c ∧ (∀ z ∈ [c.x2, c.y2, c.x, c.y], z.isFinite = true) ∧
      q = hand.point + (c.x2.value, c.y2.value) ∧ p = hand.point + (c.x.value, c.y.value) ∧
      (command.isRelative .cubic ∧ command.operands = c.operands ∧
          first = some (hand.point + (c.x1.value, c.y1.value)) ∧ c.x1.isFinite ∧ c.y1.isFinite ∨
        command.isRelative .smoothCubic ∧ command.operands = [c.x2, c.y2, c.x, c.y] ∧ first = none) := by
  obtain ⟨⟨kind, absolute⟩, operands, closes, text⟩ := command
  obtain rfl : absolute = false := hrelative
  obtain ⟨hwell, hfinite⟩ := hproper
  have hops : Operands kind operands := hwell.operands
  cases hops with
  | cubic x1 y1 x2 y2 x y =>
    cases h
    simp only [List.forall_mem_cons] at hfinite
    exact ⟨⟨x1, y1, x2, y2, x, y⟩, rfl, by simp [hfinite], rfl, rfl,
      Or.inl ⟨rfl, rfl, rfl, hfinite.1, hfinite.2.1⟩⟩
  | smoothCubic x2 y2 x y =>
    cases h
    exact ⟨⟨zero, zero, x2, y2, x, y⟩, rfl, hfinite, rfl, rfl, Or.inr ⟨rfl, rfl, rfl⟩⟩
  | _ => cases h

lemma line_of_figure (hand : Hand) (hproper : command.Proper) (hline : isRelativeLine command) :
    ∃ a b, a.isFinite ∧ b.isFinite ∧ hand.figure command = .line (hand.point + (a.value, b.value)) ∧
      (command.isRelative .line ∧ command.operands = [a, b] ∨
        command.isRelative .horizontal ∧ command.operands = [a] ∧ b = zero ∨
        command.isRelative .vertical ∧ command.operands = [b] ∧ a = zero) := by
  obtain ⟨letter, operands, closes, text⟩ := command
  obtain ⟨hwell, hfinite⟩ := hproper
  rw [isRelativeLine, Bool.or_eq_true, Bool.or_eq_true] at hline
  rcases hline with (hk | hk) | hk
  · obtain rfl : letter = ⟨.line, false⟩ := beq_iff_eq.mp hk
    obtain ⟨a, b, rfl⟩ := exists_of_length_two hwell
    exact ⟨a, b, hfinite a (by simp), hfinite b (by simp), rfl, Or.inl ⟨rfl, rfl⟩⟩
  · obtain rfl : letter = ⟨.horizontal, false⟩ := beq_iff_eq.mp hk
    obtain ⟨a, rfl⟩ := exists_of_length_one hwell
    refine ⟨a, zero, hfinite a (by simp), rfl, ?_, Or.inr (Or.inl ⟨rfl, rfl, rfl⟩)⟩
    simp [Hand.figure, figure, Command.kind, Command.absolute, Prod.ext_iff, value_zero]
  · obtain rfl : letter = ⟨.vertical, false⟩ := beq_iff_eq.mp hk
    obtain ⟨b, rfl⟩ := exists_of_length_one hwell
    refine ⟨zero, b, rfl, hfinite b (by simp), ?_, Or.inr (Or.inr ⟨rfl, rfl, rfl⟩)⟩
    simp [Hand.figure, figure, Command.kind, Command.absolute, Prod.ext_iff, value_zero]

lemma akin_reshape {kind : Kind} {operands : List Binary64} (hcommand : command.Proper)
    (hkind : command.isRelative kind) (hfinite : ∀ z ∈ operands, z.isFinite = true)
    (hvalues : operands.map value = command.operands.map value) (other : Command) :
    Akin command (other.reshape kind operands) := by
  have hletter : command.letter = ⟨kind, false⟩ := beq_iff_eq.mp hkind
  refine ⟨(kind_of_isRelative hkind).symm, fun _ => hletter.symm, hcommand, ⟨?_, hfinite⟩, hvalues⟩
  have hlength : operands.length = command.operands.length := by simpa using congrArg List.length hvalues
  exact (hlength.trans hcommand.1).trans (congrArg Kind.arity (kind_of_isRelative hkind))

lemma akin_slanted {a b : Binary64} (ha : a.isFinite) (hb : b.isFinite) (hcommand : command.Proper)
    (hline : isRelativeLine command) (hflat : command.flat = command) (hlong : isZeroAxis command = false)
    (hfigure : hand.figure command = .line (hand.point + (a.value, b.value))) (other : Command) :
    ¬(a.isZero ∧ b.isZero) ∧ Akin command (other.reshape .line [a, b]).flat := by
  obtain ⟨x, y, hx, hy, hown, hcase⟩ := line_of_figure hand hcommand hline
  have hvalues : a.value = x.value ∧ b.value = y.value := by
    have hsame := hfigure.symm.trans hown
    simpa only [Figure.line.injEq, add_right_inj, Prod.mk.injEq] using hsame
  have hzeros : a.isZero = x.isZero ∧ b.isZero = y.isZero :=
    ⟨(Twin.of_value hx ha hvalues.1).isZero, (Twin.of_value hy hb hvalues.2).isZero⟩
  rw [flat_reshape, hzeros.1, hzeros.2]
  rcases hcase with ⟨hk, ho⟩ | ⟨hk, ho, rfl⟩ | ⟨hk, ho, rfl⟩
  · have hlong := not_isZero_of_flat hcommand.1 hflat hk
    rw [ho] at hlong
    rw [hlong x (by simp), hlong y (by simp)]
    exact ⟨by simp, akin_reshape hcommand hk (by simp [ha, hb]) (by simp [ho, hvalues]) other⟩
  · have hx : x.isZero = false := by simpa [isZeroAxis, isRelativeAxis, hk, ho] using hlong
    rw [hx]
    exact ⟨by simp, akin_reshape hcommand hk (by simp [ha]) (by simp [ho, hvalues.1]) other⟩
  · have hy : y.isZero = false := by simpa [isZeroAxis, isRelativeAxis, hk, ho] using hlong
    rw [hy]
    exact ⟨by simp, akin_reshape hcommand hk (by simp [hb]) (by simp [ho, hvalues.2]) other⟩

lemma isRelativeLine_of_figure (hcommand : command.Proper) (hother : other.Proper)
    (hrelative : command.absolute = false) (hrelative' : other.absolute = false)
    (hkind : other.kind ≠ command.kind) (h : hand.figure other = hand.figure command) :
    isRelativeLine other ∧ isRelativeLine command := by
  obtain ⟨⟨kind, absolute⟩, operands, closes, text⟩ := command
  obtain ⟨⟨kind', absolute'⟩, others, closes', text'⟩ := other
  obtain rfl : absolute = false := hrelative
  obtain rfl : absolute' = false := hrelative'
  have hops : Operands kind operands := hcommand.1.operands
  have hothers : Operands kind' others := hother.1.operands
  cases hops <;> cases hothers <;> first
    | exact absurd rfl hkind
    | exact ⟨rfl, rfl⟩
    | cases h

lemma isRelativeLine_of_line_figure (hproper : command.Proper) (hrelative : command.absolute = false)
    {p : Point} (h : hand.figure command = .line p) : isRelativeLine command := by
  obtain ⟨⟨kind, absolute⟩, operands, closes, text⟩ := command
  obtain rfl : absolute = false := hrelative
  have hops : Operands kind operands := hproper.1.operands
  cases hops <;> first
    | rfl
    | cases h

lemma figure_of_isCubic (hand : Hand) (hproper : command.Proper) (h : command.kind.isCubic) :
    ∃ first q p, hand.figure command = .cubic first q p ∧ (command.kind = .smoothCubic → first = none) := by
  obtain ⟨⟨kind, absolute⟩, operands, closes, text⟩ := command
  have hops : Operands kind operands := hproper.1.operands
  cases hops with
  | cubic => exact ⟨_, _, _, rfl, fun hk => by cases hk⟩
  | smoothCubic => exact ⟨_, _, _, rfl, fun _ => rfl⟩
  | _ => cases h

lemma isCubic_of_cubic_figure {first : Option Point} {q p : Point}
    (h : hand.figure command = .cubic first q p) : command.kind.isCubic :=
  Hand.isCubic_of_figure (by rw [h]; rfl)

lemma reshape_self {kind : Kind} {operands : List Binary64} (h : command.isRelative kind)
    (ho : command.operands = operands) : command.reshape kind operands = command := by
  obtain ⟨letter, own, closes, text⟩ := command
  obtain rfl : letter = ⟨kind, false⟩ := beq_iff_eq.mp h
  obtain rfl : own = operands := ho
  rfl

lemma isZero_of_offset {p : Point} {x y : Binary64} (hx : x.isFinite) (hy : y.isFinite)
    (h : p + (x.value, y.value) = p) : x.isZero ∧ y.isZero := by
  rw [add_eq_left, Prod.mk_eq_zero] at h
  exact ⟨(isZero_iff hx).mpr h.1, (isZero_iff hy).mpr h.2⟩

end Figure

/-- A command that was printed, and what is read from that. -/
structure Recovers (config : Config) (command other : Command) : Prop where
  proper : other.Proper
  openEnd : other.closesSubpath = command.closesSubpath
  text : command.kind ≠ .close → other.absoluteText = some (chosenText config command)
  letter : other.kind = command.kind → command.kind ≠ .close → other.letter = command.letter
  relative : other.kind ≠ command.kind → command.absolute = false ∧ other.absolute = false
  came : other.kind ≠ command.kind → command.CameAs other.kind ∧ isZeroAxis command = false

section Recovers

variable {config : Config} {hand : Hand} {previous next : Option Command} {command other : Command}

lemma figure_eq_of_respells (hcommand : command.Proper) (hother : other.Proper)
    (hkind : other.kind = command.kind) (h : Respells hand other command) :
    hand.figure other = hand.figure command := by
  cases h with
  | same hfigure => exact hfigure
  | flat horigin hline =>
    have hcubic := isCubic_of_cubic_figure horigin
    rw [hkind] at hcubic
    obtain ⟨first, q, p, hfigure, -⟩ := figure_of_isCubic hand hcommand hcubic
    cases hfigure.symm.trans hline
  | @curved first first' q p horigin hcurve hfirst hlead =>
    by_cases hsmooth : command.kind = .smoothCubic
    · obtain ⟨_, _, _, hfigure, hnone⟩ := figure_of_isCubic hand hcommand (isCubic_of_cubic_figure hcurve)
      obtain ⟨_, _, _, hfigure', hnone'⟩ := figure_of_isCubic hand hother (isCubic_of_cubic_figure horigin)
      cases hfigure.symm.trans hcurve
      cases hfigure'.symm.trans horigin
      rw [horigin, hcurve, hnone hsmooth, hnone' (hkind.trans hsmooth)]
    · obtain ⟨f, rfl⟩ := ne_smoothCubic horigin (hkind ▸ hsmooth)
      obtain ⟨f', rfl⟩ := ne_smoothCubic hcurve hsmooth
      rw [horigin, hcurve, show f = hand.point from hfirst, show f' = hand.point from hlead]

/-- What is read from a printed command can stand for it. -/
theorem Recovers.variant (h : Recovers config command other) (hspent : Spent previous command next)
    (hproper : ∀ c ∈ previous, c.Proper) (hfits : Hand.Fits hand previous)
    (hrespells : Respells hand other command) : Variant True True previous command other := by
  have hcommand := hspent.proper
  by_cases hkind : other.kind = command.kind
  · exact .level (akin_of_figure hcommand h.proper hkind (h.letter hkind)
      (figure_eq_of_respells hcommand h.proper hkind hrespells))
  obtain ⟨hrelative, hrelative'⟩ := h.relative hkind
  obtain ⟨hcame, hlong⟩ := h.came hkind
  cases hrespells with
  | same hfigure =>
    obtain ⟨hslanted, hline⟩ :=
      isRelativeLine_of_figure hcommand h.proper hrelative hrelative' hkind hfigure
    obtain ⟨a, b, ha, hb, hown, hcase⟩ := line_of_figure hand h.proper hslanted
    obtain ⟨hend, hakin⟩ := akin_slanted ha hb hcommand hline hspent.flat hlong (hfigure.symm.trans hown) other
    have hzero : zero.isZero = true := rfl
    rcases hcase with ⟨hk, ho⟩ | ⟨hk, ho, rfl⟩ | ⟨hk, ho, rfl⟩
    · rw [reshape_self hk ho] at hakin
      exact .slanted trivial hk hakin
    · rw [flat_reshape, if_pos hzero, reshape_self hk ho] at hakin
      exact .level hakin
    · rw [flat_reshape, if_neg fun hb => hend ⟨hzero, hb⟩, if_pos hzero, reshape_self hk ho] at hakin
      exact .level hakin
  | flat horigin hown _ =>
    obtain ⟨c, hc, hfinite, -, hp, -⟩ := curve_of_figure h.proper hrelative' horigin
    obtain ⟨hend, hakin⟩ := akin_slanted (hfinite c.x (by simp)) (hfinite c.y (by simp)) hcommand
      (isRelativeLine_of_line_figure hcommand hrelative hown) hspent.flat hlong (hp ▸ hown) other
    exact .curve c hc hend hakin
  | curved horigin hcurve hfirst hlead =>
    obtain ⟨c, hc, hfinite, hq, hp, hown⟩ := curve_of_figure h.proper hrelative' horigin
    obtain ⟨d, hd, -, hq', hp', hcase⟩ := curve_of_figure hcommand hrelative hcurve
    have hvalues : [c.x2, c.y2, c.x, c.y].map value = [d.x2, d.y2, d.x, d.y].map value := by
      have hcontrol := hq.symm.trans hq'
      have hend := hp.symm.trans hp'
      simp only [add_right_inj, Prod.mk.injEq] at hcontrol hend
      simp [hcontrol, hend]
    rcases hown with ⟨hk, ho, hsome, hx, hy⟩ | ⟨hk, ho, -⟩
    · rcases hcase with ⟨hk', -⟩ | ⟨hk', ho', hnone⟩
      · exact absurd ((kind_of_isRelative hk).trans (kind_of_isRelative hk').symm) hkind
      · obtain ⟨hx, hy⟩ := isZero_of_offset hx hy (by rw [hsome] at hfirst; exact hfirst)
        rw [hnone] at hlead
        refine .spelled c.x1 c.y1 [c.x2, c.y2, c.x, c.y] hk ho hx hy
          (akin_reshape hcommand hk' hfinite (hvalues.trans (by rw [ho'])) other)
          (reflectsPen_of_cubicLead hproper hfits hlead) (Or.inr (Or.inr ?_))
        rwa [kind_of_isRelative hk] at hcame
    · rcases hcase with ⟨hk', ho', hsome, hx, hy⟩ | ⟨hk', -⟩
      · obtain ⟨hx, hy⟩ := isZero_of_offset hx hy (by rw [hsome] at hlead; exact hlead)
        rw [kind_of_isRelative hk] at hcame
        refine .shortened trivial hk (akin_reshape hcommand hk' ?_ ?_ other) (hspent.short hk' hcame)
        · rw [ho]
          exact List.forall_mem_cons.mpr ⟨rfl, List.forall_mem_cons.mpr ⟨rfl, hfinite⟩⟩
        · rw [ho, ho', List.map_cons, List.map_cons, hvalues]
          simp [Cubic.operands, value_zero, value_of_isZero hx, value_of_isZero hy]
      · exact absurd ((kind_of_isRelative hk).trans (kind_of_isRelative hk').symm) hkind

theorem abreast_of_respells {commands others : List Command} (h : RespellsAll hand others commands)
    (hrecovers : List.Forall₂ (Recovers config) commands others) (hspent : Windows Spent previous commands)
    (hproper : ∀ c ∈ previous, c.Proper) (hfits : Hand.Fits hand previous) :
    Abreast (Reprints config True True) previous commands others := by
  induction h generalizing previous with
  | nil => exact .nil previous
  | @cons hand other command others commands head _ ih =>
    obtain ⟨hfirst, hrest⟩ := List.forall₂_cons.mp hrecovers
    refine .cons ⟨hfirst.variant hspent.1 hproper hfits head, hfirst.openEnd, hfirst.text⟩
      (ih hrest hspent.2 ?_ ⟨hand, rfl⟩)
    intro c hc
    obtain rfl := Option.some.inj hc
    exact hspent.1.proper

end Recovers

section Retold

variable {config : Config} {origin command other scaled : Command}

structure Retold (config : Config) (origin other : Command) : Prop where
  kind : other.kind = origin.kind
  openEnd : other.closesSubpath = false
  text : origin.kind ≠ .close → other.absoluteText = some (origin.text config.devmode)

lemma faithful_of_respelled {spaced : Bool} {commands others : List Command}
    (h : List.Forall₂ (Respelled spaced) commands others) : ∀ c ∈ others, Faithful c := by
  induction h with
  | nil => simp
  | @cons command other _ _ head _ ih =>
    refine List.forall_mem_cons.mpr ⟨fun hcubic kind hcame => ?_, ih⟩
    have hkind := head.replays.kind
    have hclose : command.kind ≠ .close := by
      rintro hk
      rw [hkind, hk] at hcubic
      cases hcubic
    obtain ⟨text, htext, absolute, hhead⟩ := hcame
    obtain rfl := Option.some.inj ((head.absoluteText hclose).symm.trans htext)
    have hchar : command.letter.char = Letter.char ⟨kind, absolute⟩ := Option.some.inj hhead
    exact hkind.trans (congrArg Letter.kind (letter_char_injective hchar))

lemma closesSubpath_lowered (command : Command) : command.lowered.closesSubpath = false := by
  rw [Command.lowered]
  split <;> rfl

lemma retold_of_respelled (hproper : origin.Proper) (hlevel : Level origin.lowered scaled)
    (hsame : scaled = { origin.lowered with operands := scaled.operands })
    (h : Respelled config.devmode scaled other) : Retold config origin other := by
  have hkind : scaled.kind = origin.kind :=
    (congrArg Letter.kind hlevel.letter).trans (kind_lowered origin)
  refine ⟨h.replays.kind.trans hkind, ?_, fun hclose => ?_⟩
  · rw [h.closesSubpath, hsame]
    exact closesSubpath_lowered origin
  · rw [h.absoluteText (hkind ▸ hclose)]
    have hlowered : origin.lowered = origin.reread := if_neg hclose
    rw [hlowered] at hlevel
    have hakin : Akin origin scaled :=
      ⟨hkind, fun _ => hlevel.letter, hproper, hlevel.proper,
        hlevel.values.trans (level_reread hproper).values⟩
    rw [hakin.text hclose]

lemma length_text_of_zeroAxis (hwell : command.WellFormed) (h : isZeroAxis command) (spaced : Bool) :
    (command.text spaced).length = 2 := by
  obtain ⟨haxis, hzero⟩ := Bool.and_eq_true_iff.mp h
  obtain ⟨x, ho⟩ := singleton_of_isRelativeAxis hwell haxis
  rw [ho] at hzero
  rw [length_text, ho, operandsText, spelling_of_isZero hzero]
  rfl

lemma two_le_length_text (hwell : command.WellFormed) (h : command.kind ≠ .close) (spaced : Bool) :
    2 ≤ (command.text spaced).length := by
  cases ho : command.operands with
  | nil =>
    rw [Command.WellFormed, ho] at hwell
    cases hk : command.kind <;> rw [hk] at hwell h <;> first
      | exact absurd rfl h
      | cases hwell
  | cons x rest =>
    have hcons := length_operandsText_cons spaced x rest
    rw [length_text, ho]
    omega

lemma letter_of_text_eq {spaced : Bool} (h : other.text spaced = command.text spaced) :
    other.letter = command.letter :=
  letter_char_injective (List.cons.inj h).1

lemma came_of_prints (hprints : Prints config origin command) (horigin : origin.Proper)
    (hbare : origin.Bare) (hcommand : command.Proper) (hkind : origin.kind ≠ command.kind) :
    command.CameAs origin.kind ∧ isZeroAxis command = false := by
  have hclose : command.kind ≠ .close := fun hclose => hkind ((hprints.kind.mpr hclose).trans hclose.symm)
  have htext := hprints.text hclose
  rw [chosenText_bare config hbare] at htext
  obtain hpresent | ⟨kept, hkept, hchosen, -, hlt⟩ := chosenText_present_or_kept config command
  · exact absurd (congrArg Letter.kind (letter_of_text_eq (htext.trans hpresent))) hkind
  · obtain rfl : origin.text config.devmode = kept := htext.trans hchosen
    refine ⟨⟨_, hkept, origin.absolute, rfl⟩, Bool.eq_false_iff.mpr fun hzero => ?_⟩
    have htwo := two_le_length_text horigin.1 (fun hk => hclose (hprints.kind.mp hk)) config.devmode
    rw [length_text_of_zeroAxis hcommand.1 hzero] at hlt
    omega

lemma figure_of_move (hproper : command.Proper) (hmove : command.kind = .move) :
    ∃ x y, command.operands = [x, y] ∧ Hand.figure {} command = .move (x.value, y.value) := by
  obtain ⟨⟨kind, absolute⟩, operands, closes, text⟩ := command
  obtain rfl : kind = .move := hmove
  obtain ⟨x, y, rfl⟩ := exists_of_length_two hproper.1
  refine ⟨x, y, rfl, ?_⟩
  cases absolute <;> simp [Hand.figure, figure, Command.kind, Command.absolute]

/-- The first move counts from the origin in either letter, so no spelling of it is shorter. -/
lemma letter_of_head (hprints : Prints config origin command) (hrespells : Respells {} origin command)
    (horigin : origin.Proper) (hbare : origin.Bare) (hcommand : command.Proper)
    (hmove : command.kind = .move) : origin.letter = command.letter := by
  have hkind : origin.kind = command.kind := (hrespells.move hcommand hmove).trans hmove.symm
  obtain ⟨x, y, ho, hfigure⟩ := figure_of_move horigin (hkind.trans hmove)
  obtain ⟨x', y', ho', hfigure'⟩ := figure_of_move hcommand hmove
  have hvalues : origin.operands.map value = command.operands.map value := by
    have hsame := (hfigure.symm.trans (figure_eq_of_respells hcommand horigin hkind hrespells)).trans hfigure'
    simp only [Figure.move.injEq, Prod.mk.injEq] at hsame
    simp [ho, ho', hsame]
  have hopen : command.kind ≠ .close := by simp [hmove]
  have htext := hprints.text hopen
  rw [chosenText_bare config hbare] at htext
  obtain hpresent | ⟨kept, -, hchosen, -, hlt⟩ := chosenText_present_or_kept config command
  · exact letter_of_text_eq (htext.trans hpresent)
  · have hproper : ({ command with letter := origin.letter } : Command).Proper :=
      ⟨hcommand.1.trans (congrArg Kind.arity hkind.symm), hcommand.2⟩
    have hakin : Akin { command with letter := origin.letter } origin :=
      ⟨rfl, fun _ => rfl, hproper, horigin, hvalues⟩
    have hsame := congrArg List.length (hakin.text (hkind.trans_ne hopen) config.devmode)
    rw [length_text, length_text] at hsame
    rw [← hchosen, ← htext, length_text, length_text, hsame] at hlt
    exact absurd hlt (lt_irrefl _)

lemma recovers_of_prints (hprints : Prints config origin command) (horigin : origin.Proper)
    (hbare : origin.Bare) (hretold : Retold config origin other) (hcommand : command.Proper)
    (hopen : command.closesSubpath = false) (hother : other.Proper)
    (hletter : other.kind = command.kind → command.kind ≠ .close → other.letter = command.letter)
    (hrelative : other.kind ≠ command.kind → command.absolute = false ∧ other.absolute = false) :
    Recovers config command other := by
  refine ⟨hother, hretold.openEnd.trans hopen.symm, fun hclose => ?_, hletter, hrelative, fun hkind => ?_⟩
  · rw [hretold.text fun hk => hclose (hprints.kind.mp hk), ← hprints.text hclose, chosenText_bare config hbare]
  · rw [hretold.kind] at hkind ⊢
    exact came_of_prints hprints horigin hbare hcommand hkind

/-- Counted from the pen, as far as a command counts from anything. -/
def Command.Counted (command : Command) : Prop := command.kind ≠ .close → command.absolute = false

lemma letter_of_counted (hcommand : command.Counted) (hother : other.Counted)
    (hkind : other.kind = command.kind) (hclose : command.kind ≠ .close) : other.letter = command.letter := by
  have habsolute : other.absolute = command.absolute :=
    (hother (hkind ▸ hclose)).trans (hcommand hclose).symm
  obtain ⟨⟨kind, absolute⟩, operands, closes, text⟩ := command
  obtain ⟨⟨kind', absolute'⟩, operands', closes', text'⟩ := other
  obtain rfl : kind' = kind := hkind
  obtain rfl : absolute' = absolute := habsolute
  rfl

variable {origins commands others : List Command}

lemma forall₂_recovers (hprints : List.Forall₂ (Prints config) origins commands)
    (hretold : List.Forall₂ (Retold config) origins others) (horigins : ∀ o ∈ origins, o.Proper ∧ o.Bare)
    (hcommands : ∀ c ∈ commands, c.Proper ∧ c.closesSubpath = false ∧ c.Counted)
    (hothers : ∀ c ∈ others, c.Proper ∧ c.Counted) : List.Forall₂ (Recovers config) commands others := by
  induction hprints generalizing others with
  | nil =>
    cases hretold
    exact .nil
  | cons head _ ih =>
    cases hretold with
    | cons hfirst hrest =>
      obtain ⟨⟨horigin, hbare⟩, horigins⟩ := List.forall_mem_cons.mp horigins
      obtain ⟨⟨hcommand, hopen, hcounted⟩, hcommands⟩ := List.forall_mem_cons.mp hcommands
      obtain ⟨⟨hother, hcounted'⟩, hothers⟩ := List.forall_mem_cons.mp hothers
      refine .cons (recovers_of_prints head horigin hbare hfirst hcommand hopen hother
        (letter_of_counted hcounted hcounted') fun hkind => ?_) (ih hrest horigins hcommands hothers)
      have hclose : _ ≠ Kind.close := fun hclose => hkind
        ((hfirst.kind.trans (head.kind.mpr hclose)).trans hclose.symm)
      exact ⟨hcounted hclose, hcounted' fun hclose' => hclose (head.kind.mp (hfirst.kind.symm.trans hclose'))⟩

theorem forall₂_recovers_of_head (hrespells : RespellsAll {} origins commands)
    (hprints : List.Forall₂ (Prints config) origins commands)
    (hretold : List.Forall₂ (Retold config) origins others) (horigins : ∀ o ∈ origins, o.Proper ∧ o.Bare)
    (hcommands : ∀ c ∈ commands, c.Proper ∧ c.closesSubpath = false) (hothers : ∀ c ∈ others, c.Proper)
    (hmove : BeginsWithMove commands) (hfirst : ∀ o ∈ origins.head?, ∀ c ∈ others.head?, c.letter = o.letter)
    (hcounted : ∀ c ∈ commands.tail, c.Counted) (hcounted' : ∀ c ∈ others.tail, c.Counted) :
    List.Forall₂ (Recovers config) commands others := by
  cases hprints with
  | nil =>
    cases hretold
    exact .nil
  | @cons origin command origins commands head tail =>
    cases hretold with
    | @cons _ other _ others hother hrest =>
      cases hrespells with
      | cons hspelling _ =>
        obtain ⟨⟨horigin, hbare⟩, horigins⟩ := List.forall_mem_cons.mp horigins
        obtain ⟨⟨hcommand, hopen⟩, hcommands⟩ := List.forall_mem_cons.mp hcommands
        obtain ⟨hproper, hothers⟩ := List.forall_mem_cons.mp hothers
        have hk : command.kind = .move := hmove command rfl
        have hletter := letter_of_head head hspelling horigin hbare hcommand hk
        have hsame : other.letter = command.letter := (hfirst origin rfl other rfl).trans hletter
        refine .cons (recovers_of_prints head horigin hbare hother hcommand hopen hproper
          (fun _ _ => hsame) fun hkind => absurd (congrArg Letter.kind hsame) hkind) ?_
        exact forall₂_recovers tail hrest horigins
          (fun c hc => ⟨(hcommands c hc).1, (hcommands c hc).2, hcounted c hc⟩)
          fun c hc => ⟨hothers c hc, hcounted' c hc⟩

lemma forall₂_retold {scaled : List Command} (horigins : ∀ o ∈ origins, o.Proper)
    (hlevel : List.Forall₂ Level (origins.map Command.lowered) scaled)
    (hsame : List.Forall₂ (fun c s => s = { c with operands := s.operands })
      (origins.map Command.lowered) scaled)
    (h : List.Forall₂ (Respelled config.devmode) scaled others) :
    List.Forall₂ (Retold config) origins others := by
  induction origins generalizing scaled others with
  | nil =>
    cases hlevel
    cases h
    exact .nil
  | cons origin rest ih =>
    obtain ⟨horigin, horigins⟩ := List.forall_mem_cons.mp horigins
    cases hlevel with
    | cons hlevel hlevels =>
      cases hsame with
      | cons hsame hsames =>
        cases h with
        | cons hfirst hrest =>
          exact .cons (retold_of_respelled horigin hlevel hsame hfirst) (ih horigins hlevels hsames hrest)

end Retold

section Tail

variable {good : Command → Prop} {edit : Option Command → Command → Option Command → Edit}
  {commands : List Command}

lemma Maintained.tail_sweep (h : Maintained good) (hedit : Lawful edit) (first : Command)
    (hall : ∀ c ∈ commands, good c) : ∀ c ∈ (sweep edit (some first) commands).tail, good c := by
  induction commands generalizing first with
  | nil => simp [sweep]
  | cons command rest ih =>
    obtain ⟨hcommand, hrest⟩ := List.forall_mem_cons.mp hall
    rw [sweep]
    split
    · exact h.forall_sweep hedit (by simpa using hcommand) hrest
    · next other hcase =>
      exact h.forall_sweep hedit (by simpa using h.replaces _ _ _ (hedit.replaces _ _ _ _ hcase) hcommand) hrest
    · exact ih first hrest
    · next other _ => exact ih other hrest

lemma Maintained.tail_sweep_all (h : Maintained good) (hedit : Lawful edit) (hkeeps : KeepsHead edit)
    (hhead : BeginsWithMove commands) (hall : ∀ c ∈ commands.tail, good c) :
    ∀ c ∈ (sweep edit none commands).tail, good c := by
  cases commands with
  | nil => simp [sweep]
  | cons command rest =>
    rw [sweep, hkeeps.first command rest.head? (hhead command rfl)]
    exact h.tail_sweep hedit command hall

lemma tail_trimMoves (hall : ∀ c ∈ commands.tail, good c) : ∀ c ∈ (trimMoves commands).tail, good c := by
  cases commands with
  | nil => exact hall
  | cons command rest =>
    rw [trimMoves_cons]
    split
    · simp
    · exact fun c hc => hall c (mem_of_mem_trimMoves hc)

lemma Maintained.tail_apply (h : Maintained good) (rule : Rule) (hhead : BeginsWithMove commands)
    (hall : ∀ c ∈ commands.tail, good c) : ∀ c ∈ (rule.apply commands).tail, good c := by
  cases rule with
  | straightCubics => exact h.tail_sweep_all .straightCubic (.of_confined .straightCubic) hhead hall
  | axisCubics => exact h.tail_sweep_all .axisCubic (.of_confined .axisCubic) hhead hall
  | orphanSmooth => exact h.tail_sweep_all .orphanSmooth (.of_confined .orphanSmooth) hhead hall
  | contractSmooth => exact h.tail_sweep_all .contractSmooth (.of_confined .contractSmooth) hhead hall
  | linesToAxis => exact h.tail_sweep_all .lineToAxis (.of_confined .lineToAxis) hhead hall
  | mergeAxisRuns => exact h.tail_sweep_all .mergeAxis (.of_confined .mergeAxis) hhead hall
  | dropZeroAxis => exact h.tail_sweep_all .zeroAxis (.of_confined .zeroAxis) hhead hall
  | cleanMoves =>
    have hclosed := h.tail_sweep_all .closeAfterMove .closeAfterMove hhead hall
    exact h.tail_sweep_all .mergeMoves .mergeMoves
      (beginsWithMove_trimMoves (beginsWithMove_sweep .closeAfterMove hhead)) (tail_trimMoves hclosed)

theorem Maintained.tail_simplify (h : Maintained good) (hhead : BeginsWithMove commands)
    (hall : ∀ c ∈ commands.tail, good c) : ∀ c ∈ (simplify commands).tail, good c := by
  rw [simplify]
  generalize Rule.all = rules
  induction rules generalizing commands with
  | nil => exact hall
  | cons rule rest ih => exact ih (rule.beginsWithMove_apply hhead) (h.tail_apply rule hhead hall)

lemma maintained_counted : Maintained Command.Counted where
  replaces previous command other h hcommand := by
    cases h with
    | flat =>
      obtain hflat | ⟨x, y, -, -, ⟨-, hflat⟩ | ⟨-, -, hflat⟩⟩ := flat_cases command
      · rwa [hflat]
      · rw [hflat]
        exact fun _ => rfl
      · rw [hflat]
        exact fun _ => rfl
    | _ => exact fun _ => rfl
  joins before command other h hbefore hcommand := by
    cases h with
    | axis => exact hcommand
    | moveTo _ hk habsolute => cases (hcommand (by simp [hk])).symm.trans habsolute
    | moveBy hk => exact hbefore

end Tail

end TersePath
