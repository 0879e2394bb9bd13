import TersePath.Proofs.Pen.Route

/-! A path of integers made relative takes the route that it took. Only the positions of the pen have to
be small: a control point far away may be rounded when it is counted from the pen, but it stays finite
and moves nothing. -/

namespace TersePath

open Picture Binary64

namespace Binary64

lemma isFinite_ofRatio (s : Bool) {u : ℕ} (hu : u < 2 ^ (55 + places)) : (ofRatio s u 1).isFinite := by
  have hlog : u.log2 - 52 ≤ 2 + places := by
    rcases Nat.eq_zero_or_pos u with rfl | hpos
    · simp
    · have hlt := (Nat.log2_lt hpos.ne').mpr hu
      omega
  have hround : roundUnits u 1 < limit := by
    have hle := roundUnits_le u 1
    rw [Nat.div_one] at hle
    calc roundUnits u 1 ≤ 2 ^ (53 + (u.log2 - 52)) := hle
      _ ≤ 2 ^ (55 + places) := Nat.pow_le_pow_right (by norm_num) (by omega)
      _ < limit := Nat.pow_lt_pow_right (by norm_num) (by rw [range]; omega)
  rw [ofRatio, dif_pos hround]
  rfl

/-- A sum of two integers need not be exact to be finite. -/
lemma isFinite_add {x y : Binary64} (hx : x.Integer) (hy : y.Integer) : (x + y).isFinite := by
  obtain ⟨m, hm, hmlt⟩ := hx
  obtain ⟨n, hn, hnlt⟩ := hy
  obtain ⟨s, u, hu, rfl⟩ := exists_finite hm.1
  obtain ⟨t, v, hv, rfl⟩ := exists_finite hn.1
  have hbound : ∀ {k : ℕ}, k < 2 ^ 53 → k * one < 2 ^ (53 + places) := by
    intro k hk
    have hpow : 2 ^ (53 + places) = 2 ^ 53 * one := by rw [one, Nat.pow_add]
    rw [hpow]
    exact Nat.mul_lt_mul_of_pos_right hk one_pos
  have hu' : u < 2 ^ (53 + places) := (units_of_integer hm.2).1 ▸ hbound (natAbs_lt_of_abs hmlt)
  have hv' : v < 2 ^ (53 + places) := (units_of_integer hn.2).1 ▸ hbound (natAbs_lt_of_abs hnlt)
  have hsum : 2 ^ (53 + places) + 2 ^ (53 + places) ≤ 2 ^ (55 + places) := by
    rw [← mul_two, ← pow_succ]
    exact Nat.pow_le_pow_right (by norm_num) (by omega)
  change (add (finite s u hu) (finite t v hv)).isFinite
  rw [add]
  split
  · exact isFinite_ofRatio s (by omega)
  · split
    · exact isFinite_ofRatio s (by omega)
    · split
      · exact isFinite_ofRatio t (by omega)
      · rfl

end Binary64

namespace Picture

lemma OnAxis.integer {x : Binary64} (hx : x.isFinite) (h : OnAxis x.value) : x.Integer := by
  obtain ⟨n, hn, hlt⟩ := h
  exact ⟨n, ⟨hx, hn⟩, hlt.trans (by norm_num)⟩

lemma isFinite_sub {x c : Binary64} {p : ℚ} (hx : x.Integer) (hc : c.Is p) (hp : OnAxis p) :
    (x - c).isFinite := by
  obtain ⟨n, rfl, hlt⟩ := hp
  have hneg : c.neg.Integer := by
    refine ⟨-n, ?_, by simpa using hlt.trans (by norm_num)⟩
    rw [Int.cast_neg]
    exact neg_is hc
  exact isFinite_add hx hneg

lemma integer_sub {x c : Binary64} {p : ℚ} (hx : x.isFinite) (hsmall : OnAxis x.value) (hc : c.Is p)
    (hp : OnAxis p) : (x - c).Integer := by
  have hsub := sub_onAxis (is_value hx) hc hsmall hp
  obtain ⟨m, hm, hmlt⟩ := hsmall
  obtain ⟨n, rfl, hnlt⟩ := hp
  refine ⟨m - n, ?_, ?_⟩
  · rw [hm] at hsub
    exact_mod_cast hsub
  · rw [abs_lt] at hmlt hnlt ⊢
    constructor <;> omega

end Picture

lemma Command.OnGrid.integer {command : Command} (h : command.OnGrid)
    (hfinite : ∀ x ∈ command.scaledOperands, x.isFinite = true) : command.Integer :=
  fun x hx => (h x hx).integer (hfinite x hx)

lemma Command.OnGrid.fit {command : Command} (h : command.OnGrid) (hproper : command.Proper) :
    command.Fit :=
  ⟨h.integer (List.all_eq_true.mp (finite_of_mem_scaledOperands hproper)), fun _ => h⟩

namespace Picture

section Command

variable {cursor : Cursor} {place : Place} {command : Command}

lemma proper_relativeTo (hat : cursor.At place) (hgrid : OnGrid place.point) (hproper : command.Proper)
    (hinteger : command.Integer) : (command.relativeTo cursor).Proper := by
  refine Command.proper_relativeTo hproper fun axis x hx => ?_
  exact isFinite_sub (hinteger x (Command.mem_scaledOperands_of_withRoles hx (by simp))) (hat.get axis)
    (hgrid.along axis)

lemma integer_relativeTo (hat : cursor.At place) (hgrid : OnGrid place.point) (hproper : command.Proper)
    (hsmall : command.OnGrid) : (command.relativeTo cursor).Integer := by
  intro y hy
  obtain ⟨i, hi, hrole, rfl⟩ := Command.mem_scaledOperands.mp hy
  have hi' : i < command.operands.length := by
    rwa [Command.relativeTo, Command.mapOperands, List.length_mapIdx] at hi
  have hfinite := hproper.2 _ (List.getElem_mem hi')
  have hvalue := hsmall _ (Command.mem_scaledOperands.mpr ⟨i, hi', hrole, rfl⟩)
  simp only [Command.relativeTo, Command.mapOperands, List.getElem_mapIdx]
  split
  · next axis _ => exact integer_sub hfinite hvalue (hat.get axis) (hgrid.along axis)
  · exact hvalue.integer hfinite

lemma finish?_relativeTo (cursor : Cursor) (hwell : command.WellFormed) (axis : Axis) :
    (command.relativeTo cursor).finish? axis =
    (command.finish? axis).map fun x => x - cursor.get axis := by
  obtain ⟨⟨kind, absolute⟩, operands, closes, text⟩ := command
  have hops : Operands kind operands := hwell.operands
  cases hops <;> cases axis <;>
    simp [Command.relativeTo, Command.mapOperands, Kind.role, Command.finish?, Command.kind]

lemma target_relativeTo (hat : cursor.At place) (hgrid : OnGrid place.point) (hproper : command.Proper)
    (habsolute : command.absolute = true) (hclose : command.kind ≠ .close)
    (hend : OnGrid (figure value place command).target) :
    (figure value place (command.relativeTo cursor)).target = (figure value place command).target := by
  have hwell : (command.relativeTo cursor).WellFormed := (List.length_mapIdx ..).trans hproper.1
  refine ext_along fun axis => ?_
  have hrelative := finish?_relativeTo cursor hproper.1 axis
  cases hfinish : command.finish? axis with
  | some x =>
    rw [hfinish, Option.map_some] at hrelative
    obtain ⟨hmem, htarget⟩ := along_target_of_some value place hproper.1 hclose hfinish
    have hgrids := hend.along axis
    rw [htarget, habsolute, along_base, basis_absolute, zero_add] at hgrids
    have hdifference := sub_onAxis (is_value (hproper.2 x (Command.mem_operands_of_withRoles hmem)))
      (hat.get axis) hgrids (hgrid.along axis)
    rw [(along_target_of_some value place hwell hclose hrelative).2, htarget, habsolute, along_base,
      along_base]
    change along axis place.point + _ = 0 + x.value
    rw [hdifference.2, add_sub_cancel, zero_add]
  | none =>
    rw [hfinish, Option.map_none] at hrelative
    rw [along_target_of_none hwell hclose hrelative, along_target_of_none hproper.1 hclose hfinish]

lemma step_of_target {other : Command} (hproper : command.Proper) (hother : other.Proper)
    (hkind : other.kind = command.kind)
    (htarget : (figure value place other).target = (figure value place command).target) :
    place.step other = place.step command := by
  by_cases hmove : command.kind = .move
  · rw [Place.step, Place.step, figure_move hproper hmove, figure_move hother (hkind.trans hmove), htarget]
  · rw [Place.step, Place.step, after_of_not_move (figure_ne_move hmove),
      after_of_not_move (figure_ne_move (hkind ▸ hmove)), htarget]

lemma step_relativeTo (hat : cursor.At place) (hgrid : OnGrid place.point) (hproper : command.Proper)
    (hinteger : command.Integer) (habsolute : command.absolute = true) (hclose : command.kind ≠ .close)
    (hend : OnGrid (figure value place command).target) :
    place.step (command.relativeTo cursor) = place.step command :=
  step_of_target hproper (proper_relativeTo hat hgrid hproper hinteger) rfl
    (target_relativeTo hat hgrid hproper habsolute hclose hend)

end Command

structure Plotted (place : Place) (commands : List Command) : Prop where
  proper : ∀ c ∈ commands, c.Proper
  integer : ∀ c ∈ commands, c.Integer
  targets : ∀ f ∈ figures value place commands, OnGrid f.target

lemma plotted_cons {place : Place} {command : Command} {rest : List Command} :
    Plotted place (command :: rest) ↔ (command.Proper ∧ command.Integer ∧
      OnGrid (place.step command).point) ∧ Plotted (place.step command) rest := by
  rw [Place.step, Place.point_after]
  constructor
  · rintro ⟨hproper, hinteger, htargets⟩
    simp only [figures, List.forall_mem_cons] at hproper hinteger htargets
    exact ⟨⟨hproper.1, hinteger.1, htargets.1⟩, hproper.2, hinteger.2, htargets.2⟩
  · rintro ⟨⟨hproper, hinteger, htarget⟩, hrest⟩
    refine ⟨List.forall_mem_cons.mpr ⟨hproper, hrest.proper⟩,
      List.forall_mem_cons.mpr ⟨hinteger, hrest.integer⟩, ?_⟩
    simp only [figures, List.forall_mem_cons]
    exact ⟨htarget, hrest.targets⟩

/-- What a path may become for the pen to take the same route. -/
structure Follows (good : Command → Prop) (spaced : Bool) (place : Place)
    (commands others : List Command) : Prop where
  route : Route good spaced place others
  tidy : (∀ c ∈ commands, c.Bare ∧ c.Fit) → ∀ c ∈ others, c.Tidy

section Path

variable {good : Command → Prop} {spaced : Bool} {cursor : Cursor} {place : Place}
  {command result : Command} {commands others : List Command}

lemma Follows.cons (hstop : Stop good spaced place result)
    (hstep : place.step result = place.step command)
    (htidy : command.Bare → command.Fit → result.Tidy)
    (h : Follows good spaced (place.step command) commands others) :
    Follows good spaced place (command :: commands) (result :: others) := by
  refine ⟨⟨hstop, hstep.symm ▸ h.route⟩, fun hall => ?_⟩
  obtain ⟨⟨hbare, hfit⟩, hrest⟩ := List.forall_mem_cons.mp hall
  exact List.forall_mem_cons.mpr ⟨htidy hbare hfit, h.tidy hrest⟩

lemma stop_keepText (hproper : command.Proper)
    (hgood : good { letter := command.letter, operands := command.operands })
    (hresult : result.Proper) (hclose : command.kind ≠ .close) (hkind : result.kind = command.kind)
    (htext : result.absoluteText = some (command.text spaced))
    (hgrid : OnGrid (place.step command).point) (hstep : place.step result = place.step command) :
    Stop good spaced place result := by
  refine ⟨hresult, hstep.symm ▸ hgrid, fun _ text h => ?_⟩
  rw [htext] at h
  obtain rfl := Option.some.inj h
  exact ⟨{ letter := command.letter, operands := command.operands }, hproper, ⟨rfl, rfl⟩, hgood, rfl,
    hclose, fun hk => hkind.symm.trans hk, hstep.symm⟩

lemma stop_close (hproper : command.Proper) (hgrid : OnGrid (place.step command).point)
    (hclose : command.kind = .close) : Stop good spaced place command :=
  ⟨hproper, hgrid, fun hopen => absurd hclose hopen⟩

lemma tidy_of_bare (hbare : command.Bare) (hfit : command.Fit) : command.Tidy :=
  ⟨hbare.1, hfit, fun _ => hbare.2⟩

theorem follows_relativeFrom (hat : cursor.At place) (hgrid : place.OnGrid) (h : Plotted place commands)
    (hgood : ∀ c ∈ commands, good { letter := c.letter, operands := c.operands }) :
    Follows good spaced place commands (relativeFrom spaced cursor commands) := by
  induction commands generalizing cursor place with
  | nil => exact ⟨trivial, fun _ => by simp [relativeFrom]⟩
  | cons command rest ih =>
    obtain ⟨⟨hproper, hinteger, hend⟩, hrest⟩ := plotted_cons.mp h
    obtain ⟨hfirst, hlater⟩ := List.forall_mem_cons.mp hgood
    -- whatever becomes of the command, the pen goes on from the same place
    have hnext : ∀ result : Command, Stop good spaced place result →
        place.step result = place.step command → (command.Bare → command.Fit → result.Tidy) →
        Follows good spaced place (command :: rest)
          (result :: relativeFrom spaced (cursor.advance result) rest) := by
      intro result hstop hstep htidy
      have hadvance := hat.advance hstop.proper (Place.point_after .. ▸ hstop.grid)
      exact .cons hstop hstep htidy (ih (hstep ▸ hadvance) (hgrid.step hend) hrest hlater)
    rw [relativeFrom]
    by_cases hclose : command.kind = .close
    · simp only [if_pos hclose]
      exact hnext command (stop_close hproper hend hclose) rfl tidy_of_bare
    · simp only [if_neg hclose]
      have htidy : ∀ result : Command, result.closesSubpath = command.closesSubpath →
          result.kind = command.kind → (command.Fit → result.Fit) →
          command.Bare → command.Fit → result.Tidy := fun result hcloses hkind hresult hbare hfit =>
        ⟨hcloses.trans hbare.1, hresult hfit, fun hk => absurd (hkind.symm.trans hk) hclose⟩
      cases habsolute : command.absolute with
      | false =>
        rw [if_neg Bool.false_ne_true]
        exact hnext _ (stop_keepText hproper hfirst hproper hclose rfl rfl hend rfl) rfl
          (htidy _ rfl rfl fun hfit => ⟨hfit.integer, hfit.grid⟩)
      | true =>
        have hkept : (command.keepText spaced).Proper := hproper
        have hstep : place.step ((command.keepText spaced).relativeTo cursor) = place.step command :=
          step_relativeTo hat hgrid.1 hkept hinteger habsolute hclose (Place.point_after .. ▸ hend)
        rw [if_pos rfl]
        refine hnext _ (stop_keepText hproper hfirst (proper_relativeTo hat hgrid.1 hkept hinteger)
          hclose rfl rfl hend hstep) hstep (htidy _ rfl rfl fun hfit => ⟨?_, fun hk => ?_⟩)
        · exact integer_relativeTo hat hgrid.1 hkept (hfit.grid habsolute)
        · cases hk

/-- A path of integers made relative takes the route that it took. -/
theorem follows_toRelative (h : Plotted {} commands)
    (hgood : ∀ c ∈ commands, good { letter := c.letter, operands := c.operands }) :
    Follows good spaced {} commands (toRelative spaced commands) := by
  cases commands with
  | nil => exact ⟨trivial, fun _ => by simp [toRelative]⟩
  | cons command rest =>
    obtain ⟨⟨hproper, hinteger, hend⟩, hrest⟩ := plotted_cons.mp h
    obtain ⟨hfirst, hlater⟩ := List.forall_mem_cons.mp hgood
    have hnext : ∀ result : Command, Stop good spaced {} result →
        Place.step {} result = Place.step {} command → (command.Bare → command.Fit → result.Tidy) →
        Follows good spaced {} (command :: rest)
          (result :: relativeFrom spaced (Cursor.advance {} result) rest) := by
      intro result hstop hstep htidy
      have hadvance := cursor_at_origin.advance hstop.proper (Place.point_after .. ▸ hstop.grid)
      exact .cons hstop hstep htidy
        (follows_relativeFrom (hstep ▸ hadvance) (onGrid_origin.step hend) hrest hlater)
    rw [toRelative]
    by_cases hclose : command.kind = .close
    · simp only [if_pos hclose]
      exact hnext command (stop_close hproper hend hclose) rfl tidy_of_bare
    · simp only [if_neg hclose]
      exact hnext _ (stop_keepText hproper hfirst hproper hclose rfl rfl hend rfl) rfl
        fun hbare hfit => ⟨hbare.1, ⟨hfit.integer, hfit.grid⟩, fun hk => absurd hk hclose⟩

end Path

end Picture

end TersePath
