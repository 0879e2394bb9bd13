import TersePath.Element
import TersePath.Proofs.Path.Fields

/-! The element of a path that is scaled up. How it is painted is decided by the nearest values, and a
compensated element is painted as before with a stroke that is wider by the scale. -/

namespace TersePath

namespace Element

/-- The nearest value of an element and its ancestors that is not empty. -/
def nearest (element : Element) (name default : String) : String :=
  (element.chain.findSome? fun attributes => givenValue? attributes name).getD default

/-- The nearest stroke width that is a length. -/
def nearestWidth (element : Element) : Binary64 :=
  (element.chain.findSome? fun attributes =>
    (givenValue? attributes "stroke-width").bind leadingLength?).getD (.ofInt 1)

/-- Whether the width of the stroke matters: there is a stroke, or the element has a width of its own. -/
def Outlined (element : Element) : Prop :=
  element.nearest "stroke" "none" ≠ "none" ∨ (element.attributes.get? "stroke-width").isSome

instance (element : Element) : Decidable element.Outlined := inferInstanceAs (Decidable (_ ∨ _))

/-- How an element looks after its path was scaled: its transform ends in the inverse scale, and its stroke
has a new width if that matters. -/
structure Compensated (element after : Element) (inverse width : Binary64) : Prop where
  fill : after.visibility.fill = element.nearest "fill" "black"
  stroke : after.visibility.stroke = element.nearest "stroke" "none"
  widened : element.Outlined → width.equals after.visibility.strokeWidth
  kept : ¬element.Outlined → after.visibility.strokeWidth = element.nearestWidth
  transform : after.attributes.get? "transform" = some
    (let existing := trim ((element.attributes.get? "transform").getD "").toList
    (if existing = [] then "" else String.ofList existing ++ " ") ++
      ("scale(" ++ String.ofList inverse.spelling ++ ")"))
  others : ∀ name, name ≠ "transform" → (name = "stroke-width" → ¬element.Outlined) →
    after.attributes.get? name = element.attributes.get? name
  ancestors : after.ancestors = element.ancestors

end Element

section Painting

lemma getD_findSome?_cons {α β : Type} (f : α → Option β) (x : α) (xs : List α) (default : β) :
    ((x :: xs).findSome? f).getD default = (f x).getD ((xs.findSome? f).getD default) := by
  rw [List.findSome?_cons]
  cases f x with
  | none => rfl
  | some y => rfl

lemma visibility_eq (element : Element) : element.visibility =
    { fill := element.nearest "fill" "black"
      stroke := element.nearest "stroke" "none"
      strokeWidth := element.nearestWidth } := by
  simp only [Element.visibility, Element.nearest, Element.nearestWidth]
  induction element.chain with
  | nil => simp only [Visibility.ofChain, List.foldr_nil, List.findSome?_nil, Option.getD_none]
  | cons attributes chain ih =>
    have hstep : Visibility.ofChain (attributes :: chain) = .inherit attributes (.ofChain chain) := rfl
    rw [hstep, ih, Visibility.inherit]
    simp only [getD_findSome?_cons]

end Painting

section Setting

variable {element : Element}

lemma givenValue?_set_of_ne {name other : String} (h : other ≠ name) (attributes : Attributes)
    (value : String) : givenValue? (attributes.set name value) other = givenValue? attributes other := by
  rw [givenValue?, givenValue?, Attributes.get?_set_of_ne h]

lemma visibility_withTransform (element : Element) (transform : String) :
    (element.withTransform transform).visibility = element.visibility := by
  simp only [Element.withTransform, Element.visibility, Element.chain, Element.set,
    Visibility.ofChain, List.foldr_cons, Visibility.inherit]
  rw [givenValue?_set_of_ne (by decide), givenValue?_set_of_ne (by decide),
    givenValue?_set_of_ne (by decide)]

lemma leadingLength?_spelling {x : Binary64} (hx : x.isFinite) :
    leadingLength? (String.ofList x.spelling) = some x.reread := by
  obtain ⟨d, hd, hvalue⟩ := Binary64.read?_spelling hx
  have hspelled := spelled_spelling hx
  have hfront : Numeral.readFront x.spelling = some (d, []) := by
    rw [Numeral.read?] at hd
    split at hd
    · next value heq =>
      obtain rfl := Option.some.inj hd
      exact heq
    · cases hd
  obtain ⟨c, rest, hcons⟩ := List.exists_cons_of_ne_nil hspelled.ne_nil
  have hblank : (x.spelling).dropWhile isBlank = x.spelling := by
    rw [hcons, List.dropWhile_cons_of_neg]
    simp [hspelled.isBlank c (by simp [hcons])]
  rw [leadingLength?, String.toList_ofList, hblank, hfront, Option.map_some, hvalue]

lemma visibility_setWidth {x : Binary64} (hx : x.isFinite) (element : Element) :
    (element.set "stroke-width" (String.ofList x.spelling)).visibility =
      { element.visibility with strokeWidth := x.reread } := by
  have hgiven : givenValue? (element.attributes.set "stroke-width" (String.ofList x.spelling))
      "stroke-width" = some (String.ofList x.spelling) := by
    rw [givenValue?, Attributes.get?_set_self, Option.filter_some, if_pos]
    simpa using (spelled_spelling hx).ne_nil
  simp only [Element.visibility, Element.chain, Element.set, Visibility.ofChain, List.foldr_cons,
    Visibility.inherit]
  rw [givenValue?_set_of_ne (by decide), givenValue?_set_of_ne (by decide), hgiven, Option.bind_some,
    leadingLength?_spelling hx, Option.getD_some]

end Setting

section Compensation

variable {element : Element} {scale : ℤ} {inverse width : Binary64}

lemma exists_timesInteger {x : Binary64} (hx : x.isFinite) (factor : ℤ) :
    ∃ y, x.timesInteger factor = .ok y := by
  obtain ⟨s, n, hn, rfl⟩ := Binary64.exists_finite hx
  exact ⟨_, rfl⟩

lemma exists_reciprocal (h : scale ≠ 0) : ∃ inverse, Binary64.reciprocal scale = .ok inverse := by
  rw [Binary64.reciprocal, if_neg h]
  exact ⟨_, rfl⟩

def Element.shrunk (element : Element) (inverse : Binary64) : Element :=
  element.withTransform ("scale(" ++ String.ofList inverse.spelling ++ ")")

lemma visibility_shrunk (element : Element) (inverse : Binary64) : (element.shrunk inverse).visibility =
    { fill := element.nearest "fill" "black"
      stroke := element.nearest "stroke" "none"
      strokeWidth := element.nearestWidth } :=
  (visibility_withTransform element _).trans (visibility_eq element)

lemma compensate_eq (hinverse : Binary64.reciprocal scale = .ok inverse)
    (hwidth : element.Outlined → element.nearestWidth.timesInteger scale = .ok width) :
    element.compensate scale = (if element.Outlined then
      (element.shrunk inverse).set "stroke-width" (String.ofList width.spelling)
      else element.shrunk inverse, none) := by
  have hown : (element.shrunk inverse).attributes.get? "stroke-width" =
      element.attributes.get? "stroke-width" := Attributes.get?_set_of_ne (by decide) ..
  rw [Element.compensate, scaleTransform, hinverse]
  dsimp only [Except.map]
  rw [← Element.shrunk, visibility_shrunk, hown]
  dsimp only
  by_cases h : element.Outlined
  · rw [if_pos h, hwidth h]
    exact if_pos h
  · rw [if_neg h]
    exact if_neg h

lemma compensate_succeeds (hwidth : element.visibility.strokeWidth.isFinite = true) (hscale : scale ≠ 0) :
    (element.compensate scale).2 = none := by
  rw [visibility_eq] at hwidth
  obtain ⟨width, hwidth⟩ := exists_timesInteger hwidth scale
  obtain ⟨inverse, hinverse⟩ := exists_reciprocal hscale
  rw [compensate_eq hinverse fun _ => hwidth]

lemma get?_shrunk (element : Element) (inverse : Binary64) :
    (element.shrunk inverse).attributes.get? "transform" = some
      (let existing := trim ((element.attributes.get? "transform").getD "").toList
      (if existing = [] then "" else String.ofList existing ++ " ") ++
        ("scale(" ++ String.ofList inverse.spelling ++ ")")) := by
  rw [Element.shrunk, Element.withTransform, Element.set, Attributes.get?_set_self]
  dsimp only
  split
  · next h => rw [if_pos (List.isEmpty_iff.mp h), String.empty_append]
  · next h => rw [if_neg (mt List.isEmpty_iff.mpr h)]

lemma compensated_outlined (hfinite : width.isFinite) (houtlined : element.Outlined) :
    element.Compensated ((element.shrunk inverse).set "stroke-width" (String.ofList width.spelling))
      inverse width := by
  have hpainted := visibility_setWidth hfinite (element.shrunk inverse)
  rw [visibility_shrunk] at hpainted
  refine ⟨by rw [hpainted], by rw [hpainted], fun _ => ?_, fun h => absurd houtlined h, ?_, ?_, rfl⟩
  · rw [hpainted]
    exact Binary64.equals_reread hfinite
  · rw [Element.set, Attributes.get?_set_of_ne (by decide), get?_shrunk]
  · intro name htransform hwidth
    have hne : name ≠ "stroke-width" := fun h => hwidth h houtlined
    rw [Element.set, Attributes.get?_set_of_ne hne]
    exact Attributes.get?_set_of_ne htransform ..

lemma compensated_plain (hplain : ¬element.Outlined) :
    element.Compensated (element.shrunk inverse) inverse width := by
  have hpainted := visibility_shrunk element inverse
  refine ⟨by rw [hpainted], by rw [hpainted], fun h => absurd h hplain, fun _ => by rw [hpainted], ?_, ?_, rfl⟩
  · exact get?_shrunk element inverse
  · intro name htransform _
    exact Attributes.get?_set_of_ne htransform ..

lemma exists_compensated {scale : ℕ} (hscale : 0 < scale) (hwidth : element.Outlined →
      element.nearestWidth.timesInteger scale = .ok width ∧ width.isFinite = true) :
    ∃ after, element.compensate scale = (after, none) ∧
      element.Compensated after (.ofRatio false Binary64.one scale) width := by
  have hinverse : Binary64.reciprocal scale = .ok (.ofRatio false Binary64.one scale) := by
    rw [Binary64.reciprocal, if_neg (by omega), Int.natAbs_natCast, decide_eq_false (by omega)]
  refine ⟨_, compensate_eq hinverse fun h => (hwidth h).1, ?_⟩
  split
  · next houtlined => exact compensated_outlined (hwidth houtlined).2 houtlined
  · next hplain => exact compensated_plain hplain

end Compensation

/-- Undoing a scale keeps how the element is painted, apart from a stroke that is wider by the scale. -/
theorem compensated_compensate {element : Element} {scale : ℕ} {width : Binary64} (hscale : 0 < scale)
    (hwidth : element.nearestWidth.timesInteger scale = .ok width) (hfinite : width.isFinite) :
    ∃ after, element.compensate scale = (after, none) ∧
      element.Compensated after (.ofRatio false Binary64.one scale) width :=
  exists_compensated hscale fun _ => ⟨hwidth, hfinite⟩

namespace Example

/-- A badge whose own width is no length, in a group with a width that is empty, in a drawing that has one. -/
def badge : Element where
  attributes := { given := [("stroke", ""), ("transform", " rotate(45) "), ("stroke-width", "thick")] }
  ancestors := [{ given := [("stroke", "blue"), ("stroke-width", "")] },
    { given := [("stroke", "green"), ("fill", "red"), ("stroke-width", " 1.1px")] }]

end Example

theorem compensated_compensate_badge :
    Example.badge.nearestWidth.timesInteger (100 : ℕ) = .ok (.ofInt 110) ∧
    ∃ after, Example.badge.compensate (100 : ℕ) = (after, none) ∧
      Example.badge.Compensated after (.ofRatio false Binary64.one 100) (.ofInt 110) := by
  have hwidth : Example.badge.nearestWidth.timesInteger (100 : ℕ) = .ok (.ofInt 110) := by
    decide +kernel
  exact ⟨hwidth, compensated_compensate (by decide) hwidth (by decide +kernel)⟩

end TersePath
