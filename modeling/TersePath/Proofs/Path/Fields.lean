import TersePath.Proofs.Number.Spelling
import TersePath.Path.Token

namespace TersePath

lemma mem_of_isDigit {c : Char} (h : c.isDigit) :
    c ∈ ['0', '1', '2', '3', '4', '5', '6', '7', '8', '9'] := by
  have hrange : 48 ≤ c.toNat ∧ c.toNat ≤ 57 := by
    simpa [Char.isDigit, UInt32.le_iff_toNat_le] using h
  obtain ⟨hlow, hhigh⟩ := hrange
  have hc : c = Char.ofNat c.toNat := (Char.ofNat_toNat c).symm
  generalize c.toNat = n at *
  subst hc
  interval_cases n <;> decide

def isPlain (c : Char) : Bool := c.isDigit || c == '.'

lemma mem_of_isPlain {c : Char} (h : isPlain c) :
    c ∈ ['.', '0', '1', '2', '3', '4', '5', '6', '7', '8', '9'] := by
  rcases Bool.or_eq_true_iff.mp h with h | h
  · exact List.mem_cons_of_mem _ (mem_of_isDigit h)
  · simp [eq_of_beq h]

lemma isPlain_spec {c : Char} (h : isPlain c) : isBlank c = false ∧ isCommandStart c = false ∧
    isSign c = false ∧ isExponentMark c = false ∧ c ≠ ',' := by
  have hmem := mem_of_isPlain h
  simp only [List.mem_cons, List.not_mem_nil, or_false] at hmem
  rcases hmem with rfl | rfl | rfl | rfl | rfl | rfl | rfl | rfl | rfl | rfl | rfl <;>
    exact ⟨rfl, rfl, rfl, rfl, by decide⟩

lemma isBlank_of_isPlain {c : Char} (h : isPlain c) : isBlank c = false := (isPlain_spec h).1

lemma isCommandStart_of_isPlain {c : Char} (h : isPlain c) : isCommandStart c = false :=
  (isPlain_spec h).2.1

lemma isSign_of_isPlain {c : Char} (h : isPlain c) : isSign c = false := (isPlain_spec h).2.2.1

lemma isExponentMark_of_isPlain {c : Char} (h : isPlain c) : isExponentMark c = false :=
  (isPlain_spec h).2.2.2.1

lemma Body.isPlain {text whole fraction : List Char} (h : Body text whole fraction) :
    ∀ c ∈ text, isPlain c := by
  obtain ⟨⟨rfl, rfl⟩ | rfl, hwhole, hfraction, -⟩ := h
  · intro c hc
    simp [TersePath.isPlain, hwhole c hc]
  · intro c hc
    rcases List.mem_append.mp hc with hc | hc
    · simp [TersePath.isPlain, hwhole c hc]
    · rcases List.mem_cons.mp hc with rfl | hc
      · rfl
      · simp [TersePath.isPlain, hfraction c hc]

/-- What stays together when a text is parted, and has no part in what follows. -/
structure Solid (text : List Char) : Prop where
  ne_nil : text ≠ []
  isChain : text.IsChain fun x y => continuesField x y = true
  isBlank : ∀ c ∈ text, isBlank c = false
  isCommandStart : ∀ c ∈ text, isCommandStart c = false
  last : ∀ c ∈ text.getLast?, isExponentMark c = false

lemma isChain_of_unsigned {text : List Char} (hblank : ∀ c ∈ text, isBlank c = false)
    (hsign : ∀ c ∈ text.tail, isSign c = false) :
    text.IsChain fun x y => continuesField x y = true := by
  induction text with
  | nil => exact .nil
  | cons c rest ih =>
    cases rest with
    | nil => exact .singleton c
    | cons d rest =>
      refine .cons_cons ?_ (ih (fun x hx => hblank x (List.mem_cons_of_mem c hx))
        fun x hx => hsign x (List.mem_of_mem_tail hx))
      simp [continuesField, hblank c (by simp), hblank d (by simp), hsign d (by simp)]

def Spelled (text : List Char) : Prop :=
  ∃ s body, text = signText s ++ body ∧ body ≠ [] ∧ ∀ c ∈ body, isPlain c

lemma spelled_spelling {x : Binary64} (hx : x.isFinite) : Spelled x.spelling := by
  obtain ⟨s, body, whole, fraction, htext, hbody, -⟩ := Binary64.exists_spelling hx
  obtain ⟨c, rest, hcons, -⟩ := hbody.exists_cons
  exact ⟨s, body, htext, by simp [hcons], hbody.isPlain⟩

namespace Spelled

variable {text : List Char}

lemma ne_nil (h : Spelled text) : text ≠ [] := by
  obtain ⟨s, body, rfl, hne, -⟩ := h
  simp [hne]

lemma mem (h : Spelled text) : ∀ c ∈ text, c = '-' ∨ isPlain c := by
  obtain ⟨s, body, rfl, -, hplain⟩ := h
  intro c hc
  rcases List.mem_append.mp hc with hc | hc
  · cases s with
    | true => exact Or.inl (List.mem_singleton.mp hc)
    | false => simp [signText] at hc
  · exact Or.inr (hplain c hc)

lemma isBlank (h : Spelled text) : ∀ c ∈ text, isBlank c = false := by
  intro c hc
  rcases h.mem c hc with rfl | hc
  · rfl
  · exact isBlank_of_isPlain hc

lemma isCommandStart (h : Spelled text) : ∀ c ∈ text, isCommandStart c = false := by
  intro c hc
  rcases h.mem c hc with rfl | hc
  · rfl
  · exact isCommandStart_of_isPlain hc

lemma tail (h : Spelled text) : ∀ c ∈ text.tail, isPlain c := by
  obtain ⟨s, body, rfl, -, hplain⟩ := h
  cases s with
  | true => exact hplain
  | false => exact fun c hc => hplain c (List.mem_of_mem_tail hc)

lemma getLast (h : Spelled text) : ∀ c ∈ text.getLast?, isPlain c := by
  obtain ⟨s, body, rfl, hne, hplain⟩ := h
  intro c hc
  rw [List.getLast?_append_of_ne_nil _ hne] at hc
  exact hplain c (List.mem_of_getLast? (Option.mem_def.mp hc))

lemma strayExponent (h : Spelled text) : strayExponent text = false := by
  obtain ⟨s, body, rfl, hne, hplain⟩ := h
  obtain ⟨c, rest, rfl⟩ := List.exists_cons_of_ne_nil hne
  have hc : TersePath.isPlain c := hplain c (by simp)
  cases s with
  | true =>
    simp only [signText, if_true, List.cons_append, List.nil_append, TersePath.strayExponent,
      List.head?_cons, Option.any_some, isExponentMark_of_isPlain hc, Bool.and_false, Bool.or_false]
    decide
  | false =>
    simp [signText, TersePath.strayExponent, isExponentMark_of_isPlain hc, isSign_of_isPlain hc]

lemma solid (h : Spelled text) : Solid text where
  ne_nil := h.ne_nil
  isChain := isChain_of_unsigned h.isBlank fun c hc => isSign_of_isPlain (h.tail c hc)
  isBlank := h.isBlank
  isCommandStart := h.isCommandStart
  last := fun c hc => isExponentMark_of_isPlain (h.getLast c hc)

end Spelled

lemma fields_cons_blank {b : Char} (hb : isBlank b) (text : List Char) :
    fields (b :: text) = fields text := by
  have hsplit : (b :: text).splitBy continuesField = [b] :: text.splitBy continuesField := by
    rw [← List.singleton_append, List.splitBy_append]
    · rfl
    · intro x hx y _
      obtain rfl : b = x := by simpa using hx
      simp [continuesField, hb]
  rw [fields, hsplit, List.filter_cons_of_neg (by simp [hb]), fields]

lemma fields_append_blanks (text : List Char) {blanks : List Char}
    (h : ∀ c ∈ blanks, isBlank c = true) : fields (text ++ blanks) = fields text := by
  have hbreak : ∀ x ∈ text.getLast?, ∀ y ∈ blanks.head?, continuesField x y = false := by
    intro x _ y hy
    simp [continuesField, h y (List.mem_of_head? (Option.mem_def.mp hy))]
  have hnone : (blanks.splitBy continuesField).filter (fun field => !field.all isBlank) = [] := by
    rw [List.filter_eq_nil_iff]
    intro field hfield
    have hall : field.all isBlank := by
      rw [List.all_eq_true]
      intro c hc
      refine h c ?_
      rw [← List.flatten_splitBy continuesField blanks]
      exact List.mem_flatten_of_mem hfield hc
    simp [hall]
  rw [fields, List.splitBy_append hbreak, List.filter_append, hnone, List.append_nil, fields]

lemma exists_trimEnd (text : List Char) :
    ∃ blanks, text = trimEnd text ++ blanks ∧ ∀ c ∈ blanks, isBlank c = true := by
  induction text with
  | nil => exact ⟨[], rfl, by simp⟩
  | cons c rest ih =>
    obtain ⟨blanks, hrest, hblanks⟩ := ih
    rw [trimEnd_cons]
    split
    · next h =>
      rw [Bool.and_eq_true, List.isEmpty_iff] at h
      refine ⟨c :: rest, rfl, fun d hd => ?_⟩
      rcases List.mem_cons.mp hd with rfl | hd
      · exact h.1
      · rw [h.2, List.nil_append] at hrest
        exact hblanks d (hrest ▸ hd)
    · exact ⟨blanks, by rw [List.cons_append, ← hrest], hblanks⟩

lemma fields_trim (text : List Char) : fields (trim text) = fields text := by
  obtain ⟨blanks, hblanks, hall⟩ := exists_trimEnd (text.dropWhile isBlank)
  have hfront : ∀ text : List Char, fields (text.dropWhile isBlank) = fields text := by
    intro text
    induction text with
    | nil => rfl
    | cons c rest ih =>
      by_cases hc : isBlank c
      · rw [List.dropWhile_cons_of_pos hc, ih, fields_cons_blank hc]
      · rw [List.dropWhile_cons_of_neg hc]
  rw [trim, ← fields_append_blanks _ hall, ← hblanks, hfront]

lemma fields_append_of_break {text rest : List Char} (hne : text ≠ [])
    (hchain : text.IsChain fun x y => continuesField x y = true)
    (hblank : ∀ c ∈ text, isBlank c = false)
    (hbreak : ∀ x ∈ text.getLast?, ∀ y ∈ rest.head?, continuesField x y = false) :
    fields (text ++ rest) = text :: fields rest := by
  have hsome : ¬text.all isBlank := by
    obtain ⟨c, others, rfl⟩ := List.exists_cons_of_ne_nil hne
    simp [hblank c (by simp)]
  rw [fields, List.splitBy_append hbreak, List.splitBy_of_isChain hne hchain,
    List.singleton_append, List.filter_cons_of_pos (by simpa using hsome), fields]

lemma Solid.fields_append {text : List Char} (h : Solid text) {rest : List Char}
    (hrest : ∀ c ∈ rest.head?, isSign c ∨ TersePath.isBlank c) :
    fields (text ++ rest) = text :: fields rest := by
  refine fields_append_of_break h.ne_nil h.isChain h.isBlank fun x hx y hy => ?_
  rcases hrest y hy with hsign | hblank
  · simp [continuesField, h.last x hx, hsign]
  · simp [continuesField, hblank]

lemma fields_append {text : List Char} (h : Spelled text) {rest : List Char}
    (hrest : ∀ c ∈ rest.head?, c = '-' ∨ isBlank c) : fields (text ++ rest) = text :: fields rest := by
  refine h.solid.fields_append fun c hc => (hrest c hc).imp_left ?_
  rintro rfl
  rfl

/-- The field that a spelled number makes is read as the number. -/
theorem readField_spelling (strict : Bool) {x : Binary64} (hx : x.isFinite) :
    readField strict x.spelling = .ok x.reread := by
  rw [readField, (spelled_spelling hx).strayExponent, Binary64.isNumeral_spelling hx,
    Binary64.readNumber_spelling hx]
  simp

def leading (text : List Char) : List Char := text.takeWhile fun c => !isCommandStart c

def following (text : List Char) : List Char := text.dropWhile fun c => !isCommandStart c

lemma leading_append {front : List Char} (h : ∀ c ∈ front, isCommandStart c = false)
    (text : List Char) : leading (front ++ text) = front ++ leading text := by
  rw [leading, List.takeWhile_append_of_pos (fun c hc => by simp [h c hc]), leading]

lemma following_append {front : List Char} (h : ∀ c ∈ front, isCommandStart c = false)
    (text : List Char) : following (front ++ text) = following text := by
  rw [following, List.dropWhile_append_of_pos (fun c hc => by simp [h c hc]), following]

lemma leading_cons {c : Char} (h : isCommandStart c) (text : List Char) :
    leading (c :: text) = [] := by
  simp [leading, h]

lemma following_cons {c : Char} (h : isCommandStart c) (text : List Char) :
    following (c :: text) = c :: text := by
  simp [following, h]

lemma isChain_cons {p : Char → Bool} (c : Char) {front : List Char} (h : ∀ y ∈ front, p y = true) :
    (c :: front).IsChain fun _ y => p y = true := by
  induction front generalizing c with
  | nil => exact .singleton c
  | cons d front ih =>
    exact .cons_cons (h d (by simp)) (ih d fun y hy => h y (List.mem_cons_of_mem d hy))

lemma words_cons (c : Char) (text : List Char) :
    words (c :: text) = (c :: leading text) :: words (following text) := by
  have hsplit : c :: text = (c :: leading text) ++ following text := by
    rw [List.cons_append, leading, following, List.takeWhile_append_dropWhile]
  have hchain : (c :: leading text).IsChain fun _ y => (!isCommandStart y) = true :=
    isChain_cons c fun y hy => List.mem_takeWhile_imp (p := fun c => !isCommandStart c) hy
  rw [words, hsplit, List.splitBy_append, List.splitBy_of_isChain (by simp) hchain]
  · rfl
  · intro x _ y hy
    have hy' := List.head?_dropWhile_not (fun c => !isCommandStart c) text
    rw [following] at hy
    rw [Option.mem_def.mp hy] at hy'
    exact hy'

end TersePath
