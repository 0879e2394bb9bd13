import TersePath.Xml.Node
import Mathlib.Data.List.Nodup
import Mathlib.Data.List.Infix

namespace TersePath.Xml

/-- An element of a tree and the way to it: which child to take at each step, and the attributes of the
elements on the way, nearest first. -/
structure Place where
  address : List ℕ
  ancestors : List Attributes
  tag : Tag

def Place.under (parent : Tag) (index : ℕ) (place : Place) : Place where
  address := index :: place.address
  ancestors := place.ancestors ++ [parent.attributes]
  tag := place.tag

@[simp] lemma Place.address_under (parent : Tag) (index : ℕ) (place : Place) :
    (place.under parent index).address = index :: place.address := rfl

def Tag.isPath (tag : Tag) : Bool := tag.base = "path" && (tag.attributes.get? "d").isSome

namespace Node

mutual

def places : Node → List Place
  | .element tag children => ⟨[], [], tag⟩ :: placesAll tag 0 children
  | _ => []

def placesAll (parent : Tag) (index : ℕ) : List Node → List Place
  | [] => []
  | node :: rest => node.places.map (Place.under parent index) ++ placesAll parent (index + 1) rest

end

def paths (root : Node) : List Place := root.places.filter fun place => place.tag.isPath

/-- No path stands inside another one. -/
def Unnested (root : Node) : Prop :=
  ∀ outer ∈ root.paths, ∀ inner ∈ root.paths, outer.address <+: inner.address →
    outer.address = inner.address

mutual

def relabel (f : Place → Attributes) : Node → Node
  | .element tag children =>
    .element { tag with attributes := f ⟨[], [], tag⟩ } (relabelAll f tag 0 children)
  | node => node

def relabelAll (f : Place → Attributes) (parent : Tag) (index : ℕ) : List Node → List Node
  | [] => []
  | node :: rest =>
    node.relabel (fun place => f (place.under parent index)) :: relabelAll f parent (index + 1) rest

end

@[elab_as_elim]
theorem induction {motive : Node → Prop}
    (element : ∀ tag children, (∀ child ∈ children, motive child) → motive (.element tag children))
    (text : ∀ content, motive (.text content)) (comment : ∀ content, motive (.comment content))
    (instruction : ∀ target content, motive (.instruction target content)) (node : Node) :
    motive node :=
  match node with
  | .element tag children =>
    element tag children fun child _ => induction element text comment instruction child
  | .text content => text content
  | .comment content => comment content
  | .instruction target content => instruction target content

section Places

variable {tag parent : Tag} {children : List Node} {n : ℕ} {place : Place}

lemma mem_placesAll : place ∈ placesAll parent n children ↔
    ∃ (i : ℕ) (child : Node), children[i]? = some child ∧
      ∃ inner ∈ child.places, inner.under parent (n + i) = place := by
  induction children generalizing n with
  | nil => simp [placesAll]
  | cons node rest ih =>
    rw [placesAll, List.mem_append, List.mem_map, ih]
    constructor
    · rintro (h | ⟨i, child, hchild, h⟩)
      · exact ⟨0, node, rfl, h⟩
      · exact ⟨i + 1, child, hchild, by rwa [show n + (i + 1) = n + 1 + i by omega]⟩
    · rintro ⟨_ | i, child, hchild, h⟩
      · obtain rfl := Option.some.inj hchild
        exact Or.inl h
      · exact Or.inr ⟨i, child, hchild, by rwa [show n + 1 + i = n + (i + 1) by omega]⟩

lemma mem_places_element : place ∈ (element tag children).places ↔ place = ⟨[], [], tag⟩ ∨
    ∃ (i : ℕ) (child : Node), children[i]? = some child ∧
      ∃ inner ∈ child.places, inner.under tag i = place := by
  rw [places, List.mem_cons, mem_placesAll]
  simp only [Nat.zero_add]

lemma under_mem_places {i : ℕ} {child : Node} (hchild : children[i]? = some child)
    (h : place ∈ child.places) : place.under tag i ∈ (element tag children).places :=
  mem_places_element.mpr (Or.inr ⟨i, child, hchild, place, h, rfl⟩)

lemma mem_paths {root : Node} : place ∈ root.paths ↔ place ∈ root.places ∧ place.tag.isPath = true :=
  List.mem_filter

lemma under_mem_paths {i : ℕ} {child : Node} (hchild : children[i]? = some child)
    (h : place ∈ child.paths) : place.under tag i ∈ (element tag children).paths :=
  mem_paths.mpr ⟨under_mem_places hchild (mem_paths.mp h).1, (mem_paths.mp h).2⟩

lemma filter_placesAll_eq_nil
    (h : ∀ (i : ℕ) (child : Node), children[i]? = some child → child.paths = []) (parent : Tag) (n : ℕ) :
    (placesAll parent n children).filter (fun place => place.tag.isPath) = [] := by
  refine List.eq_nil_iff_forall_not_mem.mpr fun place hplace => ?_
  obtain ⟨hplace, htag⟩ := List.mem_filter.mp hplace
  obtain ⟨i, child, hchild, inner, hinner, rfl⟩ := mem_placesAll.mp hplace
  exact List.not_mem_nil (h i child hchild ▸ mem_paths.mpr ⟨hinner, htag⟩)

lemma nodup_addresses (root : Node) : (root.places.map Place.address).Nodup := by
  induction root using Node.induction with
  | element tag children ih =>
    rw [places, List.map_cons, List.nodup_cons]
    constructor
    · intro h
      obtain ⟨place, hplace, haddress⟩ := List.mem_map.mp h
      obtain ⟨i, child, -, inner, -, rfl⟩ := mem_placesAll.mp hplace
      cases haddress
    · generalize 0 = n
      induction children generalizing n with
      | nil => exact List.nodup_nil
      | cons node rest ihrest =>
        obtain ⟨hnode, hrest⟩ := List.forall_mem_cons.mp ih
        rw [placesAll, List.map_append, List.nodup_append']
        refine ⟨?_, ihrest hrest (n + 1), ?_⟩
        · have heq : (node.places.map (Place.under tag n)).map Place.address =
              (node.places.map Place.address).map (n :: ·) := by
            rw [List.map_map, List.map_map]
            rfl
          rw [heq]
          exact hnode.map (List.cons_injective)
        · -- the first steps tell the children apart
          intro address hfirst hlater
          simp only [List.mem_map] at hfirst hlater
          obtain ⟨_, ⟨place, -, rfl⟩, rfl⟩ := hfirst
          obtain ⟨other, hother, haddress⟩ := hlater
          obtain ⟨i, child, -, inner, -, rfl⟩ := mem_placesAll.mp hother
          have hstep := (List.cons.inj haddress).1
          omega
  | text content => exact List.nodup_nil
  | comment content => exact List.nodup_nil
  | instruction target content => exact List.nodup_nil

end Places

namespace Unnested

variable {tag : Tag} {children : List Node} {i : ℕ} {node : Node}

lemma child (h : (element tag children).Unnested) (hchild : children[i]? = some node) :
    node.Unnested := by
  intro outer houter inner hinner hbefore
  have heq := h _ (under_mem_paths hchild houter) _ (under_mem_paths hchild hinner)
    ((List.prefix_cons_inj i).mpr hbefore)
  exact (List.cons.inj heq).2

lemma paths_child (h : (element tag children).Unnested) (htag : tag.isPath = true)
    (hchild : children[i]? = some node) : node.paths = [] := by
  refine List.eq_nil_iff_forall_not_mem.mpr fun inner hinner => ?_
  have hroot : (⟨[], [], tag⟩ : Place) ∈ (element tag children).paths :=
    mem_paths.mpr ⟨mem_places_element.mpr (Or.inl rfl), htag⟩
  cases h _ hroot _ (under_mem_paths hchild hinner) (List.nil_prefix)

end Unnested

section Relabelling

variable {f g : Place → Attributes} {parent : Tag} {n : ℕ}

lemma getElem?_relabelAll (children : List Node) (i : ℕ) : (relabelAll f parent n children)[i]? =
    children[i]?.map fun child => child.relabel fun place => f (place.under parent (n + i)) := by
  induction children generalizing n i with
  | nil => rfl
  | cons node rest ih =>
    rw [relabelAll]
    cases i with
    | zero => rfl
    | succ i =>
      rw [List.getElem?_cons_succ, List.getElem?_cons_succ, ih,
        show n + 1 + i = n + (i + 1) by omega]

lemma relabel_congr (root : Node) (h : ∀ place ∈ root.places, f place = g place) :
    root.relabel f = root.relabel g := by
  induction root using Node.induction generalizing f g with
  | element tag children ih =>
    rw [relabel, relabel, h _ (mem_places_element.mpr (Or.inl rfl))]
    congr 1
    refine List.ext_getElem? fun i => ?_
    rw [getElem?_relabelAll, getElem?_relabelAll]
    cases hchild : children[i]? with
    | none => rfl
    | some child =>
      refine congrArg some (ih child (List.mem_of_getElem? hchild) fun place hplace => ?_)
      rw [Nat.zero_add]
      exact h _ (under_mem_places hchild hplace)
  | text content => rfl
  | comment content => rfl
  | instruction target content => rfl

lemma relabelAll_congr {children : List Node} (h : ∀ (i : ℕ) (child : Node), children[i]? = some child →
    ∀ place ∈ child.places, f (place.under parent (n + i)) = g (place.under parent (n + i))) :
    relabelAll f parent n children = relabelAll g parent n children := by
  refine List.ext_getElem? fun i => ?_
  rw [getElem?_relabelAll, getElem?_relabelAll]
  cases hchild : children[i]? with
  | none => rfl
  | some child => exact congrArg some (relabel_congr child (h i child hchild))

lemma set_relabelAll (parent : Tag) (n : ℕ) {children : List Node} {i : ℕ} {child : Node}
    (hchild : children[i]? = some child)
    (h : ∀ j ≠ i, ∀ place : Place, f (place.under parent (n + j)) = g (place.under parent (n + j))) :
    (relabelAll g parent n children).set i
      (child.relabel fun place => f (place.under parent (n + i))) = relabelAll f parent n children := by
  refine List.ext_getElem? fun j => ?_
  rw [getElem?_relabelAll]
  by_cases hj : i = j
  · subst hj
    rw [List.getElem?_set_self', getElem?_relabelAll, hchild]
    rfl
  · rw [List.getElem?_set_ne hj, getElem?_relabelAll, funext (h j (Ne.symm hj))]

mutual

lemma relabel_self : ∀ root : Node, root.relabel (fun place => place.tag.attributes) = root
  | .element tag children => by rw [relabel, relabelAll_self tag 0 children]
  | .text _ => rfl
  | .comment _ => rfl
  | .instruction _ _ => rfl

lemma relabelAll_self (parent : Tag) (n : ℕ) : ∀ children : List Node,
    relabelAll (fun place => place.tag.attributes) parent n children = children
  | [] => rfl
  | node :: rest => by
    rw [relabelAll, relabelAll_self parent (n + 1) rest]
    exact congrArg (· :: rest) (relabel_self node)

end

end Relabelling

end Node

end TersePath.Xml
