import TersePath.Document
import TersePath.Proofs.Document.Places
import TersePath.Proofs.Run.Owner

namespace TersePath

open Xml

def Xml.Tag.optimized (config : Config) (tag : Tag) (ancestors : List Attributes) : Outcome :=
  optimize ((tag.attributes.get? "d").getD "").toList config (some ⟨tag.attributes, ancestors⟩)

/-- The attributes of an element after its path is shortened. All others keep theirs, and so do paths that
are rejected. -/
def Xml.Tag.shortened (config : Config) (tag : Tag) (ancestors : List Attributes) : Attributes :=
  match tag.isPath, tag.optimized config ancestors with
  | true, (run, none) =>
    ((run.element.map Element.attributes).getD tag.attributes).set "d" (String.ofList run.output)
  | _, _ => tag.attributes

/-- Whether each path of a tree is accepted when it is shortened alone, with the ancestors that it has in the
tree. -/
def Xml.Node.Accepted (config : Config) (root : Node) : Prop :=
  ∀ place ∈ root.paths, (place.tag.optimized config place.ancestors).2 = none

lemma shortened_of_not_isPath {config : Config} {tag : Tag} {ancestors : List Attributes}
    (h : tag.isPath = false) : tag.shortened config ancestors = tag.attributes := by
  rw [Tag.shortened, h]

lemma optimizeAttributes_eq (config : Config) (tag : Tag) (ancestors : List Attributes) :
    optimizeAttributes config tag ancestors =
      if tag.isPath then
        match (tag.optimized config ancestors).2 with
        | some fault => .error fault
        | none => .ok (some (tag.shortened config ancestors))
      else .ok none := by
  rw [optimizeAttributes, Tag.shortened, Tag.optimized, Tag.isPath]
  cases hd : tag.attributes.get? "d" with
  | none => simp
  | some d =>
    by_cases hbase : tag.base = "path"
    · rw [Option.getD_some]
      rcases hrun : optimize d.toList config (some ⟨tag.attributes, ancestors⟩) with ⟨run, _ | fault⟩
      · simp [hbase, hrun]
      · simp [hbase, hrun]
    · simp [hbase]

section Alone

variable (config : Config) (outer : List Attributes)

def faultAt (place : Place) : Option Fault := (place.tag.optimized config (place.ancestors ++ outer)).2

def shortenedAt (place : Place) : Attributes := place.tag.shortened config (place.ancestors ++ outer)

lemma faultAt_root (tag : Tag) :
    faultAt config outer ⟨[], [], tag⟩ = (tag.optimized config outer).2 := rfl

lemma faultAt_under (parent : Tag) (index : ℕ) (place : Place) :
    faultAt config outer (place.under parent index) =
      faultAt config (parent.attributes :: outer) place := by
  simp [faultAt, Place.under]

lemma shortenedAt_under (parent : Tag) (index : ℕ) (place : Place) :
    shortenedAt config outer (place.under parent index) =
      shortenedAt config (parent.attributes :: outer) place := by
  simp [shortenedAt, Place.under]

/-- What becomes of a tree when each path is shortened alone: the first fault in document order, or the tree
with the attributes of all its paths changed at once. -/
def optimizeApart (node : Node) : Except Fault (Node × ℕ) :=
  match node.paths.findSome? (faultAt config outer) with
  | some fault => .error fault
  | none => .ok (node.relabel (shortenedAt config outer), node.paths.length)

variable {config outer}

lemma optimizeNodes_eq {parent : Tag} {children : List Node}
    (h : ∀ child ∈ children, optimizeNode config (parent.attributes :: outer) child =
      optimizeApart config (parent.attributes :: outer) child) (n : ℕ) :
    let paths := (Node.placesAll parent n children).filter fun place => place.tag.isPath
    optimizeNodes config (parent.attributes :: outer) children =
      match paths.findSome? (faultAt config outer) with
      | some fault => .error fault
      | none => .ok (Node.relabelAll (shortenedAt config outer) parent n children, paths.length) := by
  induction children generalizing n with
  | nil => rfl
  | cons node rest ih =>
    obtain ⟨hnode, hrest⟩ := List.forall_mem_cons.mp h
    have hpaths : (node.places.map (Place.under parent n)).filter (fun place => place.tag.isPath) =
        node.paths.map (Place.under parent n) := List.filter_map
    have hfaults : (node.paths.map (Place.under parent n)).findSome? (faultAt config outer) =
        node.paths.findSome? (faultAt config (parent.attributes :: outer)) := by
      rw [List.findSome?_map]
      exact congrArg (node.paths.findSome? ·) (funext (faultAt_under config outer parent n))
    dsimp only
    rw [optimizeNodes, hnode, ih hrest (n + 1), Node.placesAll, List.filter_append, hpaths,
      List.findSome?_append, hfaults, optimizeApart]
    cases node.paths.findSome? (faultAt config (parent.attributes :: outer)) with
    | some fault => rfl
    | none =>
      dsimp only
      rw [Option.none_or]
      split
      · rfl
      · rw [Node.relabelAll, funext (shortenedAt_under config outer parent n), List.length_append,
          List.length_map]
        rfl

lemma relabelAll_of_paths_nil {parent : Tag} {children : List Node}
    (h : ∀ (i : ℕ) (child : Node), children[i]? = some child → child.paths = []) (n : ℕ) :
    Node.relabelAll (shortenedAt config outer) parent n children = children := by
  refine (Node.relabelAll_congr fun i child hchild place hplace => ?_).trans
    (Node.relabelAll_self parent n children)
  refine shortened_of_not_isPath (Bool.eq_false_iff.mpr fun htag => ?_)
  exact List.not_mem_nil (h i child hchild ▸ Node.mem_paths.mpr ⟨hplace, htag⟩)

/-- Nothing that is written on a path is ever read for another one. -/
theorem optimizeNode_eq {node : Node} (h : node.Unnested) (outer : List Attributes) :
    optimizeNode config outer node = optimizeApart config outer node := by
  induction node using Node.induction generalizing outer with
  | element tag children ih =>
    have hchildren : ∀ outer, ∀ child ∈ children,
        optimizeNode config outer child = optimizeApart config outer child := by
      intro outer child hchild
      obtain ⟨i, hi⟩ := List.mem_iff_getElem?.mp hchild
      exact ih child hchild (h.child hi) outer
    rw [optimizeNode, optimizeAttributes_eq, optimizeApart, Node.relabel]
    cases htag : tag.isPath with
    | false =>
      have hpaths : (Node.element tag children).paths =
          (Node.placesAll tag 0 children).filter fun place => place.tag.isPath :=
        List.filter_cons_of_neg (by simp [htag])
      have hroot : shortenedAt config outer ⟨[], [], tag⟩ = tag.attributes :=
        shortened_of_not_isPath htag
      rw [hpaths, hroot]
      change (optimizeNodes config (tag.attributes :: outer) children >>= _) = _
      rw [optimizeNodes_eq (hchildren (tag.attributes :: outer)) 0]
      dsimp only
      split
      · rfl
      · rfl
    | true =>
      -- nothing is left to be shortened in the children, whatever has become of their parent
      have hnone : ∀ (i : ℕ) (child : Node), children[i]? = some child → child.paths = [] :=
        fun i child => h.paths_child htag
      have hpaths : (Node.element tag children).paths = [⟨[], [], tag⟩] := by
        rw [Node.paths, Node.places, List.filter_cons_of_pos (by exact htag),
          Node.filter_placesAll_eq_nil hnone]
      rw [hpaths, relabelAll_of_paths_nil hnone, List.findSome?_cons, List.findSome?_nil, faultAt_root]
      cases (tag.optimized config outer).2 with
      | some fault => rfl
      | none =>
        let current : Tag := { tag with attributes := tag.shortened config outer }
        have hnodes := optimizeNodes_eq (hchildren (current.attributes :: outer)) 0
        rw [Node.filter_placesAll_eq_nil hnone, relabelAll_of_paths_nil hnone] at hnodes
        change (optimizeNodes config (current.attributes :: outer) children >>= _) = _
        rw [hnodes]
        rfl
  | text content => rfl
  | comment content => rfl
  | instruction target content => rfl

end Alone

section Order

/-- The tree with the path at one address shortened, its ancestors being as they are by now. -/
def shortenAt (config : Config) : (address : List ℕ) → (ancestors : List Attributes) → Node →
    Except Fault Node
  | [], ancestors, .element tag children =>
    (optimizeAttributes config tag ancestors).map fun changed =>
      .element { tag with attributes := changed.getD tag.attributes } children
  | index :: address, ancestors, .element tag children =>
    match children[index]? with
    | none => .ok (.element tag children)
    | some child =>
      (shortenAt config address (tag.attributes :: ancestors) child).map fun child =>
        .element tag (children.set index child)
  | _, _, node => .ok node

variable {config : Config} {outer : List Attributes}

lemma shortenAt_relabel (root : Node) {place : Place} (hplace : place ∈ root.paths)
    {g : Place → Attributes}
    (hg : ∀ q ∈ root.places, q.address <+: place.address → g q = q.tag.attributes) :
    shortenAt config place.address outer (root.relabel g) =
      match faultAt config outer place with
      | some fault => .error fault
      | none => .ok (root.relabel fun q =>
          if q.address = place.address then shortenedAt config outer q else g q) := by
  induction root using Node.induction generalizing place g outer with
  | element tag children ih =>
    obtain ⟨hplace, htag⟩ := Node.mem_paths.mp hplace
    have hroot : g ⟨[], [], tag⟩ = tag.attributes :=
      hg _ (Node.mem_places_element.mpr (Or.inl rfl)) List.nil_prefix
    rw [Node.relabel, Node.relabel, hroot]
    obtain rfl | ⟨i, child, hchild, inner, hinner, rfl⟩ := Node.mem_places_element.mp hplace
    · have hchildren : Node.relabelAll (fun q =>
          if q.address = [] then shortenedAt config outer q else g q) tag 0 children =
          Node.relabelAll g tag 0 children :=
        Node.relabelAll_congr fun i child hchild q hq => if_neg (List.cons_ne_nil _ _)
      rw [hchildren, shortenAt, optimizeAttributes_eq, if_pos htag, faultAt_root]
      cases (tag.optimized config outer).2 with
      | some fault => rfl
      | none => rfl
    · have hat : (Node.relabelAll g tag 0 children)[i]? =
          some (child.relabel fun q => g (q.under tag i)) := by
        rw [Node.getElem?_relabelAll, hchild, Nat.zero_add]
        rfl
      have hstep := @ih child (List.mem_of_getElem? hchild) (tag.attributes :: outer) inner
        (Node.mem_paths.mpr ⟨hinner, htag⟩) (fun q => g (q.under tag i)) fun q hq hbefore =>
          hg _ (Node.under_mem_places hchild hq) ((List.prefix_cons_inj i).mpr hbefore)
      rw [Place.address_under, shortenAt, hat]
      dsimp only
      rw [hstep, faultAt_under]
      cases faultAt config (tag.attributes :: outer) inner with
      | some fault => rfl
      | none =>
        have hset := Node.set_relabelAll tag 0 (g := g) (f := fun q =>
          if q.address = i :: inner.address then shortenedAt config outer q else g q) hchild
          fun j hj q => if_neg fun heq => hj (by simpa using (List.cons.inj heq).1)
        rw [← hset]
        simp [Except.map, shortenedAt_under]
  | text content => cases hplace
  | comment content => cases hplace
  | instruction target content => cases hplace

/-- The tree with the paths at some places shortened, each as if it were alone. -/
def partly (config : Config) (done : List Place) (root : Node) : Node :=
  root.relabel fun place =>
    if place.address ∈ done.map Place.address then shortenedAt config [] place else place.tag.attributes

lemma shortenAt_partly {root : Node} (h : root.Unnested) {done : List Place} {place : Place}
    (hplace : place ∈ root.paths) (hdone : ∀ q ∈ done, q ∈ root.paths)
    (hnew : place.address ∉ done.map Place.address) :
    shortenAt config place.address [] (partly config done root) =
      match faultAt config [] place with
      | some fault => .error fault
      | none => .ok (partly config (done ++ [place]) root) := by
  rw [partly, shortenAt_relabel root hplace fun q _ hbefore => if_neg fun hq => ?_]
  · have hone : (fun q : Place => if q.address = place.address then shortenedAt config [] q else
        if q.address ∈ done.map Place.address then shortenedAt config [] q else q.tag.attributes) =
        fun q => if q.address ∈ (done ++ [place]).map Place.address then shortenedAt config [] q
          else q.tag.attributes := by
      funext q
      by_cases hq : q.address = place.address
      · simp [hq]
      · simp [hq]
    rw [hone, partly]
  · obtain ⟨other, hother, haddress⟩ := List.mem_map.mp hq
    have heq := h other (hdone other hother) place hplace (haddress ▸ hbefore)
    exact hnew (heq ▸ List.mem_map_of_mem hother)

/-- The paths shortened in some order, each in the tree that the ones before it have left. -/
def shortenInTurn (config : Config) (order : List Place) (root : Node) : Except Fault Node :=
  order.foldlM (fun tree place => shortenAt config place.address [] tree) root

lemma shortenInTurn_partly {root : Node} (h : root.Unnested) {order done : List Place}
    (horder : ∀ q ∈ done ++ order, q ∈ root.paths) (hnodup : ((done ++ order).map Place.address).Nodup) :
    shortenInTurn config order (partly config done root) =
      match order.findSome? (faultAt config []) with
      | some fault => .error fault
      | none => .ok (partly config (done ++ order) root) := by
  induction order generalizing done with
  | nil =>
    rw [List.append_nil]
    rfl
  | cons place rest ih =>
    have hassoc : done ++ place :: rest = done ++ [place] ++ rest := by simp
    have hnew : place.address ∉ done.map Place.address := by
      rw [List.map_append, List.nodup_append'] at hnodup
      exact fun hmem => hnodup.2.2 hmem (List.mem_map_of_mem List.mem_cons_self)
    have hdone : ∀ q ∈ done, q ∈ root.paths := fun q hq => horder q (List.mem_append_left _ hq)
    have hrest := @ih (done ++ [place]) (hassoc ▸ horder) (hassoc ▸ hnodup)
    rw [shortenInTurn, List.foldlM_cons, shortenAt_partly h (horder place (by simp)) hdone hnew,
      List.findSome?_cons]
    cases faultAt config [] place with
    | some fault => rfl
    | none =>
      rw [hassoc]
      exact hrest

lemma partly_nil (root : Node) : partly config [] root = root := Node.relabel_self root

lemma partly_of_perm {root : Node} {order : List Place} (h : order.Perm root.paths) :
    partly config order root = root.relabel (shortenedAt config []) := by
  refine Node.relabel_congr root fun place hplace => ?_
  cases htag : place.tag.isPath with
  | false => rw [shortenedAt, shortened_of_not_isPath htag, ite_self]
  | true =>
    have hmem : place ∈ order := h.mem_iff.mpr (Node.mem_paths.mpr ⟨hplace, htag⟩)
    rw [if_pos (List.mem_map_of_mem hmem)]

theorem shortenInTurn_of_perm {root : Node} (h : root.Unnested) {order : List Place}
    (horder : order.Perm root.paths) :
    shortenInTurn config order root =
      match order.findSome? (faultAt config []) with
      | some fault => .error fault
      | none => .ok (root.relabel (shortenedAt config [])) := by
  have hnodup : (order.map Place.address).Nodup :=
    (horder.map Place.address).nodup_iff.mpr
      ((Node.nodup_addresses root).sublist (List.filter_sublist.map Place.address))
  have hturn := @shortenInTurn_partly config root h order [] (fun q => horder.mem_iff.mp) hnodup
  rwa [partly_nil, List.nil_append, partly_of_perm horder] at hturn

end Order

section Frame

variable {config : Config} {tag : Tag} {ancestors : List Attributes} {run : Run}

lemma shortened_of_run (htag : tag.isPath = true) (hrun : tag.optimized config ancestors = (run, none)) :
    ∃ owner, run.element = some owner ∧ owner.ancestors = ancestors ∧
      tag.shortened config ancestors = owner.attributes.set "d" (String.ofList run.output) ∧
      (tag.shortened config ancestors).others = tag.attributes.others := by
  have hlasting := lasting_optimize ((tag.attributes.get? "d").getD "").toList config
    (some ⟨tag.attributes, ancestors⟩)
  rw [← Tag.optimized, hrun] at hlasting
  obtain ⟨owner, howner, heq⟩ := Option.map_eq_some_iff.mp hlasting
  have hattributes := congrArg Element.attributes heq
  have hshortened : tag.shortened config ancestors =
      owner.attributes.set "d" (String.ofList run.output) := by
    rw [Tag.shortened, htag, hrun]
    dsimp only
    rw [howner]
    rfl
  refine ⟨owner, howner, congrArg Element.ancestors heq, hshortened, ?_⟩
  rw [hshortened, Attributes.others_set (by simp [writableNames])]
  exact hattributes

end Frame

lemma faultAt_nil (config : Config) (place : Place) :
    faultAt config [] place = (place.tag.optimized config place.ancestors).2 := by
  rw [faultAt, List.append_nil]

lemma findSome?_faultAt_eq_none {config : Config} {root : Node} {order : List Place}
    (h : order.Perm root.paths) : order.findSome? (faultAt config []) = none ↔ root.Accepted config := by
  rw [List.findSome?_eq_none_iff]
  simp only [faultAt_nil, h.mem_iff, Node.Accepted]

lemma optimizeNode_eq_ok {config : Config} {root tree : Node} {count : ℕ} (h : root.Unnested) :
    optimizeNode config [] root = .ok (tree, count) ↔ root.Accepted config ∧
      tree = root.relabel (shortenedAt config []) ∧ count = root.paths.length := by
  rw [optimizeNode_eq h, optimizeApart, ← findSome?_faultAt_eq_none (List.Perm.refl _)]
  cases root.paths.findSome? (faultAt config []) with
  | some fault => simp
  | none => simp [eq_comm]

lemma shortenInTurn_eq_ok {config : Config} {root tree : Node} {order : List Place} (h : root.Unnested)
    (horder : order.Perm root.paths) : shortenInTurn config order root = .ok tree ↔
      root.Accepted config ∧ tree = root.relabel (shortenedAt config []) := by
  rw [shortenInTurn_of_perm h horder, ← findSome?_faultAt_eq_none horder]
  cases order.findSome? (faultAt config []) with
  | some fault => simp
  | none => simp [eq_comm]

lemma optimizeDocumentIn_eq_ok {format : Format} {config : Config} {text output : List Char} {root : Node}
    {count : ℕ} (h : root.Unnested) (htext : format.read text = some root) :
    optimizeDocumentIn format config text = .ok (output, count) ↔ format.misnamed root = [] ∧
      root.Accepted config ∧ output = format.print (root.relabel (shortenedAt config [])) ∧
      count = root.paths.length := by
  rw [optimizeDocumentIn, htext]
  dsimp only
  cases format.misnamed root with
  | cons name rest => simp
  | nil =>
    rcases houtcome : optimizeNode config [] root with fault | ⟨tree, found⟩
    · have hrejected : ¬ root.Accepted config := fun haccepted => by
        cases houtcome.symm.trans ((optimizeNode_eq_ok h).mpr ⟨haccepted, rfl, rfl⟩)
      simp [Except.map, hrejected]
    · obtain ⟨haccepted, rfl, rfl⟩ := (optimizeNode_eq_ok h).mp houtcome
      simp [Except.map, haccepted, eq_comm]

/-- A tree in which no path stands inside another one. Its paths are shortened alone, each with the ancestors
that it has in the tree as it was read, whatever their order; if one of them is rejected, nothing is
returned. What changes is the attributes of paths: one of them ends with the data, the transform and the
stroke width of its own run, and keeps all others. How texts are read and printed does not matter. -/
theorem optimizeDocument_of_unnested (config : Config) {root : Node} (h : root.Unnested) :
    let result := root.relabel fun place => place.tag.shortened config place.ancestors
    (∀ tree count, optimizeNode config [] root = .ok (tree, count) ↔
      root.Accepted config ∧ tree = result ∧ count = root.paths.length) ∧
    (∀ (format : Format) text, format.read text = some root →
      (∀ output count, optimizeDocumentIn format config text = .ok (output, count) ↔
        format.misnamed root = [] ∧ root.Accepted config ∧ output = format.print result ∧
        count = root.paths.length) ∧
      (¬ root.Accepted config → ∃ fault, optimizeDocumentIn format config text = .error fault)) ∧
    (∀ order, order.Perm root.paths → ∀ tree,
      shortenInTurn config order root = .ok tree ↔ root.Accepted config ∧ tree = result) ∧
    ∀ place ∈ root.places,
      let after := place.tag.shortened config place.ancestors
      (place.tag.isPath = false → after = place.tag.attributes) ∧
      (place.tag.isPath = true → ∀ run, place.tag.optimized config place.ancestors = (run, none) →
        after.get? "d" = some (String.ofList run.output) ∧ after.others = place.tag.attributes.others ∧
        ∃ owner, run.element = some owner ∧ owner.ancestors = place.ancestors ∧
          after.get? "transform" = owner.attributes.get? "transform" ∧
          after.get? "stroke-width" = owner.attributes.get? "stroke-width") := by
  have hresult : (root.relabel fun place => place.tag.shortened config place.ancestors) =
      root.relabel (shortenedAt config []) :=
    Node.relabel_congr root fun place _ => by rw [shortenedAt, List.append_nil]
  dsimp only
  rw [hresult]
  refine ⟨fun tree count => optimizeNode_eq_ok h,
    fun format text htext => ⟨fun output count => optimizeDocumentIn_eq_ok h htext, fun hnot => ?_⟩,
    fun order horder tree => shortenInTurn_eq_ok h horder,
    fun place _ => ⟨shortened_of_not_isPath, fun htag run hrun => ?_⟩⟩
  · rcases houtcome : optimizeDocumentIn format config text with fault | ⟨output, count⟩
    · exact ⟨fault, rfl⟩
    · exact absurd ((optimizeDocumentIn_eq_ok h htext).mp houtcome).2.1 hnot
  · obtain ⟨owner, howner, hancestors, heq, hothers⟩ := shortened_of_run htag hrun
    refine ⟨?_, hothers, owner, howner, hancestors, ?_, ?_⟩
    · rw [heq, Attributes.get?_set_self]
    · rw [heq, Attributes.get?_set_of_ne (by decide)]
    · rw [heq, Attributes.get?_set_of_ne (by decide)]

namespace Example

def sketch : Node :=
  .element ⟨"svg", none, "svg", [], { given := [("stroke", "red"), ("stroke-width", "2")] }⟩
    [.element ⟨"title", none, "title", [], {}⟩ [.text "path".toList],
      .element ⟨"path", none, "path", [], { given := [("d", "M0 0L.5 .25"), ("id", "a")] }⟩ [],
      .comment "d".toList,
      .element ⟨"g", none, "g", [], { given := [("stroke-width", "3")] }⟩
        [.element ⟨"path", none, "path", [], { given := [("d", "M1 1L4 1")] }⟩ []]]

def sketchText : List Char :=
  ("<svg stroke=\"red\" stroke-width=\"2\"><title>path</title><path d=\"M0 0L.5 .25\" id=\"a\"/>" ++
    "<!--d--><g stroke-width=\"3\"><path d=\"M1 1L4 1\"/></g></svg>").toList

set_option maxRecDepth 4000 in
lemma readDocument_sketch : readDocument sketchText = some sketch := by cbv

end Example

theorem optimizeDocument_of_unnested_sketch :
    Example.sketch.Unnested ∧ Example.sketch.Accepted {} ∧
      readDocument Example.sketchText = some Example.sketch ∧
      optimizeDocument {} Example.sketchText = .ok
        (("<svg stroke=\"red\" stroke-width=\"2\"><title>path</title><path d=\"M0 0l50 25\" id=\"a\" " ++
          "transform=\"scale(.01)\" stroke-width=\"200\"/><!--d--><g stroke-width=\"3\">" ++
          "<path d=\"M1 1h3\"/></g></svg>").toList, 2) := by
  have hunnested : Example.sketch.Unnested := by
    unfold Node.Unnested
    decide
  have haccepted : Example.sketch.Accepted {} := by
    simp only [Node.Accepted, Tag.optimized, optimize_eq]
    decide +kernel
  have hread : Format.standard.read Example.sketchText = some Example.sketch := Example.readDocument_sketch
  refine ⟨hunnested, haccepted, hread, (((optimizeDocument_of_unnested {} hunnested).2.1
    .standard _ hread).1 _ 2).mpr ⟨by decide +kernel, haccepted, ?_, rfl⟩⟩
  simp only [Tag.shortened, Tag.optimized, optimize_eq]
  decide +kernel

end TersePath
