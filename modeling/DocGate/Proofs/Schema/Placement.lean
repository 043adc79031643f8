import DocGate.Proofs.Schema.WellFormed

/-!
# Where the nodes of a schema stand

A schema lists its cast targets apart from the nodes that they are about.  Here the
two are brought together.

* Places.  `SchemaNode.places` lists the nodes in a node with their paths, from the
  outside in and in the order of the properties, and `SchemaNode.node?` walks along a
  path.
* Casts.  `SchemaNode.castKind?` reads off the form of a node whether its values need a
  cast of their own, and `SchemaNode.Place.target?` is the cast target that this makes
  of a place.
* Located nodes.  `SchemaNode.Located` says of a compiled node that its targets and its
  annotations are those of its places and that its paths lead to their places, no two to
  the same.  `SchemaNode.located_of_compile` is the induction over definitions, and
  `SchemaTree.castTargets_locate` is the same for whole schemas.
-/

namespace DocGate

namespace SchemaNode

/-! ## Places -/

/-- A node with the path that leads to it. -/
structure Place where
  path : FieldPath
  node : SchemaNode

mutual

/-- The places in a node that is reached by `path`, the node itself first. -/
def places (path : FieldPath) : SchemaNode → List Place
  | .array items least greatest notes =>
    ⟨path, .array items least greatest notes⟩ :: places (path ++ [.items]) items
  | .object properties required additional notes =>
    ⟨path, .object properties required additional notes⟩ :: propertyPlaces path properties
  | node => [⟨path, node⟩]

/-- The places in the properties of an object that is reached by `path`. -/
def propertyPlaces (path : FieldPath) : List (String × SchemaNode) → List Place
  | [] => []
  | (name, node) :: rest => places (path ++ [.field name]) node ++ propertyPlaces path rest

end

/-- The node to which one step leads. -/
def step? : SchemaNode → PathStep → Option SchemaNode
  | .object properties _ _ _, .field name => Assoc.get? properties name
  | .array items _ _ _, .items => some items
  | _, _ => none

/-- The node to which a path leads, step by step. -/
def node? : SchemaNode → FieldPath → Option SchemaNode
  | node, [] => some node
  | node, step :: rest => (node.step? step).bind fun inner => inner.node? rest

/-! ## Casts -/

/-- The cast that the values of a node need, by its form: an identifier is a text with
the pattern of identifiers, a point an array of two or three elements. -/
def castKind? : SchemaNode → Option CastKind
  | .text _ pattern _ => if pattern = some objectIdPattern then some .objectId else none
  | .array _ least greatest _ =>
    if least = some 2 ∧ greatest = some 3 then some .geoPoint else none
  | _ => none

/-- The cast target that a place is, if the values there need a cast of their own. -/
def Place.target? (place : Place) : Option CastTarget :=
  place.node.castKind?.map fun kind => ⟨kind, place.path⟩

/-- The cast targets of some places. -/
def targetsOf (places : List Place) : List CastTarget :=
  places.filterMap Place.target?

/-- Every place says its cast as its form asks for. -/
def Annotated (places : List Place) : Prop :=
  ∀ place ∈ places, place.node.notes.cast = place.target?

/-- The paths of the targets are some of the paths, in order. -/
theorem paths_targetsOf_sublist (places : List Place) :
    ((targetsOf places).map CastTarget.path).Sublist (places.map Place.path) := by
  induction places with
  | nil => exact List.Sublist.refl _
  | cons place rest ih =>
    unfold targetsOf at ih ⊢
    rw [List.filterMap_cons, Place.target?]
    cases place.node.castKind? with
    | none => exact ih.cons _
    | some kind => exact ih.cons_cons _

/-! ## Located nodes -/

/-- A node that is reached by the empty path only. -/
def only (node : SchemaNode) : FieldPath → Option SchemaNode
  | [] => some node
  | _ :: _ => none

/-- The nodes that are reached by a step and the paths from there. -/
def afterStep (step : PathStep) (reached : FieldPath → Option SchemaNode) :
    FieldPath → Option SchemaNode
  | [] => none
  | first :: rest => if first = step then reached rest else none

/-- The node of a property to which a path leads. -/
def propertyNode? (properties : Assoc SchemaNode) : FieldPath → Option SchemaNode
  | .field name :: rest => (properties.get? name).bind fun node => node.node? rest
  | _ => none

/-- Places below `path` with the targets in them.  Every place says its cast as its form
asks for, it is where the steps after `path` lead, and no two have the same path. -/
structure Located (path : FieldPath) (reached : FieldPath → Option SchemaNode)
    (places : List Place) (targets : List CastTarget) : Prop where
  listed : targets = targetsOf places
  annotated : Annotated places
  found : ∀ place, place ∈ places ↔
    ∃ rest, place.path = path ++ rest ∧ reached rest = some place.node
  nodup : (places.map Place.path).Nodup

namespace Located

variable {path : FieldPath} {reached first second : FieldPath → Option SchemaNode}
  {places more : List Place} {targets others : List CastTarget}

theorem congr (h : Located path first places targets) (heq : ∀ rest, first rest = second rest) :
    Located path second places targets :=
  (funext heq : first = second) ▸ h

/-- No places. -/
theorem nil (hreached : ∀ rest, reached rest = none) : Located path reached [] [] := by
  refine ⟨rfl, List.forall_mem_nil _, fun place => ?_, List.nodup_nil⟩
  exact iff_of_false List.not_mem_nil fun ⟨rest, _, hrest⟩ => by
    rw [hreached] at hrest
    cases hrest

/-- One node, where the path leads. -/
theorem single (path : FieldPath) (node : SchemaNode)
    (hcast : node.notes.cast = Place.target? ⟨path, node⟩) :
    Located path (only node) [⟨path, node⟩] (Place.target? ⟨path, node⟩).toList := by
  refine ⟨?_, List.forall_mem_singleton.2 hcast, fun place => ?_,
    List.pairwise_singleton _ _⟩
  · unfold targetsOf
    rw [List.filterMap_cons]
    cases Place.target? ⟨path, node⟩ <;> rfl
  · rw [List.mem_singleton]
    constructor
    · intro h
      exact ⟨[], by rw [h, List.append_nil], by rw [h]; rfl⟩
    · intro ⟨rest, hpath, hrest⟩
      cases rest with
      | cons => cases hrest
      | nil =>
        obtain ⟨own, found⟩ := place
        rw [show found = node from (Option.some.inj hrest).symm,
          show own = path from hpath.trans path.append_nil]

/-- What is located after one step more is located below this step. -/
theorem afterStep {step : PathStep} (h : Located (path ++ [step]) reached places targets) :
    Located path (SchemaNode.afterStep step reached) places targets := by
  refine ⟨h.listed, h.annotated, fun place => (h.found place).trans ?_, h.nodup⟩
  constructor
  · intro ⟨rest, hpath, hrest⟩
    refine ⟨step :: rest, by rw [hpath, List.append_assoc, List.singleton_append], ?_⟩
    rw [SchemaNode.afterStep, if_pos rfl, hrest]
  · intro ⟨rest, hpath, hrest⟩
    cases rest with
    | nil => cases hrest
    | cons own rest =>
      rw [SchemaNode.afterStep] at hrest
      split at hrest
      · rename_i heq
        exact ⟨rest, by rw [hpath, heq, List.append_assoc, List.singleton_append], hrest⟩
      · cases hrest

/-- Places that are reached by different steps. -/
theorem append (h : Located path first places targets) (hmore : Located path second more others)
    (hapart : ∀ rest, first rest = none ∨ second rest = none) :
    Located path (fun rest => (first rest).or (second rest)) (places ++ more)
      (targets ++ others) := by
  refine ⟨?_, ?_, fun place => ?_, ?_⟩
  · rw [h.listed, hmore.listed, targetsOf, targetsOf, targetsOf, List.filterMap_append]
  · exact List.forall_mem_append.2 ⟨h.annotated, hmore.annotated⟩
  · rw [List.mem_append, h.found, hmore.found, ← exists_or]
    refine exists_congr fun rest => ?_
    rcases hapart rest with hnone | hnone <;> simp [hnone]
  · rw [List.map_append, List.nodup_append]
    refine ⟨h.nodup, hmore.nodup, fun own hown other hother heq => ?_⟩
    obtain ⟨place, hplace, rfl⟩ := List.mem_map.1 hown
    obtain ⟨place', hplace', rfl⟩ := List.mem_map.1 hother
    obtain ⟨rest, hpath, hrest⟩ := (h.found place).1 hplace
    obtain ⟨rest', hpath', hrest'⟩ := (hmore.found place').1 hplace'
    -- A path that leads to both would be reached in both ways.
    obtain rfl : rest = rest' := List.append_cancel_left (hpath.symm.trans (heq.trans hpath'))
    rcases hapart rest with hnone | hnone
    · cases hnone.symm.trans hrest
    · cases hnone.symm.trans hrest'

end Located

end SchemaNode

namespace CompiledField

open SchemaNode

variable {parent : FieldPath} {parts : List (CompiledField parent)}

/-- The properties of an object are located if the nodes of its fields are. -/
theorem located_collect (hlocated : ∀ part ∈ parts,
      Located (parent ++ [.field part.field.name]) part.node.node?
        (part.node.places (parent ++ [.field part.field.name])) part.targets)
    (hnodup : (names parts).Nodup) :
    Located parent (propertyNode? (collect parts).properties)
      (propertyPlaces parent (collect parts).properties) (collect parts).castTargets := by
  induction parts with
  | nil =>
    refine Located.nil fun rest => ?_
    cases rest with
    | nil => rfl
    | cons step rest => cases step <;> rfl
  | cons part rest ih =>
    obtain ⟨hfirst, hrest⟩ := List.forall_mem_cons.1 hlocated
    obtain ⟨hfresh, hnodup⟩ := List.nodup_cons.1 hnodup
    have hkey : Assoc.get? (collect rest).properties part.field.name = none := by
      rw [Assoc.get?_eq_none_iff, keys_collect, ← names_eq_map_field]
      exact hfresh
    refine (hfirst.afterStep.append (ih hrest hnodup) fun path => ?_).congr fun path => ?_
    · cases path with
      | nil => exact .inl rfl
      | cons step path =>
        by_cases hstep : step = .field part.field.name
        · exact .inr (by rw [hstep, propertyNode?, hkey, Option.bind_none])
        · exact .inl (if_neg hstep)
    · cases path with
      | nil => rfl
      | cons step path =>
        cases step with
        | items => rfl
        | field name =>
          show ((if PathStep.field name = .field part.field.name then part.node.node? path
            else none).or _) = (Assoc.get? ((part.field.name, part.node) :: _) name).bind _
          rw [Assoc.get?]
          by_cases hname : part.field.name = name
          · rw [if_pos hname, if_pos (congrArg PathStep.field hname.symm), propertyNode?, ← hname,
              hkey, Option.bind_none, Option.or_none, Option.bind_some]
          · have hstep : PathStep.field name ≠ .field part.field.name :=
              fun h => hname (PathStep.field.inj h).symm
            rw [if_neg hname, if_neg hstep, Option.none_or]
            rfl

end CompiledField

namespace SchemaNode

variable {path : FieldPath} {targets : List CastTarget}

/-- A node without nodes in it is located. -/
theorem located_leaf {node : SchemaNode} (hplaces : node.places path = [⟨path, node⟩])
    (hstep : ∀ step, node.step? step = none)
    (hcast : node.notes.cast = Place.target? ⟨path, node⟩) :
    Located path node.node? (node.places path) (Place.target? ⟨path, node⟩).toList := by
  rw [hplaces]
  refine (Located.single path node hcast).congr fun rest => ?_
  cases rest with
  | nil => rfl
  | cons step rest => rw [only, node?, hstep, Option.bind_none]

/-- An array is located if its elements are. -/
theorem located_array {items : SchemaNode} {least greatest : Option Nat} {notes : NodeNotes}
    (hitems : Located (path ++ [.items]) items.node? (items.places (path ++ [.items])) targets)
    (hcast : notes.cast = Place.target? ⟨path, .array items least greatest notes⟩) :
    Located path (node? (.array items least greatest notes))
      (places path (.array items least greatest notes))
      ((Place.target? ⟨path, .array items least greatest notes⟩).toList ++ targets) := by
  have hself := Located.single path (.array items least greatest notes) hcast
  refine (hself.append hitems.afterStep fun rest => ?_).congr fun rest => ?_
  · cases rest with
    | nil => exact .inr rfl
    | cons => exact .inl rfl
  · cases rest with
    | nil => rfl
    | cons step rest => cases step <;> rfl

/-- An object is located if its properties are. -/
theorem located_object {properties : Assoc SchemaNode} {required : List String} {additional : Bool}
    {notes : NodeNotes}
    (hproperties : Located path (propertyNode? properties) (propertyPlaces path properties) targets)
    (hcast : notes.cast = none) :
    Located path (node? (.object properties required additional notes))
      (places path (.object properties required additional notes)) targets := by
  have hself := Located.single path (.object properties required additional notes) hcast
  refine (hself.append hproperties fun rest => ?_).congr fun rest => ?_
  · cases rest with
    | nil => exact .inr rfl
    | cons => exact .inl rfl
  · cases rest with
    | nil => rfl
    | cons step rest => cases step <;> rfl

/-- A compiled field is located with the targets that are listed for it. -/
theorem located_of_compile (field : FieldDefinition) :
    ∀ {path : FieldPath} {node : SchemaNode} {targets : List CastTarget},
      field.compile path = .ok (node, targets) →
        Located path node.node? (node.places path) targets := by
  induction field using FieldDefinition.induction with
  | step field ihcontent ihitems =>
    intro path node targets h
    cases FieldDefinition.compiled_of_compile h with
    | string => exact located_leaf rfl (fun _ => rfl) rfl
    | number => exact located_leaf rfl (fun _ => rfl) rfl
    | boolean => exact located_leaf rfl (fun _ => rfl) rfl
    | date => exact located_leaf rfl (fun _ => rfl) rfl
    | objectId => exact located_leaf rfl (fun _ => rfl) rfl
    | geoPoint =>
      exact located_array (located_leaf rfl (fun _ => rfl) rfl) rfl
    | @rawObject hkind parts hcontent hnodup =>
      refine located_object (CompiledField.located_collect (fun part hpart => ?_) hnodup) rfl
      exact ihcontent part.field (hcontent ▸ List.mem_map_of_mem hpart) part.compile_eq
    | array hkind hitem hinner => exact located_array (ihitems _ hitem hinner) rfl

end SchemaNode

/-! ## Whole schemas -/

namespace SchemaTree

open SchemaNode

/-- The places in a schema, from the outside in and in the order of the properties. -/
def places (tree : SchemaTree) : List Place :=
  propertyPlaces [] tree.root.properties

/-- The node to which a path leads from the root. -/
def node? (tree : SchemaTree) (path : FieldPath) : Option SchemaNode :=
  propertyNode? tree.root.properties path

/-- The places of a schema are located, with its cast targets. -/
theorem located_of_ofFields {fields : List FieldDefinition} {tree : SchemaTree}
    (h : ofFields fields = .ok tree) : Located [] tree.node? tree.places tree.castTargets := by
  obtain ⟨parts, _, hnodup, rfl⟩ := ofFields_eq_ok h
  exact CompiledField.located_collect
    (fun part _ => located_of_compile part.field part.compile_eq) hnodup

/-- The cast targets of a schema are those of its places, in order.  The properties of
the schema stand in the order of the fields, the node at every place is annotated with
the target that is listed for it, the path of the place leads to this node and to no
other place, and no two targets have the same path. -/
theorem castTargets_locate {fields : List FieldDefinition} {tree : SchemaTree}
    (h : ofFields fields = .ok tree) :
    tree.Mirrors fields ∧
      tree.castTargets = targetsOf tree.places ∧
      (∀ place ∈ tree.places, place.node.notes.cast = place.target?) ∧
      (∀ place, place ∈ tree.places ↔ tree.node? place.path = some place.node) ∧
      (tree.castTargets.map CastTarget.path).Nodup := by
  have hlocated := located_of_ofFields h
  refine ⟨mirrors_of_ofFields h, hlocated.listed, hlocated.annotated, fun place => ?_, ?_⟩
  · rw [hlocated.found]
    constructor
    · intro ⟨rest, hpath, hrest⟩
      rwa [hpath]
    · intro hnode
      exact ⟨place.path, rfl, hnode⟩
  · rw [hlocated.listed]
    exact hlocated.nodup.sublist (paths_targetsOf_sublist tree.places)

/-- The places of the shops, the owners of their shelves and the tags of the shelves. -/
theorem castTargets_locate_shops :
    ∃ tree, ofFields shops = .ok tree ∧
      tree.castTargets = [⟨.geoPoint, [.field "address", .field "place"]⟩,
        ⟨.objectId, [.field "shelves", .items, .field "owner"]⟩,
        ⟨.objectId, [.field "shelves", .items, .field "tags", .items]⟩] ∧
      tree.castTargets = targetsOf tree.places ∧
      (tree.castTargets.map CastTarget.path).Nodup := by
  obtain ⟨_, hlisted, _, _, hnodup⟩ := castTargets_locate (rfl : ofFields shops = .ok _)
  exact ⟨_, rfl, rfl, hlisted, hnodup⟩

end SchemaTree

end DocGate
