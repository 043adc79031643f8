import Mathlib.Data.List.Forall2
import DocGate.Cast.Caster
import DocGate.Cast.Direct
import DocGate.Proofs.Schema.Fields

/-!
# The caster of a compiled schema

A caster is made in two passes, first from the nodes of a schema and then by
putting the casts of identifiers and points at the places of the cast targets.
The result casts as the field definitions say.

* Grafting.  The targets in an object or an array are those of its parts, each
  below the step that leads to the part.  `graftEach?_items` and
  `graftEach?_field` say that grafting them into the whole is grafting the parts'
  own into the parts.
* Fields.  `Realized` says that grafting the targets of a compiled field into the
  plan of its node gives a plan that casts as the definition does, and
  `realized_of_compile` is the induction over definitions.
* Documents.  `Caster.exists_ofSchema` is the same for whole schemas, where the
  bookkeeping fields are left out of the plan.
-/

namespace DocGate

/-- The target below a path. -/
def CastTarget.under (path : FieldPath) (target : CastTarget) : CastTarget :=
  ⟨target.kind, path ++ target.path⟩

theorem CastTarget.under_nil (target : CastTarget) : target.under [] = target := rfl

theorem CastTarget.under_under (path inner : FieldPath) (target : CastTarget) :
    (target.under inner).under path = target.under (path ++ inner) := by
  rw [under, under, under, List.append_assoc]

namespace CastPlan

/-! ## Grafting -/

/-- The plan with the casts of some targets at their places. -/
def graftEach? (plan : CastPlan) (targets : List CastTarget) : Option CastPlan :=
  targets.foldlM (fun plan target => plan.graft? target.path target.kind) plan

theorem graftEach?_cons (plan : CastPlan) (target : CastTarget) (rest : List CastTarget) :
    plan.graftEach? (target :: rest) =
      (plan.graft? target.path target.kind).bind fun grafted => grafted.graftEach? rest :=
  List.foldlM_cons ..

theorem graftEach?_append (plan : CastPlan) (first second : List CastTarget) :
    plan.graftEach? (first ++ second) =
      (plan.graftEach? first).bind fun grafted => grafted.graftEach? second :=
  List.foldlM_append ..

/-- Targets in the elements of an array are grafted into the plan for them. -/
theorem graftEach?_items (plan : CastPlan) (targets : List CastTarget) :
    graftEach? (.array plan) (targets.map (CastTarget.under [.items])) =
      (plan.graftEach? targets).map .array := by
  induction targets generalizing plan with
  | nil => rfl
  | cons target rest ih =>
    rw [List.map_cons, graftEach?_cons, graftEach?_cons, CastTarget.under, List.singleton_append,
      graft?]
    cases plan.graft? target.path target.kind with
    | none => rfl
    | some grafted => exact ih grafted

/-- Targets in a property of an object are grafted into the plan for it. -/
theorem graftEach?_field {before : Assoc CastPlan} {name : String} (hname : name ∉ before.keys)
    (plan : CastPlan) (after : Assoc CastPlan) (targets : List CastTarget) :
    graftEach? (.object (before ++ (name, plan) :: after))
        (targets.map (CastTarget.under [.field name])) =
      (plan.graftEach? targets).map fun grafted => .object (before ++ (name, grafted) :: after) := by
  induction targets generalizing plan with
  | nil => rfl
  | cons target rest ih =>
    rw [List.map_cons, graftEach?_cons, graftEach?_cons, CastTarget.under, List.singleton_append,
      graft?, Assoc.get?_append_cons hname]
    cases hgraft : plan.graft? target.path target.kind with
    | none => simp [hgraft]
    | some grafted =>
      simp only [hgraft, Assoc.set_append_cons hname]
      exact ih grafted

end CastPlan

/-! ## Fields -/

/-- A plan casts as a definition does. -/
def CastPlan.CastsAs (plan : CastPlan) (field : FieldDefinition) : Prop :=
  ∀ value, plan.apply value = field.castValue value

/-- The targets of a field at `path` are below this path, and grafted into the
plan of its node they give a plan that casts as the definition does. -/
def FieldDefinition.Realized (path : FieldPath) (field : FieldDefinition) (node : SchemaNode)
    (targets : List CastTarget) : Prop :=
  ∃ (inner : List CastTarget) (plan : CastPlan), targets = inner.map (CastTarget.under path) ∧
    (CastPlan.ofNode node).graftEach? inner = some plan ∧ plan.CastsAs field

namespace CompiledField

variable {parent : FieldPath} {parts : List (CompiledField parent)}

/-- A property with a plan that casts as its field does. -/
def PlannedAs (part : CompiledField parent) (property : String × CastPlan) : Prop :=
  property.1 = part.field.name ∧ property.2.CastsAs part.field

/-- The targets of the fields of an object are grafted one field after the other.
The properties in `done` belong to fields before, which have been dealt with. -/
theorem graftEach?_collect (hrealized : ∀ part ∈ parts,
      part.field.Realized (parent ++ [.field part.field.name]) part.node part.targets)
    (hnodup : (names parts).Nodup) (done : Assoc CastPlan)
    (hdone : ∀ name ∈ names parts, name ∉ done.keys) :
    ∃ (inner : List CastTarget) (plans : Assoc CastPlan),
      (collect parts).castTargets = inner.map (CastTarget.under parent) ∧
      CastPlan.graftEach? (.object (done ++ CastPlan.ofProperties (collect parts).properties)) inner =
        some (.object (done ++ plans)) ∧
      List.Forall₂ PlannedAs parts plans := by
  induction parts generalizing done with
  | nil => exact ⟨[], [], rfl, rfl, .nil⟩
  | cons part rest ih =>
    obtain ⟨⟨inner, plan, htargets, hgraft, hcasts⟩, hrest⟩ := List.forall_mem_cons.1 hrealized
    obtain ⟨hfresh, hnodup⟩ := List.nodup_cons.1 hnodup
    obtain ⟨hname, hdone⟩ := List.forall_mem_cons.1 hdone
    have hdone' : ∀ name ∈ names rest, name ∉ Assoc.keys (done ++ [(part.field.name, plan)]) := by
      intro name hmem hkeys
      rw [Assoc.keys, List.map_append, List.mem_append] at hkeys
      rcases hkeys with hold | hlast
      · exact hdone name hmem hold
      · obtain rfl : name = part.field.name := by simpa using hlast
        exact hfresh hmem
    obtain ⟨later, plans, hlater, hgraftLater, hplans⟩ := ih hrest hnodup _ hdone'
    refine ⟨inner.map (CastTarget.under [.field part.field.name]) ++ later,
      (part.field.name, plan) :: plans, ?_, ?_, .cons ⟨rfl, hcasts⟩ hplans⟩
    · have hunder : (inner.map (CastTarget.under [.field part.field.name])).map
          (CastTarget.under parent) = part.targets := by
        rw [htargets, List.map_map]
        exact List.map_congr_left fun target _ => CastTarget.under_under ..
      rw [List.map_append, hunder, ← hlater]
      rfl
    · have hfirst : CastPlan.ofProperties (collect (part :: rest)).properties =
          (part.field.name, CastPlan.ofNode part.node) ::
            CastPlan.ofProperties (collect rest).properties := rfl
      rw [CastPlan.graftEach?_append, hfirst, CastPlan.graftEach?_field hname, hgraft]
      simpa using hgraftLater

/-- Properties with plans that cast as their fields do cast an entry as the
fields do. -/
theorem castEntry_eq {plans : Assoc CastPlan} (h : List.Forall₂ PlannedAs parts plans)
    (name : String) (value : Bson) :
    (match plans.get? name with
      | some plan => plan.apply value
      | none => value) = FieldDefinition.castEntry (parts.map CompiledField.field) name value := by
  induction h with
  | nil => rfl
  | @cons part property _ _ hfirst _ ih =>
    obtain ⟨first, plan⟩ := property
    obtain ⟨rfl, hcasts⟩ := hfirst
    rw [Assoc.get?, FieldDefinition.castEntry, List.map_cons, FieldDefinition.find?, List.find?_cons]
    by_cases hname : part.field.name = name
    · simpa [hname] using hcasts value
    · simpa [hname, FieldDefinition.castEntry, FieldDefinition.find?] using ih

end CompiledField

namespace FieldDefinition

variable {path : FieldPath} {node : SchemaNode} {targets : List CastTarget}

/-- A field without targets is realized by the plan of its node. -/
theorem realized_of_castsAs {field : FieldDefinition} (h : (CastPlan.ofNode node).CastsAs field) :
    field.Realized path node [] :=
  ⟨[], _, rfl, rfl, h⟩

/-- A field that is a target itself is realized by the cast of the target. -/
theorem realized_of_special {field : FieldDefinition} {kind : CastKind}
    (h : (CastPlan.special kind).CastsAs field) : field.Realized path node [⟨kind, path⟩] := by
  refine ⟨[⟨kind, []⟩], .special kind, ?_, rfl, h⟩
  rw [List.map_singleton, CastTarget.under, List.append_nil]

/-- A primitive field is realized by the coercion to its type. -/
theorem realized_of_primitive? {field : FieldDefinition} {target : Primitive}
    (hplan : CastPlan.ofNode node = .coerce target) (h : field.kind.primitive? = some target) :
    field.Realized path node [] := by
  refine realized_of_castsAs fun value => ?_
  rw [hplan, CastPlan.apply_coerce, castValue_of_primitive? h]

/-- An object is realized if its fields are. -/
theorem realized_of_rawObject {field : FieldDefinition} (hkind : field.kind = .rawObject)
    {parts : List (CompiledField path)} (hcontent : parts.map CompiledField.field = field.content)
    (hnodup : (CompiledField.names parts).Nodup)
    (hrealized : ∀ part ∈ parts,
      part.field.Realized (path ++ [.field part.field.name]) part.node part.targets)
    {required : List String} {additional : Bool} :
    field.Realized path
      (.object (CompiledField.collect parts).properties required additional field.notes)
      (CompiledField.collect parts).castTargets := by
  obtain ⟨inner, plans, htargets, hgraft, hplans⟩ :=
    CompiledField.graftEach?_collect hrealized hnodup [] fun _ _ => List.not_mem_nil
  refine ⟨inner, .object plans, htargets, hgraft, fun value => ?_⟩
  cases value with
  | document entries =>
    rw [castValue_document hkind, castEntries_eq_map, CastPlan.apply, CastPlan.applyEntries_eq_map,
      ← hcontent]
    congr 1
    exact List.map_congr_left fun entry _ =>
      congrArg (Prod.mk entry.1) (CompiledField.castEntry_eq hplans entry.1 entry.2)
  | _ => simp only [castValue, hkind, CastPlan.apply] <;> rfl

/-- An array is realized if its elements are. -/
theorem realized_of_array {field item : FieldDefinition} (hkind : field.kind = .array)
    (hitem : field.items = some item) (hrealized : item.Realized (path ++ [.items]) node targets) :
    field.Realized path (.array node none none field.notes) targets := by
  obtain ⟨inner, plan, rfl, hgraft, hcasts⟩ := hrealized
  refine ⟨inner.map (CastTarget.under [.items]), .array plan, ?_, ?_, fun value => ?_⟩
  · rw [List.map_map]
    exact List.map_congr_left fun target _ => (CastTarget.under_under ..).symm
  · have hplan : CastPlan.ofNode (.array node none none field.notes) =
        .array (CastPlan.ofNode node) := rfl
    rw [hplan, CastPlan.graftEach?_items, hgraft, Option.map_some]
  · cases value with
    | array values =>
      rw [castValue_array hkind hitem, castItems_eq_map, CastPlan.apply, CastPlan.applyItems_eq_map]
      congr 1
      exact List.map_congr_left fun value _ => hcasts value
    | _ => simp only [castValue, hkind, CastPlan.apply] <;> rfl

/-- A compiled field is realized, whatever is in it. -/
theorem realized_of_compile (field : FieldDefinition) :
    ∀ {path : FieldPath} {node : SchemaNode} {targets : List CastTarget},
      field.compile path = .ok (node, targets) → field.Realized path node targets := by
  induction field using induction with
  | step field ihcontent ihitems =>
    intro path node targets h
    cases compiled_of_compile h with
    | string hkind => exact realized_of_primitive? rfl (by rw [hkind]; rfl)
    | number hkind => exact realized_of_primitive? rfl (by rw [hkind]; rfl)
    | boolean hkind => exact realized_of_primitive? rfl (by rw [hkind]; rfl)
    | date hkind => exact realized_of_primitive? rfl (by rw [hkind]; rfl)
    | objectId hkind =>
      refine realized_of_special fun value => ?_
      rw [castValue_objectId hkind, CastPlan.apply_special]
    | geoPoint hkind =>
      refine realized_of_special fun value => ?_
      rw [castValue_geoPoint hkind, CastPlan.apply_special]
    | @rawObject hkind parts hcontent hnodup =>
      refine realized_of_rawObject hkind hcontent hnodup fun part hpart => ?_
      refine ihcontent part.field ?_ part.compile_eq
      rw [← hcontent]
      exact List.mem_map_of_mem hpart
    | array hkind hitem hinner => exact realized_of_array hkind hitem (ihitems _ hitem hinner)

end FieldDefinition

/-! ## Documents -/

namespace Caster

/-- Grafting into a caster is grafting into the object of its properties. -/
theorem graft?_object (caster : Caster) (target : CastTarget) {name : String} {rest : FieldPath}
    (hpath : target.path = .field name :: rest) :
    CastPlan.graft? target.path target.kind (.object caster.properties) =
      (caster.graft? target).map fun grafted => .object grafted.properties := by
  rw [graft?, hpath, CastPlan.graft?]
  cases hchild : caster.properties.get? name with
  | none => simp [hchild]
  | some child => cases hgraft : child.graft? rest target.kind <;> simp [hchild, hgraft]

/-- Whether a target lies in a bookkeeping field. -/
def isReservedTarget (target : CastTarget) : Bool :=
  target.path.root?.any Bookkeeping.isReserved

/-- The targets that do not lie in bookkeeping fields are grafted one after the
other. -/
theorem graftAll_eq_ok {targets : List CastTarget} {caster : Caster} {plans : Assoc CastPlan}
    (hpaths : ∀ target ∈ targets, ∃ name rest, target.path = .field name :: rest)
    (h : CastPlan.graftEach? (.object caster.properties)
      (targets.filter fun target => !isReservedTarget target) = some (.object plans)) :
    caster.graftAll targets = .ok ⟨plans⟩ := by
  induction targets generalizing caster with
  | nil => cases h; rfl
  | cons target rest ih =>
    obtain ⟨⟨name, inner, hpath⟩, hrest⟩ := List.forall_mem_cons.1 hpaths
    cases hreserved : isReservedTarget target with
    | true =>
      rw [List.filter_cons_of_neg (by simp [hreserved])] at h
      rw [isReservedTarget] at hreserved
      rw [graftAll, if_pos hreserved]
      exact ih hrest h
    | false =>
      rw [List.filter_cons_of_pos (by simp [hreserved]), CastPlan.graftEach?_cons,
        caster.graft?_object target hpath] at h
      rw [isReservedTarget] at hreserved
      rw [graftAll, if_neg (by simp [hreserved])]
      cases hgraft : caster.graft? target with
      | none => simp [hgraft] at h
      | some grafted =>
        rw [hgraft] at h
        exact ih hrest h

/-- The fields that have plans of their own: those that are no bookkeeping
fields. -/
def planned (parts : List (CompiledField [])) : List (CompiledField []) :=
  parts.filter fun part => !Bookkeeping.isReserved part.field.name

theorem find?_planned (parts : List (CompiledField [])) (name : String) :
    FieldDefinition.find? ((planned parts).map CompiledField.field) name =
      if Bookkeeping.isReserved name then none
      else FieldDefinition.find? (parts.map CompiledField.field) name := by
  induction parts with
  | nil => simp [planned, FieldDefinition.find?]
  | cons part rest ih =>
    rw [planned] at ih ⊢
    rw [FieldDefinition.find?] at ih ⊢
    by_cases hname : part.field.name = name
    · subst hname
      cases hreserved : Bookkeeping.isReserved part.field.name with
      | true => simpa [List.filter_cons, hreserved] using ih
      | false => simp [hreserved, FieldDefinition.find?]
    · have hskip : FieldDefinition.find? ((part :: rest).map CompiledField.field) name =
          FieldDefinition.find? (rest.map CompiledField.field) name := by
        simp [FieldDefinition.find?, hname]
      rw [hskip, ← ih, List.filter_cons]
      split
      · simp [hname]
      · rfl

/-- The targets that do not lie in bookkeeping fields are those of the planned
fields. -/
theorem filter_castTargets {parts : List (CompiledField [])}
    (hpaths : ∀ part ∈ parts, ∀ target ∈ part.targets,
      ∃ rest, target.path = .field part.field.name :: rest) :
    (CompiledField.collect parts).castTargets.filter (fun target => !isReservedTarget target) =
      (CompiledField.collect (planned parts)).castTargets := by
  induction parts with
  | nil => rfl
  | cons part rest ih =>
    obtain ⟨hpart, hrest⟩ := List.forall_mem_cons.1 hpaths
    have hroot : ∀ target ∈ part.targets,
        isReservedTarget target = Bookkeeping.isReserved part.field.name := by
      intro target htarget
      obtain ⟨inner, hpath⟩ := hpart target htarget
      rw [isReservedTarget, hpath]
      rfl
    have hsplit : (CompiledField.collect (part :: rest)).castTargets =
        part.targets ++ (CompiledField.collect rest).castTargets := rfl
    rw [hsplit, List.filter_append, ih hrest, planned, planned, List.filter_cons]
    cases hreserved : Bookkeeping.isReserved part.field.name with
    | true =>
      rw [List.filter_eq_nil_iff.2 fun target htarget => by simp [hroot target htarget, hreserved]]
      rfl
    | false =>
      rw [List.filter_eq_self.2 fun target htarget => by simp [hroot target htarget, hreserved]]
      rfl

/-- The casts of bookkeeping fields, name by name. -/
theorem castBookkeepingEntry_eq (name : String) (value : Bson) :
    castBookkeepingEntry name value = FieldDefinition.castReserved name value := by
  have hcreated : Bookkeeping.createdAtField ≠ Bookkeeping.idField := by decide
  have hupdated : Bookkeeping.updatedAtField ≠ Bookkeeping.idField := by decide
  rw [castBookkeepingEntry]
  split
  · rename_i hid
    subst hid
    cases value <;> simp [CastKind.apply, FieldDefinition.castReserved, hcreated.symm, hupdated.symm]
  · rename_i hid
    split
    · rename_i hdate
      cases value <;> simp [Primitive.coerce, FieldDefinition.castReserved, hid, hdate]
    · rename_i hdate
      cases value <;> simp [FieldDefinition.castReserved, hid, hdate]

theorem castReserved_of_not_reserved {name : String} (h : Bookkeeping.isReserved name = false)
    (value : Bson) : FieldDefinition.castReserved name value = value := by
  have hne : ∀ reserved, Bookkeeping.isReserved reserved = true → name ≠ reserved := by
    rintro reserved hreserved rfl
    rw [h] at hreserved
    cases hreserved
  have hid := hne Bookkeeping.idField (by decide)
  have hcreated := hne Bookkeeping.createdAtField (by decide)
  have hupdated := hne Bookkeeping.updatedAtField (by decide)
  cases value <;> simp [FieldDefinition.castReserved, hid, hcreated, hupdated]

/-- Plans for the fields that are no bookkeeping fields cast as the definitions
do. -/
theorem cast_eq_castDocument {parts : List (CompiledField [])} {plans : Assoc CastPlan}
    (h : List.Forall₂ CompiledField.PlannedAs (planned parts) plans) (document : Document) :
    Caster.cast ⟨plans⟩ document =
      FieldDefinition.castDocument (parts.map CompiledField.field) document := by
  rw [Caster.cast, castBookkeeping, CastPlan.applyEntries_eq_map, List.map_map,
    FieldDefinition.castDocument]
  refine List.map_congr_left fun entry _ => congrArg (Prod.mk entry.1) ?_
  refine (CompiledField.castEntry_eq h entry.1 (castBookkeepingEntry entry.1 entry.2)).trans ?_
  rw [castBookkeepingEntry_eq, FieldDefinition.castEntry, find?_planned]
  cases hreserved : Bookkeeping.isReserved entry.1 with
  | true => rfl
  | false => rw [castReserved_of_not_reserved hreserved]; rfl

/-- The schema of some fields has a caster, which casts as the definitions of the
fields do. -/
theorem exists_ofSchema {fields : List FieldDefinition} {tree : SchemaTree}
    (h : SchemaTree.ofFields fields = .ok tree) :
    ∃ caster, Caster.ofSchema tree = .ok caster ∧
      ∀ document, caster.cast document = FieldDefinition.castDocument fields document := by
  obtain ⟨parts, rfl, hnodup, rfl⟩ := SchemaTree.ofFields_eq_ok h
  have hrealized : ∀ part ∈ parts,
      part.field.Realized [.field part.field.name] part.node part.targets := fun part _ =>
    part.field.realized_of_compile part.compile_eq
  have hplanned : ∀ part ∈ planned parts, part ∈ parts := fun part hpart =>
    (List.mem_filter.1 hpart).1
  have hnames : (CompiledField.names (planned parts)).Nodup :=
    hnodup.sublist (List.filter_sublist.map _)
  obtain ⟨inner, plans, htargets, hgraft, hplans⟩ := CompiledField.graftEach?_collect
    (fun part hpart => hrealized part (hplanned part hpart)) hnames [] fun _ _ => List.not_mem_nil
  refine ⟨⟨plans⟩, ?_, cast_eq_castDocument hplans⟩
  have hpaths : ∀ part ∈ parts, ∀ target ∈ part.targets,
      ∃ rest, target.path = .field part.field.name :: rest := by
    intro part hpart target htarget
    obtain ⟨inner, -, hinner, -, -⟩ := hrealized part hpart
    rw [hinner] at htarget
    obtain ⟨own, -, rfl⟩ := List.mem_map.1 htarget
    exact ⟨own.path, rfl⟩
  have hproperties : (CompiledField.collect parts).properties.filter (fun property =>
      !Bookkeeping.isReserved property.1) = (CompiledField.collect (planned parts)).properties := by
    rw [CompiledField.collect, CompiledField.collect, List.filter_map]
    rfl
  rw [Caster.ofSchema]
  simp only [hproperties]
  refine graftAll_eq_ok ?_ ?_
  · intro target htarget
    obtain ⟨part, hpart, hmem⟩ := List.mem_flatMap.1 htarget
    exact ⟨_, hpaths part hpart target hmem⟩
  · rw [filter_castTargets hpaths, htargets, List.map_congr_left fun target _ => target.under_nil,
      List.map_id']
    exact hgraft

end Caster

end DocGate
