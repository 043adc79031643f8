import Mathlib.Data.List.Basic
import DocGate.Collection.Compiled
import DocGate.Proofs.Projection.Selection

/-!
# Casting what is projected

A read projects a document and casts what is left.  It could as well cast the
document first, as long as no path of the projection leads into a nested
document: a cast changes each entry at the top of a document by itself, and a
projection of keys keeps entries or drops them.

* A change of the entries goes through the copy and the removal of a key, and so
  through a whole projection (`Projection.apply_changeEntries`).
* What a projection of keys shows is part of the document
  (`Projection.isPartOf_of_apply`).

The main result is `Collection.apply_cast`.  For paths into nested documents it
would fail: the cast of a point is no document any more.
-/

namespace DocGate

namespace Document

variable {change : String → Bson → Bson} {shown document : Document}

/-! ## Changes of entries -/

/-- The document with the value of every entry at its top changed. -/
def changeEntries (change : String → Bson → Bson) (document : Document) : Document :=
  document.map fun entry => (entry.1, change entry.1 entry.2)

theorem get?_changeEntries (document : Document) (key : String) :
    (document.changeEntries change).get? key = (document.get? key).map (change key) :=
  Assoc.get?_map change document key

theorem changeEntries_copyPath (source target : Document) (key : String) :
    changeEntries change (copyPath source target [key]) =
      copyPath (source.changeEntries change) (target.changeEntries change) [key] := by
  rw [copyPath, copyPath, get?_changeEntries]
  cases source.get? key with
  | none => rfl
  | some value => exact Assoc.map_set change target key value

theorem changeEntries_removePath (document : Document) (key : String) :
    changeEntries change (removePath document [key]) =
      removePath (document.changeEntries change) [key] :=
  Assoc.map_erase change document key

/-- What goes along the paths of some names goes to the names, if they have no dots. -/
theorem foldl_pathKeys {names : List String} (hplain : ∀ name ∈ names, '.' ∉ name.toList)
    (step : Document → List String → Document) (start : Document) :
    names.foldl (fun left name => step left (Text.pathKeys name)) start =
      names.foldl (fun left name => step left [name]) start :=
  List.foldl_ext _ _ start fun left name hname => by
    rw [Text.pathKeys_eq_singleton (hplain name hname)]

theorem changeEntries_copyPaths {names : List String} (hplain : ∀ name ∈ names, '.' ∉ name.toList)
    (source target : Document) :
    changeEntries change (copyPaths source target names) =
      copyPaths (source.changeEntries change) (target.changeEntries change) names := by
  rw [copyPaths, copyPaths, foldl_pathKeys hplain, foldl_pathKeys hplain]
  exact (List.foldl_hom (changeEntries change)
    fun left name => (changeEntries_copyPath source left name).symm).symm

theorem changeEntries_removePaths {names : List String}
    (hplain : ∀ name ∈ names, '.' ∉ name.toList) (document : Document) :
    changeEntries change (removePaths document names) =
      removePaths (document.changeEntries change) names := by
  rw [removePaths, removePaths, foldl_pathKeys hplain, foldl_pathKeys hplain]
  exact (List.foldl_hom (changeEntries change)
    fun left name => (changeEntries_removePath left name).symm).symm

/-! ## Entries of a document -/

/-- Every value at the top of `shown` is the value of `document` under the same key. -/
def IsPartOf (shown document : Document) : Prop :=
  ∀ key value, shown.get? key = some value → document.get? key = some value

theorem isPartOf_refl (document : Document) : IsPartOf document document :=
  fun _ _ h => h

theorem isPartOf_empty (document : Document) : IsPartOf [] document :=
  fun _ _ h => by cases h

namespace IsPartOf

theorem copyPath (h : IsPartOf shown document) (key : String) :
    IsPartOf (copyPath document shown [key]) document := by
  intro other value hvalue
  by_cases hkey : key = other
  · subst hkey
    rw [get?_copyPath_singleton] at hvalue
    rcases Option.or_eq_some_iff.1 hvalue with hdocument | ⟨-, hshown⟩
    · exact hdocument
    · exact h key value hshown
  · rw [get?_copyPath_of_ne hkey] at hvalue
    exact h other value hvalue

theorem removePath (h : IsPartOf shown document) (key : String) :
    IsPartOf (removePath shown [key]) document := by
  intro other value hvalue
  by_cases hkey : key = other
  · subst hkey
    rw [Document.removePath, Assoc.get?_erase_self] at hvalue
    cases hvalue
  · rw [get?_removePath_of_ne hkey] at hvalue
    exact h other value hvalue

theorem copyPaths (h : IsPartOf shown document) {names : List String}
    (hplain : ∀ name ∈ names, '.' ∉ name.toList) :
    IsPartOf (copyPaths document shown names) document := by
  rw [Document.copyPaths, foldl_pathKeys hplain]
  exact List.foldlRecOn (motive := fun left => IsPartOf left document) names _ h
    fun _ hleft name _ => hleft.copyPath name

theorem removePaths (h : IsPartOf shown document) {names : List String}
    (hplain : ∀ name ∈ names, '.' ∉ name.toList) :
    IsPartOf (removePaths shown names) document := by
  rw [Document.removePaths, foldl_pathKeys hplain]
  exact List.foldlRecOn (motive := fun left => IsPartOf left document) names _ h
    fun _ hleft name _ => hleft.removePath name

end IsPartOf

end Document

namespace Projection

variable {change : String → Bson → Bson} {projection : Projection} {document shown : Document}

/-! ## Projections of keys -/

/-- The keys that are included or excluded are keys of the projection. -/
theorem mem_keys_of_mem_marked {includes : Bool} {key : String}
    (h : key ∈ marked includes projection.entries) : key ∈ projection.keys := by
  obtain ⟨entry, hentry, rfl⟩ := List.mem_map.1 h
  exact List.mem_map_of_mem (List.mem_filter.1 hentry).1

theorem impliedId_changeEntries (paths : MarkedPaths) (document : Document) :
    impliedId paths (document.changeEntries change) =
      (impliedId paths document).changeEntries change := by
  rw [impliedId, impliedId, Document.get?_changeEntries]
  split
  · rfl
  · cases document.get? Bookkeeping.idField <;> rfl

/-- A change of the entries goes through a projection of keys, and does not matter
for whether the projection is refused. -/
theorem apply_changeEntries (hplain : ∀ key ∈ projection.keys, '.' ∉ key.toList)
    (document : Document) :
    projection.apply (document.changeEntries change) =
      (projection.apply document).map (Document.changeEntries change) := by
  have hmarked : ∀ includes, ∀ key ∈ marked includes projection.entries, '.' ∉ key.toList :=
    fun _ key hkey => hplain key (mem_keys_of_mem_marked hkey)
  rcases projection.apply_uniform with happlied | ⟨fault, hfault⟩
  · obtain ⟨shown, hshown⟩ := happlied document
    rw [hshown]
    refine apply_eq_ok_iff.2 ?_
    obtain ⟨hmarkers, ⟨hnone, rfl⟩ | ⟨hsome, hid, rfl⟩⟩ := apply_eq_ok_iff.1 hshown
    · exact ⟨hmarkers, .inl ⟨hnone, Document.changeEntries_removePaths (hmarked false) document⟩⟩
    · refine ⟨hmarkers, .inr ⟨hsome, hid, ?_⟩⟩
      rw [impliedId_changeEntries]
      exact Document.changeEntries_copyPaths (hmarked true) document _
  · rw [hfault, hfault]
    rfl

/-- A projection of keys shows entries of the document. -/
theorem isPartOf_of_apply (hplain : ∀ key ∈ projection.keys, '.' ∉ key.toList)
    (h : projection.apply document = .ok shown) : Document.IsPartOf shown document := by
  have hmarked : ∀ includes, ∀ key ∈ marked includes projection.entries, '.' ∉ key.toList :=
    fun _ key hkey => hplain key (mem_keys_of_mem_marked hkey)
  obtain ⟨-, ⟨-, rfl⟩ | ⟨-, -, rfl⟩⟩ := apply_eq_ok_iff.1 h
  · exact (Document.isPartOf_refl document).removePaths (hmarked false)
  · refine Document.IsPartOf.copyPaths ?_ (hmarked true)
    rw [impliedId]
    split
    · exact Document.isPartOf_empty document
    · exact (Document.isPartOf_empty document).copyPath Bookkeeping.idField

end Projection

namespace Collection

/-- For a projection without a path into nested documents it makes no difference
whether a document is cast before or after it is projected, and each shown field has
the value that it has in the cast of the whole document, whatever else is shown. -/
theorem apply_cast (collection : Collection) (projection : Projection)
    (hplain : ∀ key ∈ projection.keys, '.' ∉ key.toList) (document : Document) :
    projection.apply (collection.cast document) =
        (projection.apply document).map collection.cast ∧
      ∀ shown, projection.apply document = .ok shown → ∀ key ∈ shown.keys,
        (collection.cast shown).get? key = (collection.cast document).get? key := by
  have hcast : collection.cast = Document.changeEntries collection.caster.castEntry :=
    funext fun source => collection.caster.cast_eq_map source
  refine ⟨?_, fun shown hshown key hkey => ?_⟩
  · rw [hcast]
    exact Projection.apply_changeEntries hplain document
  · refine collection.caster.get?_cast_congr ?_
    obtain ⟨value, hvalue⟩ := Option.ne_none_iff_exists'.1
      fun hnone => Assoc.get?_eq_none_iff.1 hnone hkey
    rw [hvalue, Projection.isPartOf_of_apply hplain hshown key value hvalue]

/-- A parcel of which the weight is shown and one of which the label is left out. -/
theorem apply_cast_parcel :
    ∃ collection, Collection.compile
        { name := "parcels"
          endpointBasePath := "/parcels"
          fields := [{ name := "weight", kind := .number },
            { name := "place", kind := .geoPoint }] } = .ok collection ∧
      (∀ key ∈ Projection.keys ⟨[("place", .int32 1)]⟩, '.' ∉ key.toList) ∧
      Projection.apply ⟨[("place", .int32 1)]⟩ (collection.cast [("weight", .string "3"),
          ("place", .document [("type", .string "Point"), ("coordinates", .array [.int32 4])]),
          ("_id", .objectId ⟨7⟩)]) =
        .ok [("_id", .string "000000000000000000000007"), ("place", .array [.int32 4])] := by
  obtain ⟨collection, hcompile⟩ : ∃ collection, Collection.compile
      { name := "parcels"
        endpointBasePath := "/parcels"
        fields := [{ name := "weight", kind := .number },
          { name := "place", kind := .geoPoint }] } = .ok collection := ⟨_, rfl⟩
  have hplain : ∀ key ∈ Projection.keys ⟨[("place", .int32 1)]⟩, '.' ∉ key.toList := by decide
  refine ⟨collection, hcompile, hplain, ?_⟩
  rw [(apply_cast collection ⟨[("place", .int32 1)]⟩ hplain _).1]
  cases hcompile
  rfl

end Collection

end DocGate
