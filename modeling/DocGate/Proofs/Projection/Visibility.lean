import Mathlib.Data.List.Forall2
import DocGate.Proofs.Projection.Application
import DocGate.Proofs.Projection.Confinement

/-!
# What a confined projection shows

A confined projection applied to a document.  If it computes something, the
store refuses it, whatever the document is.  If not, all of its entries include
paths, and the result is the copy of these paths and the identifier.

* `Projection.apply_of_confined` is the alternative above, and
  `Projection.map_apply_congr` what follows for documents that agree on the
  visible fields.
* `Projection.including_congr` says that a copy of paths depends on nothing but
  the fields that the paths begin with, and `Projection.mem_of_mem_keys_including`
  that it has no other fields.
-/

namespace DocGate

/-! ## Copies of paths -/

namespace Document

/-- Two documents have the same values in some fields, or both have none. -/
def AgreeOn (fields : List String) (document document' : Document) : Prop :=
  ∀ field ∈ fields, document.get? field = document'.get? field

variable {source source' target : Document}

/-- The copy of a path depends on the field that the path begins with. -/
theorem copyPath_congr {key : String} (h : source.get? key = source'.get? key)
    (rest : List String) :
    copyPath source target (key :: rest) = copyPath source' target (key :: rest) := by
  cases rest with
  | nil => rw [copyPath, copyPath, h]
  | cons next rest => rw [copyPath, copyPath, h]

/-- The copy of a path adds no field but the one that the path begins with. -/
theorem mem_keys_copyPath {key other : String} {rest : List String}
    (h : other ∈ (copyPath source target (key :: rest)).keys) :
    other ∈ target.keys ∨ other = key := by
  cases rest with
  | nil =>
    rw [copyPath] at h
    split at h
    · exact Assoc.mem_keys_set_iff.1 h
    · exact .inl h
  | cons next rest =>
    rw [copyPath] at h
    split at h
    · exact Assoc.mem_keys_set_iff.1 h
    · exact .inl h

/-- Copies some paths, one after the other. -/
def copyPaths (source target : Document) (paths : List String) : Document :=
  paths.foldl (fun copied path => copyPath source copied (Text.pathKeys path)) target

theorem copyPaths_congr {paths : List String}
    (h : ∀ path ∈ paths, source.get? (Text.pathRoot path) = source'.get? (Text.pathRoot path)) :
    copyPaths source target paths = copyPaths source' target paths := by
  induction paths generalizing target with
  | nil => rfl
  | cons path paths ih =>
    obtain ⟨rest, hkeys⟩ := Text.pathKeys_eq_cons path
    have hcopy : copyPath source target (Text.pathKeys path) =
        copyPath source' target (Text.pathKeys path) := by
      rw [hkeys]
      exact copyPath_congr (h path List.mem_cons_self) rest
    have hrest := @ih (copyPath source' target (Text.pathKeys path))
      fun path hpath => h path (List.mem_cons_of_mem _ hpath)
    rw [copyPaths, List.foldl_cons, hcopy]
    exact hrest

theorem mem_keys_copyPaths {paths : List String} {other : String}
    (h : other ∈ (copyPaths source target paths).keys) :
    other ∈ target.keys ∨ ∃ path ∈ paths, other = Text.pathRoot path := by
  induction paths generalizing target with
  | nil => exact .inl h
  | cons path paths ih =>
    obtain ⟨rest, hkeys⟩ := Text.pathKeys_eq_cons path
    rw [copyPaths, List.foldl_cons, hkeys] at h
    rcases ih h with htarget | ⟨later, hlater, heq⟩
    · rcases mem_keys_copyPath htarget with hold | hroot
      · exact .inl hold
      · exact .inr ⟨path, List.mem_cons_self, hroot⟩
    · exact .inr ⟨later, List.mem_cons_of_mem _ hlater, heq⟩

end Document

namespace Projection

/-! ## Inclusions -/

/-- What a projection that includes some paths returns of a document. -/
def including (paths : List String) (document : Document) : Document :=
  document.copyPaths (impliedId ⟨paths, []⟩ document) paths

variable {fields paths : List String} {document document' : Document}

/-- Copies of paths depend on the fields that the paths begin with, and on the
identifier. -/
theorem including_congr (hid : Bookkeeping.idField ∈ fields)
    (hroots : ∀ path ∈ paths, Text.pathRoot path ∈ fields)
    (hagree : Document.AgreeOn fields document document') :
    including paths document = including paths document' := by
  have himplied : impliedId ⟨paths, []⟩ document = impliedId ⟨paths, []⟩ document' := by
    rw [impliedId, impliedId, hagree _ hid]
  rw [including, including, himplied]
  exact Document.copyPaths_congr fun path hpath => hagree _ (hroots path hpath)

/-- Copies of paths have no fields but those that the paths begin with and the
identifier. -/
theorem mem_of_mem_keys_including (hid : Bookkeeping.idField ∈ fields)
    (hroots : ∀ path ∈ paths, Text.pathRoot path ∈ fields) {key : String}
    (h : key ∈ (including paths document).keys) : key ∈ fields := by
  rcases Document.mem_keys_copyPaths h with himplied | ⟨path, hpath, rfl⟩
  · rw [impliedId] at himplied
    split at himplied
    · cases himplied
    · split at himplied
      · obtain rfl : key = Bookkeeping.idField := List.mem_singleton.1 himplied
        exact hid
      · cases himplied
  · exact hroots path hpath

end Projection

/-! ## Confined projections -/

/-- The fields that a caller who is restricted to columns may see: the
identifier and those that a column leads into. -/
def Columns.visibleFields (columns : Columns) : List String :=
  Bookkeeping.idField :: columns.names.map Text.pathRoot

/-- A covered key leads into a visible field. -/
theorem Columns.Covers.pathRoot_mem {columns : Columns} {key : String} (h : columns.Covers key) :
    Text.pathRoot key ∈ columns.visibleFields := by
  rcases h with hcolumn | hroot
  · exact List.mem_cons_of_mem _ (List.mem_map_of_mem hcolumn)
  · have hmem : Text.pathRoot (Text.pathRoot key) ∈ columns.names.map Text.pathRoot :=
      List.mem_map_of_mem hroot
    rw [Text.pathRoot_pathRoot] at hmem
    exact List.mem_cons_of_mem _ hmem

namespace Projection

/-- A projection that includes paths and does nothing else is applied by
copying them. -/
theorem apply_eq_including {projection : Projection}
    (hmarker : ∀ entry ∈ projection.entries, marker? entry.2 = some true)
    (hne : projection.entries ≠ []) (document : Document) :
    projection.apply document = .ok (including (marked true projection.entries) document) := by
  have hfind : projection.entries.find? (fun entry => (marker? entry.2).isNone) = none := by
    refine List.find?_eq_none.2 fun entry hentry => ?_
    simp [hmarker entry hentry]
  have hexcluded : marked false projection.entries = [] := by
    have hfilter : projection.entries.filter (fun entry => marker? entry.2 == some false) = [] := by
      refine List.filter_eq_nil_iff.2 fun entry hentry => ?_
      simp [hmarker entry hentry]
    rw [marked, hfilter]
    rfl
  have hincluded : (marked true projection.entries).isEmpty = false := by
    have hfilter : projection.entries.filter (fun entry => marker? entry.2 == some true) =
        projection.entries :=
      List.filter_eq_self.2 fun entry hentry => by simp [hmarker entry hentry]
    rw [List.isEmpty_eq_false_iff, marked, hfilter]
    exact fun hnil => hne (List.map_eq_nil_iff.1 hnil)
  rw [apply, markedPaths_eq, hfind, hexcluded]
  simp only [hincluded, List.any_nil, Bool.false_eq_true, if_false]
  rfl

/-- A confined projection is refused by the store, or it copies paths that lead
into visible fields. -/
theorem apply_of_confined {columns : Columns} {projection : Projection}
    (h : projection = idOnly ∨ Confined columns projection) :
    (∃ key, ∀ document, projection.apply document = .error (.computedProjection key)) ∨
      ∃ paths : List String, (∀ path ∈ paths, Text.pathRoot path ∈ columns.visibleFields) ∧
        ∀ document, projection.apply document = .ok (including paths document) := by
  rcases h with rfl | hconfined
  · refine .inr ⟨[Bookkeeping.idField], fun path hpath => ?_, fun document => ?_⟩
    · obtain rfl := List.mem_singleton.1 hpath
      exact List.mem_cons_self
    · exact apply_eq_including (by simp [idOnly, inclusion, marker?]) (by simp [idOnly]) document
  · cases hfind : projection.entries.find? fun entry => (marker? entry.2).isNone with
    | some entry =>
      refine .inl ⟨entry.1, fun document => ?_⟩
      rw [apply, markedPaths_eq, hfind]
    | none =>
      have hmarker : ∀ entry ∈ projection.entries, marker? entry.2 = some true := by
        intro entry hentry
        have hsome := List.find?_eq_none.1 hfind entry hentry
        cases hvalue : marker? entry.2 with
        | none => simp [hvalue] at hsome
        | some includes =>
          cases includes with
          | true => rfl
          | false => exact absurd hvalue (hconfined.no_exclusion entry hentry)
      refine .inr ⟨marked true projection.entries, fun path hpath => ?_,
        apply_eq_including hmarker hconfined.entries_ne_nil⟩
      obtain ⟨entry, hentry, rfl⟩ := List.mem_map.1 hpath
      have hmem := (List.mem_filter.1 hentry).1
      exact (hconfined.covered entry hmem (.inl (hmarker entry hmem))).pathRoot_mem

/-- Documents that agree on the visible fields are read alike. -/
theorem apply_congr {columns : Columns} {projection : Projection} {document document' : Document}
    (hconfined : projection = idOnly ∨ Confined columns projection)
    (hagree : Document.AgreeOn columns.visibleFields document document') :
    projection.apply document = projection.apply document' := by
  rcases apply_of_confined hconfined with ⟨key, hfault⟩ | ⟨paths, hroots, happly⟩
  · rw [hfault, hfault]
  · rw [happly, happly,
      including_congr (List.mem_cons_self : Bookkeeping.idField ∈ _) hroots hagree]

/-- Selected documents that agree on the visible fields give the same items. -/
theorem map_apply_congr {columns : Columns} {projection : Projection}
    {selected selected' : List Document}
    (hconfined : projection = idOnly ∨ Confined columns projection)
    (hagree : List.Forall₂ (Document.AgreeOn columns.visibleFields) selected selected') :
    selected.map projection.apply = selected'.map projection.apply := by
  induction hagree with
  | nil => rfl
  | cons hfirst _ ih => rw [List.map_cons, List.map_cons, ih, apply_congr hconfined hfirst]

end Projection

end DocGate
