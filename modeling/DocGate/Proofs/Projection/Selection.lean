import DocGate.Proofs.Projection.Paths
import DocGate.Proofs.Projection.Visibility

/-!
# What a projection selects

What the store returns of a document under any projection, path by path.

* `Document.Selects` describes the result of inclusions, and `Document.Spares` that
  of exclusions.  Each is kept when one more path is copied or removed
  (`Selects.copyPath`, `Spares.removePath`), whichever way this path overlaps with
  the paths before it, so it holds after a list of them.
* `Projection.apply_eq_ok_iff` says when a projection is applied and to what copies
  or removals it comes.

`Projection.apply_selects` puts them together.
-/

namespace DocGate

/-! ## Lists of paths -/

namespace Document

/-- Some of the paths leads to `path` or to something that it is in. -/
def Covers (paths : List (List String)) (path : List String) : Prop :=
  ∃ listed ∈ paths, listed <+: path

/-- Some of the paths goes on from `path`. -/
def Precedes (path : List String) (paths : List (List String)) : Prop :=
  ∃ listed ∈ paths, path <+: listed ∧ path ≠ listed

instance (paths : List (List String)) (path : List String) : Decidable (Covers paths path) :=
  inferInstanceAs (Decidable (∃ listed ∈ paths, listed <+: path))

variable {source target shown document : Document} {paths paths' : List (List String)}
  {path listed : List String}

theorem covers_append_singleton_iff :
    Covers (paths ++ [listed]) path ↔ Covers paths path ∨ listed <+: path := by
  simp [Covers, or_and_right, exists_or]

theorem precedes_append_singleton_iff :
    Precedes path (paths ++ [listed]) ↔ Precedes path paths ∨ path <+: listed ∧ path ≠ listed := by
  simp [Precedes, or_and_right, exists_or]

/-- A path leads to another one, goes on from it, or is apart from it. -/
theorem prefix_cases (listed path : List String) :
    (∃ more, path = listed ++ more) ∨ (∃ next rest, listed = path ++ next :: rest) ∨
      (¬ listed <+: path ∧ ¬ path <+: listed) := by
  by_cases hlisted : listed <+: path
  · obtain ⟨more, rfl⟩ := hlisted
    exact .inl ⟨more, rfl⟩
  · by_cases hpath : path <+: listed
    · obtain ⟨more, rfl⟩ := hpath
      cases more with
      | nil => exact absurd ⟨[], by simp⟩ hlisted
      | cons next rest => exact .inr (.inl ⟨next, rest, rfl⟩)
    · exact .inr (.inr ⟨hlisted, hpath⟩)

theorem not_append_cons_isPrefix (path : List String) (next : String) (rest : List String) :
    ¬ path ++ next :: rest <+: path := by
  intro h
  have hlength := h.length_le
  rw [List.length_append, List.length_cons] at hlength
  omega

/-! ## Inclusions -/

/-- `shown` has of `source` what the paths lead to and the documents on the way
there, and nothing else. -/
structure Selects (paths : List (List String)) (source shown : Document) : Prop where
  lookup?_of_covers : ∀ path, Covers paths path → shown.lookup? path = source.lookup? path
  document_of_precedes : ∀ path inner, ¬ Covers paths path → Precedes path paths →
    source.lookup? path = some (.document inner) →
      ∃ entries, shown.lookup? path = some (.document entries)
  lookup?_of_not_precedes : ∀ path, ¬ Covers paths path →
    ¬ (Precedes path paths ∧ ∃ inner, source.lookup? path = some (.document inner)) →
      shown.lookup? path = none

theorem selects_nil (source : Document) : Selects [] source [] where
  lookup?_of_covers := by
    rintro path ⟨listed, hmem, -⟩
    cases hmem
  document_of_precedes := by
    rintro path inner - ⟨listed, hmem, -⟩
    cases hmem
  lookup?_of_not_precedes path _ _ := lookup?_empty path

namespace Selects

/-- The order of the paths does not matter. -/
theorem congr (h : Selects paths source shown) (hmem : ∀ listed, listed ∈ paths ↔ listed ∈ paths') :
    Selects paths' source shown := by
  have hcovers : ∀ path, Covers paths' path ↔ Covers paths path := by simp [Covers, hmem]
  have hprecedes : ∀ path, Precedes path paths' ↔ Precedes path paths := by simp [Precedes, hmem]
  constructor
  case lookup?_of_covers => simpa only [hcovers] using h.lookup?_of_covers
  case document_of_precedes => simpa only [hcovers, hprecedes] using h.document_of_precedes
  case lookup?_of_not_precedes => simpa only [hcovers, hprecedes] using h.lookup?_of_not_precedes

/-- What the source does not have is not selected. -/
theorem lookup?_eq_none (h : Selects paths source shown) (hnone : source.lookup? path = none) :
    shown.lookup? path = none := by
  by_cases hcovers : Covers paths path
  · rw [h.lookup?_of_covers path hcovers, hnone]
  · refine h.lookup?_of_not_precedes path hcovers ?_
    rintro ⟨-, inner, hinner⟩
    rw [hnone] at hinner
    cases hinner

/-- One more path is copied. -/
theorem copyPath {copied : List String} (h : Selects paths source target) (hne : copied ≠ []) :
    Selects (paths ++ [copied]) source (copyPath source target copied) := by
  constructor
  case lookup?_of_covers =>
    intro path hcovers
    rw [covers_append_singleton_iff] at hcovers
    rcases prefix_cases copied path with ⟨more, rfl⟩ | ⟨next, rest, rfl⟩ | ⟨hcopied, hpath⟩
    · rw [lookup?_copyPath_append]
      split
      · rfl
      · rename_i hnone
        have hbehind := lookup?_append_of_none hne (Option.not_isSome_iff_eq_none.1 hnone) more
        rw [hbehind, h.lookup?_eq_none hbehind]
    · have hsame := h.lookup?_of_covers path
        (hcovers.resolve_right (not_append_cons_isPrefix path next rest))
      by_cases hinner : ∃ inner, source.lookup? path = some (.document inner)
      · obtain ⟨inner, hinner⟩ := hinner
        -- All of this document has been copied before, so a path in it adds nothing.
        rw [lookup?_append_copyPath hinner, inside_of_document (hsame.trans hinner), copyPath_self,
          hinner]
      · rw [lookup?_append_copyPath_of_not_document (not_exists.1 hinner), hsame]
    · rw [actsAlong_copyPath.lookup?_of_apart hcopied hpath,
        h.lookup?_of_covers path (hcovers.resolve_right hcopied)]
  case document_of_precedes =>
    intro path inner hcovers hprecedes hinner
    rw [covers_append_singleton_iff, not_or] at hcovers
    rw [precedes_append_singleton_iff] at hprecedes
    rcases prefix_cases copied path with ⟨more, rfl⟩ | ⟨next, rest, rfl⟩ | ⟨hcopied, hpath⟩
    · exact absurd (List.prefix_append copied more) hcovers.2
    · exact ⟨_, lookup?_append_copyPath hinner target next rest⟩
    · rw [actsAlong_copyPath.lookup?_of_apart hcopied hpath]
      exact h.document_of_precedes path inner hcovers.1
        (hprecedes.resolve_right fun hwithin => hpath hwithin.1) hinner
  case lookup?_of_not_precedes =>
    intro path hcovers hneither
    rw [covers_append_singleton_iff, not_or] at hcovers
    rw [precedes_append_singleton_iff] at hneither
    have hnone : target.lookup? path = none :=
      h.lookup?_of_not_precedes path hcovers.1 fun hboth => hneither ⟨.inl hboth.1, hboth.2⟩
    rcases prefix_cases copied path with ⟨more, rfl⟩ | ⟨next, rest, rfl⟩ | ⟨hcopied, hpath⟩
    · exact absurd (List.prefix_append copied more) hcovers.2
    · have hprecedes : path <+: path ++ next :: rest ∧ path ≠ path ++ next :: rest := by simp
      rw [lookup?_append_copyPath_of_not_document
        fun inner hinner => hneither ⟨.inr hprecedes, inner, hinner⟩, hnone]
    · rw [actsAlong_copyPath.lookup?_of_apart hcopied hpath, hnone]

/-- More paths are copied, one after the other. -/
theorem copyPaths (h : Selects paths source target) (included : List String) :
    Selects (paths ++ included.map Text.pathKeys) source (copyPaths source target included) := by
  induction included generalizing paths target with
  | nil =>
    rw [List.map_nil, List.append_nil]
    exact h
  | cons first included ih =>
    have hfirst := ih (h.copyPath (Text.pathKeys_ne_nil first))
    rw [List.map_cons, List.append_cons]
    exact hfirst

end Selects

/-! ## Exclusions -/

/-- Removes some paths, one after the other. -/
def removePaths (document : Document) (paths : List String) : Document :=
  paths.foldl (fun left path => removePath left (Text.pathKeys path)) document

/-- `shown` has nothing of `source` that the paths lead to, and all of the rest:
the same values, and documents with the other keys in the same order. -/
structure Spares (paths : List (List String)) (source shown : Document) : Prop where
  keys_eq : shown.keys = source.keys.filter fun key => ¬ Covers paths [key]
  lookup?_of_covers : ∀ path, Covers paths path → shown.lookup? path = none
  lookup?_of_not_document : ∀ path, ¬ Covers paths path →
    (∀ inner, source.lookup? path ≠ some (.document inner)) →
      shown.lookup? path = source.lookup? path
  document_of_document : ∀ path (inner : Document), ¬ Covers paths path →
    source.lookup? path = some (.document inner) →
      ∃ kept : Document, shown.lookup? path = some (.document kept) ∧
        kept.keys = inner.keys.filter fun key => ¬ Covers paths (path ++ [key])

theorem spares_nil (source : Document) : Spares [] source source := by
  have hnot : ∀ path, ¬ Covers [] path := by simp [Covers]
  constructor
  case keys_eq => simp [hnot]
  case lookup?_of_covers => exact fun path hcovers => absurd hcovers (hnot path)
  case lookup?_of_not_document => exact fun path _ _ => rfl
  case document_of_document => exact fun path inner _ hinner => ⟨inner, hinner, by simp [hnot]⟩

namespace Spares

/-- A path has something if it had and none of the removed paths leads there. -/
theorem isSome_lookup?_iff (h : Spares paths source shown) (path : List String) :
    (shown.lookup? path).isSome ↔ (source.lookup? path).isSome ∧ ¬ Covers paths path := by
  by_cases hcovers : Covers paths path
  · simp [h.lookup?_of_covers path hcovers, hcovers]
  · by_cases hinner : ∃ inner, source.lookup? path = some (.document inner)
    · obtain ⟨inner, hinner⟩ := hinner
      obtain ⟨kept, hkept, -⟩ := h.document_of_document path inner hcovers hinner
      simp [hinner, hkept, hcovers]
    · rw [h.lookup?_of_not_document path hcovers (not_exists.1 hinner)]
      simp [hcovers]

/-- One more path is removed. -/
theorem removePath {removed : List String} (h : Spares paths source target) (hne : removed ≠ []) :
    Spares (paths ++ [removed]) source (removePath target removed) := by
  constructor
  case keys_eq =>
    rw [keys_removePath hne, h.keys_eq, List.filter_filter]
    refine List.filter_congr fun name _ => ?_
    simp [covers_append_singleton_iff, and_comm]
  case lookup?_of_covers =>
    intro path hcovers
    rw [covers_append_singleton_iff] at hcovers
    rcases prefix_cases removed path with ⟨more, rfl⟩ | ⟨next, rest, rfl⟩ | ⟨hremoved, hpath⟩
    · exact lookup?_removePath_append hne target more
    · have hnone := h.lookup?_of_covers path
        (hcovers.resolve_right (not_append_cons_isPrefix path next rest))
      rw [lookup?_append_removePath_of_not_document (by simp [hnone]), hnone]
    · rw [actsAlong_removePath.lookup?_of_apart hremoved hpath source target,
        h.lookup?_of_covers path (hcovers.resolve_right hremoved)]
  case lookup?_of_not_document =>
    intro path hcovers hvalue
    rw [covers_append_singleton_iff, not_or] at hcovers
    have hsame := h.lookup?_of_not_document path hcovers.1 hvalue
    rcases prefix_cases removed path with ⟨more, rfl⟩ | ⟨next, rest, rfl⟩ | ⟨hremoved, hpath⟩
    · exact absurd (List.prefix_append removed more) hcovers.2
    · rw [lookup?_append_removePath_of_not_document (hsame ▸ hvalue), hsame]
    · rw [actsAlong_removePath.lookup?_of_apart hremoved hpath source target, hsame]
  case document_of_document =>
    intro path inner hcovers hinner
    rw [covers_append_singleton_iff, not_or] at hcovers
    obtain ⟨kept, hkept, hkeys⟩ := h.document_of_document path inner hcovers.1 hinner
    rcases prefix_cases removed path with ⟨more, rfl⟩ | ⟨next, rest, rfl⟩ | ⟨hremoved, hpath⟩
    · exact absurd (List.prefix_append removed more) hcovers.2
    · refine ⟨_, lookup?_append_removePath hkept next rest, ?_⟩
      rw [keys_removePath (by simp), hkeys, List.filter_filter]
      refine List.filter_congr fun name _ => ?_
      simp [covers_append_singleton_iff, List.prefix_append_right_inj, Bool.and_comm]
    · refine ⟨kept, (actsAlong_removePath.lookup?_of_apart hremoved hpath source target).trans hkept, ?_⟩
      rw [hkeys]
      refine List.filter_congr fun name _ => ?_
      have hname : ¬ removed <+: path ++ [name] := by
        rw [List.prefix_concat_iff, not_or]
        exact ⟨fun heq => hpath (heq ▸ List.prefix_append path [name]), hremoved⟩
      simp [covers_append_singleton_iff, hname]

/-- More paths are removed, one after the other. -/
theorem removePaths (h : Spares paths source target) (excluded : List String) :
    Spares (paths ++ excluded.map Text.pathKeys) source (removePaths target excluded) := by
  induction excluded generalizing paths target with
  | nil =>
    rw [List.map_nil, List.append_nil]
    exact h
  | cons first excluded ih =>
    have hfirst := ih (h.removePath (Text.pathKeys_ne_nil first))
    rw [List.map_cons, List.append_cons]
    exact hfirst

end Spares

end Document

/-! ## Projections -/

namespace Projection

variable {projection : Projection} {document shown : Document}

/-- The paths that a projection includes, and that of the identifier unless it is
excluded. -/
def includedPaths (projection : Projection) : List (List String) :=
  (marked true projection.entries).map Text.pathKeys ++
    if Bookkeeping.idField ∈ marked false projection.entries then [] else [[Bookkeeping.idField]]

/-- The paths that a projection excludes. -/
def excludedPaths (projection : Projection) : List (List String) :=
  (marked false projection.entries).map Text.pathKeys

/-- A projection is applied if all of its values are markers and it does not
exclude more than the identifier from what it includes. -/
theorem apply_eq_ok_iff :
    projection.apply document = .ok shown ↔
      (∀ entry ∈ projection.entries, (marker? entry.2).isSome) ∧
        (marked true projection.entries = [] ∧
            shown = document.removePaths (marked false projection.entries) ∨
          marked true projection.entries ≠ [] ∧
            (∀ path ∈ marked false projection.entries, path = Bookkeeping.idField) ∧
            shown = document.copyPaths
              (impliedId ⟨marked true projection.entries, marked false projection.entries⟩ document)
              (marked true projection.entries)) := by
  have hmarkers : (∀ entry ∈ projection.entries, (marker? entry.2).isSome) ↔
      projection.entries.find? (fun entry => (marker? entry.2).isNone) = none := by
    simp [List.find?_eq_none, Option.isSome_iff_ne_none]
  rw [hmarkers, apply, markedPaths_eq]
  cases projection.entries.find? fun entry => (marker? entry.2).isNone with
  | some entry => simp
  | none =>
    generalize marked true projection.entries = included
    generalize marked false projection.entries = excluded
    cases included with
    | nil => simp [Document.removePaths, eq_comm]
    | cons first included =>
      simp only [List.isEmpty_cons, Bool.false_eq_true, if_false]
      cases hmixed : excluded.any fun path => path ≠ Bookkeeping.idField with
      | true =>
        have hother : ¬ ∀ path ∈ excluded, path = Bookkeeping.idField := by simpa using hmixed
        simp [hother]
      | false =>
        have hid : ∀ path ∈ excluded, path = Bookkeeping.idField := by simpa using hmixed
        constructor
        · intro h
          exact ⟨trivial, .inr ⟨List.cons_ne_nil first included, hid, (Except.ok.inj h).symm⟩⟩
        · rintro ⟨-, ⟨hnil, -⟩ | ⟨-, -, rfl⟩⟩
          · cases hnil
          · rfl

theorem pathKeys_idField : Text.pathKeys Bookkeeping.idField = [Bookkeeping.idField] :=
  Text.pathKeys_eq_singleton (by decide)

/-- The identifier that comes along is a copy of its path. -/
theorem selects_impliedId (paths : MarkedPaths) (document : Document) :
    Document.Selects
      (if paths.excluded.contains Bookkeeping.idField || paths.included.contains Bookkeeping.idField
        then [] else [[Bookkeeping.idField]])
      document (impliedId paths document) := by
  rw [impliedId]
  split
  · exact Document.selects_nil document
  · have hcopy := (Document.selects_nil document).copyPath (List.cons_ne_nil Bookkeeping.idField [])
    rw [Document.copyPath] at hcopy
    exact hcopy

/-- What inclusions select: the paths that are included, and that of the identifier
unless it is excluded. -/
theorem selects_of_apply (h : projection.apply document = .ok shown)
    (hincluded : marked true projection.entries ≠ []) :
    Document.Selects projection.includedPaths document shown := by
  obtain ⟨-, ⟨hnone, -⟩ | ⟨-, -, rfl⟩⟩ := apply_eq_ok_iff.1 h
  · exact absurd hnone hincluded
  · have himplied := selects_impliedId
      ⟨marked true projection.entries, marked false projection.entries⟩ document
    refine (himplied.copyPaths (marked true projection.entries)).congr fun listed => ?_
    simp only [includedPaths, List.mem_append, List.contains_eq_mem, Bool.or_eq_true,
      decide_eq_true_eq]
    by_cases hexcluded : Bookkeeping.idField ∈ marked false projection.entries
    · simp [hexcluded]
    · by_cases hmentioned : Bookkeeping.idField ∈ marked true projection.entries
      · have hmem := List.mem_map_of_mem (f := Text.pathKeys) hmentioned
        rw [pathKeys_idField] at hmem
        simp only [hexcluded, hmentioned, or_true, if_true, if_false, List.not_mem_nil, false_or,
          List.mem_singleton]
        exact ⟨.inl, fun h => h.elim id fun heq => heq ▸ hmem⟩
      · simp [hexcluded, hmentioned, or_comm]

/-- What exclusions leave. -/
theorem spares_of_apply (h : projection.apply document = .ok shown)
    (hincluded : marked true projection.entries = []) :
    Document.Spares projection.excludedPaths document shown := by
  obtain ⟨-, ⟨-, rfl⟩ | ⟨hsome, -⟩⟩ := apply_eq_ok_iff.1 h
  · exact (Document.spares_nil document).removePaths (marked false projection.entries)
  · exact absurd hincluded hsome

/-- A projection is applied if all of its values are markers and it includes nothing
or excludes nothing but the identifier.  If it includes something, then the result
has what the included paths lead to, the documents on the way there, and nothing
else.  If it includes nothing, then the result is what the excluded paths do not
lead to, with the same values, in the same order. -/
theorem apply_selects (projection : Projection) (document : Document) :
    ((∃ shown, projection.apply document = .ok shown) ↔
      (∀ entry ∈ projection.entries, (marker? entry.2).isSome) ∧
        (marked true projection.entries = [] ∨
          ∀ path ∈ marked false projection.entries, path = Bookkeeping.idField)) ∧
    ∀ shown, projection.apply document = .ok shown →
      (marked true projection.entries ≠ [] →
        Document.Selects projection.includedPaths document shown) ∧
      (marked true projection.entries = [] →
        Document.Spares projection.excludedPaths document shown ∧
          ∀ path, (shown.lookup? path).isSome ↔
            (document.lookup? path).isSome ∧
              ¬ Document.Covers projection.excludedPaths path) := by
  refine ⟨?_, fun shown h => ⟨selects_of_apply h, fun hincluded => ?_⟩⟩
  · simp only [apply_eq_ok_iff, exists_and_left, exists_or, exists_eq, and_true]
    refine and_congr_right fun _ => ?_
    by_cases hincluded : marked true projection.entries = [] <;> simp [hincluded]
  · have hspares := spares_of_apply h hincluded
    exact ⟨hspares, hspares.isSome_lookup?_iff⟩

/-- A book with what is known of its edition. -/
def shownBook : Document := [
  ("_id", .int32 7), ("meta", .document [("isbn", .string "x1"), ("lang", .string "en")]),
  ("pages", .int32 412)]

/-- All of the edition is shown, although a part of it is included as well.  Without
that part the book keeps the rest in order. -/
theorem apply_selects_overlapping :
    (∃ shown, apply ⟨[("meta.isbn", .int32 1), ("meta", .int32 1), ("_id", .int32 0)]⟩ shownBook =
        .ok shown ∧
      shown.lookup? ["meta", "lang"] = some (.string "en") ∧ shown.lookup? ["_id"] = none) ∧
    ∃ shown, apply ⟨[("meta.isbn", .int32 0)]⟩ shownBook = .ok shown ∧
      shown.keys = ["_id", "meta", "pages"] ∧ shown.lookup? ["meta", "isbn"] = none := by
  constructor
  · obtain ⟨hsucceeds, hshown⟩ := apply_selects
      ⟨[("meta.isbn", .int32 1), ("meta", .int32 1), ("_id", .int32 0)]⟩ shownBook
    obtain ⟨shown, happly⟩ := hsucceeds.2 ⟨by decide +kernel, by decide +kernel⟩
    have hselects := (hshown shown happly).1 (by decide +kernel)
    refine ⟨shown, happly, ?_, ?_⟩
    · exact hselects.lookup?_of_covers ["meta", "lang"] (by decide +kernel)
    · exact hselects.lookup?_of_not_precedes ["_id"] (by decide +kernel) fun ⟨_, _, h⟩ => by cases h
  · obtain ⟨hsucceeds, hshown⟩ := apply_selects ⟨[("meta.isbn", .int32 0)]⟩ shownBook
    obtain ⟨shown, happly⟩ := hsucceeds.2 ⟨by decide +kernel, by decide +kernel⟩
    have hspares := ((hshown shown happly).2 (by decide +kernel)).1
    refine ⟨shown, happly, ?_, ?_⟩
    · rw [hspares.keys_eq]
      decide +kernel
    · exact hspares.lookup?_of_covers ["meta", "isbn"] (by decide +kernel)

end Projection

end DocGate
