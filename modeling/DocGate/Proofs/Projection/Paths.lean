import DocGate.Filter.Eval
import DocGate.Projection.Apply

/-!
# Copies and removals, path by path

What a document has at each path after one path is copied into it
(`Document.copyPath`) or removed from it (`Document.removePath`).  Any other path
stands in one of three ways to that one:

* neither leads to the other: nothing changes (`ActsAlong.lookup?_of_apart`);
* it goes on from there: it has what the source has, if the source has anything
  (`lookup?_copyPath_append`), and nothing after a removal
  (`lookup?_removePath_append`);
* it leads there: if there is a document, the rest of the path is copied or
  removed in that (`lookup?_append_copyPath`, `lookup?_append_removePath`).

The inductions go down the path that is copied or removed.  `ActsAlong` is one step
of them: in the document under the first key the rest of the path is copied or
removed.  To have one equation for all cases, what is no document counts as an empty
one there.
-/

namespace DocGate

namespace Document

variable {document document' source target : Document} {key other : String}
  {path : List String}

/-! ## Values at paths -/

/-- The document at a path, and the empty one if there is none. -/
def inside (document : Document) (path : List String) : Document :=
  match document.lookup? path with
  | some (.document inner) => inner
  | _ => []

theorem inside_of_document {inner : Document} (h : document.lookup? path = some (.document inner)) :
    document.inside path = inner := by
  rw [inside, h]

theorem inside_of_not_document (h : ∀ inner, document.lookup? path ≠ some (.document inner)) :
    document.inside path = [] := by
  rw [inside]
  split
  · rename_i inner hinner
    exact absurd hinner (h inner)
  · rfl

theorem lookup?_empty (path : List String) : lookup? [] path = none := by
  cases path with
  | nil => rfl
  | cons key rest => cases rest <;> rfl

theorem lookup?_cons_cons (document : Document) (key next : String) (rest : List String) :
    document.lookup? (key :: next :: rest) = (document.inside [key]).lookup? (next :: rest) := by
  rw [lookup?, inside, lookup?]
  cases document.get? key with
  | none => exact (lookup?_empty _).symm
  | some value => cases value <;> first | rfl | exact (lookup?_empty _).symm

theorem inside_cons_cons (document : Document) (key next : String) (rest : List String) :
    document.inside (key :: next :: rest) = (document.inside [key]).inside (next :: rest) := by
  rw [inside, inside, lookup?_cons_cons]

/-- What is at a path depends on the field that the path begins with. -/
theorem lookup?_congr (h : document.get? key = document'.get? key) (rest : List String) :
    document.lookup? (key :: rest) = document'.lookup? (key :: rest) := by
  cases rest with
  | nil => exact h
  | cons next rest => rw [lookup?_cons_cons, lookup?_cons_cons, inside, inside, lookup?, lookup?, h]

/-- Behind a path at which there is nothing there is nothing. -/
theorem lookup?_append_of_none (hne : path ≠ []) (h : document.lookup? path = none)
    (more : List String) : document.lookup? (path ++ more) = none := by
  induction path generalizing document with
  | nil => exact absurd rfl hne
  | cons key rest ih =>
    obtain _ | ⟨next, rest⟩ := rest
    · have hget : document.get? key = Assoc.get? [] key := h
      exact (lookup?_congr hget more).trans (lookup?_empty _)
    · rw [lookup?_cons_cons] at h
      exact (lookup?_cons_cons document key next (rest ++ more)).trans (ih (by simp) h)

/-! ## Changes along a path -/

/-- A change of a document along a path, which may look at another document.  It
touches no field but the one that the path begins with, and in the document under this
key it is the change along the rest of the path. -/
structure ActsAlong (change : Document → Document → List String → Document) : Prop where
  get?_of_ne : ∀ (source target : Document) {key other : String} (rest : List String),
    key ≠ other → (change source target (key :: rest)).get? other = target.get? other
  inside_cons_cons : ∀ (source target : Document) (key next : String) (rest : List String),
    (change source target (key :: next :: rest)).inside [key] =
      change (source.inside [key]) (target.inside [key]) (next :: rest)

theorem ActsAlong.lookup?_of_apart {change : Document → Document → List String → Document}
    (h : ActsAlong change) {along : List String} (halong : ¬ along <+: path)
    (hpath : ¬ path <+: along) (source target : Document) :
    (change source target along).lookup? path = target.lookup? path := by
  induction along generalizing source target path with
  | nil => exact absurd List.nil_prefix halong
  | cons key rest ih =>
    obtain _ | ⟨other, more⟩ := path
    · exact absurd List.nil_prefix hpath
    by_cases hkey : key = other
    · subst hkey
      rw [List.prefix_cons_inj] at halong hpath
      obtain _ | ⟨next, rest⟩ := rest
      · exact absurd List.nil_prefix halong
      obtain _ | ⟨next', more⟩ := more
      · exact absurd List.nil_prefix hpath
      rw [lookup?_cons_cons, h.inside_cons_cons, ih halong hpath, lookup?_cons_cons]
    · exact lookup?_congr (h.get?_of_ne source target rest hkey) more

/-! ## Copies -/

theorem copyPath_empty (target : Document) (path : List String) : copyPath [] target path = target := by
  cases path with
  | nil => rfl
  | cons key rest => cases rest <;> rfl

theorem get?_copyPath_of_ne (hne : key ≠ other) (rest : List String) :
    (copyPath source target (key :: rest)).get? other = target.get? other := by
  cases rest with
  | nil =>
    rw [copyPath]
    split
    · exact Assoc.get?_set_of_ne target _ hne
    · rfl
  | cons next rest =>
    rw [copyPath]
    split
    · exact Assoc.get?_set_of_ne target _ hne
    · rfl

theorem get?_copyPath_singleton (source target : Document) (key : String) :
    (copyPath source target [key]).get? key = (source.get? key).or (target.get? key) := by
  rw [copyPath]
  cases source.get? key with
  | none => rfl
  | some value => exact Assoc.get?_set_self target key value

/-- A path that leads through a document is copied in there. -/
theorem copyPath_cons_cons {inner : Document} (h : source.get? key = some (.document inner))
    (target : Document) (next : String) (rest : List String) :
    copyPath source target (key :: next :: rest) =
      target.set key (.document (copyPath inner (target.inside [key]) (next :: rest))) := by
  rw [copyPath, h]
  rfl

/-- A path that does not lead through a document is not copied. -/
theorem copyPath_cons_cons_of_not_document (h : ∀ inner, source.get? key ≠ some (.document inner))
    (target : Document) (next : String) (rest : List String) :
    copyPath source target (key :: next :: rest) = target := by
  rw [copyPath]
  split
  · rename_i inner heq
    exact absurd heq (h inner)
  · rfl

/-- In the document under the first key the rest of the path is copied. -/
theorem inside_copyPath (source target : Document) (key next : String) (rest : List String) :
    (copyPath source target (key :: next :: rest)).inside [key] =
      copyPath (source.inside [key]) (target.inside [key]) (next :: rest) := by
  by_cases hinner : ∃ inner, source.get? key = some (.document inner)
  · obtain ⟨inner, hinner⟩ := hinner
    rw [copyPath_cons_cons hinner, @inside_of_document source [key] inner hinner]
    exact inside_of_document (Assoc.get?_set_self target key _)
  · have hnone := not_exists.1 hinner
    rw [copyPath_cons_cons_of_not_document hnone, @inside_of_not_document source [key] hnone,
      copyPath_empty]

theorem actsAlong_copyPath : ActsAlong copyPath where
  get?_of_ne _ _ _ _ rest hne := get?_copyPath_of_ne hne rest
  inside_cons_cons := inside_copyPath

/-- A document has all of its own paths already. -/
theorem copyPath_self (document : Document) (path : List String) :
    copyPath document document path = document := by
  induction path generalizing document with
  | nil => rfl
  | cons key rest ih =>
    cases rest with
    | nil =>
      rw [copyPath]
      split
      · rename_i value hvalue
        exact Assoc.set_of_get?_eq_some hvalue
      · rfl
    | cons next rest =>
      by_cases hinner : ∃ inner, document.get? key = some (.document inner)
      · obtain ⟨inner, hinner⟩ := hinner
        rw [copyPath_cons_cons hinner, @inside_of_document document [key] inner hinner, ih,
          Assoc.set_of_get?_eq_some hinner]
      · exact copyPath_cons_cons_of_not_document (not_exists.1 hinner) document next rest

theorem lookup?_copyPath_append (source target : Document) (copied more : List String) :
    (copyPath source target copied).lookup? (copied ++ more) =
      if (source.lookup? copied).isSome then source.lookup? (copied ++ more)
      else target.lookup? (copied ++ more) := by
  induction copied generalizing source target with
  | nil => rfl
  | cons key rest ih =>
    obtain _ | ⟨next, rest⟩ := rest
    · rw [lookup?]
      cases hget : source.get? key with
      | none => exact lookup?_congr (by rw [get?_copyPath_singleton, hget, Option.none_or]) more
      | some value =>
        exact lookup?_congr (by rw [get?_copyPath_singleton, hget, Option.some_or]) more
    · have hrest := ih (source.inside [key]) (target.inside [key])
      simp only [List.cons_append, lookup?_cons_cons, inside_copyPath] at hrest ⊢
      exact hrest

theorem lookup?_append_copyPath {inner : Document}
    (h : source.lookup? path = some (.document inner)) (target : Document) (next : String)
    (rest : List String) :
    (copyPath source target (path ++ next :: rest)).lookup? path =
      some (.document (copyPath inner (target.inside path) (next :: rest))) := by
  induction path generalizing source target with
  | nil => cases h
  | cons key more ih =>
    obtain _ | ⟨key', more⟩ := more
    · rw [List.singleton_append, copyPath_cons_cons h]
      exact Assoc.get?_set_self target key _
    · rw [lookup?_cons_cons] at h
      have hmore := ih h (target.inside [key])
      rw [List.cons_append] at hmore
      rw [List.cons_append, List.cons_append, lookup?_cons_cons, inside_copyPath, inside_cons_cons,
        hmore]

theorem lookup?_append_copyPath_of_not_document
    (h : ∀ inner, source.lookup? path ≠ some (.document inner)) (target : Document) (next : String)
    (rest : List String) :
    (copyPath source target (path ++ next :: rest)).lookup? path = target.lookup? path := by
  induction path generalizing source target with
  | nil => rfl
  | cons key more ih =>
    obtain _ | ⟨key', more⟩ := more
    · rw [List.singleton_append, copyPath_cons_cons_of_not_document h]
    · rw [lookup?_cons_cons] at h
      have hmore := ih h (target.inside [key])
      rw [List.cons_append] at hmore
      rw [List.cons_append, List.cons_append, lookup?_cons_cons, inside_copyPath, hmore,
        lookup?_cons_cons]

/-! ## Removals -/

theorem removePath_empty (path : List String) : removePath [] path = [] := by
  cases path with
  | nil => rfl
  | cons key rest => cases rest <;> rfl

theorem get?_removePath_of_ne (hne : key ≠ other) (rest : List String) :
    (removePath document (key :: rest)).get? other = document.get? other := by
  cases rest with
  | nil => exact Assoc.get?_erase_of_ne document hne
  | cons next rest =>
    rw [removePath]
    split
    · exact Assoc.get?_set_of_ne document _ hne
    · rfl

/-- A path that leads through a document is removed in there. -/
theorem removePath_cons_cons {inner : Document} (h : document.get? key = some (.document inner))
    (next : String) (rest : List String) :
    removePath document (key :: next :: rest) =
      document.set key (.document (removePath inner (next :: rest))) := by
  rw [removePath, h]

/-- Where a path does not lead through a document there is nothing to remove. -/
theorem removePath_cons_cons_of_not_document
    (h : ∀ inner, document.get? key ≠ some (.document inner)) (next : String)
    (rest : List String) : removePath document (key :: next :: rest) = document := by
  rw [removePath]
  split
  · rename_i inner heq
    exact absurd heq (h inner)
  · rfl

/-- In the document under the first key the rest of the path is removed. -/
theorem inside_removePath (document : Document) (key next : String) (rest : List String) :
    (removePath document (key :: next :: rest)).inside [key] =
      removePath (document.inside [key]) (next :: rest) := by
  by_cases hinner : ∃ inner, document.get? key = some (.document inner)
  · obtain ⟨inner, hinner⟩ := hinner
    rw [removePath_cons_cons hinner, @inside_of_document document [key] inner hinner]
    exact inside_of_document (Assoc.get?_set_self document key _)
  · have hnone := not_exists.1 hinner
    rw [removePath_cons_cons_of_not_document hnone, @inside_of_not_document document [key] hnone,
      removePath_empty]

theorem actsAlong_removePath : ActsAlong fun _ => removePath where
  get?_of_ne _ _ _ _ rest hne := get?_removePath_of_ne hne rest
  inside_cons_cons _ := inside_removePath

/-- A removal takes away the key that it leads to, and leaves the others in order. -/
theorem keys_removePath {removed : List String} (hne : removed ≠ []) (document : Document) :
    (removePath document removed).keys =
      document.keys.filter fun name => ¬ removed <+: [name] := by
  match removed with
  | [] => exact absurd rfl hne
  | [key] =>
    rw [removePath, Assoc.keys_erase]
    exact List.filter_congr fun name _ => by simp [eq_comm]
  | key :: next :: rest =>
    have hkeys : (removePath document (key :: next :: rest)).keys = document.keys := by
      by_cases hinner : ∃ inner, document.get? key = some (.document inner)
      · obtain ⟨inner, hinner⟩ := hinner
        rw [removePath_cons_cons hinner, Assoc.keys_set,
          if_pos (Assoc.mem_keys_of_mem (Assoc.mem_of_get?_eq_some hinner))]
      · rw [removePath_cons_cons_of_not_document (not_exists.1 hinner)]
    rw [hkeys]
    exact (List.filter_eq_self.2 fun name _ => by simp).symm

theorem lookup?_removePath_append {removed : List String} (hne : removed ≠ [])
    (document : Document) (more : List String) :
    (removePath document removed).lookup? (removed ++ more) = none := by
  induction removed generalizing document with
  | nil => exact absurd rfl hne
  | cons key rest ih =>
    obtain _ | ⟨next, rest⟩ := rest
    · have hget : (removePath document [key]).get? key = Assoc.get? [] key :=
        Assoc.get?_erase_self document key
      exact (lookup?_congr hget more).trans (lookup?_empty _)
    · rw [List.cons_append, List.cons_append, lookup?_cons_cons, inside_removePath]
      exact ih (by simp) (document.inside [key])

theorem lookup?_append_removePath {inner : Document}
    (h : document.lookup? path = some (.document inner)) (next : String) (rest : List String) :
    (removePath document (path ++ next :: rest)).lookup? path =
      some (.document (removePath inner (next :: rest))) := by
  induction path generalizing document with
  | nil => cases h
  | cons key more ih =>
    obtain _ | ⟨key', more⟩ := more
    · rw [List.singleton_append, removePath_cons_cons h]
      exact Assoc.get?_set_self document key _
    · rw [lookup?_cons_cons] at h
      have hmore := ih h
      rw [List.cons_append] at hmore
      rw [List.cons_append, List.cons_append, lookup?_cons_cons, inside_removePath, hmore]

theorem lookup?_append_removePath_of_not_document
    (h : ∀ inner, document.lookup? path ≠ some (.document inner)) (next : String)
    (rest : List String) :
    (removePath document (path ++ next :: rest)).lookup? path = document.lookup? path := by
  induction path generalizing document with
  | nil => rfl
  | cons key more ih =>
    obtain _ | ⟨key', more⟩ := more
    · rw [List.singleton_append, removePath_cons_cons_of_not_document h]
    · rw [lookup?_cons_cons] at h
      have hmore := ih h
      rw [List.cons_append] at hmore
      rw [List.cons_append, List.cons_append, lookup?_cons_cons, inside_removePath, hmore,
        lookup?_cons_cons]

end Document

end DocGate
