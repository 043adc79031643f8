import DocGate.Projection.Apply

/-!
# How a projection is applied

What the store does with a projection before it looks at a document.  It sorts
the entries by their markers (`Projection.markedPaths_eq`), and it refuses a
projection for all documents or for none (`Projection.apply_uniform`).
-/

namespace DocGate

namespace Projection

/-! ## Marked paths -/

/-- The paths that some entries include, or those that they exclude. -/
def marked (includes : Bool) (entries : Document) : List String :=
  (entries.filter fun entry => marker? entry.2 == some includes).map Prod.fst

/-- Entries are sorted by their markers, unless one of them has none. -/
theorem markedPaths_eq (entries : Document) :
    markedPaths entries =
      match entries.find? fun entry => (marker? entry.2).isNone with
      | some entry => .error (.computedProjection entry.1)
      | none => .ok ⟨marked true entries, marked false entries⟩ := by
  induction entries with
  | nil => rfl
  | cons entry rest ih =>
    obtain ⟨key, value⟩ := entry
    rw [markedPaths]
    cases hmarker : marker? value with
    | none => simp [hmarker]
    | some includes =>
      simp only [ih, List.find?_cons, hmarker, Option.isNone_some]
      cases rest.find? fun entry => (marker? entry.2).isNone with
      | some other => rfl
      | none => cases includes <;> simp [marked, hmarker]

/-! ## Refusals -/

/-- A projection is applied to every document, or it is refused for all of them
with the same fault. -/
theorem apply_uniform (projection : Projection) :
    (∀ document, ∃ shown, projection.apply document = .ok shown) ∨
      ∃ fault, ∀ document, projection.apply document = .error fault := by
  cases hpaths : markedPaths projection.entries with
  | error fault => exact .inr ⟨fault, fun document => by rw [apply, hpaths]⟩
  | ok paths =>
    by_cases hexclusive : paths.included.isEmpty = true
    · refine .inl fun document => ?_
      simp only [apply, hpaths, hexclusive, if_true]
      exact ⟨_, rfl⟩
    · by_cases hmixed : (paths.excluded.any fun path => path ≠ Bookkeeping.idField) = true
      · refine .inr ⟨.mixedProjection, fun document => ?_⟩
        simp only [apply, hpaths, hexclusive, hmixed, if_true]
        rfl
      · refine .inl fun document => ?_
        simp only [apply, hpaths, hexclusive, hmixed]
        exact ⟨_, rfl⟩

end Projection

end DocGate
