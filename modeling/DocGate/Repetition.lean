/-!
# Lists without repetitions

Names of fields and columns are to occur once.  `hasRepetition` finds out
whether one occurs twice, and `withoutRepeats` keeps each element where it
occurs first.
-/

namespace DocGate

/-- Whether an element occurs twice. -/
def hasRepetition {α : Type} [DecidableEq α] : List α → Bool
  | [] => false
  | item :: rest => rest.contains item || hasRepetition rest

/-- The elements of a list at their first occurrence, without those in `seen`. -/
def withoutRepeats {α : Type} [DecidableEq α] (seen : List α) : List α → List α
  | [] => []
  | item :: rest =>
    if item ∈ seen then withoutRepeats seen rest
    else item :: withoutRepeats (item :: seen) rest

theorem hasRepetition_eq_false_iff {α : Type} [DecidableEq α] (items : List α) :
    hasRepetition items = false ↔ items.Nodup := by
  induction items with
  | nil => simp [hasRepetition]
  | cons item rest ih => simp [hasRepetition, ih]

theorem mem_withoutRepeats_iff {α : Type} [DecidableEq α] (seen items : List α) (a : α) :
    a ∈ withoutRepeats seen items ↔ a ∈ items ∧ a ∉ seen := by
  induction items generalizing seen with
  | nil => simp [withoutRepeats]
  | cons item rest ih =>
    by_cases h : item ∈ seen
    · simp only [withoutRepeats, h, if_true, ih, List.mem_cons]
      constructor
      · rintro ⟨ha, hs⟩
        exact ⟨.inr ha, hs⟩
      · rintro ⟨ha | ha, hs⟩
        · exact absurd (ha ▸ h) hs
        · exact ⟨ha, hs⟩
    · simp only [withoutRepeats, h, if_false, List.mem_cons, ih]
      constructor
      · rintro (rfl | ⟨ha, hs⟩)
        · exact ⟨.inl rfl, h⟩
        · exact ⟨.inr ha, fun hm => hs (.inr hm)⟩
      · rintro ⟨ha | ha, hs⟩
        · exact .inl ha
        · by_cases e : a = item
          · exact .inl e
          · exact .inr ⟨ha, fun hm => hm.elim e hs⟩

/-- Only which elements have been seen matters, not their order. -/
theorem withoutRepeats_congr {α : Type} [DecidableEq α] {seen seen' : List α}
    (h : ∀ a, a ∈ seen ↔ a ∈ seen') (items : List α) :
    withoutRepeats seen items = withoutRepeats seen' items := by
  induction items generalizing seen seen' with
  | nil => rfl
  | cons item rest ih =>
    have hcons : ∀ a, a ∈ item :: seen ↔ a ∈ item :: seen' := fun a => by
      rw [List.mem_cons, List.mem_cons, h a]
    simp only [withoutRepeats, h item]
    split
    · exact ih h
    · rw [ih hcons]

/-- What is left holds no element twice. -/
theorem nodup_withoutRepeats {α : Type} [DecidableEq α] (seen items : List α) :
    (withoutRepeats seen items).Nodup := by
  induction items generalizing seen with
  | nil => simp [withoutRepeats]
  | cons item rest ih =>
    by_cases h : item ∈ seen
    · simp only [withoutRepeats, h, if_true]
      exact ih seen
    · simp only [withoutRepeats, h, if_false, List.nodup_cons]
      exact ⟨fun hm => ((mem_withoutRepeats_iff _ _ _).1 hm).2 (by simp), ih (item :: seen)⟩

end DocGate
