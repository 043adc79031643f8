import DocGate.Text.Blank

/-!
# Splitting at a separator

Comma-separated lists of names, as callers send them, and dotted paths into
documents.  `join_splitChars` says that splitting loses nothing.
-/

namespace DocGate

namespace Text

/-- The parts of `cs` between the separators; there is always at least one. -/
def splitChars (sep : Char) : List Char → List (List Char)
  | [] => [[]]
  | c :: cs =>
    if c = sep then [] :: splitChars sep cs
    else
      match splitChars sep cs with
      | [] => [[c]]
      | part :: parts => (c :: part) :: parts

/-- The parts of `text` between the separators, in order. -/
def split (sep : Char) (text : String) : List String :=
  (splitChars sep text.toList).map String.ofList

/-- The items of a comma-separated list: trimmed, the empty ones dropped. -/
def listItems (text : String) : List String :=
  ((splitChars ',' text.toList).map trimChars).filterMap fun item =>
    if item.isEmpty then none else some (String.ofList item)

/-- The keys of a dotted path, from the outside in. -/
def pathKeys (path : String) : List String :=
  split '.' path

/-- The first key of a dotted path: what stands before the first dot. -/
def pathRoot (path : String) : String :=
  String.ofList (path.toList.takeWhile (· ≠ '.'))

/-- Whether `text` starts with a dollar sign. -/
def startsWithDollar (text : String) : Bool :=
  text.toList.head? == some '$'

theorem splitChars_ne_nil (sep : Char) (cs : List Char) : splitChars sep cs ≠ [] := by
  cases cs with
  | nil => simp [splitChars]
  | cons c cs =>
    simp only [splitChars]
    split
    · simp
    · split <;> simp

/-- Splitting loses nothing: the parts joined by the separator are the text. -/
theorem join_splitChars (sep : Char) (cs : List Char) :
    [sep].intercalate (splitChars sep cs) = cs := by
  induction cs with
  | nil => simp [splitChars]
  | cons c cs ih =>
    simp only [splitChars]
    split
    · rename_i h
      subst h
      cases hs : splitChars c cs with
      | nil => exact absurd hs (splitChars_ne_nil c cs)
      | cons part parts =>
        rw [hs] at ih
        rw [List.intercalate_cons_cons, ih]
        rfl
    · cases hs : splitChars sep cs with
      | nil => exact absurd hs (splitChars_ne_nil sep cs)
      | cons part parts =>
        rw [hs] at ih
        cases parts with
        | nil => simpa using ih
        | cons second rest =>
          rw [List.intercalate_cons_cons] at ih ⊢
          simp only [List.cons_append, ih]

/-- What has no separator is the only part. -/
theorem splitChars_of_not_mem {sep : Char} {cs : List Char} (h : sep ∉ cs) :
    splitChars sep cs = [cs] := by
  induction cs with
  | nil => rfl
  | cons c cs ih =>
    rw [List.mem_cons, not_or] at h
    rw [splitChars, if_neg (Ne.symm h.1), ih h.2]

/-- What has a separator has a second part. -/
theorem splitChars_of_mem {sep : Char} {cs : List Char} (h : sep ∈ cs) :
    ∃ first second parts, splitChars sep cs = first :: second :: parts := by
  induction cs with
  | nil => cases h
  | cons c cs ih =>
    rw [splitChars]
    split
    · obtain ⟨second, parts, hparts⟩ := List.exists_cons_of_ne_nil (splitChars_ne_nil sep cs)
      exact ⟨[], second, parts, by rw [hparts]⟩
    · rename_i hne
      obtain ⟨first, second, parts, hparts⟩ := ih ((List.mem_cons.1 h).resolve_left (Ne.symm hne))
      exact ⟨c :: first, second, parts, by rw [hparts]⟩

/-- The first part is what stands before the first separator. -/
theorem splitChars_eq_cons (sep : Char) (cs : List Char) :
    ∃ parts, splitChars sep cs = cs.takeWhile (· ≠ sep) :: parts := by
  induction cs with
  | nil => exact ⟨[], rfl⟩
  | cons c cs ih =>
    obtain ⟨parts, hparts⟩ := ih
    rw [splitChars]
    split
    · rename_i h
      exact ⟨splitChars sep cs, by simp [h]⟩
    · rename_i h
      exact ⟨parts, by simp [hparts, h]⟩

/-- The keys of a path begin with its root. -/
theorem pathKeys_eq_cons (path : String) : ∃ rest, pathKeys path = pathRoot path :: rest := by
  obtain ⟨parts, hparts⟩ := splitChars_eq_cons '.' path.toList
  exact ⟨parts.map String.ofList, by rw [pathKeys, split, hparts]; rfl⟩

theorem pathKeys_ne_nil (path : String) : pathKeys path ≠ [] := by
  obtain ⟨rest, hkeys⟩ := pathKeys_eq_cons path
  rw [hkeys]
  exact List.cons_ne_nil _ _

/-- A path without a dot is its only key. -/
theorem pathKeys_eq_singleton {path : String} (h : '.' ∉ path.toList) : pathKeys path = [path] := by
  rw [pathKeys, split, splitChars_of_not_mem h, List.map_singleton, String.ofList_toList]

/-- A path with a dot has a key behind its root. -/
theorem pathKeys_eq_cons_cons {path : String} (h : '.' ∈ path.toList) :
    ∃ next rest, pathKeys path = pathRoot path :: next :: rest := by
  obtain ⟨first, second, parts, hparts⟩ := splitChars_of_mem h
  obtain ⟨keys, hkeys⟩ := pathKeys_eq_cons path
  have hsplit : pathKeys path = String.ofList first :: String.ofList second :: parts.map String.ofList := by
    rw [pathKeys, split, hparts]
    rfl
  obtain ⟨hroot, -⟩ := List.cons.inj (hkeys.symm.trans hsplit)
  exact ⟨_, _, hroot ▸ hsplit⟩

/-- A path without a dot is its own root. -/
theorem pathRoot_eq_self {path : String} (h : '.' ∉ path.toList) : pathRoot path = path := by
  obtain ⟨rest, hkeys⟩ := pathKeys_eq_cons path
  rw [pathKeys_eq_singleton h] at hkeys
  exact (List.cons.inj hkeys).1.symm

theorem dot_not_mem_pathRoot (path : String) : '.' ∉ (pathRoot path).toList := by
  rw [pathRoot, String.toList_ofList]
  intro hmem
  have hall := List.all_eq_true.1 (List.all_takeWhile (l := path.toList)) '.' hmem
  simp at hall

/-- A root has no dot, so it is its own root. -/
theorem pathRoot_pathRoot (path : String) : pathRoot (pathRoot path) = pathRoot path :=
  pathRoot_eq_self (dot_not_mem_pathRoot path)

end Text

end DocGate
