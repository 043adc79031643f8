/-!
# Named values in order

An association list is the content of everything here that maps names to
values and remembers their order: the members of a JSON object, the entries
of a stored document, the properties of a schema, the collections of a store.

A new name goes last and a known name keeps its position, so the list shows
the order in which names were first written.  That a name occurs at most once
is the predicate `Distinct`, not part of the type.  `set` and `ofList` keep it.
-/

namespace DocGate

/-- Named values in the order in which the names were first written. -/
abbrev Assoc (α : Type) := List (String × α)

namespace Assoc

variable {α : Type}

/-- The names, in order. -/
def keys (entries : Assoc α) : List String :=
  entries.map Prod.fst

/-- Every name occurs at most once. -/
def Distinct (entries : Assoc α) : Prop :=
  entries.keys.Nodup

/-- The value under `key`, if there is one. -/
def get? : Assoc α → String → Option α
  | [], _ => none
  | (name, value) :: rest, key => if name = key then some value else get? rest key

/-- Whether `key` has a value. -/
def contains (entries : Assoc α) (key : String) : Bool :=
  (entries.get? key).isSome

/-- Puts `value` under `key`: in the place of the old value, or last. -/
def set : Assoc α → String → α → Assoc α
  | [], key, value => [(key, value)]
  | (name, old) :: rest, key, value =>
    if name = key then (name, value) :: rest else (name, old) :: set rest key value

/-- Drops `key` and keeps the order of the others. -/
def erase (entries : Assoc α) (key : String) : Assoc α :=
  entries.filter fun entry => entry.1 ≠ key

/-- Writes every entry of `added` into `entries`, from first to last. -/
def setAll (entries added : Assoc α) : Assoc α :=
  added.foldl (fun written entry => written.set entry.1 entry.2) entries

/-- The content written by a list of entries: a repeated name keeps its first
position and takes its last value. -/
def ofList (entries : List (String × α)) : Assoc α :=
  setAll [] entries

/-! ## What reading finds after a write -/

theorem get?_set_self (entries : Assoc α) (key : String) (value : α) :
    (entries.set key value).get? key = some value := by
  induction entries with
  | nil => simp [set, get?]
  | cons entry rest ih =>
    obtain ⟨name, old⟩ := entry
    by_cases h : name = key <;> simp [set, get?, h, ih]

theorem get?_set_of_ne (entries : Assoc α) {key other : String} (value : α) (hne : key ≠ other) :
    (entries.set key value).get? other = entries.get? other := by
  induction entries with
  | nil => simp [set, get?, hne]
  | cons entry rest ih =>
    obtain ⟨name, old⟩ := entry
    by_cases h : name = key
    · subst h
      simp [set, get?, hne]
    · simp [set, get?, h, ih]

/-- What is found is an entry. -/
theorem mem_of_get?_eq_some {entries : Assoc α} {key : String} {value : α}
    (h : entries.get? key = some value) : (key, value) ∈ entries := by
  induction entries with
  | nil => cases h
  | cons entry rest ih =>
    obtain ⟨name, first⟩ := entry
    rw [get?] at h
    split at h
    · rename_i hname
      obtain rfl := Option.some.inj h
      rw [hname]
      exact List.mem_cons_self
    · exact List.mem_cons_of_mem _ (ih h)

/-- The name of an entry is one of the names. -/
theorem mem_keys_of_mem {entries : Assoc α} {key : String} {value : α}
    (h : (key, value) ∈ entries) : key ∈ entries.keys :=
  List.mem_map_of_mem h

/-- A name has no value if it is none of the names. -/
theorem get?_eq_none_iff {entries : Assoc α} {key : String} :
    entries.get? key = none ↔ key ∉ entries.keys := by
  induction entries with
  | nil => simp [get?, keys]
  | cons entry rest ih =>
    obtain ⟨name, first⟩ := entry
    rw [keys] at ih
    by_cases h : name = key
    · simp [get?, keys, h]
    · simp [get?, keys, h, ih, Ne.symm h]

/-- An entry is found under its name if no name occurs twice. -/
theorem get?_eq_some_of_mem {entries : Assoc α} (hd : entries.Distinct) {key : String} {value : α}
    (h : (key, value) ∈ entries) : entries.get? key = some value := by
  induction entries with
  | nil => cases h
  | cons entry rest ih =>
    obtain ⟨name, first⟩ := entry
    obtain ⟨hname, hrest⟩ : name ∉ Assoc.keys rest ∧ Assoc.Distinct rest := List.nodup_cons.1 hd
    rw [get?]
    rcases List.mem_cons.1 h with hfirst | hlater
    · obtain ⟨rfl, rfl⟩ := Prod.mk.inj hfirst
      rw [if_pos rfl]
    · have hne : name ≠ key := fun e => hname (e ▸ mem_keys_of_mem hlater)
      rw [if_neg hne, ih hrest hlater]

/-- A known name keeps its position, a new one goes last. -/
theorem keys_set (entries : Assoc α) (key : String) (value : α) :
    (entries.set key value).keys =
      if key ∈ entries.keys then entries.keys else entries.keys ++ [key] := by
  induction entries with
  | nil => simp [set, keys]
  | cons entry rest ih =>
    obtain ⟨name, old⟩ := entry
    simp only [keys] at ih
    by_cases h : name = key
    · simp [set, keys, h]
    · have hk : ¬ key = name := fun e => h e.symm
      by_cases hm : key ∈ rest.map Prod.fst <;> simp [set, keys, h, hk, hm, ih]

theorem distinct_set {entries : Assoc α} (hd : entries.Distinct) (key : String) (value : α) :
    (entries.set key value).Distinct := by
  unfold Distinct at *
  rw [keys_set]
  split
  · exact hd
  · rename_i hm
    exact List.nodup_append.2 ⟨hd, by simp, by simp; exact fun a ha e => hm (e ▸ ha)⟩

theorem distinct_setAll {entries : Assoc α} (hd : entries.Distinct) (added : Assoc α) :
    (entries.setAll added).Distinct := by
  unfold setAll
  induction added generalizing entries with
  | nil => exact hd
  | cons entry rest ih => exact ih (distinct_set hd entry.1 entry.2)

theorem distinct_ofList (entries : List (String × α)) : (ofList entries).Distinct :=
  distinct_setAll (by simp [Distinct, keys]) entries

/-! ## Entries after a write -/

theorem mem_keys_set_iff {entries : Assoc α} {key other : String} {value : α} :
    other ∈ (entries.set key value).keys ↔ other ∈ entries.keys ∨ other = key := by
  rw [keys_set]
  split
  · rename_i hmem
    exact ⟨.inl, fun h => h.elim id fun e => e ▸ hmem⟩
  · simp

/-- Writing the value that a name has changes nothing. -/
theorem set_of_get?_eq_some {entries : Assoc α} {key : String} {value : α}
    (h : entries.get? key = some value) : entries.set key value = entries := by
  induction entries with
  | nil => cases h
  | cons entry rest ih =>
    obtain ⟨name, first⟩ := entry
    rw [get?] at h
    split at h
    · rename_i hname
      rw [set, if_pos hname, Option.some.inj h]
    · rename_i hname
      rw [set, if_neg hname, ih h]

/-- Of two writes to a name the later one counts. -/
theorem set_set (entries : Assoc α) (key : String) (first second : α) :
    (entries.set key first).set key second = entries.set key second := by
  induction entries with
  | nil => simp [set]
  | cons entry rest ih =>
    obtain ⟨name, old⟩ := entry
    by_cases h : name = key
    · simp [set, h]
    · simp [set, h, ih]

/-- A dropped name has no value. -/
theorem get?_erase_self (entries : Assoc α) (key : String) : (entries.erase key).get? key = none := by
  rw [get?_eq_none_iff]
  simp [keys, erase]

/-- The other names keep their values. -/
theorem get?_erase_of_ne (entries : Assoc α) {key other : String} (hne : key ≠ other) :
    (entries.erase key).get? other = entries.get? other := by
  induction entries with
  | nil => rfl
  | cons entry rest ih =>
    obtain ⟨name, first⟩ := entry
    rw [erase] at ih
    by_cases hname : name = key
    · have hother : name ≠ other := fun e => hne (hname.symm.trans e)
      rw [erase, List.filter_cons_of_neg (by simp [hname]), ih, get?, if_neg hother]
    · rw [erase, List.filter_cons_of_pos (by simp [hname]), get?, get?, ih]

/-- The other names keep their order. -/
theorem keys_erase (entries : Assoc α) (key : String) :
    (entries.erase key).keys = entries.keys.filter fun name => name ≠ key := by
  rw [erase, keys, keys, List.filter_map]
  rfl

/-- A change of every value under its name changes the value that is found. -/
theorem get?_map {β : Type} (change : String → α → β) (entries : Assoc α) (key : String) :
    Assoc.get? (entries.map fun entry => (entry.1, change entry.1 entry.2)) key =
      (entries.get? key).map (change key) := by
  induction entries with
  | nil => rfl
  | cons entry rest ih =>
    rw [List.map_cons, get?, get?, ih]
    split
    · rename_i hname
      rw [hname, Option.map_some]
    · rfl

/-- A change of every value under its name goes through a write. -/
theorem map_set {β : Type} (change : String → α → β) (entries : Assoc α) (key : String)
    (value : α) :
    (entries.set key value).map (fun entry => (entry.1, change entry.1 entry.2)) =
      Assoc.set (entries.map fun entry => (entry.1, change entry.1 entry.2)) key
        (change key value) := by
  induction entries with
  | nil => rfl
  | cons entry rest ih =>
    obtain ⟨name, old⟩ := entry
    rw [List.map_cons, set, set]
    split
    · rename_i hname
      rw [List.map_cons, hname]
    · rw [List.map_cons, ih]

/-- A change of every value under its name goes through the removal of a name. -/
theorem map_erase {β : Type} (change : String → α → β) (entries : Assoc α) (key : String) :
    (entries.erase key).map (fun entry => (entry.1, change entry.1 entry.2)) =
      Assoc.erase (entries.map fun entry => (entry.1, change entry.1 entry.2)) key := by
  rw [erase, erase, List.filter_map]
  rfl

/-- Among entries in two parts the first part is searched first. -/
theorem get?_append (entries more : Assoc α) (key : String) :
    Assoc.get? (entries ++ more) key = (entries.get? key).or (more.get? key) := by
  induction entries with
  | nil => rfl
  | cons entry rest ih =>
    obtain ⟨name, first⟩ := entry
    rw [List.cons_append, get?, get?]
    split
    · rfl
    · exact ih

/-- A name is found behind entries with other names. -/
theorem get?_append_cons {before : Assoc α} {key : String} (h : key ∉ before.keys) (value : α)
    (after : Assoc α) : Assoc.get? (before ++ (key, value) :: after) key = some value := by
  rw [get?_append, get?_eq_none_iff.2 h, Option.none_or, get?, if_pos rfl]

/-- A known name behind entries with other names keeps its position. -/
theorem set_append_cons {before : Assoc α} {key : String} (h : key ∉ before.keys) (old value : α)
    (after : Assoc α) :
    Assoc.set (before ++ (key, old) :: after) key value = before ++ (key, value) :: after := by
  induction before with
  | nil => simp [set]
  | cons first rest ih =>
    obtain ⟨name, other⟩ := first
    have hne : name ≠ key := fun e => h (by simp [keys, e])
    have hrest : key ∉ Assoc.keys rest := fun hm => h (List.mem_cons_of_mem _ hm)
    rw [List.cons_append, set, if_neg hne, ih hrest, List.cons_append]

/-- A new name goes last. -/
theorem set_of_not_mem_keys {entries : Assoc α} {key : String} (h : key ∉ entries.keys) (value : α) :
    entries.set key value = entries ++ [(key, value)] := by
  induction entries with
  | nil => rfl
  | cons first rest ih =>
    obtain ⟨name, old⟩ := first
    have hne : name ≠ key := fun e => h (by simp [keys, e])
    have hrest : key ∉ Assoc.keys rest := fun hm => h (List.mem_cons_of_mem _ hm)
    rw [set, if_neg hne, ih hrest]
    rfl

/-- Entries whose names are all new go last, in their order. -/
theorem setAll_eq_append {entries added : Assoc α} (h : Distinct (entries ++ added)) :
    entries.setAll added = entries ++ added := by
  induction added generalizing entries with
  | nil => simp [setAll]
  | cons entry rest ih =>
    have hnodup : ((entries ++ entry :: rest).map Prod.fst).Nodup := h
    have hnew : entry.1 ∉ entries.keys := by
      rw [List.map_append, List.map_cons, List.nodup_append] at hnodup
      exact fun hm => hnodup.2.2 entry.1 hm entry.1 List.mem_cons_self rfl
    have hstep : (entries.set entry.1 entry.2) = entries ++ [entry] :=
      set_of_not_mem_keys hnew entry.2
    have hrest : Distinct ((entries ++ [entry]) ++ rest) := by
      rw [List.append_assoc]
      exact h
    show setAll (entries.set entry.1 entry.2) rest = _
    rw [hstep, ih hrest, List.append_assoc]
    rfl

/-- Entries with distinct names are what they write. -/
theorem ofList_eq_self {entries : Assoc α} (h : entries.Distinct) : ofList entries = entries := by
  have happend : setAll [] entries = [] ++ entries := setAll_eq_append h
  rw [ofList, happend, List.nil_append]

end Assoc

end DocGate
