import DocGate.Assoc
import DocGate.Json.Number

/-!
# JSON values

A `Json` is a JSON text understood: strings are texts, every number is an
integer of 64 bits or a double, and a name occurs once in an object.
`Json.ofRaw?` refuses a tree that nests more than 127 arrays and objects, a
string with half a surrogate pair, and a number beyond the finite doubles.

Of members with the same name the first gives the position and the last the
value.
-/

namespace DocGate

/-- A JSON value. -/
inductive Json
  | null
  | bool (value : Bool)
  | integer (value : Int)
  | double (value : Double)
  | string (text : String)
  | array (items : List Json)
  | object (members : List (String × Json))

namespace Json

/-- How many arrays and objects may contain each other. -/
def maxDepth : Nat := 127

/-- The double of a number literal, if it is finite. -/
def finiteDouble? (negative : Bool) (whole : Nat) (fraction : List (Fin 10)) (power : Int) :
    Option Json :=
  (Numeral.toDouble? negative whole fraction power).map .double

/-- The value of a number literal.  An integer literal is an integer if it lies
between the least signed and the greatest unsigned number of 64 bits and is not
`-0`; everything else is a double. -/
def ofNumeral? : Numeral → Option Json
  | .integer negative magnitude =>
    if negative then
      if 0 < magnitude ∧ magnitude ≤ 2 ^ 63 then some (.integer (-magnitude))
      else finiteDouble? true magnitude [] 0
    else
      if magnitude < 2 ^ 64 then some (.integer magnitude)
      else finiteDouble? false magnitude [] 0
  | .decimal negative whole fraction power => finiteDouble? negative whole fraction power

/-- The value of a tree with at most `depth` nested arrays and objects. -/
def ofRawWithin? : Nat → RawJson → Option Json
  | _, .null => some .null
  | _, .bool value => some (.bool value)
  | _, .number value => ofNumeral? value
  | _, .string pieces => (StringPiece.text? pieces).map .string
  | 0, .array _ => none
  | depth + 1, .array items => (items.mapM fun item => ofRawWithin? depth item).map .array
  | 0, .object _ => none
  | depth + 1, .object members =>
    (members.mapM fun (member : List StringPiece × RawJson) => do
      let key ← StringPiece.text? member.1
      let value ← ofRawWithin? depth member.2
      pure (key, value)).map fun entries => .object (Assoc.ofList entries)

/-- The value of a tree. -/
def ofRaw? (raw : RawJson) : Option Json :=
  ofRawWithin? maxDepth raw

/-- A number literal is an integer or a double. -/
theorem ofNumeral?_cases {numeral : Numeral} {value : Json} (h : ofNumeral? numeral = some value) :
    (∃ n, value = .integer n) ∨ ∃ d, value = .double d := by
  have hfinite : ∀ negative whole fraction power,
      finiteDouble? negative whole fraction power = some value → ∃ d, value = .double d := by
    intro negative whole fraction power hdouble
    obtain ⟨d, -, rfl⟩ := Option.map_eq_some_iff.1 hdouble
    exact ⟨d, rfl⟩
  unfold ofNumeral? at h
  split at h
  · split at h
    · split at h
      · exact .inl ⟨_, (Option.some.inj h).symm⟩
      · exact .inr (hfinite _ _ _ _ h)
    · split at h
      · exact .inl ⟨_, (Option.some.inj h).symm⟩
      · exact .inr (hfinite _ _ _ _ h)
  · exact .inr (hfinite _ _ _ _ h)

/-- A number is no object. -/
theorem ofNumeral?_ne_object (value : Numeral) (members : List (String × Json)) :
    ofNumeral? value ≠ some (.object members) := by
  intro h
  obtain ⟨n, hn⟩ | ⟨d, hd⟩ := ofNumeral?_cases h
  · cases hn
  · cases hd

/-- The members of an object have different names. -/
theorem distinct_of_ofRawWithin? {depth : Nat} {raw : RawJson} {members : Assoc Json}
    (h : ofRawWithin? depth raw = some (.object members)) : members.Distinct := by
  cases raw with
  | null => simp [ofRawWithin?] at h
  | bool value => simp [ofRawWithin?] at h
  | number value =>
    rw [ofRawWithin?] at h
    exact absurd h (ofNumeral?_ne_object value members)
  | string pieces => simp [ofRawWithin?] at h
  | array items => cases depth <;> simp [ofRawWithin?] at h
  | object entries =>
    cases depth with
    | zero => simp [ofRawWithin?] at h
    | succ depth =>
      rw [ofRawWithin?] at h
      obtain ⟨written, -, hwritten⟩ := Option.map_eq_some_iff.1 h
      obtain rfl : Assoc.ofList written = members := by simpa using hwritten
      exact Assoc.distinct_ofList written

example : ofNumeral? (.integer true 0) = some (.double ⟨0x8000000000000000⟩) := rfl
example : ofNumeral? (.integer false (2 ^ 64 - 1)) = some (.integer 18446744073709551615) := rfl

end Json

end DocGate
