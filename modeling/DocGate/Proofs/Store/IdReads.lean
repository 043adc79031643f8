import DocGate.Proofs.Filter.Lowering
import DocGate.Proofs.Store.Identity
import DocGate.Proofs.Store.Reads

/-!
# Reads by an identifier

The store and a filter each have a notion of equal identifiers.  The store's is
strict on types.  A filter takes all numbers for doubles, and a list for any of
its elements.  So the filter that asks for an identifier also selects documents
whose identifiers the store takes for others: a number with the same double, and
a list with the identifier or such a number in it (`Bson.resembles`).

`Gateway.find_by_id` says that a read by the identifier of a stored document
finds this document, and of the others those just named.  That these are
sometimes found is `Gateway.not_find_by_id_only`.
-/

namespace DocGate

namespace Bson

/-! ## Identifiers that a filter takes for the same -/

/-- Whether a value is an integer, a text, a truth value, a date or an object
identifier. -/
def isPlain : Bson → Bool
  | .int32 _ => true
  | .int64 _ => true
  | .string _ => true
  | .bool _ => true
  | .dateTime _ => true
  | .objectId _ => true
  | _ => false

/-- The double that a filter takes a number for. -/
def filterNumber? : Bson → Option Double
  | .int32 n => some (Double.ofInt n.toInt)
  | .int64 n => some (Double.ofInt n.toInt)
  | .double d => some d
  | _ => none

/-- Whether two values are numbers that a filter takes for the same. -/
def sameNumber (value id : Bson) : Bool :=
  match value.filterNumber?, id.filterNumber? with
  | some x, some y => x.equals y
  | _, _ => false

/-- Whether a value is a number that a filter takes for the identifier, or a list
in which there is the identifier or such a number. -/
def resembles (id : Bson) : Bson → Bool
  | .array items => items.any fun item => item.same id || item.sameNumber id
  | value => value.sameNumber id

theorem same_self {id : Bson} (h : id.isPlain = true) : id.same id = true := by
  cases id <;> first | exact Bool.noConfusion h | simp [same]

theorem same_comm_of_isPlain {id : Bson} (h : id.isPlain = true) (value : Bson) :
    value.same id = id.same value := by
  cases id <;> first
    | exact Bool.noConfusion h
    | cases value <;> first | rfl | exact BEq.comm

/-- For a filter, a value equals an identifier if it does for the store or is a
number with the same double. -/
theorem equals_ofBson {id : Bson} (h : id.isPlain = true) (value : Bson) :
    (FilterValue.ofBson value).equals (.ofBson id) = (value.same id || value.sameNumber id) := by
  have hself : ∀ n : Int, (Double.ofInt n).equals (Double.ofInt n) = true := fun n =>
    Double.equals_self (Double.isNaN_ofInt n)
  -- Only equal integers of one type are the same for the store, and these have the same double.
  have habsorb : ∀ (same equal : Bool), (same = true → equal = true) →
      equal = (same || equal) := by decide
  cases id with
  | int32 n =>
    cases value with
    | int32 m =>
      refine habsorb (m == n) _ fun hsame => ?_
      obtain rfl := eq_of_beq hsame
      exact hself _
    | _ => rfl
  | int64 n =>
    cases value with
    | int64 m =>
      refine habsorb (m == n) _ fun hsame => ?_
      obtain rfl := eq_of_beq hsame
      exact hself _
    | _ => rfl
  | string text => cases value <;> first | rfl | exact (Bool.or_false _).symm
  | bool truth => cases value <;> first | rfl | exact (Bool.or_false _).symm
  | dateTime date => cases value <;> first | rfl | exact (Bool.or_false _).symm
  | objectId own => cases value <;> first | rfl | exact (Bool.or_false _).symm
  | _ => cases h

/-- A filter finds an identifier where the store does, or where a value resembles
it. -/
theorem matchesAny_ofBson {id : Bson} (h : id.isPlain = true) (value : Bson) :
    (FilterValue.ofBson value).matchesAny (.ofBson id) = (value.same id || id.resembles value) := by
  have hitems : ∀ items : List Bson,
      (FilterValue.ofItems items).any (fun item => item.equals (.ofBson id)) =
        items.any fun item => item.same id || item.sameNumber id := by
    intro items
    rw [FilterValue.any_ofItems]
    exact List.any_congr rfl (equals_ofBson h)
  cases value with
  | array items =>
    have hany : (FilterValue.ofBson (.array items)).matchesAny (.ofBson id) =
        (FilterValue.ofItems items).any fun item => item.equals (.ofBson id) := by
      cases id <;> first | rfl | cases h
    rw [hany, hitems]
    cases id <;> first | rfl | cases h
  | _ => exact equals_ofBson h _

end Bson

theorem Document.sameId_comm_of_isPlain {document other : Document} {id : Bson}
    (hid : document.get? Bookkeeping.idField = some id) (hplain : id.isPlain = true) :
    other.sameId document = document.sameId other := by
  rw [sameId, sameId, hid]
  cases other.get? Bookkeeping.idField with
  | none => rfl
  | some own => exact Bson.same_comm_of_isPlain hplain own

namespace Filter

variable {id : Bson} {document : Document}

/-! ## The filter for an identifier -/

/-- The filter document that asks for an identifier. -/
def byId (id : Bson) : Document :=
  [("_id", .document [("$eq", id)])]

theorem ofDocument_byId (id : Bson) :
    ofDocument (byId id) = .ok (.field Bookkeeping.idField .equal id) :=
  ofDocument_comparison (by decide) rfl id

/-- Whether the identifier of a document resembles another. -/
def resemblesId (id : Bson) (document : Document) : Bool :=
  (document.get? Bookkeeping.idField).any id.resembles

/-- The filter for an identifier selects a document that has the identifier, or
one that resembles it. -/
theorem holds_byId {own : Bson} (hplain : id.isPlain = true)
    (hown : document.get? Bookkeeping.idField = some own) :
    holds document (.field Bookkeeping.idField .equal id) =
      .ok (own.same id || resemblesId id document) := by
  have hkeys : Text.pathKeys Bookkeeping.idField = [Bookkeeping.idField] := by decide +kernel
  have hvalue : fieldValue document Bookkeeping.idField = .ofBson own := by
    rw [fieldValue, hkeys, Document.lookup?, hown]
  rw [holds, compares, hvalue, Bson.matchesAny_ofBson hplain, resemblesId, hown, Option.any_some]

end Filter

namespace Gateway

variable {registry : Registry} {gateway : Gateway}

/-- A read by the identifier of a stored document finds the document, and of the
others in the collection those whose identifiers resemble it: numbers that are
the same double, and lists with the identifier or such a number in it. -/
theorem find_by_id (registry : Registry) (gateway : Gateway) (h : Reachable registry gateway)
    (collection : String) (before after : List Document) (document : Document) (id : Bson)
    (projection : Projection)
    (hsplit : gateway.store.documents collection = before ++ document :: after)
    (hid : document.get? Bookkeeping.idField = some id) (hplain : id.isPlain = true) :
    gateway.store.find collection (Filter.byId id) projection =
      .ok ((before.filter (Filter.resemblesId id) ++ document ::
        after.filter (Filter.resemblesId id)).map projection.apply) := by
  have houtcome : ∀ other ∈ gateway.store.documents collection,
      Filter.holds other (.field Bookkeeping.idField .equal id) =
        .ok (other.sameId document || Filter.resemblesId id other) := by
    intro other hother
    have hcontains := ((identified_of_reachable h).2 collection).contains_id other hother
    obtain ⟨own, hown⟩ := Option.isSome_iff_exists.1 hcontains
    rw [Filter.holds_byId hplain hown, Document.sameId, hown, hid]
  have hdistinct := ((identified_of_reachable h).2 collection).distinct
  rw [hsplit, List.pairwise_append, List.pairwise_cons] at hdistinct
  obtain ⟨-, ⟨hafter, -⟩, hbefore⟩ := hdistinct
  -- Of the other documents none has the identifier, whichever of the two is compared.
  have hearlier : before.filter (fun other => other.sameId document || Filter.resemblesId id other) =
      before.filter (Filter.resemblesId id) :=
    List.filter_congr fun other hother => by
      rw [hbefore other hother document List.mem_cons_self, Bool.false_or]
  have hlater : after.filter (fun other => other.sameId document || Filter.resemblesId id other) =
      after.filter (Filter.resemblesId id) :=
    List.filter_congr fun other hother => by
      rw [Document.sameId_comm_of_isPlain hid hplain, hafter other hother, Bool.false_or]
  have hself : (document.sameId document || Filter.resemblesId id document) = true := by
    rw [Document.sameId, hid, Bool.or_eq_true]
    exact .inl (Bson.same_self hplain)
  rw [MemoryStore.find, Filter.ofDocument_byId]
  simp only [Filter.select_eq_filter houtcome]
  rw [hsplit, List.filter_append, List.filter_cons, if_pos hself, hearlier, hlater]

/-- The document with the identifier 7 among a text, a list and a wide integer. -/
theorem find_by_id_seven :
    ∃ store, MemoryStore.empty.insertAll (fun _ _ => ⟨1⟩) [("notes",
        [[("_id", .string "7")], [("_id", .int32 7)], [("_id", .array [.int32 7])],
          [("_id", .int64 7)]])] = .ok store ∧
      store.find "notes" (Filter.byId (.int32 7)) Projection.idOnly =
        .ok [.ok [("_id", .int32 7)], .ok [("_id", .array [.int32 7])], .ok [("_id", .int64 7)]] := by
  have hseed : MemoryStore.empty.insertAll (fun _ _ => ⟨1⟩) [("notes",
      [[("_id", .string "7")], [("_id", .int32 7)], [("_id", .array [.int32 7])],
        [("_id", .int64 7)]])] = .ok ⟨[("notes",
      [[("_id", .string "7")], [("_id", .int32 7)], [("_id", .array [.int32 7])],
        [("_id", .int64 7)]])]⟩ := rfl
  refine ⟨_, hseed, ?_⟩
  rw [find_by_id ⟨[]⟩ ⟨⟨[]⟩, _⟩ (.seeded hseed) "notes" [[("_id", .string "7")]]
    [[("_id", .array [.int32 7])], [("_id", .int64 7)]] [("_id", .int32 7)] (.int32 7)
    Projection.idOnly rfl rfl rfl]
  rfl

/-- The same number as an integer of the other size is another identifier for
the store, but the same for a read by it. -/
theorem not_find_by_id_only :
    ¬ ∀ (registry : Registry) (gateway : Gateway), Reachable registry gateway →
      ∀ (collection : String) (before after : List Document) (document : Document) (id : Bson)
        (projection : Projection),
      gateway.store.documents collection = before ++ document :: after →
      document.get? Bookkeeping.idField = some id → id.isPlain = true →
      gateway.store.find collection (Filter.byId id) projection =
        .ok [projection.apply document] := by
  intro honly
  have hseed : MemoryStore.empty.insertAll (fun _ _ => ⟨1⟩)
      [("notes", [[("_id", .int32 1)], [("_id", .int64 1)]])] =
        .ok ⟨[("notes", [[("_id", .int32 1)], [("_id", .int64 1)]])]⟩ := rfl
  have hone := honly ⟨[]⟩ ⟨⟨[]⟩, _⟩ (.seeded hseed) "notes" [] [[("_id", .int64 1)]]
    [("_id", .int32 1)] (.int32 1) Projection.idOnly rfl rfl rfl
  have htwo : (MemoryStore.find ⟨[("notes", [[("_id", .int32 1)], [("_id", .int64 1)]])]⟩ "notes"
      (Filter.byId (.int32 1)) Projection.idOnly).toOption.map List.length = some 2 := by
    decide +kernel
  rw [hone] at htwo
  cases htwo

end Gateway

end DocGate
