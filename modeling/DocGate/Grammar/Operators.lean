/-!
# Allowed operators

The operators that a client's fragment may use.  A projection may compute with
the fields that the caller reads, but has no operator that reads a field by a
name without a dollar sign, binds a variable, runs code on the server or shows
metadata.  A filter may use the operators of a projection as well, which stand
in its expressions.
-/

namespace DocGate

namespace Operators

/-! ## Projections -/

/-- Operators on numbers. -/
def arithmetic : List String := [
  "$abs", "$add", "$ceil", "$divide", "$exp", "$floor", "$ln", "$log", "$log10", "$mod",
  "$multiply", "$pow", "$round", "$sqrt", "$subtract", "$trunc"]

/-- Operators on arrays. -/
def arrays : List String := [
  "$arrayElemAt", "$arrayToObject", "$concatArrays", "$elemMatch", "$filter", "$first",
  "$firstN", "$in", "$indexOfArray", "$isArray", "$last", "$lastN", "$map", "$maxN", "$minN",
  "$objectToArray", "$range", "$reduce", "$reverseArray", "$size", "$slice", "$sortArray",
  "$zip"]

/-- Operators on truth values, and comparisons. -/
def comparisons : List String := [
  "$and", "$not", "$or", "$cmp", "$eq", "$gt", "$gte", "$lt", "$lte", "$ne"]

/-- Operators that choose among values. -/
def conditionals : List String := [
  "$cond", "$ifNull", "$switch"]

/-- Operators on dates. -/
def dates : List String := [
  "$dateAdd", "$dateDiff", "$dateFromParts", "$dateFromString", "$dateSubtract", "$dateToParts",
  "$dateToString", "$dateTrunc", "$dayOfMonth", "$dayOfWeek", "$dayOfYear", "$hour",
  "$isoDayOfWeek", "$isoWeek", "$isoWeekYear", "$millisecond", "$minute", "$month", "$second",
  "$week", "$year"]

/-- Literals and operators on objects. -/
def objects : List String := [
  "$literal", "$mergeObjects"]

/-- Operators on arrays as sets. -/
def sets : List String := [
  "$allElementsTrue", "$anyElementTrue", "$setDifference", "$setEquals", "$setIntersection",
  "$setIsSubset", "$setUnion"]

/-- Operators on texts. -/
def strings : List String := [
  "$concat", "$indexOfBytes", "$indexOfCP", "$ltrim", "$regexFind", "$regexFindAll",
  "$regexMatch", "$replaceAll", "$replaceOne", "$rtrim", "$split", "$strcasecmp",
  "$strLenBytes", "$strLenCP", "$substr", "$substrBytes", "$substrCP", "$toLower", "$toString",
  "$toUpper", "$trim"]

/-- Operators that test or convert types. -/
def types : List String := [
  "$convert", "$isNumber", "$toBool", "$toDate", "$toDecimal", "$toDouble", "$toInt", "$toLong",
  "$toObjectId", "$type"]

/-- Operators that summarise arrays. -/
def accumulators : List String := [
  "$avg", "$max", "$min", "$stdDevPop", "$stdDevSamp", "$sum"]

/-- The operators of a projection. -/
def ofProjections : List String :=
  arithmetic ++ arrays ++ comparisons ++ conditionals ++ dates ++ objects ++ sets ++ strings ++
    types ++ accumulators

/-! ## Filters -/

/-- The operators of a filter beside those of a projection. -/
def ofFilters : List String := [
  "$all", "$and", "$box", "$caseSensitive", "$center", "$centerSphere", "$comment",
  "$diacriticSensitive", "$elemMatch", "$eq", "$exists", "$expr", "$geoIntersects", "$geometry",
  "$geoWithin", "$gt", "$gte", "$in", "$language", "$lt", "$lte", "$maxDistance",
  "$minDistance", "$mod", "$ne", "$near", "$nearSphere", "$nin", "$nor", "$not", "$options",
  "$or", "$polygon", "$regex", "$search", "$size", "$text", "$type"]

/-! ## Variables -/

/-- The variables that the store defines: whole documents, its own state, and
what a pipeline does with them. -/
def systemVariables : List String := [
  "ROOT", "CURRENT", "REMOVE", "DESCEND", "PRUNE", "KEEP", "NOW", "CLUSTER_TIME", "SEARCH_META",
  "USER_ROLES"]

end Operators

end DocGate
