import FuzzyAlgebra.Logging.Context

/-!
# What records take from the contexts

Attributes are written one after the other, so that the last one of a name stays. The operation is
written before the extra attributes of a context, which can therefore name another one.
-/

namespace FuzzyAlgebra

namespace LogContext

theorem lookup_attribute (name : String) (v : Value) (rest : List (String × Value))
    (sought : String) :
    ((name, v) :: rest).lookup sought = if sought = name then some v else rest.lookup sought := by
  by_cases hsought : sought = name
  · simp [hsought]
  · simp [List.lookup_cons, beq_false_of_ne hsought, hsought]

theorem lookup_setAttribute (name : String) (v : Value) (attributes : List (String × Value))
    (sought : String) :
    (setAttribute name v attributes).lookup sought =
      if sought = name then some v else attributes.lookup sought := by
  induction attributes with
  | nil => exact lookup_attribute name v [] sought
  | cons first rest ih =>
    obtain ⟨n, w⟩ := first
    by_cases hname : n = name
    · subst hname
      rw [setAttribute, if_pos rfl, lookup_attribute, lookup_attribute]
      by_cases hsought : sought = n <;> simp [hsought]
    · rw [setAttribute, if_neg hname, lookup_attribute, lookup_attribute, ih]
      by_cases hsought : sought = n <;> simp [hsought, hname]

/-- Of the attributes that are written one after the other, the last one of a name stays. -/
theorem lookup_setAttributes (extra attributes : List (String × Value)) (sought : String) :
    (extra.foldl (fun acc (name, v) => setAttribute name v acc) attributes).lookup sought =
      (extra.reverse.lookup sought).or (attributes.lookup sought) := by
  induction extra generalizing attributes with
  | nil => rfl
  | cons first rest ih =>
    obtain ⟨n, w⟩ := first
    rw [List.foldl_cons, ih, lookup_setAttribute, List.reverse_cons, List.lookup_append,
      lookup_attribute]
    by_cases hsought : sought = n <;> simp [hsought]

/-- The operation that records take: one that the extra attributes name, or else that of the
context, unless it is empty. -/
def toldOperation? (c : LogContext) : Option Value :=
  (c.extra.reverse.lookup "operation").or ((c.operation.filter (· ≠ "")).map .text)

theorem lookup_operation (c : LogContext) : c.attributes.lookup "operation" = c.toldOperation? := by
  have hown : (textAttribute "operation" c.operation ++ textAttribute "function" c.function).lookup
      "operation" = (c.operation.filter (· ≠ "")).map .text := by
    rw [List.lookup_append]
    unfold textAttribute
    cases c.operation.filter (· ≠ "") <;> cases c.function.filter (· ≠ "") <;> rfl
  rw [attributes, lookup_setAttributes, hown, toldOperation?]

end LogContext

namespace ContextStack

/-- The operation that the innermost context gives to records, if it gives one. -/
def operation? (s : ContextStack) : Option Value := s.current?.bind LogContext.toldOperation?

/-- The operation that a record tells once it has passed the contexts. -/
def operationOf (s : ContextStack) (r : LogRecord) : Option Value :=
  (s.attributes.lookup "operation").or (r.operation.map .text)

theorem operationOf_enrich (s : ContextStack) {r : LogRecord} (h : r.operation = none) :
    s.operationOf (s.enrich r) = s.operation? := by
  cases s with
  | nil =>
    have henrich : enrich [] r = r := rfl
    rw [henrich, operationOf, h]
    rfl
  | cons c rest =>
    have henrich : enrich (c :: rest) r = c.enrich r := rfl
    have hattributes : attributes (c :: rest) = c.attributes := rfl
    have htold : operation? (c :: rest) = c.toldOperation? := rfl
    rw [henrich, operationOf, hattributes, c.lookup_operation, htold, LogContext.toldOperation?,
      LogContext.enrich]
    cases c.operation.filter (· ≠ "") with
    | none =>
      rw [h, Option.map_none, Option.or_none, Option.or_none]
    | some operation =>
      rw [Option.or_assoc]
      rfl

end ContextStack

end FuzzyAlgebra
