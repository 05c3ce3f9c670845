import Mathlib.Tactic.Lemma
import SchemaCompiler.TypeGraph.Extraction

/-!
# Extraction by look-ups

A graph is extracted by looking up full names, and by nothing else that a unit holds.  Sources in
which all look-ups agree (`TypeSource.Agrees`) give the same graph for every root, with the same
findings, or fail for the same reason (`TypeSource.Agrees.extract_eq`).  The lemmas follow the
functions of the extraction, one for each.
-/

namespace SchemaCompiler

/-- Where full names find the same types, written names stand for the same types. -/
lemma CompilationUnit.resolve?_congr {unit unit' : CompilationUnit}
    (h : unit.lookup? = unit'.lookup?) : unit.resolve? = unit'.resolve? := by
  funext inside written
  rw [resolve?, resolve?, h]

namespace TypeSource

/-- Full names find the same types in two sources, which allow the same types.  The number of types
bounds the search for properties and for the types of a graph. -/
structure Agrees (source other : TypeSource) : Prop where
  lookup : source.unit.lookup? = other.unit.lookup?
  length : source.unit.types.length = other.unit.types.length
  allowAny : source.allowAny = other.allowAny

namespace Agrees

variable {source other : TypeSource} (h : source.Agrees other)

include h

/-- Types are resolved by look-ups. -/
lemma resolve_eq : source.resolve = other.resolve := by
  funext owner path e
  induction e generalizing path with
  | scalar kind => rfl
  | any => simp only [resolve, h.allowAny]
  | named written =>
    simp only [resolve, CompilationUnit.resolve?_congr h.lookup, h.allowAny]
  | list items ih | set items ih | nullable inner ih => simp only [resolve, ih]
  | map key values _ ih => simp only [resolve, ih]

/-- Properties are described by look-ups. -/
lemma describeProperty_eq : source.describeProperty = other.describeProperty := by
  funext owner p
  rw [describeProperty, describeProperty, h.resolve_eq]

/-- The type that stands in place of a property is looked up. -/
lemma unwrapTarget_eq : source.unwrapTarget = other.unwrapTarget := by
  funext unwrapping owner p
  unfold unwrapTarget
  rw [CompilationUnit.resolve?_congr h.lookup]

/-- A property is added by look-ups. -/
lemma addProperty_eq : source.addProperty = other.addProperty := by
  funext unwrapping unwrap owner collected p
  rw [addProperty, addProperty, h.unwrapTarget_eq, h.describeProperty_eq]

/-- Properties are collected by look-ups, however deep they are unwrapped. -/
lemma addProperties_eq (depth : Nat) : source.addProperties depth = other.addProperties depth := by
  induction depth with
  | zero => rfl
  | succ depth ih =>
    funext unwrapping t collected
    rw [addProperties, addProperties, h.addProperty_eq, ih]

/-- The properties of a type are found by look-ups. -/
lemma propertiesOf_eq : source.propertiesOf = other.propertiesOf := by
  funext t
  rw [propertiesOf, propertiesOf, h.length, h.addProperties_eq]

/-- Variants are described by look-ups. -/
lemma describeVariant_eq : source.describeVariant = other.describeVariant := by
  funext owner v
  rw [describeVariant, describeVariant,
    CompilationUnit.resolve?_congr h.lookup]

/-- Additional properties are described by look-ups. -/
lemma additionalOf_eq : source.additionalOf = other.additionalOf := by
  funext t
  rw [additionalOf, additionalOf, h.resolve_eq]

/-- What a type is, is described by look-ups. -/
lemma describeKind_eq : source.describeKind = other.describeKind := by
  funext t
  rw [describeKind, describeKind, h.propertiesOf_eq, h.additionalOf_eq,
    h.describeVariant_eq]

/-- Types are described by look-ups. -/
lemma describe_eq : source.describe = other.describe := by
  funext t
  rw [describe, describe, h.describeKind_eq]

/-- A graph is explored by look-ups. -/
lemma explore_eq (steps : Nat) : source.explore steps = other.explore steps := by
  induction steps with
  | zero => rfl
  | succ steps ih =>
    funext pending graph
    rw [explore, explore, h.lookup, h.describe_eq, ih]

/-- The graph of a root is extracted by look-ups. -/
theorem extract_eq : source.extract = other.extract := by
  funext root
  rw [extract, extract, h.length, h.explore_eq]

end Agrees

end TypeSource

end SchemaCompiler
