import Mathlib.Data.List.Nodup
import Mathlib.Tactic.Lemma
import SchemaCompiler.Schema.Keywords

/-!
# Keywords one by one

`Keyword` lists the keywords that any node can carry, and `Keywords.value?` says what a set of them
gives for each one.  A set is told by these values (`Keywords.ext_value?`), and so is all that is
written of it: the head, the body and the tail are the values of three lists of keywords, one after
another (`Keywords.head_eq`, `Keywords.body_eq`, `Keywords.tail_eq`).

The keys of keywords are distinct, and none of them is a key of the structure of a node.
-/

namespace SchemaCompiler

open Association (keys)

/-! ### The values under a key -/

namespace Association

variable {κ α : Type} [BEq κ]

/-- The values that stand under a key, in order. -/
def valuesAt (key : κ) (entries : List (κ × α)) : List α :=
  (entries.filter (·.1 == key)).map (·.2)

/-- What stands under a key in pairs one after another. -/
@[simp] lemma valuesAt_append (key : κ) (first second : List (κ × α)) :
    valuesAt key (first ++ second) = valuesAt key first ++ valuesAt key second := by
  simp [valuesAt]

variable [LawfulBEq κ] {key : κ} {entries : List (κ × α)}

/-- Nothing stands under a key that is not there. -/
lemma valuesAt_eq_nil (h : key ∉ keys entries) : valuesAt key entries = [] := by
  have hnone : entries.filter (·.1 == key) = [] := by
    refine List.filter_eq_nil_iff.mpr fun entry hentry hkey => h ?_
    exact beq_iff_eq.mp hkey ▸ List.mem_map_of_mem hentry
  rw [valuesAt, hnone, List.map_nil]

end Association

/-! ### Keywords -/

/-- A keyword that any node can carry. -/
inductive Keyword where
  | title
  | description
  | format
  | contentEncoding
  | constant
  | pattern
  | count (keyword : Keywords.Count)
  | uniqueItems
  | bound (keyword : Keywords.Bound)
  | multipleOf
  | defaultValue
  | deprecated
  | readOnly
  | writeOnly
deriving DecidableEq, Repr

namespace Keyword

/-- The key that the keyword is written under. -/
def key : Keyword → String
  | title => "title"
  | description => "description"
  | format => "format"
  | contentEncoding => "contentEncoding"
  | constant => "const"
  | pattern => "pattern"
  | count keyword => keyword.name
  | uniqueItems => "uniqueItems"
  | bound keyword => keyword.name
  | multipleOf => "multipleOf"
  | defaultValue => "default"
  | deprecated => "deprecated"
  | readOnly => "readOnly"
  | writeOnly => "writeOnly"

/-- Whether the keyword describes and does not restrict. -/
def isAnnotation : Keyword → Bool
  | title | description | defaultValue | deprecated | readOnly | writeOnly => true
  | format | contentEncoding | constant | pattern | count _ | uniqueItems | bound _
  | multipleOf => false

/-- The keywords that stand before the structure of a node. -/
def head : List Keyword := [title, description]

/-- The keywords that stand after the structure of a node. -/
def body : List Keyword :=
  [format, contentEncoding, constant, pattern, count .minLength, count .maxLength,
    count .minItems, count .maxItems, uniqueItems, bound .minimum, bound .exclusiveMinimum,
    bound .maximum, bound .exclusiveMaximum, multipleOf, count .minProperties,
    count .maxProperties]

/-- The keywords that stand at the end. -/
def tail : List Keyword := [defaultValue, deprecated, readOnly, writeOnly]

/-- All keywords, in the order in which they are written. -/
def all : List Keyword := head ++ body ++ tail

example : all.length = 22 := rfl

/-- Every keyword is in the list of all. -/
lemma mem_all (w : Keyword) : w ∈ all := by
  cases w with
  | count keyword => cases keyword <;> decide
  | bound keyword => cases keyword <;> decide
  | _ => decide

/-- No two keywords have the same key. -/
lemma nodup_keys : (all.map key).Nodup := by decide

/-- A keyword is told by its key. -/
lemma key_injective : Function.Injective key := fun v w h =>
  List.inj_on_of_nodup_map nodup_keys v.mem_all w.mem_all h

end Keyword

namespace Keywords

/-! ### Keys -/

/-- The keys that stand before the structure of a node. -/
def headKeys : List String := ["title", "description"]

/-- The keys that stand after the structure of a node. -/
def bodyKeys : List String :=
  ["format", "contentEncoding", "const", "pattern", "minLength", "maxLength", "minItems",
    "maxItems", "uniqueItems", "minimum", "exclusiveMinimum", "maximum", "exclusiveMaximum",
    "multipleOf", "minProperties", "maxProperties"]

/-- The keys that stand at the end. -/
def tailKeys : List String := ["default", "deprecated", "readOnly", "writeOnly"]

/-- The keys that the structure of a node is written with. -/
def structureKeys : List String :=
  ["type", "enum", "items", "allOf", "properties", "required", "additionalProperties", "oneOf",
    "anyOf", "$ref"]

/-- The structure of a node has no key of a keyword. -/
lemma key_not_mem_structureKeys (w : Keyword) : w.key ∉ structureKeys := by
  have hall : ∀ w ∈ Keyword.all, w.key ∉ structureKeys := by decide
  exact hall w w.mem_all

/-! ### Values -/

/-- What a set of keywords gives for one of them. -/
def value? (k : Keywords) : Keyword → Option Json
  | .title => k.title.map .string
  | .description => k.description.map .string
  | .format => k.format.map .string
  | .contentEncoding => k.contentEncoding.map .string
  | .constant => k.constant
  | .pattern => k.pattern.map .string
  | .count keyword => (k.count keyword).map .ofNat
  | .uniqueItems => if k.uniqueItems then some (.bool true) else .none
  | .bound keyword => (k.bound keyword).map .number
  | .multipleOf => k.multipleOf.map .number
  | .defaultValue => k.defaultValue
  | .deprecated => if k.deprecated then some (.bool true) else .none
  | .readOnly => if k.readOnly then some (.bool true) else .none
  | .writeOnly => if k.writeOnly then some (.bool true) else .none

/-- A flag is an optional value. -/
lemma flag_eq (key : String) (set : Bool) :
    flag key set = member key (if set then some (.bool true) else .none) := by
  cases set <;> rfl

/-- Keywords are told by their values. -/
theorem ext_value? {k k' : Keywords} (h : k.value? = k'.value?) : k = k' := by
  have htext : Function.Injective (Option.map Json.string) :=
    Option.map_injective fun _ _ => Json.string.inj
  have hcount : Function.Injective (Option.map Json.ofNat) :=
    Option.map_injective fun _ _ heq =>
      Int.ofNat.inj (Json.Number.int.inj (Json.number.inj heq))
  have hnumber : Function.Injective (Option.map Json.number) :=
    Option.map_injective fun _ _ => Json.number.inj
  have hflag : ∀ {a b : Bool}, (if a then some (Json.bool true) else .none) =
      (if b then some (Json.bool true) else .none) → a = b := by
    rintro (_ | _) (_ | _) heq
    all_goals first | rfl | cases heq
  have hvalue : ∀ w, k.value? w = k'.value? w := congrFun h
  cases k
  cases k'
  congr 1
  · exact htext (hvalue .title)
  · exact htext (hvalue .description)
  · exact htext (hvalue .format)
  · exact htext (hvalue .contentEncoding)
  · exact hvalue .constant
  · exact htext (hvalue .pattern)
  · exact hcount (hvalue (.count .minLength))
  · exact hcount (hvalue (.count .maxLength))
  · exact hcount (hvalue (.count .minItems))
  · exact hcount (hvalue (.count .maxItems))
  · exact hflag (hvalue .uniqueItems)
  · exact hnumber (hvalue (.bound .minimum))
  · exact hnumber (hvalue (.bound .exclusiveMinimum))
  · exact hnumber (hvalue (.bound .maximum))
  · exact hnumber (hvalue (.bound .exclusiveMaximum))
  · exact hnumber (hvalue .multipleOf)
  · exact hcount (hvalue (.count .minProperties))
  · exact hcount (hvalue (.count .maxProperties))
  · exact hvalue .defaultValue
  · exact hflag (hvalue .deprecated)
  · exact hflag (hvalue .readOnly)
  · exact hflag (hvalue .writeOnly)

/-- Of the annotations the values of annotations are left. -/
lemma value?_annotations (k : Keywords) (w : Keyword) :
    k.annotations.value? w = if w.isAnnotation then k.value? w else .none := by
  cases w with
  | count keyword => cases keyword <;> rfl
  | bound keyword => cases keyword <;> rfl
  | _ => rfl

/-- Of the assertions all other values are left. -/
lemma value?_assertions (k : Keywords) (w : Keyword) :
    k.assertions.value? w = if w.isAnnotation then .none else k.value? w := by
  cases w with
  | count keyword => cases keyword <;> rfl
  | bound keyword => cases keyword <;> rfl
  | _ => rfl

/-! ### Written values -/

/-- The members of some keywords, one after another. -/
def written (k : Keywords) (ws : List Keyword) : List Member :=
  ws.flatMap fun w => member w.key (k.value? w)

/-- The keywords before the structure. -/
lemma head_eq (k : Keywords) : k.head = k.written Keyword.head := by
  simp [head, written, Keyword.head, Keyword.key, value?]

/-- The keywords after the structure. -/
lemma body_eq (k : Keywords) : k.body = k.written Keyword.body := by
  simp [body, written, Keyword.body, Keyword.key, value?, flag_eq, count, bound, Count.name,
    Bound.name]

/-- The keywords at the end. -/
lemma tail_eq (k : Keywords) : k.tail = k.written Keyword.tail := by
  simp [tail, written, Keyword.tail, Keyword.key, value?, flag_eq]

/-- Keywords are written one by one. -/
lemma written_cons (k : Keywords) (w : Keyword) (ws : List Keyword) :
    k.written (w :: ws) = member w.key (k.value? w) ++ k.written ws :=
  List.flatMap_cons

/-- Keywords are written list after list. -/
lemma written_append (k : Keywords) (vs ws : List Keyword) :
    k.written (vs ++ ws) = k.written vs ++ k.written ws :=
  List.flatMap_append

/-- A keyword without a value can be left out. -/
lemma written_erase {k : Keywords} {w : Keyword} (h : k.value? w = .none) (ws : List Keyword) :
    k.written (ws.erase w) = k.written ws := by
  induction ws with
  | nil => rfl
  | cons v ws ih =>
    rw [List.erase_cons, written_cons]
    split
    · next hv =>
      rw [beq_iff_eq.mp hv, h]
      rfl
    · rw [written_cons, ih]

/-- Written keywords keep the order of their keys. -/
lemma keys_written (k : Keywords) (ws : List Keyword) :
    (keys (k.written ws)).Sublist (ws.map Keyword.key) := by
  induction ws with
  | nil => exact List.Sublist.refl _
  | cons w ws ih =>
    rw [written_cons]
    cases k.value? w with
    | none => exact ih.cons w.key
    | some value => exact ih.cons_cons w.key

/-- The keys before the structure keep their order. -/
lemma keys_head (k : Keywords) : (keys k.head).Sublist headKeys :=
  k.head_eq ▸ k.keys_written Keyword.head

/-- The keys after the structure keep their order. -/
lemma keys_body (k : Keywords) : (keys k.body).Sublist bodyKeys :=
  k.body_eq ▸ k.keys_written Keyword.body

/-- The keys at the end keep their order. -/
lemma keys_tail (k : Keywords) : (keys k.tail).Sublist tailKeys :=
  k.tail_eq ▸ k.keys_written Keyword.tail

/-- There are no assertions among annotations. -/
lemma body_annotations (k : Keywords) : k.annotations.body = [] := by
  simp [body, annotations, member, flag]

end Keywords

end SchemaCompiler
