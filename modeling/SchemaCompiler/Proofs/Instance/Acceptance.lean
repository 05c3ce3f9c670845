import SchemaCompiler.Proofs.Numeric.Order
import SchemaCompiler.Proofs.Schema.References

/-!
# What schemas accept

The meaning of the keywords of JSON Schema that restrict values.  Each one judges the values that it
is about and accepts all others, so a schema without a type says nothing about null.  Annotations,
formats and content encodings accept every value.

An `Interpretation` fixes what the schema itself does not say: the draft, which texts match a
pattern, and what the definition of a reference accepts.
-/

namespace SchemaCompiler

/-! ### Equal values -/

namespace Json

mutual

/-- Whether two values are the same.  Numbers are compared by value and objects without their
order. -/
def same : Json → Json → Bool
  | null, null => true
  | bool a, bool b => a == b
  | number a, number b => a.scaled == b.scaled
  | string a, string b => a == b
  | array as, array bs => sameItems as bs
  | object as, object bs => as.length == bs.length && sameMembers as bs
  | _, _ => false
termination_by structural a => a

/-- Whether two lists have the same elements in the same order. -/
def sameItems : List Json → List Json → Bool
  | [], [] => true
  | a :: as, b :: bs => same a b && sameItems as bs
  | _, _ => false
termination_by structural as => as

/-- Whether each member is the same in another object. -/
def sameMembers : List (String × Json) → List (String × Json) → Bool
  | [], _ => true
  | (key, a) :: as, bs => ((bs.lookup key).any fun b => same a b) && sameMembers as bs
termination_by structural as => as

end

/-- Whether no two elements are the same. -/
def areDistinct : List Json → Bool
  | [] => true
  | a :: as => as.all (!same a ·) && areDistinct as

/-! ### Values by type -/

/-- Whether a value is of a type; a number without a fraction is an integer, however it is
written. -/
def hasType (v : Json) (type : String) : Bool :=
  match v with
  | null => type == "null"
  | bool _ => type == "boolean"
  | number n =>
    type == "number" || type == "integer" && decide ((Binary64.unit : Int) ∣ n.scaled)
  | string _ => type == "string"
  | array _ => type == "array"
  | object _ => type == "object"

/-- The elements, if the value is an array. -/
def items? : Json → Option (List Json)
  | array items => some items
  | _ => none

/-- The number, if the value is one. -/
def number? : Json → Option Number
  | number n => some n
  | _ => none

/-- A count as a number. -/
def count? (count : Option Nat) : Option Number := count.map fun n => .int n

/-- Whether the number of a keyword and that of a value, if it has one, are in a relation. -/
def limits (limit : Json) (quantity : Option Number) (rel : Int → Int → Bool) : Bool :=
  match quantity, limit with
  | some n, number bound => rel bound.scaled n.scaled
  | _, _ => true

end Json

/-! ### Keywords -/

/-- What the meaning of a schema depends on. -/
structure Interpretation where
  draft : Draft
  /-- Whether a pattern matches somewhere in a text. -/
  isMatch : String → String → Bool
  /-- Whether the definition of a reference accepts a value. -/
  definition : String → Json → Bool

namespace Interpretation

open Json (hasType limits count?)
open Keywords (Member)

variable (I : Interpretation)

/-- Whether a keyword that holds no schema accepts a value. -/
def asserts (key : String) (operand v : Json) : Bool :=
  match key with
  | "type" => ((operand.items?.getD [operand]).filterMap Json.asString?).any v.hasType
  | "enum" => (operand.items?.getD []).any (Json.same · v)
  | "const" => operand.same v
  | "pattern" =>
    v.asString?.all fun text => operand.asString?.all fun pattern => I.isMatch pattern text
  | "minLength" => limits operand (count? (v.asString?.map String.length)) (· ≤ ·)
  | "maxLength" => limits operand (count? (v.asString?.map String.length)) (· ≥ ·)
  | "minItems" => limits operand (count? (v.items?.map List.length)) (· ≤ ·)
  | "maxItems" => limits operand (count? (v.items?.map List.length)) (· ≥ ·)
  | "uniqueItems" => v.items?.all fun items => Json.areDistinct items || operand.same (.bool false)
  | "minimum" => limits operand v.number? (· ≤ ·)
  | "exclusiveMinimum" => limits operand v.number? (· < ·)
  | "maximum" => limits operand v.number? (· ≥ ·)
  | "exclusiveMaximum" => limits operand v.number? (· > ·)
  | "multipleOf" => limits operand v.number? (· ∣ ·)
  | "minProperties" => limits operand (count? (v.asObject?.map List.length)) (· ≤ ·)
  | "maxProperties" => limits operand (count? (v.asObject?.map List.length)) (· ≥ ·)
  | "required" =>
    v.asObject?.all fun members =>
      ((operand.items?.getD []).filterMap Json.asString?).all (Association.contains · members)
  | _ => true

/-- The names of the properties that a schema declares. -/
def declared (members : List Member) : List String :=
  Association.keys (((members.lookup "properties").bind Json.asObject?).getD [])

/-- The values that the schema under a keyword is about: the elements of an array, or the values of
an object that stand under no declared name. -/
def subjects (names : List String) (key : String) (v : Json) : List Json :=
  if key = "items" then v.items?.getD []
  else ((v.asObject?.getD []).filter fun m => !names.contains m.1).map (·.2)

/-- The reference that stands for a whole schema in a draft that ignores what stands next to it. -/
def only? (members : List Member) : Option Json :=
  if I.draft.refAllowsSiblings then none else members.lookup "$ref"

/-- Whether a reference accepts a value. -/
def refers (target v : Json) : Bool := target.asString?.all fun uri => I.definition uri v

mutual

/-- Whether a schema accepts a value; what is no schema accepts nothing. -/
def accepts : Json → Json → Bool
  | .bool b, _ => b
  | .object members, v =>
    match I.only? members with
    | some target => I.refers target v
    | none => acceptsMembers (declared members) members v
  | .null, _ | .number _, _ | .string _, _ | .array _, _ => false
termination_by structural schema => schema

/-- Whether all members of a schema accept a value; `names` are the declared properties. -/
def acceptsMembers (names : List String) : List Member → Json → Bool
  | [], _ => true
  | (key, operand) :: rest, v =>
    (match Json.placeOf none key with
      | .reference => I.refers operand v
      | .schema => (subjects names key v).all fun x => accepts operand x
      | .schemas => acceptsList key operand v
      | .namedSchemas => acceptsMap operand v
      | .data => I.asserts key operand v) && acceptsMembers names rest v
termination_by structural members => members

/-- Whether a list of schemas under a keyword accepts a value. -/
def acceptsList (key : String) : Json → Json → Bool
  | .array schemas, v =>
    if key = "allOf" then acceptances schemas v == schemas.length
    else if key = "anyOf" then acceptances schemas v != 0
    else acceptances schemas v == 1
  | _, _ => true
termination_by structural operand => operand

/-- The number of schemas in a list that accept a value. -/
def acceptances : List Json → Json → Nat
  | [], _ => 0
  | schema :: rest, v => (accepts schema v).toNat + acceptances rest v
termination_by structural schemas => schemas

/-- Whether schemas under names accept the values under these names in an object. -/
def acceptsMap : Json → Json → Bool
  | .object schemas, v => acceptsProperties schemas (v.asObject?.getD [])
  | _, _ => true
termination_by structural operand => operand

/-- Whether schemas under names accept the values under these names. -/
def acceptsProperties : List Member → List Member → Bool
  | [], _ => true
  | (name, schema) :: rest, members =>
    ((members.lookup name).all fun x => accepts schema x) && acceptsProperties rest members
termination_by structural schemas => schemas

end

variable {I} {names : List String} {members first second : List Member} {k : Keywords} {v : Json}
  {key : String}

/-- Members one after another accept what each of them accepts. -/
lemma acceptsMembers_append :
    I.acceptsMembers names (first ++ second) v =
      (I.acceptsMembers names first v && I.acceptsMembers names second v) := by
  induction first with
  | nil => simp [acceptsMembers]
  | cons member first ih =>
    obtain ⟨key, operand⟩ := member
    rw [List.cons_append, acceptsMembers, acceptsMembers, ih, Bool.and_assoc]

/-- A member that holds no schema accepts what its keyword does. -/
lemma acceptsMembers_cons_of_data (hkey : Json.placeOf none key = .data) (operand : Json) :
    I.acceptsMembers names ((key, operand) :: members) v =
      (I.asserts key operand v && I.acceptsMembers names members v) := by
  rw [acceptsMembers, hkey]

/-- Members that hold no schemas accept what their keywords do. -/
lemma acceptsMembers_of_data (h : ∀ key ∈ Association.keys members, Json.placeOf none key = .data) :
    I.acceptsMembers names members v = members.all fun m => I.asserts m.1 m.2 v := by
  induction members with
  | nil => simp [acceptsMembers]
  | cons member members ih =>
    obtain ⟨hkey, hrest⟩ := List.forall_mem_cons.mp h
    rw [acceptsMembers_cons_of_data hkey, ih hrest, List.all_cons]

/-! ### Keywords around a structure -/

open Keywords (headKeys bodyKeys tailKeys)

/-- Annotations accept every value. -/
lemma asserts_annotation (hkey : key ∈ headKeys ++ tailKeys) (operand : Json) :
    I.asserts key operand v = true := by
  simp only [headKeys, tailKeys, List.cons_append, List.nil_append, List.mem_cons,
    List.not_mem_nil, or_false] at hkey
  rcases hkey with rfl | rfl | rfl | rfl | rfl | rfl
  all_goals rfl

/-- The keys of assertions other than a constant. -/
lemma erase_const_bodyKeys : bodyKeys.erase "const" =
    ["format", "contentEncoding", "pattern", "minLength", "maxLength", "minItems", "maxItems",
      "uniqueItems", "minimum", "exclusiveMinimum", "maximum", "exclusiveMaximum", "multipleOf",
      "minProperties", "maxProperties"] := rfl

/-- All assertions but a constant accept null. -/
lemma asserts_null (hkey : key ∈ bodyKeys.erase "const") (operand : Json) :
    I.asserts key operand .null = true := by
  simp only [erase_const_bodyKeys, List.mem_cons, List.not_mem_nil, or_false] at hkey
  rcases hkey with rfl | rfl | rfl | rfl | rfl | rfl | rfl | rfl | rfl | rfl | rfl | rfl | rfl |
    rfl | rfl
  all_goals rfl

/-- Whether the assertions among keywords accept a value. -/
def holds (I : Interpretation) (k : Keywords) (v : Json) : Bool :=
  k.body.all fun m => I.asserts m.1 m.2 v

/-- The assertions among keywords are the same without the annotations. -/
lemma holds_assertions (k : Keywords) (v : Json) : I.holds k.assertions v = I.holds k v := by
  have hbody : k.assertions.body = k.body := by
    unfold Keywords.body Keywords.assertions
    rfl
  rw [holds, hbody, holds]

/-- Annotations alone accept every value. -/
lemma holds_annotations (k : Keywords) (v : Json) : I.holds k.annotations v = true := by
  rw [holds, Keywords.body_annotations, List.all_nil]

/-- Without a constant there is no key for it. -/
lemma keys_body_of_no_constant (h : k.constant = none) :
    (Association.keys k.body).Sublist (bodyKeys.erase "const") := by
  have hvalue : k.value? .constant = none := h
  rw [Keywords.body_eq, ← Keywords.written_erase hvalue]
  exact k.keys_written _

/-- Keywords without a constant accept null. -/
lemma holds_null (h : k.constant = none) : I.holds k .null = true := by
  rw [holds, List.all_eq_true]
  intro m hm
  have hkey : m.1 ∈ Association.keys k.body := List.mem_map_of_mem hm
  exact asserts_null ((keys_body_of_no_constant h).subset hkey) m.2

/-- What is under no key is not found. -/
lemma lookup_eq_none (h : key ∉ Association.keys members) : members.lookup key = none := by
  rw [List.lookup_eq_none_iff]
  intro m hm
  have hne : key ≠ m.1 := by
    rintro rfl
    exact h (List.mem_map_of_mem hm)
  simpa using hne

/-- A schema without a reference is more than a reference. -/
lemma only?_eq_none (h : "$ref" ∉ Association.keys members) : I.only? members = none := by
  unfold only?
  split
  · rfl
  · exact lookup_eq_none h

/-- What stands around a structure makes no difference to where its keywords are looked up. -/
lemma lookup_around (hkey : key ∉ headKeys ++ bodyKeys ++ tailKeys) :
    (k.around members).lookup key = members.lookup key := by
  simp only [List.mem_append, not_or] at hkey
  obtain ⟨⟨hhead, hbody⟩, htail⟩ := hkey
  rw [Keywords.around, List.lookup_append, List.lookup_append, List.lookup_append,
    lookup_eq_none fun h => hhead (k.keys_head.subset h),
    lookup_eq_none fun h => hbody (k.keys_body.subset h),
    lookup_eq_none fun h => htail (k.keys_tail.subset h)]
  simp

/-- Members that are annotations accept every value. -/
lemma acceptsMembers_annotations {added : List Member}
    (hkeys : Association.keys added ⊆ headKeys ++ tailKeys) :
    I.acceptsMembers names added v = true := by
  have hdata : ∀ key ∈ headKeys ++ tailKeys, Json.placeOf none key = .data := by decide
  rw [acceptsMembers_of_data fun key hkey => hdata key (hkeys hkey), List.all_eq_true]
  intro m hm
  exact asserts_annotation (hkeys (List.mem_map_of_mem hm)) m.2

/-- The assertions after a structure accept what they hold of. -/
lemma acceptsMembers_body : I.acceptsMembers names k.body v = I.holds k v := by
  have hdata : ∀ key ∈ bodyKeys, Json.placeOf none key = .data := by decide
  exact acceptsMembers_of_data fun key hkey => hdata key (k.keys_body.subset hkey)

/-- Keywords around a structure that is no reference alone accept what both of them do. -/
theorem accepts_around (h : I.only? members = none) :
    I.accepts (.object (k.around members)) v =
      (I.acceptsMembers (declared members) members v && I.holds k v) := by
  have honly : I.only? (k.around members) = none := by
    unfold only? at h ⊢
    rwa [lookup_around (by decide)]
  have hdeclared : declared (k.around members) = declared members := by
    rw [declared, lookup_around (by decide), declared]
  rw [accepts, honly]
  dsimp only
  have hhead : I.acceptsMembers (declared members) k.head v = true :=
    acceptsMembers_annotations fun _ h => List.mem_append_left _ (k.keys_head.subset h)
  have htail : I.acceptsMembers (declared members) k.tail v = true :=
    acceptsMembers_annotations fun _ h => List.mem_append_right _ (k.keys_tail.subset h)
  rw [hdeclared, Keywords.around, acceptsMembers_append, acceptsMembers_append,
    acceptsMembers_append, hhead, htail, acceptsMembers_body, Bool.true_and, Bool.and_true]

/-- Keywords around a reference that stands alone have no meaning. -/
theorem accepts_around_of_only? {target : Json} (h : I.only? members = some target) :
    I.accepts (.object (k.around members)) v = I.refers target v := by
  have honly : I.only? (k.around members) = some target := by
    unfold only? at h ⊢
    rwa [lookup_around (by decide)]
  rw [accepts, honly]

end Interpretation

end SchemaCompiler
