import SchemaCompiler.Proofs.Schema.Placeholder

/-!
# Parts of schemas

`Node.parts` lists a schema and the schemas inside it.  A condition on names says which properties
are entered, so that the parts that are seen without entering some properties can be compared with
all parts.  `Node.All` says that something holds of every part.

The references of a schema are the references among its parts (`Node.mem_targets_iff`), and linking
a schema links each of its parts (`Node.parts_link`).
-/

namespace SchemaCompiler.Node

section Parts

variable (keep : String → Bool)

mutual

/-- A schema and the schemas inside it, outer ones first.  A property is entered if its name is
kept. -/
def parts : Node → List Node
  | any k => [any k]
  | null k => [null k]
  | scalar primitive k => [scalar primitive k]
  | enum values k => [enum values k]
  | nominal name k => [nominal name k]
  | ref target k => [ref target k]
  | array items k => array items k :: items.parts
  | nullable inner => nullable inner :: inner.parts
  | oneOf variants k => oneOf variants k :: partsOfList variants
  | object typed allOf properties required additional k =>
    object typed allOf properties required additional k ::
      (partsOfList allOf ++ partsOfProperties properties ++ partsOfOption additional)

/-- The parts of the schemas in a list. -/
def partsOfList : List Node → List Node
  | [] => []
  | n :: ns => n.parts ++ partsOfList ns

/-- The parts of the properties that are entered. -/
def partsOfProperties : List (String × Node) → List Node
  | [] => []
  | (name, n) :: ps => (if keep name then n.parts else []) ++ partsOfProperties ps

/-- The parts of a schema, if there is one. -/
def partsOfOption : Option Node → List Node
  | none => []
  | some n => n.parts

end

/-- A schema is a part of itself. -/
lemma mem_parts_self (n : Node) : n ∈ n.parts keep := by
  cases n <;> simp [parts]

variable {keep}

/-- The parts of the schemas in a list are those of its elements. -/
lemma mem_partsOfList {m : Node} {ns : List Node} :
    m ∈ partsOfList keep ns ↔ ∃ n ∈ ns, m ∈ n.parts keep := by
  induction ns with
  | nil => simp [partsOfList]
  | cons n ns ih => simp [partsOfList, ih]

/-- The parts of properties are those of the schemas under kept names. -/
lemma mem_partsOfProperties {m : Node} {ps : List (String × Node)} :
    m ∈ partsOfProperties keep ps ↔ ∃ p ∈ ps, keep p.1 = true ∧ m ∈ p.2.parts keep := by
  induction ps with
  | nil => simp [partsOfProperties]
  | cons p ps ih =>
    obtain ⟨name, n⟩ := p
    cases hname : keep name <;> simp [partsOfProperties, hname, ih]

mutual

/-- What is met on entering some properties is met on entering all of them. -/
theorem mem_parts_of_mem {m : Node} : ∀ n : Node, m ∈ n.parts keep → m ∈ n.parts fun _ => true
  | any _ | null _ | scalar _ _ | enum _ _ | nominal _ _ | ref _ _ => by simp [parts]
  | array items _ => by
    simpa only [parts, List.mem_cons] using Or.imp_right (mem_parts_of_mem items)
  | nullable inner => by
    simpa only [parts, List.mem_cons] using Or.imp_right (mem_parts_of_mem inner)
  | oneOf variants _ => by
    simpa only [parts, List.mem_cons] using Or.imp_right (mem_partsOfList_of_mem variants)
  | object _ allOf properties _ additional _ => by
    simpa only [parts, List.mem_cons, List.mem_append] using
      Or.imp_right (Or.imp (Or.imp (mem_partsOfList_of_mem allOf)
        (mem_partsOfProperties_of_mem properties)) (mem_partsOfOption_of_mem additional))

/-- The parts met in schemas are among all of their parts. -/
theorem mem_partsOfList_of_mem {m : Node} : ∀ ns : List Node,
    m ∈ partsOfList keep ns → m ∈ partsOfList (fun _ => true) ns
  | [] => id
  | n :: ns => by
    simpa only [partsOfList, List.mem_append] using
      Or.imp (mem_parts_of_mem n) (mem_partsOfList_of_mem ns)

/-- The parts met in properties are among all of their parts. -/
theorem mem_partsOfProperties_of_mem {m : Node} : ∀ ps : List (String × Node),
    m ∈ partsOfProperties keep ps → m ∈ partsOfProperties (fun _ => true) ps
  | [] => id
  | (name, n) :: ps => by
    have hrest := mem_partsOfProperties_of_mem (m := m) ps
    cases hname : keep name with
    | true =>
      simpa only [partsOfProperties, hname, if_true, List.mem_append] using
        Or.imp (mem_parts_of_mem n) hrest
    | false =>
      intro hm
      exact List.mem_append_right _ (hrest (by simpa [partsOfProperties, hname] using hm))

/-- The parts met in a schema, if there is one, are among all of its parts. -/
theorem mem_partsOfOption_of_mem {m : Node} : ∀ n? : Option Node,
    m ∈ partsOfOption keep n? → m ∈ partsOfOption (fun _ => true) n?
  | none => id
  | some n => mem_parts_of_mem n

end

end Parts

/-! ### Properties of all parts -/

/-- Something holds of every part of a schema. -/
def All (P : Node → Prop) (n : Node) : Prop := ∀ m ∈ n.parts (fun _ => true), P m

section All

variable {P : Node → Prop} {k : Keywords}

/-- What holds of every part holds of the schema. -/
lemma All.self {n : Node} (h : n.All P) : P n := h n (mem_parts_self _ n)

/-- It holds of an array and of the parts of the elements' schema. -/
@[simp] lemma all_array {items : Node} :
    (array items k).All P ↔ P (array items k) ∧ items.All P := by
  simp [All, parts]

/-- It holds of a nullable schema and of the parts of the inner one. -/
@[simp] lemma all_nullable {inner : Node} :
    (nullable inner).All P ↔ P (nullable inner) ∧ inner.All P := by
  simp [All, parts]

/-- It holds of a union and of the parts of its variants. -/
@[simp] lemma all_oneOf {variants : List Node} :
    (oneOf variants k).All P ↔ P (oneOf variants k) ∧ ∀ n ∈ variants, n.All P := by
  simp only [All, parts, List.forall_mem_cons, mem_partsOfList]
  exact and_congr_right fun _ => ⟨fun h n hn m hm => h m ⟨n, hn, hm⟩,
    fun h m ⟨n, hn, hm⟩ => h n hn m hm⟩

/-- It holds of an object and of the parts of everything that the object consists of. -/
@[simp] lemma all_object {typed : Bool} {allOf : List Node} {properties : List (String × Node)}
    {required : List String} {additional : Option Node} :
    (object typed allOf properties required additional k).All P ↔
      P (object typed allOf properties required additional k) ∧ (∀ n ∈ allOf, n.All P) ∧
        (∀ p ∈ properties, p.2.All P) ∧ ∀ n ∈ additional, n.All P := by
  have hadditional : (∀ m ∈ partsOfOption (fun _ => true) additional, P m) ↔
      ∀ n ∈ additional, n.All P := by
    cases additional <;> simp [partsOfOption, All]
  simp only [All, parts, List.forall_mem_cons, List.forall_mem_append, mem_partsOfList,
    mem_partsOfProperties, hadditional]
  refine and_congr_right fun _ => ⟨?_, ?_⟩
  · rintro ⟨⟨hallOf, hproperties⟩, hrest⟩
    exact ⟨fun n hn m hm => hallOf m ⟨n, hn, hm⟩,
      fun p hp m hm => hproperties m ⟨p, hp, trivial, hm⟩, hrest⟩
  · rintro ⟨hallOf, hproperties, hrest⟩
    exact ⟨⟨fun m ⟨n, hn, hm⟩ => hallOf n hn m hm,
      fun m ⟨p, hp, _, hm⟩ => hproperties p hp m hm⟩, hrest⟩

/-- A schema without inner ones is its only part. -/
@[simp] lemma all_any : (any k).All P ↔ P (any k) := by simp [All, parts]

@[simp] lemma all_null : (null k).All P ↔ P (null k) := by simp [All, parts]

@[simp] lemma all_scalar {primitive : Primitive} :
    (scalar primitive k).All P ↔ P (scalar primitive k) := by simp [All, parts]

@[simp] lemma all_enum {values : List String} : (enum values k).All P ↔ P (enum values k) := by
  simp [All, parts]

@[simp] lemma all_nominal {name : TypeName} : (nominal name k).All P ↔ P (nominal name k) := by
  simp [All, parts]

@[simp] lemma all_ref {target : CanonicalId} : (ref target k).All P ↔ P (ref target k) := by
  simp [All, parts]

/-- The value schema is a part. -/
lemma All.value {n : Node} (h : n.All P) : n.value.All P := by
  fun_induction Node.value n with
  | case1 inner ih => exact ih (all_nullable.mp h).2
  | case2 n hn => exact h

/-- What follows from what holds of every part holds of every part. -/
lemma All.imp {Q : Node → Prop} {n : Node} (h : n.All P) (hPQ : ∀ m, P m → Q m) : n.All Q :=
  fun m hm => hPQ m (h m hm)

/-- A change of the value schema keeps what holds of every part, if it holds of the changed schema
and null may be accepted beside what it holds of. -/
lemma All.mapValue {n : Node} {f : Node → Node} (h : n.All P)
    (hnullable : ∀ inner, P inner → P (nullable inner)) (hf : (f n.value).All P) :
    (n.mapValue f).All P := by
  fun_induction Node.mapValue f n with
  | case1 inner ih =>
    have hinner := ih (all_nullable.mp h).2 hf
    exact all_nullable.mpr ⟨hnullable _ hinner.self, hinner⟩
  | case2 n hn =>
    cases n with
    | nullable inner => exact absurd rfl (hn inner)
    | _ => exact hf

/-- Other keywords leave the parts inside a schema as they are. -/
lemma All.mapKeywords {n : Node} {f : Keywords → Keywords} (h : n.All P)
    (hself : P (n.mapKeywords f)) : (n.mapKeywords f).All P := by
  cases n with
  | array items k => exact all_array.mpr ⟨hself, (all_array.mp h).2⟩
  | object typed allOf properties required additional k =>
    exact all_object.mpr ⟨hself, (all_object.mp h).2⟩
  | nullable inner => exact h
  | oneOf variants k => exact all_oneOf.mpr ⟨hself, (all_oneOf.mp h).2⟩
  | any k => exact all_any.mpr hself
  | null k => exact all_null.mpr hself
  | scalar primitive k => exact all_scalar.mpr hself
  | enum values k => exact all_enum.mpr hself
  | nominal name k => exact all_nominal.mpr hself
  | ref target k => exact all_ref.mpr hself

/-- Merged keywords are those of the value schema. -/
lemma value_merge : ∀ n : Node, (n.merge k).value = n.value.mapKeywords (·.merge k)
  | nullable inner => value_merge inner
  | any _ | null _ | scalar _ _ | enum _ _ | array _ _ | object _ _ _ _ _ _ | oneOf _ _
  | nominal _ _ | ref _ _ => rfl

/-- Merged keywords keep what holds of every part, if it holds of the value schema with them. -/
lemma All.merge {n : Node} (h : n.All P) (hnullable : ∀ inner, P inner → P (nullable inner))
    (hself : P (n.value.mapKeywords (·.merge k))) : (n.merge k).All P :=
  h.mapValue hnullable (h.value.mapKeywords hself)

end All

/-! ### References -/

/-- Where a schema leads that is a reference. -/
def target? : Node → Option CanonicalId
  | ref target _ => some target
  | _ => none

mutual

/-- The references of a schema are the references among its parts. -/
theorem mem_targets_iff (id : CanonicalId) : ∀ n : Node,
    id ∈ n.targets ↔ ∃ m ∈ n.parts (fun _ => true), m.target? = some id
  | any _ | null _ | scalar _ _ | enum _ _ | nominal _ _ => by simp [targets, parts, target?]
  | ref target _ => by simp [targets, parts, target?, eq_comm]
  | array items _ => by simp [targets, parts, target?, mem_targets_iff id items]
  | nullable inner => by simp [targets, parts, target?, mem_targets_iff id inner]
  | oneOf variants _ => by simp [targets, parts, target?, mem_targetsOfList_iff id variants]
  | object _ allOf properties _ additional _ => by
    simp [targets, parts, target?, mem_targetsOfList_iff id allOf,
      mem_targetsOfProperties_iff id properties, mem_targetsOfOption_iff id additional,
      or_and_right, exists_or]

/-- The references of schemas are the references among their parts. -/
theorem mem_targetsOfList_iff (id : CanonicalId) : ∀ ns : List Node,
    id ∈ targetsOfList ns ↔ ∃ m ∈ partsOfList (fun _ => true) ns, m.target? = some id
  | [] => by simp [targetsOfList, partsOfList]
  | n :: ns => by
    simp [targetsOfList, partsOfList, mem_targets_iff id n, mem_targetsOfList_iff id ns,
      or_and_right, exists_or]

/-- The references of properties are the references among their parts. -/
theorem mem_targetsOfProperties_iff (id : CanonicalId) : ∀ ps : List (String × Node),
    id ∈ targetsOfProperties ps ↔
      ∃ m ∈ partsOfProperties (fun _ => true) ps, m.target? = some id
  | [] => by simp [targetsOfProperties, partsOfProperties]
  | (_, n) :: ps => by
    simp [targetsOfProperties, partsOfProperties, mem_targets_iff id n,
      mem_targetsOfProperties_iff id ps, or_and_right, exists_or]

/-- The references of a schema, if there is one, are the references among its parts. -/
theorem mem_targetsOfOption_iff (id : CanonicalId) : ∀ n? : Option Node,
    id ∈ targetsOfOption n? ↔ ∃ m ∈ partsOfOption (fun _ => true) n?, m.target? = some id
  | none => by simp [targetsOfOption, partsOfOption]
  | some n => by simpa [targetsOfOption, partsOfOption] using mem_targets_iff id n

end

/-! ### Linking -/

section Link

variable {keep : String → Bool}

mutual

/-- Linking a schema links each of its parts. -/
theorem parts_link (f : TypeName → CanonicalId) : ∀ n : Node,
    (n.link f).parts keep = (n.parts keep).map (link f)
  | any _ | null _ | scalar _ _ | enum _ _ | nominal _ _ | ref _ _ => by simp [link, parts]
  | array items _ => by simp [link, parts, parts_link f items]
  | nullable inner => by simp [link, parts, parts_link f inner]
  | oneOf variants _ => by simp [link, parts, partsOfList_linkList f variants]
  | object _ allOf properties _ additional _ => by
    simp [link, parts, partsOfList_linkList f allOf, partsOfProperties_linkProperties f properties,
      partsOfOption_linkOption f additional]

/-- Linking schemas links each of their parts. -/
theorem partsOfList_linkList (f : TypeName → CanonicalId) : ∀ ns : List Node,
    partsOfList keep (linkList f ns) = (partsOfList keep ns).map (link f)
  | [] => rfl
  | n :: ns => by simp [linkList, partsOfList, parts_link f n, partsOfList_linkList f ns]

/-- Linking properties links each of their parts. -/
theorem partsOfProperties_linkProperties (f : TypeName → CanonicalId) :
    ∀ ps : List (String × Node),
      partsOfProperties keep (linkProperties f ps) = (partsOfProperties keep ps).map (link f)
  | [] => rfl
  | (name, n) :: ps => by
    cases hname : keep name <;>
      simp [linkProperties, partsOfProperties, hname, parts_link f n,
        partsOfProperties_linkProperties f ps]

/-- Linking a schema, if there is one, links each of its parts. -/
theorem partsOfOption_linkOption (f : TypeName → CanonicalId) : ∀ n? : Option Node,
    partsOfOption keep (linkOption f n?) = (partsOfOption keep n?).map (link f)
  | none => rfl
  | some n => by simpa [linkOption, partsOfOption] using parts_link f n

end

/-- What linking keeps of each schema holds of every part of a linked one. -/
lemma All.link {P : Node → Prop} {n : Node} (f : TypeName → CanonicalId)
    (hlink : ∀ m : Node, P m → P (m.link f)) (h : n.All P) : (n.link f).All P := by
  intro m hm
  rw [parts_link] at hm
  obtain ⟨part, hpart, rfl⟩ := List.mem_map.mp hm
  exact hlink part (h part hpart)

end Link

end SchemaCompiler.Node
