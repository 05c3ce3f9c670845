import Mathlib.Data.List.Nodup
import SchemaCompiler.CompilationUnit
import SchemaCompiler.Proofs.Outcome

/-!
# The unit of some files

A type is added to a unit unless its full name is taken.  So the unit of some files exists exactly
if the types that the files declare have distinct full names, and it lists these types and the
declared settings in order (`ofFiles_eq_ok_iff`).  In it a full name finds the type that has it
(`lookup?_eq_some_iff`).

A root is also looked for by other texts than full names, and the first root that goes by a text is
found.  Hence a root is found by its full name exactly if no root before it goes by that text
(`findRoot?_qualified`).
-/

namespace SchemaCompiler

variable {unit unit' : CompilationUnit} {t : DeclaredType}

/-- Whether a type is a root that goes by a text: by its full name, its name inside the package, or
the schema name that it declares. -/
def DeclaredType.goesBy (text : String) (t : DeclaredType) : Bool :=
  t.isRoot && (t.name.qualified == text || t.name.chain == text ||
    (t.declaration.schema.bind (·.name)) == some text)

/-- A root that goes by a text has it as one of three names. -/
lemma DeclaredType.goesBy_iff {text : String} : t.goesBy text = true ↔
    t.isRoot = true ∧ (t.name.qualified = text ∨ t.name.chain = text ∨
      t.declaration.schema.bind (·.name) = some text) := by
  simp [goesBy, or_assoc]

/-- The types of a list are flattened one by one. -/
lemma TypeDeclaration.flattenList_eq (origin : String) (qualify : String → TypeName)
    (types : List TypeDeclaration) :
    flattenList origin qualify types =
      types.flatMap fun t => t.flatten origin (qualify t.name) := by
  induction types with
  | nil => rfl
  | cons t types ih => rw [flattenList, ih, List.flatMap_cons]

namespace CompilationUnit

/-- No two types of a unit have the same full name. -/
def Distinct (unit : CompilationUnit) : Prop := (unit.types.map (·.name.qualified)).Nodup

/-! ### Looking up full names -/

/-- A full name finds exactly the type that has it. -/
lemma lookup?_eq_some_iff (hunit : unit.Distinct) {qualified : String} :
    unit.lookup? qualified = some t ↔ t ∈ unit.types ∧ t.name.qualified = qualified := by
  constructor
  · intro h
    exact ⟨List.mem_of_find?_eq_some h, by simpa [lookup?] using List.find?_some h⟩
  · rintro ⟨ht, rfl⟩
    have hfound : (unit.lookup? t.name.qualified).isSome := by
      rw [lookup?, List.find?_isSome]
      exact ⟨t, ht, beq_self_eq_true t.name.qualified⟩
    obtain ⟨u, hu⟩ := Option.isSome_iff_exists.mp hfound
    have hname : u.name.qualified = t.name.qualified := by simpa [lookup?] using List.find?_some hu
    rw [hu, List.inj_on_of_nodup_map hunit (List.mem_of_find?_eq_some hu) ht hname]

/-! ### Files -/

/-- The types that some files declare, in order. -/
def typesOf (files : List (String × DeclarationFile)) : List DeclaredType :=
  files.flatMap fun file => file.2.declaredTypes file.1

/-- The settings that some files declare, each with its file. -/
def configurationsOf (files : List (String × DeclarationFile)) :
    List (String × ConfigurationDeclaration) :=
  files.flatMap fun file => (file.2.configuration.map fun c => (file.1, c)).toList

/-- The unit with more types. -/
def withTypes (unit : CompilationUnit) (types : List DeclaredType) : CompilationUnit :=
  { unit with types := unit.types ++ types }

/-- The unit with the declarations of a file, whatever their names are. -/
def withFile (unit : CompilationUnit) (file : String × DeclarationFile) : CompilationUnit where
  types := unit.types ++ file.2.declaredTypes file.1
  configurations :=
    unit.configurations ++ (file.2.configuration.map fun c => (file.1, c)).toList

/-- Names that are distinct with those of more types are distinct without them. -/
lemma Distinct.of_withTypes {types : List DeclaredType} (h : (unit.withTypes types).Distinct) :
    unit.Distinct := by
  unfold Distinct withTypes at h
  rw [List.map_append] at h
  exact h.of_append_left

/-- A type is added exactly if its full name is new. -/
lemma addType_eq_ok_iff (hunit : unit.Distinct) :
    unit.addType t = .ok unit' ↔ unit' = unit.withTypes [t] ∧ unit'.Distinct := by
  have hnew : (unit.withTypes [t]).Distinct ↔ unit.lookup? t.name.qualified = none := by
    rw [Distinct, withTypes, List.map_append, List.nodup_append, lookup?, List.find?_eq_none]
    constructor
    · rintro ⟨-, -, hne⟩ u hu
      simpa using hne _ (List.mem_map_of_mem hu) _ (List.mem_singleton_self _)
    · intro hne
      refine ⟨hunit, List.pairwise_singleton _ _, ?_⟩
      simpa using hne
  unfold addType
  split
  · next u hu =>
    refine iff_of_false nofun ?_
    rintro ⟨rfl, hdistinct⟩
    rw [hnew.mp hdistinct] at hu
    cases hu
  · next hnone =>
    constructor
    · rintro ⟨⟩
      exact ⟨rfl, hnew.mpr hnone⟩
    · rintro ⟨rfl, -⟩
      rfl

/-- Types are added one after another. -/
lemma foldl_withTypes (unit : CompilationUnit) (types : List DeclaredType) :
    types.foldl (fun unit t => unit.withTypes [t]) unit = unit.withTypes types := by
  induction types generalizing unit with
  | nil => exact congrArg (CompilationUnit.mk · _) (List.append_nil _).symm
  | cons t types ih =>
    rw [List.foldl_cons, ih]
    exact congrArg (CompilationUnit.mk · _) (List.append_assoc _ _ _)

/-- A file is added exactly if the full names of its types are new and distinct. -/
lemma addFile_eq_ok_iff (hunit : unit.Distinct) {file : String × DeclarationFile} :
    unit.addFile file.1 file.2 = .ok unit' ↔ unit' = unit.withFile file ∧ unit'.Distinct := by
  let configured : CompilationUnit := { unit with
    configurations :=
      unit.configurations ++ (file.2.configuration.map fun c => (file.1, c)).toList }
  have hconfigured : configured.Distinct := hunit
  show (file.2.declaredTypes file.1).foldlM addType configured = .ok unit' ↔ _
  rw [foldlM_eq_ok_iff_foldl (P := Distinct) (fun _ _ _ h => addType_eq_ok_iff h)
    (fun _ _ => Distinct.of_withTypes) hconfigured, foldl_withTypes]
  rfl

/-- Files are added one after another. -/
lemma foldl_withFile (unit : CompilationUnit) (files : List (String × DeclarationFile)) :
    files.foldl withFile unit =
      ⟨unit.types ++ typesOf files, unit.configurations ++ configurationsOf files⟩ := by
  induction files generalizing unit with
  | nil => simp [typesOf, configurationsOf]
  | cons file files ih =>
    rw [List.foldl_cons, ih]
    simp [withFile, typesOf, configurationsOf]

/-- The unit of some files exists exactly if their types have distinct full names, and holds what
they declare. -/
theorem ofFiles_eq_ok_iff {files : List (String × DeclarationFile)} :
    ofFiles files = .ok unit ↔
      unit = ⟨typesOf files, configurationsOf files⟩ ∧ unit.Distinct := by
  have hempty : Distinct {} := List.nodup_nil
  unfold ofFiles
  rw [foldlM_eq_ok_iff_foldl (P := Distinct) (fun _ _ _ h => addFile_eq_ok_iff h)
    (fun _ _ => Distinct.of_withTypes) hempty, foldl_withFile]
  rfl

/-- The types of the unit of some files have distinct names. -/
theorem distinct_of_ofFiles {files : List (String × DeclarationFile)}
    (h : ofFiles files = .ok unit) : unit.Distinct := (ofFiles_eq_ok_iff.mp h).2

/-! ### Roots -/

/-- Types with distinct names are distinct roots. -/
lemma Distinct.nodup_roots (h : unit.Distinct) : unit.roots.Nodup := by
  have hnames : (unit.types.map (·.name)).Nodup := by
    refine List.Nodup.of_map TypeName.qualified ?_
    rw [List.map_map]
    exact h
  exact hnames.sublist (List.filter_sublist.map _)

/-- A text finds the first of the types before a root that goes by it, or else this root. -/
lemma findRoot?_append {text : String} {before after : List DeclaredType}
    (htypes : unit.types = before ++ t :: after) (ht : t.goesBy text = true) :
    unit.findRoot? text = ((before.find? (·.goesBy text)).or (some t)).map (·.name) := by
  have hdef : unit.findRoot? text = (unit.types.find? (·.goesBy text)).map (·.name) := rfl
  rw [hdef, htypes, List.find?_append, List.find?_cons_of_pos ht]

/-- No type before another one has its full name. -/
lemma Distinct.qualified_ne (hunit : unit.Distinct) {before after : List DeclaredType}
    (htypes : unit.types = before ++ t :: after) :
    ∀ u ∈ before, u.name.qualified ≠ t.name.qualified := by
  intro u hu
  rw [Distinct, htypes, List.map_append, List.nodup_append] at hunit
  exact hunit.2.2 _ (List.mem_map_of_mem hu) _ List.mem_cons_self

/-- A root is found by its full name exactly if no root before it has that text as its name inside
the package or declares it as its schema name.  Otherwise such a root is found in its place. -/
theorem findRoot?_qualified (hunit : unit.Distinct) {before after : List DeclaredType}
    (htypes : unit.types = before ++ t :: after) (hroot : t.isRoot = true) :
    (unit.findRoot? t.name.qualified = some t.name ↔
      ∀ u ∈ before, u.isRoot = true → u.name.chain ≠ t.name.qualified ∧
        u.declaration.schema.bind (·.name) ≠ some t.name.qualified) ∧
    ∃ u, (u = t ∨ u ∈ before) ∧ u.goesBy t.name.qualified = true ∧
      unit.findRoot? t.name.qualified = some u.name := by
  have hself : t.goesBy t.name.qualified = true := DeclaredType.goesBy_iff.mpr ⟨hroot, Or.inl rfl⟩
  have hother := hunit.qualified_ne htypes
  have hfind := findRoot?_append htypes hself
  cases hbefore : before.find? (·.goesBy t.name.qualified) with
  | none =>
    rw [hbefore] at hfind
    refine ⟨iff_of_true hfind fun u hu hrootU => ?_, t, Or.inl rfl, hself, hfind⟩
    have hnot : ¬u.goesBy t.name.qualified = true := List.find?_eq_none.mp hbefore u hu
    rw [DeclaredType.goesBy_iff] at hnot
    exact ⟨fun h => hnot ⟨hrootU, Or.inr (Or.inl h)⟩, fun h => hnot ⟨hrootU, Or.inr (Or.inr h)⟩⟩
  | some u =>
    rw [hbefore] at hfind
    have hu : u ∈ before := List.mem_of_find?_eq_some hbefore
    have hgoes : u.goesBy t.name.qualified = true := List.find?_some hbefore
    refine ⟨iff_of_false ?_ fun hall => ?_, u, Or.inr hu, hgoes, hfind⟩
    · rw [hfind]
      exact fun h => hother u hu (congrArg TypeName.qualified (Option.some.inj h))
    · obtain ⟨hrootU, hname | hname | hname⟩ := DeclaredType.goesBy_iff.mp hgoes
      · exact hother u hu hname
      · exact (hall u hu hrootU).1 hname
      · exact (hall u hu hrootU).2 hname

/-- The declarations of two roots, of which the first declares the full name of the second as its
schema name. -/
def borrowed : DeclarationFile where
  package := some "com.example"
  types :=
    [ { name := "Llama", schema := some { name := some "com.example.Alpaca" } },
      { name := "Alpaca", schema := some {} } ]

/-- The full name of the second root finds the first one, which declares it as its schema name. -/
theorem findRoot?_borrowed : ∃ unit, ofFiles [("zoo.yaml", borrowed)] = .ok unit ∧
    unit.roots = [.topLevel "com.example" "Llama", .topLevel "com.example" "Alpaca"] ∧
    unit.findRoot? (TypeName.topLevel "com.example" "Alpaca").qualified =
      some (.topLevel "com.example" "Llama") ∧
    unit.findRoot? (TypeName.topLevel "com.example" "Alpaca").qualified ≠
      some (.topLevel "com.example" "Alpaca") := by
  refine ⟨_, rfl, by decide, by decide, fun hfound => ?_⟩
  have hdistinct := @distinct_of_ofFiles _ [("zoo.yaml", borrowed)] rfl
  obtain ⟨hiff, -⟩ := @findRoot?_qualified _ _ hdistinct [_] _ rfl rfl
  exact (hiff.mp hfound _ List.mem_cons_self rfl).2 rfl

end CompilationUnit

end SchemaCompiler
