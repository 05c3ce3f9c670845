import Mathlib.Data.List.Induction
import SchemaCompiler.Proofs.CompilationUnit

/-!
# Names in their scopes

Names are lexically scoped.  Inside a nested type a name stands for the type of that name declared
right there, or else for what it stands for in the type around it.  At the top level the package
comes next, unless it is the default one, and then the name is a full name
(`CompilationUnit.resolve?_lexical`).

`CompilationUnit.Denotes` is the relation that these rules define.  The scopes of a nested type are
its own full name and the scopes of the type around it (`TypeName.scopes_nested`), so by induction
on the chain of enclosing types the search through all scopes finds exactly what a name denotes
(`CompilationUnit.resolve?_eq_some_iff`).
-/

namespace SchemaCompiler

/-! ### Scopes -/

namespace TypeName

/-- The package alone, where no type is around. -/
def ofPackage (package : String) : TypeName := ⟨package, []⟩

/-- A type at the top level has only the package around it. -/
lemma nested_ofPackage (package name : String) :
    (ofPackage package).nested name = topLevel package name := rfl

/-- A chain of names is either the package alone or that of a type and the chain around it. -/
@[elab_as_elim]
lemma nested_induction {motive : TypeName → Prop}
    (ofPackage : ∀ package, motive (ofPackage package))
    (nested : ∀ p name, motive p → motive (p.nested name)) (t : TypeName) : motive t := by
  obtain ⟨package, nesting⟩ := t
  induction nesting using List.reverseRecOn with
  | nil => exact ofPackage package
  | append_singleton nesting name ih => exact nested ⟨package, nesting⟩ name ih

/-- The chains around a nested type are its own chain and those around the type it is nested in. -/
lemma enclosing_nested (p : TypeName) (name : String) :
    (p.nested name).enclosing = (p.nested name).nesting :: p.enclosing := by
  have hprefix : ∀ k ∈ (List.range p.nesting.length).reverse,
      (p.nesting ++ [name]).take (k + 1) = p.nesting.take (k + 1) := by
    intro k hk
    rw [List.mem_reverse, List.mem_range] at hk
    exact List.take_append_of_le_length hk
  have hwhole : (p.nesting ++ [name]).take (p.nesting.length + 1) = p.nesting ++ [name] :=
    List.take_of_length_le (by simp)
  simp only [enclosing, nested, List.length_append, List.length_singleton, List.range_succ,
    List.reverse_append, List.reverse_singleton, List.singleton_append, List.map_cons, hwhole,
    List.map_congr_left hprefix]

/-- The scopes of a nested type are its full name and the scopes of the type it is nested in. -/
theorem scopes_nested (p : TypeName) (name : String) :
    (p.nested name).scopes = (p.nested name).qualified :: p.scopes := by
  rw [scopes, enclosing_nested, List.map_cons, List.cons_append]
  rfl

/-- The scope of a package is the package, unless it is the default one. -/
lemma scopes_ofPackage (package : String) :
    (ofPackage package).scopes = if package = "" then [] else [package] := by
  simp [scopes, ofPackage, enclosing, String.isEmpty_iff]

end TypeName

namespace CompilationUnit

open SchemaCompiler.TypeName (ofPackage topLevel)

variable {unit : CompilationUnit} {inside p : TypeName} {package name text written : String}
  {t u : DeclaredType}

/-! ### Declared full names -/

/-- The type is declared, and a text is its full name. -/
def DeclaredAs (unit : CompilationUnit) (text : String) (t : DeclaredType) : Prop :=
  t ∈ unit.types ∧ t.name.qualified = text

/-- No type is declared that has a text as its full name. -/
def Undeclared (unit : CompilationUnit) (text : String) : Prop := ∀ t, ¬unit.DeclaredAs text t

/-- A text finds nothing exactly if it is no full name. -/
lemma lookup?_eq_none_iff : unit.lookup? text = none ↔ unit.Undeclared text := by
  simp [lookup?, Undeclared, DeclaredAs, List.find?_eq_none]

/-! ### Names inside a type and around it -/

/-- A name is looked up in the scopes in order, and then as a full name. -/
lemma resolve?_eq (unit : CompilationUnit) (inside : TypeName) (written : String) :
    unit.resolve? inside written =
      (inside.scopes.findSome? fun scope => unit.lookup? (scope ++ "." ++ written)).or
        (unit.lookup? written) := by
  unfold resolve?
  cases inside.scopes.findSome? fun scope => unit.lookup? (scope ++ "." ++ written) <;> rfl

/-- Inside a nested type a name is looked up in that type, and then in the type around it. -/
theorem resolve?_nested (unit : CompilationUnit) (p : TypeName) (name written : String) :
    unit.resolve? (p.nested name) written =
      (unit.lookup? ((p.nested name).qualified ++ "." ++ written)).or
        (unit.resolve? p written) := by
  rw [resolve?_eq, resolve?_eq, TypeName.scopes_nested, List.findSome?_cons]
  cases unit.lookup? ((p.nested name).qualified ++ "." ++ written) <;> rfl

/-- What a name stands for inside a nested type. -/
lemma resolve?_nested_eq_some_iff (hunit : unit.Distinct) :
    unit.resolve? (p.nested name) written = some t ↔
      unit.DeclaredAs ((p.nested name).qualified ++ "." ++ written) t ∨
        unit.Undeclared ((p.nested name).qualified ++ "." ++ written) ∧
          unit.resolve? p written = some t := by
  rw [resolve?_nested, Option.or_eq_some_iff, lookup?_eq_some_iff hunit, lookup?_eq_none_iff]
  rfl

/-- In a package a name is looked up in the package, unless it is the default one, and then as a
full name. -/
lemma resolve?_ofPackage (unit : CompilationUnit) (package written : String) :
    unit.resolve? (ofPackage package) written =
      (if package = "" then none else unit.lookup? (package ++ "." ++ written)).or
        (unit.lookup? written) := by
  rw [resolve?_eq, TypeName.scopes_ofPackage]
  split
  · rfl
  · rw [List.findSome?_singleton]

/-- What a name stands for in a package. -/
lemma resolve?_ofPackage_eq_some_iff (hunit : unit.Distinct) :
    unit.resolve? (ofPackage package) written = some t ↔
      package ≠ "" ∧ unit.DeclaredAs (package ++ "." ++ written) t ∨
        (package ≠ "" → unit.Undeclared (package ++ "." ++ written)) ∧
          unit.DeclaredAs written t := by
  rw [resolve?_ofPackage]
  by_cases hpackage : package = ""
  · simp [hpackage, DeclaredAs, lookup?_eq_some_iff hunit]
  · simp [hpackage, DeclaredAs, lookup?_eq_some_iff hunit, lookup?_eq_none_iff,
      Option.or_eq_some_iff]

/-- A name stands for nothing in a package exactly if it is declared neither there nor as a full
name. -/
lemma resolve?_ofPackage_eq_none_iff :
    unit.resolve? (ofPackage package) written = none ↔
      (package ≠ "" → unit.Undeclared (package ++ "." ++ written)) ∧ unit.Undeclared written := by
  rw [resolve?_ofPackage, Option.or_eq_none_iff, lookup?_eq_none_iff]
  by_cases hpackage : package = ""
  · simp [hpackage]
  · simp [hpackage, lookup?_eq_none_iff]

/-! ### What names denote -/

/-- What a name denotes where it is written. -/
inductive Denotes (unit : CompilationUnit) (written : String) : TypeName → DeclaredType → Prop
  /-- A type declared right inside the type. -/
  | own {p : TypeName} {name : String} {t : DeclaredType} :
    unit.DeclaredAs ((p.nested name).qualified ++ "." ++ written) t →
    Denotes unit written (p.nested name) t
  /-- If there is none, what the name denotes in the type around it. -/
  | around {p : TypeName} {name : String} {t : DeclaredType} :
    unit.Undeclared ((p.nested name).qualified ++ "." ++ written) →
    Denotes unit written p t → Denotes unit written (p.nested name) t
  /-- A type declared at the top level of the package. -/
  | package {package : String} {t : DeclaredType} :
    package ≠ "" → unit.DeclaredAs (package ++ "." ++ written) t →
    Denotes unit written (ofPackage package) t
  /-- If there is none, the type with this full name. -/
  | full {package : String} {t : DeclaredType} :
    (package ≠ "" → unit.Undeclared (package ++ "." ++ written)) → unit.DeclaredAs written t →
    Denotes unit written (ofPackage package) t

/-- A name stands for what it denotes. -/
lemma Denotes.resolve? (hunit : unit.Distinct) (h : unit.Denotes written inside t) :
    unit.resolve? inside written = some t := by
  induction h with
  | own hown => exact (resolve?_nested_eq_some_iff hunit).mpr (Or.inl hown)
  | around hnone _ ih => exact (resolve?_nested_eq_some_iff hunit).mpr (Or.inr ⟨hnone, ih⟩)
  | package hpackage ht =>
    exact (resolve?_ofPackage_eq_some_iff hunit).mpr (Or.inl ⟨hpackage, ht⟩)
  | full hnone ht => exact (resolve?_ofPackage_eq_some_iff hunit).mpr (Or.inr ⟨hnone, ht⟩)

/-- The search through all scopes finds exactly what a name denotes. -/
theorem resolve?_eq_some_iff (hunit : unit.Distinct) :
    unit.resolve? inside written = some t ↔ unit.Denotes written inside t := by
  refine ⟨?_, Denotes.resolve? hunit⟩
  -- The search goes through the scope of the type first, and then through those around it.
  induction inside using TypeName.nested_induction with
  | ofPackage package =>
    rw [resolve?_ofPackage_eq_some_iff hunit]
    rintro (⟨hpackage, ht⟩ | ⟨hnone, ht⟩)
    · exact .package hpackage ht
    · exact .full hnone ht
  | nested p name ih =>
    rw [resolve?_nested_eq_some_iff hunit]
    rintro (hown | ⟨hnone, haround⟩)
    · exact .own hown
    · exact .around hnone (ih haround)

/-- Where it is written, a name denotes one type at most. -/
theorem Denotes.unique (hunit : unit.Distinct) (h : unit.Denotes written inside t)
    (h' : unit.Denotes written inside u) : t = u :=
  Option.some.inj ((h.resolve? hunit).symm.trans (h'.resolve? hunit))

/-- Inside a nested type a name stands for the type declared there under it, if there is one, and
otherwise for what it stands for in the type around it.  At the top level of a package it stands for
the type declared inside the type, else for the one in the package, unless this is the default one,
and else for the one whose full name it is; if none of these is declared, and only then, it stands
for nothing. -/
theorem resolve?_lexical (hunit : unit.Distinct) (written : String) :
    (∀ (p : TypeName) (name : String),
      (∀ t, unit.DeclaredAs ((p.nested name).qualified ++ "." ++ written) t →
        unit.resolve? (p.nested name) written = some t) ∧
      (unit.Undeclared ((p.nested name).qualified ++ "." ++ written) →
        unit.resolve? (p.nested name) written = unit.resolve? p written)) ∧
    ∀ package name : String,
      (∀ t, unit.resolve? (topLevel package name) written = some t ↔
        unit.DeclaredAs ((topLevel package name).qualified ++ "." ++ written) t ∨
        unit.Undeclared ((topLevel package name).qualified ++ "." ++ written) ∧
          (package ≠ "" ∧ unit.DeclaredAs (package ++ "." ++ written) t ∨
          (package ≠ "" → unit.Undeclared (package ++ "." ++ written)) ∧
            unit.DeclaredAs written t)) ∧
      (unit.resolve? (topLevel package name) written = none ↔
        unit.Undeclared ((topLevel package name).qualified ++ "." ++ written) ∧
          (package ≠ "" → unit.Undeclared (package ++ "." ++ written)) ∧
          unit.Undeclared written) := by
  refine ⟨fun p name => ⟨fun t hown => ?_, fun hnone => ?_⟩,
    fun package name => ⟨fun t => ?_, ?_⟩⟩
  · exact (resolve?_nested_eq_some_iff hunit).mpr (Or.inl hown)
  · rw [resolve?_nested, lookup?_eq_none_iff.mpr hnone, Option.none_or]
  · rw [← TypeName.nested_ofPackage, resolve?_nested_eq_some_iff hunit,
      resolve?_ofPackage_eq_some_iff hunit]
  · rw [← TypeName.nested_ofPackage, resolve?_nested, Option.or_eq_none_iff, lookup?_eq_none_iff,
      resolve?_ofPackage_eq_none_iff]

/-- Declarations with a den at the top level and one inside each of two nested types. -/
def dens : DeclarationFile where
  package := some "zoo"
  types :=
    [ { name := "Wombat", nested :=
        [{ name := "Burrow", nested := [{ name := "Den" }] }, { name := "Den" }] },
      { name := "Den" },
      { name := "Llama" } ]

/-- A den is found where it is declared, and a llama from everywhere in the package. -/
theorem resolve?_dens : ∃ unit, ofFiles [("zoo.yaml", dens)] = .ok unit ∧ unit.Distinct ∧
    (unit.resolve? ((topLevel "zoo" "Wombat").nested "Burrow") "Den").map (·.name.qualified) =
      some "zoo.Wombat.Burrow.Den" ∧
    unit.resolve? ((topLevel "zoo" "Wombat").nested "Burrow") "Llama" =
      unit.resolve? (topLevel "zoo" "Wombat") "Llama" ∧
    (unit.resolve? (topLevel "zoo" "Wombat") "Llama").map (·.name.qualified) =
      some "zoo.Llama" ∧
    unit.resolve? (topLevel "zoo" "Llama") "Keeper" = none := by
  have hdistinct := @distinct_of_ofFiles _ [("zoo.yaml", dens)] rfl
  obtain ⟨hnested, -⟩ := resolve?_lexical hdistinct "Den"
  obtain ⟨haround, htop⟩ := resolve?_lexical hdistinct "Llama"
  obtain ⟨-, hkeeper⟩ := resolve?_lexical hdistinct "Keeper"
  refine ⟨_, rfl, hdistinct, ?_, ?_, ?_, ?_⟩
  · rw [(hnested _ _).1 _ ((lookup?_eq_some_iff hdistinct).mp rfl)]
    rfl
  · exact (haround _ _).2 (lookup?_eq_none_iff.mp rfl)
  · rw [((htop _ _).1 _).mpr (Or.inr ⟨lookup?_eq_none_iff.mp rfl,
      Or.inl ⟨by decide, (lookup?_eq_some_iff hdistinct).mp rfl⟩⟩)]
    rfl
  · exact (hkeeper _ _).2.mpr ⟨lookup?_eq_none_iff.mp rfl, fun _ => lookup?_eq_none_iff.mp rfl,
      lookup?_eq_none_iff.mp rfl⟩

end CompilationUnit

end SchemaCompiler
