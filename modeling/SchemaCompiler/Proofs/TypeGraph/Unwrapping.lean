import SchemaCompiler.Proofs.TypeGraph.Closure

/-!
# Unwrapped properties

`TypeSource.Flattens` says in rules how the properties of a type are collected when unwrapped ones
are replaced by the properties of their types, without a bound on how deep types are unwrapped.  The
bounded collection follows these rules (`flattens_propertiesOf`): the types being unwrapped inside a
type are distinct declared types, so the bound is never used up, and a type that leads back to
itself is refused.

The names of the collected properties are distinct (`nodup_propertiesOf`).
-/

namespace SchemaCompiler.TypeSource

variable {source : TypeSource}

/-- The rules by which properties of a type are added to those collected before: the types being
unwrapped, the type whose properties they are, the properties, and what was collected. -/
inductive Flattens (source : TypeSource) : List TypeName → TypeName → List PropertyDeclaration →
    List PropertyDescription → Except Failure (List PropertyDescription) → Prop
  /-- No property is left. -/
  | done {unwrapping : List TypeName} {owner : TypeName} {collected : List PropertyDescription} :
      Flattens source unwrapping owner [] collected (.ok collected)
  /-- The type of the next property cannot be unwrapped. -/
  | refused {unwrapping : List TypeName} {owner : TypeName} {p : PropertyDeclaration}
      {rest : List PropertyDeclaration} {collected : List PropertyDescription} {failure : Failure}
      (hunwrapped : p.unwrapped = true)
      (htarget : source.unwrapTarget unwrapping owner p = .error failure) :
      Flattens source unwrapping owner (p :: rest) collected (.error failure)
  /-- A property of the unwrapped type fails. -/
  | stopped {unwrapping : List TypeName} {owner : TypeName} {p : PropertyDeclaration}
      {rest : List PropertyDeclaration} {collected : List PropertyDescription} {failure : Failure}
      {target : DeclaredType} (hunwrapped : p.unwrapped = true)
      (htarget : source.unwrapTarget unwrapping owner p = .ok target)
      (hinner : Flattens source (unwrapping ++ [target.name]) target.name
        (keptProperties target.declaration) collected (.error failure)) :
      Flattens source unwrapping owner (p :: rest) collected (.error failure)
  /-- The properties of the unwrapped type stand in place of the next property. -/
  | unwrapped {unwrapping : List TypeName} {owner : TypeName} {p : PropertyDeclaration}
      {rest : List PropertyDeclaration} {collected inner : List PropertyDescription}
      {target : DeclaredType} {result : Except Failure (List PropertyDescription)}
      (hunwrapped : p.unwrapped = true)
      (htarget : source.unwrapTarget unwrapping owner p = .ok target)
      (hinner : Flattens source (unwrapping ++ [target.name]) target.name
        (keptProperties target.declaration) collected (.ok inner))
      (hrest : Flattens source unwrapping owner rest inner result) :
      Flattens source unwrapping owner (p :: rest) collected result
  /-- The name of the next property is taken. -/
  | repeated {unwrapping : List TypeName} {owner : TypeName} {p : PropertyDeclaration}
      {rest : List PropertyDeclaration} {collected : List PropertyDescription}
      (hunwrapped : p.unwrapped = false)
      (htaken : collected.any (·.name == p.jsonName) = true) :
      Flattens source unwrapping owner (p :: rest) collected
        (.error (.unsupported owner.qualified p.jsonName .repeatedProperty))
  /-- The next property has no description. -/
  | undescribed {unwrapping : List TypeName} {owner : TypeName} {p : PropertyDeclaration}
      {rest : List PropertyDeclaration} {collected : List PropertyDescription} {failure : Failure}
      (hunwrapped : p.unwrapped = false)
      (hnew : collected.any (·.name == p.jsonName) = false)
      (hdescribe : source.describeProperty owner p = .error failure) :
      Flattens source unwrapping owner (p :: rest) collected (.error failure)
  /-- The next property is added. -/
  | added {unwrapping : List TypeName} {owner : TypeName} {p : PropertyDeclaration}
      {rest : List PropertyDeclaration} {collected : List PropertyDescription}
      {described : PropertyDescription} {result : Except Failure (List PropertyDescription)}
      (hunwrapped : p.unwrapped = false)
      (hnew : collected.any (·.name == p.jsonName) = false)
      (hdescribe : source.describeProperty owner p = .ok described)
      (hrest : Flattens source unwrapping owner rest (collected ++ [described]) result) :
      Flattens source unwrapping owner (p :: rest) collected result

/-! ### The bounded collection follows the rules -/

section Bound

variable {depth : Nat} {unwrapping : List TypeName} {owner : TypeName} {p : PropertyDeclaration}
  {target : DeclaredType}

/-- A property is a plain reference to a declared object type, looked up where the property is
declared. -/
def Wraps (source : TypeSource) (owner : TypeName) (p : PropertyDeclaration)
    (target : DeclaredType) : Prop :=
  ∃ written, p.type = .named written ∧ source.unit.resolve? owner written = some target ∧
    target.declaration.kind = .object

/-- A property is unwrapped exactly if it refers to an object type that is not being unwrapped
already. -/
lemma unwrapTarget_eq_ok_iff : source.unwrapTarget unwrapping owner p = .ok target ↔
    source.Wraps owner p target ∧ target.name ∉ unwrapping := by
  unfold unwrapTarget
  constructor
  · intro h
    split at h
    · next written hwritten =>
      split at h
      · cases h
      · next found hfound =>
        split at h
        · cases h
        · next hkind =>
          split at h
          · cases h
          · next hnew =>
            obtain rfl : found = target := Except.ok.inj h
            refine ⟨⟨written, hwritten, hfound, Decidable.not_not.mp hkind⟩, fun hmem => ?_⟩
            exact hnew (List.contains_iff_mem.mpr hmem)
    · cases h
  · rintro ⟨⟨written, hwritten, hfound, hkind⟩, hnew⟩
    have hunused : ¬unwrapping.contains target.name = true := by
      rwa [List.contains_iff_mem]
    simp only [hwritten, hfound]
    rw [if_neg (Decidable.not_not.mpr hkind), if_neg hunused]

/-- A property refers to one object type at most. -/
lemma Wraps.unique {other : DeclaredType} (h : source.Wraps owner p target)
    (h' : source.Wraps owner p other) : target = other := by
  obtain ⟨written, hwritten, hfound, -⟩ := h
  obtain ⟨written', hwritten', hfound', -⟩ := h'
  obtain rfl : written = written' := TypeExpr.named.inj (hwritten.symm.trans hwritten')
  exact Option.some.inj (hfound.symm.trans hfound')

/-- A type that a property refers to is declared. -/
lemma Wraps.declares (h : source.Wraps owner p target) : source.unit.Declares target.name := by
  obtain ⟨written, -, hfound, -⟩ := h
  exact CompilationUnit.declares_of_resolve? hfound

/-- The types being unwrapped inside a first one are distinct declared types, and the bound leaves
room for the rest of the declared types. -/
structure Unwraps (source : TypeSource) (depth : Nat) (unwrapping : List TypeName) : Prop where
  nonempty : unwrapping ≠ []
  nodup : unwrapping.tail.Nodup
  declared : ∀ name ∈ unwrapping.tail, source.unit.Declares name
  room : source.unit.types.length < depth + unwrapping.tail.length

namespace Unwraps

/-- The bound is not used up. -/
lemma exists_succ (h : source.Unwraps depth unwrapping) : ∃ smaller, depth = smaller + 1 := by
  have hle := CompilationUnit.length_le_of_declares h.nodup h.declared
  have hroom := h.room
  exact ⟨depth - 1, by omega⟩

/-- Another type can be unwrapped with a smaller bound. -/
lemma enter (h : source.Unwraps (depth + 1) unwrapping)
    (htarget : source.unwrapTarget unwrapping owner p = .ok target) :
    source.Unwraps depth (unwrapping ++ [target.name]) := by
  obtain ⟨hwraps, hnew⟩ := unwrapTarget_eq_ok_iff.mp htarget
  have hdeclared : source.unit.Declares target.name := hwraps.declares
  have htail : (unwrapping ++ [target.name]).tail = unwrapping.tail ++ [target.name] :=
    List.tail_append_of_ne_nil h.nonempty
  have hroom := h.room
  refine ⟨by simp, ?_, ?_, ?_⟩
  · rw [htail, List.nodup_append]
    refine ⟨h.nodup, List.pairwise_singleton _ _, ?_⟩
    rintro name hname other hother rfl
    rw [List.mem_singleton] at hother
    exact hnew (hother ▸ List.mem_of_mem_tail hname)
  · rw [htail]
    intro name hname
    rcases List.mem_append.mp hname with hname | hname
    · exact h.declared name hname
    · exact List.mem_singleton.mp hname ▸ hdeclared
  · rw [htail, List.length_append, List.length_singleton]
    omega

end Unwraps

/-- Adding an unwrapped property adds the properties of its type. -/
lemma addProperty_of_unwrapped
    {unwrap : DeclaredType → List PropertyDescription → Except Failure (List PropertyDescription)}
    {collected : List PropertyDescription} (h : p.unwrapped = true) :
    source.addProperty unwrapping unwrap owner collected p =
      source.unwrapTarget unwrapping owner p >>= fun target => unwrap target collected := by
  rw [addProperty, if_pos h]

/-- Adding another property fails where its name is taken, and describes it otherwise. -/
lemma addProperty_of_not_unwrapped
    {unwrap : DeclaredType → List PropertyDescription → Except Failure (List PropertyDescription)}
    {collected : List PropertyDescription} (h : p.unwrapped = false) :
    source.addProperty unwrapping unwrap owner collected p =
      if collected.any (·.name == p.jsonName) then
        .error (.unsupported owner.qualified p.jsonName .repeatedProperty)
      else (fun described => collected ++ [described]) <$> source.describeProperty owner p := by
  have hnot : ¬ p.unwrapped = true := by simp [h]
  rw [addProperty, if_neg hnot]
  rfl

/-- A bounded collection follows the rules. -/
theorem flattens_addProperties {t : DeclaredType} {collected : List PropertyDescription}
    (h : source.Unwraps depth unwrapping) :
    source.Flattens unwrapping t.name (keptProperties t.declaration) collected
      (source.addProperties depth unwrapping t collected) := by
  induction depth generalizing unwrapping t collected with
  | zero => exact absurd h.exists_succ (by simp)
  | succ depth ih =>
    unfold addProperties
    generalize keptProperties t.declaration = properties
    induction properties generalizing collected with
    | nil => exact .done
    | cons p rest ihrest =>
      rw [List.foldlM_cons]
      cases hunwrapped : p.unwrapped with
      | true =>
        rw [addProperty_of_unwrapped hunwrapped]
        cases htarget : source.unwrapTarget unwrapping t.name p with
        | error failure => exact .refused hunwrapped htarget
        | ok target =>
          have hinner : source.Flattens (unwrapping ++ [target.name]) target.name
              (keptProperties target.declaration) collected
              (source.addProperties depth (unwrapping ++ [target.name]) target collected) :=
            ih (h.enter htarget)
          cases hresult : source.addProperties depth (unwrapping ++ [target.name]) target
              collected with
          | error failure =>
            rw [hresult] at hinner
            simp only [bind, Except.bind, hresult]
            exact .stopped hunwrapped htarget hinner
          | ok inner =>
            rw [hresult] at hinner
            simp only [bind, Except.bind, hresult]
            exact .unwrapped hunwrapped htarget hinner ihrest
      | false =>
        rw [addProperty_of_not_unwrapped hunwrapped]
        cases htaken : collected.any (·.name == p.jsonName) with
        | true => exact .repeated hunwrapped htaken
        | false =>
          cases hdescribe : source.describeProperty t.name p with
          | error failure => exact .undescribed hunwrapped htaken hdescribe
          | ok described => exact .added hunwrapped htaken hdescribe ihrest

/-- The properties of a declared type are collected by the rules, however types unwrap each other.
-/
theorem flattens_propertiesOf (source : TypeSource) (t : DeclaredType) :
    source.Flattens [t.name] t.name (keptProperties t.declaration) [] (source.propertiesOf t) :=
  flattens_addProperties ⟨by simp, by simp, by simp, by simp⟩

end Bound

/-! ### Names of properties -/

/-- A described property has the name of its declaration in JSON. -/
lemma name_of_describeProperty {owner : TypeName} {p : PropertyDeclaration}
    {described : PropertyDescription} (h : source.describeProperty owner p = .ok described) :
    described.name = p.jsonName := by
  simp only [describeProperty, bind_eq_ok_iff, pure_eq_ok_iff] at h
  obtain ⟨type, -, rfl⟩ := h
  rfl

/-- Adding properties keeps their names distinct. -/
theorem Flattens.nodup {unwrapping : List TypeName} {owner : TypeName}
    {properties : List PropertyDeclaration} {collected : List PropertyDescription}
    {result : Except Failure (List PropertyDescription)}
    (h : source.Flattens unwrapping owner properties collected result)
    (hcollected : (collected.map (·.name)).Nodup) :
    ∀ added, result = .ok added → (added.map (·.name)).Nodup := by
  induction h with
  | done =>
    rintro added ⟨⟩
    exact hcollected
  | refused | stopped | repeated | undescribed => nofun
  | unwrapped _ _ _ _ ihinner ihrest => exact ihrest (ihinner hcollected _ rfl)
  | added hunwrapped hnew hdescribe _ ih =>
    refine ih ?_
    rw [List.map_append, List.nodup_append]
    refine ⟨hcollected, List.pairwise_singleton _ _, ?_⟩
    rintro name hname other hother rfl
    obtain ⟨q, hq, hqname⟩ := List.mem_map.mp hname
    have hdescribed : name = _ :=
      (List.mem_singleton.mp hother).trans (name_of_describeProperty hdescribe)
    have htaken := List.any_eq_false.mp hnew q hq
    exact htaken (beq_iff_eq.mpr (hqname.trans hdescribed))

/-- The properties of a declared type have distinct names. -/
theorem nodup_propertiesOf {t : DeclaredType} {properties : List PropertyDescription}
    (h : source.propertiesOf t = .ok properties) : (properties.map (·.name)).Nodup :=
  (source.flattens_propertiesOf t).nodup List.nodup_nil properties h

end SchemaCompiler.TypeSource
