import SchemaCompiler.Proofs.Nesting
import SchemaCompiler.Proofs.TypeGraph.Unwrapping

/-!
# The flattening of a type

The flattening of an object type lists its properties, with the flattening of an unwrapped
property's type in place of the property (`TypeSource.Flattening`).  An unwrapped property that
cannot be replaced stays where it stands, so every type has exactly one flattening, even if types
unwrap each other in a circle: there is no infinite chain of types that are unwrapped inside each
other (`wellFounded_nests`).

The properties of the type are then collected from its flattening by a single fold, although the
collection itself hands what it has from type to type (`Flattens.eq_foldlM`).  From this follow what
the collected properties are and what stands in their way (`propertiesOf_flattening`).
-/

namespace SchemaCompiler.TypeSource

variable {source : TypeSource} {unwrapping : List TypeName} {owner : TypeName}
  {properties : List PropertyDeclaration}

/-! ### The flattening -/

/-- A property is not ignored and passes the filters of its type: its name in JSON is not among the
names to leave out, and it is among those to keep, if they are given. -/
def Passes (d : TypeDeclaration) (p : PropertyDeclaration) : Prop :=
  p.ignore = false ∧ p.jsonName ∉ d.ignoreProperties ∧
    ∀ included ∈ d.includeProperties, p.jsonName ∈ included

instance (d : TypeDeclaration) (p : PropertyDeclaration) : Decidable (Passes d p) :=
  inferInstanceAs (Decidable (_ ∧ _ ∧ _))

/-- The properties that are kept are those that pass, in the order of their declaration. -/
lemma keptProperties_eq_filter (d : TypeDeclaration) :
    keptProperties d = d.properties.filter fun p => Passes d p := by
  refine List.filter_congr fun p _ => ?_
  rw [Bool.eq_iff_iff, decide_eq_true_iff]
  unfold keeps Passes
  cases d.includeProperties <;> simp

/-- Where a property stands in a flattening: the types that are unwrapped around it, the type that
declares it, and its declaration. -/
structure Place where
  unwrapping : List TypeName
  owner : TypeName
  property : PropertyDeclaration

/-- The places of the properties of a type, in order, once unwrapped properties are replaced. -/
inductive Flattening (source : TypeSource) :
    List TypeName → TypeName → List PropertyDeclaration → List Place → Prop
  /-- No property is left. -/
  | nil {unwrapping : List TypeName} {owner : TypeName} : Flattening source unwrapping owner [] []
  /-- The next property is not unwrapped. -/
  | kept {unwrapping : List TypeName} {owner : TypeName} {p : PropertyDeclaration}
      {rest : List PropertyDeclaration} {later : List Place} (hunwrapped : p.unwrapped = false)
      (hrest : Flattening source unwrapping owner rest later) :
      Flattening source unwrapping owner (p :: rest) (⟨unwrapping, owner, p⟩ :: later)
  /-- The flattening of an object type, under its own filters, stands in place of the next
  property. -/
  | replaced {unwrapping : List TypeName} {owner : TypeName} {p : PropertyDeclaration}
      {rest : List PropertyDeclaration} {target : DeclaredType} {inside later : List Place}
      (hunwrapped : p.unwrapped = true) (hwraps : source.Wraps owner p target)
      (hnew : target.name ∉ unwrapping)
      (hinner : Flattening source (unwrapping ++ [target.name]) target.name
        (keptProperties target.declaration) inside)
      (hrest : Flattening source unwrapping owner rest later) :
      Flattening source unwrapping owner (p :: rest) (inside ++ later)
  /-- The next property is unwrapped, but no type can stand in its place. -/
  | stuck {unwrapping : List TypeName} {owner : TypeName} {p : PropertyDeclaration}
      {rest : List PropertyDeclaration} {later : List Place} (hunwrapped : p.unwrapped = true)
      (hstuck : ∀ target, source.Wraps owner p target → target.name ∈ unwrapping)
      (hrest : Flattening source unwrapping owner rest later) :
      Flattening source unwrapping owner (p :: rest) (⟨unwrapping, owner, p⟩ :: later)

/-! ### Every type has one flattening -/

/-- The first type is unwrapped directly inside the second one, among the types that are unwrapped
around each of them. -/
def Nests (source : TypeSource) (inner outer : List TypeName × DeclaredType) : Prop :=
  ∃ p ∈ keptProperties outer.2.declaration, p.unwrapped = true ∧
    source.Wraps outer.2.name p inner.2 ∧ inner.2.name ∉ outer.1 ∧
    inner.1 = outer.1 ++ [inner.2.name]

/-- Types are not unwrapped inside each other without end. -/
theorem wellFounded_nests (source : TypeSource) : WellFounded source.Nests := by
  refine wellFounded_of_entering (source.unit.types.map (·.name)) Prod.fst ?_
  rintro inner outer ⟨p, -, -, hwraps, hnew, hpath⟩
  obtain ⟨declared, hdeclared, hname⟩ := hwraps.declares
  have htypes : inner.2.name ∈ source.unit.types.map (·.name) :=
    hname ▸ List.mem_map_of_mem (List.mem_of_find?_eq_some hdeclared)
  rw [hpath]
  exact ⟨List.subset_append_left _ _, _, htypes, hnew,
    List.mem_append_right _ (List.mem_singleton_self _)⟩

/-- Every type has a flattening, whatever is being unwrapped around it. -/
theorem exists_flattening (source : TypeSource) (unwrapping : List TypeName) (t : DeclaredType) :
    ∃ places, source.Flattening unwrapping t.name (keptProperties t.declaration) places := by
  induction hstate : (unwrapping, t) using source.wellFounded_nests.induction
    generalizing unwrapping t with
  | _ state ih =>
    subst hstate
    suffices hpart : ∀ properties, properties ⊆ keptProperties t.declaration →
        ∃ places, source.Flattening unwrapping t.name properties places from
      hpart _ (List.Subset.refl _)
    intro properties hkept
    induction properties with
    | nil => exact ⟨[], .nil⟩
    | cons p rest ihrest =>
      obtain ⟨hp, hrest⟩ := List.cons_subset.mp hkept
      obtain ⟨later, hlater⟩ := ihrest hrest
      cases hunwrapped : p.unwrapped with
      | false => exact ⟨_, .kept hunwrapped hlater⟩
      | true =>
        by_cases hfree : ∃ target, source.Wraps t.name p target ∧ target.name ∉ unwrapping
        · obtain ⟨target, hwraps, hnew⟩ := hfree
          obtain ⟨inside, hinside⟩ := ih (unwrapping ++ [target.name], target)
            ⟨p, hp, hunwrapped, hwraps, hnew, rfl⟩ _ _ rfl
          exact ⟨inside ++ later, .replaced hunwrapped hwraps hnew hinside hlater⟩
        · have hstuck : ∀ target, source.Wraps t.name p target → target.name ∈ unwrapping := by
            intro target hwraps
            by_contra hnew
            exact hfree ⟨target, hwraps, hnew⟩
          exact ⟨_, .stuck hunwrapped hstuck hlater⟩

/-- The rules of a flattening leave no choice. -/
theorem Flattening.unique {places other : List Place}
    (h : source.Flattening unwrapping owner properties places)
    (h' : source.Flattening unwrapping owner properties other) : places = other := by
  induction h generalizing other with
  | nil =>
    cases h'
    rfl
  | kept hunwrapped _ ih =>
    cases h' with
    | kept _ hrest' => rw [ih hrest']
    | replaced hunwrapped' | stuck hunwrapped' => simp [hunwrapped] at hunwrapped'
  | replaced hunwrapped hwraps hnew _ _ ihinner ihrest =>
    cases h' with
    | kept hunwrapped' => simp [hunwrapped] at hunwrapped'
    | replaced _ hwraps' _ hinner' hrest' =>
      obtain rfl := hwraps.unique hwraps'
      rw [ihinner hinner', ihrest hrest']
    | stuck _ hstuck' => exact absurd (hstuck' _ hwraps) hnew
  | stuck hunwrapped hstuck _ ih =>
    cases h' with
    | kept hunwrapped' => simp [hunwrapped] at hunwrapped'
    | replaced _ hwraps' hnew' => exact absurd (hstuck _ hwraps') hnew'
    | stuck _ _ hrest' => rw [ih hrest']

/-- An unwrapped property has a place only where no type can stand in it. -/
lemma Flattening.mem_unwrapping {places : List Place}
    (h : source.Flattening unwrapping owner properties places) :
    ∀ place ∈ places, place.property.unwrapped = true → ∀ target,
      source.Wraps place.owner place.property target → target.name ∈ place.unwrapping := by
  induction h with
  | nil => exact List.forall_mem_nil _
  | kept hunwrapped _ ih =>
    refine List.forall_mem_cons.mpr ⟨fun hplace => ?_, ih⟩
    rw [hunwrapped] at hplace
    cases hplace
  | replaced _ _ _ _ _ ihinner ihrest => exact List.forall_mem_append.mpr ⟨ihinner, ihrest⟩
  | stuck _ hstuck _ ih => exact List.forall_mem_cons.mpr ⟨fun _ => hstuck, ih⟩

/-! ### Collecting the properties from the flattening -/

/-- Adds the property of a place to those collected before, if no type stands in its place. -/
def addPlace (source : TypeSource) (collected : List PropertyDescription) (place : Place) :
    Except Failure (List PropertyDescription) :=
  source.addProperty place.unwrapping (fun _ added => .ok added) place.owner collected
    place.property

/-- The collection of the properties of a type goes through its flattening from the left. -/
theorem Flattens.eq_foldlM {collected : List PropertyDescription} {places : List Place}
    {result : Except Failure (List PropertyDescription)}
    (h : source.Flattens unwrapping owner properties collected result)
    (hplaces : source.Flattening unwrapping owner properties places) :
    result = places.foldlM source.addPlace collected := by
  induction h generalizing places with
  | done =>
    cases hplaces
    rfl
  | refused hunwrapped htarget =>
    cases hplaces with
    | kept hunwrapped' => simp [hunwrapped] at hunwrapped'
    | replaced _ hwraps hnew =>
      rw [unwrapTarget_eq_ok_iff.mpr ⟨hwraps, hnew⟩] at htarget
      cases htarget
    | stuck =>
      rw [List.foldlM_cons, addPlace, addProperty_of_unwrapped hunwrapped, htarget]
      rfl
  | stopped hunwrapped htarget _ ihinner =>
    obtain ⟨hwraps, hnew⟩ := unwrapTarget_eq_ok_iff.mp htarget
    cases hplaces with
    | kept hunwrapped' => simp [hunwrapped] at hunwrapped'
    | replaced _ hwraps' _ hinner' =>
      obtain rfl := hwraps.unique hwraps'
      rw [List.foldlM_append, ← ihinner hinner']
      rfl
    | stuck _ hstuck => exact absurd (hstuck _ hwraps) hnew
  | unwrapped hunwrapped htarget _ _ ihinner ihrest =>
    obtain ⟨hwraps, hnew⟩ := unwrapTarget_eq_ok_iff.mp htarget
    cases hplaces with
    | kept hunwrapped' => simp [hunwrapped] at hunwrapped'
    | replaced _ hwraps' _ hinner' hrest' =>
      obtain rfl := hwraps.unique hwraps'
      rw [List.foldlM_append, ← ihinner hinner', ihrest hrest']
      rfl
    | stuck _ hstuck => exact absurd (hstuck _ hwraps) hnew
  | repeated hunwrapped htaken =>
    cases hplaces with
    | kept =>
      rw [List.foldlM_cons, addPlace, addProperty_of_not_unwrapped hunwrapped, if_pos htaken]
      rfl
    | replaced hunwrapped' | stuck hunwrapped' => simp [hunwrapped] at hunwrapped'
  | undescribed hunwrapped hnew hdescribe =>
    cases hplaces with
    | kept =>
      rw [List.foldlM_cons, addPlace, addProperty_of_not_unwrapped hunwrapped, hnew, hdescribe]
      rfl
    | replaced hunwrapped' | stuck hunwrapped' => simp [hunwrapped] at hunwrapped'
  | added hunwrapped hnew hdescribe _ ih =>
    cases hplaces with
    | kept _ hrest =>
      rw [List.foldlM_cons, addPlace, addProperty_of_not_unwrapped hunwrapped, hnew, hdescribe,
        ih hrest]
      rfl
    | replaced hunwrapped' | stuck hunwrapped' => simp [hunwrapped] at hunwrapped'

/-- A description is the one of the property of a place, looked up where it is declared. -/
def DescribesPlace (source : TypeSource) (place : Place) (described : PropertyDescription) : Prop :=
  source.describeProperty place.owner place.property = .ok described

/-- The property of a place is added exactly if it is not unwrapped, has a new name, and has a
description. -/
lemma addPlace_eq_ok_iff {places : List Place} {place : Place}
    {collected added : List PropertyDescription}
    (hplaces : source.Flattening unwrapping owner properties places) (hplace : place ∈ places) :
    source.addPlace collected place = .ok added ↔
      place.property.unwrapped = false ∧
      place.property.jsonName ∉ collected.map (·.name) ∧
      ∃ described, source.DescribesPlace place described ∧ collected ++ [described] = added := by
  unfold addPlace
  cases hunwrapped : place.property.unwrapped with
  | true =>
    refine iff_of_false (fun h => ?_) (by simp)
    rw [addProperty_of_unwrapped hunwrapped, bind_eq_ok_iff] at h
    obtain ⟨target, htarget, -⟩ := h
    obtain ⟨hwraps, hnew⟩ := unwrapTarget_eq_ok_iff.mp htarget
    exact hnew (hplaces.mem_unwrapping place hplace hunwrapped target hwraps)
  | false =>
    have htaken : collected.any (·.name == place.property.jsonName) = true ↔
        place.property.jsonName ∈ collected.map (·.name) := by
      simp
    rw [addProperty_of_not_unwrapped hunwrapped]
    by_cases hname : place.property.jsonName ∈ collected.map (·.name)
    · rw [if_pos (htaken.mpr hname)]
      exact iff_of_false nofun fun h => h.2.1 hname
    · rw [if_neg (mt htaken.mp hname), map_eq_ok_iff]
      constructor
      · exact fun h => ⟨rfl, hname, h⟩
      · exact fun h => h.2.2

/-- The properties of some places of a flattening are collected exactly if none is unwrapped, all
names are distinct, and each has a description. -/
lemma foldlM_addPlace_eq_ok_iff {places part : List Place}
    {collected added : List PropertyDescription}
    (hplaces : source.Flattening unwrapping owner properties places) (hpart : part ⊆ places)
    (hcollected : (collected.map (·.name)).Nodup) :
    part.foldlM source.addPlace collected = .ok added ↔
      (∀ place ∈ part, place.property.unwrapped = false) ∧
      (collected.map (·.name) ++ part.map (·.property.jsonName)).Nodup ∧
      ∃ later, List.Forall₂ source.DescribesPlace part later ∧ collected ++ later = added := by
  induction part generalizing collected with
  | nil =>
    rw [List.foldlM_nil, pure_eq_ok_iff, List.map_nil, List.append_nil]
    constructor
    · rintro rfl
      exact ⟨List.forall_mem_nil _, hcollected, [], .nil, List.append_nil _⟩
    · rintro ⟨-, -, later, hlater, rfl⟩
      cases hlater
      exact (List.append_nil _).symm
  | cons place part ih =>
    obtain ⟨hplace, hrest⟩ := List.cons_subset.mp hpart
    have hsplit : ∀ described, source.DescribesPlace place described →
        (collected ++ [described]).map (·.name) ++ part.map (·.property.jsonName) =
          collected.map (·.name) ++ (place :: part).map (·.property.jsonName) := by
      intro described hdescribed
      simp [name_of_describeProperty hdescribed]
    rw [List.foldlM_cons, bind_eq_ok_iff, List.forall_mem_cons]
    constructor
    · rintro ⟨mid, hmid, hfold⟩
      obtain ⟨hunwrapped, hnew, described, hdescribed, rfl⟩ :=
        (addPlace_eq_ok_iff hplaces hplace).mp hmid
      have hnext : ((collected ++ [described]).map (·.name)).Nodup := by
        rw [List.map_append, List.map_singleton, name_of_describeProperty hdescribed]
        exact List.nodup_append.mpr ⟨hcollected, List.nodup_singleton _, by
          rintro name hname other hother rfl
          exact hnew (List.mem_singleton.mp hother ▸ hname)⟩
      obtain ⟨hkept, hnodup, later, hlater, rfl⟩ := (ih hrest hnext).mp hfold
      rw [hsplit described hdescribed] at hnodup
      exact ⟨⟨hunwrapped, hkept⟩, hnodup, described :: later, .cons hdescribed hlater, by simp⟩
    · rintro ⟨⟨hunwrapped, hkept⟩, hnodup, _, hlater, rfl⟩
      cases hlater with
      | @cons _ described _ later hdescribed hlater =>
        rw [← hsplit described hdescribed] at hnodup
        have hnext : ((collected ++ [described]).map (·.name)).Nodup := hnodup.of_append_left
        have hnew : place.property.jsonName ∉ collected.map (·.name) := by
          rw [List.map_append, List.map_singleton, name_of_describeProperty hdescribed] at hnext
          intro hmem
          exact (List.nodup_append.mp hnext).2.2 _ hmem _ (List.mem_singleton_self _) rfl
        refine ⟨collected ++ [described], ?_, ?_⟩
        · exact (addPlace_eq_ok_iff hplaces hplace).mpr
            ⟨hunwrapped, hnew, described, hdescribed, rfl⟩
        · exact (ih hrest hnext).mpr ⟨hkept, hnodup, later, hlater, by simp⟩

/-- The properties of a flattening are collected exactly if none is unwrapped, all names are
distinct, and each has a description. -/
lemma foldlM_addPlace_nil_eq_ok_iff {places : List Place} {collected : List PropertyDescription}
    (hplaces : source.Flattening unwrapping owner properties places) :
    places.foldlM source.addPlace [] = .ok collected ↔
      (∀ place ∈ places, place.property.unwrapped = false) ∧
      (places.map (·.property.jsonName)).Nodup ∧
      List.Forall₂ source.DescribesPlace places collected := by
  rw [foldlM_addPlace_eq_ok_iff hplaces (List.Subset.refl _) (by simp)]
  simp

/-! ### What stands in the way -/

/-- What stands in the way of collecting the properties of a flattening. -/
inductive Obstacle (source : TypeSource) (places : List Place) : Prop
  /-- An unwrapped property is not a plain reference to a declared object type. -/
  | notObject {place : Place} (hplace : place ∈ places)
      (hunwrapped : place.property.unwrapped = true)
      (hwraps : ∀ target, ¬source.Wraps place.owner place.property target)
  /-- The type of an unwrapped property is being unwrapped around it. -/
  | unwrapsItself {place : Place} {target : DeclaredType} (hplace : place ∈ places)
      (hunwrapped : place.property.unwrapped = true)
      (hwraps : source.Wraps place.owner place.property target)
      (hmem : target.name ∈ place.unwrapping)
  /-- Two properties have the same name in JSON. -/
  | repeated (hnodup : ¬((places.filter fun place => !place.property.unwrapped).map
      (·.property.jsonName)).Nodup)
  /-- The type of a property is not supported where the property is declared. -/
  | unresolved {place : Place} {failure : Failure} (hplace : place ∈ places)
      (hunwrapped : place.property.unwrapped = false)
      (hresolve : source.resolve place.owner place.property.jsonName place.property.type =
        .error failure)

/-- A property has a description exactly if its type is supported. -/
lemma exists_describesPlace_iff {place : Place} :
    (∃ described, source.DescribesPlace place described) ↔
      ∃ type,
        source.resolve place.owner place.property.jsonName place.property.type = .ok type := by
  simp only [DescribesPlace, describeProperty, bind_eq_ok_iff, pure_eq_ok_iff]
  constructor
  · rintro ⟨described, type, htype, -⟩
    exact ⟨type, htype⟩
  · rintro ⟨type, htype⟩
    exact ⟨_, type, htype, rfl⟩

/-- Places can be described one by one exactly if each of them has a description. -/
lemma exists_forall₂_iff {places : List Place} :
    (∃ described, List.Forall₂ source.DescribesPlace places described) ↔
      ∀ place ∈ places, ∃ described, source.DescribesPlace place described := by
  induction places with
  | nil => exact iff_of_true ⟨[], .nil⟩ (List.forall_mem_nil _)
  | cons place places ih =>
    rw [List.forall_mem_cons, ← ih]
    constructor
    · rintro ⟨_, hall⟩
      cases hall with
      | cons hdescribed hlater => exact ⟨⟨_, hdescribed⟩, _, hlater⟩
    · rintro ⟨⟨described, hdescribed⟩, later, hlater⟩
      exact ⟨described :: later, .cons hdescribed hlater⟩

/-- The properties of some places are collected exactly if nothing stands in the way. -/
lemma foldlM_addPlace_eq_error_iff {places : List Place}
    (hplaces : source.Flattening unwrapping owner properties places) :
    (∃ failure, places.foldlM source.addPlace [] = .error failure) ↔ source.Obstacle places := by
  constructor
  · rintro ⟨failure, hfailure⟩
    by_contra hfree
    have hkept : ∀ place ∈ places, place.property.unwrapped = false := by
      intro place hplace
      by_contra hunwrapped
      rw [Bool.not_eq_false] at hunwrapped
      refine hfree (.notObject hplace hunwrapped fun target hwraps => ?_)
      exact hfree (.unwrapsItself hplace hunwrapped hwraps
        (hplaces.mem_unwrapping place hplace hunwrapped target hwraps))
    have hnodup : (places.map (·.property.jsonName)).Nodup := by
      by_contra hrepeated
      refine hfree (.repeated ?_)
      rwa [List.filter_eq_self.mpr fun place hplace => by simp [hkept place hplace]]
    have hdescribed : ∀ place ∈ places, ∃ described, source.DescribesPlace place described := by
      intro place hplace
      rw [exists_describesPlace_iff]
      cases hresolve : source.resolve place.owner place.property.jsonName place.property.type with
      | ok type => exact ⟨type, rfl⟩
      | error failure => exact absurd (.unresolved hplace (hkept place hplace) hresolve) hfree
    obtain ⟨collected, hcollected⟩ := exists_forall₂_iff.mpr hdescribed
    have hresult := (foldlM_addPlace_nil_eq_ok_iff hplaces).mpr ⟨hkept, hnodup, hcollected⟩
    rw [hfailure] at hresult
    cases hresult
  · intro hobstacle
    cases hresult : places.foldlM source.addPlace [] with
    | error failure => exact ⟨failure, rfl⟩
    | ok collected =>
      obtain ⟨hkept, hnodup, hcollected⟩ := (foldlM_addPlace_nil_eq_ok_iff hplaces).mp hresult
      cases hobstacle with
      | notObject hplace hunwrapped => simp [hkept _ hplace] at hunwrapped
      | unwrapsItself hplace hunwrapped => simp [hkept _ hplace] at hunwrapped
      | repeated hrepeated =>
        refine absurd (hnodup.sublist ?_) hrepeated
        exact List.Sublist.map _ List.filter_sublist
      | unresolved hplace _ hresolve =>
        have hdescribed := exists_forall₂_iff.mp ⟨collected, hcollected⟩ _ hplace
        obtain ⟨type, htype⟩ := exists_describesPlace_iff.mp hdescribed
        rw [hresolve] at htype
        cases htype

/-- Unwrapping flattens in place.  A flattening goes through the properties that pass the filters of
their types.  Types are not unwrapped inside each other without end, so every object type has one.
Its properties are collected exactly if nothing stands in the way, and then they are described one
by one in the order of the flattening, each where it is declared, and have distinct names. -/
theorem propertiesOf_flattening (source : TypeSource) (t : DeclaredType) :
    (∀ d, keptProperties d = d.properties.filter fun p => Passes d p) ∧
    WellFounded source.Nests ∧
    ∃ places,
      (∀ other, source.Flattening [t.name] t.name (keptProperties t.declaration) other ↔
        other = places) ∧
      (∀ collected, source.propertiesOf t = .ok collected ↔
        (∀ place ∈ places, place.property.unwrapped = false) ∧
        (places.map (·.property.jsonName)).Nodup ∧
        List.Forall₂ source.DescribesPlace places collected) ∧
      ((∃ failure, source.propertiesOf t = .error failure) ↔ source.Obstacle places) ∧
      ∀ description, (source.describe t).result = .ok description →
        t.declaration.kind = .object →
        source.propertiesOf t = .ok description.properties ∧
        (description.properties.map (·.name)).Nodup := by
  obtain ⟨places, hplaces⟩ := source.exists_flattening [t.name] t
  have hfold : source.propertiesOf t = places.foldlM source.addPlace [] :=
    (source.flattens_propertiesOf t).eq_foldlM hplaces
  refine ⟨keptProperties_eq_filter, source.wellFounded_nests, places,
    fun other => ⟨fun h => h.unique hplaces, ?_⟩, fun collected => ?_, ?_,
    fun description hdescription hobject => ?_⟩
  · rintro rfl
    exact hplaces
  · rw [hfold]
    exact foldlM_addPlace_nil_eq_ok_iff hplaces
  · rw [hfold]
    exact foldlM_addPlace_eq_error_iff hplaces
  · have hkind := describesKind_of_eq_ok (describe_eq_ok hdescription).2.2
    have hproperties : source.propertiesOf t = .ok description.properties := by
      unfold TypeDescription.properties
      cases hdescribed : description.kind with
      | object =>
        rw [hdescribed] at hkind
        cases hkind with
        | object hproperties => exact hproperties
      | enum | union =>
        rw [hdescribed] at hkind
        cases hkind with
        | _ hdeclared => exact absurd hobject hdeclared
    exact ⟨hproperties, nodup_propertiesOf hproperties⟩

/-- A parcel unwraps its sender and its recipient. -/
def parcel : DeclaredType where
  name := .topLevel "post" "Parcel"
  declaration :=
    { name := "Parcel"
      properties :=
        [ { name := "sender", type := .named "Sender", unwrapped := true },
          { name := "weight", type := .scalar .long },
          { name := "recipient", type := .named "Recipient", unwrapped := true } ] }
  origin := ""

/-- A box unwraps its lid. -/
def box : DeclaredType where
  name := .topLevel "post" "Box"
  declaration :=
    { name := "Box", properties := [{ name := "lid", type := .named "Lid", unwrapped := true }] }
  origin := ""

/-- The sender and the recipient unwrap the same mark, and the lid of a box unwraps the box. -/
def parcels : TypeSource where
  allowAny := false
  unit :=
    { types :=
      [ parcel,
        { name := .topLevel "post" "Sender"
          declaration :=
            { name := "Sender"
              properties :=
                [ { name := "name", type := .scalar .string, rename := some "from" },
                  { name := "mark", type := .named "Mark", unwrapped := true } ] }
          origin := "" },
        { name := .topLevel "post" "Recipient"
          declaration :=
            { name := "Recipient"
              properties :=
                [ { name := "mark", type := .named "Mark", unwrapped := true },
                  { name := "sender", type := .named "Sender", unwrapped := true },
                  { name := "to", type := .scalar .string } ]
              ignoreProperties := ["sender"] }
          origin := "" },
        { name := .topLevel "post" "Mark", declaration := { name := "Mark" }, origin := "" },
        box,
        { name := .topLevel "post" "Lid"
          declaration :=
            { name := "Lid"
              properties := [{ name := "box", type := .named "Box", unwrapped := true }] }
          origin := "" } ] }

/-- The properties of a parcel are those of the sender, its own and those of the recipient, and the
properties of a box cannot be collected. -/
theorem flattening_parcels :
    (∃ places collected,
      parcels.Flattening [parcel.name] parcel.name (keptProperties parcel.declaration) places ∧
      parcels.propertiesOf parcel = .ok collected ∧
      collected.map (·.name) = ["from", "weight", "to"] ∧
      List.Forall₂ parcels.DescribesPlace places collected) ∧
    ∃ places,
      parcels.Flattening [box.name] box.name (keptProperties box.declaration) places ∧
      parcels.Obstacle places := by
  constructor
  · obtain ⟨-, -, places, hplaces, hok, -⟩ := parcels.propertiesOf_flattening parcel
    have hnames : (parcels.propertiesOf parcel).toOption.map (·.map (·.name)) =
        some ["from", "weight", "to"] := by decide +kernel
    cases hcollected : parcels.propertiesOf parcel with
    | error failure =>
      rw [hcollected] at hnames
      cases hnames
    | ok collected =>
      rw [hcollected] at hnames
      obtain ⟨-, -, hdescribed⟩ := (hok collected).mp hcollected
      exact ⟨places, collected, (hplaces _).mpr rfl, rfl, Option.some.inj hnames, hdescribed⟩
  · obtain ⟨-, -, places, hplaces, -, herror, -⟩ := parcels.propertiesOf_flattening box
    have hfails : (parcels.propertiesOf box).toOption.isNone = true := by decide +kernel
    cases hcollected : parcels.propertiesOf box with
    | error failure => exact ⟨places, (hplaces _).mpr rfl, herror.mp ⟨failure, hcollected⟩⟩
    | ok collected =>
      rw [hcollected] at hfails
      cases hfails

end SchemaCompiler.TypeSource
