import SchemaCompiler.Proofs.Outcome
import SchemaCompiler.TypeGraph.Extraction

/-!
# Extraction with more types allowed

A source that allows types with any value fails less often.  Where it does not allow them and does
not fail, nothing depends on what it allows (`TypeSource.permissive_extract`).

The flag is read in the middle of a type only, where it decides between a failure and a type.  So
the proof goes up through the functions of the extraction with one relation: a computation
`CarriesTo` another if the other succeeds wherever it does, with the same value.  For work that
reports, the findings are the same as well (`Reported.CarriesTo`).
-/

namespace SchemaCompiler

/-! ### Computations that succeed more often -/

section CarriesTo

variable {ε α β : Type} {x y : Except ε α} {f g : α → Except ε β}

/-- Wherever one computation succeeds, another succeeds with the same value. -/
def CarriesTo (x y : Except ε α) : Prop := ∀ a, x = .ok a → y = .ok a

namespace CarriesTo

/-- A computation succeeds wherever it succeeds. -/
lemma refl (x : Except ε α) : CarriesTo x x := fun _ h => h

/-- A failure says nothing about another computation. -/
lemma of_error {failure : ε} (y : Except ε α) : CarriesTo (.error failure) y := nofun

/-- Sequences succeed more often if both of their steps do. -/
lemma bind (h : CarriesTo x y) (hnext : ∀ a, CarriesTo (f a) (g a)) :
    CarriesTo (x >>= f) (y >>= g) := by
  intro b hb
  obtain ⟨a, ha, hb⟩ := bind_eq_ok_iff.mp hb
  exact bind_eq_ok_iff.mpr ⟨a, h a ha, hnext a b hb⟩

/-- What is made of a value is made of the same value. -/
lemma map {f : α → β} (h : CarriesTo x y) : CarriesTo (f <$> x) (f <$> y) := by
  intro b hb
  obtain ⟨a, ha, hb⟩ := map_eq_ok_iff.mp hb
  exact map_eq_ok_iff.mpr ⟨a, h a ha, hb⟩

/-- Folds succeed more often if their steps do. -/
lemma foldlM {step step' : β → α → Except ε β} (h : ∀ b a, CarriesTo (step b a) (step' b a))
    (xs : List α) (b : β) : CarriesTo (xs.foldlM step b) (xs.foldlM step' b) := by
  induction xs generalizing b with
  | nil => exact refl _
  | cons a xs ih =>
    rw [List.foldlM_cons, List.foldlM_cons]
    exact (h b a).bind ih

end CarriesTo

end CarriesTo

namespace Reported

variable {α β : Type} {x y : Reported α} {f g : α → Reported β}

/-- Wherever one computation succeeds, another does the same, with the same findings. -/
def CarriesTo (x y : Reported α) : Prop := ∀ a, x.result = .ok a → y = x

namespace CarriesTo

/-- A computation does what it does. -/
lemma refl (x : Reported α) : CarriesTo x x := fun _ _ => rfl

/-- A computation without findings does the same wherever its result is the same. -/
lemma ofExcept {x y : Except Failure α} (h : SchemaCompiler.CarriesTo x y) :
    CarriesTo (.ofExcept x) (.ofExcept y) := by
  intro a ha
  rw [result_ofExcept] at ha
  rw [ha, h a ha]

/-- Sequences do the same if both of their steps do. -/
lemma andThen (h : CarriesTo x y) (hnext : ∀ a, CarriesTo (f a) (g a)) :
    CarriesTo (x.andThen f) (y.andThen g) := by
  intro b hb
  obtain ⟨a, ha, hb⟩ := result_andThen_eq_ok_iff.mp hb
  rw [h a ha, Reported.andThen, Reported.andThen, ha]
  dsimp only
  rw [hnext a b hb]

end CarriesTo

end Reported

/-! ### Extraction -/

namespace TypeSource

variable (source : TypeSource)

/-- The source with types that accept any value allowed. -/
def permissive : TypeSource := { source with allowAny := true }

/-- A type that is resolved is resolved in the same way where more is allowed. -/
lemma resolve_carriesTo (owner : TypeName) (path : String) (e : TypeExpr) :
    CarriesTo (source.resolve owner path e) (source.permissive.resolve owner path e) := by
  induction e generalizing path with
  | scalar kind => exact .refl _
  | any =>
    unfold resolve permissive
    cases source.allowAny
    · exact .of_error _
    · exact .refl _
  | named written =>
    unfold resolve permissive
    dsimp only
    cases source.unit.resolve? owner written with
    | none => exact .refl _
    | some t =>
      dsimp only
      split
      · exact .refl _
      · -- Only the names of open types depend on what is allowed.
        cases source.allowAny
        · exact .of_error _
        · exact .refl _
  | list items ih | set items ih | nullable inner ih =>
    simp only [resolve]
    exact (ih _).bind fun _ => .refl _
  | map key values _ ih =>
    simp only [resolve]
    cases isKey key
    · exact .refl _
    · exact (ih _).bind fun _ => .refl _

/-- A property is described in the same way where more is allowed. -/
lemma describeProperty_carriesTo (owner : TypeName) (p : PropertyDeclaration) :
    CarriesTo (source.describeProperty owner p) (source.permissive.describeProperty owner p) :=
  (source.resolve_carriesTo owner p.jsonName p.type).bind fun _ => .refl _

/-- A property is added in the same way where more is allowed, if the properties of the type that
stands in its place are. -/
lemma addProperty_carriesTo {unwrapping : List TypeName}
    {unwrap unwrap' : DeclaredType → List PropertyDescription →
      Except Failure (List PropertyDescription)}
    (h : ∀ t collected, CarriesTo (unwrap t collected) (unwrap' t collected)) (owner : TypeName)
    (collected : List PropertyDescription) (p : PropertyDeclaration) :
    CarriesTo (source.addProperty unwrapping unwrap owner collected p)
      (source.permissive.addProperty unwrapping unwrap' owner collected p) := by
  have htarget : source.permissive.unwrapTarget unwrapping owner p =
      source.unwrapTarget unwrapping owner p := rfl
  unfold addProperty
  rw [htarget]
  split
  · exact (CarriesTo.refl _).bind fun t => h t collected
  · split
    · exact .refl _
    · exact (source.describeProperty_carriesTo owner p).bind fun _ => .refl _

/-- Properties are collected in the same way where more is allowed, however deep they are
unwrapped. -/
lemma addProperties_carriesTo (depth : Nat) (unwrapping : List TypeName) (t : DeclaredType)
    (collected : List PropertyDescription) :
    CarriesTo (source.addProperties depth unwrapping t collected)
      (source.permissive.addProperties depth unwrapping t collected) := by
  induction depth generalizing unwrapping t collected with
  | zero => exact .refl _
  | succ depth ih =>
    unfold addProperties
    refine .foldlM ?_ _ _
    exact source.addProperty_carriesTo (fun target => ih _ target) t.name

/-- The additional properties of a type are the same where more is allowed. -/
lemma additionalOf_carriesTo (t : DeclaredType) :
    CarriesTo (source.additionalOf t) (source.permissive.additionalOf t) := by
  unfold additionalOf
  split
  · exact .refl _
  · exact (source.resolve_carriesTo _ _ _).map

/-- What a type is, is the same where more is allowed. -/
lemma describeKind_carriesTo (t : DeclaredType) :
    Reported.CarriesTo (source.describeKind t) (source.permissive.describeKind t) := by
  have hvariant : source.permissive.describeVariant = source.describeVariant := rfl
  have hproperties : CarriesTo (source.propertiesOf t) (source.permissive.propertiesOf t) :=
    source.addProperties_carriesTo _ [t.name] t []
  unfold describeKind
  rw [hvariant]
  cases t.declaration.kind with
  | object =>
    refine .andThen (.ofExcept hproperties) fun properties => ?_
    refine .andThen (.refl _) fun _ => ?_
    exact .andThen (.ofExcept (source.additionalOf_carriesTo t)) fun _ => .refl _
  | enum | union | interface => exact .refl _

/-- A type is described in the same way where more is allowed. -/
lemma describe_carriesTo (t : DeclaredType) :
    Reported.CarriesTo (source.describe t) (source.permissive.describe t) := by
  unfold describe
  split
  · exact .refl _
  · exact .andThen (source.describeKind_carriesTo t) fun _ => .refl _

/-- Types are explored in the same order where more is allowed. -/
lemma explore_carriesTo (steps : Nat) (pending : List TypeName) (graph : TypeGraph) :
    Reported.CarriesTo (source.explore steps pending graph)
      (source.permissive.explore steps pending graph) := by
  induction steps generalizing pending graph with
  | zero => exact .refl _
  | succ steps ih =>
    unfold explore
    split
    · exact .refl _
    · dsimp only [permissive]
      split
      · exact .refl _
      · next t _ => exact .andThen (source.describe_carriesTo t) fun described => ih _ _

/-- A graph that is extracted is the same where more is allowed, and so are the findings. -/
theorem permissive_extract {root : TypeName} {graph : TypeGraph}
    (h : (source.extract root).result = .ok graph) :
    source.permissive.extract root = source.extract root :=
  source.explore_carriesTo _ [root] {} graph h

end TypeSource

end SchemaCompiler
