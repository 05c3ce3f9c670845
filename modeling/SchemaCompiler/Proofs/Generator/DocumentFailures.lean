import SchemaCompiler.Generator
import SchemaCompiler.Proofs.Outcome

/-!
# Why documents fail

A document fails for what is declared or for what is made of it.  Files have no part in it, so a
failure that has to do with files comes from publishing (`Generator.ofDeclarations_document`).
-/

namespace SchemaCompiler

/-! ### Failures of a computation -/

/-- All failures of a computation are of a certain kind. -/
def FailsWith {ε α : Type} (P : ε → Prop) (x : Except ε α) : Prop :=
  ∀ failure, x = .error failure → P failure

namespace FailsWith

variable {ε α β : Type} {P : ε → Prop} {x : Except ε α}

/-- A success is no failure. -/
lemma ok (a : α) : FailsWith P (.ok a : Except ε α) := nofun

/-- A failure is the only one. -/
lemma error {failure : ε} (h : P failure) : FailsWith P (.error failure : Except ε α) := by
  rintro _ ⟨⟩
  exact h

/-- A sequence fails where one of its steps does. -/
lemma bind {next : α → Except ε β} (h : FailsWith P x) (hnext : ∀ a, FailsWith P (next a)) :
    FailsWith P (x >>= next) := by
  cases x with
  | error failure => exact error (h failure rfl)
  | ok a => exact hnext a

/-- A mapped computation fails where the computation does. -/
lemma map (f : α → β) (h : FailsWith P x) : FailsWith P (f <$> x) := by
  cases x with
  | error failure => exact error (h failure rfl)
  | ok a => exact ok _

/-- A fold fails where one of its steps does. -/
lemma foldlM {step : β → α → Except ε β} (h : ∀ b a, FailsWith P (step b a)) (xs : List α)
    (b : β) : FailsWith P (xs.foldlM step b) := by
  induction xs generalizing b with
  | nil => exact ok b
  | cons x xs ih =>
    rw [List.foldlM_cons]
    exact (h b x).bind ih

/-- A traversal fails where one of its steps does. -/
lemma mapM {f : α → Except ε β} (h : ∀ a, FailsWith P (f a)) (xs : List α) :
    FailsWith P (xs.mapM f) := by
  induction xs with
  | nil => exact ok []
  | cons x xs ih =>
    rw [List.mapM_cons]
    exact (h x).bind fun y => ih.bind fun ys => ok (y :: ys)

end FailsWith

/-- The reporting sequence fails where one of its steps does. -/
lemma Reported.failsWith_andThen {α β : Type} {P : Failure → Prop} {first : Reported α}
    {next : α → Reported β} (h : FailsWith P first.result)
    (hnext : ∀ a, FailsWith P (next a).result) : FailsWith P (first.andThen next).result := by
  obtain ⟨findings, failure | a⟩ := first
  · exact .error (h failure rfl)
  · exact hnext a

/-- A failure that files have no part in. -/
def Failure.OfDeclarations : Failure → Prop
  | .conflictingOutput _ | .file _ => False
  | _ => True

/-! ### Extraction -/

namespace TypeSource

variable {source : TypeSource}

/-- A place in a type is a matter of declarations. -/
lemma ofDeclarations_fail {α : Type} (owner : TypeName) (path : String) (cause : Unsupported) :
    FailsWith Failure.OfDeclarations (fail owner path cause : Except Failure α) := .error trivial

/-- Types are looked up in declarations. -/
lemma ofDeclarations_resolve (owner : TypeName) (path : String) (e : TypeExpr) :
    FailsWith Failure.OfDeclarations (source.resolve owner path e) := by
  induction e generalizing path with
  | scalar kind => exact .ok _
  | any =>
    unfold resolve
    split
    · exact .ok _
    · exact ofDeclarations_fail _ _ _
  | named written =>
    unfold resolve
    split
    · exact ofDeclarations_fail _ _ _
    · split
      · exact .ok _
      · split
        · exact .ok _
        · exact ofDeclarations_fail _ _ _
  | list items ih | set items ih => exact (ih _).bind fun _ => .ok _
  | map key values _ ih =>
    unfold resolve
    split
    · exact (ih _).bind fun _ => .ok _
    · exact ofDeclarations_fail _ _ _
  | nullable inner ih => exact (ih _).bind fun _ => .ok _

/-- Properties are described from declarations. -/
lemma ofDeclarations_describeProperty (owner : TypeName) (p : PropertyDeclaration) :
    FailsWith Failure.OfDeclarations (source.describeProperty owner p) :=
  (ofDeclarations_resolve _ _ _).bind fun _ => .ok _

/-- The type that stands in place of a property is a declared one. -/
lemma ofDeclarations_unwrapTarget (unwrapping : List TypeName) (owner : TypeName)
    (p : PropertyDeclaration) :
    FailsWith Failure.OfDeclarations (source.unwrapTarget unwrapping owner p) := by
  unfold unwrapTarget
  split
  · split
    · exact ofDeclarations_fail _ _ _
    · split
      · exact ofDeclarations_fail _ _ _
      · split
        · exact ofDeclarations_fail _ _ _
        · exact .ok _
  · exact ofDeclarations_fail _ _ _

/-- Properties are collected from declarations. -/
lemma ofDeclarations_addProperties (depth : Nat) (unwrapping : List TypeName) (t : DeclaredType)
    (collected : List PropertyDescription) :
    FailsWith Failure.OfDeclarations (source.addProperties depth unwrapping t collected) := by
  induction depth generalizing unwrapping t collected with
  | zero => exact .ok _
  | succ depth ih =>
    refine .foldlM (fun before p => ?_) _ _
    unfold addProperty
    split
    · exact (ofDeclarations_unwrapTarget _ _ _).bind fun target => ih _ _ _
    · split
      · exact ofDeclarations_fail _ _ _
      · exact (ofDeclarations_describeProperty _ _).bind fun _ => .ok _

/-- Variants are declared types. -/
lemma ofDeclarations_describeVariant (owner : TypeName) (v : VariantDeclaration) :
    FailsWith Failure.OfDeclarations (source.describeVariant owner v) := by
  unfold describeVariant
  split
  · exact ofDeclarations_fail _ _ _
  · split
    · exact ofDeclarations_fail _ _ _
    · exact .ok _

/-- Additional properties are declared ones. -/
lemma ofDeclarations_additionalOf (t : DeclaredType) :
    FailsWith Failure.OfDeclarations (source.additionalOf t) := by
  unfold additionalOf
  split
  · exact .ok _
  · exact (ofDeclarations_resolve _ _ _).map _

/-- What a type is, is declared. -/
lemma ofDeclarations_describeKind (t : DeclaredType) :
    FailsWith Failure.OfDeclarations (source.describeKind t).result := by
  unfold describeKind
  split
  · refine Reported.failsWith_andThen (ofDeclarations_addProperties _ _ _ _) fun properties => ?_
    refine Reported.failsWith_andThen (.ok _) fun _ => ?_
    exact Reported.failsWith_andThen (ofDeclarations_additionalOf t) fun _ => .ok _
  · split
    · exact ofDeclarations_fail _ _ _
    · exact .ok _
  · split
    · exact ofDeclarations_fail _ _ _
    · refine Reported.failsWith_andThen ?_ fun _ => .ok _
      exact .mapM (fun v => ofDeclarations_describeVariant t.name v) _
  · split
    · exact ofDeclarations_fail _ _ _
    · refine Reported.failsWith_andThen ?_ fun _ => .ok _
      exact .mapM (fun v => ofDeclarations_describeVariant t.name v) _

/-- Types are described from declarations. -/
lemma ofDeclarations_describe (t : DeclaredType) :
    FailsWith Failure.OfDeclarations (source.describe t).result := by
  unfold describe
  split
  · exact .error trivial
  · exact Reported.failsWith_andThen (ofDeclarations_describeKind t) fun _ => .ok _

/-- Graphs are explored along declarations. -/
lemma ofDeclarations_explore (steps : Nat) (pending : List TypeName) (graph : TypeGraph) :
    FailsWith Failure.OfDeclarations (source.explore steps pending graph).result := by
  induction steps generalizing pending graph with
  | zero => exact .ok _
  | succ steps ih =>
    unfold explore
    split
    · exact .ok _
    · split
      · exact ofDeclarations_fail _ _ _
      · exact Reported.failsWith_andThen (ofDeclarations_describe _) fun _ => ih _ _

end TypeSource

/-! ### Resolution -/

namespace Resolver

variable {r : Resolver} {registry : Registry}

/-- A walk that stops does so for what is declared. -/
def StopsWith (x : Except Stopped Walk) : Prop :=
  FailsWith (fun stopped => stopped.failure.OfDeclarations) x

/-- A type that is not described is a matter of declarations. -/
lemma ofDeclarations_described (name : TypeName) :
    FailsWith Failure.OfDeclarations (r.described name) := by
  unfold described
  split
  · exact .ok _
  · exact .error trivial

/-- A collision is a matter of declarations. -/
lemma stopsWith_claim (walk : Walk) (t : TypeDescription) : StopsWith (r.claim walk t) := by
  unfold claim Registry.claim
  split
  · exact .ok _
  · next failure heq =>
    split at heq
    · split at heq
      · cases heq
      · cases heq
        exact .error trivial
    · cases heq

/-- A type is built from declarations if the types that it mentions are. -/
lemma stopsWith_expand {visit : Walk → TypeName → Except Stopped Walk}
    (h : ∀ walk name, StopsWith (visit walk name)) (walk : Walk) (t : TypeDescription) :
    StopsWith (r.expand visit walk t) :=
  FailsWith.bind (.foldlM h _ _) fun _ => .ok _

/-- Types are visited along declarations. -/
lemma stopsWith_visit (depth : Nat) (walk : Walk) (name : TypeName) :
    StopsWith (r.visit depth walk name) := by
  induction depth generalizing walk name with
  | zero =>
    unfold visit
    split
    · next failure heq => exact .error (ofDeclarations_described name failure heq)
    · refine FailsWith.bind (stopsWith_claim walk _) fun claimed => ?_
      split
      · exact .ok _
      · exact .error trivial
  | succ depth ih =>
    unfold visit
    split
    · next failure heq => exact .error (ofDeclarations_described name failure heq)
    · refine FailsWith.bind (stopsWith_claim walk _) fun claimed => ?_
      split
      · exact .ok _
      · exact stopsWith_expand ih claimed _

/-- A root is built from declarations. -/
lemma stopsWith_walkFrom (registry : Registry) (root : TypeName) :
    StopsWith (r.walkFrom registry root) := by
  unfold walkFrom
  split
  · next failure heq => exact .error (ofDeclarations_described root failure heq)
  · exact FailsWith.bind (stopsWith_claim _ _) fun claimed =>
      stopsWith_expand (stopsWith_visit _) claimed _

/-- Definitions are read off a registry. -/
lemma ofDeclarations_reachable (steps : Nat) (seen pending : List CanonicalId) :
    FailsWith Failure.OfDeclarations (reachable registry steps seen pending) := by
  induction steps generalizing seen pending with
  | zero => exact .ok _
  | succ steps ih =>
    unfold reachable
    split
    · exact .ok _
    · split
      · exact .error trivial
      · exact (ih _ _).bind fun _ => .ok _

/-- A root is read off a registry. -/
lemma ofDeclarations_collect (id : CanonicalId) :
    FailsWith Failure.OfDeclarations (collect registry id) := by
  unfold collect
  split
  · exact .error trivial
  · exact (ofDeclarations_reachable _ _ _).bind fun _ => .ok _

/-- A root is resolved with declarations. -/
lemma ofDeclarations_resolve (registry : Registry) (root : TypeName) :
    FailsWith Failure.OfDeclarations (r.resolve registry root).2.2 := by
  unfold resolve
  split
  · next stopped heq => exact .error (stopsWith_walkFrom registry root stopped heq)
  · exact FailsWith.bind ((ofDeclarations_described root).map r.identifier)
      ofDeclarations_collect

end Resolver

/-! ### Documents -/

/-- A document that is no schema is not a matter of files. -/
lemma Document.ofDeclarations_check (d : Document) :
    FailsWith Failure.OfDeclarations d.check := by
  unfold check Validation.check
  split
  · exact .ok _
  · exact .error trivial

namespace Generator

variable (g : Generator)

/-- Files have no part in the failure of a document. -/
theorem ofDeclarations_document (registry : Registry) (root : TypeName) :
    FailsWith Failure.OfDeclarations (g.document registry root).2.2 := by
  unfold document
  split
  · next failure heq =>
    unfold baseUri at heq
    split at heq
    · cases heq
    · cases heq
      exact .error trivial
  · dsimp only
    split
    · next failure heq =>
      exact .error (TypeSource.ofDeclarations_explore _ _ _ failure heq)
    · exact (Resolver.ofDeclarations_resolve _ _).map _

end Generator

end SchemaCompiler
