import SchemaCompiler.Diagnostic
import SchemaCompiler.Failure

/-!
# Work that reports

The outcome of work that can report findings and can fail: what was found is kept when it fails.
-/

namespace SchemaCompiler

/-- A result or a failure, and what was found before. -/
structure Reported (α : Type) where
  findings : List Diagnostic
  result : Except Failure α

namespace Reported

variable {α β : Type}

/-- A result without findings. -/
def ofExcept (result : Except Failure α) : Reported α := ⟨[], result⟩

/-- Findings alone. -/
def report (findings : List Diagnostic) : Reported Unit := ⟨findings, .ok ()⟩

/-- Goes on with a result; what is found later stands after what was found before. -/
def andThen (first : Reported α) (next : α → Reported β) : Reported β :=
  match first.result with
  | .ok value => ⟨first.findings ++ (next value).findings, (next value).result⟩
  | .error failure => ⟨first.findings, .error failure⟩

instance : Monad Reported where
  pure value := ⟨[], .ok value⟩
  bind := andThen

@[simp] theorem pure_eq (value : α) : (pure value : Reported α) = ⟨[], .ok value⟩ := rfl

@[simp] theorem bind_eq (first : Reported α) (next : α → Reported β) :
    first >>= next = first.andThen next := rfl

@[simp] theorem andThen_ok (findings : List Diagnostic) (value : α) (next : α → Reported β) :
    andThen ⟨findings, .ok value⟩ next =
      ⟨findings ++ (next value).findings, (next value).result⟩ := rfl

@[simp] theorem andThen_error (findings : List Diagnostic) (failure : Failure)
    (next : α → Reported β) :
    andThen ⟨findings, .error failure⟩ next = ⟨findings, .error failure⟩ := rfl

end Reported

end SchemaCompiler
