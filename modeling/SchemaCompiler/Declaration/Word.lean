import SchemaCompiler.Draft

/-!
# Words of the declaration language

The choices that declarations make by a word from a fixed list.
-/

namespace SchemaCompiler

/-- A choice among values that have a word each. -/
class Worded (α : Type) where
  /-- The values, in the order in which messages list their words. -/
  choices : List α
  word : α → String

/-- The value of a word. -/
def Worded.ofWord? {α : Type} [Worded α] (s : String) : Option α :=
  (choices (α := α)).find? fun value => word value == s

/-- The words of a choice. -/
def Worded.words (α : Type) [Worded α] : List String := (choices (α := α)).map word

/-- What a type is declared to be. -/
inductive DeclaredKind where
  | object
  | enum
  | union
  /-- A type whose variants need not be listed. -/
  | interface
deriving DecidableEq, Repr

/-- When a property is written. -/
inductive Inclusion where
  | always
  | nonNull
  | nonAbsent
  | nonEmpty
  | nonDefault
deriving DecidableEq, Repr

/-- The title of a type that declares none. -/
inductive TitlePolicy where
  | typeName
  | untitled
deriving DecidableEq, Repr

/-- Whether documentation becomes descriptions. -/
inductive DescriptionPolicy where
  | documentation
  | undescribed
deriving DecidableEq, Repr

/-- Whether nullable properties accept null, or are left out where they would be null. -/
inductive NullPolicy where
  | accepted
  | leftOut
deriving DecidableEq, Repr

instance : Worded DeclaredKind where
  choices := [.object, .enum, .union, .interface]
  word
    | .object => "object"
    | .enum => "enum"
    | .union => "union"
    | .interface => "interface"

instance : Worded Inclusion where
  choices := [.always, .nonNull, .nonAbsent, .nonEmpty, .nonDefault]
  word
    | .always => "always"
    | .nonNull => "non_null"
    | .nonAbsent => "non_absent"
    | .nonEmpty => "non_empty"
    | .nonDefault => "non_default"

instance : Worded TitlePolicy where
  choices := [.typeName, .untitled]
  word
    | .typeName => "type_name"
    | .untitled => "none"

instance : Worded DescriptionPolicy where
  choices := [.documentation, .undescribed]
  word
    | .documentation => "documentation"
    | .undescribed => "none"

instance : Worded NullPolicy where
  choices := [.accepted, .leftOut]
  word
    | .accepted => "include"
    | .leftOut => "omit"

instance : Worded Draft where
  choices := [.draft202012, .draft07]
  word := Draft.name

end SchemaCompiler
