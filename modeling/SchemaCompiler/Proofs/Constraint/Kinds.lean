import SchemaCompiler.Proofs.Constraint.Bounds
import SchemaCompiler.Proofs.Constraint.Conflicts
import SchemaCompiler.Proofs.Constraint.Entries

/-!
# Kinds and ranges of constraints that are read

What is read from an entry keeps the kind that is written there, has the parameters that the kind
cannot do without, and asks for no more digits than a limit can be stated for
(`Constraint.kind_of_ofEntry`).  Digits that are read apply to every number: they are never reported
as inapplicable, and they leave both exclusive bounds set (`Mapping.mapsDigits_of_le`).
-/

namespace SchemaCompiler

namespace Mapping

open Constraint

variable {m m' m'' : Mapping} {shape : Shape} {constraints : List Constraint}
  {integer fraction : Nat}

/-! ### Digits that apply -/

/-- Conflicts are all that is reported between one mapping and a later one. -/
def AddsConflicts (m m' : Mapping) : Prop :=
  ∃ findings, m'.findings = m.findings ++ findings ∧
    ∀ finding ∈ findings, finding.1 = .constraintConflict

/-- Nothing has to be reported. -/
lemma AddsConflicts.of_findings_eq (h : m'.findings = m.findings) : AddsConflicts m m' :=
  ⟨[], by rw [h, List.append_nil], nofun⟩

/-- Conflicts may be reported at several times. -/
lemma AddsConflicts.trans (h : AddsConflicts m m') (h' : AddsConflicts m' m'') :
    AddsConflicts m m'' := by
  obtain ⟨findings, hfindings, hconflicts⟩ := h
  obtain ⟨findings', hfindings', hconflicts'⟩ := h'
  refine ⟨findings ++ findings', ?_, List.forall_mem_append.mpr ⟨hconflicts, hconflicts'⟩⟩
  rw [hfindings', hfindings, List.append_assoc]

/-- A reported conflict is one. -/
lemma addsConflicts_report (m : Mapping) (message : String) :
    AddsConflicts m (m.report .constraintConflict message) :=
  ⟨[(.constraintConflict, message)], rfl, List.forall_mem_singleton.mpr rfl⟩

/-- A bound that is noted is at most a conflict. -/
lemma addsConflicts_note (m : Mapping) (keyword kind : String) :
    AddsConflicts m (m.note keyword kind) := by
  unfold note
  split
  · exact addsConflicts_report m _
  · exact .of_findings_eq rfl

/-- A contribution is at most a conflict. -/
lemma addsConflicts_contribute (kind : String) (m : Mapping) (x : Contribution) :
    AddsConflicts m (contribute kind m x) := by
  cases x with
  | count keyword value | bound keyword value =>
    have hnote := addsConflicts_note m keyword.name kind
    exact hnote.trans (.of_findings_eq rfl)
  | pattern regexp =>
    unfold contribute
    dsimp only
    split
    · exact .of_findings_eq rfl
    · split
      · exact .of_findings_eq rfl
      · exact addsConflicts_report m _
  | constant value | step value =>
    unfold contribute
    dsimp only
    split
    · exact addsConflicts_report m _
    · exact .of_findings_eq rfl
  | format name => exact .of_findings_eq rfl
  | nullOnly => exact .of_findings_eq rfl

/-- Contributions are at most conflicts. -/
lemma addsConflicts_foldl (kind : String) (contributions : List Contribution) (m : Mapping) :
    AddsConflicts m (contributions.foldl (contribute kind) m) := by
  induction contributions generalizing m with
  | nil => exact .of_findings_eq rfl
  | cons x contributions ih => exact (addsConflicts_contribute kind m x).trans (ih _)

/-- Digits that apply are at most a conflict. -/
lemma addsConflicts_apply_digits (h : (digits integer fraction).Applies shape) (m : Mapping) :
    AddsConflicts m (apply shape m (digits integer fraction)) := by
  obtain ⟨limit, hcontributions⟩ := contributions_digits h
  unfold apply
  cases heffect : (digits integer fraction).effect shape with
  | contributes contributions => exact addsConflicts_foldl _ contributions m
  | inapplicable | unmapped =>
    rw [heffect] at hcontributions
    cases hcontributions

/-- Digits that apply tighten both exclusive bounds, by a limit and by its opposite. -/
lemma bounds_apply_digits (h : (digits integer fraction).Applies shape) :
    ∃ limit, Json.Number.powerOfTen? integer = some limit ∧ ∀ m,
      (apply shape m (digits integer fraction)).keywords.bound .exclusiveMaximum =
        tighten (boundBeats .exclusiveMaximum) (m.keywords.bound .exclusiveMaximum) limit ∧
      (apply shape m (digits integer fraction)).keywords.bound .exclusiveMinimum =
        tighten (boundBeats .exclusiveMinimum) (m.keywords.bound .exclusiveMinimum)
          limit.negate := by
  obtain ⟨limit, hcontributions⟩ := contributions_digits h
  have hbelow : .bound .exclusiveMaximum limit ∈
      ((digits integer fraction).effect shape).contributions := by
    rw [hcontributions]
    exact List.mem_cons_self
  obtain ⟨-, hlimits⟩ := bound_mem_contributions.mp hbelow
  cases hlimits with
  | digitsBelow hinteger hfraction hlimit =>
    refine ⟨limit, hlimit, fun m => ⟨?_, ?_⟩⟩
    · rw [read_apply (·.bound .exclusiveMaximum) (bound_contribute .exclusiveMaximum),
        hcontributions]
      cases (digits integer fraction).step? <;> rfl
    · rw [read_apply (·.bound .exclusiveMinimum) (bound_contribute .exclusiveMinimum),
        hcontributions]
      cases (digits integer fraction).step? <;> rfl

/-- A bound that is tightened is set. -/
lemma isSome_tighten {α : Type} (beats : α → α → Bool) (current : Option α) (value : α) :
    (tighten beats current value).isSome = true := by
  cases current with
  | none => rfl
  | some present =>
    unfold tighten
    dsimp only
    split <;> rfl

/-- A bound that some values are contributed to is set. -/
lemma isSome_bound_of_mem {keyword : Keywords.Bound} {limit : Json.Number}
    (h : limit ∈ limited shape constraints keyword) :
    ((ofConstraints shape constraints).keywords.bound keyword).isSome = true := by
  have hfold : (ofConstraints shape constraints).keywords.bound keyword =
      (valuesOf (·.bound? keyword) shape constraints).foldl (tighten (boundBeats keyword)) none :=
    read_ofConstraints (·.bound keyword) (bound_contribute keyword) (by cases keyword <;> rfl)
      shape constraints
  have hmem : limit ∈ valuesOf (·.bound? keyword) shape constraints := mem_bounds.mpr h
  rw [hfold]
  cases hvalues : valuesOf (·.bound? keyword) shape constraints using List.reverseRecOn with
  | nil =>
    rw [hvalues] at hmem
    cases hmem
  | append_singleton values last =>
    rw [List.foldl_append]
    exact isSome_tighten _ _ last

/-- What digits make of the numbers of a shape: they report conflicts alone, they tighten both
exclusive bounds, by a limit and by its opposite, and both are set whatever stands beside them. -/
structure MapsDigits (shape : Shape) (integer fraction : Nat) : Prop where
  conflicts (m : Mapping) : AddsConflicts m (apply shape m (digits integer fraction))
  tightened : ∃ limit, Json.Number.powerOfTen? integer = some limit ∧ ∀ m : Mapping,
    (apply shape m (digits integer fraction)).keywords.bound .exclusiveMaximum =
      tighten (boundBeats .exclusiveMaximum) (m.keywords.bound .exclusiveMaximum) limit ∧
    (apply shape m (digits integer fraction)).keywords.bound .exclusiveMinimum =
      tighten (boundBeats .exclusiveMinimum) (m.keywords.bound .exclusiveMinimum) limit.negate
  isSet (constraints : List Constraint) (hmem : digits integer fraction ∈ constraints) :
    ((ofConstraints shape constraints).keywords.bound .exclusiveMaximum).isSome = true ∧
      ((ofConstraints shape constraints).keywords.bound .exclusiveMinimum).isSome = true

/-- Few digits are mapped so. -/
theorem mapsDigits_of_le (hnumeric : shape.isNumeric = true) (hinteger : integer ≤ maxDigits)
    (hfraction : fraction ≤ maxDigits) : MapsDigits shape integer fraction := by
  have happlies : (digits integer fraction).Applies shape := ⟨hnumeric, hinteger, hfraction⟩
  obtain ⟨limit, hlimit, hbounds⟩ := bounds_apply_digits happlies
  refine ⟨addsConflicts_apply_digits happlies, ⟨limit, hlimit, hbounds⟩, ?_⟩
  intro constraints hmem
  constructor
  · apply isSome_bound_of_mem
    exact ⟨hnumeric, _, hmem, .digitsBelow hinteger hfraction hlimit⟩
  · apply isSome_bound_of_mem
    exact ⟨hnumeric, _, hmem, .digitsAbove hinteger hfraction hlimit⟩

end Mapping

namespace Constraint

variable {entry : Entry} {c : Constraint} {parameters : Json} {key : String}

/-! ### Parameters that are there -/

/-- The keys that a kind cannot do without. -/
def requiredKeys : String → List String
  | "min" | "max" | "decimal_min" | "decimal_max" => ["value"]
  | "pattern" => ["regexp"]
  | "digits" => ["integer", "fraction"]
  | _ => []

/-- Parameters give a value to one of some keys: under the key or, if there is no other, in place
of all parameters. -/
def Gives (parameters : Json) (keys : List String) (key : String) : Prop :=
  (∃ value, parameters.get? key = some value ∧ value ≠ .null) ∨
    keys = [key] ∧ parameters.isObject = false ∧ parameters ≠ .null

/-- A value that is read is given. -/
lemma gives_value {α : Type} (read : Json → Except Fault α) {value : α}
    (hmap : ∀ members, read (.object members) ≠ .ok value) (hnull : read .null ≠ .ok value)
    (h : read (valueParameter parameters) = .ok value) : Gives parameters ["value"] "value" := by
  unfold valueParameter at h
  cases hfound : parameters.get? "value" with
  | some found =>
    rw [hfound, Option.getD_some] at h
    refine Or.inl ⟨found, hfound, ?_⟩
    rintro rfl
    exact hnull h
  | none =>
    rw [hfound, Option.getD_none] at h
    cases parameters with
    | null => exact absurd h hnull
    | object members => exact absurd h (hmap members)
    | _ => exact Or.inr ⟨rfl, rfl, nofun⟩

/-- A text that is read is given. -/
lemma gives_text {text : String} (h : readText? key parameters = .ok (some text)) :
    Gives parameters [key] key := by
  unfold readText? at h
  split at h
  · exact Or.inr ⟨rfl, rfl, nofun⟩
  · cases h
  · next members =>
    split at h
    · cases h
    · cases h
    · next found hfound => exact Or.inl ⟨.string found, hfound, nofun⟩
    · cases h
  · cases h

/-- A count that is read is a number under its key. -/
lemma get?_of_readCount? {count : Nat} (h : readCount? key parameters = .ok (some count)) :
    ∃ n, parameters.get? key = some (.number n) := by
  unfold readCount? at h
  split at h
  · cases h
  · split at h
    · cases h
    · cases h
    · next n hfound => exact ⟨n, hfound⟩
    · cases h

/-- Digits that are read are within the limit. -/
lemma of_readDigitCount_eq_ok {count : Nat} (h : readDigitCount key parameters = .ok count) :
    readCount? key parameters = .ok (some count) ∧ count ≤ maxDigits := by
  obtain ⟨count?, hcount, hread⟩ := bind_eq_ok_iff.mp h
  split at hread
  · cases hread
  · split at hread
    · next hfew =>
      cases hread
      exact ⟨hcount, hfew⟩
    · cases hread

/-- Counts are read from maps. -/
lemma isObject_of_readCount? {count? : Option Nat} (h : readCount? key parameters = .ok count?) :
    parameters.isObject = true := by
  unfold readCount? at h
  split at h
  · cases h
  · next hobject => simpa using hobject

/-- A number of digits that is read is given. -/
lemma gives_count {keys : List String} {count : Nat}
    (h : readDigitCount key parameters = .ok count) : Gives parameters keys key := by
  obtain ⟨hcount, -⟩ := of_readDigitCount_eq_ok h
  obtain ⟨n, hn⟩ := get?_of_readCount? hcount
  exact Or.inl ⟨.number n, hn, nofun⟩

/-- Parameters that give a value say something. -/
lemma Gives.isVoid_eq_false {keys : List String} (h : Gives parameters keys key) :
    isVoid parameters = false := by
  unfold isVoid
  split
  · rcases h with ⟨value, hvalue, -⟩ | ⟨-, -, hnull⟩
    · cases hvalue
    · exact absurd rfl hnull
  · rcases h with ⟨value, hvalue, -⟩ | ⟨-, hobject, -⟩
    · cases hvalue
    · cases hobject
  · rfl

/-- Whatever a kind cannot do without is given by the parameters that a constraint is held by. -/
lemma gives_of_heldBy (hneeds : needsParameters c.kind = true) (h : c.HeldBy parameters) :
    ∀ key ∈ requiredKeys c.kind, Gives parameters (requiredKeys c.kind) key := by
  cases c with
  | size least greatest => nofun
  | min value | max value =>
    exact List.forall_mem_singleton.mpr
      (gives_value readInteger (readInteger_object_ne · value) nofun h)
  | decimalMin value inclusive | decimalMax value inclusive =>
    exact List.forall_mem_singleton.mpr
      (gives_value readDecimal (readDecimal_object_ne · value) nofun h.1)
  | pattern regexp => exact List.forall_mem_singleton.mpr (gives_text h)
  | digits integer fraction =>
    exact List.forall_mem_cons.mpr
      ⟨gives_count h.1, List.forall_mem_singleton.mpr (gives_count h.2)⟩
  | unknown name =>
    have hnot : needsParameters name = false := needsParameters_of_not_mem h
    exact absurd hneeds (Bool.eq_false_iff.mp hnot)
  | _ => cases hneeds

/-- Of the kinds that need parameters only a size is held by some that say nothing, and then it
bounds nothing. -/
lemma size_of_isVoid (hneeds : needsParameters c.kind = true) (h : c.HeldBy parameters)
    (hvoid : isVoid parameters = true) : c = .size none none ∧ parameters = .object [] := by
  have hgives := gives_of_heldBy hneeds h
  have hnone : ∀ key ∈ requiredKeys c.kind, False := by
    intro key hkey
    rw [(hgives key hkey).isVoid_eq_false] at hvoid
    cases hvoid
  cases c with
  | size least greatest =>
    obtain ⟨hleast, hgreatest⟩ := h
    have hobject := isObject_of_readCount? hleast
    unfold isVoid at hvoid
    split at hvoid
    · cases hobject
    · cases hleast
      cases hgreatest
      exact ⟨rfl, rfl⟩
    · cases hvoid
  | min | max | decimalMin | decimalMax | pattern | digits =>
    exact (hnone _ List.mem_cons_self).elim
  | unknown name =>
    have hnot : needsParameters name = false := needsParameters_of_not_mem h
    exact absurd hneeds (Bool.eq_false_iff.mp hnot)
  | _ => cases hneeds

/-- Digits that are read are within the limit. -/
lemma le_maxDigits_of_ofEntry {integer fraction : Nat}
    (h : ofEntry entry = .ok (.digits integer fraction)) :
    integer ≤ maxDigits ∧ fraction ≤ maxDigits := by
  rcases ofEntry_eq_ok_iff.mp h with ⟨-, halone⟩ | ⟨parameters, -, hinteger, hfraction⟩
  · exact halone.elim
  · exact ⟨(of_readDigitCount_eq_ok hinteger).2, (of_readDigitCount_eq_ok hfraction).2⟩

/-! ### Kinds that are kept -/

/-- A constraint that is read is unknown exactly if its kind is. -/
lemma unknown_iff (h : ofEntry entry = .ok c) :
    (∃ name, c = .unknown name) ↔ c.kind ∉ knownKinds := by
  constructor
  · rintro ⟨name, rfl⟩
    rcases ofEntry_eq_ok_iff.mp h with ⟨-, halone⟩ | ⟨parameters, -, hheld⟩
    · exact halone
    · exact hheld
  · intro hkind
    by_contra hknown
    exact hkind (kind_mem_knownKinds fun name hname => hknown ⟨name, hname⟩)

/-- A constraint that is read has the kind that its entry is written under.  It is unknown exactly
if the kind is none of the known ones.  A known kind without keys has no parameters that say
anything.  A kind that needs parameters has them, and a value for every key that it cannot do
without; only a size, which can do without either count, may have an empty map.  Digits are few
enough to apply to every number: they are never reported as inapplicable there, and they leave both
exclusive bounds set. -/
theorem kind_of_ofEntry (h : ofEntry entry = .ok c) :
    (entry = .bare c.kind ∨ ∃ parameters, entry = .keyed [(c.kind, parameters)]) ∧
    ((∃ name, c = .unknown name) ↔ c.kind ∉ knownKinds) ∧
    (c.kind ∈ knownKinds → parameterKeys c.kind = [] →
      ∀ parameters, entry = .keyed [(c.kind, parameters)] → isVoid parameters = true) ∧
    (needsParameters c.kind = true → ∃ parameters, entry = .keyed [(c.kind, parameters)] ∧
      (isVoid parameters = true → c = .size none none ∧ parameters = .object []) ∧
      ∀ key ∈ requiredKeys c.kind, Gives parameters (requiredKeys c.kind) key) ∧
    ∀ integer fraction, c = .digits integer fraction →
      integer ≤ maxDigits ∧ fraction ≤ maxDigits ∧
        ∀ shape, shape.isNumeric = true → Mapping.MapsDigits shape integer fraction := by
  refine ⟨?_, unknown_iff h, ?_, ?_, ?_⟩
  · rcases ofEntry_eq_ok_iff.mp h with ⟨hbare, -⟩ | ⟨parameters, hkeyed, -⟩
    · exact Or.inl hbare
    · exact Or.inr ⟨parameters, hkeyed⟩
  · rintro hknown hkeys parameters rfl
    obtain ⟨-, hheld⟩ := ofEntry_keyed_eq_ok_iff.mp h
    exact hheld.isVoid_eq_true hknown hkeys
  · intro hneeds
    rcases ofEntry_eq_ok_iff.mp h with ⟨-, halone⟩ | ⟨parameters, hkeyed, hheld⟩
    · exact absurd hneeds (Bool.eq_false_iff.mp halone.needsParameters_eq_false)
    · exact ⟨parameters, hkeyed, size_of_isVoid hneeds hheld, gives_of_heldBy hneeds hheld⟩
  · rintro integer fraction rfl
    obtain ⟨hinteger, hfraction⟩ := le_maxDigits_of_ofEntry h
    refine ⟨hinteger, hfraction, fun shape hnumeric => ?_⟩
    exact Mapping.mapsDigits_of_le hnumeric hinteger hfraction

/-- Digits beside a tighter bound. -/
theorem kind_of_ofEntry_digits :
    ofEntry (.keyed [("digits", .object [("integer", .number (.int 3)),
        ("fraction", .number (.int 2))])]) = .ok (.digits 3 2) ∧
      Gives (.object [("integer", .number (.int 3)), ("fraction", .number (.int 2))])
        ["integer", "fraction"] "fraction" ∧
      Mapping.AddsConflicts {} (Mapping.apply .number {} (.digits 3 2)) ∧
      ((Mapping.ofConstraints .number [.negative, .digits 3 2]).keywords.bound
        .exclusiveMinimum).isSome := by
  have h : ofEntry (.keyed [("digits", .object [("integer", .number (.int 3)),
      ("fraction", .number (.int 2))])]) = .ok (.digits 3 2) := rfl
  obtain ⟨-, -, -, hneeds, hdigits⟩ := kind_of_ofEntry h
  obtain ⟨parameters, hkeyed, -, hgives⟩ := hneeds rfl
  cases hkeyed
  obtain ⟨-, -, hmaps⟩ := hdigits 3 2 rfl
  have hnumber : Mapping.MapsDigits .number 3 2 := hmaps .number rfl
  refine ⟨h, hgives "fraction" ?_, hnumber.conflicts {}, ?_⟩
  · exact List.mem_cons_of_mem _ List.mem_cons_self
  · exact (hnumber.isSet [.negative, .digits 3 2] (by simp)).2

/-- A size alone is rejected because there are no parameters to read.  With an empty map there are:
both bounds of a size can be left out, each by itself, so a map that gives neither is read as a size
without bounds. -/
theorem ofEntry_size_empty :
    ofEntry (.bare "size") = .error ⟨"size", .parametersRequired⟩ ∧
      ofEntry (.keyed [("size", .object [])]) = .ok (.size none none) ∧
      ¬∀ entry c, ofEntry entry = .ok c → needsParameters c.kind = true →
        ∃ parameters, entry = .keyed [(c.kind, parameters)] ∧ isVoid parameters = false := by
  have h : ofEntry (.keyed [("size", .object [])]) = .ok (.size none none) := rfl
  refine ⟨rfl, h, ?_⟩
  intro hall
  obtain ⟨parameters, hkeyed, hvoid⟩ := hall _ _ h rfl
  cases hkeyed
  cases hvoid

end Constraint

end SchemaCompiler
