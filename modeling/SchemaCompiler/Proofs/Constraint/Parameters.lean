import SchemaCompiler.Proofs.Constraint.Entries

/-!
# Parameters that no kind reads

A constraint takes its parameters from the values of the keys of its kind and from nothing else: two
maps that agree on these keys hold the same constraints of the kind (`Constraint.heldBy_congr`).
A member under any other key is left aside, so that an entry with such members is accepted as if
they were not there; only the kinds that have no parameters at all reject them
(`Constraint.ofEntry_object_iff`).
-/

namespace SchemaCompiler.Constraint

variable {c : Constraint} {members members' : List (String × Json)} {key kind : String}
  {keys : List String}

/-! ### Maps that agree on keys -/

/-- Two lists of members give the same value to each of some keys, or none. -/
def AgreeOn (keys : List String) (members members' : List (String × Json)) : Prop :=
  ∀ key ∈ keys, members.lookup key = members'.lookup key

/-- The members under some keys. -/
def restrict (keys : List String) (members : List (String × Json)) : List (String × Json) :=
  members.filter fun member => keys.contains member.1

/-- Members under other keys do not matter for a key. -/
lemma lookup_restrict (hkey : key ∈ keys) :
    (restrict keys members).lookup key = members.lookup key := by
  unfold restrict
  induction members with
  | nil => rfl
  | cons member members ih =>
    obtain ⟨name, value⟩ := member
    rw [List.filter_cons]
    by_cases hsame : key = name
    · subst hsame
      rw [if_pos (List.contains_iff_mem.mpr hkey), List.lookup_cons_self, List.lookup_cons_self]
    · have hbeq : (key == name) = false := beq_eq_false_iff_ne.mpr hsame
      split
      · rw [List.lookup_cons, List.lookup_cons, hbeq, ih]
      · rw [List.lookup_cons, hbeq, ih]

/-- Members agree on some keys with those of them that have one of the keys. -/
lemma agreeOn_restrict (keys : List String) (members : List (String × Json)) :
    AgreeOn keys members (restrict keys members) :=
  fun _ hkey => (lookup_restrict hkey).symm

/-! ### Readers -/

/-- A count depends on the value of its key alone. -/
lemma readCount?_congr (h : members.lookup key = members'.lookup key) :
    readCount? key (.object members) = readCount? key (.object members') := by
  unfold readCount? Json.get?
  dsimp only
  rw [h]
  rfl

/-- A number of digits depends on the value of its key alone. -/
lemma readDigitCount_congr (h : members.lookup key = members'.lookup key) :
    readDigitCount key (.object members) = readDigitCount key (.object members') := by
  rw [readDigitCount, readDigitCount, readCount?_congr h]

/-- A text depends on the value of its key alone. -/
lemma readText?_congr (h : members.lookup key = members'.lookup key) :
    readText? key (.object members) = readText? key (.object members') := by
  simp only [readText?, h]

/-- Whether a bound belongs to the range depends on the value of one key alone. -/
lemma readInclusive_congr (h : members.lookup "inclusive" = members'.lookup "inclusive") :
    readInclusive (.object members) = readInclusive (.object members') := by
  simp only [readInclusive, Json.get?, h]

/-- A value depends on the value of its key alone, as a map is no value itself. -/
lemma valueParameter_congr {α : Type} {read : Json → Except Fault α} {value : α}
    (hmap : ∀ members, read (.object members) ≠ .ok value)
    (h : members.lookup "value" = members'.lookup "value") :
    read (valueParameter (.object members)) = .ok value ↔
      read (valueParameter (.object members')) = .ok value := by
  simp only [valueParameter, Json.get?, h]
  cases members'.lookup "value" with
  | none => exact iff_of_false (hmap members) (hmap members')
  | some found => exact Iff.rfl

/-- Maps that agree on the keys of a kind hold the same constraints of it, if it has any keys. -/
theorem heldBy_congr (hkeys : parameterKeys c.kind ≠ [])
    (h : AgreeOn (parameterKeys c.kind) members members') :
    c.HeldBy (.object members) ↔ c.HeldBy (.object members') := by
  cases c with
  | size least greatest =>
    have hagree : AgreeOn ["min", "max"] members members' := h
    have hmin := hagree "min" (by decide)
    have hmax := hagree "max" (by decide)
    rw [HeldBy, HeldBy, readCount?_congr hmin, readCount?_congr hmax]
  | min value | max value =>
    have hagree : AgreeOn ["value"] members members' := h
    exact valueParameter_congr (readInteger_object_ne · value) (hagree "value" (by decide))
  | decimalMin value inclusive | decimalMax value inclusive =>
    have hagree : AgreeOn ["value", "inclusive"] members members' := h
    have hvalue := hagree "value" (by decide)
    have hinclusive := hagree "inclusive" (by decide)
    rw [HeldBy, HeldBy, readInclusive_congr hinclusive]
    exact and_congr_left' (valueParameter_congr (readDecimal_object_ne · value) hvalue)
  | pattern regexp | email regexp =>
    have hagree : AgreeOn ["regexp"] members members' := h
    have hregexp := hagree "regexp" (by decide)
    rw [HeldBy, HeldBy, readText?_congr hregexp]
  | digits integer fraction =>
    have hagree : AgreeOn ["integer", "fraction"] members members' := h
    have hinteger := hagree "integer" (by decide)
    have hfraction := hagree "fraction" (by decide)
    rw [HeldBy, HeldBy, readDigitCount_congr hinteger, readDigitCount_congr hfraction]
  | unknown name => exact Iff.rfl
  | _ => exact absurd rfl hkeys

/-- A map holds a constraint of a kind without keys only if it is empty. -/
lemma heldBy_iff_of_no_keys (hknown : c.kind ∈ knownKinds) (hkeys : parameterKeys c.kind = []) :
    c.HeldBy (.object members) ↔ c.HeldBy (.object []) ∧ members = [] := by
  constructor
  · intro h
    have hvoid := h.isVoid_eq_true hknown hkeys
    cases members with
    | nil => exact ⟨h, rfl⟩
    | cons member members => cases hvoid
  · rintro ⟨h, rfl⟩
    exact h

/-- A map holds a constraint of a known kind exactly if its members under the keys of the kind do
and, where there are no such keys, it has no members. -/
lemma heldBy_restrict_iff (hknown : c.kind ∈ knownKinds) : c.HeldBy (.object members) ↔
    c.HeldBy (.object (restrict (parameterKeys c.kind) members)) ∧
      (parameterKeys c.kind = [] → members = []) := by
  by_cases hkeys : parameterKeys c.kind = []
  · have hrestrict : restrict [] members = [] := List.filter_eq_nil_iff.mpr (by simp)
    rw [hkeys, hrestrict, heldBy_iff_of_no_keys hknown hkeys]
    exact and_congr_right' ⟨fun hempty _ => hempty, fun hempty => hempty rfl⟩
  · rw [heldBy_congr hkeys (agreeOn_restrict _ members)]
    exact (and_iff_left fun hnone => absurd hnone hkeys).symm

/-! ### Entries -/

/-- Parameters under keys of several kinds. -/
def mixedParameters : List (String × Json) :=
  [("value", .number (.int 0)), ("regexp", .string ""), ("integer", .number (.int 0)),
    ("fraction", .number (.int 0))]

/-- Every kind that has any keys accepts parameters under keys of other kinds. -/
lemma exists_mixed (hkeys : parameterKeys kind ≠ []) :
    (∃ c, ofEntry (.keyed [(kind, .object mixedParameters)]) = .ok c) ∧
      ∃ member ∈ mixedParameters, member.1 ∉ parameterKeys kind := by
  have hmem : kind ∈ ["size", "min", "max", "decimal_min", "decimal_max", "pattern", "email",
      "digits"] := by
    unfold parameterKeys at hkeys
    split at hkeys
    all_goals first
      | decide
      | exact absurd rfl hkeys
  simp only [List.mem_cons, List.not_mem_nil, or_false] at hmem
  rcases hmem with rfl | rfl | rfl | rfl | rfl | rfl | rfl | rfl
  all_goals exact ⟨⟨_, rfl⟩, by simp [mixedParameters, parameterKeys]⟩

/-- An entry of a known kind with a map of parameters is accepted exactly if the entry with the
members under the keys of the kind is, as the same constraint, and, where the kind has no keys, the
map is empty.  So the kinds without keys are those of which every accepted entry keeps to the keys
of its kind; the others leave further members aside. -/
theorem ofEntry_object_iff (hkind : kind ∈ knownKinds) :
    (∀ members c, ofEntry (.keyed [(kind, .object members)]) = .ok c ↔
      ofEntry (.keyed [(kind, .object (restrict (parameterKeys kind) members))]) = .ok c ∧
        (parameterKeys kind = [] → members = [])) ∧
    ((∀ members c, ofEntry (.keyed [(kind, .object members)]) = .ok c →
      ∀ member ∈ members, member.1 ∈ parameterKeys kind) ↔ parameterKeys kind = []) := by
  have hextent : ∀ members c, ofEntry (.keyed [(kind, .object members)]) = .ok c ↔
      ofEntry (.keyed [(kind, .object (restrict (parameterKeys kind) members))]) = .ok c ∧
        (parameterKeys kind = [] → members = []) := by
    intro members c
    rw [ofEntry_keyed_eq_ok_iff, ofEntry_keyed_eq_ok_iff, and_assoc]
    refine and_congr_right fun hc => ?_
    subst hc
    exact heldBy_restrict_iff hkind
  refine ⟨hextent, ?_, ?_⟩
  · intro hkeeps
    by_contra hkeys
    obtain ⟨⟨c, hc⟩, member, hmember, hstray⟩ := exists_mixed hkeys
    exact hstray (hkeeps mixedParameters c hc member hmember)
  · intro hkeys members c hc member hmember
    have hempty : members = [] := ((hextent members c).mp hc).2 hkeys
    rw [hempty] at hmember
    cases hmember

/-- A mistyped upper bound of a size is left aside, and the size has no upper bound. -/
theorem ofEntry_size_maximum :
    "size" ∈ knownKinds ∧
      ofEntry (.keyed [("size", .object [("min", .number (.int 2)),
        ("maximum", .number (.int 10))])]) = .ok (.size (some 2) none) ∧
      ¬∀ members c, ofEntry (.keyed [("size", .object members)]) = .ok c →
        ∀ member ∈ members, member.1 ∈ parameterKeys "size" := by
  have hkind : "size" ∈ knownKinds := by decide
  obtain ⟨hextent, hkeeps⟩ := ofEntry_object_iff hkind
  refine ⟨hkind, (hextent _ _).mpr ⟨rfl, nofun⟩, ?_⟩
  rw [hkeeps]
  nofun

end SchemaCompiler.Constraint
