import SchemaCompiler.Proofs.Schema.Structure

/-!
# Keywords of written nodes

A written node neither loses nor invents keywords (`Node.render_shows`).  `Keywords.Shown` says of
some members that they show a structure and the values of keywords: a keyword with a value stands
there once, a keyword without one does not stand there, and all other members are the structure, as
if there were no keywords.  As no key comes twice, it makes no difference that a later member would
replace an earlier one in a map.

The members of a node show its structure and all its keywords.  Only where null takes a branch, they
show the choice and the annotations, and the first branch shows all that is left.  So the keywords
of a node can be read off its written form (`Node.keywords?_eq_of_render_eq`).
-/

namespace SchemaCompiler

open Association (keys valuesAt ofPairs valuesAt_append valuesAt_eq_nil)
open Keywords (Member structureKeys)

/-- The keys of all keywords. -/
def Keyword.keys : List String := all.map key

/-- The key of a keyword is among the keys of all. -/
lemma Keyword.key_mem_keys (w : Keyword) : w.key ∈ keys := List.mem_map_of_mem w.mem_all

namespace Keywords

variable {k : Keywords} {structural members : List Member} {w : Keyword} {ws : List Keyword}

/-! ### Members that show keywords -/

/-- Members that show a structure and the values of keywords, and nothing else. -/
structure Shown (structural : List Member) (value? : Keyword → Option Json)
    (members : List Member) : Prop where
  /-- Written into a map one after another, the members replace nothing. -/
  kept : ofPairs members = members
  /-- A keyword with a value stands there once, with this value; one without does not. -/
  once : ∀ w : Keyword, valuesAt w.key members = (value? w).toList
  /-- Apart from keywords the structure is left. -/
  others : members.filter (fun m => decide (m.1 ∉ Keyword.keys)) = structural
  /-- The structure has keys of its own. -/
  own : ∀ key ∈ keys structural, key ∈ structureKeys

/-- The members of keywords have their keys. -/
lemma key_mem_of_written {m : Member} (hm : m ∈ k.written ws) : ∃ w ∈ ws, w.key = m.1 :=
  List.mem_map.mp ((k.keys_written ws).subset (List.mem_map_of_mem hm))

/-- A keyword that is not written does not stand among those that are. -/
lemma valuesAt_written_of_not_mem (hw : w ∉ ws) : valuesAt w.key (k.written ws) = [] := by
  refine valuesAt_eq_nil fun hmem => hw ?_
  obtain ⟨m, hm, hkey⟩ := List.mem_map.mp hmem
  obtain ⟨v, hv, hsame⟩ := key_mem_of_written hm
  exact Keyword.key_injective (hsame.trans hkey) ▸ hv

/-- A keyword among those that are written stands there if it has a value. -/
lemma valuesAt_written (hws : ws.Nodup) (hw : w ∈ ws) :
    valuesAt w.key (k.written ws) = (k.value? w).toList := by
  induction ws with
  | nil => cases hw
  | cons v ws ih =>
    obtain ⟨hv, hws⟩ := List.nodup_cons.mp hws
    rw [written_cons, valuesAt_append]
    rcases List.mem_cons.mp hw with rfl | hw
    · rw [valuesAt_written_of_not_mem hv, List.append_nil]
      cases k.value? w with
      | none => rfl
      | some value => simp [member, valuesAt]
    · have hother : valuesAt w.key (member v.key (k.value? v)) = [] := by
        refine valuesAt_eq_nil fun hmem => hv ?_
        have hkey := (k.keys_written [v]).subset (by simpa [written] using hmem)
        exact Keyword.key_injective (List.mem_singleton.mp hkey) ▸ hw
      rw [hother, ih hws hw, List.nil_append]

/-- The keywords around a structure are all keywords. -/
lemma around_eq (k : Keywords) (structural : List Member) : k.around structural =
    k.written Keyword.head ++ structural ++ k.written Keyword.body ++ k.written Keyword.tail := by
  rw [around, head_eq, body_eq, tail_eq]

/-- Of keywords around a structure each one stands there if it has a value. -/
lemma valuesAt_around (hown : ∀ key ∈ keys structural, key ∈ structureKeys) (w : Keyword) :
    valuesAt w.key (k.around structural) = (k.value? w).toList := by
  have hstructural : valuesAt w.key structural = [] :=
    valuesAt_eq_nil fun hmem => key_not_mem_structureKeys w (hown _ hmem)
  have hall : valuesAt w.key (k.written Keyword.all) = (k.value? w).toList :=
    valuesAt_written (List.Nodup.of_map _ Keyword.nodup_keys) w.mem_all
  rw [← hall, around_eq, Keyword.all, written_append, written_append]
  simp only [valuesAt_append, hstructural, List.append_nil]

/-- Apart from the keywords around a structure the structure is left. -/
lemma filter_around (hown : ∀ key ∈ keys structural, key ∈ structureKeys) :
    (k.around structural).filter (fun m => decide (m.1 ∉ Keyword.keys)) = structural := by
  have hwritten : ∀ ws, (k.written ws).filter (fun m => decide (m.1 ∉ Keyword.keys)) = [] := by
    refine fun ws => List.filter_eq_nil_iff.mpr fun m hm => ?_
    obtain ⟨w, -, hkey⟩ := key_mem_of_written hm
    simpa [← hkey] using w.key_mem_keys
  have hstructural : structural.filter (fun m => decide (m.1 ∉ Keyword.keys)) = structural := by
    refine List.filter_eq_self.mpr fun m hm => decide_eq_true fun hmem => ?_
    obtain ⟨w, -, hkey⟩ := List.mem_map.mp hmem
    exact key_not_mem_structureKeys w (hkey ▸ hown _ (List.mem_map_of_mem hm))
  rw [around_eq]
  simp only [List.filter_append, hwritten, hstructural, List.append_nil, List.nil_append]

/-- Keywords around a structure are shown with it. -/
theorem shown_around (k : Keywords) (h : (keys structural).Sublist structureKeys) :
    Shown structural k.value? (k.around structural) where
  kept := by
    have hkeys := Node.keys_around (k := k) h
    have hnodup := Node.nodup_memberKeys .draft07
    refine Association.insertAll_of_nodup (hkeys.nodup ?_)
    exact hnodup.sublist (((List.sublist_append_left _ _).cons "$id").cons "$schema")
  once := valuesAt_around fun _ hkey => h.subset hkey
  others := filter_around fun _ hkey => h.subset hkey
  own := fun _ hkey => h.subset hkey

/-- A key that is no keyword stands among the members if it stands in the structure. -/
lemma Shown.mem_keys_iff {value? : Keyword → Option Json} {key : String}
    (h : Shown structural value? members) (hkey : key ∉ Keyword.keys) :
    key ∈ keys members ↔ key ∈ keys structural := by
  rw [← h.others]
  constructor
  · intro hmem
    obtain ⟨m, hm, rfl⟩ := List.mem_map.mp hmem
    exact List.mem_map_of_mem (List.mem_filter.mpr ⟨hm, decide_eq_true hkey⟩)
  · exact fun hmem => (List.filter_sublist.map Prod.fst).subset hmem

/-- Members show one value of a keyword, if any. -/
lemma Shown.value?_eq {structural' : List Member} {value? value?' : Keyword → Option Json}
    (h : Shown structural value? members) (h' : Shown structural' value?' members) :
    value? = value?' := by
  funext w
  have hlists : (value? w).toList = (value?' w).toList := (h.once w).symm.trans (h'.once w)
  rw [← Option.head?_toList (o := value? w), hlists, Option.head?_toList]

end Keywords

namespace Node

open Keywords (Shown)

variable {draft : Draft} {n n' : Node} {k : Keywords}

/-! ### Nodes that show their keywords -/

/-- A choice between a schema and null. -/
def choice (first : List Member) : List Member :=
  [("anyOf", .array [.object first, .object [("type", .string "null")]])]

/-- The values of annotations. -/
def annotated (k : Keywords) (w : Keyword) : Option Json :=
  if w.isAnnotation then k.value? w else none

/-- The values of all other keywords. -/
def asserted (k : Keywords) (w : Keyword) : Option Json :=
  if w.isAnnotation then none else k.value? w

/-- Changed keywords are those of the changed node. -/
lemma keywords?_mapKeywords (f : Keywords → Keywords) (hk : n.keywords? = some k) :
    (n.mapKeywords f).keywords? = some (f k) := by
  cases n with
  | nullable inner => cases hk
  | _ => exact congrArg (Option.map f) hk

/-- Where null takes no branch, a node shows its structure and its keywords. -/
theorem shown_members (draft : Draft) (hk : n.value.keywords? = some k)
    (h : (n.isNullable && n.value.branches) = false) :
    Shown (n.value.structural draft n.isNullable) k.value? (n.members draft false) := by
  obtain ⟨hmembers, hkeys⟩ := members_eq_around draft hk h
  rw [members_value, Bool.false_or, hmembers]
  exact k.shown_around (hkeys.trans List.erase_sublist)

/-- Where null takes a branch, a node shows the choice and its annotations, and the first branch
shows its structure and all other keywords. -/
theorem shown_branches (draft : Draft) (hk : n.value.keywords? = some k)
    (h : (n.isNullable && n.value.branches) = true) : ∃ first,
    Shown (choice first) (annotated k) (n.members draft false) ∧
      Shown ((n.value.mapKeywords Keywords.assertions).structural draft false) (asserted k)
        first := by
  obtain ⟨hnull, hbranches⟩ := Bool.and_eq_true_iff.mp h
  have hmembers : n.members draft false = n.value.members draft true := by
    rw [members_value draft n, hnull, Bool.false_or]
  have hassertions := keywords?_mapKeywords Keywords.assertions hk
  obtain ⟨hfirst, hkeys⟩ := members_eq_around draft hassertions (Bool.false_and _)
  have hannotated : k.annotations.value? = annotated k := funext k.value?_annotations
  have hasserted : k.assertions.value? = asserted k := funext k.value?_assertions
  refine ⟨(n.value.mapKeywords Keywords.assertions).members draft false, ?_, ?_⟩
  · rw [hmembers, members_of_branches hk hbranches, ← hannotated]
    exact k.annotations.shown_around (show ["anyOf"].Sublist structureKeys by decide)
  · rw [hfirst, ← hasserted]
    exact k.assertions.shown_around (hkeys.trans List.erase_sublist)

/-- A node is written as a choice exactly where null takes a branch. -/
lemma anyOf_mem_keys_members (draft : Draft) (n : Node) :
    "anyOf" ∈ keys (n.members draft false) ↔ (n.isNullable && n.value.branches) = true := by
  obtain ⟨k, hk⟩ := n.exists_keywords
  have hkey : "anyOf" ∉ Keyword.keys := by decide
  cases h : n.isNullable && n.value.branches with
  | false =>
    obtain ⟨-, hkeys⟩ := members_eq_around draft hk h
    rw [(shown_members draft hk h).mem_keys_iff hkey]
    exact iff_of_false (fun hmem => absurd (hkeys.subset hmem) (by decide)) Bool.false_ne_true
  | true =>
    obtain ⟨first, hchoice, -⟩ := shown_branches draft hk h
    rw [hchoice.mem_keys_iff hkey]
    exact iff_of_true (List.mem_singleton_self _) rfl

/-- Nodes that are written alike have the same keywords. -/
theorem keywords?_eq_of_render_eq (h : n.render draft = n'.render draft) :
    n.value.keywords? = n'.value.keywords? := by
  obtain ⟨k, hk⟩ := n.exists_keywords
  obtain ⟨k', hk'⟩ := n'.exists_keywords
  have hmembers : n.members draft false = n'.members draft false := Json.object.inj h
  -- The members tell whether they are a choice, and then what its first branch is.
  have hsame : (n.isNullable && n.value.branches) = (n'.isNullable && n'.value.branches) := by
    rw [Bool.eq_iff_iff, ← anyOf_mem_keys_members draft, hmembers, anyOf_mem_keys_members]
  rw [hk, hk']
  refine congrArg some (Keywords.ext_value? ?_)
  cases hbranches : n.isNullable && n.value.branches with
  | false =>
    have hshown := shown_members draft hk hbranches
    have hshown' := shown_members draft hk' (hsame ▸ hbranches)
    rw [hmembers] at hshown
    exact hshown.value?_eq hshown'
  | true =>
    obtain ⟨first, hchoice, hfirst⟩ := shown_branches draft hk hbranches
    obtain ⟨first', hchoice', hfirst'⟩ := shown_branches draft hk' (hsame ▸ hbranches)
    rw [hmembers] at hchoice
    obtain rfl : first = first' := by
      simpa [choice] using hchoice.others.symm.trans hchoice'.others
    have hannotated : annotated k = annotated k' := hchoice.value?_eq hchoice'
    have hasserted : asserted k = asserted k' := hfirst.value?_eq hfirst'
    funext w
    cases hw : w.isAnnotation with
    | true => simpa [annotated, hw] using congrFun hannotated w
    | false => simpa [asserted, hw] using congrFun hasserted w

/-- A written node shows each of its keywords that is set once, with its value, and no other
keyword.  They stand around its structure, unless it is written as a choice with null: then the
annotations stand around the choice, and the other keywords with the structure in the first branch.
No keyword takes the place of another member, nor gives up its own. -/
theorem render_shows (draft : Draft) (n : Node) : ∃ k members,
    n.value.keywords? = some k ∧ n.render draft = .object members ∧
    ("anyOf" ∈ keys members ↔ n.isNullable = true ∧ n.value.branches = true) ∧
    ("anyOf" ∉ keys members →
      Shown (n.value.structural draft n.isNullable) k.value? members) ∧
    ("anyOf" ∈ keys members → ∃ first,
      Shown (choice first) (annotated k) members ∧
        Shown ((n.value.mapKeywords Keywords.assertions).structural draft false) (asserted k)
          first) := by
  obtain ⟨k, hk⟩ := n.exists_keywords
  have hanyOf := anyOf_mem_keys_members draft n
  refine ⟨k, n.members draft false, hk, rfl, ?_, fun hmem => ?_, fun hmem => ?_⟩
  · rw [hanyOf, Bool.and_eq_true]
  · exact shown_members draft hk (eq_false_of_ne_true fun h => hmem (hanyOf.mpr h))
  · exact shown_branches draft hk (hanyOf.mp hmem)

/-- A titled text of some length that may be null, and a reference to one. -/
example : (object true []
      [("a", nullable (scalar .string { title := some "A", minLength := some 1 })),
        ("b", nullable (ref ⟨"Label"⟩ { title := some "B", minLength := some 1 }))]
      [] none {}).render .draft07 =
    .object [("type", .string "object"), ("properties", .object [
      ("a", .object [("title", .string "A"), ("type", .ofStrings ["string", "null"]),
        ("minLength", .ofNat 1)]),
      ("b", .object [("title", .string "B"),
        ("anyOf", .array [.object [("allOf", .array [.object [("$ref", .string "Label")]]),
          ("minLength", .ofNat 1)], .object [("type", .string "null")]])])])] := rfl

end Node

end SchemaCompiler
