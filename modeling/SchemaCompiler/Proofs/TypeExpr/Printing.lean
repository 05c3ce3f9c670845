import SchemaCompiler.Proofs.TypeExpr.Grammar

/-!
# Printing type expressions

The expressions that can be written are told by their shape (`TypeExpr.Proper`): names of declared
types stand for nothing else, and nothing is made nullable twice.  These are the expressions that
texts are read as (`TypeExpr.exists_parse_iff`), and each is read from its own text, so that this
text is the one canonical spelling among all that are read alike (`TypeExpr.parse_text`).
-/

namespace SchemaCompiler.TypeExpr

/-! ### Expressions that can be written -/

/-- An expression can be written: its names are names of declared types and of nothing else, and no
part is made nullable twice. -/
def Proper : TypeExpr → Prop
  | scalar _ | any => True
  | named name => Token.IsName name.toList ∧ IsTypeName name.toList
  | list items | set items => items.Proper
  | map key value => key.Proper ∧ value.Proper
  | nullable inner => inner.Proper ∧ ∀ deeper, inner ≠ nullable deeper

namespace Derivation

/-- A base is not nullable. -/
lemma tree_ne_nullable (base : Derivation .base) (deeper : TypeExpr) :
    base.tree ≠ .nullable deeper := by
  cases base <;> nofun

/-- What is derived can be written, if the names among the tokens can. -/
lemma proper_tree {n : Nonterminal} (d : Derivation n)
    (hnames : ∀ word, .name word ∈ d.yield → Token.IsName word) : d.tree.Proper := by
  induction d with
  | plain base ih => exact ih hnames
  | nullable base ih =>
    refine ⟨ih fun word hword => hnames word (List.mem_append_left _ hword), ?_⟩
    exact tree_ne_nullable base
  | list items ih | set items ih =>
    apply ih
    intro word hword
    apply hnames
    simp [yield, hword]
  | map key value ihKey ihValue =>
    constructor
    · apply ihKey
      intro word hword
      apply hnames
      simp [yield, hword]
    · apply ihValue
      intro word hword
      apply hnames
      simp [yield, hword]
  | any | object | scalar => trivial
  | name word hword =>
    rw [tree, Proper, String.toList_ofList]
    exact ⟨hnames word (List.mem_singleton_self _), hword⟩

end Derivation

/-- The names among the tokens of a text are written as names are. -/
lemma Token.Spells.isName_of_mem {cs word : List Char} {tokens : List Token}
    (h : Token.Spells cs tokens) (hword : .name word ∈ tokens) : Token.IsName word := by
  induction h with
  | nil => cases hword
  | blank _ _ ih => exact ih hword
  | mark hmark _ ih =>
    rcases List.mem_cons.mp hword with heq | hrest
    · exact absurd heq.symm (hmark word)
    · exact ih hrest
  | name hname _ _ ih =>
    rcases List.mem_cons.mp hword with heq | hrest
    · cases heq
      exact hname
    · exact ih hrest

/-! ### Texts of expressions -/

open Token (Spells IsName Apart)

variable {cs cs' word : List Char} {tokens tokens' : List Token} {expr : TypeExpr}

/-- A name spells itself. -/
lemma spells_word (hword : IsName word) : Spells word [.name word] := by
  have hspells := Spells.name hword Token.apart_nil .nil
  rwa [List.append_nil] at hspells

/-- A mark ends a spelling. -/
lemma spells_snoc {c : Char} {mark : Token} (h : Spells cs tokens)
    (hmark : Token.ofMark? c = some mark) : Spells (cs ++ [c]) (tokens ++ [mark]) := by
  have hapart : Apart [c] := Token.apart_cons.mpr (Token.continuesName_of_ofMark? hmark)
  exact h.append (Spells.nil.cons_mark hmark) hapart

/-- What stands between angle brackets after a name. -/
lemma spells_enclosed (hword : IsName word) (h : Spells cs tokens) :
    Spells (word ++ '<' :: (cs ++ ['>'])) (.name word :: .left :: (tokens ++ [.right])) := by
  have hinner : Spells ('<' :: (cs ++ ['>'])) (.left :: (tokens ++ [.right])) :=
    (spells_snoc h rfl).cons_mark rfl
  exact .name hword (Token.apart_cons.mpr rfl) hinner

/-- A key and a value with a comma between them. -/
lemma spells_pair (h : Spells cs tokens) (h' : Spells cs' tokens') :
    Spells (cs ++ ',' :: ' ' :: cs') (tokens ++ .comma :: tokens') := by
  have hblank : Spells (' ' :: cs') tokens' := .blank rfl h'
  exact h.append (hblank.cons_mark rfl) (Token.apart_cons.mpr rfl)

/-- The keyword of a scalar is written as a name is. -/
lemma isName_keyword (kind : Scalar) : IsName kind.keyword.toList := by
  cases kind
  all_goals decide

/-- An expression that can be written has a derivation that its text spells. -/
theorem Proper.exists_derivation (h : expr.Proper) :
    ∃ d : Derivation .expr, d.tree = expr ∧ Spells expr.text.toList d.yield := by
  induction expr with
  | scalar kind =>
    have hkeyword : Scalar.ofKeyword? (String.ofList kind.keyword.toList) = some kind := by
      rw [String.ofList_toList, Scalar.ofKeyword?_keyword]
    exact ⟨.plain (.scalar _ kind hkeyword), rfl, spells_word (isName_keyword kind)⟩
  | any => exact ⟨.plain .any, rfl, spells_word (by decide)⟩
  | named name =>
    refine ⟨.plain (.name name.toList h.2), ?_, spells_word h.1⟩
    rw [Derivation.tree, Derivation.tree, String.ofList_toList]
  | list items ih =>
    obtain ⟨d, rfl, hspells⟩ := ih h
    have htext : (TypeExpr.list d.tree).text.toList =
        "list".toList ++ '<' :: (d.tree.text.toList ++ ['>']) := by
      simp [text]
    refine ⟨.plain (.list d), rfl, ?_⟩
    exact htext ▸ spells_enclosed (by decide) hspells
  | set items ih =>
    obtain ⟨d, rfl, hspells⟩ := ih h
    have htext : (TypeExpr.set d.tree).text.toList =
        "set".toList ++ '<' :: (d.tree.text.toList ++ ['>']) := by
      simp [text]
    refine ⟨.plain (.set d), rfl, ?_⟩
    exact htext ▸ spells_enclosed (by decide) hspells
  | map key value ihKey ihValue =>
    obtain ⟨k, rfl, hkey⟩ := ihKey h.1
    obtain ⟨v, rfl, hvalue⟩ := ihValue h.2
    have htext : (TypeExpr.map k.tree v.tree).text.toList =
        "map".toList ++ '<' ::
          ((k.tree.text.toList ++ ',' :: ' ' :: v.tree.text.toList) ++ ['>']) := by
      simp [text]
    have hyield : (Derivation.plain (.map k v)).yield = .name "map".toList :: .left ::
        ((k.yield ++ .comma :: v.yield) ++ [.right]) := by
      simp only [Derivation.yield, List.append_assoc, List.cons_append]
    refine ⟨.plain (.map k v), rfl, ?_⟩
    rw [htext, hyield]
    exact spells_enclosed (by decide) (spells_pair hkey hvalue)
  | nullable inner ih =>
    obtain ⟨d, rfl, hspells⟩ := ih h.1
    cases d with
    | plain base =>
      have htext : (TypeExpr.nullable base.tree).text.toList =
          base.tree.text.toList ++ ['?'] := by
        simp [text]
      refine ⟨.nullable base, rfl, ?_⟩
      exact htext ▸ spells_snoc hspells rfl
    | nullable base => exact absurd rfl (h.2 base.tree)

/-! ### Texts that are read alike -/

/-- An expression that can be written is read from its text. -/
lemma Proper.parse_text_eq (h : expr.Proper) : parse expr.text = .ok expr := by
  obtain ⟨d, htree, hspells⟩ := h.exists_derivation
  exact parse_eq_ok_iff.mpr ⟨d, hspells, htree⟩

/-- Texts are read as the expressions that can be written. -/
theorem exists_parse_iff : (∃ text, parse text = .ok expr) ↔ expr.Proper := by
  constructor
  · rintro ⟨text, h⟩
    obtain ⟨d, hspells, rfl⟩ := parse_eq_ok_iff.mp h
    exact d.proper_tree fun word hword => hspells.isName_of_mem hword
  · intro h
    exact ⟨expr.text, h.parse_text_eq⟩

/-- Whatever is read from some text is read from its own text.  Reading and printing again changes
nothing there, and the texts of what is read tell the expressions apart: each text has the spelling
that it is read alike with and that is printed as itself. -/
theorem parse_text {text : String} (h : parse text = .ok expr) :
    parse expr.text = .ok expr ∧ (parse expr.text).map TypeExpr.text = .ok expr.text ∧
      ∀ other otherText, parse otherText = .ok other →
        (other.text = expr.text ↔ other = expr) := by
  have hself : parse expr.text = .ok expr := (exists_parse_iff.mp ⟨text, h⟩).parse_text_eq
  refine ⟨hself, by rw [hself]; rfl, ?_⟩
  intro other otherText hother
  have hown : parse other.text = .ok other :=
    (exists_parse_iff.mp ⟨otherText, hother⟩).parse_text_eq
  constructor
  · intro htext
    rw [htext, hself] at hown
    exact (Except.ok.inj hown).symm
  · rintro rfl
    rfl

/-- Second spellings of types and white space are gone once an expression has been printed. -/
theorem parse_text_spaced :
    parse " map <char,\n list< a.b-c? >>?" =
        .ok (.nullable (.map (.scalar .string) (.list (.nullable (.named "a.b-c"))))) ∧
      parse "map<string, list<a.b-c?>>?" =
        .ok (.nullable (.map (.scalar .string) (.list (.nullable (.named "a.b-c"))))) := by
  have h : parse " map <char,\n list< a.b-c? >>?" =
      .ok (.nullable (.map (.scalar .string) (.list (.nullable (.named "a.b-c"))))) := by
    rfl
  exact ⟨h, (parse_text h).1⟩

end SchemaCompiler.TypeExpr
