import SchemaCompiler.Declaration.Reader
import SchemaCompiler.Proofs.TypeExpr.Reading
import SchemaCompiler.Proofs.TypeExpr.Spelling

/-!
# The grammar of type expressions

A derivation of the grammar is a tree with one constructor for each alternative
(`TypeExpr.Derivation`).  The reader finds what the tokens of a derivation stand for, whatever
follows them (`Derivation.isRead`), what it finds has a derivation (`exists_derivation`), and no
tokens have two of them (`Derivation.yield_injective`).  Hence a text is read exactly if it spells
the tokens of a derivation (`TypeExpr.parse_derivation`).
-/

namespace SchemaCompiler.TypeExpr

variable {word : List Char} {tokens rest rest' : List Token} {expr : TypeExpr} {kind : Scalar}

/-! ### Names -/

/-- A word names a declared type: it stands for nothing else, no point ends it, and no two points
stand in a row. -/
structure IsTypeName (word : List Char) : Prop where
  notReserved : String.ofList word ∉ reserved
  notScalar : Scalar.ofKeyword? (String.ofList word) = none
  noLastPoint : word.getLast? ≠ some '.'
  noDoublePoint : ¬['.', '.'] <:+: word

/-- Two points in a row are found wherever they stand. -/
lemma hasDoublePoint_iff : hasDoublePoint word = true ↔ ['.', '.'] <:+: word := by
  fun_induction hasDoublePoint word with
  | case1 rest => exact iff_of_true rfl ⟨[], rest, rfl⟩
  | case2 c rest hnot ih =>
    rw [ih, List.infix_cons_iff]
    refine (or_iff_right ?_).symm
    rintro ⟨more, hmore⟩
    cases hmore
    exact hnot more rfl rfl
  | case3 => exact iff_of_false nofun (by simp)

/-- No point stands in the keyword of a scalar. -/
lemma point_not_mem_of_ofKeyword? {s : String} (h : Scalar.ofKeyword? s = some kind) :
    '.' ∉ s.toList := by
  unfold Scalar.ofKeyword? at h
  split at h
  all_goals first
    | decide
    | cases h

/-- The keyword of a scalar is not reserved. -/
lemma not_mem_reserved_of_ofKeyword? {s : String} (h : Scalar.ofKeyword? s = some kind) :
    s ∉ reserved := by
  intro hmem
  simp only [reserved, List.mem_cons, List.not_mem_nil, or_false] at hmem
  rcases hmem with rfl | rfl | rfl | rfl | rfl <;> cases h

/-- The keyword of a scalar stands for the scalar. -/
lemma ofName_of_ofKeyword? (h : Scalar.ofKeyword? (String.ofList word) = some kind) :
    ofName word = .ok (.scalar kind) := by
  have hpoint := point_not_mem_of_ofKeyword? h
  rw [String.toList_ofList] at hpoint
  have hlast : word.getLast? ≠ some '.' := fun hlast => hpoint (List.mem_of_getLast? hlast)
  have hdouble : ¬hasDoublePoint word = true := by
    rw [hasDoublePoint_iff]
    exact fun hpoints => hpoint (hpoints.subset List.mem_cons_self)
  unfold ofName
  rw [if_neg (not_or.mpr ⟨hlast, hdouble⟩)]
  simp only [h]

/-- The name of a declared type stands for the type. -/
lemma IsTypeName.ofName (h : IsTypeName word) :
    ofName word = .ok (.named (String.ofList word)) := by
  have hdouble : ¬hasDoublePoint word = true := by
    rw [hasDoublePoint_iff]
    exact h.noDoublePoint
  unfold TypeExpr.ofName
  rw [if_neg (not_or.mpr ⟨h.noLastPoint, hdouble⟩)]
  simp only [h.notScalar]

/-- What stands for a type is the keyword of a scalar or the name of a declared type. -/
lemma of_ofName_eq_ok (hword : String.ofList word ∉ reserved) (h : ofName word = .ok expr) :
    (∃ kind, Scalar.ofKeyword? (String.ofList word) = some kind ∧ expr = .scalar kind) ∨
      IsTypeName word ∧ expr = .named (String.ofList word) := by
  unfold ofName at h
  split at h
  · cases h
  · next hwell =>
    rw [not_or, hasDoublePoint_iff] at hwell
    cases hkeyword : Scalar.ofKeyword? (String.ofList word) with
    | some kind =>
      simp only [hkeyword, Except.ok.injEq] at h
      exact Or.inl ⟨kind, rfl, h.symm⟩
    | none =>
      simp only [hkeyword, Except.ok.injEq] at h
      exact Or.inr ⟨⟨hword, hkeyword, hwell.1, hwell.2⟩, h.symm⟩

/-! ### Derivations -/

/-- The symbols that the grammar has rules for. -/
inductive Nonterminal where
  | expr
  | base

/-- A derivation from a symbol: one alternative of its rule, and derivations of the parts. -/
inductive Derivation : Nonterminal → Type
  | plain (base : Derivation .base) : Derivation .expr
  | nullable (base : Derivation .base) : Derivation .expr
  | list (items : Derivation .expr) : Derivation .base
  | set (items : Derivation .expr) : Derivation .base
  | map (key value : Derivation .expr) : Derivation .base
  | any : Derivation .base
  | object : Derivation .base
  | scalar (word : List Char) (kind : Scalar)
      (hword : Scalar.ofKeyword? (String.ofList word) = some kind) : Derivation .base
  | name (word : List Char) (hword : IsTypeName word) : Derivation .base

namespace Derivation

/-- The tokens that are derived. -/
def yield {n : Nonterminal} : Derivation n → List Token
  | plain base => base.yield
  | nullable base => base.yield ++ [.question]
  | list items => .name "list".toList :: .left :: (items.yield ++ [.right])
  | set items => .name "set".toList :: .left :: (items.yield ++ [.right])
  | map key value =>
    .name "map".toList :: .left :: (key.yield ++ .comma :: (value.yield ++ [.right]))
  | any => [.name "any".toList]
  | object => [.name "object".toList]
  | scalar word _ _ | name word _ => [.name word]

/-- The expression that is derived. -/
def tree {n : Nonterminal} : Derivation n → TypeExpr
  | plain base => base.tree
  | nullable base => .nullable base.tree
  | list items => .list items.tree
  | set items => .set items.tree
  | map key value => .map key.tree value.tree
  | any | object => .any
  | scalar _ kind _ => .scalar kind
  | name word _ => .named (String.ofList word)

/-! ### What is derived is read -/

/-- The tokens of a derivation are read as its tree, and what follows them is left: for an
expression, if no question mark follows. -/
def IsRead : {n : Nonterminal} → Derivation n → Prop
  | .expr, d => ∀ rest, Settled rest → readDeep (d.yield ++ rest) = .ok (d.tree, rest)
  | .base, d => ∀ rest, BaseRead readDeep (d.yield ++ rest) d.tree rest

/-- A base that is read can be completed to an expression. -/
lemma readDeep_of_baseRead {base : TypeExpr} (hbase : BaseRead readDeep tokens base rest')
    (hquestion : withQuestion base rest' = .ok (expr, rest)) :
    readDeep tokens = .ok (expr, rest) := by
  rw [isRecursive_readDeep, bind_eq_ok_iff]
  exact ⟨(base, rest'), readBase_eq_ok_iff.mpr hbase, hquestion⟩

/-- Every derivation is read. -/
theorem isRead {n : Nonterminal} (d : Derivation n) : d.IsRead := by
  induction d with
  | plain base ih =>
    intro rest hrest
    exact readDeep_of_baseRead (ih rest) (withQuestion_of_settled hrest)
  | nullable base ih =>
    intro rest hrest
    rw [yield, List.append_assoc]
    exact readDeep_of_baseRead (ih _) (withQuestion_of_question hrest)
  | list items ih =>
    intro rest
    have hitems := ih (.right :: rest) settled_right
    simp only [yield, List.cons_append, List.append_assoc, List.nil_append]
    exact .list hitems
  | set items ih =>
    intro rest
    have hitems := ih (.right :: rest) settled_right
    simp only [yield, List.cons_append, List.append_assoc, List.nil_append]
    exact .set hitems
  | map key value ihKey ihValue =>
    intro rest
    have hvalue := ihValue (.right :: rest) settled_right
    have hkey := ihKey (.comma :: (value.yield ++ .right :: rest)) settled_comma
    simp only [yield, List.cons_append, List.append_assoc, List.nil_append]
    exact .map hkey hvalue
  | any =>
    intro rest
    exact .any
  | object =>
    intro rest
    exact .object
  | scalar word kind hword =>
    intro rest
    exact .word (not_mem_reserved_of_ofKeyword? hword) (ofName_of_ofKeyword? hword)
  | name word hword =>
    intro rest
    exact .word hword.notReserved hword.ofName

end Derivation

/-! ### What is read is derived -/

/-- A base that is read has a derivation, if the expressions inside it have. -/
lemma BaseRead.exists_derivation {read : Reader}
    (hread : ∀ {inner items after}, inner.length < tokens.length →
      read inner = .ok (items, after) →
      ∃ d : Derivation .expr, d.tree = items ∧ inner = d.yield ++ after)
    (hshort : Shortens read) (h : BaseRead read tokens expr rest) :
    ∃ d : Derivation .base, d.tree = expr ∧ tokens = d.yield ++ rest := by
  cases h with
  | list hitems =>
    obtain ⟨d, rfl, hinner⟩ := hread (by simp only [List.length_cons]; omega) hitems
    exact ⟨.list d, rfl, by simp [Derivation.yield, hinner]⟩
  | set hitems =>
    obtain ⟨d, rfl, hinner⟩ := hread (by simp only [List.length_cons]; omega) hitems
    exact ⟨.set d, rfl, by simp [Derivation.yield, hinner]⟩
  | map hkey hvalue =>
    obtain ⟨key, rfl, hinner⟩ := hread (by simp only [List.length_cons]; omega) hkey
    have hlt := hshort hkey
    rw [List.length_cons] at hlt
    obtain ⟨value, rfl, hinner'⟩ := hread (by simp only [List.length_cons]; omega) hvalue
    exact ⟨.map key value, rfl, by simp [Derivation.yield, hinner, hinner']⟩
  | any => exact ⟨.any, rfl, rfl⟩
  | object => exact ⟨.object, rfl, rfl⟩
  | word hword hexpr =>
    obtain ⟨kind, hkeyword, rfl⟩ | ⟨hname, rfl⟩ := of_ofName_eq_ok hword hexpr
    · exact ⟨.scalar _ kind hkeyword, rfl, rfl⟩
    · exact ⟨.name _ hname, rfl, rfl⟩

/-- An expression that is read has a derivation. -/
theorem exists_derivation (h : readDeep tokens = .ok (expr, rest)) :
    ∃ d : Derivation .expr, d.tree = expr ∧ tokens = d.yield ++ rest := by
  induction hlength : tokens.length using Nat.strongRecOn generalizing tokens expr rest with
  | ind n ih =>
    subst hlength
    rw [isRecursive_readDeep, bind_eq_ok_iff] at h
    obtain ⟨⟨base, after⟩, hbase, hquestion⟩ := h
    obtain ⟨d, rfl, rfl⟩ := (readBase_eq_ok_iff.mp hbase).exists_derivation
      (fun hlt hinner => ih _ hlt hinner rfl) shortens_readDeep
    obtain ⟨-, ⟨rfl, rfl⟩ | ⟨rfl, rfl⟩⟩ := withQuestion_eq_ok_iff.mp hquestion
    · exact ⟨.plain d, rfl, rfl⟩
    · exact ⟨.nullable d, rfl, by simp [Derivation.yield]⟩

/-! ### No tokens have two derivations -/

/-- The alternatives for a base. -/
inductive Alternative where
  | list
  | set
  | map
  | any
  | object
  | scalar (kind : Scalar)
  | name

/-- The alternative that the first word of a base decides on. -/
def Alternative.ofWord (word : List Char) : Alternative :=
  match String.ofList word with
  | "list" => list
  | "set" => set
  | "map" => map
  | "any" => any
  | "object" => object
  | s =>
    match Scalar.ofKeyword? s with
    | some kind => scalar kind
    | none => name

/-- A word that is not reserved stands for a scalar or names a type. -/
lemma Alternative.ofWord_eq (hword : String.ofList word ∉ reserved) :
    ofWord word =
      match Scalar.ofKeyword? (String.ofList word) with
      | some kind => scalar kind
      | none => name := by
  simp only [reserved, List.mem_cons, List.not_mem_nil, or_false, not_or] at hword
  obtain ⟨hlist, hset, hmap, hany, hobject⟩ := hword
  unfold ofWord
  split
  · contradiction
  · contradiction
  · contradiction
  · contradiction
  · contradiction
  · rfl

namespace Derivation

/-- The first word of a base. -/
def firstWord : Derivation .base → List Char
  | list _ => "list".toList
  | set _ => "set".toList
  | map _ _ => "map".toList
  | any => "any".toList
  | object => "object".toList
  | scalar word _ _ | name word _ => word

/-- The tokens of a base after its first word. -/
def inner : Derivation .base → List Token
  | list items | set items => .left :: (items.yield ++ [.right])
  | map key value => .left :: (key.yield ++ .comma :: (value.yield ++ [.right]))
  | any | object | scalar _ _ _ | name _ _ => []

/-- The alternative of a base. -/
def alternative : Derivation .base → Alternative
  | list _ => .list
  | set _ => .set
  | map _ _ => .map
  | any => .any
  | object => .object
  | scalar _ kind _ => .scalar kind
  | name _ _ => .name

/-- A base begins with its word. -/
lemma yield_eq (d : Derivation .base) : d.yield = .name d.firstWord :: d.inner := by
  cases d <;> rfl

/-- The first word decides on the alternative. -/
lemma ofWord_firstWord (d : Derivation .base) : .ofWord d.firstWord = d.alternative := by
  cases d with
  | scalar word kind hword =>
    have hscalar : .ofWord word = Alternative.scalar kind := by
      rw [Alternative.ofWord_eq (not_mem_reserved_of_ofKeyword? hword), hword]
    exact hscalar
  | name word hword =>
    have hname : .ofWord word = Alternative.name := by
      rw [Alternative.ofWord_eq hword.notReserved, hword.notScalar]
    exact hname
  | _ => rfl

/-- No other derivation has the tokens of this one, whatever follows them: for an expression, if no
question mark follows. -/
def IsOnly : {n : Nonterminal} → Derivation n → Prop
  | .expr, d => ∀ d' : Derivation .expr, ∀ {rest rest'}, Settled rest → Settled rest' →
      d.yield ++ rest = d'.yield ++ rest' → d = d' ∧ rest = rest'
  | .base, d => ∀ d' : Derivation .base, ∀ {rest rest'},
      d.yield ++ rest = d'.yield ++ rest' → d = d' ∧ rest = rest'

/-- Bases that begin alike follow one alternative, and go on alike. -/
lemma alternative_eq {d d' : Derivation .base} (h : d.yield ++ rest = d'.yield ++ rest') :
    d.firstWord = d'.firstWord ∧ d.alternative = d'.alternative ∧
      d.inner ++ rest = d'.inner ++ rest' := by
  rw [yield_eq, yield_eq, List.cons_append, List.cons_append] at h
  obtain ⟨hname, hinner⟩ := List.cons.inj h
  have hword : d.firstWord = d'.firstWord := Token.name.inj hname
  refine ⟨hword, ?_, hinner⟩
  rw [← ofWord_firstWord, ← ofWord_firstWord, hword]

/-- What stands between angle brackets has one derivation, and the same follows. -/
lemma IsOnly.of_enclosed {items items' : Derivation .expr} (hitems : items.IsOnly)
    (h : .left :: (items.yield ++ [.right]) ++ rest =
      .left :: (items'.yield ++ [.right]) ++ rest') :
    items = items' ∧ rest = rest' := by
  simp only [List.cons_append, List.append_assoc, List.nil_append] at h
  obtain ⟨hsame, hrests⟩ := hitems items' settled_right settled_right (List.cons.inj h).2
  exact ⟨hsame, (List.cons.inj hrests).2⟩

/-- Every derivation is the only one of its tokens. -/
theorem isOnly {n : Nonterminal} (d : Derivation n) : d.IsOnly := by
  induction d with
  | plain base ih =>
    intro d' rest rest' hrest hrest' h
    cases d' with
    | plain base' =>
      obtain ⟨rfl, rfl⟩ := ih base' h
      exact ⟨rfl, rfl⟩
    | nullable base' =>
      rw [yield, yield, List.append_assoc] at h
      obtain ⟨-, rfl⟩ := ih base' h
      exact absurd rfl hrest
  | nullable base ih =>
    intro d' rest rest' hrest hrest' h
    cases d' with
    | plain base' =>
      rw [yield, yield, List.append_assoc] at h
      obtain ⟨-, rfl⟩ := ih base' h
      exact absurd rfl hrest'
    | nullable base' =>
      rw [yield, yield, List.append_assoc, List.append_assoc] at h
      obtain ⟨rfl, hrests⟩ := ih base' h
      exact ⟨rfl, (List.cons.inj hrests).2⟩
  | list items ih =>
    intro d' rest rest' h
    obtain ⟨-, halternative, hinner⟩ := alternative_eq h
    cases d' with
    | list items' =>
      obtain ⟨rfl, hrests⟩ := IsOnly.of_enclosed ih hinner
      exact ⟨rfl, hrests⟩
    | _ => cases halternative
  | set items ih =>
    intro d' rest rest' h
    obtain ⟨-, halternative, hinner⟩ := alternative_eq h
    cases d' with
    | set items' =>
      obtain ⟨rfl, hrests⟩ := IsOnly.of_enclosed ih hinner
      exact ⟨rfl, hrests⟩
    | _ => cases halternative
  | map key value ihKey ihValue =>
    intro d' rest rest' h
    obtain ⟨-, halternative, hinner⟩ := alternative_eq h
    cases d' with
    | map key' value' =>
      simp only [inner, List.cons_append, List.append_assoc, List.nil_append] at hinner
      obtain ⟨rfl, hvalues⟩ := ihKey key' settled_comma settled_comma (List.cons.inj hinner).2
      obtain ⟨rfl, hrests⟩ := ihValue value' settled_right settled_right (List.cons.inj hvalues).2
      exact ⟨rfl, (List.cons.inj hrests).2⟩
    | _ => cases halternative
  | any =>
    intro d' rest rest' h
    obtain ⟨-, halternative, hinner⟩ := alternative_eq h
    cases d' with
    | any => exact ⟨rfl, hinner⟩
    | _ => cases halternative
  | object =>
    intro d' rest rest' h
    obtain ⟨-, halternative, hinner⟩ := alternative_eq h
    cases d' with
    | object => exact ⟨rfl, hinner⟩
    | _ => cases halternative
  | scalar word kind hword =>
    intro d' rest rest' h
    obtain ⟨hwords, halternative, hinner⟩ := alternative_eq h
    cases d' with
    | scalar word' kind' hword' =>
      obtain rfl : word = word' := hwords
      cases halternative
      exact ⟨rfl, hinner⟩
    | _ => cases halternative
  | name word hword =>
    intro d' rest rest' h
    obtain ⟨hwords, halternative, hinner⟩ := alternative_eq h
    cases d' with
    | name word' hword' =>
      obtain rfl : word = word' := hwords
      exact ⟨rfl, hinner⟩
    | _ => cases halternative

/-- No tokens have two derivations. -/
theorem yield_injective {d d' : Derivation .expr} (h : d.yield = d'.yield) : d = d' :=
  (isOnly d d' settled_nil settled_nil (congrArg (· ++ []) h)).1

end Derivation

/-! ### Texts -/

/-- Tokens are an expression exactly if they have a derivation. -/
lemma ofTokens_eq_ok_iff :
    ofTokens tokens = .ok expr ↔ ∃ d : Derivation .expr, d.yield = tokens ∧ d.tree = expr := by
  unfold ofTokens
  rw [bind_eq_ok_iff]
  constructor
  · rintro ⟨⟨found, rest⟩, hread, h⟩
    cases rest with
    | nil =>
      cases h
      obtain ⟨d, htree, hyield⟩ := exists_derivation hread
      exact ⟨d, by rw [hyield, List.append_nil], htree⟩
    | cons token rest => cases h
  · rintro ⟨d, rfl, rfl⟩
    have hread := d.isRead [] settled_nil
    rw [List.append_nil] at hread
    exact ⟨(d.tree, []), hread, rfl⟩

/-- A text is an expression exactly if it spells the tokens of a derivation. -/
lemma parse_eq_ok_iff {text : String} : parse text = .ok expr ↔
    ∃ d : Derivation .expr, Token.Spells text.toList d.yield ∧ d.tree = expr := by
  unfold parse
  cases hscan : Token.scan text.toList with
  | error c =>
    refine iff_of_false nofun ?_
    rintro ⟨d, hspells, -⟩
    cases hspells.scan_eq_ok.symm.trans hscan
  | ok tokens =>
    have hspells := Token.scan_eq_ok_iff.mp hscan
    constructor
    · intro h
      obtain ⟨d, rfl, htree⟩ := ofTokens_eq_ok_iff.mp h
      exact ⟨d, hspells, htree⟩
    · rintro ⟨d, hyield, htree⟩
      exact ofTokens_eq_ok_iff.mpr ⟨d, hyield.unique hspells, htree⟩

/-- A text in a declaration is rejected together with what is wrong in it. -/
lemma typeExpr_scalar (field : String) (tag : Option String) (style : Yaml.Style)
    (text : String) : Declaration.typeExpr field (.scalar tag style text) =
      (parse text).mapError fun fault => ⟨[], .typeExpression text fault⟩ := by
  have htext : Declaration.within (.field field) (Declaration.text (.scalar tag style text)) =
      .ok text := rfl
  unfold Declaration.typeExpr
  rw [htext]
  dsimp only [Bind.bind, Except.bind]
  cases parse text with
  | ok expr => rfl
  | error fault => rfl

/-- A text is read as an expression exactly if the expression has a derivation whose tokens the text
spells.  There is one such derivation at most, as no tokens have two of them.  Expressions are read
by the one reader that calls itself for the expressions inside, to a depth that the number of tokens
bounds; and whatever text is not read is rejected in a declaration as the type expression it is. -/
theorem parse_derivation (text : String) :
    (∀ expr, parse text = .ok expr ↔
      ∃ d : Derivation .expr, Token.Spells text.toList d.yield ∧ d.tree = expr) ∧
    (∀ d d' : Derivation .expr, Token.Spells text.toList d.yield →
      Token.Spells text.toList d'.yield → d = d') ∧
    Function.Injective (Derivation.yield (n := .expr)) ∧
    (∃ read : Reader, IsRecursive read ∧ (∀ other, IsRecursive other → other = read) ∧
      ∀ tokens fuel, tokens.length < fuel → readExpr fuel tokens = read tokens) ∧
    ∀ field tag style, Declaration.typeExpr field (.scalar tag style text) =
      (parse text).mapError fun fault => ⟨[], .typeExpression text fault⟩ := by
  refine ⟨fun expr => parse_eq_ok_iff, ?_, fun d d' h => Derivation.yield_injective h, ?_, ?_⟩
  · intro d d' h h'
    exact Derivation.yield_injective (h.unique h')
  · refine ⟨readDeep, isRecursive_readDeep, fun other h => h.eq_readDeep, ?_⟩
    intro tokens fuel hfuel
    exact readExpr_eq hfuel
  · intro field tag style
    exact typeExpr_scalar field tag style text

/-- Lists of numbers or null under texts, or null. -/
def shelves : Derivation .expr :=
  .nullable (.map (.plain (.scalar "char".toList .string rfl))
    (.plain (.list (.nullable (.scalar "int".toList .int rfl)))))

/-- White space and a second spelling of a scalar do not matter, and a second type does. -/
theorem parse_shelves :
    Token.Spells "map<char,\n  list<int ?>>?".toList shelves.yield ∧
      parse "map<char,\n  list<int ?>>?" =
        .ok (.nullable (.map (.scalar .string) (.list (.nullable (.scalar .int))))) ∧
      (∀ d : Derivation .expr, Token.Spells "map<char,\n  list<int ?>>?".toList d.yield →
        d = shelves) ∧
      Declaration.typeExpr "type" (.scalar none .plain "int int") =
        .error ⟨[], .typeExpression "int int" (.trailing (.name "int".toList))⟩ := by
  have hspells : Token.Spells "map<char,\n  list<int ?>>?".toList shelves.yield :=
    Token.scan_eq_ok_iff.mp rfl
  obtain ⟨hparse, hunique, -⟩ := parse_derivation "map<char,\n  list<int ?>>?"
  refine ⟨hspells, (hparse _).mpr ⟨shelves, hspells, rfl⟩, ?_, ?_⟩
  · intro d hd
    exact hunique d shelves hd hspells
  · rw [(parse_derivation "int int").2.2.2.2 "type" none .plain]
    rfl

end SchemaCompiler.TypeExpr
