import SchemaCompiler.Proofs.Outcome
import SchemaCompiler.TypeExpr.Parser

/-!
# Reading expressions of any depth

The reader of expressions calls itself for the expressions inside another one.  What a base is read
from is told by a table (`TypeExpr.BaseRead`): each call starts at fewer tokens, so the calls end,
the bound on their depth is never reached (`TypeExpr.readExpr_eq`), and the recursion has one
solution (`TypeExpr.IsRecursive.eq_readDeep`).
-/

namespace SchemaCompiler.TypeExpr

variable {read read' : Reader} {tokens inner rest : List Token} {expr base : TypeExpr}

/-! ### Bases -/

/-- The words that stand for no scalar and no declared type. -/
def reserved : List String := ["list", "set", "map", "any", "object"]

/-- A base and what follows it, as they are read from some tokens. -/
inductive BaseRead (read : Reader) : List Token → TypeExpr → List Token → Prop
  | list {inner rest : List Token} {items : TypeExpr}
      (hitems : read inner = .ok (items, .right :: rest)) :
      BaseRead read (.name "list".toList :: .left :: inner) (.list items) rest
  | set {inner rest : List Token} {items : TypeExpr}
      (hitems : read inner = .ok (items, .right :: rest)) :
      BaseRead read (.name "set".toList :: .left :: inner) (.set items) rest
  | map {inner inner' rest : List Token} {key value : TypeExpr}
      (hkey : read inner = .ok (key, .comma :: inner'))
      (hvalue : read inner' = .ok (value, .right :: rest)) :
      BaseRead read (.name "map".toList :: .left :: inner) (.map key value) rest
  | any {rest : List Token} : BaseRead read (.name "any".toList :: rest) .any rest
  | object {rest : List Token} : BaseRead read (.name "object".toList :: rest) .any rest
  | word {word : List Char} {rest : List Token} {expr : TypeExpr}
      (hword : String.ofList word ∉ reserved) (hexpr : ofName word = .ok expr) :
      BaseRead read (.name word :: rest) expr rest

/-- A wanted token is there exactly if it comes next. -/
lemma expect_eq_ok_iff {wanted : Token} :
    expect wanted tokens = .ok rest ↔ tokens = wanted :: rest := by
  cases tokens with
  | nil => exact iff_of_false nofun nofun
  | cons token tokens =>
    by_cases h : token = wanted
    · simp [expect, h]
    · simp [expect, h]

/-- A word is reserved in one of five ways, or not at all. -/
lemma word_cases (word : List Char) :
    word = "list".toList ∨ word = "set".toList ∨ word = "map".toList ∨ word = "any".toList ∨
      word = "object".toList ∨ String.ofList word ∉ reserved := by
  by_cases hword : String.ofList word ∈ reserved
  · have hchars : word = (String.ofList word).toList := String.toList_ofList.symm
    simp only [reserved, List.mem_cons, List.not_mem_nil, or_false] at hword
    rcases hword with h | h | h | h | h
    all_goals
      rw [h] at hchars
      simp only [hchars, true_or, or_true]
  · simp only [hword, not_false_eq_true, or_true]

section Equations

variable {tail : List Token}

/-- The items of a list stand between angle brackets. -/
lemma readBase_list : readBase read (.name "list".toList :: tail) =
    (do
      let items ← read (← expect .left tail)
      return (.list items.1, ← expect .right items.2)) := rfl

/-- The items of a set stand between angle brackets. -/
lemma readBase_set : readBase read (.name "set".toList :: tail) =
    (do
      let items ← read (← expect .left tail)
      return (.set items.1, ← expect .right items.2)) := rfl

/-- The keys and the values of a map stand between angle brackets, with a comma between them. -/
lemma readBase_map : readBase read (.name "map".toList :: tail) =
    (do
      let key ← read (← expect .left tail)
      let value ← read (← expect .comma key.2)
      return (.map key.1 value.1, ← expect .right value.2)) := rfl

/-- A word that is not reserved is read as the name of a type. -/
lemma readBase_word {word : List Char} (hword : String.ofList word ∉ reserved) :
    readBase read (.name word :: tail) = (ofName word).map (·, tail) := by
  simp only [reserved, List.mem_cons, List.not_mem_nil, or_false, not_or] at hword
  obtain ⟨hlist, hset, hmap, hany, hobject⟩ := hword
  rw [readBase]
  split
  · contradiction
  · contradiction
  · contradiction
  · contradiction
  · contradiction
  · rfl

end Equations

/-- Bases are read as the table says. -/
lemma readBase_eq_ok_iff :
    readBase read tokens = .ok (expr, rest) ↔ BaseRead read tokens expr rest := by
  constructor
  · intro h
    cases tokens with
    | nil => cases h
    | cons token tail =>
      cases token with
      | name word =>
        obtain rfl | rfl | rfl | rfl | rfl | hword := word_cases word
        · simp only [readBase_list, bind_eq_ok_iff, pure_eq_ok_iff, expect_eq_ok_iff] at h
          obtain ⟨inner, rfl, ⟨items, after⟩, hitems, rest', rfl, hpair⟩ := h
          cases hpair
          exact .list hitems
        · simp only [readBase_set, bind_eq_ok_iff, pure_eq_ok_iff, expect_eq_ok_iff] at h
          obtain ⟨inner, rfl, ⟨items, after⟩, hitems, rest', rfl, hpair⟩ := h
          cases hpair
          exact .set hitems
        · simp only [readBase_map, bind_eq_ok_iff, pure_eq_ok_iff, expect_eq_ok_iff] at h
          obtain ⟨inner, rfl, ⟨key, after⟩, hkey, inner', rfl, ⟨value, after'⟩, hvalue, rest', rfl,
            hpair⟩ := h
          cases hpair
          exact .map hkey hvalue
        · cases h
          exact .any
        · cases h
          exact .object
        · rw [readBase_word hword] at h
          obtain ⟨found, hfound, hpair⟩ := map_eq_ok_iff.mp h
          cases hpair
          exact .word hword hfound
      | _ => cases h
  · intro h
    cases h with
    | list hitems =>
      simp only [readBase_list, bind_eq_ok_iff, pure_eq_ok_iff, expect_eq_ok_iff]
      exact ⟨_, rfl, _, hitems, _, rfl, rfl⟩
    | set hitems =>
      simp only [readBase_set, bind_eq_ok_iff, pure_eq_ok_iff, expect_eq_ok_iff]
      exact ⟨_, rfl, _, hitems, _, rfl, rfl⟩
    | map hkey hvalue =>
      simp only [readBase_map, bind_eq_ok_iff, pure_eq_ok_iff, expect_eq_ok_iff]
      exact ⟨_, rfl, _, hkey, _, rfl, _, hvalue, _, rfl, rfl⟩
    | any => rfl
    | object => rfl
    | word hword hexpr =>
      rw [readBase_word hword, hexpr]
      rfl

/-! ### Question marks -/

/-- Tokens that do not begin with a question mark. -/
def Settled (tokens : List Token) : Prop := tokens.head? ≠ some .question

/-- No tokens are settled. -/
lemma settled_nil : Settled [] := nofun

/-- Tokens are settled after any other token than a question mark. -/
lemma settled_cons {token : Token} (h : token ≠ .question) : Settled (token :: rest) :=
  fun hhead => h (Option.some.inj hhead)

/-- Tokens are settled at the end of what stands between brackets. -/
lemma settled_right : Settled (.right :: rest) := settled_cons nofun

/-- Tokens are settled between a key and a value. -/
lemma settled_comma : Settled (.comma :: rest) := settled_cons nofun

/-- Tokens are settled, or a question mark comes first. -/
lemma settled_or (tokens : List Token) : Settled tokens ∨ ∃ rest, tokens = .question :: rest := by
  cases tokens with
  | nil => exact Or.inl settled_nil
  | cons token rest =>
    by_cases h : token = .question
    · exact Or.inr ⟨rest, by rw [h]⟩
    · exact Or.inl (settled_cons h)

/-- A base without a question mark is left as it is. -/
lemma withQuestion_of_settled (h : Settled tokens) :
    withQuestion base tokens = .ok (base, tokens) := by
  unfold withQuestion
  split
  · exact absurd rfl h
  · exact absurd rfl h
  · rfl

/-- A question mark makes a base nullable. -/
lemma withQuestion_of_question (h : Settled rest) :
    withQuestion base (.question :: rest) = .ok (nullable base, rest) := by
  cases rest with
  | nil => rfl
  | cons token rest =>
    cases token with
    | question => exact absurd rfl h
    | _ => rfl

/-- One question mark at most is read after a base, and none follows. -/
lemma withQuestion_eq_ok_iff : withQuestion base tokens = .ok (expr, rest) ↔
    Settled rest ∧
      (expr = base ∧ tokens = rest ∨ expr = nullable base ∧ tokens = .question :: rest) := by
  constructor
  · intro h
    obtain hsettled | ⟨after, rfl⟩ := settled_or tokens
    · rw [withQuestion_of_settled hsettled] at h
      cases h
      exact ⟨hsettled, Or.inl ⟨rfl, rfl⟩⟩
    · obtain hsettled | ⟨more, rfl⟩ := settled_or after
      · rw [withQuestion_of_question hsettled] at h
        cases h
        exact ⟨hsettled, Or.inr ⟨rfl, rfl⟩⟩
      · cases h
  · rintro ⟨hsettled, ⟨rfl, rfl⟩ | ⟨rfl, rfl⟩⟩
    · exact withQuestion_of_settled hsettled
    · exact withQuestion_of_question hsettled

/-! ### Depth -/

/-- What is read leaves fewer tokens. -/
def Shortens (read : Reader) : Prop :=
  ∀ {tokens expr rest}, read tokens = .ok (expr, rest) → rest.length < tokens.length

/-- A base leaves fewer tokens, if the expressions inside it do. -/
lemma BaseRead.length_lt (hread : Shortens read) (h : BaseRead read tokens expr rest) :
    rest.length < tokens.length := by
  cases h with
  | list hitems | set hitems =>
    have hinner := hread hitems
    simp only [List.length_cons] at hinner ⊢
    omega
  | map hkey hvalue =>
    have hinner := hread hkey
    have hinner' := hread hvalue
    simp only [List.length_cons] at hinner hinner' ⊢
    omega
  | any | object | word => exact Nat.lt_succ_self _

/-- An expression leaves fewer tokens. -/
lemma shortens_readExpr (fuel : Nat) : Shortens (readExpr fuel) := by
  induction fuel with
  | zero => nofun
  | succ fuel ih =>
    intro tokens expr rest h
    obtain ⟨⟨base, after⟩, hbase, hquestion⟩ := bind_eq_ok_iff.mp h
    have hlt := (readBase_eq_ok_iff.mp hbase).length_lt ih
    obtain ⟨-, ⟨-, rfl⟩ | ⟨-, rfl⟩⟩ := withQuestion_eq_ok_iff.mp hquestion
    · exact hlt
    · exact Nat.lt_of_succ_lt hlt

/-- Sequences agree if they start alike and go on alike. -/
lemma bind_congr_of_ok {ε α β : Type} {first first' : Except ε α} {next next' : α → Except ε β}
    (hfirst : first = first') (hnext : ∀ a, first = .ok a → next a = next' a) :
    first >>= next = first' >>= next' := by
  subst hfirst
  cases first with
  | error fault => rfl
  | ok a => exact hnext a rfl

/-- A wanted token is taken away. -/
lemma length_lt_of_expect {wanted : Token} (h : expect wanted tokens = .ok rest) :
    rest.length < tokens.length := by
  cases expect_eq_ok_iff.mp h
  exact Nat.lt_succ_self _

/-- A base is read alike by readers that read alike whatever is shorter. -/
lemma readBase_congr (hread : Shortens read)
    (hagree : ∀ inner : List Token, inner.length < tokens.length → read inner = read' inner) :
    readBase read tokens = readBase read' tokens := by
  cases tokens with
  | nil => rfl
  | cons token tail =>
    have htail : ∀ {wanted inner}, expect wanted tail = .ok inner → read inner = read' inner := by
      intro wanted inner hinner
      exact hagree inner (Nat.lt_succ_of_lt (length_lt_of_expect hinner))
    cases token with
    | name word =>
      obtain rfl | rfl | rfl | rfl | rfl | hword := word_cases word
      · rw [readBase_list, readBase_list]
        refine bind_congr_of_ok rfl fun inner hinner => ?_
        exact bind_congr_of_ok (htail hinner) fun _ _ => rfl
      · rw [readBase_set, readBase_set]
        refine bind_congr_of_ok rfl fun inner hinner => ?_
        exact bind_congr_of_ok (htail hinner) fun _ _ => rfl
      · rw [readBase_map, readBase_map]
        refine bind_congr_of_ok rfl fun inner hinner => ?_
        refine bind_congr_of_ok (htail hinner) fun key hkey => ?_
        refine bind_congr_of_ok rfl fun inner' hinner' => ?_
        refine bind_congr_of_ok (hagree inner' ?_) fun _ _ => rfl
        calc inner'.length
          _ < key.2.length := length_lt_of_expect hinner'
          _ < inner.length := hread hkey
          _ < tail.length := length_lt_of_expect hinner
          _ < (Token.name "map".toList :: tail).length := Nat.lt_succ_self _
      · rfl
      · rfl
      · rw [readBase_word hword, readBase_word hword]
    | _ => rfl

/-- A reader of expressions that calls itself for the expressions inside, however deep. -/
def IsRecursive (read : Reader) : Prop :=
  ∀ tokens, read tokens = do
    let base ← readBase read tokens
    withQuestion base.1 base.2

/-- The expression at the start of some tokens, whatever its depth. -/
def readDeep : Reader := fun tokens => readExpr (tokens.length + 1) tokens

/-- A bound beyond the number of tokens makes no difference. -/
lemma readExpr_congr {fuel fuel' : Nat} (hfuel : tokens.length < fuel)
    (hfuel' : tokens.length < fuel') : readExpr fuel tokens = readExpr fuel' tokens := by
  induction fuel generalizing fuel' tokens with
  | zero => exact absurd hfuel (Nat.not_lt_zero _)
  | succ fuel ih =>
    cases fuel' with
    | zero => exact absurd hfuel' (Nat.not_lt_zero _)
    | succ fuel' =>
      have hbase : readBase (readExpr fuel) tokens = readBase (readExpr fuel') tokens := by
        apply readBase_congr (shortens_readExpr fuel)
        intro inner hinner
        apply ih
        · omega
        · omega
      exact congrArg (· >>= fun base => withQuestion base.1 base.2) hbase

/-- The bound on the depth is never reached. -/
theorem readExpr_eq {fuel : Nat} (hfuel : tokens.length < fuel) :
    readExpr fuel tokens = readDeep tokens := readExpr_congr hfuel (Nat.lt_succ_self _)

/-- An expression leaves fewer tokens. -/
lemma shortens_readDeep : Shortens readDeep := by
  intro tokens expr rest h
  exact shortens_readExpr _ h

/-- Without a bound, expressions are read by recursion. -/
lemma isRecursive_readDeep : IsRecursive readDeep := by
  intro tokens
  have hbase : readBase (readExpr tokens.length) tokens = readBase readDeep tokens := by
    apply readBase_congr (shortens_readExpr _)
    intro inner hinner
    exact readExpr_eq hinner
  exact congrArg (· >>= fun base => withQuestion base.1 base.2) hbase

/-- The recursion has one solution, so that it ends on all tokens. -/
theorem IsRecursive.eq_readDeep (h : IsRecursive read) : read = readDeep := by
  funext tokens
  induction hlength : tokens.length using Nat.strongRecOn generalizing tokens with
  | ind n ih =>
    subst hlength
    have hbase : readBase read tokens = readBase readDeep tokens := by
      refine (readBase_congr shortens_readDeep fun inner hinner => ?_).symm
      exact (ih inner.length hinner inner rfl).symm
    rw [h tokens, isRecursive_readDeep tokens, hbase]

end SchemaCompiler.TypeExpr
