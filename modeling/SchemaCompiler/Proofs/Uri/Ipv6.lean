import Mathlib.Data.Nat.Digits.Defs
import SchemaCompiler.Proofs.Uri.Host

/-!
# IPv6 addresses that are read twice

The canonical text of an address is read as the address (`Uri.Ipv6.parse_canonical`).  Pieces are
written without leading zeros and joined by single colons, so a text has two colons side by side
only where they stand for a run of zeros.  An address between brackets is then a host that is read
as it is (`Uri.Host.bracketed_bracketed`), and so is every host without meaning of its own
(`Uri.Host.verbatim_verbatim`).
-/

namespace SchemaCompiler

namespace Text

/-- A number is read from its digits. -/
lemma numeral_toDigits {base : Nat} (hbase : 1 < base) (hmax : base ≤ 16) (n : Nat) :
    numeral? base (Nat.toDigits base n) = some n := by
  have hdigit : ∀ base ≤ 16, ∀ d < base, digitValue? base (Nat.digitChar d) = some d := by
    decide
  have hfold : (Nat.toDigits base n).foldlM
      (fun n c => (digitValue? base c).map (n * base + ·)) 0 = some n := by
    induction n using Nat.strongRecOn with
    | ind n ih =>
      rw [Nat.toDigits_eq_if hbase]
      split
      · next hlt =>
        rw [List.foldlM_cons, hdigit base hmax n hlt, Option.map_some, Nat.zero_mul, Nat.zero_add]
        rfl
      · next hge =>
        have hlast : n % base < base := Nat.mod_lt n (by omega)
        rw [List.foldlM_append, ih (n / base) (Nat.div_lt_self (by omega) hbase),
          Option.bind_eq_bind, Option.bind_some, List.foldlM_cons, hdigit base hmax _ hlast,
          Option.map_some, Nat.div_add_mod']
        rfl
  rw [numeral?, if_neg (by simp), hfold]

/-- A number has a bound by the number of its digits. -/
lemma numeral_lt {base n : Nat} {cs : List Char} (h : numeral? base cs = some n) :
    n < base ^ cs.length := by
  have hdigit : ∀ {c d}, digitValue? base c = some d → d < base := by
    intro c d hd
    obtain ⟨hlt, hvalue⟩ := Option.ite_none_right_eq_some.mp hd
    exact Option.some.inj hvalue ▸ hlt
  have hfold : ∀ (cs : List Char) (m n : Nat),
      cs.foldlM (fun n c => (digitValue? base c).map (n * base + ·)) m = some n →
        n + 1 ≤ (m + 1) * base ^ cs.length := by
    intro cs
    induction cs with
    | nil =>
      intro m n hn
      obtain rfl : m = n := by simpa using hn
      simp
    | cons c cs ih =>
      intro m n hn
      rw [List.foldlM_cons] at hn
      obtain ⟨next, hnext, hn⟩ := Option.bind_eq_some_iff.mp hn
      obtain ⟨d, hd, rfl⟩ := Option.map_eq_some_iff.mp hnext
      have hlt := hdigit hd
      calc n + 1 ≤ (m * base + d + 1) * base ^ cs.length := ih _ _ hn
        _ ≤ ((m + 1) * base) * base ^ cs.length := by
          refine Nat.mul_le_mul_right _ ?_
          rw [Nat.add_mul, Nat.one_mul]
          omega
        _ = (m + 1) * base ^ (c :: cs).length := by
          rw [List.length_cons, Nat.pow_succ', Nat.mul_assoc]
  unfold numeral? at h
  split at h
  · cases h
  · have hle := hfold cs 0 n h
    omega

/-- Texts that are joined by a mark that is in none of them are the pieces between the marks. -/
lemma splitOn_intercalate {p : Char → Bool} {mark : Char} (hmark : p mark = true)
    {texts : List (List Char)} (hne : texts ≠ []) (h : ∀ text ∈ texts, ∀ c ∈ text, p c = false) :
    splitOn p ([mark].intercalate texts) = texts := by
  induction texts with
  | nil => exact absurd rfl hne
  | cons first texts ih =>
    obtain ⟨hfirst, htexts⟩ := List.forall_mem_cons.mp h
    cases texts with
    | nil => rw [List.intercalate_singleton, splitOn_eq_singleton hfirst]
    | cons second texts =>
      rw [List.intercalate_cons_cons, List.append_assoc, List.singleton_append,
        splitOn_append hmark, splitOn_eq_singleton hfirst, ih (List.cons_ne_nil _ _) htexts]
      rfl

/-- No two marks stand side by side at a character that is not the first of them. -/
lemma splitAtPair_append {a b : Char} {cs : List Char} (h : ∀ c ∈ cs, c ≠ a) (ds : List Char) :
    splitAtPair a b (cs ++ ds) =
      (splitAtPair a b ds).map fun parts => (cs ++ parts.1, parts.2) := by
  induction cs with
  | nil => exact Option.map_id'.symm
  | cons c cs ih =>
    obtain ⟨hc, hcs⟩ := List.forall_mem_cons.mp h
    rw [List.cons_append]
    cases hmore : cs ++ ds with
    | nil =>
      obtain ⟨rfl, rfl⟩ := List.append_eq_nil_iff.mp hmore
      rfl
    | cons d more =>
      rw [splitAtPair, if_neg (fun hpair => hc hpair.1), ← hmore, ih hcs, Option.map_map]
      rfl

end Text

namespace Uri.Ipv6

variable {cs : List Char} {pieces : List Nat}

/-! ### Pieces -/

/-- Eight pieces of 16 bits. -/
structure IsAddress (pieces : List Nat) : Prop where
  length : pieces.length = 8
  small : ∀ n ∈ pieces, n < 0x10000

/-- A piece has 16 bits. -/
lemma readPiece_lt {n : Nat} (h : readPiece? cs = some n) : n < 0x10000 := by
  unfold readPiece? at h
  split at h
  · cases h
  · next hlength =>
    have hlt := Text.numeral_lt h
    have hle : 16 ^ cs.length ≤ 16 ^ 4 := Nat.pow_le_pow_right (by decide) (by omega)
    omega

/-- Two pieces that are written as bytes have 16 bits. -/
lemma readBytes_lt (h : readBytes? cs = some pieces) : ∀ n ∈ pieces, n < 0x10000 := by
  have hbyte : ∀ {cs n}, readByte? cs = some n → n ≤ 255 := by
    intro cs n hn
    unfold readByte? at hn
    split at hn
    · cases hn
    · obtain ⟨m, -, hm⟩ := Option.bind_eq_some_iff.mp hn
      split at hm
      · next hle => exact Option.some.inj hm ▸ hle
      · cases hm
  unfold readBytes? at h
  split at h
  · next a b c d hbytes =>
    obtain rfl := Option.some.inj h
    have hall : ∀ n ∈ [a, b, c, d], n ≤ 255 := by
      intro n hn
      obtain ⟨piece, -, hpiece⟩ := mem_of_mapM_eq_some hbytes hn
      exact hbyte hpiece
    simp only [List.forall_mem_cons] at hall ⊢
    obtain ⟨ha, hb, hc, hd, -⟩ := hall
    exact ⟨by omega, by omega, List.forall_mem_nil _⟩
  · cases h

/-- Pieces that are read have 16 bits. -/
lemma readPieces_lt {bytes : Bool} {texts : List (List Char)}
    (h : readPieces? bytes texts = some pieces) : ∀ n ∈ pieces, n < 0x10000 := by
  fun_induction readPieces? bytes texts generalizing pieces with
  | case1 => exact Option.some.inj h ▸ List.forall_mem_nil _
  | case2 => exact readBytes_lt h
  | case3 =>
    obtain ⟨n, hn, rfl⟩ := Option.map_eq_some_iff.mp h
    exact List.forall_mem_singleton.mpr (readPiece_lt hn)
  | case4 piece rest _ ih =>
    obtain ⟨n, hn, h⟩ := Option.bind_eq_some_iff.mp h
    obtain ⟨more, hmore, h⟩ := Option.bind_eq_some_iff.mp h
    obtain rfl := Option.some.inj h
    exact List.forall_mem_cons.mpr ⟨readPiece_lt hn, ih hmore⟩

/-- The pieces of a side have 16 bits. -/
lemma readSide_lt {bytes : Bool} (h : readSide? bytes cs = some pieces) :
    ∀ n ∈ pieces, n < 0x10000 := by
  unfold readSide? at h
  split at h
  · exact Option.some.inj h ▸ List.forall_mem_nil _
  · exact readPieces_lt h

/-- An address is read as eight pieces of 16 bits. -/
lemma isAddress_parse (h : parse? cs = some pieces) : IsAddress pieces := by
  unfold parse? at h
  split at h
  · obtain ⟨left, hleft, h⟩ := Option.bind_eq_some_iff.mp h
    obtain ⟨right, hright, h⟩ := Option.bind_eq_some_iff.mp h
    dsimp only at h
    split at h
    · next hroom =>
      obtain rfl := Option.some.inj h
      refine ⟨?_, ?_⟩
      · simp only [List.length_append, List.length_replicate]
        omega
      · refine List.forall_mem_append.mpr ⟨List.forall_mem_append.mpr ⟨readSide_lt hleft, ?_⟩,
          readSide_lt hright⟩
        exact fun n hn => by simp [List.eq_of_mem_replicate hn]
    · cases h
  · obtain ⟨all, hall, h⟩ := Option.bind_eq_some_iff.mp h
    split at h
    · next hlength => exact Option.some.inj h ▸ ⟨hlength, readSide_lt hall⟩
    · cases h

/-! ### Written pieces -/

/-- A piece is written in digits, neither colons nor points. -/
lemma of_mem_toDigits {n : Nat} {c : Char} (h : c ∈ Nat.toDigits 16 n) : c ≠ ':' ∧ c ≠ '.' := by
  have hdigits : ∀ d < 16, Nat.digitChar d ≠ ':' ∧ Nat.digitChar d ≠ '.' := by decide
  obtain ⟨d, hd, rfl⟩ := exists_digit_of_mem_toDigits (by decide) h
  exact hdigits d hd

/-- A written piece is read as it is. -/
lemma readPiece_toDigits {n : Nat} (h : n < 0x10000) : readPiece? (Nat.toDigits 16 n) = some n := by
  have hlength : (Nat.toDigits 16 n).length ≤ 4 := Nat.toDigits_length 16 n 4 (by decide) h
  rw [readPiece?, if_neg (by omega), Text.numeral_toDigits (by decide) (by decide)]

/-- Written pieces are read as they are. -/
lemma readPieces_toDigits (h : ∀ n ∈ pieces, n < 0x10000) (bytes : Bool) :
    readPieces? bytes (pieces.map (Nat.toDigits 16)) = some pieces := by
  induction pieces with
  | nil => rfl
  | cons first pieces ih =>
    obtain ⟨hfirst, hpieces⟩ := List.forall_mem_cons.mp h
    cases pieces with
    | nil =>
      have hpoint : (Nat.toDigits 16 first).contains '.' = false := by
        refine Bool.eq_false_iff.mpr fun hmem => ?_
        exact (of_mem_toDigits (List.contains_iff_mem.mp hmem)).2 rfl
      rw [List.map_singleton, readPieces?, hpoint, Bool.and_false, if_neg Bool.false_ne_true,
        readPiece_toDigits hfirst]
      rfl
    | cons second pieces =>
      rw [List.map_cons, List.map_cons, readPieces?, ← List.map_cons, ih hpieces,
        readPiece_toDigits hfirst]
      · rfl
      · exact nofun

/-- A joined side is read as it is. -/
lemma readSide_joined (h : ∀ n ∈ pieces, n < 0x10000) (bytes : Bool) :
    readSide? bytes (joined pieces) = some pieces := by
  cases pieces with
  | nil => rfl
  | cons first rest =>
    have hsplit : Text.splitOn (· == ':') (joined (first :: rest)) =
        (first :: rest).map (Nat.toDigits 16) := by
      refine Text.splitOn_intercalate rfl (by simp) fun text htext c hc => ?_
      obtain ⟨n, -, rfl⟩ := List.mem_map.mp htext
      exact beq_eq_false_iff_ne.mpr (of_mem_toDigits hc).1
    have hne : (joined (first :: rest)).isEmpty = false := by
      refine Bool.eq_false_iff.mpr fun hempty => ?_
      rw [List.isEmpty_iff.mp hempty] at hsplit
      have hfirst := (List.cons.inj hsplit).1
      exact Nat.toDigits_ne_nil hfirst.symm
    rw [readSide?, hne, if_neg Bool.false_ne_true, hsplit, readPieces_toDigits h]

/-- Two colons do not stand side by side in joined pieces. -/
lemma splitAtPair_joined (pieces : List Nat) (ds : List Char) :
    Text.splitAtPair ':' ':' (joined pieces ++ ds) =
      (Text.splitAtPair ':' ':' ds).map fun parts => (joined pieces ++ parts.1, parts.2) := by
  induction pieces with
  | nil => exact Option.map_id'.symm
  | cons first pieces ih =>
    have hfirst : ∀ c ∈ Nat.toDigits 16 first, c ≠ ':' := fun c hc => (of_mem_toDigits hc).1
    cases pieces with
    | nil => rw [joined, List.map_singleton, List.intercalate_singleton,
        Text.splitAtPair_append hfirst]
    | cons second pieces =>
      have hcons : joined (first :: second :: pieces) ++ ds =
          Nat.toDigits 16 first ++ ':' :: (joined (second :: pieces) ++ ds) := by
        simp only [joined, List.map_cons, List.intercalate_cons_cons, List.append_assoc,
          List.cons_append, List.nil_append]
      -- A piece is not empty, so the colon before it stands alone.
      obtain ⟨d, more, hmore, hd⟩ : ∃ d more, joined (second :: pieces) ++ ds = d :: more ∧
          d ≠ ':' := by
        obtain ⟨d, digits, hdigits⟩ :=
          List.exists_cons_of_ne_nil (Nat.toDigits_ne_nil (n := second) (b := 16))
        have hd : d ≠ ':' := (of_mem_toDigits (hdigits ▸ List.mem_cons_self)).1
        cases pieces with
        | nil => exact ⟨d, digits ++ ds, by simp [joined, hdigits], hd⟩
        | cons third pieces => exact ⟨d, _, by simp [joined, hdigits]; rfl, hd⟩
      have halone : Text.splitAtPair ':' ':' (':' :: d :: more) =
          (Text.splitAtPair ':' ':' (d :: more)).map fun parts => (':' :: parts.1, parts.2) := by
        rw [Text.splitAtPair, if_neg fun hpair => hd hpair.2]
      rw [hcons, Text.splitAtPair_append hfirst, hmore, halone, ← hmore, ih, Option.map_map,
        Option.map_map]
      refine congrArg (fun f => (Text.splitAtPair ':' ':' ds).map f) (funext fun parts => ?_)
      simp [joined]

/-! ### Runs of zeros -/

/-- A longest run of zeros is a run of zeros. -/
lemma drop_longestRun (pieces : List Nat) : (longestRun pieces).2 = 0 ∨
    pieces.drop (longestRun pieces).1 = List.replicate (longestRun pieces).2 0 ++
      (pieces.drop (longestRun pieces).1).drop (longestRun pieces).2 := by
  have hfold : ∀ (places : List Nat) (best : Nat × Nat),
      (best.2 = 0 ∨ best.2 = zeroRun (pieces.drop best.1)) →
        let last := places.foldl (fun best k =>
          let run := zeroRun (pieces.drop k)
          if best.2 < run then (k, run) else best) best
        last.2 = 0 ∨ last.2 = zeroRun (pieces.drop last.1) := by
    intro places
    induction places with
    | nil => exact fun _ h => h
    | cons k places ih =>
      intro best hbest
      refine ih _ ?_
      dsimp only
      split
      · exact Or.inr rfl
      · exact hbest
  refine (hfold _ (0, 0) (Or.inl rfl)).imp id fun hrun => ?_
  change (longestRun pieces).2 = zeroRun (pieces.drop (longestRun pieces).1) at hrun
  generalize pieces.drop (longestRun pieces).1 = after at hrun ⊢
  have hfront := List.prefix_iff_eq_take.mp (List.takeWhile_prefix (· == 0) (l := after))
  have hzeros : after.takeWhile (· == 0) = List.replicate (longestRun pieces).2 0 := by
    rw [hrun, zeroRun, List.eq_replicate_iff]
    exact ⟨rfl, fun n hn => by simpa using List.mem_takeWhile_imp hn⟩
  rw [← zeroRun, ← hrun, hzeros] at hfront
  rw [hfront, List.take_append_drop]

/-- The text of an address is read as the address. -/
theorem parse_canonical (h : IsAddress pieces) : parse? (text pieces) = some pieces := by
  have hread : ∀ part ⊆ pieces, ∀ bytes, readSide? bytes (joined part) = some part :=
    fun _ hpart bytes => readSide_joined (fun n hn => h.small n (hpart hn)) bytes
  unfold text
  generalize hrun : longestRun pieces = place
  have hzeros := drop_longestRun pieces
  rw [hrun] at hzeros
  obtain ⟨start, run⟩ := place
  dsimp only at hzeros ⊢
  split
  · have hnone : Text.splitAtPair ':' ':' (joined pieces) = none := by
      have hjoined := splitAtPair_joined pieces []
      rwa [List.append_nil] at hjoined
    rw [parse?, hnone]
    dsimp only
    rw [hread pieces (List.Subset.refl _), Option.bind_eq_bind, Option.bind_some, if_pos h.length]
  · next hlong =>
    have hwhole : pieces.take start ++ (List.replicate run 0 ++ pieces.drop (start + run)) =
        pieces := by
      rw [← List.drop_drop, ← hzeros.resolve_left (by omega), List.take_append_drop]
    have hlength := congrArg List.length hwhole
    rw [List.length_append, List.length_append, List.length_replicate, h.length] at hlength
    have hparts : Text.splitAtPair ':' ':' (joined (pieces.take start) ++ [':', ':'] ++
        joined (pieces.drop (start + run))) =
          some (joined (pieces.take start), joined (pieces.drop (start + run))) := by
      rw [List.append_assoc, splitAtPair_joined]
      simp [Text.splitAtPair]
    have hroom : 8 - ((pieces.take start).length + (pieces.drop (start + run)).length) = run := by
      omega
    rw [parse?, hparts]
    dsimp only
    rw [hread _ (List.take_subset _ _), hread _ (List.drop_subset _ _), Option.bind_eq_bind,
      Option.bind_some, Option.bind_some, if_pos (by omega), hroom,
      List.append_assoc, hwhole]

end Uri.Ipv6

namespace Uri.Host

variable {cs host : List Char}

/-- What is read between brackets is read so again. -/
theorem bracketed_bracketed (h : bracketed? cs = some (.ok host)) :
    bracketed? host = some (.ok host) := by
  unfold bracketed? at h
  split at h
  · split at h
    · split at h
      · next pieces hpieces =>
        obtain rfl := Except.ok.inj (Option.some.inj h)
        have hread := Ipv6.parse_canonical (Ipv6.isAddress_parse hpieces)
        rw [bracketed?, List.getLast?_concat, List.dropLast_concat, hread]
        rfl
      · cases h
    · cases h
  · cases h

/-- A host without meaning of its own is read as it is. -/
theorem verbatim_verbatim (h : verbatim cs = .ok host) : verbatim host = .ok host := by
  unfold verbatim at h
  split at h
  · next result hresult =>
    rw [h] at hresult
    rw [verbatim, bracketed_bracketed hresult]
  · next hplain =>
    split at h
    · cases h
    · next hallowed =>
      obtain rfl := Except.ok.inj h
      have hencoding : ∀ c, isEncoding c = true →
          isControl c = false ∧ isForbiddenOpaque c = false :=
        fun c hc => of_isEncoding
          (P := fun c => isControl c = false ∧ isForbiddenOpaque c = false) (by decide) hc
      have hkept : ∀ c ∈ percentEncode isControl cs, isForbiddenOpaque c = false := by
        intro c hc
        rcases of_mem_percentEncode hc with ⟨hc, -⟩ | hc
        · exact Bool.eq_false_iff.mpr fun hforbidden =>
            hallowed (List.any_eq_true.mpr ⟨c, hc, hforbidden⟩)
        · exact (hencoding c hc).2
      have hnone : bracketed? (percentEncode isControl cs) = none := by
        unfold bracketed?
        split
        · next rest heq =>
          exact absurd (hkept '[' (heq ▸ List.mem_cons_self)) (by decide)
        · rfl
      have hany : (percentEncode isControl cs).any isForbiddenOpaque = false :=
        List.any_eq_false.mpr fun c hc => Bool.eq_false_iff.mp (hkept c hc)
      rw [verbatim, hnone]
      dsimp only
      rw [hany, if_neg Bool.false_ne_true, percentEncode_twice fun c hc => (hencoding c hc).1]

end Uri.Host

end SchemaCompiler
