import SchemaCompiler.Proofs.Outcome
import SchemaCompiler.Proofs.Path
import SchemaCompiler.Proofs.Uri.Characters

/-!
# Hosts in canonical text

Which characters stand in a host, whatever was written: none that ends a host or an authority, and a
colon only between brackets (`Uri.isHost_canonical`, `Uri.isHost_verbatim`).  The characters of a
domain name that are forbidden may not stand in it, also not after its mapping.  A label in Punycode
cannot bring them in, as decoding inserts only characters outside ASCII (`Uri.of_mem_toAscii`).
-/

namespace SchemaCompiler

namespace Text

variable {cs : List Char} {p : Char → Bool}

/-- The parts of a text around a mark are in the text. -/
lemma subset_of_splitAtLast {before after : List Char}
    (h : splitAtLast p cs = some (before, after)) : before ⊆ cs ∧ after ⊆ cs := by
  induction cs generalizing before with
  | nil => cases h
  | cons c cs ih =>
    rw [splitAtLast] at h
    split at h
    · next first rest hsplit =>
      obtain ⟨rfl, rfl⟩ := Prod.mk.inj (Option.some.inj h)
      obtain ⟨hbefore, hafter⟩ := ih hsplit
      exact ⟨List.cons_subset_cons c hbefore, List.subset_cons_of_subset c hafter⟩
    · split at h
      · obtain ⟨rfl, rfl⟩ := Prod.mk.inj (Option.some.inj h)
        exact ⟨List.nil_subset _, List.subset_cons_self _ _⟩
      · cases h

/-- What follows a fixed beginning is part of the text. -/
lemma subset_of_dropStart {start rest : List Char} (h : dropStart? start cs = some rest) :
    rest ⊆ cs := by
  fun_induction dropStart? start cs with
  | case1 cs => exact Option.some.inj h ▸ List.Subset.refl _
  | case2 => cases h
  | case3 w ws cs ih => exact List.subset_cons_of_subset _ (ih h)
  | case4 => cases h

end Text

namespace Uri

variable {cs : List Char}

/-! ### Characters of hosts -/

/-- A character that can stand in a host. -/
def isHostChar (c : Char) : Bool :=
  isPathChar c && !(['/', '\\', '@', '|'].contains c)

/-- A host in canonical text: only a colon outside brackets ends it. -/
structure IsHost (host : List Char) : Prop where
  chars : ∀ c ∈ host, isHostChar c = true
  span : ∀ rest, (rest = [] ∨ ∃ ds, rest = ':' :: ds) →
    spanHost false (host ++ rest) = (host, rest)

/-- A colon, or nothing, ends a host. -/
lemma spanHost_end {rest : List Char} (h : rest = [] ∨ ∃ ds, rest = ':' :: ds) :
    spanHost false rest = ([], rest) := by
  rcases h with rfl | ⟨ds, rfl⟩
  · rfl
  · rfl

/-- Text without colons and brackets is a host. -/
lemma isHost_of_plain {host : List Char} (hchars : ∀ c ∈ host, isHostChar c = true)
    (h : ∀ c ∈ host, c ≠ ':' ∧ c ≠ '[') : IsHost host where
  chars := hchars
  span := by
    intro rest hrest
    clear hchars
    induction host with
    | nil => exact spanHost_end hrest
    | cons c host ih =>
      obtain ⟨⟨hcolon, hbracket⟩, hhost⟩ := List.forall_mem_cons.mp h
      have hinside : (if (c == '[') = true then true else if (c == ']') = true then false
          else false) = false := by
        rw [if_neg (by simpa using hbracket), ite_self]
      rw [List.cons_append, spanHost, if_neg (by simp [hcolon])]
      dsimp only
      rw [hinside, ih hhost]

/-- Text without brackets, between brackets, is a host. -/
lemma isHost_bracketed {inner : List Char} (hchars : ∀ c ∈ inner, isHostChar c = true)
    (h : ∀ c ∈ inner, c ≠ ']') : IsHost ('[' :: (inner ++ [']'])) where
  chars := by
    refine List.forall_mem_cons.mpr ⟨by decide, List.forall_mem_append.mpr ⟨hchars, ?_⟩⟩
    exact List.forall_mem_singleton.mpr (by decide)
  span := by
    intro rest hrest
    have hinner : spanHost true (inner ++ ']' :: rest) = (inner ++ [']'], rest) := by
      clear hchars
      induction inner with
      | nil =>
        rw [List.nil_append, spanHost, if_neg (by decide)]
        dsimp only
        rw [if_neg (by decide), if_pos (by decide), spanHost_end hrest]
        rfl
      | cons c inner ih =>
        obtain ⟨hc, hinner⟩ := List.forall_mem_cons.mp h
        have hinside : (if (c == '[') = true then true else if (c == ']') = true then false
            else true) = true := by
          rw [if_neg (c := (c == ']') = true) (by simpa using hc), ite_self]
        rw [List.cons_append, spanHost, if_neg (by simp)]
        dsimp only
        rw [hinside, ih hinner]
        rfl
    rw [List.cons_append, List.append_assoc, spanHost, if_neg (by decide)]
    dsimp only
    rw [if_pos (by decide), List.singleton_append, hinner]

/-! ### Addresses -/

/-- A character of joined texts is the separator, or stands in one of them. -/
lemma of_mem_intercalate {separator c : Char} {texts : List (List Char)}
    (h : c ∈ [separator].intercalate texts) : c = separator ∨ ∃ text ∈ texts, c ∈ text := by
  induction texts with
  | nil => cases h
  | cons first texts ih =>
    cases texts with
    | nil => exact Or.inr ⟨first, List.mem_cons_self, by simpa [List.intercalate] using h⟩
    | cons second texts =>
      rw [List.intercalate_cons_cons] at h
      rcases List.mem_append.mp h with h | h
      · rcases List.mem_append.mp h with h | h
        · exact Or.inr ⟨first, List.mem_cons_self, h⟩
        · exact Or.inl (List.mem_singleton.mp h)
      · rcases ih h with hc | ⟨text, htext, hc⟩
        · exact Or.inl hc
        · exact Or.inr ⟨text, List.mem_cons_of_mem _ htext, hc⟩

/-- A number is written in digits of the base. -/
lemma exists_digit_of_mem_toDigits {b n : Nat} (hb : 1 < b) {c : Char} (h : c ∈ Nat.toDigits b n) :
    ∃ d < b, c = Nat.digitChar d := by
  induction n using Nat.strongRecOn with
  | ind n ih =>
    rw [Nat.toDigits_eq_if hb] at h
    split at h
    · next hlt => exact ⟨n, hlt, List.mem_singleton.mp h⟩
    · next hge =>
      have hdiv : n / b < n := Nat.div_lt_self (by omega) hb
      rcases List.mem_append.mp h with h | h
      · exact ih _ hdiv h
      · exact ⟨n % b, Nat.mod_lt n (by omega), List.mem_singleton.mp h⟩

/-- A digit is a character of a host, and no mark of one. -/
lemma isHostChar_digitChar : ∀ d < 16, isHostChar (Nat.digitChar d) = true ∧
    Nat.digitChar d ≠ ':' ∧ Nat.digitChar d ≠ '[' ∧ Nat.digitChar d ≠ ']' := by
  decide

/-- An IPv4 address is written in digits and points. -/
lemma of_mem_ipv4 {address : Nat} {c : Char} (h : c ∈ Ipv4.text address) :
    isHostChar c = true ∧ c ≠ ':' ∧ c ≠ '[' := by
  rcases of_mem_intercalate h with rfl | ⟨text, htext, hc⟩
  · decide
  · obtain ⟨k, -, rfl⟩ := List.mem_map.mp htext
    obtain ⟨d, hd, rfl⟩ := exists_digit_of_mem_toDigits (by decide) hc
    obtain ⟨hchar, hcolon, hopen, -⟩ := isHostChar_digitChar d (by omega)
    exact ⟨hchar, hcolon, hopen⟩

/-- An IPv6 address is written in digits and colons. -/
lemma of_mem_ipv6 {pieces : List Nat} {c : Char} (h : c ∈ Ipv6.text pieces) :
    c = ':' ∨ ∃ d < 16, c = Nat.digitChar d := by
  have hjoined : ∀ pieces, c ∈ Ipv6.joined pieces → c = ':' ∨ ∃ d < 16, c = Nat.digitChar d := by
    intro pieces hc
    rcases of_mem_intercalate hc with hc | ⟨text, htext, hc⟩
    · exact Or.inl hc
    · obtain ⟨n, -, rfl⟩ := List.mem_map.mp htext
      exact Or.inr (exists_digit_of_mem_toDigits (by decide) hc)
  unfold Ipv6.text at h
  dsimp only at h
  split at h
  · exact hjoined _ h
  · rcases List.mem_append.mp h with h | h
    · rcases List.mem_append.mp h with h | h
      · exact hjoined _ h
      · exact Or.inl (by simpa using h)
    · exact hjoined _ h

/-- An address between brackets is a host. -/
lemma isHost_of_bracketed {host : List Char} (h : Host.bracketed? cs = some (.ok host)) :
    IsHost host ∧ host ≠ [] := by
  unfold Host.bracketed? at h
  split at h
  · split at h
    · split at h
      · next pieces _ =>
        obtain rfl := Except.ok.inj (Option.some.inj h)
        have hall : ∀ c ∈ Ipv6.text pieces, isHostChar c = true ∧ c ≠ ']' := by
          intro c hc
          rcases of_mem_ipv6 hc with rfl | ⟨d, hd, rfl⟩
          · decide
          · obtain ⟨hchar, -, -, hclose⟩ := isHostChar_digitChar d hd
            exact ⟨hchar, hclose⟩
        exact ⟨isHost_bracketed (fun c hc => (hall c hc).1) fun c hc => (hall c hc).2,
          List.cons_ne_nil _ _⟩
      · cases h
    · cases h
  · cases h

/-- What is left alone in a host without meaning of its own. -/
lemma isHostChar_of_opaque {c : Char} (hkept : isControl c = false)
    (hallowed : Host.isForbiddenOpaque c = false) :
    isHostChar c = true ∧ c ≠ ':' ∧ c ≠ '[' := by
  have hlt : c.toNat < 128 := by
    simp only [isControl, Bool.or_eq_false_iff, decide_eq_false_iff_not] at hkept
    omega
  exact of_ascii (P := fun c => isControl c = false → Host.isForbiddenOpaque c = false →
    isHostChar c = true ∧ c ≠ ':' ∧ c ≠ '[') (by decide) hlt hkept hallowed

/-- A host without meaning of its own is a host in canonical text. -/
lemma isHost_verbatim {host : List Char} (h : Host.verbatim cs = .ok host) : IsHost host := by
  unfold Host.verbatim at h
  split at h
  · next hbracketed => exact (isHost_of_bracketed (h ▸ hbracketed)).1
  · split at h
    · cases h
    · next hallowed =>
      obtain rfl := Except.ok.inj h
      have hall : ∀ c ∈ percentEncode isControl cs, isHostChar c = true ∧ c ≠ ':' ∧ c ≠ '[' := by
        intro c hc
        rcases of_mem_percentEncode hc with ⟨hmem, hkept⟩ | hencoding
        · refine isHostChar_of_opaque hkept (Bool.eq_false_iff.mpr fun hforbidden => ?_)
          exact hallowed (List.any_eq_true.mpr ⟨c, hmem, hforbidden⟩)
        · exact of_isEncoding (P := fun c => isHostChar c = true ∧ c ≠ ':' ∧ c ≠ '[') (by decide)
            hencoding
      exact isHost_of_plain (fun c hc => (hall c hc).1) fun c hc => (hall c hc).2

/-! ### Domain names -/

/-- A threshold is below every base. -/
lemma threshold_le (place bias : Nat) : Punycode.threshold place bias ≤ 26 := by
  unfold Punycode.threshold
  split
  · omega
  · split <;> omega

/-- A number is written in digits of Punycode. -/
lemma of_mem_encodeNumber {bias fuel place q : Nat} {c : Char}
    (h : c ∈ Punycode.encodeNumber bias fuel place q) : ∃ d < 36, c = Punycode.digitChar d := by
  induction fuel generalizing place q with
  | zero => cases h
  | succ fuel ih =>
    have hthreshold := threshold_le place bias
    unfold Punycode.encodeNumber at h
    dsimp only at h
    split at h
    · next hlt => exact ⟨q, by omega, List.mem_singleton.mp h⟩
    · have hmod : (q - Punycode.threshold place bias) % (36 - Punycode.threshold place bias) <
          36 - Punycode.threshold place bias := Nat.mod_lt _ (by omega)
      rcases List.mem_cons.mp h with hc | hc
      · exact ⟨_, by omega, hc⟩
      · exact ih hc

/-- Placing a character writes digits of Punycode. -/
lemma of_mem_encodeAt {point basic : Nat} {state : Punycode.State} {d c : Char}
    (h : c ∈ (Punycode.encodeAt point basic state d).written) :
    c ∈ state.written ∨ ∃ d < 36, c = Punycode.digitChar d := by
  unfold Punycode.encodeAt at h
  split at h
  · exact Or.inl h
  · split at h
    · exact (List.mem_append.mp h).imp id of_mem_encodeNumber
    · exact Or.inl h

/-- A label in Punycode holds ASCII characters of the label, a hyphen, and digits. -/
lemma of_mem_encode {c : Char} (h : c ∈ Punycode.encode cs) :
    (c ∈ cs ∧ c.toNat < 0x80) ∨ c = '-' ∨ ∃ d < 36, c = Punycode.digitChar d := by
  have hfold : ∀ (point basic : Nat) (label : List Char) (state : Punycode.State),
      c ∈ (label.foldl (Punycode.encodeAt point basic) state).written →
        c ∈ state.written ∨ ∃ d < 36, c = Punycode.digitChar d := by
    intro point basic label
    induction label with
    | nil => exact fun _ hc => Or.inl hc
    | cons d label ih =>
      intro state hc
      exact (ih _ hc).elim of_mem_encodeAt Or.inr
  have hpoints : ∀ (basic : Nat) (points : List Nat) (acc : Punycode.State × Nat),
      c ∈ (points.foldl (fun acc point =>
        let s := { acc.1 with delta := acc.1.delta + (point - acc.2) * (acc.1.placed + 1) }
        let s := cs.foldl (Punycode.encodeAt point basic) s
        ({ s with delta := s.delta + 1 }, point + 1)) acc).1.written →
          c ∈ acc.1.written ∨ ∃ d < 36, c = Punycode.digitChar d := by
    intro basic points
    induction points with
    | nil => exact fun _ hc => Or.inl hc
    | cons point points ih =>
      intro acc hc
      exact (ih _ hc).elim (hfold _ _ _ _) Or.inr
  have hbasic : c ∈ cs.filter (fun c => decide (c.toNat < 0x80)) → c ∈ cs ∧ c.toNat < 0x80 :=
    fun hc => (List.mem_filter.mp hc).imp id of_decide_eq_true
  unfold Punycode.encode at h
  rcases hpoints _ _ _ h with hc | hc
  · dsimp only at hc
    split at hc
    · cases hc
    · rcases List.mem_append.mp hc with hc | hc
      · exact Or.inl (hbasic hc)
      · exact Or.inr (Or.inl (List.mem_singleton.mp hc))
  · exact Or.inr (Or.inr hc)

/-- Placing characters adds characters outside ASCII. -/
lemma of_mem_decodeFrom {fuel point index bias : Nat} {placed digits decoded : List Char}
    {c : Char} (hpoint : 0x80 ≤ point)
    (h : Punycode.decodeFrom fuel placed point index bias digits = some decoded)
    (hc : c ∈ decoded) : c ∈ placed ∨ 0x80 ≤ c.toNat := by
  fun_induction Punycode.decodeFrom fuel placed point index bias digits with
  | case1 => exact Or.inl (Option.some.inj h ▸ hc)
  | case2 => cases h
  | case3 => cases h
  | case4 _ placed point _ _ _ _ delta rest _ count position next place hvalid ih =>
    have hnext : 0x80 ≤ next := Nat.le_add_right_of_le hpoint
    have hsame : (Char.ofNat next).toNat = next := by
      rw [Char.ofNat, dif_pos hvalid]
      rfl
    rcases ih hnext h with hc | hc
    · rcases List.mem_append.mp hc with hc | hc
      · exact Or.inl (List.take_subset _ _ hc)
      · rcases List.mem_cons.mp hc with rfl | hc
        · exact Or.inr (hsame.symm ▸ hnext)
        · exact Or.inl (List.drop_subset _ _ hc)
    · exact Or.inr hc
  | case5 => cases h

/-- What a label in Punycode stands for has characters of the label, and others outside ASCII. -/
lemma of_mem_decode {decoded : List Char} {c : Char} (h : Punycode.decode? cs = some decoded)
    (hc : c ∈ decoded) : c ∈ cs ∨ 0x80 ≤ c.toNat := by
  unfold Punycode.decode? at h
  split at h
  next basic digits hparts =>
    have hbasic : basic ⊆ cs := by
      split at hparts
      · exact (Prod.mk.inj hparts).1 ▸ List.nil_subset _
      · exact (Prod.mk.inj hparts).1 ▸ List.nil_subset _
      · next hsplit =>
        subst hparts
        exact (Text.subset_of_splitAtLast hsplit).1
    split at h
    · exact (of_mem_decodeFrom (Nat.le_refl _) h hc).imp_left (hbasic ·)
    · cases h

/-- A label that is read has characters of the text, and others outside ASCII. -/
lemma of_mem_readLabel {label : List Char} {c : Char} (h : Domain.readLabel? cs = some label)
    (hc : c ∈ label) : c ∈ cs ∨ 0x80 ≤ c.toNat := by
  unfold Domain.readLabel? at h
  split at h
  · exact Or.inl (Option.some.inj h ▸ hc)
  · next encoded hencoded =>
    split at h
    · next decoded hdecoded =>
      split at h
      · obtain rfl := Option.some.inj h
        exact (of_mem_decode hdecoded hc).imp_left (Text.subset_of_dropStart hencoded ·)
      · cases h
    · cases h

/-- A label is written with its own ASCII characters and others that every name can have. -/
lemma of_mem_labelToAscii {c : Char} (h : c ∈ Domain.labelToAscii cs) :
    c.toNat < 0x80 ∧ (c ∈ cs ∨ Domain.isForbidden c = false) := by
  unfold Domain.labelToAscii at h
  split at h
  · next hascii =>
    exact ⟨of_decide_eq_true (List.all_eq_true.mp hascii c h), Or.inl h⟩
  · rcases List.mem_append.mp h with h | h
    · have hmark : ∀ c ∈ Domain.mark, c.toNat < 0x80 ∧ Domain.isForbidden c = false :=
        forall_mem_of_all (by decide)
      exact (hmark c h).imp id Or.inr
    · rcases of_mem_encode h with ⟨hc, hascii⟩ | rfl | ⟨d, hd, rfl⟩
      · exact ⟨hascii, Or.inl hc⟩
      · exact ⟨by decide, Or.inr (by decide)⟩
      · have hdigits : ∀ d < 36, (Punycode.digitChar d).toNat < 0x80 ∧
            Domain.isForbidden (Punycode.digitChar d) = false := by decide
        exact (hdigits d hd).imp id Or.inr

/-- A domain name is ASCII, without forbidden characters. -/
lemma of_mem_toAscii {domain : List Char} {c : Char} (h : Domain.toAscii? cs = some domain)
    (hc : c ∈ domain) : c.toNat < 0x80 ∧ Domain.isForbidden c = false := by
  unfold Domain.toAscii? at h
  obtain ⟨mapped, -, h⟩ := Option.bind_eq_some_iff.mp h
  obtain ⟨labels, hlabels, h⟩ := Option.bind_eq_some_iff.mp h
  obtain ⟨-, -, h⟩ := Option.bind_eq_some_iff.mp h
  obtain ⟨-, -, h⟩ := Option.bind_eq_some_iff.mp h
  obtain ⟨_, hallowed, h⟩ := Option.bind_eq_some_iff.mp h
  obtain rfl := Option.some.inj h
  have hmapped : ∀ c ∈ mapped, Domain.isForbidden c = false := by
    refine fun c hmem => Bool.eq_false_iff.mpr fun hforbidden => ?_
    rw [List.any_eq_true.mpr ⟨c, hmem, hforbidden⟩] at hallowed
    cases hallowed
  rcases of_mem_intercalate hc with rfl | ⟨text, htext, hc⟩
  · decide
  · obtain ⟨label, hlabel, rfl⟩ := List.mem_map.mp htext
    obtain ⟨piece, hpiece, hread⟩ := mem_of_mapM_eq_some hlabels hlabel
    obtain ⟨hascii, hc⟩ := of_mem_labelToAscii hc
    refine ⟨hascii, hc.elim (fun hc => ?_) id⟩
    rcases of_mem_readLabel hread hc with hc | hc
    · exact hmapped c (Text.subset_of_mem_splitOn piece hpiece hc)
    · omega

/-- The host of a machine is an address between brackets, or has neither colons nor brackets. -/
lemma of_canonical {host : List Char} (h : Host.canonical cs = .ok host) :
    Host.bracketed? cs = some (.ok host) ∨
      host ≠ [] ∧ ∀ c ∈ host, isHostChar c = true ∧ c ≠ ':' ∧ c ≠ '[' := by
  unfold Host.canonical at h
  split at h
  · next hbracketed => exact Or.inl (h ▸ hbracketed)
  · split at h
    · cases h
    · cases h
    · next domain hne hdomain =>
      refine Or.inr ?_
      split at h
      · split at h
        · next address _ =>
          obtain rfl := Except.ok.inj h
          have hpoint : '.' ∈ Ipv4.text address := by
            simp [Ipv4.text, List.intercalate]
          exact ⟨List.ne_nil_of_mem hpoint, fun c hc => of_mem_ipv4 hc⟩
        · cases h
      · obtain rfl := Except.ok.inj h
        obtain ⟨name, -, hname⟩ := Option.bind_eq_some_iff.mp hdomain
        refine ⟨fun hnil => hne hnil, fun c hc => ?_⟩
        obtain ⟨hascii, hallowed⟩ := of_mem_toAscii hname hc
        exact of_ascii (P := fun c => Domain.isForbidden c = false →
          isHostChar c = true ∧ c ≠ ':' ∧ c ≠ '[') (by decide) hascii hallowed

/-- The host of a machine is a host in canonical text, and not empty. -/
lemma isHost_canonical {host : List Char} (h : Host.canonical cs = .ok host) :
    IsHost host ∧ host ≠ [] := by
  rcases of_canonical h with hbracketed | ⟨hne, hall⟩
  · exact isHost_of_bracketed hbracketed
  · exact ⟨isHost_of_plain (fun c hc => (hall c hc).1) fun c hc => (hall c hc).2, hne⟩

end Uri

end SchemaCompiler
