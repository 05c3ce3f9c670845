import SchemaCompiler.Proofs.Uri.Ipv6

/-!
# Authorities that are read twice

`Uri.readAuthority_eq_ok_iff` says what an authority is read as.  Its parts are canonical
(`Uri.isAuthority_readAuthority`), so its text is taken apart where it was put together: the user
and the port are read as they are, and the host as whatever the host by itself is read as
(`Uri.IsAuthority.readAuthority_text_iff`).  That is the host, unless it is the name of a machine
(`Uri.readHost_self`).
-/

namespace SchemaCompiler

namespace Text

variable {p : Char → Bool}

/-- Without a mark, a text has no parts around it. -/
lemma splitAtLast_eq_none {cs : List Char} (h : ∀ c ∈ cs, p c = false) :
    splitAtLast p cs = none := by
  induction cs with
  | nil => rfl
  | cons c cs ih =>
    obtain ⟨hc, hcs⟩ := List.forall_mem_cons.mp h
    rw [splitAtLast, ih hcs]
    simp [hc]

/-- The last mark is the one after which there is none. -/
lemma splitAtLast_append {mark : Char} {after : List Char} (hmark : p mark = true)
    (h : ∀ c ∈ after, p c = false) (before : List Char) :
    splitAtLast p (before ++ mark :: after) = some (before, after) := by
  induction before with
  | nil =>
    rw [List.nil_append, splitAtLast, splitAtLast_eq_none h]
    simp [hmark]
  | cons c before ih => rw [List.cons_append, splitAtLast, ih]

end Text

namespace Uri

variable {scheme : SchemeClass} {cs rest : List Char} {a b : Authority} {c : Char}

/-! ### What an authority is read as -/

/-- The host that a text is read as; it names a machine where the scheme has rules of its own. -/
def readHost (scheme : SchemeClass) (cs : List Char) : Except Fault (List Char) :=
  if scheme.isSpecial then Host.canonical cs else Host.verbatim cs

/-- What is written after the colon of a port. -/
def portText? : List Char → Option (List Char)
  | ':' :: port => some port
  | _ => none

/-- The port that a text is read as; without a colon there is none. -/
def readPort? (scheme : SchemeClass) (cs : List Char) : Except Fault (Option Nat) :=
  match portText? cs with
  | some port => readPort scheme port
  | none => pure none

/-- The user of an authority, and its host and port. -/
def splitUser (cs : List Char) : List Char × List Char :=
  (Text.splitAtLast (· == '@') cs).getD ([], cs)

/-- The host of an authority, and what follows it. -/
def splitHost (cs : List Char) : List Char × List Char := spanHost false (splitUser cs).2

/-- An authority is read part by part.  Without a host there is neither a user nor a port. -/
structure IsRead (scheme : SchemeClass) (cs rest : List Char) (a : Authority) : Prop where
  mark : ¬(cs = ['@'] ∧ !rest.isEmpty)
  required : scheme.isSpecial = true → (splitHost cs).1 ≠ []
  host : readHost scheme (splitHost cs).1 = .ok a.host
  lacksPort : a.host = [] → portText? (splitHost cs).2 = none
  port : readPort? scheme (splitHost cs).2 = .ok a.port
  lacksUser : a.host = [] → userinfoText (splitUser cs).1 = []
  userinfo : userinfoText (splitUser cs).1 = a.userinfo

/-- What an authority is read as. -/
theorem readAuthority_eq_ok_iff :
    readAuthority scheme cs rest = .ok a ↔ IsRead scheme cs rest a := by
  have hparts : readAuthority scheme cs rest = .ok a ↔
      ¬(cs = ['@'] ∧ !rest.isEmpty) ∧
        ¬(scheme.isSpecial && (splitHost cs).1.isEmpty) = true ∧
        readHost scheme (splitHost cs).1 = .ok a.host ∧
        ¬(a.host.isEmpty && (portText? (splitHost cs).2).isSome) = true ∧
        readPort? scheme (splitHost cs).2 = .ok a.port ∧
        ¬(a.host.isEmpty && !(userinfoText (splitUser cs).1).isEmpty) = true ∧
        userinfoText (splitUser cs).1 = a.userinfo := by
    obtain ⟨written, machine, number⟩ := a
    unfold readAuthority readHost readPort? splitHost
    generalize hsplit : splitUser cs = parts
    have hsplit' : (Text.splitAtLast (· == '@') cs).getD ([], cs) = parts := hsplit
    obtain ⟨user, hostAndPort⟩ := parts
    simp only [hsplit']
    generalize spanHost false hostAndPort = parts
    obtain ⟨hostText, after⟩ := parts
    -- The host is canonical or verbatim, and followed by a port or not.
    cases scheme.isSpecial
    all_goals
      fun_cases portText? after
      all_goals
        simp only [unless_eq_ok_iff, bind_eq_ok_iff, pure_eq_ok_iff, Bool.false_eq_true, if_true,
          if_false, Authority.mk.injEq]
        constructor
        · rintro ⟨hmark, hrequired, _, hhost, hport, _, hread, huser, rfl, rfl, rfl⟩
          exact ⟨hmark, hrequired, hhost, hport, hread, huser, rfl⟩
        · rintro ⟨hmark, hrequired, hhost, hport, hread, huser, rfl⟩
          exact ⟨hmark, hrequired, _, hhost, hport, _, hread, huser, rfl, rfl, rfl⟩
  rw [hparts]
  constructor
  · rintro ⟨hmark, hrequired, hhost, hport, hread, huser, huserinfo⟩
    exact ⟨hmark, by simpa using hrequired, hhost, by simpa using hport, hread,
      by simpa using huser, huserinfo⟩
  · rintro ⟨hmark, hrequired, hhost, hport, hread, huser, huserinfo⟩
    exact ⟨hmark, by simpa using hrequired, hhost, by simpa using hport, hread,
      by simpa using huser, huserinfo⟩

/-! ### Users -/

/-- What is left alone in a name or password. -/
lemma isHostChar_of_encodedInUserinfo (h : encodedInUserinfo c = false) :
    isHostChar c = true ∧ c ≠ ':' := by
  have hlt : c.toNat < 128 := by
    simp only [encodedInUserinfo, encodedInPath, isControl, Bool.or_eq_false_iff,
      decide_eq_false_iff_not] at h
    omega
  exact of_ascii (P := fun c => encodedInUserinfo c = false → isHostChar c = true ∧ c ≠ ':')
    (by decide) hlt h

/-- The user of an authority is written with a final `@`, and the written user is read as it is. -/
lemma exists_userinfo (cs : List Char) : ∃ written,
    userinfoText cs = (if written.isEmpty then [] else written ++ ['@']) ∧
      userinfoText written = userinfoText cs ∧ ∀ c ∈ written, isHostChar c = true := by
  have hencoding : ∀ c, isEncoding c = true → encodedInUserinfo c = false :=
    fun c hc => of_isEncoding (P := fun c => encodedInUserinfo c = false) (by decide) hc
  have hchars : ∀ ds, ∀ c ∈ percentEncode encodedInUserinfo ds, isHostChar c = true ∧ c ≠ ':' :=
    fun _ _ hc => isHostChar_of_encodedInUserinfo (encodes_eq_false hencoding hc)
  have hcolon : ∀ ds, ∀ c ∈ percentEncode encodedInUserinfo ds, (c != ':') = true :=
    fun ds c hc => bne_iff_ne.mpr (hchars ds c hc).2
  generalize hname : cs.takeWhile (· != ':') = name
  generalize hpassword : (cs.dropWhile (· != ':')).drop 1 = password
  cases hempty : (percentEncode encodedInUserinfo password).isEmpty with
  | true =>
    have htake := List.takeWhile_eq_self_iff.mpr (hcolon name)
    have hdrop := List.dropWhile_eq_nil_iff.mpr (hcolon name)
    refine ⟨percentEncode encodedInUserinfo name, ?_, ?_, fun c hc => (hchars name c hc).1⟩
    · simp only [userinfoText, hname, hpassword, hempty, if_true]
    · simp only [userinfoText, hname, hpassword, hempty, if_true, htake, hdrop,
        percentEncode_twice hencoding, List.drop_nil]
      rfl
  | false =>
    refine ⟨percentEncode encodedInUserinfo name ++ ':' :: percentEncode encodedInUserinfo password,
      ?_, ?_, ?_⟩
    · simp only [userinfoText, hname, hpassword, hempty, Bool.false_eq_true, if_false]
    · have htake : ∀ more, (percentEncode encodedInUserinfo name ++ ':' :: more).takeWhile
          (· != ':') = percentEncode encodedInUserinfo name := by
        intro more
        rw [List.takeWhile_append_of_pos (hcolon name), List.takeWhile_cons_of_neg (by decide),
          List.append_nil]
      have hdrop : ∀ more, (percentEncode encodedInUserinfo name ++ ':' :: more).dropWhile
          (· != ':') = ':' :: more := by
        intro more
        rw [List.dropWhile_append_of_pos (hcolon name), List.dropWhile_cons_of_neg (by decide)]
      simp only [userinfoText, hname, hpassword, hempty, Bool.false_eq_true, if_false, htake, hdrop,
        List.drop_succ_cons, List.drop_zero, percentEncode_twice hencoding]
    · exact List.forall_mem_append.mpr ⟨fun c hc => (hchars name c hc).1,
        List.forall_mem_cons.mpr ⟨by decide, fun c hc => (hchars password c hc).1⟩⟩

/-! ### Canonical authorities -/

/-- An authority in canonical parts. -/
structure IsAuthority (scheme : SchemeClass) (a : Authority) : Prop where
  userinfo : ∃ cs, a.userinfo = userinfoText cs
  host : ∃ cs, readHost scheme cs = .ok a.host
  port : ∀ n ∈ a.port, n ≤ 65535 ∧ scheme ≠ .special n
  lacksHost : a.host = [] → a.userinfo = [] ∧ a.port = none ∧ scheme.isSpecial = false

/-- The host of an authority is a host in canonical text. -/
lemma isHost_readHost {host : List Char} (h : readHost scheme cs = .ok host) : IsHost host := by
  unfold readHost at h
  split at h
  · exact (isHost_canonical h).1
  · exact isHost_verbatim h

/-- The host of a canonical authority is a host in canonical text. -/
lemma IsAuthority.isHost (h : IsAuthority scheme a) : IsHost a.host :=
  h.host.elim fun _ => isHost_readHost

/-- Only nothing is read as no host, and only where the scheme has no rules of its own. -/
lemma eq_nil_of_readHost (h : readHost scheme cs = .ok []) :
    cs = [] ∧ scheme.isSpecial = false := by
  unfold readHost at h
  split at h
  · exact absurd rfl (isHost_canonical h).2
  · next hspecial =>
    refine ⟨?_, Bool.eq_false_iff.mpr hspecial⟩
    unfold Host.verbatim at h
    split at h
    · next hbracketed => exact absurd rfl (isHost_of_bracketed (h ▸ hbracketed)).2
    · split at h
      · cases h
      · have hnil : percentEncode isControl cs = [] := Except.ok.inj h
        have hpoint : isControl '.' = false := by decide
        rcases percentEncode_eq_self_or_mem hpoint cs with hself | hmem
        · rw [← hself, hnil]
        · rw [hnil] at hmem
          cases hmem

/-- A host is read as it is, except for the names of machines. -/
theorem readHost_self {host : List Char} (h : readHost scheme cs = .ok host)
    (hname : scheme.isSpecial = false ∨ host.head? = some '[') :
    readHost scheme host = .ok host := by
  unfold readHost at h ⊢
  split at h
  · next hspecial =>
    have hopen : host.head? = some '[' := hname.resolve_left (by simp [hspecial])
    rw [if_pos hspecial]
    rcases of_canonical h with hbracketed | ⟨-, hall⟩
    · rw [Host.canonical, Host.bracketed_bracketed hbracketed]
    · exact absurd rfl (hall '[' (List.mem_of_head? hopen)).2.2
  · next hspecial =>
    rw [if_neg hspecial]
    exact Host.verbatim_verbatim h

/-- The host of an authority is read as it is if the name of a machine is. -/
lemma readHost_self_iff {host : List Char} (h : ∃ cs, readHost scheme cs = .ok host) :
    readHost scheme host = .ok host ↔ (scheme.isSpecial = true → host.head? ≠ some '[' →
      Host.canonical host = .ok host) := by
  obtain ⟨cs, h⟩ := h
  constructor
  · intro hself hspecial _
    rwa [readHost, if_pos hspecial] at hself
  · intro hname
    by_cases hread : scheme.isSpecial = false ∨ host.head? = some '['
    · exact readHost_self h hread
    · obtain ⟨hspecial, hopen⟩ : scheme.isSpecial = true ∧ host.head? ≠ some '[' := by
        simpa [not_or] using hread
      rw [readHost, if_pos hspecial]
      exact hname hspecial hopen

/-- A port is in range, and not the one that the scheme has by default. -/
lemma of_readPort {n : Nat} (h : readPort? scheme cs = .ok (some n)) :
    n ≤ 65535 ∧ scheme ≠ .special n := by
  unfold readPort? at h
  split at h
  · unfold readPort at h
    split at h
    · cases h
    · split at h
      · split at h
        · cases h
        · next m _ hrange =>
          split at h
          · cases h
          · next hdefault =>
            obtain rfl : m = n := by simpa using h
            exact ⟨by omega, hdefault⟩
      · cases h
  · cases h

/-- The parts of an authority are canonical. -/
theorem isAuthority_readAuthority (h : readAuthority scheme cs rest = .ok a) :
    IsAuthority scheme a := by
  rw [readAuthority_eq_ok_iff] at h
  refine ⟨⟨_, h.userinfo.symm⟩, ⟨_, h.host⟩, ?_, fun hnil => ?_⟩
  · intro n hn
    have hport := h.port
    rw [Option.mem_def.mp hn] at hport
    exact of_readPort hport
  · have hport := h.port
    rw [readPort?, h.lacksPort hnil] at hport
    have hhost := h.host
    rw [hnil] at hhost
    exact ⟨h.userinfo ▸ h.lacksUser hnil, (pure_eq_ok_iff.mp hport).symm,
      (eq_nil_of_readHost hhost).2⟩

/-! ### Written authorities -/

/-- A port as written, after a colon. -/
def portText : Option Nat → List Char
  | some n => ':' :: Nat.toDigits 10 n
  | none => []

/-- An authority is written part by part. -/
lemma text_eq (a : Authority) : a.text = a.userinfo ++ (a.host ++ portText a.port) := by
  rw [Authority.text, List.append_assoc]
  cases a.port <;> rfl

/-- A port is written in digits, after a colon. -/
lemma isHostChar_portText (port : Option Nat) :
    ∀ c ∈ portText port, isHostChar c = true := by
  cases port with
  | none => exact List.forall_mem_nil _
  | some n =>
    refine List.forall_mem_cons.mpr ⟨by decide, fun c hc => ?_⟩
    obtain ⟨d, hd, rfl⟩ := exists_digit_of_mem_toDigits (by decide) hc
    exact (isHostChar_digitChar d (by omega)).1

/-- What is not encoded in an authority: characters of hosts, and the mark of a user. -/
lemma IsAuthority.of_mem_text (h : IsAuthority scheme a) (hc : c ∈ a.text) :
    isHostChar c = true ∨ c = '@' := by
  rw [text_eq] at hc
  rcases List.mem_append.mp hc with hc | hc
  · obtain ⟨cs, hcs⟩ := h.userinfo
    obtain ⟨written, hwritten, -, hchars⟩ := exists_userinfo cs
    rw [hcs, hwritten] at hc
    split at hc
    · cases hc
    · exact (List.mem_append.mp hc).imp (hchars c) List.mem_singleton.mp
  · refine Or.inl ?_
    rcases List.mem_append.mp hc with hc | hc
    · exact h.isHost.chars c hc
    · exact isHostChar_portText _ c hc

/-- No path ends in an authority. -/
lemma IsAuthority.isPathChar (h : IsAuthority scheme a) : ∀ c ∈ a.text, isPathChar c = true := by
  intro c hc
  rcases h.of_mem_text hc with hchar | rfl
  · exact (Bool.and_eq_true_iff.mp hchar).1
  · decide

/-- An authority ends where its text does. -/
lemma IsAuthority.endsAuthority (h : IsAuthority scheme a) :
    ∀ c ∈ a.text, endsAuthority scheme c = false := by
  intro c hc
  have hends : Uri.endsAuthority scheme '@' = false := by
    cases scheme <;> rfl
  rcases h.of_mem_text hc with hchar | rfl
  · simp only [isHostChar, Uri.isPathChar, Bool.and_eq_true, Bool.not_eq_true'] at hchar
    obtain ⟨⟨-, hpath⟩, hother⟩ := hchar
    have hslash : c ≠ '/' := by rintro rfl; exact absurd hother (by decide)
    have hback : c ≠ '\\' := by rintro rfl; exact absurd hother (by decide)
    simp [Uri.endsAuthority, SchemeClass.isSlash, hpath, hslash, hback]
  · exact hends

/-- Only an authority without a host has no text. -/
lemma IsAuthority.text_eq_nil_iff (h : IsAuthority scheme a) : a.text = [] ↔ a.host = [] := by
  rw [text_eq]
  constructor
  · intro hnil
    exact (List.append_eq_nil_iff.mp (List.append_eq_nil_iff.mp hnil).2).1
  · intro hnil
    obtain ⟨huser, hport, -⟩ := h.lacksHost hnil
    rw [huser, hnil, hport]
    rfl

/-- The parts of a written authority are the parts it was written from. -/
lemma IsAuthority.splitUser_text (h : IsAuthority scheme a) : ∃ written,
    splitUser a.text = (written, a.host ++ portText a.port) ∧
      userinfoText written = a.userinfo := by
  obtain ⟨cs, hcs⟩ := h.userinfo
  obtain ⟨written, hwritten, hagain, -⟩ := exists_userinfo cs
  have hchars : ∀ c ∈ a.host ++ portText a.port, (c == '@') = false := by
    have hmark : ∀ c, isHostChar c = true → (c == '@') = false := by
      intro c hc
      refine beq_eq_false_iff_ne.mpr ?_
      rintro rfl
      exact absurd hc (by decide)
    exact List.forall_mem_append.mpr ⟨fun c hc => hmark c (h.isHost.chars c hc),
      fun c hc => hmark c (isHostChar_portText _ c hc)⟩
  refine ⟨written, ?_, hcs ▸ hagain⟩
  rw [text_eq, hcs, hwritten, splitUser]
  cases hempty : written.isEmpty with
  | true =>
    rw [if_pos rfl, List.nil_append, Text.splitAtLast_eq_none hchars, List.isEmpty_iff.mp hempty]
    rfl
  | false =>
    rw [if_neg Bool.false_ne_true, List.append_assoc, List.singleton_append,
      Text.splitAtLast_append (p := (· == '@')) rfl hchars]
    rfl

/-- A written port is read as it is. -/
lemma readPort_portText {port : Option Nat} (h : ∀ n ∈ port, n ≤ 65535 ∧ scheme ≠ .special n) :
    readPort? scheme (portText port) = .ok port := by
  cases port with
  | none => rfl
  | some n =>
    obtain ⟨hrange, hdefault⟩ := h n rfl
    change readPort scheme (Nat.toDigits 10 n) = _
    rw [readPort, if_neg (by simp), Text.numeral_toDigits (by decide) (by decide)]
    dsimp only
    rw [if_neg (by omega), if_neg hdefault]

/-- A written authority is read as it is, except for its host. -/
theorem IsAuthority.readAuthority_text_iff (h : IsAuthority scheme a) :
    readAuthority scheme a.text rest = .ok b ↔
      readHost scheme a.host = .ok b.host ∧ b.userinfo = a.userinfo ∧ b.port = a.port := by
  obtain ⟨written, hsplit, huser⟩ := h.splitUser_text
  have hhost : splitHost a.text = (a.host, portText a.port) := by
    rw [splitHost, hsplit]
    refine h.isHost.span _ ?_
    cases a.port with
    | none => exact Or.inl rfl
    | some n => exact Or.inr ⟨_, rfl⟩
  have hport := readPort_portText h.port
  rw [readAuthority_eq_ok_iff]
  constructor
  · intro hread
    have hhost' := hread.host
    have hport' := hread.port
    have huser' := hread.userinfo
    rw [hhost] at hhost' hport'
    rw [hsplit] at huser'
    exact ⟨hhost', huser'.symm.trans huser, Except.ok.inj (hport'.symm.trans hport)⟩
  · rintro ⟨hread, huserinfo, hsame⟩
    have hlacks : b.host = [] → a.userinfo = [] ∧ a.port = none ∧ scheme.isSpecial = false := by
      intro hnil
      rw [hnil] at hread
      exact h.lacksHost (eq_nil_of_readHost hread).1
    refine ⟨?_, ?_, ?_, ?_, ?_, ?_, ?_⟩
    · rintro ⟨hmark, -⟩
      -- A host is not empty here, and it is not a mark.
      have hne : a.host ≠ [] := fun hnil => by
        rw [h.text_eq_nil_iff.mpr hnil] at hmark
        cases hmark
      obtain ⟨c, hc⟩ := List.exists_mem_of_ne_nil _ hne
      have hmem : c ∈ a.text := text_eq a ▸ List.mem_append_right _ (List.mem_append_left _ hc)
      rw [hmark] at hmem
      rw [List.mem_singleton.mp hmem] at hc
      exact absurd (h.isHost.chars _ hc) (by decide)
    · intro hspecial hnil
      rw [hhost] at hnil
      rw [(h.lacksHost hnil).2.2] at hspecial
      cases hspecial
    · rw [hhost]
      exact hread
    · intro hnil
      rw [hhost, (hlacks hnil).2.1]
      rfl
    · rw [hhost, hsame]
      exact hport
    · intro hnil
      rw [hsplit, huser]
      exact (hlacks hnil).1
    · rw [hsplit, huserinfo]
      exact huser

end Uri

end SchemaCompiler
