import SchemaCompiler.Proofs.Definition.Soundness

/-!
# Findings of a walk

A walk reports what is found in a type when it enters the type, and stages the definition of the
type when it leaves it.  So what a walk has reported is, up to order, what is found in the types
that it has built (`Catalog.exists_built_of_starts`).
-/

namespace SchemaCompiler

/-- A claim finds nothing. -/
lemma Resolver.findings_of_claim {r : Resolver} {walk claimed : Walk} {t : TypeDescription}
    (h : r.claim walk t = .ok claimed) : claimed.findings = walk.findings := by
  obtain ⟨registry, -, rfl⟩ := claim_eq_ok h
  rfl

namespace Catalog

variable {c : Catalog} {graph : TypeGraph} {names : TypeName → Prop}

/-- Between two states of a walk, types among some names were built: their definitions were staged,
and what is found in them was reported. -/
structure Built (c : Catalog) (names : TypeName → Prop) (walk next : Walk)
    (types : List TypeDescription) : Prop where
  described : ∀ t ∈ types, c.source.Describes t ∧ names t.name
  staged : next.staged = walk.staged ++ types.map c.define
  findings : next.findings.Perm (walk.findings ++ types.flatMap c.config.buildFindings)

namespace Built

variable {walk next last claimed inner : Walk} {types others : List TypeDescription}
  {t : TypeDescription}

/-- Nothing is built while what is staged and what is found stay the same. -/
lemma nothing (hstaged : next.staged = walk.staged) (hfindings : next.findings = walk.findings) :
    c.Built names walk next [] where
  described := nofun
  staged := by rw [hstaged, List.map_nil, List.append_nil]
  findings := by rw [hfindings, List.flatMap_nil, List.append_nil]

/-- A claim builds nothing. -/
lemma of_claim (h : (c.resolver graph).claim walk t = .ok claimed) :
    c.Built names walk claimed [] :=
  nothing (Resolver.staged_of_claim h) (Resolver.findings_of_claim h)

/-- What is built in two parts is built in all. -/
lemma trans (h : c.Built names walk next types) (h' : c.Built names next last others) :
    c.Built names walk last (types ++ others) where
  described := List.forall_mem_append.mpr ⟨h.described, h'.described⟩
  staged := by rw [h'.staged, h.staged, List.map_append, List.append_assoc]
  findings := by
    rw [List.flatMap_append, ← List.append_assoc]
    exact h'.findings.trans (h.findings.append_right _)

/-- Between entering and leaving a type, this type is built after those that were built inside. -/
lemma leave (h : c.Built names ((c.resolver graph).enter claimed t) inner types)
    (hgraph : graph.Closed c.source) (hmem : t ∈ graph.types) (hname : names t.name) :
    c.Built names claimed ((c.resolver graph).leave inner t) (types ++ [t]) where
  described := by
    refine List.forall_mem_append.mpr ⟨h.described, ?_⟩
    exact List.forall_mem_singleton.mpr ⟨hgraph.described t hmem, hname⟩
  staged := by
    show inner.staged ++ [(c.resolver graph).define t] = _
    rw [h.staged, define_resolver hgraph hmem, List.map_append, List.append_assoc]
    rfl
  findings := by
    -- The type reports before the types inside, and is built after them.
    have hinner : inner.findings.Perm (claimed.findings ++ c.config.buildFindings t ++
        types.flatMap c.config.buildFindings) := h.findings
    rw [List.append_assoc] at hinner
    rw [List.flatMap_append, List.flatMap_singleton]
    exact hinner.trans (List.perm_append_comm.append_left _)

end Built

/-- A successful walk over names reports what is found in the types that it builds. -/
theorem exists_built_of_visits {walk : Walk} {visited : List TypeName}
    {result : Except Stopped Walk} (hgraph : graph.Closed c.source)
    (hclosed : ∀ {first second}, names first → c.Mentions first second → names second)
    (hvisited : ∀ name ∈ visited, names name)
    (h : (c.resolver graph).Visits walk visited result) :
    ∀ final, result = .ok final → ∃ types, c.Built names walk final types := by
  induction h with
  | done =>
    rintro final ⟨⟩
    exact ⟨[], .nothing rfl rfl⟩
  | undescribed | collided | stopped => nofun
  | known _ hclaim _ _ ih =>
    intro final hfinal
    obtain ⟨types, hrest⟩ := ih (fun name hmem => hvisited name (List.mem_cons_of_mem _ hmem))
      final hfinal
    exact ⟨types, (Built.of_claim hclaim).trans hrest⟩
  | built hname hclaim _ _ _ ihinner ihrest =>
    intro final hfinal
    obtain ⟨hmem, ht, rfl⟩ := described_eq_ok hgraph hname
    have hself := hvisited _ List.mem_cons_self
    obtain ⟨inside, hinner⟩ :=
      ihinner (fun name hname => hclosed hself ((mentions_iff ht).mpr hname)) _ rfl
    obtain ⟨types, hrest⟩ := ihrest (fun name hname => hvisited name (List.mem_cons_of_mem _ hname))
      final hfinal
    exact ⟨_, (Built.of_claim hclaim).trans ((hinner.leave hgraph hmem hself).trans hrest)⟩

/-- The successful walk of a root reports what is found in the types that it builds, and the root
leads to all of them. -/
theorem exists_built_of_starts {registry : Registry} {root : TypeName} {final : Walk}
    (hgraph : graph.Closed c.source)
    (h : (c.resolver graph).Starts registry root (.ok final)) :
    ∃ types, c.Built (c.Leads root) { registry } final types := by
  have hclosed : ∀ {first second}, c.Leads root first → c.Mentions first second →
      c.Leads root second := fun hfirst hmentions => hfirst.tail hmentions
  cases h with
  | built hname hclaim hinner =>
    obtain ⟨hmem, ht, rfl⟩ := described_eq_ok hgraph hname
    obtain ⟨inside, hinside⟩ := exists_built_of_visits hgraph hclosed
      (fun name hname => .single ((mentions_iff ht).mpr hname)) hinner _ rfl
    exact ⟨_, (Built.of_claim hclaim).trans (hinside.leave hgraph hmem .refl)⟩

end Catalog

end SchemaCompiler
