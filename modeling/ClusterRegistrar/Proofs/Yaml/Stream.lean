import ClusterRegistrar.Proofs.Yaml.Build

/-! Documents of mappings and texts are read back as they were written. -/
namespace ClusterRegistrar.Yaml

section

variable {docs : List (List (Text × TextTree))} {depth : Nat}

theorem exists_value_document {entries : List (Text × TextTree)} (h : (TextTree.map entries).Fits depth)
    (number : Nat) : ∃ v, (Nodes.mk ((TextTree.map entries).nodes 0).toArray).value number 0 = .ok v ∧
      v.Shows (.map entries) := by
  have hholds := Nodes.holds_nodes h [] []
  rw [List.nil_append, List.append_nil] at hholds
  exact Nodes.exists_value number hholds

theorem readDocuments_tokens (hfits : ∀ entries ∈ docs, (TextTree.map entries).Fits depth)
    (hdepth : depth ≤ Parser.maxDepth) {fuel : Nat}
    (hfuel : ∀ entries ∈ docs, (TextTree.map entries).tokens.length ≤ fuel) {bound : List Token}
    (hbound : docs.length < bound.length) (number : Nat) (p : Parser) (before : List Node) :
    ∃ values, readDocuments fuel bound number
        (p.resume (docs.flatMap documentTokens ++ [.streamEnd]) before) = .ok values ∧
      List.Forall₂ (fun v entries => v.Shows (.map entries)) values docs := by
  induction docs generalizing bound number p before with
  | nil =>
    obtain ⟨token, bound, rfl⟩ := List.exists_cons_of_length_pos hbound
    obtain ⟨p', hend⟩ := Parser.document?_end p before fuel (number = 0)
    refine ⟨[], ?_, .nil⟩
    rw [readDocuments]
    simp [hend]
    rfl
  | cons entries docs ih =>
    obtain ⟨hfit, hfits⟩ := List.forall_mem_cons.mp hfits
    obtain ⟨hlength, hfuel⟩ := List.forall_mem_cons.mp hfuel
    obtain ⟨token, bound, rfl⟩ := List.exists_cons_of_length_pos (Nat.zero_lt_of_lt hbound)
    obtain ⟨v, hvalue, hshows⟩ := exists_value_document hfit number
    obtain ⟨p', hdocument⟩ := Parser.document?_tokens p before (number = 0) hfit hdepth hlength
      (Parser.atBoundary_documents docs)
    obtain ⟨values, hvalues, hall⟩ := ih hfits hfuel (Nat.lt_of_succ_lt_succ hbound) (number + 1) p'
      ((TextTree.map entries).nodes 0)
    refine ⟨v :: values, ?_, .cons hshows hall⟩
    rw [readDocuments]
    simp [hdocument, hvalue, hvalues]

end

theorem isOrdinary_documentText (entries : List (Text × TextTree)) :
    ∀ c ∈ documentText entries, Style.isOrdinary c = true := by
  obtain ⟨body, hbody, hwritten⟩ := exists_documentText_eq entries
  rw [hbody, List.forall_mem_append]
  exact ⟨hwritten.ordinary, List.forall_mem_singleton.mpr rfl⟩

theorem exists_documents_eq {docs : List (List (Text × TextTree))} (hne : docs ≠ []) :
    ∃ body, docs.flatMap documentText = body ++ ['\n'] ∧ IsWritten body := by
  induction docs with
  | nil => exact absurd rfl hne
  | cons entries docs ih =>
    cases docs with
    | nil =>
      rw [List.flatMap_singleton]
      exact exists_documentText_eq entries
    | cons next docs =>
      obtain ⟨body, hbody, hwritten⟩ := ih (List.cons_ne_nil next docs)
      refine ⟨documentText entries ++ body, ?_, hwritten.append (isOrdinary_documentText entries)⟩
      rw [List.flatMap_cons, hbody, List.append_assoc]

theorem isPrintable_of_isOrdinary {c : Char} (h : Style.isOrdinary c = true) : isPrintable c = true := by
  rw [Style.isOrdinary, Bool.or_eq_true, decide_eq_true_eq, Bool.and_eq_true, decide_eq_true_eq,
    decide_eq_true_eq] at h
  obtain rfl | h := h
  · rfl
  · exact IsInline.isPrintable h

variable {docs : List (List (Text × TextTree))} {depth : Nat}

theorem isOrdinary_documents (docs : List (List (Text × TextTree))) :
    ∀ c ∈ docs.flatMap documentText, Style.isOrdinary c = true := by
  intro c hc
  obtain ⟨entries, -, hc⟩ := List.mem_flatMap.mp hc
  exact isOrdinary_documentText entries c hc

theorem all_isPrintable_documents (docs : List (List (Text × TextTree))) :
    (docs.flatMap documentText).all isPrintable = true :=
  List.all_eq_true.mpr fun c hc => isPrintable_of_isOrdinary (isOrdinary_documents docs c hc)

theorem length_documents_le (docs : List (List (Text × TextTree))) :
    docs.length ≤ (docs.flatMap documentTokens).length := by
  induction docs with
  | nil => exact Nat.le_refl 0
  | cons entries docs ih =>
    rw [List.flatMap_cons, List.length_append, List.length_cons, documentTokens, List.length_cons]
    omega

theorem length_tokens_le {entries : List (Text × TextTree)} (h : entries ∈ docs) :
    (TextTree.map entries).tokens.length ≤ (docs.flatMap documentTokens).length := by
  obtain ⟨before, after, rfl⟩ := List.append_of_mem h
  rw [List.flatMap_append, List.flatMap_cons, List.length_append, List.length_append, documentTokens,
    List.length_cons]
  omega

/-- Documents that are written are read back, each with its entries in their order. -/
theorem exists_readAll (hfits : ∀ entries ∈ docs, (TextTree.map entries).Fits depth)
    (hkeys : ∀ entries ∈ docs, (TextTree.map entries).Everywhere KeyFits fun _ => True)
    (hdepth : 2 * depth < Scalar.width) :
    ∃ values, readAll (docs.flatMap documentText) = .ok values ∧
      List.Forall₂ (fun v entries => v.Shows (.map entries)) values docs := by
  have hscan := scan_documents hfits hkeys hdepth
  have hroom : depth ≤ Parser.maxDepth := by
    rw [Parser.maxDepth]
    rw [Scalar.width] at hdepth
    omega
  have hfuel : ∀ entries ∈ docs, (TextTree.map entries).tokens.length ≤
      Parser.fuelFor (docs.flatMap documentTokens ++ [.streamEnd]) := by
    intro entries hentries
    have hlength := length_tokens_le hentries
    rw [Parser.fuelFor, List.length_append]
    omega
  have hbound : docs.length < (.streamEnd :: (docs.flatMap documentTokens ++ [.streamEnd])).length := by
    have hlength := length_documents_le docs
    rw [List.length_cons, List.length_append]
    omega
  obtain ⟨values, hvalues, hshows⟩ :=
    readDocuments_tokens hfits hroom hfuel hbound 0 ⟨[], none, [], [], .empty⟩ []
  refine ⟨values, ?_, hshows⟩
  rw [readAll, all_isPrintable_documents, Parser.start, hscan]
  exact hvalues

end ClusterRegistrar.Yaml
