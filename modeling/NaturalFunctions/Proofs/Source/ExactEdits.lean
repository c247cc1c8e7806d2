import NaturalFunctions.Proofs.Source.Extraction

namespace NaturalFunctions

theorem SourceModule.rewrite_edits_exactly (model : SemanticModel) (mapper : StructuralMapper)
    (names : MarkerNames) (source : SourceModule) :
    let result := source.rewrite model mapper names
    result.diagnostics = Signature.checkModule model names source ∧
    ((∃ diagnostic ∈ result.diagnostics, diagnostic.isError = true) ∨
        (∀ document ∈ source.allDocuments, ∀ function, ¬ document.Tagged names function) →
      result.source = source ∧ result.schemas = [] ∧ result.rewritten = 0) ∧
    ((∀ diagnostic ∈ result.diagnostics, diagnostic.isError = false) →
        (∃ document ∈ source.allDocuments, ∃ function, document.Tagged names function) →
      SourceEdit names result.schemas source result.source ∧
        result.rewritten = (source.taggedFunctions names).length ∧
        result.rewritten = changedBodies source.functions result.source.functions) := by
  intro result
  have hdiagnostics : result.diagnostics = Signature.checkModule model names source := by
    simp only [result, SourceModule.rewrite]
    split <;> rfl
  refine ⟨hdiagnostics, fun hstop => ?_, fun hclean htagged => ?_⟩
  · have hresult : result = ⟨source, Signature.checkModule model names source, [], 0⟩ := by
      apply SourceModule.rewrite_of_stopped
      rw [hdiagnostics] at hstop
      exact hstop.imp List.any_eq_true.mpr source.taggedFunctions_eq_nil_iff.mpr
    rw [hresult]
    exact ⟨rfl, rfl, rfl⟩
  · have herror : hasError (Signature.checkModule model names source) = false := by
      rw [hdiagnostics] at hclean
      apply List.any_eq_false.mpr
      intro diagnostic hd
      rw [hclean diagnostic hd]
      exact Bool.false_ne_true
    have hsome : source.taggedFunctions names ≠ [] := by
      obtain ⟨document, hd, function, hf⟩ := htagged
      intro hnil
      exact source.taggedFunctions_eq_nil_iff.mp hnil document hd function hf
    have hresult := @SourceModule.rewrite_of_passed names model mapper source herror hsome
    have hedit : SourceEdit names result.schemas source result.source := by
      simp only [result, hresult]
      exact source.rewrite_edit
    have hcount : result.rewritten = (source.taggedFunctions names).length := by
      simp only [result, hresult]
    exact ⟨hedit, hcount, hcount.trans hedit.changedBodies_eq.symm⟩

variable {cache : SchemaCache} {written : String} {after : Document}

theorem DocumentEdit.of_mainDocument (h : DocumentEdit .standard cache written mainDocument after) :
    after.imports = mainDocument.imports ∧ ∃ question, after.members = [.function question] ∧
      question.body = .call ⟨⟨some "np", "callLlm"⟩, ["prompt"]⟩ := by
  have hmarker : mainDocument.markerAlias? .standard = some "np" := by decide
  refine ⟨h.kept (Or.inl (by simp [hmarker])), ?_⟩
  have hmembers := h.members
  rw [hmarker] at hmembers
  generalize after.members = members at hmembers ⊢
  obtain _ | ⟨⟨hf⟩, ⟨⟩⟩ := hmembers
  obtain ⟨args, hbody, hargs⟩ := hf.broad "np" rfl (by decide)
  have hcontext : ∀ param ∈ (questionOn 3).params, param.name ≠ "context" := by decide
  refine ⟨_, rfl, ?_⟩
  rcases hargs with ⟨-, param, hp, hn⟩ | ⟨rfl, -⟩
  · exact absurd hn (hcontext param hp)
  · exact hbody

theorem DocumentEdit.of_catDocument
    (h : DocumentEdit .standard [("Cat", Schema.anyJson)] written catDocument after) :
    ∃ cat again new, after.imports = [new] ∧ new.isMarker .standard = true ∧
      after.members = [.type cat, .function again] ∧ again.body = (questionOn 3).body ∧
      cat.tags = [⟨⟨some new.alias, "Schema"⟩, some Schema.anyJson.text⟩] := by
  have hmarker : catDocument.markerAlias? .standard = none := by decide
  have hlacks : catDefinition.Lacks .standard none [("Cat", Schema.anyJson)] Schema.anyJson :=
    ⟨rfl, by simp [catDefinition]⟩
  obtain ⟨new, himports, hnew, halias⟩ := h.imported hmarker
    ⟨catDefinition, List.mem_cons_self, Schema.anyJson, hmarker ▸ hlacks⟩
  have hmembers := h.members
  rw [hmarker] at hmembers
  generalize after.members = members at hmembers ⊢
  obtain _ | ⟨_ | ⟨ht⟩, _ | ⟨⟨hf⟩, ⟨⟩⟩⟩ := hmembers
  refine ⟨_, _, new, himports, hnew, rfl, hf.kept ?_, ?_⟩
  · rintro ⟨own, ho, -⟩
    cases ho
  · rw [ht.appended Schema.anyJson hlacks, halias]
    rfl

theorem SourceModule.rewrite_edits_cat :
    let result := catSource.rewrite catArena.model catArena.openApiMapper .standard
    (∀ diagnostic ∈ result.diagnostics, diagnostic.isError = false) ∧
    (∃ document ∈ catSource.allDocuments, ∃ function, document.Tagged .standard function) ∧
    result.schemas = [("Cat", Schema.anyJson)] ∧ result.rewritten = 1 ∧
    ∃ main cats question cat again new, result.source.documents = [main, cats] ∧
      main.imports = mainDocument.imports ∧ main.members = [.function question] ∧
      question.body = .call ⟨⟨some "np", "callLlm"⟩, ["prompt"]⟩ ∧
      cats.imports = [new] ∧ new.isMarker .standard = true ∧
      cats.members = [.type cat, .function again] ∧ again.body = (questionOn 3).body ∧
      cat.tags = [⟨⟨some new.alias, "Schema"⟩, some Schema.anyJson.text⟩] := by
  intro result
  obtain ⟨hdiagnostics, -, hedits⟩ := SourceModule.rewrite_edits_exactly catArena.model
    catArena.openApiMapper .standard catSource
  obtain ⟨-, hchecked⟩ := passes_iff.mp passes_catSource
  have hclean : ∀ diagnostic ∈ result.diagnostics, diagnostic.isError = false := by
    rw [hdiagnostics]
    intro diagnostic hd
    exact Bool.eq_false_iff.mpr (List.any_eq_false.mp hchecked diagnostic hd)
  have htagged : ∃ document ∈ catSource.allDocuments, ∃ function,
      document.Tagged .standard function := by
    obtain ⟨document, hd, function, form, ht⟩ := passes_catSource.tagged
    exact ⟨document, hd, function, Document.tagged_iff.mpr ⟨form, ht⟩⟩
  have hschemas : result.schemas = [("Cat", Schema.anyJson)] :=
    (rewrite_of_passes _ passes_catSource).2.1.trans extractSchemas_catSource
  obtain ⟨hedit, hcount, -⟩ := hedits hclean htagged
  refine ⟨hclean, htagged, hschemas, hcount, ?_⟩
  have hdocuments := hschemas ▸ hedit.documents
  change List.Forall₂ _ _ result.source.documents at hdocuments
  generalize result.source.documents = documents at hdocuments ⊢
  obtain _ | ⟨⟨_, hmain⟩, _ | ⟨⟨_, hcats⟩, ⟨⟩⟩⟩ := hdocuments
  obtain ⟨hkept, question, hquestion, hcall⟩ := hmain.of_mainDocument
  obtain ⟨cat, again, new, himports, hnew, hmembers, hbody, htags⟩ := hcats.of_catDocument
  exact ⟨_, _, question, cat, again, new, rfl, hkept, hquestion, hcall, himports, hnew, hmembers,
    hbody, htags⟩

end NaturalFunctions
